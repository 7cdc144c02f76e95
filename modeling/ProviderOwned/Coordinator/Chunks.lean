import ProviderOwned.Client.Speculation
import ProviderOwned.Coordinator.Pipeline

/-!
# Chunks on their way

A chunk that enters the route is verified against what its stages have decoded by then, wherever
its frames wait in between (`serial_chunk`). So the replies to the chunks in flight are known as
soon as the chunks are sent: a chunk that belongs to the current epoch is checked against the text
the chunks before it would make if all their guesses were right (`Lined`), and what an older one
returns does not matter.
-/

namespace ProviderOwned

variable {H σ : Type*}

/-! ### Through the stages -/

section serial

variable {context session request p : Nat} {cells : List (Cell H)} {type : FrameType}

lemma Connection.serve_of_reply {c : Connection H} {f reply : Frame H}
    (h : (c.exchange f).2 = .ok reply) : c.serve f = ((c.exchange f).1, reply) := by
  rw [serve, h]

/-- The relays pass on a verify batch in 32-bit floats. -/
lemma validateRelayActivation_batchFrame {call : Call} {rows : List H} (hrows : rows ≠ [])
    (hsize : rows.length * call.hidden ≤ (maxPayload - 8) / 4) :
    validateRelayActivation call (batchFrame .speculativeActivation call.session call.request p
      rows call.hidden .f32le) = true := by
  have hlength : rows.length ≠ 0 := by simpa using hrows
  simp [validateRelayActivation, batchFrame, hrows, hsize]

/-- A batch that the first stage of a route decodes goes through all of it. -/
lemma serial_batch {hidden : Nat} (hsession : session ≠ 0) (hrequest : request ≠ 0)
    {c : Connection H} {rest : List (Connection H)} {f : Frame H} {batch : List (Cell H)}
    {first : Bool} (hwired : Wired context hidden first (modelsOf (c :: rest)))
    (hdecodes : c.Decodes f type session request p (cells.take p) batch)
    (hrest : Along (Session.Open type request) session (image c.stage.model cells) rest)
    (hfits : BatchFits context hidden type p batch.length) (hp : p ≤ cells.length) :
    (Chain.serial Connection.serve (c :: rest) f).2 =
        tailReply ((modelsOf rest).getLastD c.stage.model) type session request (p + batch.length)
          (batch.prefixMap fun b => next (modelsOf (c :: rest)) (cells.take p ++ b)) ∧
      modelsOf (Chain.serial Connection.serve (c :: rest) f).1 = modelsOf (c :: rest) ∧
      Along (Session.Running request) session (cells.take p ++ batch)
        (Chain.serial Connection.serve (c :: rest) f).1 := by
  induction rest generalizing c cells f batch first with
  | nil =>
    have hlast : c.stage.model.last = true := hwired.2.2
    have hreply := hdecodes.reply
    rw [batchReply, if_pos hlast] at hreply
    rw [Chain.serial, Connection.serve_of_reply hreply, Chain.serial]
    refine ⟨rfl, ?_, ⟨hdecodes.up, hdecodes.held⟩, trivial⟩
    simp [modelsOf, hdecodes.model]
  | cons c' rest ih =>
    obtain ⟨hreply, hdecodes'⟩ := hdecodes.onward hsession hrequest hwired hrest hfits hp
    obtain ⟨hsized, -, -, hwired'⟩ := hwired
    have himage : (image c.stage.model cells).take p = image c.stage.model (cells.take p) :=
      (Session.image_take cells p).symm
    have hlength : ((Session.rowsOf c.stage.model (cells.take p) batch).map
        (Cell.hidden (H := H))).length = batch.length := by simp
    obtain ⟨htail, hmodels, halong⟩ := ih hwired' hdecodes' hrest.2 (by rwa [hlength])
      (by simpa using hp)
    rw [Chain.serial, Connection.serve_of_reply hreply]
    refine ⟨?_, ?_, ⟨hdecodes.up, hdecodes.held⟩, ?_⟩
    · rw [htail, modelsOf_cons, modelsOf_cons, modelsOf_cons, next_prefixMap, hlength, himage,
        List.getLastD_cons]
    · rw [modelsOf_cons, hmodels, hdecodes.model, ← modelsOf_cons]
    · rw [hdecodes.model, Session.image_append, ← himage]
      exact halong

/-- On its way every relay lets it pass if the stages send 32-bit floats. -/
lemma serialPasses_batch {call : Call} (hsession : call.session ≠ 0) (hrequest : call.request ≠ 0)
    {c : Connection H} {rest : List (Connection H)} {f : Frame H} {batch : List (Cell H)}
    {first : Bool} (hwired : Wired context call.hidden first (modelsOf (c :: rest)))
    (hwire : ∀ m ∈ (modelsOf (c :: rest)).dropLast, m.wire = .f32le)
    (hdecodes : c.Decodes f .speculativeActivation call.session call.request p (cells.take p) batch)
    (hrest : Along (Session.Open .speculativeActivation call.request) call.session
      (image c.stage.model cells) rest)
    (hfits : BatchFits context call.hidden .speculativeActivation p batch.length)
    (hp : p ≤ cells.length) :
    Chain.SerialPasses Connection.serve (fun y => validateRelayActivation call y = true)
      (c :: rest) f := by
  induction rest generalizing c cells f batch first with
  | nil => trivial
  | cons c' rest ih =>
    obtain ⟨hreply, hdecodes'⟩ := hdecodes.onward hsession hrequest hwired hrest hfits hp
    obtain ⟨hsized, -, -, hwired'⟩ := hwired
    have hhere : c.stage.model.wire = .f32le := hwire _ List.mem_cons_self
    have hlength : ((Session.rowsOf c.stage.model (cells.take p) batch).map
        (Cell.hidden (H := H))).length = batch.length := by simp
    constructor
    · rw [Connection.serve_of_reply hreply, hhere]
      apply validateRelayActivation_batchFrame
      · simpa [← List.length_eq_zero_iff] using hfits.nonempty
      · simpa using hfits.payload
    · rw [Connection.serve_of_reply hreply]
      apply ih hwired'
      · intro m hm
        exact hwire m (List.mem_cons_of_mem _ hm)
      · exact hdecodes'
      · exact hrest.2
      · rwa [hlength]
      · simpa using hp

end serial

def chunkReply (c : Call) (chunk : SpeculativeChunk) (samples : List Token) : Frame H :=
  { type := .result, session := c.session, request := c.request
    position := chunk.basePosition + chunk.guesses.length, rows := samples.length
    payload := .verified samples }

lemma requireChunk_chunkReply {c : Call} {chunk : SpeculativeChunk} {samples : List Token}
    (h : samples.length = chunk.guesses.length) :
    requireChunk (H := H) c (chunkReply c chunk samples) chunk = some samples := by
  rw [requireChunk, if_neg (by simp [chunkReply, h])]
  exact if_pos rfl

/-- The tokens of a chunk's frame. -/
def blockOf (carry : Token) (chunk : SpeculativeChunk) : List Token :=
  carry :: chunk.guesses.take (chunk.guesses.length - 1)

lemma length_blockOf (carry : Token) {chunk : SpeculativeChunk} (h : 1 ≤ chunk.guesses.length) :
    (blockOf carry chunk).length = chunk.guesses.length := by
  simp only [blockOf, List.length_cons, List.length_take]
  omega

/-- With the last guess behind them they are the carried token and all guesses. -/
lemma blockOf_concat (carry : Token) {chunk : SpeculativeChunk} (h : 1 ≤ chunk.guesses.length) :
    blockOf carry chunk ++ [chunk.guesses.getLastD 0] = carry :: chunk.guesses := by
  have hne : chunk.guesses ≠ [] := List.length_pos_iff.mp h
  rw [blockOf, ← List.dropLast_eq_take, List.getLastD_eq_getLast?,
    List.getLast?_eq_some_getLast hne, List.cons_append]
  exact congrArg _ (List.dropLast_append_getLast hne)

/-- A chunk on a route that has decoded the text before it. -/
lemma serial_chunk {context : Nat} {r : PipelineRun σ} {stages : List (Connection H)}
    {text : List Token} {chunk : SpeculativeChunk} (carry : Token)
    (hsend : Sendable context r.call.hidden r.call.session r.call.request)
    (hon : OnText context r.call.hidden r.call.session r.call.request text stages)
    (hwire : ∀ m ∈ (modelsOf stages).dropLast, m.wire = .f32le)
    (hguesses : chunk.guesses.length = r.draftTokens)
    (hwidth : 1 ≤ r.draftTokens ∧ r.draftTokens ≤ maxSpeculativeWidth)
    (hp : chunk.basePosition ≤ text.length)
    (hroom : chunk.basePosition + r.draftTokens ≤ context) :
    (Chain.serial Connection.serve stages (chunkFrame r carry chunk)).2 =
        chunkReply r.call chunk ((blockOf carry chunk).prefixMap fun b =>
          nextToken (modelsOf stages) (text.take chunk.basePosition ++ b)) ∧
      modelsOf (Chain.serial Connection.serve stages (chunkFrame r carry chunk)).1 =
        modelsOf stages ∧
      OnText context r.call.hidden r.call.session r.call.request
        (text.take chunk.basePosition ++ blockOf carry chunk)
        (Chain.serial Connection.serve stages (chunkFrame r carry chunk)).1 ∧
      Chain.SerialPasses Connection.serve (fun y => validateRelayActivation r.call y = true) stages
        (chunkFrame r carry chunk) := by
  cases stages with
  | nil => exact hon.wired.elim
  | cons c rest =>
    have hblock : (blockOf carry chunk).length = chunk.guesses.length :=
      length_blockOf carry (by omega)
    have hframe : chunkFrame (H := H) r carry chunk = tokensFrame .token r.call.session
        r.call.request chunk.basePosition (blockOf carry chunk).length (blockOf carry chunk) := by
      rw [chunkFrame, hblock, hguesses, blockOf, hguesses]
    have hfits : Session.FitsTokens .token (blockOf carry chunk).length (blockOf carry chunk) :=
      .inr ⟨rfl, rfl, List.cons_ne_nil _ _, by omega⟩
    have htype : carriedType (chunkFrame (H := H) r carry chunk) = .speculativeActivation := by
      rw [hframe]
      simp [carriedType, tokensFrame, Session.isSpeculative, blockOf]
    obtain ⟨hdecodes, hbatch⟩ := hon.decodes hsend hp hfits (by omega) hframe
    rw [htype] at hdecodes hbatch
    have hrest := hon.along.2.opened .speculativeActivation
    obtain ⟨hreply, hmodels, halong⟩ := serial_batch hsend.session hsend.request hon.wired hdecodes
      hrest hbatch (by simpa using hp)
    rw [← List.map_take, ← List.map_append] at halong
    rw [← List.map_take, samples_tokens, List.length_map, hblock] at hreply
    refine ⟨?_, hmodels, ⟨?_, halong⟩, ?_⟩
    · rw [hreply, tailReply, if_neg (by simp), if_pos rfl]
      rfl
    · rw [hmodels]
      exact hon.wired
    · exact serialPasses_batch hsend.session hsend.request hon.wired hwire hdecodes hrest hbatch
        (by simpa using hp)

/-! ### The chunks in flight -/

/-- Chunks in flight and the replies they will get. A live one is checked against the text the live
ones before it lead to, from `text` on; what follows is the text after all of them. -/
inductive Lined (c : Call) (next : List Token → Token) (count : Nat)
    (live : SpeculativeChunk → Bool) :
    List Token → List SpeculativeChunk → List (Frame H) → List Token → Prop
  | nil (text : List Token) : Lined c next count live text [] [] text
  | stale {text samples : List Token} {chunk : SpeculativeChunk} {chunks : List SpeculativeChunk}
      {replies : List (Frame H)} {final : List Token} (hlive : live chunk = false)
      (hguesses : chunk.guesses.length = count) (hsamples : samples.length = count)
      (hrest : Lined c next count live text chunks replies final) :
      Lined c next count live text (chunk :: chunks) (chunkReply c chunk samples :: replies) final
  | current {text : List Token} {chunk : SpeculativeChunk} {chunks : List SpeculativeChunk}
      {replies : List (Frame H)} {final : List Token} (hlive : live chunk = true)
      (hguesses : chunk.guesses.length = count) (hbase : chunk.basePosition + 1 = text.length)
      (hrest : Lined c next count live (text ++ chunk.guesses) chunks replies final) :
      Lined c next count live text (chunk :: chunks)
        (chunkReply c chunk (Decode.samples next text chunk.guesses) :: replies) final

namespace Lined

variable {c : Call} {next : List Token → Token} {count : Nat} {live live' : SpeculativeChunk → Bool}
  {text final : List Token} {chunks : List SpeculativeChunk} {replies : List (Frame H)}
  {chunk : SpeculativeChunk}

lemma length (h : Lined c next count live text chunks replies final) :
    replies.length = chunks.length := by
  induction h with
  | nil text => rfl
  | stale _ _ _ _ ih => simp [ih]
  | current _ _ _ _ ih => simp [ih]

/-- Every reply passes the receiver's check. -/
lemma requireChunk_head {reply : Frame H}
    (h : Lined c next count live text (chunk :: chunks) (reply :: replies) final) :
    ∃ samples, requireChunk c reply chunk = some samples := by
  cases h with
  | stale _ hguesses hsamples _ =>
    exact ⟨_, requireChunk_chunkReply (hsamples.trans hguesses.symm)⟩
  | current _ _ _ _ => exact ⟨_, requireChunk_chunkReply (Decode.length_samples ..)⟩

/-- The text after all chunks continues the text before them, by the guesses of the live ones. -/
lemma final_eq (h : Lined c next count live text chunks replies final) :
    ∃ guessed, final = text ++ guessed ∧ guessed.length = count * chunks.countP live := by
  induction h with
  | nil text => exact ⟨[], by simp, by simp⟩
  | stale hlive _ _ _ ih =>
    obtain ⟨guessed, hfinal, hlength⟩ := ih
    refine ⟨guessed, hfinal, ?_⟩
    rw [hlength, List.countP_cons_of_neg (by simp [hlive])]
  | @current text chunk chunks _ _ hlive hguesses _ _ ih =>
    obtain ⟨guessed, hfinal, hlength⟩ := ih
    refine ⟨chunk.guesses ++ guessed, by rw [hfinal, List.append_assoc], ?_⟩
    rw [List.length_append, hlength, hguesses, List.countP_cons_of_pos hlive, Nat.mul_succ,
      Nat.add_comm]

lemma concat_stale (h : Lined c next count live text chunks replies final)
    {samples : List Token} (hlive : live chunk = false) (hguesses : chunk.guesses.length = count)
    (hsamples : samples.length = count) :
    Lined c next count live text (chunks ++ [chunk]) (replies ++ [chunkReply c chunk samples])
      final := by
  induction h with
  | nil text => exact .stale hlive hguesses hsamples (.nil text)
  | stale hlive' hguesses' hsamples' _ ih => exact .stale hlive' hguesses' hsamples' ih
  | current hlive' hguesses' hbase _ ih => exact .current hlive' hguesses' hbase ih

lemma concat_current (h : Lined c next count live text chunks replies final)
    (hlive : live chunk = true) (hguesses : chunk.guesses.length = count)
    (hbase : chunk.basePosition + 1 = final.length) :
    Lined c next count live text (chunks ++ [chunk])
      (replies ++ [chunkReply c chunk (Decode.samples next final chunk.guesses)])
      (final ++ chunk.guesses) := by
  induction h with
  | nil text => exact .current hlive hguesses hbase (.nil _)
  | stale hlive' hguesses' hsamples' _ ih => exact .stale hlive' hguesses' hsamples' (ih hbase)
  | current hlive' hguesses' hbase' _ ih => exact .current hlive' hguesses' hbase' (ih hbase)

/-- Once no chunk is live, none of them matters to the text. -/
lemma discard (h : Lined c next count live text chunks replies final)
    (hdead : ∀ chunk ∈ chunks, live' chunk = false) (text' : List Token) :
    Lined c next count live' text' chunks replies text' := by
  induction h with
  | nil text => exact .nil text'
  | stale _ hguesses hsamples _ ih =>
    exact .stale (hdead _ List.mem_cons_self) hguesses hsamples
      (ih fun chunk hchunk => hdead chunk (List.mem_cons_of_mem _ hchunk))
  | current _ hguesses _ _ ih =>
    exact .stale (hdead _ List.mem_cons_self) hguesses (by rw [Decode.length_samples, hguesses])
      (ih fun chunk hchunk => hdead chunk (List.mem_cons_of_mem _ hchunk))

end Lined

/-! ### The verdict on a chunk -/

namespace Target

variable (t : Target) {c : Call}

lemma le_of_goesOn {n : Nat} (h : c.goesOn (t.resultAfter c.sink n) = false) : t.rounds c ≤ n :=
  Nat.find_min' (t.exists_ends c) h

/-- A text that is right for `j` tokens is right up to any of them. -/
lemma take_append_eq_text {k j m : Nat} {ids : List Token}
    (h : t.text k ++ ids.take j = t.text (k + j)) (hm : m ≤ k + j) :
    (t.text k ++ ids).take (t.prompt.length + m) = t.text m := by
  have hright : (t.text k ++ ids).take (t.prompt.length + (k + j)) = t.text (k + j) := by
    have hrest : t.prompt.length + (k + j) - (t.text k).length = j := by
      rw [length_text]
      omega
    rw [List.take_append, List.take_of_length_le (by rw [length_text]; omega), hrest, h]
  rw [← t.take_text hm, ← hright, List.take_take, Nat.min_eq_left (by omega)]

end Target

section verdict

variable {t : Target} {d : Drafter σ} {prompt : String} (hagrees : d.Agrees t prompt)
include hagrees

/-- The loop over the guesses stops at the end of the request or at the first wrong guess. -/
lemma acceptChunk_spec (c : Call) (guesses : List Token) {n : Nat} (q : Nat)
    (hn : n < t.rounds c) :
    ∃ j stopped,
      acceptChunk d c guesses (Decode.samples t.next (t.text (n + 1)) guesses)
        { t.recorded c.sink (n + 1) with position := q } =
          ({ t.recorded c.sink (n + 1 + j) with position := q }, j, stopped) ∧
      j ≤ guesses.length ∧ t.text (n + 1) ++ guesses.take j = t.text (n + 1 + j) ∧
      (stopped = true → 1 ≤ j ∧ n + j = t.rounds c) ∧
      (stopped = false → n + j < t.rounds c ∧ (j < guesses.length →
        (Decode.samples t.next (t.text (n + 1)) guesses).getD j 0 = t.next (t.text (n + 1 + j)) ∧
        guesses.getD j 0 ≠ t.next (t.text (n + 1 + j)))) := by
  induction guesses generalizing n with
  | nil => exact ⟨0, false, rfl, le_rfl, by simp, by simp, by simp [hn]⟩
  | cons guess guesses ih =>
    rw [Decode.samples_cons, acceptChunk]
    by_cases hright : guess = t.next (t.text (n + 1))
    · have hgo := t.goesOn_of_lt c hn
      have heog : (t.recorded c.sink (n + 1)).eog = false := by
        simp only [Call.goesOn, Target.resultAfter, Bool.and_eq_true, Bool.not_eq_true'] at hgo
        exact hgo.1.2
      have htaken : RequestResult.confirm c.sink
          { t.recorded c.sink (n + 1) with position := q } guess (d.piece guess) (d.isEog guess) =
            { t.recorded c.sink (n + 1 + 1) with position := q } := by
        rw [RequestResult.confirm, hright, hagrees.piece, hagrees.isEog, heog, Bool.false_or]
        rfl
      have htext : t.text (n + 1) ++ [guess] = t.text (n + 1 + 1) := by
        rw [hright, ← t.text_succ]
      have hstop : ((t.recorded c.sink (n + 1 + 1)).cancelled = true ∨ d.isEog guess = true ∨
          c.limit ≤ (t.recorded c.sink (n + 1 + 1)).tokenIds.length) ↔
            c.goesOn (t.resultAfter c.sink (n + 1)) = false := by
        have heog' : d.isEog guess = (t.recorded c.sink (n + 1 + 1)).eog := by
          rw [hright, hagrees.isEog]
          rfl
        rw [heog', Call.goesOn, Target.resultAfter]
        simp only [Bool.and_eq_false_iff, decide_eq_false_iff_not, Bool.not_eq_false', not_lt]
        tauto
      rw [if_pos hright]
      simp only [htaken, htext]
      by_cases hends : c.goesOn (t.resultAfter c.sink (n + 1)) = false
      · rw [if_pos (hstop.mpr hends)]
        have hrounds := t.le_of_goesOn hends
        exact ⟨1, true, rfl, by simp, by simpa using htext, fun _ => ⟨le_rfl, by omega⟩, by simp⟩
      · rw [if_neg (fun h => hends (hstop.mp h))]
        have hlt : n + 1 < t.rounds c := by
          by_contra hge
          have hlast : t.rounds c = n + 1 := by omega
          exact hends (hlast ▸ t.goesOn_rounds c)
        obtain ⟨j, stopped, hrun, hj, htake, hstopped, hgoing⟩ := ih hlt
        have hindex : n + 1 + 1 + j = n + 1 + (j + 1) := by omega
        have hindex' : n + 1 + j = n + (j + 1) := by omega
        rw [hindex] at hrun htake hgoing
        rw [hindex'] at hstopped hgoing
        refine ⟨j + 1, stopped, ?_, by simpa using hj, ?_, ?_, ?_⟩
        · rw [hrun]
        · rw [List.take_succ_cons, ← List.singleton_append, ← List.append_assoc, htext, htake]
        · intro h
          exact ⟨by omega, (hstopped h).2⟩
        · intro h
          refine ⟨(hgoing h).1, ?_⟩
          intro hlength
          rw [List.getD_cons_succ, List.getD_cons_succ]
          exact (hgoing h).2 (by simpa using hlength)
    · rw [if_neg hright]
      exact ⟨0, false, rfl, by simp, by simp, by simp, fun _ => ⟨by omega, fun _ => ⟨rfl, hright⟩⟩⟩

end verdict

/-- All guesses of a chunk are right but the last one, and the request goes on after it. -/
def LastGuessWrong (t : Target) (c : Call) (n : Nat) (guesses : List Token) : Prop :=
  n + guesses.length < t.rounds c ∧
    t.text (n + 1) ++ guesses.take (guesses.length - 1) = t.text (n + guesses.length) ∧
    guesses.getLastD 0 ≠ t.next (t.text (n + guesses.length))

/-- What the reply to a chunk leads to when it is applied after `n` rounds: the end of the request,
a correction, or, if every guess was right, nothing but their tokens. -/
inductive Verdict (t : Target) (c : Call) (s : PipelineState H σ) (n : Nat) (guesses : List Token) :
    PipelineState H σ → Prop
  | finish (m : Nat) (hm : n < m) (hle : m ≤ n + guesses.length) (hrounds : m = t.rounds c)
      (htext : (t.text (n + 1) ++ guesses).take (t.prompt.length + m) = t.text m) :
      Verdict t c s n guesses
        { s with output := t.resultAfter c.sink m, receiver := .waiting, finished := true }
  | correct (m : Nat) (hm : n < m) (hlt : m < n + guesses.length) (hrounds : m < t.rounds c)
      (htext : (t.text (n + 1) ++ guesses).take (t.prompt.length + m) = t.text m) :
      Verdict t c s n guesses
        { s with
          output := t.resultAfter c.sink m, receiver := .waiting, epoch := s.epoch + 1
          correction := some (t.prompt.length + m, t.next (t.text m)) }
  | accept (hrounds : n + guesses.length < t.rounds c)
      (htext : t.text (n + 1) ++ guesses = t.text (n + guesses.length + 1)) :
      Verdict t c s n guesses
        { s with output := t.resultAfter c.sink (n + guesses.length), receiver := .waiting }

section settle

variable {r : PipelineRun σ} {t : Target} {s : PipelineState H σ} {chunk : SpeculativeChunk}
  {n m : Nat}

lemma Target.recorded_eq_resultAfter (t : Target) (sink : TokenSink) {k n q : Nat}
    (hk : k = n + 1) (hq : q = t.prompt.length + n) :
    { t.recorded sink k with position := q } = t.resultAfter sink n := by
  rw [hk, hq]
  rfl

lemma Target.ends_iff (t : Target) (c : Call) (m : Nat) :
    ((t.resultAfter c.sink m).cancelled = true ∨ (t.resultAfter c.sink m).eog = true ∨
      c.limit ≤ (t.resultAfter c.sink m).tokenIds.length) ↔
        c.goesOn (t.resultAfter c.sink m) = false := by
  rw [Call.goesOn]
  simp only [Bool.and_eq_false_iff, decide_eq_false_iff_not, Bool.not_eq_false', not_lt]
  tauto

lemma conclude_finish (hm : m = t.rounds r.call) (inputs : Nat) :
    s.conclude r chunk (t.resultAfter r.call.sink m) inputs =
      { s with output := t.resultAfter r.call.sink m, receiver := .waiting, finished := true } := by
  apply if_pos
  rw [t.ends_iff, hm]
  exact t.goesOn_rounds r.call

lemma conclude_goes (hm : m < t.rounds r.call) (inputs : Nat) :
    s.conclude r chunk (t.resultAfter r.call.sink m) inputs =
      if inputs ≠ chunk.guesses.length then
        { s with
          output := t.resultAfter r.call.sink m, receiver := .waiting, epoch := s.epoch + 1
          correction := some (t.prompt.length + m, t.next (t.text m)) }
      else { s with output := t.resultAfter r.call.sink m, receiver := .waiting } := by
  apply if_neg
  rw [t.ends_iff, t.goesOn_of_lt r.call hm]
  simp

/-- The reply to a chunk that is not wrong in its last guess only. -/
lemma settle_spec {prompt : String} (hagrees : r.drafter.Agrees t prompt)
    (hn : n < t.rounds r.call) (hout : s.output = t.resultAfter r.call.sink n)
    (hbase : chunk.basePosition = t.prompt.length + n) (hguesses : 1 ≤ chunk.guesses.length)
    (hlast : ¬ LastGuessWrong t r.call n chunk.guesses) :
    Verdict t r.call s n chunk.guesses (s.settle r chunk
      (Decode.samples t.next (t.text (n + 1)) chunk.guesses)) := by
  obtain ⟨j, stopped, hrun, hj, htake, hstopped, hgoing⟩ :=
    acceptChunk_spec hagrees r.call chunk.guesses (t.prompt.length + n) hn
  have hindex : n + 1 + j = n + j + 1 := by omega
  rw [PipelineState.settle, hout, Target.resultAfter, hrun]
  cases stopped with
  | true =>
    obtain ⟨hpos, hrounds⟩ := hstopped rfl
    have hresult : { t.recorded r.call.sink (n + 1 + j) with
        position := chunk.basePosition + j } = t.resultAfter r.call.sink (n + j) :=
      t.recorded_eq_resultAfter r.call.sink (by omega) (by omega)
    simp only [Bool.not_true, Bool.false_eq_true, false_and, if_false, if_true]
    rw [if_neg (by omega), hresult, conclude_finish hrounds]
    exact .finish _ (by omega) (by omega) hrounds (t.take_append_eq_text htake (by omega))
  | false =>
    obtain ⟨hlt, hwrong⟩ := hgoing rfl
    by_cases hall : j < chunk.guesses.length
    · obtain ⟨hnext, hguess⟩ := hwrong hall
      have hresult : { RequestResult.record r.call.sink
            { t.recorded r.call.sink (n + 1 + j) with position := t.prompt.length + n }
            (t.next (t.text (n + 1 + j))) (r.drafter.piece (t.next (t.text (n + 1 + j))))
            (r.drafter.isEog (t.next (t.text (n + 1 + j)))) with
          position := chunk.basePosition + (j + 1) } = t.resultAfter r.call.sink (n + 1 + j) := by
        rw [hagrees.piece, hagrees.isEog]
        exact t.recorded_eq_resultAfter r.call.sink rfl (by omega)
      have htext := t.take_append_eq_text (m := n + 1 + j) htake le_rfl
      simp only [hall, hnext, Bool.not_false, Bool.false_eq_true, and_true, if_true, if_false]
      rw [min_eq_right (by omega), if_neg (by omega), hresult]
      by_cases hrounds : n + 1 + j = t.rounds r.call
      · rw [conclude_finish hrounds]
        exact .finish _ (by omega) (by omega) hrounds htext
      · rw [conclude_goes (by omega)]
        by_cases hfull : j + 1 = chunk.guesses.length
        · -- a wrong guess at the very end would pass for a chunk that is right throughout
          exfalso
          apply hlast
          have hj : chunk.guesses.length - 1 = j := by omega
          have hn' : n + chunk.guesses.length = n + 1 + j := by omega
          refine ⟨by omega, ?_, ?_⟩
          · rw [hj, hn']
            exact htake
          · rw [hn', List.getLastD_eq_getLast?, List.getLast?_eq_getElem?, hj,
              ← List.getD_eq_getElem?_getD]
            exact hguess
        · rw [if_pos hfull]
          exact .correct _ (by omega) (by omega) (by omega) htext
    · have hfull : j = chunk.guesses.length := by omega
      have hresult : { t.recorded r.call.sink (n + 1 + j) with
          position := chunk.basePosition + j } =
            t.resultAfter r.call.sink (n + j) :=
        t.recorded_eq_resultAfter r.call.sink (by omega) (by omega)
      simp only [hall, Bool.not_false, Bool.false_eq_true, and_false, if_false]
      rw [min_eq_left (by omega), if_neg (by omega), ← hfull, hresult, conclude_goes hlt,
        if_neg (by omega), hfull]
      apply Verdict.accept
      · omega
      · rw [hfull, List.take_length] at htake
        rw [htake, ← hfull, hindex]

end settle

end ProviderOwned
