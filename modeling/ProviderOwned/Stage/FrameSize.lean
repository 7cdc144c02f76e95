import ProviderOwned.Stage.Mirror
import ProviderOwned.Stage.Rejection
import ProviderOwned.Wire.Guesses

/-!
# How large a first stage's frames are

What a first stage with a next one sends for a prompt, for tokens and for a round with guesses
(`decode_prefill_chunk`, `run_first`, `draft_round`), and the bytes of it. The rows of a prompt are
bounded by its chunks and by the context, those of a round by the width it asks for, by the widest
batch the stages take and by the room behind its position.
-/

namespace ProviderOwned

variable {H : Type*}

/-- The bytes of the payload of an activation frame: eight for the time, its rows, and four for each
guess. -/
def Frame.activationSize (f : Frame H) : Nat :=
  match f.payload with
  | .hidden rows guesses => 8 + rows.length * Wire.rowBytes f.dtype.code f.cols + guesses.length * 4
  | _ => 0

lemma dtypeOf_code {code : UInt16} (h : Wire.activationDtype code) :
    (Wire.dtypeOf code).code = code := by
  rw [Wire.activationDtype, Bool.or_eq_true, Bool.or_eq_true, decide_eq_true_eq, decide_eq_true_eq,
    decide_eq_true_eq] at h
  rcases h with (rfl | rfl) | rfl
  · rfl
  · rfl
  · rfl

/-- The size of a decoded frame is the number of its bytes. -/
theorem activationSize_decoded {f : Wire.WireFrame} {rows : List H} {n : Nat}
    (hrows : rows.length = f.rows.toNat) (hdtype : Wire.activationDtype f.dtype)
    (hlength : f.payload.length = 8 + f.rows.toNat * Wire.rowBytes f.dtype f.cols.toNat + n * 4) :
    (Wire.decoded rows f).activationSize = f.payload.length := by
  have hsize : (Wire.decoded rows f).activationSize =
      8 + rows.length * Wire.rowBytes (Wire.dtypeOf f.dtype).code f.cols.toNat +
        ((Wire.words (f.payload.drop (8 + f.rows.toNat * Wire.rowBytes f.dtype f.cols.toNat))).map
          UInt32.toNat).length * 4 := rfl
  have hguesses :
      (Wire.words (f.payload.drop (8 + f.rows.toNat * Wire.rowBytes f.dtype f.cols.toNat))).length =
        n := by
    refine Wire.length_words_of ?_
    rw [List.length_drop, hlength]
    omega
  rw [hsize, hrows, dtypeOf_code hdtype, List.length_map, hguesses, hlength]

/-! ### Frames without guesses -/

/-- A frame as the stage makes it from a batch it has decoded. -/
structure Frame.Of (m : StageModel H) (f : Frame H) : Prop where
  payload : ∃ rows : List H, rows.length = f.rows ∧ f.payload = .hidden rows []
  cols : f.cols = m.hidden
  dtype : f.dtype = m.wire

lemma Frame.Of.size {m : StageModel H} {f : Frame H} (h : f.Of m) :
    f.activationSize = 8 + f.rows * Wire.rowBytes m.wire.code m.hidden := by
  obtain ⟨rows, hrows, hpayload⟩ := h.payload
  rw [Frame.activationSize, hpayload, h.cols, h.dtype, ← hrows]
  rfl

/-- The rows of a prompt's frames, at most. -/
def promptRows (context chunk : Nat) : Nat := if chunk = 0 then context else min context chunk

namespace Session

variable {m : StageModel H} {s : Session H} {input : Frame H} {tokens : List Token} {chunk : Nat}
  {ok : Nat → Bool}

lemma throw_ne_ok (s : Session H) (message : String) (emitted : List (Frame H)) (f : Frame H) :
    (s.throw message emitted).reply ≠ .ok f := by
  intro h
  cases h

lemma firstActivation_of (m : StageModel H) (s : Session H) (input : Frame H) (type : FrameType)
    (tokens : List Token) : (s.firstActivation m input type tokens).Of m where
  payload := ⟨_, by rw [length_rowsOf, List.length_map]; rfl, rfl⟩
  cols := rfl
  dtype := rfl

@[simp] lemma firstActivation_rows (m : StageModel H) (s : Session H) (input : Frame H)
    (type : FrameType)
    (tokens : List Token) : (s.firstActivation m input type tokens).rows = tokens.length := rfl

/-- The chunks that are sent ahead and the tokens that are left are short, as each chunk takes some
tokens. -/
lemma prefillChunks_rows (hchunk : 0 < chunk) (fuel call : Nat) (s : Session H)
    (tokens : List Token) (emitted : List (Frame H)) (hfuel : tokens.length ≤ fuel)
    (hroom : tokens.length ≤ m.contextSize)
    (hsent : ∀ f ∈ emitted, f.Of m ∧ f.rows ≤ promptRows m.contextSize chunk) :
    (∀ f ∈ (prefillChunks m chunk ok input fuel call s tokens emitted).2.1,
      f.Of m ∧ f.rows ≤ promptRows m.contextSize chunk) ∧
    ∀ rest calls, (prefillChunks m chunk ok input fuel call s tokens emitted).2.2 =
      .ok (rest, calls) →
      rest.length ≤ promptRows m.contextSize chunk := by
  have hshort : ∀ tokens : List Token, tokens.length ≤ chunk → tokens.length ≤ m.contextSize →
      tokens.length ≤ promptRows m.contextSize chunk := by
    intro tokens hle hcontext
    rw [promptRows, if_neg hchunk.ne']
    exact le_min hcontext hle
  induction fuel generalizing call s tokens emitted with
  | zero =>
    refine ⟨hsent, fun rest calls h => ?_⟩
    rw [prefillChunks] at h
    injection h with hpair
    injection hpair with htokens
    rw [← htokens]
    exact hshort tokens (by omega) hroom
  | succ fuel ih =>
    rw [prefillChunks]
    split_ifs with hfits hfails
    · refine ⟨hsent, fun rest calls h => ?_⟩
      injection h with hpair
      injection hpair with htokens
      rw [← htokens]
      exact hshort tokens hfits hroom
    · refine ⟨hsent, fun rest calls h => ?_⟩
      cases h
    · refine ih _ _ _ _ ?_ ?_ fun f hf => ?_
      · rw [List.length_drop]
        omega
      · rw [List.length_drop]
        omega
      · rw [List.mem_append, List.mem_singleton] at hf
        rcases hf with hf | rfl
        · exact hsent f hf
        · refine ⟨firstActivation_of .., ?_⟩
          rw [firstActivation_rows]
          refine hshort _ ?_ ?_
          · rw [List.length_take]
            exact Nat.min_le_left _ _
          · rw [List.length_take]
            exact (Nat.min_le_right _ _).trans hroom

/-- The final batch is sent with a row for each of its tokens. -/
lemma finalBatch_sent (hlast : m.last = false) (s : Session H) (input : Frame H)
    (tokens : List Token) (decoded : Bool) (emitted : List (Frame H)) :
    (s.finalBatch m input tokens decoded emitted).emitted = emitted ∧
    ∀ f, (s.finalBatch m input tokens decoded emitted).reply = .ok f →
      f.Of m ∧ f.rows = tokens.length ∧ f.type = carriedType input := by
  rw [finalBatch]
  cases decoded with
  | false => exact ⟨rfl, fun f hf => absurd hf (s.throw_ne_ok _ emitted f)⟩
  | true =>
    rw [if_neg (by decide), if_neg (by rw [hlast]; decide)]
    refine ⟨rfl, fun f hf => ?_⟩
    injection hf with hf
    rw [← hf]
    exact ⟨firstActivation_of .., rfl, rfl⟩

/-- The frames of a prompt are those of its chunks. -/
lemma runTokens_prompt (hlast : m.last = false) (htype : input.type = .prompt) (s : Session H)
    (tokens : List Token) (chunk : Nat) (ok : Nat → Bool) (f : Frame H)
    (hf : f ∈ (s.runTokens m input tokens chunk ok).emitted ∨
      (s.runTokens m input tokens chunk ok).reply = .ok f) :
    f.Of m ∧ f.rows ≤ promptRows m.contextSize chunk := by
  rw [runTokens] at hf
  split_ifs at hf with hroom
  · rcases hf with hf | hf
    · cases hf
    · cases hf
  have hprefill : (∀ f ∈ (s.prefill m input tokens chunk ok).2.1, f.Of m ∧
      f.rows ≤ promptRows m.contextSize chunk) ∧
      ∀ rest calls, (s.prefill m input tokens chunk ok).2.2 = .ok (rest, calls) →
        rest.length ≤ promptRows m.contextSize chunk := by
    rw [prefill]
    split_ifs with hchunks
    · exact prefillChunks_rows hchunks.2.2.1 _ _ _ _ _ le_rfl (by omega)
        fun f hf => absurd hf List.not_mem_nil
    · refine ⟨fun f hf => absurd hf List.not_mem_nil, fun rest calls h => ?_⟩
      injection h with hpair
      injection hpair with htokens
      rw [← htokens, promptRows]
      rw [htype, hlast] at hchunks
      split_ifs with hnone
      · omega
      · have hshort : ¬ chunk < tokens.length := fun hlong => hchunks ⟨rfl, rfl, by omega, hlong⟩
        omega
  generalize s.prefill m input tokens chunk ok = result at hf hprefill
  obtain ⟨t, emitted, message | ⟨rest, calls⟩⟩ := result
  · rcases hf with hf | hf
    · exact hprefill.1 f hf
    · cases hf
  · obtain ⟨hemitted, hreply⟩ := finalBatch_sent hlast t input rest (ok calls) emitted
    rcases hf with hf | hf
    · exact hprefill.1 f (hemitted ▸ hf)
    · obtain ⟨hof, hrows, -⟩ := hreply f hf
      exact ⟨hof, hrows ▸ hprefill.2 rest calls rfl⟩

/-- Tokens are decoded in one batch, which fits into the context. -/
lemma runTokens_tokens (hlast : m.last = false) (htype : input.type ≠ .prompt) (s : Session H)
    (tokens : List Token) (chunk : Nat) (ok : Nat → Bool) :
    (s.runTokens m input tokens chunk ok).emitted = [] ∧
    ∀ f, (s.runTokens m input tokens chunk ok).reply = .ok f →
      f.Of m ∧ f.rows = tokens.length ∧ f.type = carriedType input ∧
      tokens.length ≤ m.contextSize - s.position := by
  have hprefill : s.prefill m input tokens chunk ok = (s, [], .ok (tokens, 0)) :=
    if_neg fun h => htype h.1
  rw [runTokens, hprefill]
  split_ifs with hroom
  · exact ⟨rfl, fun f hf => absurd hf (s.throw_ne_ok _ [] f)⟩
  · obtain ⟨hemitted, hreply⟩ := finalBatch_sent hlast s input tokens (ok 0) []
    refine ⟨hemitted, fun f hf => ?_⟩
    obtain ⟨hof, hrows, hcarried⟩ := hreply f hf
    exact ⟨hof, hrows, hcarried, Nat.not_lt.mp hroom⟩

/-- The frames that the stage sends for a prompt. -/
lemma execute_prompt_rows (hfirst : m.first = true) (hlast : m.last = false)
    (htype : input.type = .prompt) (s : Session H) (chunk : Nat) (ok : Nat → Bool) (f : Frame H)
    (hf : f ∈ (s.execute m input chunk ok).emitted ∨ (s.execute m input chunk ok).reply = .ok f) :
    f.Of m ∧ f.rows ≤ promptRows m.contextSize chunk := by
  have hthrow : ∀ (t : Session H) (message : String),
      ¬ (f ∈ (t.throw message).emitted ∨ (t.throw message).reply = .ok f) := by
    rintro t message (h | h)
    · cases h
    · cases h
  rw [execute] at hf
  cases henter : s.enter m input with
  | error message =>
    rw [henter] at hf
    exact absurd hf (hthrow _ _)
  | ok t =>
    rw [henter] at hf
    simp only [hfirst, if_true] at hf
    rw [runFirst, if_neg (by simp [isSpeculative, htype]), if_pos htype, runPrompt] at hf
    split_ifs at hf
    · exact absurd hf (hthrow _ _)
    · exact absurd hf (hthrow _ _)
    · exact runTokens_prompt hlast htype _ _ chunk ok f hf
    · exact absurd hf (hthrow _ _)
    · exact runTokens_prompt hlast htype _ _ chunk ok f hf

/-- What the stage sends for tokens: a row for each of them. -/
structure Verified (m : StageModel H) (input f : Frame H) : Prop where
  of : f.Of m
  type : f.type = carriedType input
  rows : f.rows = max input.rows 1
  width : f.rows ≤ maxSpeculativeWidth
  room : f.rows ≤ m.contextSize - input.position

lemma runToken_rows (hlast : m.last = false) (htype : input.type ≠ .prompt)
    (hwidth : isSpeculative input → input.rows ≤ maxSpeculativeWidth) (s : Session H) (chunk : Nat)
    (ok : Nat → Bool) :
    (s.runToken m input chunk ok).emitted = [] ∧
    ∀ f, (s.runToken m input chunk ok).reply = .ok f → Verified m input f := by
  rw [runToken]
  cases htokens : input.payload.tokenIds (if isSpeculative input then input.rows else 1) with
  | none => exact ⟨rfl, fun f hf => absurd hf (s.throw_ne_ok _ [] f)⟩
  | some tokens =>
    have hlength : tokens.length = if isSpeculative input then input.rows else 1 := by
      cases hpayload : input.payload with
      | tokens ids =>
        rw [hpayload, Payload.tokenIds, Option.ite_none_right_eq_some, Option.some.injEq] at htokens
        rw [← htokens.2]
        exact htokens.1
      | _ =>
        rw [hpayload] at htokens
        cases htokens
    dsimp only
    split_ifs with hbad hprompt
    · exact ⟨rfl, fun f hf => absurd hf (s.throw_ne_ok _ [] f)⟩
    · exact ⟨rfl, fun f hf => absurd hf (s.throw_ne_ok _ [] f)⟩
    · obtain ⟨hemitted, hreply⟩ := runTokens_tokens hlast htype s tokens chunk ok
      refine ⟨hemitted, fun f hf => ?_⟩
      obtain ⟨hof, hrows, hcarried, hroom⟩ := hreply f hf
      simp only [not_or, not_and, not_not] at hbad
      have hrows' : f.rows = max input.rows 1 ∧ f.rows ≤ maxSpeculativeWidth := by
        rw [hrows, hlength]
        by_cases hspec : isSpeculative input = true
        · have hpos : input.rows ≠ 0 := by
            rw [isSpeculative, Bool.and_eq_true, decide_eq_true_eq, decide_eq_true_eq] at hspec
            exact hspec.2
          rw [if_pos hspec]
          exact ⟨by omega, hwidth hspec⟩
        · rw [if_neg hspec, hbad.2.1 (by simpa using hspec)]
          exact ⟨rfl, by decide⟩
      exact ⟨hof, hcarried, hrows'.1, hrows'.2, by rw [hrows, hbad.1]; exact hroom⟩

/-- The frame that the stage sends for tokens. -/
lemma execute_token_rows (hfirst : m.first = true) (hlast : m.last = false)
    (htype : input.type ≠ .prompt) (s : Session H) (chunk : Nat) (ok : Nat → Bool) :
    (s.execute m input chunk ok).emitted = [] ∧
    ∀ f, (s.execute m input chunk ok).reply = .ok f → Verified m input f := by
  rw [execute]
  cases s.enter m input with
  | error message => exact ⟨rfl, fun f hf => absurd hf (s.throw_ne_ok _ [] f)⟩
  | ok t =>
    simp only [hfirst, if_true]
    rw [runFirst]
    split_ifs with hwide
    · exact ⟨rfl, fun f hf => absurd hf (t.throw_ne_ok _ [] f)⟩
    · exact runToken_rows hlast htype
        (fun hspec => Nat.not_lt.mp fun hlt => hwide ⟨hspec, hlt⟩) t chunk ok
    · exact ⟨rfl, fun f hf => absurd hf (t.throw_ne_ok _ [] f)⟩

end Session

namespace Stage

variable {st : Stage H} {input : Frame H}

/-- What the stage sends for a frame it runs is what one of its sessions sends. -/
lemma handle_sent {chunk : Nat} {ok : Nat → Bool} {f : Frame H} (hruns : input.type.runs)
    (hf : f ∈ (st.handle input chunk ok).2.1 ∨ (st.handle input chunk ok).2.2 = .ok f) :
    ∃ s : Session H, f ∈ (s.execute st.model input chunk ok).emitted ∨
      (s.execute st.model input chunk ok).reply = .ok f := by
  rw [handle_runs hruns] at hf
  split_ifs at hf
  · rcases hf with hf | hf
    · cases hf
    · cases hf
  · rcases st.onSession_cases input (·.execute st.model input chunk ok) with ⟨e, h⟩ | ⟨s, -, -, h⟩
    · rw [h] at hf
      rcases hf with hf | hf
      · cases hf
      · cases hf
    · rw [h] at hf
      exact ⟨s, hf⟩

/-- The frames that a first stage sends for a prompt. -/
theorem prompt_rows (hfirst : st.model.first = true) (hlast : st.model.last = false)
    (htype : input.type = .prompt) {chunk : Nat} {ok : Nat → Bool} {f : Frame H}
    (hf : f ∈ (st.handle input chunk ok).2.1 ∨ (st.handle input chunk ok).2.2 = .ok f) :
    f.Of st.model ∧ f.rows ≤ promptRows st.model.contextSize chunk := by
  obtain ⟨s, hs⟩ := handle_sent (by rw [htype]; rfl) hf
  exact Session.execute_prompt_rows hfirst hlast htype s chunk ok f hs

/-- The frame that a first stage sends for tokens. -/
theorem token_rows (hfirst : st.model.first = true) (hlast : st.model.last = false)
    (hruns : input.type.runs)
    (htype : input.type ≠ .prompt) {chunk : Nat} {ok : Nat → Bool} {f : Frame H}
    (hf : f ∈ (st.handle input chunk ok).2.1 ∨ (st.handle input chunk ok).2.2 = .ok f) :
    Session.Verified st.model input f := by
  obtain ⟨s, hs⟩ := handle_sent hruns hf
  obtain ⟨hemitted, hreply⟩ := Session.execute_token_rows hfirst hlast htype s chunk ok
  rcases hs with hs | hs
  · rw [hemitted] at hs
    cases hs
  · exact hreply f hs

end Stage

/-! ### Rounds with guesses -/

namespace RingHead

lemma length_ngramProposals {st : Stage H} {input : Frame H} {count : Nat} {c : Chance}
    {guesses : List Token}
    (h : (st.ngramProposals input count c).2 = .ok guesses) : guesses.length ≤ count := by
  rw [Stage.ngramProposals] at h
  cases hs : st.requireSession input with
  | error e =>
    rw [hs] at h
    cases h
  | ok s =>
    simp only [hs] at h
    split_ifs at h
    · injection h with h
      rw [← h]
      exact Nat.zero_le _
    · injection h with h
      rw [← h, List.length_take]
      omega

lemma length_modelProposals {draft : Stage H} {input : Frame H} {count : Nat} {c : Chance}
    {guesses : List Token}
    (h : (draft.modelProposals input count c).2 = .ok guesses) : guesses.length ≤ count := by
  rw [Stage.modelProposals] at h
  cases hs : draft.requireSession input with
  | error e =>
    rw [hs] at h
    cases h
  | ok s =>
    simp only [hs] at h
    split_ifs at h
    · injection h with h
      rw [← h]
      exact Nat.zero_le _
    · injection h with h
      rw [← h, List.length_take]
      omega

/-- A round of some width has less guesses. -/
lemma length_roundGuesses (ngramDraft : Bool) (r : RingHead H) (input : Frame H) (c : Chance) :
    (r.roundGuesses ngramDraft input c).2.length ≤ c.width - 1 := by
  have hproposals : ∀ r' guesses, r.proposals ngramDraft input c = (r', .ok guesses) →
      guesses.length ≤ c.width - 1 := by
    intro r' guesses h
    rw [proposals] at h
    split at h
    · cases h
    · split_ifs at h
      · split at h
        · injection h with _ h
          exact length_modelProposals h
        · injection h with _ h
          exact length_ngramProposals h
      · split at h
        · injection h with _ h
          exact length_modelProposals h
        · injection h with _ h
          injection h with h
          rw [← h]
          exact Nat.zero_le _
      · injection h with _ h
        injection h with h
        rw [← h]
        exact Nat.zero_le _
  rw [roundGuesses]
  split
  · rename_i heq
    exact hproposals _ _ heq
  · exact Nat.zero_le _

lemma verified_rows {m : StageModel H} {input f : Frame H} {guesses : List Token} {token : Token}
    (h : Session.Verified m (tokenFrame input input.position (token :: guesses)) f) :
    f.rows = guesses.length + 1 := by
  have hframe := h.rows
  rw [tokenFrame] at hframe
  simp only [List.length_cons] at hframe
  rw [hframe]
  split_ifs <;> omega

lemma withGuesses_size {m : StageModel H} {input f : Frame H} {guesses : List Token} {token : Token}
    (h : Session.Verified m (tokenFrame input input.position (token :: guesses)) f) :
    (withGuesses f guesses).activationSize =
      8 + (guesses.length + 1) * Wire.rowBytes m.wire.code m.hidden + guesses.length * 4 := by
  obtain ⟨rows, hrows, hpayload⟩ := h.of.payload
  have hcount := verified_rows h
  cases guesses with
  | nil =>
    have htype : f.type = .activation := h.type
    rw [withGuesses, htype, if_neg (by decide), h.of.size, hcount]
    rfl
  | cons guess guesses =>
    have htype : f.type = .speculativeActivation := h.type
    rw [withGuesses, if_pos htype, hpayload]
    have hsize :
      ({ f with payload := .hidden rows ([] ++ (guess :: guesses)) } : Frame H).activationSize =
      8 + rows.length * Wire.rowBytes f.dtype.code f.cols + (guess :: guesses).length * 4 := rfl
    rw [hsize, hrows, hcount, h.of.cols, h.of.dtype]

/-- The frame that the head sends for a round: a row and, but for one, a guess for each token of
it. -/
theorem draftRound_size {r : RingHead H} {input : Frame H} {ngramDraft : Bool} {c : Chance}
    {f : Frame H} (hfirst : r.stage.model.first = true) (hlast : r.stage.model.last = false)
    (hf : (r.draftRound ngramDraft input c).2 = .ok f) :
    ∃ n ≤ c.width - 1, n + 1 ≤ maxSpeculativeWidth ∧
      n + 1 ≤ r.stage.model.contextSize - input.position ∧
      f.activationSize =
        8 + (n + 1) * Wire.rowBytes r.stage.model.wire.code r.stage.model.hidden + n * 4 := by
  have hmodel := (RingHead.Local.roundGuesses ngramDraft r input c).model
  have hlength := r.length_roundGuesses ngramDraft input c
  rw [draftRound] at hf
  cases hs : r.stage.requireSession input with
  | error e =>
    rw [hs] at hf
    cases hf
  | ok s =>
    simp only [hs] at hf
    rw [← hmodel] at hfirst hlast ⊢
    generalize r.roundGuesses ngramDraft input c = result at *
    obtain ⟨r', guesses⟩ := result
    dsimp only at *
    have hverified := fun out
      (h : (r'.stage.handle (tokenFrame input input.position (frameToken input :: guesses)) 0
        c.ok).2.2 = .ok out) => Stage.token_rows hfirst hlast rfl
          (fun htype => by cases htype) (.inr h)
    generalize r'.stage.handle
      (tokenFrame input input.position (frameToken input :: guesses)) 0 c.ok = handled at *
    obtain ⟨stage, emitted, e | out⟩ := handled
    · cases hf
    · dsimp only at hf
      have hout := hverified out rfl
      generalize recordRound ngramDraft { r' with stage } input guesses = recorded at hf
      obtain ⟨r'', e | _⟩ := recorded
      · injection hf with hf
        have hrows := verified_rows hout
        refine ⟨guesses.length, hlength, hrows ▸ hout.width, hrows ▸ hout.room, ?_⟩
        rw [← hf, withGuesses_size hout]
      · cases hf

end RingHead

/-! ### Runs up to the limit -/

namespace Session

variable {m : StageModel H}

/-- A session that has decoded the tokens of its first prompt. -/
def opened (sequence : Nat) (tokens : List Token) : Session H :=
  { sequence, position := tokens.length, activeRequest := 1, hasPrompt := true, history := tokens,
    kv := tokens.map .token }

/-- A new session decodes a prompt that is not longer than a chunk in one batch. -/
lemma execute_opened (hfirst : m.first = true) (hlast : m.last = false) {tokens : List Token}
    (htokens : m.tokenize "a" = tokens) (hsome : tokens ≠ [])
    (hroom : tokens.length ≤ m.contextSize) {chunk : Nat}
    (hchunk : chunk = 0 ∨ tokens.length ≤ chunk) (sequence : Nat) :
    ({ sequence } : Session H).execute m (promptFrame 1 1 0 "a") chunk (fun _ => true) =
      (opened sequence tokens).answer
        (({ sequence } : Session H).firstActivation m
          (promptFrame 1 1 0 "a") .activation tokens) := by
  have henter : ({ sequence } : Session H).enter m (promptFrame 1 1 0 "a") =
      .ok { sequence, activeRequest := 1 } := rfl
  have hprompt :
      ({ sequence, activeRequest := 1 } : Session H).runFirst m (promptFrame 1 1 0 "a") chunk
        (fun _ => true) =
      runTokens m { sequence, activeRequest := 1, hasPrompt := true } (promptFrame 1 1 0 "a")
        (m.tokenize "a") chunk
        fun _ => true := by
    have hne : m.tokenize "a" ≠ [] := htokens ▸ hsome
    exact if_neg hne
  have hprefill : ∀ s : Session H, s.prefill m (promptFrame 1 1 0 "a") tokens chunk
      (fun _ => true) = (s, [], .ok (tokens, 0)) := by
    intro s
    refine if_neg fun h => ?_
    omega
  rw [execute, henter]
  simp only [hfirst, if_true]
  rw [hprompt, htokens, runTokens, if_neg (by exact Nat.not_lt.mpr hroom), hprefill]
  simp only [finalBatch, hlast]
  simp [opened, appendTokens, append, answer, firstActivation, promptFrame, isSpeculative]

end Session

namespace Stage

variable {m : StageModel H}

/-- A loaded stage with a new session. -/
def begun (m : StageModel H) : Stage H :=
  ((load m).handle { type := .createSession, session := 1 } 0 fun _ => true).1

@[simp] lemma begun_model (m : StageModel H) : (begun m).model = m := handle_model ..

lemma begun_lookup (hsessions : 0 < m.maxSessions) :
    ∃ sequence, (begun m).sessions.lookup 1 = some { sequence } := by
  have hfree : false ∈ List.replicate m.maxSessions false :=
    List.mem_replicate.mpr ⟨hsessions.ne', rfl⟩
  have hcreate : begun m = ((load m).create { type := .createSession, session := 1 }).1 := rfl
  rw [hcreate, create, if_neg (by exact Bool.false_ne_true), if_neg (by exact AList.notMem_empty _),
    if_neg (by exact Nat.not_le.mpr hsessions), if_neg (by exact not_not.mpr hfree)]
  exact ⟨_, AList.lookup_insert _⟩

/-- The stage after the session's first prompt, a prompt of these tokens that is not longer than a
chunk. -/
lemma begun_prompt (hfirst : m.first = true) (hlast : m.last = false)
    (hsessions : 0 < m.maxSessions)
    (tokens : List Token) (htokens : m.tokenize "a" = tokens) (hsome : tokens ≠ [])
    (hroom : tokens.length ≤ m.contextSize) (chunk : Nat)
    (hchunk : chunk = 0 ∨ tokens.length ≤ chunk) :
    ∃ (sequence : Nat) (f : Frame H),
      ((begun m).handle (promptFrame 1 1 0 "a") chunk fun _ => true).2.2 = .ok f ∧ f.Of m ∧
      f.rows = tokens.length ∧
      ((begun m).handle (promptFrame 1 1 0 "a") chunk fun _ => true).1.sessions.lookup 1 =
        some (Session.opened sequence tokens) := by
  obtain ⟨sequence, hsequence⟩ := begun_lookup hsessions
  obtain ⟨hreply, hlookup⟩ :=
    handle_run_of_lookup (f := promptFrame 1 1 0 "a") rfl (by exact nofun) (by exact nofun)
    hsequence chunk fun _ => true
  rw [begun_model, Session.execute_opened hfirst hlast htokens hsome hroom hchunk] at hreply hlookup
  exact ⟨sequence, _, hreply, Session.firstActivation_of .., rfl, hlookup⟩

end Stage

namespace RingHead

def nextToken : Frame H :=
  { type := .token, session := 1, request := 1, position := 1, payload := .tokens [0] }

/-- A round of the widest batch, with the guesses of a table of n-grams. -/
def widest : Chance where
  ok _ := true
  okCatchUp _ := true
  okFlush _ := true
  okMirror _ := true
  width := maxSpeculativeWidth
  trims := true
  starts := true
  guesses := []
  ngrams := List.replicate 31 0

lemma roundGuesses_widest {st : Stage H} {s : Session H} (hs : st.sessions.lookup 1 = some s)
    (hhistory : s.history = [0]) (hcontext : maxSpeculativeWidth < st.model.contextSize) :
    ({ stage := st, draft := none } : RingHead H).roundGuesses true nextToken widest =
      ({ stage := st.change 1 fun s => { s with history := s.history.take 1 }, draft := none },
        List.replicate 31 0) := by
  have hsession : st.requireSession (nextToken (H := H)) = .ok s :=
    Stage.requireSession_of_lookup (by exact nofun) hs
  rw [maxSpeculativeWidth] at hcontext
  have hcount :
      min (widest.width - 1) (speculationRoom st.model.contextSize (nextToken (H := H)).position) =
        31 := by
    change min 31 (speculationRoom st.model.contextSize 1) = 31
    rw [speculationRoom, if_pos (by omega)]
    omega
  have hngrams : st.ngramProposals nextToken (widest.width - 1) widest =
      (st.change 1 fun s => { s with history := s.history.take 1 }, .ok (List.replicate 31 0)) := by
    rw [Stage.ngramProposals, hsession]
    simp only [hcount]
    rw [if_neg (by decide), if_neg (by rw [hhistory]; exact Nat.lt_irrefl 1)]
    rfl
  rw [roundGuesses, proposals, beforeProposals]
  simp only [catchUpDraft, Option.isSome_none, Bool.false_eq_true, false_and, and_false, if_false]
  rw [if_pos (by decide)]
  simp only [hngrams, if_true]

/-- A round of the widest batch is sent with a row for each of its tokens and all of its guesses. -/
lemma draftRound_widest {st : Stage H} {sequence : Nat}
    (hs : st.sessions.lookup 1 = some (.opened sequence [0]))
    (hfirst : st.model.first = true) (hlast : st.model.last = false)
    (hcontext : maxSpeculativeWidth < st.model.contextSize) :
    ∃ f, (({ stage := st, draft := none } : RingHead H).draftRound true nextToken widest).2 =
      .ok f ∧
      f.activationSize = 8 + 32 * Wire.rowBytes st.model.wire.code st.model.hidden + 31 * 4 := by
  have hsession : st.requireSession (nextToken (H := H)) = .ok (.opened sequence [0]) :=
    Stage.requireSession_of_lookup (by exact nofun) hs
  have hguesses := roundGuesses_widest hs rfl hcontext
  have hchanged : (st.change 1 fun s => { s with history := s.history.take 1 }).sessions.lookup 1 =
      some (.opened sequence [0]) := Stage.lookup_change 1 _ hs
  have hmodel : (st.change 1 fun s => { s with history := s.history.take 1 }).model =
    st.model := Stage.change_model ..
  generalize st.change 1 (fun s => { s with history := s.history.take 1 }) = changed at *
  obtain ⟨hreply, -⟩ := Stage.handle_run_of_lookup
    (f := tokenFrame nextToken 1 (0 :: List.replicate 31 0)) rfl (by exact nofun)
      (by exact nofun) hchanged 0 widest.ok
  have hready :
      (Session.opened (H := H) sequence [0]).Ready 1 [.token 0] := ⟨rfl, rfl, rfl, rfl, .inl rfl⟩
  have hfits : Session.FitsTokens .token 32 (0 :: List.replicate 31 0) :=
    .inr ⟨rfl, rfl, nofun, le_rfl⟩
  have hexecute :=
    Session.execute_tokens (m := changed.model) (p := 1) 1 hready Nat.one_ne_zero le_rfl
    (hmodel ▸ hfirst) rfl hfits
  rcases hexecute with ⟨-, t, -, -, hanswer⟩ | ⟨hfull, -⟩
  · have hout := congrArg Handled.reply hanswer
    generalize batchReply changed.model _ 1 1 1 _ _ = out at hout
    have hhandled : (changed.handle
        (tokenFrame nextToken 1 (0 :: List.replicate 31 0)) 0 widest.ok).2.2 = .ok out :=
      hreply.trans hout
    have htype : (tokenFrame (nextToken (H := H)) 1 (0 :: List.replicate 31 0)).type ≠
      .prompt := nofun
    have hverified : Session.Verified changed.model
        (tokenFrame nextToken (nextToken (H := H)).position (0 :: List.replicate 31 0)) out :=
      Stage.token_rows (hmodel ▸ hfirst) (hmodel ▸ hlast) rfl htype (.inr hhandled)
    refine ⟨withGuesses out (List.replicate 31 0), ?_, ?_⟩
    · have hrecord : ∀ stage : Stage H, (recordRound true { stage, draft := none } nextToken
          (List.replicate 31 0)).2 = none := fun _ => rfl
      rw [draftRound, hsession]
      simp only [hguesses]
      change (changed.handle (tokenFrame nextToken (nextToken (H := H)).position
        (frameToken (nextToken (H := H)) :: List.replicate 31 0)) 0 widest.ok).2.2 = _ at hhandled
      generalize changed.handle _ 0 widest.ok = handled at hhandled ⊢
      obtain ⟨stage, emitted, reply⟩ := handled
      obtain rfl : reply = .ok out := hhandled
      dsimp only
      have hnone := hrecord stage
      generalize recordRound true _ _ _ = recorded at hnone ⊢
      obtain ⟨ring, error⟩ := recorded
      obtain rfl : error = none := hnone
      rfl
    · rw [withGuesses_size hverified, List.length_replicate, hmodel]
  · rw [hmodel] at hfull
    rw [maxSpeculativeWidth] at hcontext
    rw [List.length_cons, List.length_replicate] at hfull
    omega

end RingHead
end ProviderOwned
