import ProviderOwned.Stage.LoopSteps

/-!
# The stream of a request

What the client gets of a request in loop mode (`Streamed`): the tokens of plain decoding, one frame
each, up to the first that ends the text, uses up the budget or comes after a cancellation, and that
one as the result; unless a step fails or a link is lost on the way.
-/

namespace ProviderOwned

open Decode (outputs)
open Session (tokenAt)

variable {H : Type*}

/-! ### The entry of a stream -/

def LoopTurn.Cancels (t : LoopTurn H) (f : Frame H) : Prop :=
  ∃ c, t.cancel = some c ∧ c.session = f.session ∧ c.request = f.request

def LoopTurn.Reaches (t : LoopTurn H) : Prop :=
  t.delivered = true ∧ (t.cancel.isSome → t.acknowledged = true)

namespace LoopState

variable {l : LoopState} {f c : Frame H} {s : LoopStream}

/-- No stream is left without budget. -/
def Positive (l : LoopState) : Prop := ∀ id s, l id = some s → 0 < s.remaining

lemma positive_clear : Positive clear := fun _ _ h => by cases h

lemma Positive.update (h : l.Positive) (id : Nat) {g : Option LoopStream}
    (hg : ∀ s ∈ g, 0 < s.remaining) :
    Positive (Function.update l id g) := by
  intro i s hs
  rw [Function.update_apply] at hs
  split_ifs at hs
  · exact hg s hs
  · exact h i s hs

lemma find_eq_some : l.find f = some s ↔ l f.session = some s ∧ s.request = f.request := by
  rw [find, Option.filter_eq_some_iff, decide_eq_true_eq]

lemma Positive.finish (h : l.Positive) (f : Frame H) : (l.finish f).Positive := by
  rw [LoopState.finish]
  split_ifs
  · exact h.update _ fun _ hnone => by cases hnone
  · exact h

lemma Positive.cancel (h : l.Positive) (c : Frame H) : (l.cancel c).Positive := by
  rw [LoopState.cancel]
  cases hfind : l.find c with
  | none => exact h
  | some s =>
    refine h.update _ fun s' hs' => ?_
    cases hs'
    exact h _ s (find_eq_some.mp hfind).1

lemma Positive.accept (h : l.Positive) (f : Frame H) : (l.accept f).1.Positive := by
  rw [LoopState.accept]
  split_ifs with hbad
  · exact h
  · exact h
  · refine h.update _ fun s hs => ?_
    cases hs
    exact Nat.pos_of_ne_zero fun hzero => hbad (.inl hzero)

lemma Positive.note (h : l.Positive) (f : Frame H) : (l.note f).1.Positive := by
  rw [LoopState.note]
  cases hfind : l.find f with
  | none => exact h
  | some s =>
    dsimp only
    split_ifs with hends
    · exact h.finish f
    · refine h.update _ fun s' hs' => ?_
      cases hs'
      dsimp only
      have hmore : ¬ s.remaining ≤ 1 := fun hle => hends (.inr (.inr hle))
      omega

/-- A cancellation marks the stream it names, and no other. -/
lemma cancel_self (h : l f.session = some s) (hrequest : s.request = f.request) (c : Frame H) :
    l.cancel c f.session = some (if c.session = f.session ∧ c.request = f.request then
      { s with cancelled := true } else s) := by
  rw [LoopState.cancel]
  split_ifs with hnamed
  · have hfind : l.find c = some s := find_eq_some.mpr ⟨hnamed.1 ▸ h, hrequest.trans hnamed.2.symm⟩
    rw [hfind, ← hnamed.1]
    exact Function.update_self ..
  · cases hfind : l.find c with
    | none => exact h
    | some s' =>
      obtain ⟨hs', hrequest'⟩ := find_eq_some.mp hfind
      have hother : f.session ≠ c.session := by
        intro hsame
        rw [← hsame, h] at hs'
        cases hs'
        exact hnamed ⟨hsame.symm, hrequest'.symm.trans hrequest⟩
      dsimp only
      rw [Function.update_of_ne hother, h]

lemma finish_self (h : l f.session = some s) (hrequest : s.request = f.request) :
    l.finish f f.session = none := by
  have howns : l.owns f = true := by rw [owns, find_eq_some.mpr ⟨h, hrequest⟩]; rfl
  rw [LoopState.finish, if_pos howns]
  exact Function.update_self ..

end LoopState

/-! ### The frames of a stream -/

section stream

variable (m : StageModel H) (f : Frame H) (next : List Token → Token) (text : List Token)
  (e : LoopStream)
  (turn : Nat → LoopTurn H)

/-- The result frame of a token of plain decoding. -/
def frameAt (i : Nat) : Frame H := streamedFrame m f (text.length + i) (tokenAt next text i)

/-- The chunks of the tokens from number `n` up to `k`. -/
def chunks (n k : Nat) : List (Frame H) :=
  (List.range' n (k - n)).map fun i => { frameAt m f next text i with type := .clientChunk }

/-- The token with this number is the last one: it ends the text or the budget, or the request is
cancelled. -/
def Ends (i : Nat) : Prop :=
  m.isEog (tokenAt next text i) = true ∨ e.remaining ≤ i + 1 ∨ e.cancelled = true ∨
    ∃ j ≤ i, (turn j).Cancels f

/-- What the client gets of a request from the token with number `n` on. -/
inductive Streamed (n : Nat) (run : LoopRun H) : Prop
  | ended {k : Nat} (hk : n ≤ k) (hends : Ends m f next text e turn k)
      (hgoes : ∀ i, n ≤ i → i < k → ¬ Ends m f next text e turn i)
      (hstreamed : run.streamed = chunks m f next text n k ++ [frameAt m f next text k])
      (hheld : run.held = true) (hentry : run.worker.loop f.session = none)
  | failed {k : Nat} {error : String} (hk : n ≤ k) (herror : error ∈ stepErrors)
      (hgoes : ∀ i, n ≤ i → i ≤ k → ¬ Ends m f next text e turn i)
      (hstreamed : run.streamed = chunks m f next text n (k + 1) ++
        if (turn k).reported then [errorFrame f error] else [])
      (hheld : run.held = (turn k).reported) (hentry : run.worker.loop f.session = none)
  | lost {k : Nat} (hk : n ≤ k) (hlost : ¬ (turn k).Reaches)
      (hgoes : ∀ i, n ≤ i → i < k → ¬ Ends m f next text e turn i)
      (hstreamed : run.streamed = chunks m f next text n k) (hheld : run.held = false)

/-- The stream of the request before the token with number `n`. -/
def Entry (n : Nat) (l : LoopState) : Prop :=
  n < e.remaining ∧ ∃ cancelled, l f.session = some ⟨f.request, e.remaining - n, cancelled⟩ ∧
    (cancelled = true ↔ e.cancelled = true ∨ ∃ j < n, (turn j).Cancels f)

variable {m f next text e turn}

lemma chunks_self (n : Nat) : chunks m f next text n n = [] := by
  rw [chunks, Nat.sub_self]
  rfl

lemma chunks_cons {n k : Nat} (h : n < k) :
    chunks m f next text n k = { frameAt m f next text n with type := .clientChunk } ::
      chunks m f next text (n + 1) k := by
  obtain ⟨d, rfl⟩ := Nat.exists_eq_add_of_lt h
  have hmore : n + d + 1 - n = (n + d + 1 - (n + 1)) + 1 := by omega
  rw [chunks, hmore, List.range'_succ]
  rfl

/-- A token that does not end the stream goes before what comes after it. -/
lemma Streamed.after {n : Nat} {run : LoopRun H} (h : Streamed m f next text e turn (n + 1) run)
    (hn : ¬ Ends m f next text e turn n) (acks : List (Frame H)) :
    Streamed m f next text e turn n
      (run.after [{ frameAt m f next text n with type := .clientChunk }] acks) := by
  have hgoes : ∀ {P : Nat → Prop}, (∀ i, n + 1 ≤ i → P i → ¬ Ends m f next text e turn i) →
      ∀ i, n ≤ i → P i → ¬ Ends m f next text e turn i := by
    intro P hlater i hi hP
    rcases Nat.eq_or_lt_of_le hi with rfl | hlt
    · exact hn
    · exact hlater i hlt hP
  cases h with
  | ended hk hends hbefore hstreamed hheld hentry =>
    refine .ended (Nat.le_of_succ_le hk) hends (hgoes hbefore) ?_ hheld hentry
    rw [LoopRun.after, hstreamed, chunks_cons hk]
    rfl
  | failed hk herror hbefore hstreamed hheld hentry =>
    refine .failed (Nat.le_of_succ_le hk) herror (hgoes hbefore) ?_ hheld hentry
    rw [LoopRun.after, hstreamed, chunks_cons (Nat.lt_succ_of_lt hk)]
    rfl
  | lost hk hlost hbefore hstreamed hheld =>
    refine .lost (Nat.le_of_succ_le hk) hlost (hgoes hbefore) ?_ hheld
    rw [LoopRun.after, hstreamed, chunks_cons hk]
    rfl

/-- A cancellation of the turn is noted. -/
lemma Entry.cancelled {n : Nat} {l : LoopState} (h : Entry f e turn n l) :
    ∃ cancelled, ((turn n).cancel.elim l l.cancel) f.session =
      some ⟨f.request, e.remaining - n, cancelled⟩ ∧
      (cancelled = true ↔ e.cancelled = true ∨ ∃ j ≤ n, (turn j).Cancels f) := by
  obtain ⟨hn, cancelled, hentry, hcancelled⟩ := h
  have hsplit : (∃ j ≤ n, (turn j).Cancels f) ↔ (∃ j < n, (turn j).Cancels f) ∨
      (turn n).Cancels f := by
    constructor
    · rintro ⟨j, hj, hcancels⟩
      rcases Nat.eq_or_lt_of_le hj with rfl | hlt
      · exact .inr hcancels
      · exact .inl ⟨j, hlt, hcancels⟩
    · rintro (⟨j, hj, hcancels⟩ | hcancels)
      · exact ⟨j, hj.le, hcancels⟩
      · exact ⟨n, le_refl n, hcancels⟩
  rw [hsplit, ← or_assoc, ← hcancelled]
  cases hturn : (turn n).cancel with
  | none =>
    refine ⟨cancelled, hentry, iff_self_or.mpr ?_⟩
    rintro ⟨c, hc, -⟩
    rw [hturn] at hc
    cases hc
  | some c =>
    have hself := LoopState.cancel_self hentry rfl c
    by_cases hnamed : c.session = f.session ∧ c.request = f.request
    · rw [if_pos hnamed] at hself
      exact ⟨true, hself, iff_of_true rfl (.inr ⟨c, hturn, hnamed⟩)⟩
    · rw [if_neg hnamed] at hself
      refine ⟨cancelled, hself, iff_self_or.mpr ?_⟩
      rintro ⟨c', hc', hsame⟩
      rw [hturn] at hc'
      cases hc'
      exact absurd hsame hnamed

variable (m next text) in
/-- The result of the turn is noted: it is the last one, or the stream goes on. -/
lemma Entry.noted {n : Nat} {l : LoopState} (h : Entry f e turn n l) :
    (Ends m f next text e turn n ∧
      (((turn n).cancel.elim l l.cancel).note (frameAt m f next text n)).2 = true ∧
      (((turn n).cancel.elim l l.cancel).note (frameAt m f next text n)).1 f.session = none) ∨
    ¬ Ends m f next text e turn n ∧
      (((turn n).cancel.elim l l.cancel).note (frameAt m f next text n)).2 = false ∧
      Entry f e turn (n + 1)
        (((turn n).cancel.elim l l.cancel).note (frameAt m f next text n)).1 := by
  obtain ⟨cancelled, hentry, hcancelled⟩ := h.cancelled
  generalize (turn n).cancel.elim l l.cancel = l' at hentry ⊢
  have hfind : l'.find (frameAt m f next text n) = some ⟨f.request, e.remaining - n, cancelled⟩ :=
    LoopState.find_eq_some.mpr ⟨hentry, rfl⟩
  have hends : (frameAt m f next text n).endsText = true ↔ m.isEog (tokenAt next text n) = true :=
    Iff.rfl
  rw [LoopState.note, hfind]
  dsimp only
  split_ifs with hlast
  · refine .inl ⟨?_, rfl, ?_⟩
    · rcases hlast with heog | hmarked | hbudget
      · exact .inl (hends.mp heog)
      · exact .inr (.inr (hcancelled.mp hmarked))
      · exact .inr (.inl (by omega))
    · exact LoopState.finish_self (f := frameAt m f next text n) hentry rfl
  · have hmore : n + 1 < e.remaining := by
      by_contra hbudget
      exact hlast (.inr (.inr (by omega)))
    refine .inr ⟨?_, rfl, hmore, cancelled, ?_, ?_⟩
    · rintro (heog | hbudget | hmarked)
      · exact hlast (.inl (hends.mpr heog))
      · omega
      · exact hlast (.inr (.inl (hcancelled.mpr hmarked)))
    · rw [← Nat.sub_sub]
      exact Function.update_self ..
    · rw [hcancelled]
      simp only [Nat.lt_succ_iff]

variable (m f next text) in
/-- The frames of a step are those of the next tokens. -/
lemma streamedFrames_outputs (n d : Nat) :
    streamedFrames m (frameAt m f next text n)
      (outputs next (text ++ outputs next text (n + 1)) d) =
      (List.range' (n + 1) d).map (frameAt m f next text) := by
  induction d with
  | zero => rfl
  | succ d ih =>
    have htoken : next
        (text ++ outputs next text (n + 1) ++ outputs next (text ++ outputs next text (n + 1)) d) =
        tokenAt next text (n + 1 + d) := by
      rw [tokenAt, Decode.outputs_add next text (n + 1) d, List.append_assoc]
    have hposition : (frameAt m f next text n).position + d + 1 = text.length + (n + 1 + d) := by
      change text.length + n + d + 1 = _
      omega
    rw [Decode.outputs_succ, streamedFrames, List.mapIdx_concat, Decode.length_outputs, htoken,
      hposition, List.range'_concat, Nat.one_mul, List.map_append]
    rw [streamedFrames] at ih
    rw [ih]
    rfl

end stream

/-! ### The run -/

/-- What holds of a worker between the frames of its client. -/
structure LoopWorker.Sound (m : StageModel H) (w : LoopWorker H) : Prop where
  model : w.ring.stage.model = m
  sessions : ∀ id s, w.ring.stage.sessions.lookup id = some s → s.Sound
  loop : w.loop.Positive

lemma LoopWorker.Sound.step {m : StageModel H} {w : LoopWorker H} (h : w.Sound m) {id : Nat}
    {r : RingHead H}
    (hlocal : w.ring.Local id r) (hid : r.stage.SoundAt id) {l : LoopState} (hl : l.Positive) :
    LoopWorker.Sound m ⟨r, l⟩ where
  model := hlocal.model.trans h.model
  sessions i s hs := by
    by_cases hi : i = id
    · obtain ⟨s', hs', hsound⟩ := hid
      rw [hi] at hs
      cases hs.symm.trans hs'
      exact hsound
    · exact h.sessions i s ((hlocal.stage i hi).symm.trans hs)
  loop := hl

lemma stepErrors_ne_empty {error : String} (h : error ∈ stepErrors) : error ≠ "" := by
  rintro rfl
  exact absurd h (by decide)

section run

variable {m : StageModel H} (hfirst : m.first) (hlast : m.last) (hm : m.GreedyChats) {f : Frame H}
  (hzero : f.session ≠ 0) {next : List Token → Token} {text : List Token} {e : LoopStream}
  {turn : Nat → LoopTurn H} {ngramDraft : Bool}

/-- What comes after a result that does not end its stream: the results that are pending, or a
step. -/
def goesOn (ngramDraft : Bool) (turn : Nat → LoopTurn H) (fuel n : Nat) (ring : RingHead H)
    (l : LoopState) (frame : Frame H) (pending : List (Frame H)) : LoopRun H :=
  if pending ≠ [] then continueLoop ngramDraft turn fuel (n + 1) ⟨ring, l⟩ pending
  else afterStep ring.stage.model l frame (turn n).reported
    (fun ring pending => continueLoop ngramDraft turn fuel (n + 1) ⟨ring, l⟩ pending)
    (localDecode ngramDraft ring frame.sampledToken frame.position frame (turn n).chance)

variable (next text ngramDraft) in
/-- A turn is the last one, or the client has got a chunk. -/
lemma continueLoop_turn (fuel n : Nat) {w : LoopWorker H} (hw : w.Sound m)
    (hentry : Entry f e turn n w.loop) (pending : List (Frame H)) :
    ((continueLoop ngramDraft turn (fuel + 1) n w (frameAt m f next text n :: pending)).worker.Sound
      m ∧
      Streamed m f next text e turn n
        (continueLoop ngramDraft turn (fuel + 1) n w (frameAt m f next text n :: pending)) ∧
      (Ends m f next text e turn n ∨ ¬ (turn n).Reaches)) ∨
    ¬ Ends m f next text e turn n ∧ (turn n).Reaches ∧ ∃ (l : LoopState) (acks : List (Frame H)),
      l.Positive ∧ Entry f e turn (n + 1) l ∧
      continueLoop ngramDraft turn (fuel + 1) n w (frameAt m f next text n :: pending) =
        (goesOn ngramDraft turn fuel n w.ring l (frameAt m f next text n) pending).after
          [{ frameAt m f next text n with type := .clientChunk }] acks := by
  have hnoted := hentry.noted m next text
  have hpositive : ((turn n).cancel.elim w.loop w.loop.cancel).Positive := by
    cases (turn n).cancel with
    | none => exact hw.loop
    | some c => exact hw.loop.cancel c
  have hpositive' := hpositive.note (frameAt m f next text n)
  rw [continueLoop]
  dsimp only
  split_ifs with hack hsent hfinal
  · have hlost : ¬ (turn n).Reaches := by
      rintro ⟨-, hacked⟩
      have hno := hack.2
      rw [hacked hack.1] at hno
      cases hno
    exact .inl ⟨⟨hw.model, hw.sessions, hpositive⟩, .lost (le_refl n) hlost
      (fun i hi hlt => by omega)
      (chunks_self n).symm rfl, .inr hlost⟩
  · have hlost : ¬ (turn n).Reaches := by
      rintro ⟨hdelivered, -⟩
      rw [hdelivered] at hsent
      cases hsent
    exact .inl ⟨⟨hw.model, hw.sessions, LoopState.positive_clear⟩, .lost (le_refl n) hlost
      (fun i hi hlt => by omega) (chunks_self n).symm rfl, .inr hlost⟩
  · rcases hnoted with ⟨hends, -, hnone⟩ | ⟨-, hgoes, -⟩
    · refine .inl ⟨⟨hw.model, hw.sessions, hpositive'⟩,
        .ended (le_refl n) hends (fun i hi hlt => by omega) ?_ rfl hnone, .inl hends⟩
      rw [chunks_self]
      rfl
    · rw [hgoes] at hfinal
      cases hfinal
  all_goals
    rcases hnoted with ⟨-, hyes, -⟩ | ⟨hgoes, -, hentry'⟩
    · exact absurd hyes hfinal
    have hreaches : (turn n).Reaches := by
      refine ⟨by simpa using hsent, fun hsome => ?_⟩
      by_contra hno
      exact hack ⟨hsome, by simpa using hno⟩
    refine .inr ⟨hgoes, hreaches, _, (turn n).cancel.toList.map fun c => ack c, hpositive', hentry',
      ?_⟩
    rw [goesOn]
    first
      | rw [if_pos ‹pending ≠ []›]
      | rw [if_neg ‹¬ pending ≠ []›]

variable (next text) in
/-- A step that fails after a chunk. -/
lemma streamed_failed {n : Nat} (error : String) {message : String} {w : LoopWorker H}
    (hw : w.Sound m)
    {r : RingHead H} {l : LoopState} (hl : l.Positive) (hentry : Entry f e turn (n + 1) l)
    (hlocal : w.ring.Local f.session r) (hsound : r.stage.SoundAt f.session)
    (hmessage : (if error = "" then "decode produced no token" else error) = message)
    (acks : List (Frame H)) :
    ((failedStep r l (frameAt m f next text n) error (turn n).reported).after
        [{ frameAt m f next text n with type := .clientChunk }] acks).worker.Sound m ∧
      ((failedStep r l (frameAt m f next text n) error (turn n).reported).after
        [{ frameAt m f next text n with type := .clientChunk }] acks).streamed =
          chunks m f next text n (n + 1) ++ (if (turn n).reported then [errorFrame f message]
            else []) ∧
      ((failedStep r l (frameAt m f next text n) error (turn n).reported).after
        [{ frameAt m f next text n with type := .clientChunk }] acks).worker.loop f.session =
            none := by
  obtain ⟨-, cancelled, hhere, -⟩ := hentry
  refine ⟨hw.step hlocal hsound (hl.finish _), ?_,
    LoopState.finish_self (f := frameAt m f next text n) hhere rfl⟩
  rw [chunks_cons (Nat.lt_succ_self n), chunks_self, LoopRun.after, failedStep]
  dsimp only
  rw [hmessage]
  rfl

include hfirst hlast hm hzero

/-- From the results of a step on, the client gets what plain decoding has. -/
lemma continueLoop_streamed (fuel n : Nat) {w : LoopWorker H} {s : Session H} {p : Nat}
    (hw : w.Sound m) (hs : w.ring.stage.sessions.lookup f.session = some s)
    (h : s.Decoding m f.request next text (n + p))
    (hfresh : ¬ w.ring.Stale ngramDraft f) (hentry : Entry f e turn n w.loop)
    (hfuel : e.remaining - n ≤ fuel) :
    (continueLoop ngramDraft turn fuel n w
      ((List.range' n (p + 1)).map (frameAt m f next text))).worker.Sound m ∧
      Streamed m f next text e turn n
        (continueLoop ngramDraft turn fuel n w
          ((List.range' n (p + 1)).map (frameAt m f next text))) := by
  induction fuel generalizing n w s p with
  | zero =>
    have := hentry.1
    omega
  | succ fuel ih =>
    rw [List.range'_succ, List.map_cons]
    rcases continueLoop_turn next text ngramDraft fuel n hw hentry
      ((List.range' (n + 1) p).map (frameAt m f next text)) with
      ⟨hsound, hstreamed, -⟩ | ⟨hgoes, -, l, acks, hl, hentry', heq⟩
    · exact ⟨hsound, hstreamed⟩
    rw [heq, goesOn]
    obtain _ | p := p
    · -- the last result of a step is fed back
      rw [if_neg (fun hne => hne rfl)]
      rw [Nat.add_zero] at h
      have hlocal := localDecode_local ngramDraft w.ring (tokenAt next text n) (text.length + n)
        (frameAt m f next text n) (turn n).chance
      have hcall : localDecode ngramDraft w.ring (frameAt m f next text n).sampledToken
          (frameAt m f next text n).position (frameAt m f next text n) (turn n).chance =
            localDecode ngramDraft w.ring (tokenAt next text n) (text.length + n)
              (frameAt m f next text n)
              (turn n).chance := rfl
      rw [hcall]
      rcases localDecode_fresh (frameAt m f next text n) hfirst hlast hm hw.model hzero hs h
        rfl hfresh
        (turn n).chance with
        ⟨error, herror, r, hstep, hsound⟩ | ⟨r, d, t, hstep, hlookup, hdecoding, hfresh'⟩
      · rw [hstep] at hlocal ⊢
        obtain ⟨hworker, hstreamed, hnone⟩ := streamed_failed next text error hw hl
          hentry' hlocal hsound (if_neg (stepErrors_ne_empty herror)) acks
        refine ⟨hworker, .failed (le_refl n) herror (fun i hi hle => ?_) hstreamed rfl hnone⟩
        obtain rfl : i = n := by omega
        exact hgoes
      · rw [hstep] at hlocal ⊢
        have hframes := streamedFrames_outputs m f next text n (d + 1)
        rw [Decode.outputs_succ_cons] at hframes ⊢
        rw [afterStep, hw.model, hframes]
        have hgood := hw.step hlocal ⟨t, hlookup, hdecoding.streams.holds, hdecoding.sampled⟩ hl
        obtain ⟨hsound, hstreamed⟩ := ih (n + 1) hgood hlookup hdecoding hfresh' hentry' (by omega)
        exact ⟨⟨hsound.model, hsound.sessions, hsound.loop⟩, hstreamed.after hgoes _⟩
    · -- the step has committed more than one token
      have hmore : (List.range' (n + 1) (p + 1)).map (frameAt m f next text) ≠ [] := by
        rw [List.range'_succ]
        exact List.cons_ne_nil _ _
      have hnext : s.Decoding m f.request next text (n + 1 + p) := by
        rwa [Nat.add_right_comm, Nat.add_assoc]
      rw [if_pos hmore]
      obtain ⟨hsound, hstreamed⟩ :=
        ih (n + 1) (w := ⟨w.ring, l⟩) ⟨hw.model, hw.sessions, hl⟩ hs hnext hfresh hentry' (by omega)
      exact ⟨⟨hsound.model, hsound.sessions, hsound.loop⟩, hstreamed.after hgoes _⟩

/-- Where guesses of an earlier request are left over and the session is not drafted for, no second
token of a request is committed. -/
lemma continueLoop_stale (fuel : Nat) {w : LoopWorker H} {s : Session H} (hw : w.Sound m)
    (hs : w.ring.stage.sessions.lookup f.session = some s) (h : s.Decoding m f.request next text 0)
    (hstale : w.ring.Stale ngramDraft f) (hentry : Entry f e turn 0 w.loop) :
    (continueLoop ngramDraft turn (fuel + 1) 0 w [frameAt m f next text 0]).worker.Sound m ∧
      (Streamed m f next text e turn 0
        (continueLoop ngramDraft turn (fuel + 1) 0 w [frameAt m f next text 0]) ∧
          (Ends m f next text e turn 0 ∨ ¬ (turn 0).Reaches ∨
            ∃ error, (w.ring.stage.handle (tokenFrame f text.length [tokenAt next text 0]) 0
              (turn 0).chance.ok).2.2 = .error error) ∨
        ¬ Ends m f next text e turn 0 ∧ (turn 0).Reaches ∧
          (∃ out, (w.ring.stage.handle (tokenFrame f text.length [tokenAt next text 0]) 0
            (turn 0).chance.ok).2.2 = .ok out) ∧
          (continueLoop ngramDraft turn (fuel + 1) 0 w [frameAt m f next text 0]).streamed =
            chunks m f next text 0 1 ++
              (if (turn 0).reported then [errorFrame f "decode produced no token"] else []) ∧
          (continueLoop ngramDraft turn (fuel + 1) 0 w [frameAt m f next text 0]).held =
            (turn 0).reported ∧
          (continueLoop ngramDraft turn (fuel + 1) 0 w [frameAt m f next text 0]).worker.loop
            f.session = none ∧
          (continueLoop ngramDraft turn (fuel + 1) 0 w
            [frameAt m f next text 0]).worker.ring.draft = w.ring.draft ∧
          (continueLoop ngramDraft turn (fuel + 1) 0 w
            [frameAt m f next text 0]).worker.ring.left f.session = w.ring.left f.session ∧
          (continueLoop ngramDraft turn (fuel + 1) 0 w [frameAt m f next text 0]).worker.ring.Stale
            ngramDraft f) := by
  rcases continueLoop_turn next text ngramDraft fuel 0 hw hentry [] with
    ⟨hsound, hstreamed, hlast⟩ | ⟨hgoes, hreaches, l, acks, hl, hentry', heq⟩
  · exact ⟨hsound, .inl ⟨hstreamed, hlast.imp_right .inl⟩⟩
  rw [heq, goesOn, if_neg (fun hne => hne rfl)]
  have hlocal := localDecode_local ngramDraft w.ring (tokenAt next text 0) (text.length + 0)
    (frameAt m f next text 0) (turn 0).chance
  have hcall : localDecode ngramDraft w.ring (frameAt m f next text 0).sampledToken
      (frameAt m f next text 0).position (frameAt m f next text 0) (turn 0).chance =
        localDecode ngramDraft w.ring (tokenAt next text 0) (text.length + 0)
          (frameAt m f next text 0)
          (turn 0).chance := rfl
  rw [hcall]
  rcases localDecode_plain (frameAt m f next text 0) hfirst hlast hm hw.model hzero hs h
    rfl hstale.2
    (turn 0).chance with
    ⟨error, herror, hrefused, r, hstep, hsound⟩ |
    ⟨out, r, t, hout, hstep, hlookup, hdecoding, hdraft, hleft, hno⟩
  · rw [hstep] at hlocal ⊢
    obtain ⟨hworker, hstreamed, hnone⟩ := streamed_failed next text error hw hl
      hentry' hlocal hsound (if_neg (stepErrors_ne_empty herror)) acks
    refine ⟨hworker, .inl ⟨.failed (le_refl 0) herror (fun i hi hle => ?_) hstreamed rfl hnone,
      .inr (.inr ⟨error, hrefused⟩)⟩⟩
    obtain rfl : i = 0 := by omega
    exact hgoes
  · have hsome : r.left f.session ≠ [] := fun hnone => hstale.1 (hleft.symm.trans hnone)
    have hthere : w.ring.left (frameAt m f next text 0).session ≠ [] := hstale.1
    rw [if_neg hthere] at hstep
    rw [hstep] at hlocal ⊢
    obtain ⟨hworker, hstreamed, hnone⟩ := streamed_failed next text "" hw hl
      hentry' hlocal ⟨t, hlookup, hdecoding.streams.holds, hdecoding.sampled⟩ (if_pos rfl) acks
    exact ⟨hworker, .inr
      ⟨hgoes, hreaches, ⟨out, hout⟩, hstreamed, rfl, hnone, hdraft, hleft, hsome, hno⟩⟩

end run

end ProviderOwned
