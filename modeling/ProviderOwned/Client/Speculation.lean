import Mathlib.Order.Interval.Finset.Nat
import ProviderOwned.Client.Generate
import ProviderOwned.Client.Route
import ProviderOwned.Lib.Decode

/-!
# Decoding with a drafter

What a request returns is a function of the target alone: the tokens `Decode.outputs` up to the
first one that ends it (`Target.recorded`, `Target.rounds`). The loop of `generate` arrives there
one token at a time, or, with a drafter, in rounds that each stop at the first guess the target
does not confirm (`draftRound_spec`). The two differ in one thing: a round sends its whole batch
before the target has said how much of it counts, and the stages refuse a batch that does not fit
the context (`generate_draft_eq_plain_iff`).
-/

namespace ProviderOwned

variable {H : Type*} {σ : Type*}

/-- What a request asks of a route: its next-token function, its vocabulary and the prompt. -/
structure Target where
  next : List Token → Token
  piece : Token → String
  isEog : Token → Bool
  prompt : List Token

namespace Target

variable (t : Target) (c : Call)

/-- The text after `n` tokens of the answer. -/
def text (n : Nat) : List Token :=
  t.prompt ++ Decode.outputs t.next t.prompt n

/-- The result after `n` tokens of the answer, but for its position. -/
def recorded (sink : TokenSink) : Nat → RequestResult
  | 0 => {}
  | n + 1 =>
    (recorded sink n).record sink (t.next (t.text n)) (t.piece (t.next (t.text n)))
      (t.isEog (t.next (t.text n)))

/-- The result after `n` rounds of one token each: the prompt's own token comes before them. -/
def resultAfter (sink : TokenSink) (n : Nat) : RequestResult :=
  { t.recorded sink (n + 1) with position := t.prompt.length + n }

lemma text_succ (n : Nat) : t.text (n + 1) = t.text n ++ [t.next (t.text n)] := by
  rw [text, Decode.outputs_succ, ← List.append_assoc]
  rfl

@[simp] lemma length_text (n : Nat) : (t.text n).length = t.prompt.length + n := by
  simp [text]

lemma take_text {m n : Nat} (h : m ≤ n) : (t.text n).take (t.prompt.length + m) = t.text m := by
  rw [text, List.take_append, Nat.add_sub_cancel_left, Decode.take_outputs _ _ h,
    List.take_of_length_le (by omega)]
  rfl

/-- A list that continues the text to token `n` continues it to every token before. -/
lemma append_take_eq_text {k m n : Nat} {ids : List Token}
    (h : t.text k ++ ids.take n = t.text (k + n)) (hm : m ≤ n) : t.text k ++ ids.take m =
      t.text (k + m) := by
  have htake := congrArg (List.take (t.prompt.length + (k + m))) h
  rw [t.take_text (by omega)] at htake
  have hlong : (t.text k).length ≤ t.prompt.length + (k + m) := by
    rw [length_text]
    omega
  have hrest : t.prompt.length + (k + m) - (t.text k).length = m := by
    rw [length_text]
    omega
  rw [← htake, List.take_append, List.take_of_length_le hlong, hrest, List.take_take,
    Nat.min_eq_left hm]

@[simp] lemma tokenIds_recorded (sink : TokenSink) (n : Nat) :
    (t.recorded sink n).tokenIds = Decode.outputs t.next t.prompt n := by
  induction n with
  | zero => rfl
  | succ n ih =>
    change (t.recorded sink n).tokenIds ++ [t.next (t.text n)] = _
    rw [ih, Decode.outputs_succ]
    rfl

/-- A request ends: at the latest its limit stops it. -/
lemma exists_ends : ∃ n, c.goesOn (t.resultAfter c.sink n) = false := by
  refine ⟨c.limit, ?_⟩
  simp [Call.goesOn, resultAfter]

/-- The rounds a request takes without a drafter, one token each. -/
def rounds : Nat :=
  Nat.find (t.exists_ends c)

lemma goesOn_of_lt {n : Nat} (h : n < t.rounds c) : c.goesOn (t.resultAfter c.sink n) = true := by
  have := Nat.find_min (t.exists_ends c) h
  simpa using this

lemma goesOn_rounds : c.goesOn (t.resultAfter c.sink (t.rounds c)) = false :=
  Nat.find_spec (t.exists_ends c)

/-- Before its last round a request has tokens left. -/
lemma lt_limit {n : Nat} (h : n < t.rounds c) : n + 1 < c.limit := by
  have hgo := t.goesOn_of_lt c h
  simp only [Call.goesOn, Bool.and_eq_true, decide_eq_true_eq] at hgo
  simpa [resultAfter] using hgo.1.1

/-- A token that neither ends the text nor is refused. -/
def live (sink : TokenSink) (n : Nat) : Bool :=
  !(t.recorded sink n).cancelled && !(t.recorded sink n).eog

/-- From a round that is not the last, live tokens within the limit lead to no later round. -/
lemma le_rounds {k j : Nat} (hk : k < t.rounds c) (hlimit : k + 1 + j ≤ c.limit)
    (hlive : ∀ i, 1 ≤ i → i < j → t.live c.sink (k + 1 + i) = true) : k + j ≤ t.rounds c := by
  by_contra hlt
  have hends := t.goesOn_rounds c
  obtain ⟨i, hi⟩ : ∃ i, t.rounds c = k + i := ⟨t.rounds c - k, by omega⟩
  have hgo : t.live c.sink (k + 1 + i) = true := hlive i (by omega) (by omega)
  have hindex : k + i + 1 = k + 1 + i := by omega
  rw [live, Bool.and_eq_true, Bool.not_eq_true', Bool.not_eq_true'] at hgo
  rw [hi, Call.goesOn, resultAfter, hindex] at hends
  simp only [hgo.1, hgo.2, tokenIds_recorded, Decode.length_outputs] at hends
  simp at hends
  omega

end Target

/-! ### The guesses of a round -/

/-- A drafter that speaks the target's language: it counts the prompt as the target does, has the
same pieces and end tokens, and proposes as many tokens as it is asked for. -/
structure Drafter.Agrees (d : Drafter σ) (t : Target) (prompt : String) : Prop where
  start : ∀ s, (d.start s prompt).2 = t.prompt.length
  piece : d.piece = t.piece
  isEog : d.isEog = t.isEog
  propose : ∀ s token count, (d.propose s token count).2.length = count

section round

variable {t : Target} {d : Drafter σ} {prompt : String} (hagrees : d.Agrees t prompt)
include hagrees

/-- The accepted guesses are the next tokens of the answer. -/
lemma acceptGuesses_spec (sink : TokenSink) (guesses : List Token) (n q : Nat) :
    ∃ j stopped,
      acceptGuesses d sink guesses (Decode.samples t.next (t.text n) guesses)
        { t.recorded sink n with position := q } =
          ({ t.recorded sink (n + j) with position := q }, j, stopped) ∧
      j ≤ guesses.length ∧ t.text n ++ guesses.take j = t.text (n + j) ∧
      (∀ i, 1 ≤ i → i < j → t.live sink (n + i) = true) ∧
      (if stopped then 1 ≤ j else
        (1 ≤ j → t.live sink (n + j) = true) ∧
        (j < guesses.length →
          (Decode.samples t.next (t.text n) guesses).getD j 0 = t.next (t.text (n + j)))) := by
  induction guesses generalizing n with
  | nil => exact ⟨0, false, rfl, le_rfl, by simp, by simp, by simp⟩
  | cons guess guesses ih =>
    rw [Decode.samples_cons, acceptGuesses]
    by_cases hright : guess = t.next (t.text n)
    · have hrecord : RequestResult.record sink { t.recorded sink n with position := q } guess
          (d.piece guess) (d.isEog guess) = { t.recorded sink (n + 1) with position := q } := by
        rw [hright, hagrees.piece, hagrees.isEog]
        rfl
      have htext : t.text n ++ [guess] = t.text (n + 1) := by
        rw [hright, t.text_succ]
      rw [if_pos hright, hrecord, htext]
      by_cases hstop : (t.recorded sink (n + 1)).cancelled = true ∨
          (t.recorded sink (n + 1)).eog = true
      · rw [if_pos hstop]
        refine ⟨1, true, rfl, by simp, by simpa using htext, by omega, by simp⟩
      · rw [if_neg hstop]
        have hlive : t.live sink (n + 1) = true := by
          simpa [Target.live] using hstop
        obtain ⟨j, stopped, hrun, hj, htake, hlives, hend⟩ := ih (n + 1)
        have hindex : n + 1 + j = n + (j + 1) := by omega
        rw [hindex] at hrun htake hend
        have hbefore : ∀ i, 1 ≤ i → i < j + 1 → t.live sink (n + i) = true := by
          intro i hi hij
          by_cases hone : i = 1
          · rw [hone, hlive]
          · have hshift : n + i = n + 1 + (i - 1) := by omega
            rw [hshift]
            exact hlives (i - 1) (by omega) (by omega)
        refine ⟨j + 1, stopped, ?_, by simpa using hj, ?_, hbefore, ?_⟩
        · rw [hrun]
        · rw [List.take_succ_cons, ← List.singleton_append, ← List.append_assoc, htext, htake]
        · cases stopped with
          | true => simp
          | false =>
            simp only [Bool.false_eq_true, if_false] at hend ⊢
            refine ⟨?_, ?_⟩
            · intro _
              by_cases hzero : j = 0
              · rw [hzero]
                exact hlive
              · exact hend.1 (by omega)
            · intro hlt
              rw [List.getD_cons_succ]
              exact hend.2 (by simpa using hlt)
    · rw [if_neg hright]
      exact ⟨0, false, rfl, by simp, by simp, by omega, by simp⟩

/-- A round adds the tokens of the answer up to the first the guesses do not match. -/
lemma settleRound_spec (c : Call) (spec : Speculation σ) (hd : spec.drafter = d)
    {guesses : List Token} (hguesses : guesses ≠ []) (n q : Nat) :
    ∃ j, 1 ≤ j ∧ j ≤ guesses.length ∧
      settleRound c spec { t.recorded c.sink n with position := q } guesses.length guesses
        (Decode.samples t.next (t.text n) guesses) =
          .ok ({ spec with state := spec.drafter.rollback spec.state (q + j) },
            { t.recorded c.sink (n + j) with position := q + j }) ∧
      t.text n ++ guesses.take (j - 1) = t.text (n + (j - 1)) ∧
      ∀ i, 1 ≤ i → i < j → t.live c.sink (n + i) = true := by
  have hpos : 0 < guesses.length := List.length_pos_iff.mpr hguesses
  obtain ⟨j, stopped, hrun, hj, htake, hlive, hend⟩ :=
    acceptGuesses_spec hagrees c.sink guesses n q
  rw [settleRound, hd, hrun]
  cases stopped with
  | true =>
    simp only [if_true] at hend
    refine ⟨j, hend, hj, ?_, t.append_take_eq_text htake (by omega), hlive⟩
    simp only [Bool.not_true, Bool.false_eq_true, false_and, if_false, if_true]
    rw [if_neg (by omega)]
  | false =>
    simp only [Bool.false_eq_true, if_false] at hend
    by_cases hall : j < guesses.length
    · have hnext := hend.2 hall
      refine ⟨j + 1, by omega, by omega, ?_, by simpa using htake, ?_⟩
      · have hrecord : RequestResult.record c.sink { t.recorded c.sink (n + j) with position := q }
            (t.next (t.text (n + j))) (d.piece (t.next (t.text (n + j))))
            (d.isEog (t.next (t.text (n + j)))) =
              { t.recorded c.sink (n + (j + 1)) with position := q } := by
          rw [hagrees.piece, hagrees.isEog]
          rfl
        simp only [hnext, hrecord, hall, Bool.not_false, Bool.false_eq_true, and_true, if_true,
          if_false]
        rw [if_neg (by omega), min_eq_right (by omega)]
      · intro i hi hij
        by_cases hij' : i = j
        · rw [hij']
          exact hend.1 (by omega)
        · exact hlive i hi (by omega)
    · have hfull : j = guesses.length := by omega
      refine ⟨j, by omega, hj, ?_, t.append_take_eq_text htake (by omega), hlive⟩
      simp only [hall, Bool.not_false, Bool.false_eq_true, and_false, if_false]
      rw [if_neg (by omega), min_eq_left (by omega), hfull]

end round

/-! ### The rounds on a route -/

/-- What a request on a route of these models asks for. -/
def targetOf (models : List (StageModel H)) (prompt : String) : Target where
  next := nextToken models
  piece := tailPiece models
  isEog := tailEog models
  prompt := promptTokens models prompt

section route

variable {context : Nat} {c : Call} {models : List (StageModel H)} {prompt : String}
  {stages : List (Connection H)}

/-- The route between two rounds: its stages have decoded the text before the last token, and
perhaps rejected guesses after it. -/
structure Between (context : Nat) (c : Call) (models : List (StageModel H)) (prompt : String)
    (n : Nat) (stages : List (Connection H)) : Prop where
  same : modelsOf stages = models
  room : (promptTokens models prompt).length + n ≤ context
  text : ∃ text, OnText context c.hidden c.session c.request text stages ∧
    (promptTokens models prompt).length + n ≤ text.length ∧
    text.take ((promptTokens models prompt).length + n) = (targetOf models prompt).text n

/-- One token without a drafter. -/
lemma plainRound_spec (hsend : Sendable context c.hidden c.session c.request) {n : Nat}
    (h : Between context c models prompt n stages) :
    ((promptTokens models prompt).length + (n + 1) ≤ context ∧
      ∃ done, plainRound c stages ((targetOf models prompt).resultAfter c.sink n) =
        (done, .ok ((targetOf models prompt).resultAfter c.sink (n + 1))) ∧
      Between context c models prompt (n + 1) done) ∨
    (context < (promptTokens models prompt).length + (n + 1) ∧
      (plainRound c stages ((targetOf models prompt).resultAfter c.sink n)).2 =
        .error "session context exhausted") := by
  obtain ⟨text, hon, hlength, htake⟩ := h.text
  set t := targetOf models prompt with ht
  have hposition : (t.resultAfter c.sink n).position = (promptTokens models prompt).length + n :=
    rfl
  have hfinal : (t.resultAfter c.sink n).finalToken = t.next (t.text n) := rfl
  rcases routeStep_token (t.next (t.text n)) hsend hon hlength with
    ⟨hroom, done, hstep, hmodels, hon'⟩ | ⟨hfull, herror⟩
  · rw [h.same, htake, ← t.text_succ] at hstep
    rw [htake, ← t.text_succ] at hon'
    refine .inl ⟨by omega, done, ?_, hmodels.trans h.same, by omega, t.text (n + 1), hon', ?_, ?_⟩
    · rw [plainRound, hposition, hfinal, hstep]
      rfl
    · rw [t.length_text]
      rfl
    · exact t.take_text le_rfl
  · refine .inr ⟨by omega, ?_⟩
    rw [plainRound, hposition, hfinal]
    rcases hstep : routeStep stages _ _ with ⟨done, result⟩
    rw [hstep] at herror
    rw [show result = .error "session context exhausted" from herror]

/-- The tokens asked of the drafter in round `n`. -/
def draftCount (c : Call) (draftTokens n : Nat) : Nat :=
  min draftTokens (c.limit - (n + 1))

/-- The guesses of a round that starts after `n` rounds of one token each. -/
def guessesAt (c : Call) (t : Target) (spec : Speculation σ) (n : Nat) : σ × List Token :=
  spec.drafter.propose spec.state (t.next (t.text n)) (draftCount c spec.draftTokens n)

/-- The drafter after a round that added `j` tokens. -/
def Speculation.settled (spec : Speculation σ) (c : Call) (t : Target) (n j : Nat) :
    Speculation σ :=
  { spec with state := spec.drafter.rollback (guessesAt c t spec n).1 (t.prompt.length + n + j) }

/-- One round with a drafter: it goes on by at least one token of the answer, or its batch does not
fit the context. -/
lemma draftRound_spec (spec : Speculation σ)
    (hsend : Sendable context c.hidden c.session c.request) {n : Nat}
    (hagrees : spec.drafter.Agrees (targetOf models prompt) prompt)
    (hwidth : 1 ≤ spec.draftTokens ∧ spec.draftTokens ≤ maxSpeculativeWidth)
    (hn : n < (targetOf models prompt).rounds c) (h : Between context c models prompt n stages) :
    (∃ j done, 1 ≤ j ∧ n + j ≤ (targetOf models prompt).rounds c ∧
      (promptTokens models prompt).length + n + draftCount c spec.draftTokens n ≤ context ∧
      draftRound c spec stages ((targetOf models prompt).resultAfter c.sink n) =
        (done, .ok (spec.settled c (targetOf models prompt) n j,
          (targetOf models prompt).resultAfter c.sink (n + j))) ∧
      Between context c models prompt (n + j) done ∧
      (targetOf models prompt).text (n + 1) ++
          (guessesAt c (targetOf models prompt) spec n).2.take (j - 1) =
        (targetOf models prompt).text (n + j)) ∨
    (context < (promptTokens models prompt).length + n + draftCount c spec.draftTokens n ∧
      (draftRound c spec stages ((targetOf models prompt).resultAfter c.sink n)).2 =
        .error "session context exhausted") := by
  obtain ⟨text, hon, hlength, htake⟩ := h.text
  set t := targetOf models prompt with ht
  have hlimit := t.lt_limit c hn
  have hprompt : (promptTokens models prompt).length = t.prompt.length := rfl
  rcases hpropose : guessesAt c t spec n with ⟨state, guesses⟩
  have hguesses : guesses.length = draftCount c spec.draftTokens n := by
    rw [← hagrees.propose spec.state (t.next (t.text n)) (draftCount c spec.draftTokens n)]
    exact congrArg (·.2.length) hpropose.symm
  have hcount : min spec.draftTokens (c.limit - (t.resultAfter c.sink n).tokenIds.length) =
      guesses.length := by
    rw [hguesses, Target.resultAfter]
    simp [draftCount]
  have hpos : 0 < guesses.length := by
    rw [hguesses, draftCount]
    omega
  have hne : guesses ≠ [] := List.length_pos_iff.mp hpos
  have hblock : (t.next (t.text n) :: guesses.take (guesses.length - 1)).length =
      guesses.length := by
    simp
    omega
  have hfinal : (t.resultAfter c.sink n).finalToken = t.next (t.text n) := rfl
  have hposition : (t.resultAfter c.sink n).position = (promptTokens models prompt).length + n :=
    rfl
  have hpropose' : spec.drafter.propose spec.state (t.next (t.text n)) guesses.length =
      (state, guesses) := by
    rw [hguesses]
    exact hpropose
  rw [draftRound, hcount, hfinal, hpropose', hposition]
  dsimp only
  have hspeculative := routeSpeculative_tokens
    (t.next (t.text n) :: guesses.take (guesses.length - 1)) hsend hon hlength
    (List.cons_ne_nil _ _) (by rw [hblock, hguesses, draftCount]; omega)
  rw [hblock] at hspeculative
  rcases hspeculative with ⟨hroom, done, hstep, hmodels, hon'⟩ | ⟨hfull, herror⟩
  · left
    have hsamples := Decode.prefixMap_cons_eq_samples t.next (t.text n) (t.next (t.text n)) hne
    rw [← t.text_succ] at hsamples
    rw [h.same, htake] at hstep
    obtain ⟨j, hj, hjle, hsettle, htext, hlive⟩ := settleRound_spec hagrees c
      { spec with state } rfl hne (n + 1) (t.prompt.length + n)
    have hindex : n + 1 + j = n + j + 1 := by omega
    have hindex' : n + 1 + (j - 1) = n + j := by omega
    have hrounds : n + j ≤ t.rounds c := by
      apply t.le_rounds c hn
      · rw [hguesses, draftCount] at hjle
        omega
      · exact hlive
    refine ⟨j, done, hj, hrounds, by rwa [hguesses] at hroom, ?_, ?_, ?_⟩
    · rw [hstep]
      change (done,
        settleRound c { spec with state } (t.resultAfter c.sink n) guesses.length guesses
        ((t.next (t.text n) :: guesses.take (guesses.length - 1)).prefixMap
          fun b => t.next (t.text n ++ b))) = _
      rw [hsamples]
      refine Prod.ext rfl (hsettle.trans ?_)
      rw [Speculation.settled, hpropose, hindex, Target.resultAfter, ← Nat.add_assoc]
    · refine ⟨hmodels.trans h.same, by omega, _, hon', ?_, ?_⟩
      · rw [htake, List.length_append, hblock, t.length_text]
        omega
      · have hbatch : text.take ((promptTokens models prompt).length + n) ++
            t.next (t.text n) :: guesses.take (guesses.length - 1) =
              t.text (n + 1) ++ guesses.take (guesses.length - 1) := by
          rw [htake, t.text_succ, List.append_assoc, List.singleton_append]
        have hshort : (t.text (n + 1)).length ≤ (promptTokens models prompt).length + (n + j) := by
          rw [t.length_text]
          omega
        have hrest : (promptTokens models prompt).length + (n + j) - (t.text (n + 1)).length =
            j - 1 := by
          rw [t.length_text]
          omega
        rw [hbatch, List.take_append, List.take_of_length_le hshort, hrest, List.take_take,
          Nat.min_eq_left (by omega), htext, hindex']
    · rw [← hindex']
      exact htext
  · right
    rw [hguesses] at hfull
    refine ⟨hfull, ?_⟩
    rcases hstep : routeSpeculative stages _ _ with ⟨done, result⟩
    rw [hstep] at herror
    simp only [show result = .error "session context exhausted" from herror]

/-! ### Whole requests -/

/-- The loop without a drafter ends with the answer, or with a context that is too small for it. -/
lemma decodeLoop_plain (hsend : Sendable context c.hidden c.session c.request) {fuel n : Nat}
    (hn : n ≤ (targetOf models prompt).rounds c)
    (hfuel : (targetOf models prompt).rounds c - n < fuel)
    (h : Between context c models prompt n stages) :
    (∃ done, decodeLoop c fuel (none : Option (Speculation σ)) stages
        ((targetOf models prompt).resultAfter c.sink n) =
          (done, .ok ((targetOf models prompt).resultAfter c.sink
            ((targetOf models prompt).rounds c))) ∧
      Between context c models prompt ((targetOf models prompt).rounds c) done) ∨
    (context < (promptTokens models prompt).length + (targetOf models prompt).rounds c ∧
      (decodeLoop c fuel (none : Option (Speculation σ)) stages
        ((targetOf models prompt).resultAfter c.sink n)).2 =
          .error "session context exhausted") := by
  set t := targetOf models prompt with ht
  induction fuel generalizing n stages with
  | zero => omega
  | succ fuel ih =>
    rw [decodeLoop]
    by_cases hlast : n = t.rounds c
    · rw [hlast, if_neg (by simp [t.goesOn_rounds c])]
      exact .inl ⟨stages, rfl, hlast ▸ h⟩
    · have hlt : n < t.rounds c := by omega
      rw [if_pos (t.goesOn_of_lt c hlt)]
      rcases plainRound_spec hsend h with ⟨-, done, hround, hnext⟩ | ⟨hfull, herror⟩
      · rw [hround]
        exact ih hnext (by omega) (by omega)
      · right
        refine ⟨by omega, ?_⟩
        rcases hround : plainRound c stages (t.resultAfter c.sink n) with ⟨done, result⟩
        rw [hround] at herror
        rw [show result = .error "session context exhausted" from herror]

/-- The loop with a drafter ends with the same answer, or with a round whose batch does not fit. -/
lemma decodeLoop_draft (spec : Speculation σ)
    (hsend : Sendable context c.hidden c.session c.request) {fuel n : Nat}
    (hagrees : spec.drafter.Agrees (targetOf models prompt) prompt)
    (hwidth : 1 ≤ spec.draftTokens ∧ spec.draftTokens ≤ maxSpeculativeWidth)
    (hn : n ≤ (targetOf models prompt).rounds c)
    (hfuel : (targetOf models prompt).rounds c - n < fuel)
    (h : Between context c models prompt n stages) :
    (∃ done, decodeLoop c fuel (some spec) stages
        ((targetOf models prompt).resultAfter c.sink n) =
          (done, .ok ((targetOf models prompt).resultAfter c.sink
            ((targetOf models prompt).rounds c))) ∧
      Between context c models prompt ((targetOf models prompt).rounds c) done) ∨
    ((∃ m, m < (targetOf models prompt).rounds c ∧
        context < (promptTokens models prompt).length + m + draftCount c spec.draftTokens m) ∧
      (decodeLoop c fuel (some spec) stages
        ((targetOf models prompt).resultAfter c.sink n)).2 =
          .error "session context exhausted") := by
  set t := targetOf models prompt with ht
  induction fuel generalizing n stages spec with
  | zero => omega
  | succ fuel ih =>
    rw [decodeLoop]
    by_cases hlast : n = t.rounds c
    · rw [hlast, if_neg (by simp [t.goesOn_rounds c])]
      exact .inl ⟨stages, rfl, hlast ▸ h⟩
    · have hlt : n < t.rounds c := by omega
      rw [if_pos (t.goesOn_of_lt c hlt)]
      rcases draftRound_spec spec hsend hagrees hwidth hlt h with
        ⟨j, done, hj, hle, -, hround, hnext, -⟩ | ⟨hfull, herror⟩
      · rw [hround]
        exact ih (spec.settled c t n j) hwidth hnext hagrees hle (by omega)
      · right
        refine ⟨⟨n, hlt, hfull⟩, ?_⟩
        rcases hround : draftRound c spec stages (t.resultAfter c.sink n) with ⟨done, result⟩
        rw [hround] at herror
        rw [show result = .error "session context exhausted" from herror]

/-- What a request that ran to its end returns: the commit of its last token needs room too. -/
def Target.settledResult (t : Target) (c : Call) (context : Nat) (preserve : Bool) :
    Except String RequestResult :=
  if (t.resultAfter c.sink (t.rounds c)).cancelled then .ok (t.resultAfter c.sink (t.rounds c))
  else if preserve then
    if t.prompt.length + t.rounds c + 1 ≤ context then
      .ok { t.resultAfter c.sink (t.rounds c) with position := t.prompt.length + t.rounds c + 1 }
    else .error "session context exhausted"
  else .ok (t.resultAfter c.sink (t.rounds c))

lemma closeRequest_spec (hsend : Sendable context c.hidden c.session c.request) (preserve : Bool)
    (h : Between context c models prompt ((targetOf models prompt).rounds c) stages) :
    (closeRequest c 0 preserve stages ((targetOf models prompt).resultAfter c.sink
      ((targetOf models prompt).rounds c))).2 =
        (targetOf models prompt).settledResult c context preserve := by
  obtain ⟨text, hon, hlength, -⟩ := h.text
  set t := targetOf models prompt with ht
  have hend : ∀ {cells : List (Cell H)} {done : List (Connection H)},
      Along (Session.Running c.request) c.session cells done →
      (controlAll done .endRequest c.session c.request).2 = .ok () := by
    intro cells done halong
    exact controlFrom_endRequest hsend.session hsend.request halong (by simp)
  -- every way of settling leaves the stages together, so `end_request` is acknowledged
  have hclose : ∀ {done : List (Connection H)} {out : RequestResult} {cells : List (Cell H)},
      settleRequest c 0 preserve stages (t.resultAfter c.sink (t.rounds c)) = (done, .ok out) →
      Along (Session.Running c.request) c.session cells done →
      (closeRequest c 0 preserve stages (t.resultAfter c.sink (t.rounds c))).2 = .ok out := by
    intro done out cells hsettle halong
    have hok := hend halong
    rw [closeRequest, hsettle]
    rcases hcontrol : controlAll done .endRequest c.session c.request with ⟨closed, reply⟩
    rw [hcontrol] at hok
    simp only [hcontrol, show reply = .ok () from hok]
  rw [Target.settledResult]
  by_cases hcancelled : (t.resultAfter c.sink (t.rounds c)).cancelled = true
  · rw [if_pos hcancelled]
    obtain ⟨hok, -, halong⟩ :=
      rollbackAll_along hsend.session hsend.request hon.along (Nat.zero_le _)
    refine hclose ?_ halong
    rw [settleRequest, if_pos hcancelled]
    rcases hroll : rollbackAll c.session c.request 0 stages with ⟨done, reply⟩
    rw [hroll] at hok
    simp only [show reply = .ok () from hok]
  · rw [if_neg hcancelled]
    cases preserve with
    | false =>
      refine hclose ?_ hon.along
      rw [settleRequest, if_neg hcancelled, if_neg (by simp)]
    | true =>
      have hposition : (t.resultAfter c.sink (t.rounds c)).position =
        (promptTokens models prompt).length + t.rounds c := rfl
      have hprompt : t.prompt.length = (promptTokens models prompt).length := rfl
      rw [if_pos rfl, hprompt]
      rcases commitFinalToken_token (t.resultAfter c.sink (t.rounds c)).finalToken hsend
        hon hlength with ⟨hroom, done, hcommit, hdone⟩ | ⟨hfull, herror⟩
      · rw [if_pos hroom]
        refine hclose ?_ hdone.along
        rw [settleRequest, if_neg hcancelled, if_pos rfl, hposition, hcommit]
      · rw [if_neg (by omega), closeRequest, settleRequest, if_neg hcancelled, if_pos rfl,
          hposition]
        rcases hcommit : commitFinalToken stages c.session c.request
          ((promptTokens models prompt).length + t.rounds c) _ c.hidden with ⟨done, reply⟩
        rw [hcommit] at herror
        simp only [show reply = .error "session context exhausted" from herror]

/-- A prompt the route refuses ends the request. -/
lemma generate_refused {e : String} (preserve : Bool) (draft : Option (Speculation σ))
    (h : (routeStep stages (promptFrame c.session c.request 0 prompt) c.hidden).2 = .error e) :
    (generate c stages 0 prompt preserve draft).2 = .error e := by
  rw [generate, decodeAnswer]
  rcases hstep : routeStep stages _ _ with ⟨done, result⟩
  rw [hstep] at h
  simp only [show result = .error e from h]

/-- The prompt of a request at position 0: the loop starts with its token, or the request fails. -/
lemma generate_start (σ : Type*) (prompt : String)
    (hsend : Sendable context c.hidden c.session c.request)
    (hfresh : Fresh context c.hidden c.session c.request stages) (preserve : Bool) :
    (PromptFits context (modelsOf stages) prompt ∧
      ∃ done, Between context c (modelsOf stages) prompt 0 done ∧
        ∀ draft : Option (Speculation σ), decodeAnswer c stages 0 prompt draft =
          match startDraft 0 prompt (resultOf (modelsOf stages)
            ((targetOf (modelsOf stages) prompt).next (promptTokens (modelsOf stages) prompt))
            (promptTokens (modelsOf stages) prompt).length) draft with
          | .error e => (done, .error e)
          | .ok draft => decodeLoop c (c.limit + 1) draft done
              ((targetOf (modelsOf stages) prompt).resultAfter c.sink 0)) ∨
    (¬ PromptFits context (modelsOf stages) prompt ∧
      ∃ e, ∀ draft : Option (Speculation σ),
        (generate c stages 0 prompt preserve draft).2 = .error e) := by
  rcases routeStep_prompt prompt hsend hfresh with
    ⟨hfits, done, hstep, hmodels, hon⟩ | ⟨hrefused, e, herror⟩
  · have htext : (targetOf (modelsOf stages) prompt).text 0 =
        promptTokens (modelsOf stages) prompt := List.append_nil _
    refine .inl ⟨hfits, done, ⟨hmodels, hfits.2.2, _, hon, le_rfl, ?_⟩, ?_⟩
    · rw [htext]
      exact List.take_length
    · intro draft
      rw [decodeAnswer, hstep, Target.resultAfter, Target.recorded, htext]
      rfl
  · refine .inr ⟨hrefused, e, ?_⟩
    intro draft
    exact generate_refused preserve draft herror

lemma rounds_lt_fuel : (targetOf models prompt).rounds c - 0 < c.limit + 1 := by
  by_cases hzero : (targetOf models prompt).rounds c = 0
  · omega
  · have hlimit := (targetOf models prompt).lt_limit c
      (n := (targetOf models prompt).rounds c - 1) (by omega)
    omega

/-- A request without a drafter. -/
lemma generate_plain (hsend : Sendable context c.hidden c.session c.request)
    (hfresh : Fresh context c.hidden c.session c.request stages) (preserve : Bool)
    (hfits : PromptFits context (modelsOf stages) prompt) :
    (generate c stages 0 prompt preserve (none : Option (Speculation σ))).2 =
      if (promptTokens (modelsOf stages) prompt).length +
          (targetOf (modelsOf stages) prompt).rounds c ≤ context then
        (targetOf (modelsOf stages) prompt).settledResult c context preserve
      else .error "session context exhausted" := by
  rcases generate_start σ prompt hsend hfresh preserve with
    ⟨-, done, hbetween, hanswer⟩ | ⟨hrefused, -⟩
  · rw [generate, hanswer, startDraft]
    rcases decodeLoop_plain (σ := σ) hsend (Nat.zero_le _) rounds_lt_fuel hbetween with
      ⟨final, hloop, hfinal⟩ | ⟨hfull, herror⟩
    · rw [if_pos hfinal.room]
      simp only [hloop]
      exact closeRequest_spec hsend preserve hfinal
    · rw [if_neg (by omega)]
      rcases hloop : decodeLoop c (c.limit + 1) (none : Option (Speculation σ)) done
        ((targetOf (modelsOf stages) prompt).resultAfter c.sink 0) with ⟨final, result⟩
      rw [hloop] at herror
      simp only [hloop, show result = .error "session context exhausted" from herror]
  · exact absurd hfits hrefused

/-- The drafter is started on the prompt the target has decoded. -/
lemma startDraft_agrees {d : Drafter σ} {s : σ} {draftTokens : Nat} {t : Target}
    {models : List (StageModel H)} (ht : t = targetOf models prompt) (hagrees : d.Agrees t prompt)
    (token : Token) :
    startDraft 0 prompt (resultOf models token (promptTokens models prompt).length)
        (some ⟨d, s, draftTokens⟩) =
      .ok (some ⟨d, (d.start s prompt).1, draftTokens⟩) := by
  have hcount := hagrees.start s
  have hpiece := congrFun hagrees.piece token
  rw [ht] at hcount hpiece
  rw [startDraft]
  exact if_neg (by simp [resultOf, hpiece, hcount, targetOf])

/-- A request with a drafter: the answer of the target, or a batch that does not fit. -/
lemma generate_draft (hsend : Sendable context c.hidden c.session c.request)
    (hfresh : Fresh context c.hidden c.session c.request stages) (preserve : Bool)
    (hfits : PromptFits context (modelsOf stages) prompt) {d : Drafter σ} (s : σ)
    (hagrees : d.Agrees (targetOf (modelsOf stages) prompt) prompt) {draftTokens : Nat}
    (hwidth : 1 ≤ draftTokens ∧ draftTokens ≤ maxSpeculativeWidth) :
    ((promptTokens (modelsOf stages) prompt).length +
        (targetOf (modelsOf stages) prompt).rounds c ≤ context ∧
      (generate c stages 0 prompt preserve (some ⟨d, s, draftTokens⟩)).2 =
        (targetOf (modelsOf stages) prompt).settledResult c context preserve) ∨
    ((∃ m, m < (targetOf (modelsOf stages) prompt).rounds c ∧
        context < (promptTokens (modelsOf stages) prompt).length + m +
          draftCount c draftTokens m) ∧
      (generate c stages 0 prompt preserve (some ⟨d, s, draftTokens⟩)).2 =
        .error "session context exhausted") := by
  rcases generate_start σ prompt hsend hfresh preserve with
    ⟨-, done, hbetween, hanswer⟩ | ⟨hrefused, -⟩
  · rw [generate, hanswer, startDraft_agrees rfl hagrees]
    rcases decodeLoop_draft ⟨d, (d.start s prompt).1, draftTokens⟩ hsend hagrees hwidth
      (Nat.zero_le _) rounds_lt_fuel hbetween with ⟨final, hloop, hfinal⟩ | ⟨hfull, herror⟩
    · refine .inl ⟨hfinal.room, ?_⟩
      simp only [hloop]
      exact closeRequest_spec hsend preserve hfinal
    · refine .inr ⟨hfull, ?_⟩
      rcases hloop : decodeLoop c (c.limit + 1) _ done
        ((targetOf (modelsOf stages) prompt).resultAfter c.sink 0) with ⟨final, result⟩
      rw [hloop] at herror
      simp only [hloop, show result = .error "session context exhausted" from herror]
  · exact absurd hfits hrefused

/-! ### When a drafter changes nothing -/

/-- A drafter whose every guess is wrong; its state counts the rounds. -/
def wrongDrafter (t : Target) : Drafter Nat where
  start _ _ := (0, t.prompt.length)
  propose n _ count := (n + 1, List.replicate count (t.next (t.text (n + 1)) + 1))
  rollback n _ := n
  piece := t.piece
  isEog := t.isEog

lemma wrongDrafter_agrees (t : Target) : (wrongDrafter t).Agrees t prompt where
  start _ := rfl
  piece := rfl
  isEog := rfl
  propose _ _ _ := List.length_replicate

/-- A wrong guess is a round of one token. -/
lemma wrongDrafter_round {t : Target} {n j draftTokens : Nat} (hj : 1 ≤ j)
    (htext : t.text (n + 1) ++ (guessesAt c t ⟨wrongDrafter t, n, draftTokens⟩ n).2.take (j - 1) =
      t.text (n + j)) : j = 1 := by
  by_contra hne
  have hindex : n + j = n + 1 + (j - 1) := by omega
  rw [hindex] at htext
  have hone := t.append_take_eq_text htext (m := 1) (by omega)
  rw [t.text_succ (n + 1)] at hone
  have hguess := List.append_cancel_left hone
  have hcount : (guessesAt c t ⟨wrongDrafter t, n, draftTokens⟩ n).2 =
      List.replicate (draftCount c draftTokens n) (t.next (t.text (n + 1)) + 1) := rfl
  rw [hcount, List.take_replicate] at hguess
  have hmem : t.next (t.text (n + 1)) ∈ List.replicate (min 1 (draftCount c draftTokens n))
      (t.next (t.text (n + 1)) + 1) := by
    rw [hguess]
    exact List.mem_singleton_self _
  exact absurd (List.eq_of_mem_replicate hmem) (Nat.succ_ne_self _).symm

/-- The wrong drafter visits every round, so it meets the one whose batch does not fit. -/
lemma decodeLoop_wrong (fuel : Nat) (hsend : Sendable context c.hidden c.session c.request)
    {n draftTokens : Nat} (hwidth : 1 ≤ draftTokens ∧ draftTokens ≤ maxSpeculativeWidth)
    (hn : n < (targetOf models prompt).rounds c)
    (hfuel : (targetOf models prompt).rounds c - n < fuel)
    (hfull : context < (promptTokens models prompt).length +
      ((targetOf models prompt).rounds c - 1) +
        draftCount c draftTokens ((targetOf models prompt).rounds c - 1))
    (h : Between context c models prompt n stages) :
    (decodeLoop c fuel (some ⟨wrongDrafter (targetOf models prompt), n, draftTokens⟩) stages
      ((targetOf models prompt).resultAfter c.sink n)).2 =
        .error "session context exhausted" := by
  set t := targetOf models prompt with ht
  induction fuel generalizing n stages with
  | zero => omega
  | succ fuel ih =>
    rw [decodeLoop, if_pos (t.goesOn_of_lt c hn)]
    rcases draftRound_spec ⟨wrongDrafter t, n, draftTokens⟩ hsend
        (wrongDrafter_agrees t) hwidth hn h with
      ⟨j, done, hj, hle, hroom, hround, hnext, htext⟩ | ⟨-, herror⟩
    · have hone : j = 1 := wrongDrafter_round hj htext
      subst hone
      rw [hround]
      by_cases hlast : n = t.rounds c - 1
      · rw [hlast] at hroom
        exact absurd hroom (by simpa using hfull)
      · have hsettled : Speculation.settled ⟨wrongDrafter t, n, draftTokens⟩ c t n 1 =
            ⟨wrongDrafter t, n + 1, draftTokens⟩ := rfl
        change (decodeLoop c fuel (some (Speculation.settled _ c t n 1)) done _).2 = _
        rw [hsettled]
        exact ih hnext (by omega) (by omega)
    · rcases hround : draftRound c ⟨wrongDrafter t, n, draftTokens⟩ stages
        (t.resultAfter c.sink n) with ⟨done, result⟩
      rw [hround] at herror
      simp only [show result = .error "session context exhausted" from herror]

/-- The positions a request without a drafter uses: the text before its last token, and that token
if it is committed. -/
def neededContext (c : Call) (models : List (StageModel H)) (prompt : String) (preserve : Bool) :
    Nat :=
  (promptTokens models prompt).length + (targetOf models prompt).rounds c +
    if preserve = true ∧ ((targetOf models prompt).resultAfter c.sink
      ((targetOf models prompt).rounds c)).cancelled = false then 1 else 0

/-- A drafter changes nothing: the request fails without one too, or takes a single token, or the
context has room for the whole batch of the last round. -/
def RoomToDraft (context : Nat) (c : Call) (models : List (StageModel H)) (prompt : String)
    (preserve : Bool) (draftTokens : Nat) : Prop :=
  ¬ PromptFits context models prompt ∨ (targetOf models prompt).rounds c = 0 ∨
    context < neededContext c models prompt preserve ∨
    (promptTokens models prompt).length + ((targetOf models prompt).rounds c - 1) +
      draftCount c draftTokens ((targetOf models prompt).rounds c - 1) ≤ context

/-- Later rounds need at least as much room. -/
lemma draftCount_mono (draftTokens : Nat) {m n : Nat} (h : m ≤ n) :
    m + draftCount c draftTokens m ≤ n + draftCount c draftTokens n := by
  rw [draftCount, draftCount]
  omega

lemma settledResult_error {preserve : Bool}
    (hfits : (promptTokens models prompt).length + (targetOf models prompt).rounds c ≤ context)
    (hfull : context < neededContext c models prompt preserve) :
    (targetOf models prompt).settledResult c context preserve =
      .error "session context exhausted" := by
  have hprompt : (targetOf models prompt).prompt.length = (promptTokens models prompt).length := rfl
  rw [neededContext] at hfull
  split_ifs at hfull with hcommit
  · rw [Target.settledResult, if_neg (by rw [hcommit.2]; exact Bool.false_ne_true),
      if_pos hcommit.1, if_neg (by omega)]
  · omega

lemma settledResult_ok {preserve : Bool}
    (hroom : neededContext c models prompt preserve ≤ context) :
    ∃ out, (targetOf models prompt).settledResult c context preserve = .ok out := by
  have hprompt : (targetOf models prompt).prompt.length = (promptTokens models prompt).length := rfl
  rw [neededContext] at hroom
  rw [Target.settledResult]
  by_cases hcancelled : ((targetOf models prompt).resultAfter c.sink
      ((targetOf models prompt).rounds c)).cancelled = true
  · rw [if_pos hcancelled]
    exact ⟨_, rfl⟩
  · rw [if_neg hcancelled]
    cases preserve with
    | false => exact ⟨_, rfl⟩
    | true =>
      rw [if_pos (by simpa using hcancelled)] at hroom
      rw [if_pos rfl, if_pos (by omega)]
      exact ⟨_, rfl⟩

/-- Decoding with a drafter returns what decoding without one returns, for every drafter that
speaks the target's language, exactly if there is room to draft. -/
theorem generate_draft_eq_plain_iff (c : Call) (stages : List (Connection H)) (prompt : String)
    (preserve : Bool) (context draftTokens : Nat)
    (hsend : Sendable context c.hidden c.session c.request)
    (hfresh : Fresh context c.hidden c.session c.request stages)
    (hwidth : 1 ≤ draftTokens ∧ draftTokens ≤ maxSpeculativeWidth) :
    (∀ (σ : Type) (d : Drafter σ) (s : σ), d.Agrees (targetOf (modelsOf stages) prompt) prompt →
      (generate c stages 0 prompt preserve (some ⟨d, s, draftTokens⟩)).2 =
        (generate c stages 0 prompt preserve (none : Option (Speculation σ))).2) ↔
    RoomToDraft context c (modelsOf stages) prompt preserve draftTokens := by
  constructor
  · -- the wrong drafter fails where plain decoding succeeds
    intro hsame
    by_contra hroom
    rw [RoomToDraft] at hroom
    push Not at hroom
    obtain ⟨hfits, hrounds, hneeded, hfull⟩ := hroom
    have heq :=
      hsame Nat (wrongDrafter (targetOf (modelsOf stages) prompt)) 0 (wrongDrafter_agrees _)
    have hplain :
        (promptTokens (modelsOf stages) prompt).length +
          (targetOf (modelsOf stages) prompt).rounds c ≤ context := by
      rw [neededContext] at hneeded
      omega
    rw [generate_plain hsend hfresh preserve hfits, if_pos hplain] at heq
    obtain ⟨out, hout⟩ := settledResult_ok hneeded
    rw [hout] at heq
    rcases generate_start Nat prompt hsend hfresh preserve with
      ⟨-, done, hbetween, hanswer⟩ | ⟨hrefused, -⟩
    · rw [generate, hanswer, startDraft_agrees rfl (wrongDrafter_agrees _)] at heq
      have herror := decodeLoop_wrong (c.limit + 1) hsend hwidth
        (Nat.pos_of_ne_zero hrounds) rounds_lt_fuel hfull hbetween
      rcases hloop : decodeLoop c (c.limit + 1)
        (some ⟨wrongDrafter (targetOf (modelsOf stages) prompt), 0, draftTokens⟩) done
          ((targetOf (modelsOf stages) prompt).resultAfter c.sink 0) with ⟨final, result⟩
      have hwrong :
          decodeLoop c (c.limit + 1) (some ⟨wrongDrafter (targetOf (modelsOf stages) prompt),
          ((wrongDrafter (targetOf (modelsOf stages) prompt)).start 0 prompt).1, draftTokens⟩) done
            ((targetOf (modelsOf stages) prompt).resultAfter c.sink 0) =
          (final, .error "session context exhausted") := by
        rw [← show result = .error "session context exhausted" from
          (congrArg Prod.snd hloop).symm.trans herror, ← hloop]
        rfl
      simp only [hwrong] at heq
      cases heq
    · exact hrefused hfits
  · intro hroom σ d s hagrees
    by_cases hfits : PromptFits context (modelsOf stages) prompt
    · rw [generate_plain hsend hfresh preserve hfits]
      rcases generate_draft hsend hfresh preserve hfits s hagrees hwidth with
        ⟨hplain, hdraft⟩ | ⟨⟨m, hm, hfull⟩, hdraft⟩
      · rw [hdraft, if_pos hplain]
      · -- a batch did not fit, so plain decoding fails as well
        rw [hdraft]
        have hmono := draftCount_mono (c := c) draftTokens
          (show m ≤ (targetOf (modelsOf stages) prompt).rounds c - 1 by omega)
        rcases hroom with hrefused | hzero | hneeded | hlast
        · exact absurd hfits hrefused
        · omega
        · split_ifs with hplain
          · exact (settledResult_error hplain hneeded).symm
          · rfl
        · omega
    · rcases generate_start σ prompt hsend hfresh preserve with
        ⟨hfits', -⟩ | ⟨-, e, herror⟩
      · exact absurd hfits' hfits
      · rw [herror, herror]

end route

/-- A whole model in one stage with a context of 8. Every prompt has four tokens, and the third
token of the answer ends it. -/
def shortModel : StageModel Unit where
  first := true
  last := true
  contextSize := 8
  maxSessions := 1
  hidden := 1
  wire := .f32le
  tokenize _ := [1, 1, 1, 1]
  embed _ := ()
  greedy cells := if cells.length < 6 then 0 else 2
  chat _ _ := 0
  template _ := none
  piece _ := "a"
  isEog token := token = 2

/-- The route of that model, its session 1 just created. -/
def shortRoute : List (Connection Unit) :=
  [{ stage := ((Stage.load shortModel).handle (controlFrame .createSession 1) 0 fun _ => true).1 }]

/-- Ten tokens at most, and no cancel. -/
def shortCall : Call :=
  { hidden := 1, session := 1, request := 1, limit := 10, sink := fun _ => true }

lemma shortRoute_fresh : Fresh 8 1 1 1 shortRoute := by
  constructor
  · exact ⟨⟨rfl, rfl, rfl⟩, rfl, rfl⟩
  · refine ⟨⟨rfl, { sequence := 0 }, rfl, ?_, rfl, rfl⟩, trivial⟩
    exact ⟨rfl, rfl, rfl, rfl, .inr ⟨rfl, Nat.one_pos⟩⟩

lemma shortCall_rounds : (targetOf (modelsOf shortRoute) "hi").rounds shortCall = 2 := by
  rw [Target.rounds, Nat.find_eq_iff]
  constructor
  · rfl
  · decide

/-- With two tokens a round there is room, also for a drafter that is always wrong. -/
theorem shortRoute_draft_eq_plain :
    RoomToDraft 8 shortCall (modelsOf shortRoute) "hi" true 2 ∧
    (generate shortCall shortRoute 0 "hi" true
      (some ⟨wrongDrafter (targetOf (modelsOf shortRoute) "hi"), 0, 2⟩)).2 =
        (generate shortCall shortRoute 0 "hi" true (none : Option (Speculation Nat))).2 := by
  have hroom : RoomToDraft 8 shortCall (modelsOf shortRoute) "hi" true 2 := by
    right; right; right
    rw [shortCall_rounds]
    decide
  refine ⟨hroom, ?_⟩
  exact (generate_draft_eq_plain_iff shortCall shortRoute "hi" true 8 2
    ⟨Nat.one_ne_zero, Nat.one_ne_zero, by decide⟩ shortRoute_fresh ⟨by decide, by decide⟩).mpr
    hroom Nat _ 0 (wrongDrafter_agrees _)

/-- With four tokens a round the second batch does not fit, and the request fails where it
succeeds without a drafter. -/
theorem shortRoute_draft_ne_plain :
    (wrongDrafter (targetOf (modelsOf shortRoute) "hi")).Agrees
      (targetOf (modelsOf shortRoute) "hi") "hi" ∧
    (generate shortCall shortRoute 0 "hi" true
      (some ⟨wrongDrafter (targetOf (modelsOf shortRoute) "hi"), 0, 4⟩)).2 =
        .error "session context exhausted" ∧
    (generate shortCall shortRoute 0 "hi" true (none : Option (Speculation Nat))).2 =
      .ok { output := "aaa", tokenIds := [0, 0, 2], offered := ["a", "a", "a"], position := 7,
            finalToken := 2, eog := true, cancelled := false } :=
  ⟨wrongDrafter_agrees _, rfl, rfl⟩

end ProviderOwned
