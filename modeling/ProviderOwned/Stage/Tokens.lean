import ProviderOwned.Stage.Batch
import ProviderOwned.Stage.Rejection

/-!
# The tokens of a session at the first stage

At the first stage the KV cache of a session holds its tokens, one row each, and `history` lists
them. A frame takes the session back to the frame's position and adds tokens there
(`execute_accepted`), or it is refused and adds none, but for a prompt whose first chunks were
decoded (`execute_refused`).
-/

namespace ProviderOwned

variable {H : Type*}

namespace Session

structure Holds (l : List Token) (s : Session H) : Prop where
  history : s.history = l
  kv : s.kv = l.map .token
  position : s.position = l.length

variable {m : StageModel H} {s t : Session H} {f : Frame H} {l : List Token} {tokens : List Token}

lemma Holds.truncate (h : s.Holds l) (hfirst : m.first) {p : Nat} (hp : p ≤ l.length) :
    (s.truncate m p).Holds (l.take p) where
  history := by rw [Session.truncate, if_pos hfirst, h.history]
  kv := by rw [List.map_take, ← h.kv]; rfl
  position := by rw [List.length_take_of_le hp]; rfl

lemma Holds.rewind (h : s.Holds l) (hfirst : m.first) (p : Nat) :
    (s.rewind m p).Holds (l.take p) := by
  rw [Session.rewind]
  have hposition := h.position
  split_ifs with hlow
  · exact h.truncate hfirst (by omega)
  · rw [List.take_of_length_le (by omega)]
    exact h

lemma Holds.appendTokens (h : s.Holds l) (tokens : List Token) :
    (s.appendTokens tokens).Holds (l ++ tokens) where
  history := by rw [← h.history]; rfl
  kv := by rw [List.map_append, ← h.kv]; rfl
  position := by
    rw [List.length_append, ← h.position, Session.appendTokens, Session.append, List.length_map]

lemma Holds.sample (h : s.Holds l) : (s.sample m).2.Holds l := by
  rw [Session.sample]
  cases s.chatSampler with
  | none => exact h
  | some sampler => exact ⟨h.history, h.kv, h.position⟩

lemma sample_hasPrompt (s : Session H) : (s.sample m).2.hasPrompt = s.hasPrompt := by
  rw [Session.sample]
  cases s.chatSampler <;> rfl

lemma sample_chatPending (s : Session H) : (s.sample m).2.chatPending = s.chatPending := by
  rw [Session.sample]
  cases s.chatSampler <;> rfl

/-! ### The runners -/

/-- What running a frame makes of a session that holds `l`: accepted, its tokens come after them,
and refused, only chunks of a prompt do. -/
structure Ran (f : Frame H) (l tokens : List Token) (s : Session H) (h : Handled H) : Prop where
  hasPrompt : h.session.hasPrompt = s.hasPrompt
  chatPending : h.session.chatPending = s.chatPending
  accepted : ∀ r, h.reply = .ok r → h.session.Holds (l ++ tokens)
  refused : ∀ e, h.reply = .error e →
    ∃ more, h.session.Holds (l ++ more) ∧ (f.type ≠ .prompt → more = [])

lemma Ran.throw (h : s.Holds l) (e : String) (out : List (Frame H)) :
    Ran f l tokens s (s.throw e out) where
  hasPrompt := rfl
  chatPending := rfl
  accepted r hr := by cases hr
  refused _ _ := ⟨[], by rwa [List.append_nil], fun _ => rfl⟩

lemma Ran.answer (h : t.Holds (l ++ tokens)) (hprompt : t.hasPrompt = s.hasPrompt)
    (hpending : t.chatPending = s.chatPending) (r : Frame H) (out : List (Frame H)) :
    Ran f l tokens s (t.answer r out) where
  hasPrompt := hprompt
  chatPending := hpending
  accepted _ _ := h
  refused e he := by cases he

/-- The final batch adds its tokens, or none where it fails. -/
lemma ran_finalBatch (h : s.Holds l) (decoded : Bool) (out : List (Frame H)) :
    Ran f l tokens s (s.finalBatch m f tokens decoded out) := by
  have happend := h.appendTokens tokens
  have hprompt : (s.appendTokens tokens).hasPrompt = s.hasPrompt := rfl
  have hpending : (s.appendTokens tokens).chatPending = s.chatPending := rfl
  have hsample := happend.sample (m := m)
  have hsampled := sample_hasPrompt (m := m) (s.appendTokens tokens)
  have hpended := sample_chatPending (m := m) (s.appendTokens tokens)
  rw [finalBatch]
  split
  · exact .throw h _ _
  · split
    · split
      · exact .answer happend hprompt hpending _ _
      · split
        · exact .answer happend hprompt hpending _ _
        · exact .answer hsample (hsampled.trans hprompt) (hpended.trans hpending) _ _
    · exact .answer happend hprompt hpending _ _

/-- The chunks that are sent ahead are added, and the rest is left. -/
lemma prefillChunks_holds (chunk : Nat) (ok : Nat → Bool) (fuel call : Nat) (h : s.Holds l)
    (tokens : List Token) (out : List (Frame H)) :
    ∃ more, (prefillChunks m chunk ok f fuel call s tokens out).1.Holds (l ++ more) ∧
      (prefillChunks m chunk ok f fuel call s tokens out).1.hasPrompt = s.hasPrompt ∧
      (prefillChunks m chunk ok f fuel call s tokens out).1.chatPending = s.chatPending ∧
      ∀ rest call', (prefillChunks m chunk ok f fuel call s tokens out).2.2 = .ok (rest, call') →
        tokens = more ++ rest := by
  have hnone : s.Holds (l ++ []) := by rwa [List.append_nil]
  induction fuel generalizing call s tokens out l with
  | zero =>
    refine ⟨[], hnone, rfl, rfl, fun rest call' hrest => ?_⟩
    cases hrest
    rfl
  | succ fuel ih =>
    rw [prefillChunks]
    split_ifs
    · refine ⟨[], hnone, rfl, rfl, fun rest call' hrest => ?_⟩
      cases hrest
      rfl
    · refine ⟨[], hnone, rfl, rfl, fun rest call' hrest => ?_⟩
      cases hrest
    · have happend := h.appendTokens (tokens.take chunk)
      obtain ⟨more, hholds, hprompt, hpending, hrest⟩ := ih (call + 1) happend (tokens.drop chunk)
        (out ++ [s.firstActivation m f .promptChunk (tokens.take chunk)])
        (by rwa [List.append_nil])
      refine ⟨tokens.take chunk ++ more, ?_, hprompt, hpending, fun rest call' hok => ?_⟩
      · rwa [← List.append_assoc]
      · rw [List.append_assoc, ← hrest rest call' hok, List.take_append_drop]

lemma ran_runTokens (h : s.Holds l) (chunk : Nat) (ok : Nat → Bool) :
    Ran f l tokens s (s.runTokens m f tokens chunk ok) := by
  rw [runTokens]
  split_ifs
  · exact .throw h _ _
  · rw [prefill]
    split_ifs with hchunked
    · obtain ⟨more, hholds, hprompt, hpending, hrest⟩ :=
        prefillChunks_holds (f := f) (m := m) chunk ok tokens.length 0 h tokens []
      revert hholds hprompt hpending hrest
      rcases prefillChunks m chunk ok f tokens.length 0 s tokens [] with ⟨t, out, e | ⟨rest, call⟩⟩
      · intro hholds hprompt hpending _
        refine ⟨hprompt, hpending, fun r hr => ?_, fun _ _ => ?_⟩
        · cases hr
        · exact ⟨more, hholds, fun htype => absurd hchunked.1 htype⟩
      · intro hholds hprompt hpending hrest
        have hran : Ran f (l ++ more) rest t (t.finalBatch m f rest (ok call) out) :=
          ran_finalBatch hholds (ok call) out
        refine ⟨hran.hasPrompt.trans hprompt, hran.chatPending.trans hpending, fun r hr => ?_,
          fun e he => ?_⟩
        · rw [hrest rest call rfl, ← List.append_assoc]
          exact hran.accepted r hr
        · obtain ⟨after, hafter, hnone⟩ := hran.refused e he
          exact ⟨more ++ after, by rwa [← List.append_assoc], fun htype => absurd hchunked.1 htype⟩
    · exact ran_finalBatch h _ _

/-- The tokens a frame brings to the first stage. -/
def brought (m : StageModel H) (s : Session H) (f : Frame H) : List Token :=
  if f.type = .prompt then
    if s.chatPending then s.chatTokens else m.tokenize f.payload.message
  else match f.payload with
    | .tokens ids => ids
    | _ => []

lemma brought_of_tokenIds (htype : f.type ≠ .prompt) {count : Nat} {ids : List Token}
    (h : f.payload.tokenIds count = some ids) : brought m s f = ids := by
  rw [brought, if_neg htype]
  cases hpayload : f.payload with
  | tokens all =>
    rw [hpayload, Payload.tokenIds] at h
    split at h
    · exact Option.some.inj h
    · cases h
  | _ => rw [hpayload] at h; cases h

/-- What a frame that is accepted by the first stage does to a session that holds `l`. -/
structure Accepted (m : StageModel H) (f : Frame H) (l : List Token) (s t : Session H) : Prop where
  position : f.position ≤ l.length
  holds : t.Holds (l.take f.position ++ brought m s f)
  prompted : t.hasPrompt = true
  kind : f.type = .prompt ∧ s.hasPrompt = false ∧ t.chatPending = false ∨
    (f.type = .token ∨ f.type = .commitToken) ∧ s.hasPrompt = true ∧ t.chatPending = s.chatPending

/-- What a frame that is refused by the first stage does to a session that holds `l`: a prompt that
fails when it runs leaves the session with a prompt. -/
structure Refused (f : Frame H) (l : List Token) (s t : Session H) : Prop where
  holds : ∃ l', t.Holds l' ∧ (t.hasPrompt = s.hasPrompt → l' = l.take f.position)
  prompted : t.hasPrompt = s.hasPrompt ∨
    (f.type = .prompt ∧ s.hasPrompt = false ∧ t.hasPrompt = true)
  pending : t.chatPending = s.chatPending ∨ t.chatPending = false

/-- What a frame does to a session that holds `l`, by its reply. -/
structure Runs (m : StageModel H) (f : Frame H) (l : List Token) (s : Session H) (h : Handled H) :
    Prop where
  accepted : ∀ r, h.reply = .ok r → Accepted m f l s h.session
  refused : ∀ e, h.reply = .error e → Refused f l s h.session

lemma Runs.throw (h : s.Holds (l.take f.position)) (e : String) : Runs m f l s (s.throw e) where
  accepted r hr := by cases hr
  refused _ _ := ⟨⟨_, h, fun _ => rfl⟩, .inl rfl, .inl rfl⟩

lemma position_le (h : s.Holds (l.take f.position)) (hposition : f.position = s.position) :
    f.position ≤ l.length := by
  rw [h.position, List.length_take] at hposition
  omega

lemma runs_runToken (h : s.Holds (l.take f.position))
    (htype : f.type = .token ∨ f.type = .commitToken)
    (chunk : Nat) (ok : Nat → Bool) : Runs m f l s (s.runToken m f chunk ok) := by
  have hother : f.type ≠ .prompt := by
    rcases htype with htype | htype
    all_goals
      rw [htype]
      decide
  rw [runToken]
  split
  · exact .throw h _
  · rename_i ids hids
    split
    · exact .throw h _
    · rename_i hgood
      split
      · exact .throw h _
      · rename_i hprompted
        rw [Bool.not_eq_true', Bool.not_eq_false] at hprompted
        have hran : Ran f (l.take f.position) ids s (s.runTokens m f ids chunk ok) :=
          ran_runTokens h chunk ok
        constructor
        · intro r hr
          have hle := position_le h (by_contra fun hne => hgood (.inl hne))
          have hholds := hran.accepted r hr
          have hbrought := brought_of_tokenIds (m := m) (s := s) hother hids
          exact ⟨hle, hbrought.symm ▸ hholds, hran.hasPrompt.trans hprompted,
            .inr ⟨htype, hprompted, hran.chatPending⟩⟩
        · intro e he
          obtain ⟨more, hholds, hnone⟩ := hran.refused e he
          rw [hnone hother, List.append_nil] at hholds
          exact ⟨⟨_, hholds, fun _ => rfl⟩, .inl hran.hasPrompt, .inl hran.chatPending⟩

lemma runs_runPrompt (h : s.Holds (l.take f.position)) (htype : f.type = .prompt)
    (chunk : Nat) (ok : Nat → Bool) : Runs m f l s (s.runPrompt m f chunk ok) := by
  rw [runPrompt]
  split
  · exact .throw h _
  · rename_i hgood
    split
    · exact .throw h _
    · rename_i hfresh
      rw [Bool.not_eq_true] at hfresh
      have hle := position_le h (by_contra fun hne => hgood (.inl hne))
      have hdone : ∀ (t : Session H) (tokens : List Token), t.Holds (l.take f.position) →
          t.hasPrompt = true → t.chatPending = false → brought m s f = tokens →
          Runs m f l s (t.runTokens m f tokens chunk ok) := by
        rintro t tokens ht hprompted hpending htokens
        have hran : Ran f (l.take f.position) tokens t (t.runTokens m f tokens chunk ok) :=
          ran_runTokens ht chunk ok
        constructor
        · intro r hr
          exact ⟨hle, htokens.symm ▸ hran.accepted r hr, hran.hasPrompt.trans hprompted,
            .inl ⟨htype, hfresh, hran.chatPending.trans hpending⟩⟩
        · intro e he
          obtain ⟨more, hholds, -⟩ := hran.refused e he
          refine ⟨⟨_, hholds, fun hsame => ?_⟩,
            .inr ⟨htype, hfresh, hran.hasPrompt.trans hprompted⟩,
            .inr (hran.chatPending.trans hpending)⟩
          rw [hran.hasPrompt, hprompted, hfresh] at hsame
          cases hsame
      split
      · rename_i hpending
        refine hdone _ _ ⟨h.history, h.kv, h.position⟩ rfl rfl ?_
        rw [brought, if_pos htype, if_pos hpending]
      · rename_i hpending
        rw [Bool.not_eq_true] at hpending
        split
        · constructor
          · intro r hr
            cases hr
          · intro e he
            refine ⟨⟨_, ⟨h.history, h.kv, h.position⟩, fun _ => rfl⟩, .inr ⟨htype, hfresh, rfl⟩,
              .inl rfl⟩
        · refine hdone _ _ ⟨h.history, h.kv, h.position⟩ rfl hpending ?_
          rw [brought, if_pos htype, hpending]
          rfl

lemma runs_runFirst (h : s.Holds (l.take f.position)) (chunk : Nat) (ok : Nat → Bool) :
    Runs m f l s (s.runFirst m f chunk ok) := by
  rw [runFirst]
  split
  · exact .throw h _
  · split
    · rename_i htype
      exact runs_runPrompt h htype chunk ok
    · split
      · rename_i htype
        exact runs_runToken h htype chunk ok
      · exact .throw h _

/-- A session that is let in is in the request of the frame, back at its position. -/
lemma enter_holds (h : s.Holds l) (hfirst : m.first) (henter : s.enter m f = .ok t) :
    t.Holds (l.take f.position) ∧ t.hasPrompt = s.hasPrompt ∧ t.chatPending = s.chatPending ∧
      t.chatTokens = s.chatTokens ∧ (s.activeRequest = 0 ∨ s.activeRequest = f.request) := by
  rw [enter] at henter
  split_ifs at henter with hzero hchat hold hother
  cases henter
  have hsame : { s with activeRequest := f.request }.Holds l := ⟨h.history, h.kv, h.position⟩
  refine ⟨hsame.rewind hfirst _, rewind_hasPrompt .., rewind_chatPending .., ?_, ?_⟩
  · rw [Session.rewind]
    split_ifs <;> rfl
  · by_cases hidle : s.activeRequest = 0
    · exact .inl hidle
    · exact .inr (by_contra fun hne => hother ⟨hidle, hne⟩)

/-- A frame that the first stage accepts takes the session back to its position and adds its
tokens. -/
lemma execute_accepted (h : s.Holds l) (hfirst : m.first) {chunk : Nat} {ok : Nat → Bool}
    {r : Frame H} (hr : (s.execute m f chunk ok).reply = .ok r) :
    Accepted m f l s (s.execute m f chunk ok).session ∧
      (s.execute m f chunk ok).session.fixed = { s with activeRequest := f.request }.fixed ∧
      f.request ≠ 0 ∧ (s.activeRequest = 0 ∨ s.activeRequest = f.request) := by
  rcases s.execute_cases m f chunk ok with ⟨e, -, hrefused⟩ | ⟨t, henter, hfixed⟩
  · rw [hrefused] at hr
    cases hr
  · obtain ⟨hholds, hprompt, hpending, htokens, hactive⟩ := enter_holds h hfirst henter
    have hrun := runs_runFirst (m := m) hholds chunk ok
    have hexecute : s.execute m f chunk ok = t.runFirst m f chunk ok := by
      rw [execute, henter]
      exact if_pos hfirst
    rw [hexecute] at hr hfixed ⊢
    obtain ⟨hposition, haccepted, hprompted, hkind⟩ := hrun.accepted r hr
    have hbrought : brought m t f = brought m s f := by
      rw [brought, brought, hpending, htokens]
    rw [hbrought] at haccepted
    rw [hprompt, hpending] at hkind
    exact ⟨⟨hposition, haccepted, hprompted, hkind⟩, hfixed.trans (enter_fixed henter).1,
      (enter_fixed henter).2, hactive⟩

/-- A frame that the first stage refuses leaves the session alone or as `Refused` says. -/
lemma execute_refused (h : s.Holds l) (hfirst : m.first) {chunk : Nat} {ok : Nat → Bool}
    {e : String} (he : (s.execute m f chunk ok).reply = .error e) :
    (s.execute m f chunk ok).session = s ∨
      (Refused f l s (s.execute m f chunk ok).session ∧
        (s.execute m f chunk ok).session.fixed = { s with activeRequest := f.request }.fixed ∧
        f.request ≠ 0 ∧ (s.activeRequest = 0 ∨ s.activeRequest = f.request)) := by
  rcases s.execute_cases m f chunk ok with ⟨e, -, hrefused⟩ | ⟨t, henter, hfixed⟩
  · exact .inl (by rw [hrefused, throw_session])
  · obtain ⟨hholds, hprompt, hpending, -, hactive⟩ := enter_holds h hfirst henter
    have hrun := runs_runFirst (m := m) hholds chunk ok
    have hexecute : s.execute m f chunk ok = t.runFirst m f chunk ok := by
      rw [execute, henter]
      exact if_pos hfirst
    rw [hexecute] at he hfixed ⊢
    obtain ⟨hlist, hprompted, hpended⟩ := hrun.refused e he
    rw [hprompt] at hlist hprompted
    rw [hpending] at hpended
    exact .inr ⟨⟨hlist, hprompted, hpended⟩, hfixed.trans (enter_fixed henter).1,
      (enter_fixed henter).2, hactive⟩

end Session

end ProviderOwned
