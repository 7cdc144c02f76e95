import ProviderOwned.Stage.Draft

/-!
# Feeding the draft

Between two rounds the draft of a session may lack the end of the text: the last of its own guesses,
or the tokens deferred to it. What it will have read once it has got them is `Followed`. Catching up
and flushing keep that text (`Following.catchUp`, `Following.flush`), and guessing adds to it
(`Following.guess`).
-/

namespace ProviderOwned

variable {H : Type*}

/-! ### Sessions outside a chat -/

/-- A session outside a chat, whose history is what it has decoded. -/
structure Session.Plain (s : Session H) : Prop where
  holds : s.Holds s.history
  greedy : s.chatRequest = false
  noChat : s.chatPending = false
  idleClear : s.IdleClear

lemma Session.Holds.self {l : List Token} {s : Session H} (h : s.Holds l) : s.Holds s.history := by
  rwa [h.history]

namespace Stage

variable {st : Stage H} {f : Frame H} {s : Session H}

lemma requireSession_ok (h : st.requireSession f = .ok s) :
    f.session ≠ 0 ∧ st.sessions.lookup f.session = some s := by
  rw [requireSession] at h
  split_ifs at h with hzero
  split at h
  · cases h
  · rename_i hlookup
    cases h
    exact ⟨hzero, hlookup⟩

lemma requireSession_of_lookup (hzero : f.session ≠ 0)
    (hs : st.sessions.lookup f.session = some s) :
    st.requireSession f = .ok s := by
  rw [requireSession, if_neg hzero, hs]

/-- A frame that runs and is answered has run on its session. -/
lemma handle_run_ok (hruns : f.type.runs) {chunk : Nat} {ok : Nat → Bool} {out : Frame H}
    (h : (st.handle f chunk ok).2.2 = .ok out) :
    f.session ≠ 0 ∧ ∃ s, st.sessions.lookup f.session = some s ∧
      (s.execute st.model f chunk ok).reply = .ok out ∧
      (st.handle f chunk ok).1.sessions.lookup f.session =
        some (s.execute st.model f chunk ok).session := by
  rw [handle_runs hruns] at h ⊢
  split_ifs at h ⊢
  rcases st.onSession_cases f (·.execute st.model f chunk ok) with ⟨e, hrefused⟩ |
    ⟨s, hzero, hs, hon⟩
  · rw [hrefused] at h
    cases h
  · rw [hon] at h ⊢
    exact ⟨hzero, s, hs, h, AList.lookup_insert _⟩

/-- A frame that runs and is not answered has left its session alone, or has failed on it. -/
lemma handle_run_error (hruns : f.type.runs) {chunk : Nat} {ok : Nat → Bool} {e : String}
    (h : (st.handle f chunk ok).2.2 = .error e) :
    (st.handle f chunk ok).1.sessions.lookup f.session = st.sessions.lookup f.session ∨
      ∃ s, st.sessions.lookup f.session = some s ∧
        (s.execute st.model f chunk ok).reply = .error e ∧
        (st.handle f chunk ok).1.sessions.lookup f.session =
          some (s.execute st.model f chunk ok).session := by
  rw [handle_runs hruns] at h ⊢
  split_ifs at h ⊢
  · exact .inl rfl
  · rcases st.onSession_cases f (·.execute st.model f chunk ok) with ⟨e, hrefused⟩ | ⟨s, -, hs, hon⟩
    · rw [hrefused]
      exact .inl rfl
    · rw [hon] at h ⊢
      exact .inr ⟨s, hs, h, AList.lookup_insert _⟩

/-- A frame that runs on a session of the table. -/
lemma handle_run_of_lookup (hruns : f.type.runs) (hrequest : f.request ≠ 0) (hzero : f.session ≠ 0)
    (hs : st.sessions.lookup f.session = some s) (chunk : Nat) (ok : Nat → Bool) :
    (st.handle f chunk ok).2.2 = (s.execute st.model f chunk ok).reply ∧
      (st.handle f chunk ok).1.sessions.lookup f.session =
        some (s.execute st.model f chunk ok).session := by
  rw [handle_runs hruns, if_neg hrequest, onSession_of_lookup hzero hs]
  exact ⟨rfl, AList.lookup_insert _⟩

lemma lookup_change (id : Nat) (g : Session H → Session H) (hs : st.sessions.lookup id = some s) :
    (st.change id g).sessions.lookup id = some (g s) := by
  rw [change, hs]
  exact AList.lookup_insert _

lemma lookup_change_of_ne {id i : Nat} (g : Session H → Session H) (h : i ≠ id) :
    (st.change id g).sessions.lookup i = st.sessions.lookup i := by
  rw [change]
  split
  · rfl
  · exact AList.lookup_insert_ne h

@[simp] lemma change_model (id : Nat) (g : Session H → Session H) :
    (st.change id g).model = st.model := by
  rw [change]
  split <;> rfl

end Stage

namespace Session

variable {m : StageModel H} {s : Session H} {f : Frame H} {chunk : Nat} {ok : Nat → Bool}

/-- What running a frame leaves as it was, if it is let in. -/
structure Entered (f : Frame H) (s t : Session H) : Prop where
  active : t.activeRequest = f.request
  nonzero : f.request ≠ 0
  before : s.activeRequest = 0 ∨ s.activeRequest = f.request
  draft : t.draft = s.draft

/-- An accepted frame takes a plain session back to its position and adds its tokens there. -/
lemma Plain.execute_ok (h : s.Plain) (hfirst : m.first) {out : Frame H}
    (hok : (s.execute m f chunk ok).reply = .ok out) :
    (s.execute m f chunk ok).session.Plain ∧
      Accepted m f s.history s (s.execute m f chunk ok).session ∧
      Entered f s (s.execute m f chunk ok).session := by
  obtain ⟨haccepted, hfixed, hrequest, hbefore⟩ := execute_accepted h.holds hfirst hok
  refine ⟨⟨haccepted.holds.self, ?_, ?_, h.idleClear.execute m f chunk ok⟩, haccepted,
    ⟨congrArg (·.2.1) hfixed, hrequest, hbefore, congrArg (·.2.2.2.1) hfixed⟩⟩
  · exact (congrArg (·.2.2.2.2.1) hfixed).trans h.greedy
  · rcases haccepted.kind with ⟨-, -, hpending⟩ | ⟨-, -, hpending⟩
    · exact hpending
    · exact hpending.trans h.noChat

/-- A refused frame leaves a plain session alone or takes it back to its position; a prompt that
fails may add tokens. -/
lemma Plain.execute_error (h : s.Plain) (hfirst : m.first) {e : String}
    (he : (s.execute m f chunk ok).reply = .error e) :
    (s.execute m f chunk ok).session = s ∨
      (s.execute m f chunk ok).session.Plain ∧
        Refused f s.history s (s.execute m f chunk ok).session ∧
        Entered f s (s.execute m f chunk ok).session := by
  rcases execute_refused h.holds hfirst he with hsame | ⟨hrefused, hfixed, hrequest, hbefore⟩
  · exact .inl hsame
  · obtain ⟨l, hl, -⟩ := hrefused.holds
    refine .inr ⟨⟨hl.self, ?_, ?_, h.idleClear.execute m f chunk ok⟩, hrefused,
      ⟨congrArg (·.2.1) hfixed, hrequest, hbefore, congrArg (·.2.2.2.1) hfixed⟩⟩
    · exact (congrArg (·.2.2.2.2.1) hfixed).trans h.greedy
    · rcases hrefused.pending with hpending | hpending
      · exact hpending.trans h.noChat
      · exact hpending

/-- A frame that is let in is answered, or refused as `Refused` says. -/
lemma Plain.execute_error_of_admits (h : s.Plain) (hfirst : m.first) (hadmits : s.Admits f)
    {e : String} (he : (s.execute m f chunk ok).reply = .error e) :
    Refused f s.history s (s.execute m f chunk ok).session := by
  have henter := enter_of_admits (m := m) hadmits
  obtain ⟨hholds, hprompt, hpending, -, -⟩ := enter_holds h.holds hfirst henter
  have hexecute : s.execute m f chunk ok = (s.entered m f).runFirst m f chunk ok := by
    rw [execute, henter]
    exact if_pos hfirst
  rw [hexecute] at he ⊢
  obtain ⟨hlist, hprompted, hpended⟩ := (runs_runFirst hholds chunk ok).refused e he
  rw [hprompt] at hlist hprompted
  rw [hpending] at hpended
  exact ⟨hlist, hprompted, hpended⟩

lemma execute_chatRequest :
    (s.execute m f chunk ok).session.chatRequest = s.chatRequest := by
  rcases s.execute_cases m f chunk ok with ⟨e, -, hrefused⟩ | ⟨t, henter, hfixed⟩
  · rw [hrefused, throw_session]
  · exact congrArg (·.2.2.2.2.1) (hfixed.trans (enter_fixed henter).1)

end Session

/-- The draft session that has guessed from a position it has reached. -/
lemma Session.guess_history {s : Session H} {p : Nat} (hp : p ≤ s.history.length) (token : Token)
    (guesses : List Token) :
    (s.guess p token guesses).history = s.history.take p ++ token :: guesses.dropLast := by
  have hroom : p + (token :: guesses.dropLast).length - (s.history.take p ++ [token]).length =
      guesses.length - 1 := by
    rw [List.length_append, List.length_take_of_le hp, List.length_cons, List.length_dropLast,
      List.length_singleton]
    omega
  simp only [Session.guess, Nat.sub_eq_zero_of_le hp, List.replicate_zero, List.append_nil]
  rw [hroom, ← List.dropLast_eq_take, List.append_assoc]
  rfl

lemma Session.Plain.guess {s : Session H} (h : s.Plain) {p : Nat} (hp : p ≤ s.history.length)
    (token : Token) (guesses : List Token) : (s.guess p token guesses).Plain where
  holds := by
    refine ⟨rfl, ?_, ?_⟩
    · rw [guess_history hp, List.map_append, List.map_take, ← h.holds.kv]
      rfl
    · rw [guess_history hp, List.length_append, List.length_take_of_le hp]
      rfl
  greedy := h.greedy
  noChat := h.noChat
  idleClear := h.idleClear

/-! ### What the draft will have read -/

/-- The text the draft session, which has read `d`, will have read in this request once it has been
given what it lacks. -/
inductive Followed (request : Nat) (d : List Token) (state : DraftState) (g : Option Guesses) :
    List Token → Prop
  | even (hpending : state.pending = []) (hg : ∀ x ∈ g, x.tokens = []) :
      Followed request d state g d
  | deferred (hpending : state.pending ≠ []) (hrequest : state.request = request)
      (hstart : state.start ≤ d.length) (hg : ∀ x ∈ g, x.tokens = []) :
      Followed request d state g (d.take state.start ++ state.pending)
  | guessed {x : Guesses} {last : Token} (hpending : state.pending = []) (hg : g = some x)
      (hrequest : x.request = request) (hlast : x.tokens.getLast? = some last)
      (hlength : d.length = x.behindAt) : Followed request d state g (d ++ [last])

namespace Followed

variable {request : Nat} {d text : List Token} {state : DraftState} {g : Option Guesses}

/-- Without guesses and deferred tokens the draft has read the text. -/
lemma eq_of_settled (h : Followed request d state g text) (hpending : state.pending = [])
    (hg : g = none) : text = d := by
  cases h with
  | even => rfl
  | deferred hnone => exact absurd hpending hnone
  | guessed _ hsome =>
    rw [hg] at hsome
    cases hsome

/-- With nothing deferred, the draft has read the text or all but its last token. -/
lemma prefix_of_flushed (h : Followed request d state g text) (hpending : state.pending = []) :
    d <+: text := by
  cases h with
  | even => exact List.prefix_rfl
  | deferred hnone => exact absurd hpending hnone
  | guessed => exact List.prefix_append ..

/-- The last guesses may be forgotten where the text goes no further than what the draft has
read. -/
lemma forget (h : Followed request d state g text) {l : List Token} (hl : l <+: text)
    (hshort : ∀ x ∈ g, l.length ≠ x.behindAt + 1 ∨ x.tokens = []) :
    ∃ text', Followed request d state none text' ∧ l <+: text' ∧
      (state.pending ≠ [] → text' = text) := by
  cases h with
  | even hpending _ => exact ⟨d, .even hpending (by simp), hl, fun h => absurd hpending h⟩
  | deferred hpending hrequest hstart _ =>
    exact ⟨_, .deferred hpending hrequest hstart (by simp), hl, fun _ => rfl⟩
  | @guessed x last hpending hg hrequest hlast hlength =>
    refine ⟨d, .even hpending (by simp), ?_, fun h => absurd hpending h⟩
    have hle := hl.length_le
    rw [List.length_append, List.length_singleton] at hle
    have hne : l.length ≠ x.behindAt + 1 := by
      rcases hshort x (by rw [hg]; rfl) with hne | hnone
      · exact hne
      · rw [hnone] at hlast
        cases hlast
    refine List.prefix_of_prefix_length_le hl (List.prefix_append ..) ?_
    omega

/-- What the last guesses say: there are none, or the text goes on with the last of them. -/
lemma of_guesses {x : Guesses} (h : Followed request d state (some x) text) :
    x.tokens = [] ∨ state.pending = [] ∧ x.request = request ∧ d.length = x.behindAt ∧
      ∃ last, x.tokens.getLast? = some last ∧ text = d ++ [last] := by
  cases h with
  | even _ hg => exact .inl (hg x rfl)
  | deferred _ _ _ hg => exact .inl (hg x rfl)
  | guessed hpending hg hrequest hlast hlength =>
    cases hg
    exact .inr ⟨hpending, hrequest, hlength, _, hlast, rfl⟩

end Followed

/-- The draft follows the session `id` of the stage: it holds it as `d`, in a request, and will have
read `text`. -/
structure Following (md : StageModel H) (r : RingHead H) (id : Nat) (t d : Session H)
    (text : List Token) : Prop where
  nonzero : id ≠ 0
  draft : ∃ st, r.draft = some st ∧ st.model = md ∧ st.sessions.lookup id = some d
  stage : r.stage.sessions.lookup id = some t
  greedy : t.chatRequest = false
  plain : d.Plain
  active : d.activeRequest ≠ 0
  prompted : d.hasPrompt = true
  followed : Followed d.activeRequest d.history t.draft (r.guessed id) text

namespace Following

variable {md : StageModel H} {r : RingHead H} {f : Frame H} {t d : Session H} {text l : List Token}
  {c : Chance}

lemma canModelDraft (h : Following md r f.session t d text) : r.stage.canModelDraft f = true := by
  rw [Stage.canModelDraft, h.stage]
  simp only [h.greedy, Bool.not_false]

/-- Tokens that the draft accepts come after those before their position. -/
lemma feed {st : Stage H} (hfirst : st.model.first) (hd : st.sessions.lookup f.session = some d)
    (hplain : d.Plain) (hactive : d.activeRequest ≠ 0) (htype : f.type = .token)
    {tokens : List Token} (hpayload : f.payload = .tokens tokens) {ok : Nat → Bool} {out : Frame H}
    (hout : (st.handle f 0 ok).2.2 = .ok out) :
    ∃ d', (st.handle f 0 ok).1.sessions.lookup f.session = some d' ∧ d'.Plain ∧
      d'.hasPrompt = true ∧ d'.activeRequest = d.activeRequest ∧
      d'.history = d.history.take f.position ++ tokens := by
  obtain ⟨-, s, hs, hreply, hlookup⟩ := Stage.handle_run_ok (by rw [htype]; rfl) hout
  rw [hd] at hs
  cases hs
  obtain ⟨hplain', haccepted, hentered⟩ := hplain.execute_ok hfirst hreply
  refine ⟨_, hlookup, hplain', haccepted.prompted, ?_, ?_⟩
  · rcases hentered.before with hidle | hsame
    · exact absurd hidle hactive
    · exact hentered.active.trans hsame.symm
  · have hother : f.type ≠ .prompt := by
      rw [htype]
      decide
    rw [haccepted.holds.history, Session.brought, if_neg hother, hpayload]

/-- Catching up forgets the last guesses, and feeds the draft the last one if the position shows
that all were accepted. -/
lemma catchUpDraft_cases {st : Stage H} (hst : r.draft = some st) :
    (r.guessed f.session = none ∧ r.catchUpDraft f c = (r, none)) ∨
    (∃ last, r.guessed f.session = some last ∧
      (f.request ≠ last.request ∨ last.tokens = [] ∨ r.stage.canModelDraft f = false ∨
        f.position ≠ last.behindAt + 1) ∧
      r.catchUpDraft f c = (r.setGuessed f.session none, none)) ∨
    (∃ last guess, r.guessed f.session = some last ∧ last.tokens.getLast? = some guess ∧
      f.position = last.behindAt + 1 ∧
      r.catchUpDraft f c =
        ({ r.setGuessed f.session none with
            draft := some (st.handle (tokenFrame f last.behindAt [guess]) 0 c.okCatchUp).1 },
          thrown (st.handle (tokenFrame f last.behindAt [guess]) 0 c.okCatchUp).2.2)) := by
  cases hg : r.guessed f.session with
  | none =>
    refine .inl ⟨rfl, ?_⟩
    rw [RingHead.catchUpDraft, hg]
  | some last =>
    refine .inr ?_
    have hdraft : (r.setGuessed f.session none).draft = some st := hst
    simp only [RingHead.catchUpDraft, hg, hdraft]
    by_cases hrequest : f.request = last.request
    · rw [if_neg (not_not_intro hrequest)]
      cases hlast : last.tokens.getLast? with
      | none => exact .inl ⟨last, rfl, .inr (.inl (List.getLast?_eq_none_iff.mp hlast)), rfl⟩
      | some guess =>
        dsimp only
        split_ifs with hcan
        · exact .inr ⟨last, guess, rfl, hlast, hcan.2, rfl⟩
        · refine .inl ⟨last, rfl, ?_, rfl⟩
          rw [not_and_or, Bool.not_eq_true] at hcan
          exact .inr (.inr hcan)
    · exact .inl ⟨last, rfl, .inl hrequest, if_pos hrequest⟩

/-- Catching up keeps what is committed of the text. -/
lemma catchUp (h : Following md r f.session t d text) (hfirst : md.first)
    (hrequest : f.request = d.activeRequest) (hl : l <+: text) (hlength : l.length = f.position)
    (hdone : (r.catchUpDraft f c).2 = none) :
    (r.catchUpDraft f c).1.guessed f.session = none ∧ ∃ d' text',
      Following md (r.catchUpDraft f c).1 f.session t d' text' ∧
      d'.activeRequest = d.activeRequest ∧
        l <+: text' ∧ (t.draft.pending ≠ [] → text' = text) := by
  obtain ⟨st, hst, hmodel, hd⟩ := h.draft
  rcases catchUpDraft_cases (f := f) (c := c) hst with ⟨hg, heq⟩ | ⟨last, hg, hwhy, heq⟩ |
    ⟨last, guess, hg, hlast, hposition, heq⟩
  · rw [heq]
    exact ⟨hg, d, text, h, rfl, hl, fun _ => rfl⟩
  · -- the last guess is not needed
    have hshort : ∀ x ∈ r.guessed f.session, l.length ≠ x.behindAt + 1 ∨ x.tokens = [] := by
      intro x hx
      rw [hg] at hx
      cases hx
      rcases hwhy with hother | hnone | hcan | hposition
      · have hfollowed := h.followed
        rw [hg] at hfollowed
        rcases hfollowed.of_guesses with hnone | ⟨-, hsame, -⟩
        · exact .inr hnone
        · exact absurd (hrequest.trans hsame.symm) hother
      · exact .inr hnone
      · rw [h.canModelDraft] at hcan
        cases hcan
      · exact .inl (by rwa [hlength])
    obtain ⟨text', hfollowed, hl', hsame⟩ := h.followed.forget hl hshort
    rw [heq]
    have hnone : (r.setGuessed f.session none).guessed f.session = none := Function.update_self ..
    exact ⟨hnone, d, text', ⟨h.nonzero, h.draft, h.stage, h.greedy, h.plain, h.active, h.prompted,
      hnone.symm ▸ hfollowed⟩, rfl, hl', hsame⟩
  · -- the draft has read all but the last guess
    rw [heq] at hdone ⊢
    obtain ⟨out, hout⟩ := thrown_eq_none hdone
    obtain ⟨d', hd', hplain, hprompted, hactive, hhistory⟩ :=
      feed (f := tokenFrame f last.behindAt [guess]) (by rwa [hmodel]) hd h.plain h.active
        rfl rfl hout
    have hfollowed := h.followed
    rw [hg] at hfollowed
    rcases hfollowed.of_guesses with hno | ⟨hpending, -, hbehind, guess', hlast', htext⟩
    · rw [hno] at hlast
      cases hlast
    rw [hlast] at hlast'
    cases hlast'
    have htake : d.history.take last.behindAt = d.history := by rw [← hbehind, List.take_length]
    rw [show (tokenFrame f last.behindAt [guess]).position = last.behindAt from rfl, htake,
      ← htext] at hhistory
    have hnone : (r.setGuessed f.session none).guessed f.session = none := Function.update_self ..
    refine ⟨hnone, d', text, ⟨h.nonzero, ⟨_, rfl, ?_, hd'⟩, h.stage, h.greedy, hplain, ?_,
      hprompted, ?_⟩, hactive, hl, fun _ => rfl⟩
    · rw [Stage.handle_model, hmodel]
    · rw [hactive]
      exact h.active
    · rw [← hhistory]
      exact .even hpending (by rw [hnone]; simp)

/-- Flushing feeds the deferred tokens to the draft, if there are any. -/
lemma flushDraft_cases (hzero : f.session ≠ 0) {st : Stage H} (hst : r.draft = some st)
    (ht : r.stage.sessions.lookup f.session = some t) :
    (t.draft.pending = [] ∧ r.flushDraft f c = (r, none)) ∨
    (∃ e draft, r.flushDraft f c = ({ r with draft }, some e)) ∨
    (t.draft.pending ≠ [] ∧ ∃ out,
      (st.handle (replayFrame f t.draft) 0 c.okFlush).2.2 = .ok out ∧
      r.flushDraft f c =
        ({ r with
            draft := some (st.handle (replayFrame f t.draft) 0 c.okFlush).1
            stage := r.stage.change f.session
              fun s => { s with draft := { s.draft with pending := [] } } },
          none)) := by
  rw [RingHead.flushDraft, Stage.requireSession_of_lookup hzero ht]
  by_cases hpending : t.draft.pending = []
  · exact .inl ⟨hpending, if_pos hpending⟩
  · refine .inr ?_
    simp only [hpending, hst, if_false]
    split
    · rename_i draft _ e heq
      exact .inl ⟨e, some draft, rfl⟩
    · rename_i draft _ out heq
      refine .inr ⟨hpending, out, ?_, ?_⟩
      · rw [heq]
      · rw [heq]

/-- Flushing keeps the text and leaves nothing deferred. -/
lemma flush (h : Following md r f.session t d text) (hfirst : md.first)
    (hdone : (r.flushDraft f c).2 = none) :
    (r.flushDraft f c).1.guessed = r.guessed ∧ ∃ t' d',
      Following md (r.flushDraft f c).1 f.session t' d' text ∧ d'.activeRequest = d.activeRequest ∧
        t'.draft.pending = [] ∧ t' = { t with draft := t'.draft } := by
  obtain ⟨st, hst, hmodel, hd⟩ := h.draft
  rcases flushDraft_cases (c := c) h.nonzero hst h.stage with ⟨hpending, heq⟩ | ⟨e, draft, heq⟩ |
    ⟨hpending, out, hout, heq⟩
  · rw [heq]
    exact ⟨rfl, t, d, h, rfl, hpending, rfl⟩
  · rw [heq] at hdone
    cases hdone
  · obtain ⟨hg, htext⟩ : (∀ x ∈ r.guessed f.session, x.tokens = []) ∧
        text = d.history.take t.draft.start ++ t.draft.pending := by
      cases h.followed with
      | even hnone => exact absurd hnone hpending
      | deferred _ hrequest _ hg => exact ⟨hg, rfl⟩
      | guessed hnone => exact absurd hnone hpending
    obtain ⟨d', hd', hplain, hprompted, hactive, hhistory⟩ :=
      feed (f := replayFrame f t.draft) (by rwa [hmodel]) hd h.plain h.active rfl rfl hout
    rw [heq]
    refine ⟨rfl, _, d', ⟨h.nonzero, ⟨_, rfl, ?_, hd'⟩, Stage.lookup_change _ _ h.stage, h.greedy,
      hplain, ?_, hprompted, ?_⟩, hactive, rfl, rfl⟩
    · rw [Stage.handle_model, hmodel]
    · rw [hactive]
      exact h.active
    · have hread : text = d'.history := htext.trans hhistory.symm
      rw [hread]
      exact .even rfl hg

/-- What the draft has read after it has guessed: the committed text, then the token and the guesses
but the last. -/
lemma guess (h : Following md r f.session t d text) (hpending : t.draft.pending = [])
    (hg : r.guessed f.session = none) (hl : l <+: text) (hlength : l.length = f.position)
    {st : Stage H} (hst : r.draft = some st) {count : Nat} {guesses : List Token}
    (hok : (st.modelProposals f count c).2 = .ok guesses) :
    (st.modelProposals f count c).1.model = md ∧ ∃ d',
      (st.modelProposals f count c).1.sessions.lookup f.session = some d' ∧ d'.Plain ∧
        d'.hasPrompt = true ∧ d'.activeRequest = d.activeRequest ∧ l <+: d'.history ∧
        (guesses ≠ [] → d'.history = l ++ frameToken f :: guesses.dropLast) := by
  obtain ⟨st', hst', hmodel, hd⟩ := h.draft
  rw [hst] at hst'
  cases hst'
  rw [h.followed.eq_of_settled hpending hg] at hl
  have hp : f.position ≤ d.history.length := hlength ▸ hl.length_le
  have htake : d.history.take f.position = l := by
    rw [← hlength]
    exact (List.prefix_iff_eq_take.mp hl).symm
  rw [Stage.modelProposals, Stage.requireSession_of_lookup h.nonzero hd] at hok ⊢
  dsimp only at hok ⊢
  split_ifs at hok ⊢
  · cases hok
    exact ⟨hmodel, d, hd, h.plain, h.prompted, rfl, hl, fun hne => absurd rfl hne⟩
  · cases hok
    refine ⟨by rw [Stage.change_model, hmodel], _, Stage.lookup_change _ _ hd, ?_, h.prompted, rfl,
      ?_, ?_⟩
    · exact h.plain.guess hp _ _
    · rw [Session.guess_history hp, htake]
      exact List.prefix_append ..
    · intro _
      rw [Session.guess_history hp, htake]

end Following

end ProviderOwned
