import Mathlib.Order.Bounds.Defs
import ProviderOwned.Lib.Slots
import ProviderOwned.Stage.Answered
import ProviderOwned.Stage.Continuous

/-!
# The session table of a first stage

What holds of the sessions of a first stage as long as what it is asked for succeeds (`Served`):
each holds its history, no more and no less, and the KV sequences in use are those of the sessions
(`Table`). A chat is prepared on top of the longest prefix it shares with the session's history.
-/

namespace ProviderOwned

variable {H : Type*}

/-! ### The shared prefix -/

namespace Session

lemma take_commonPrefix (as bs : List Token) :
    as.take (commonPrefix as bs) = bs.take (commonPrefix as bs) := by
  induction as generalizing bs with
  | nil => rfl
  | cons a as ih =>
    cases bs with
    | nil => rfl
    | cons b bs =>
      rw [commonPrefix]
      split_ifs with hab
      · rw [List.take_succ_cons, List.take_succ_cons, hab, ih]
      · rfl

lemma le_commonPrefix {as bs : List Token} {k : Nat} (ha : k ≤ as.length) (hb : k ≤ bs.length)
    (h : as.take k = bs.take k) : k ≤ commonPrefix as bs := by
  induction as generalizing bs k with
  | nil => exact ha.trans (Nat.zero_le _)
  | cons a as ih =>
    cases k with
    | zero => exact Nat.zero_le _
    | succ k =>
      cases bs with
      | nil => cases hb
      | cons b bs =>
        rw [List.take_succ_cons, List.take_succ_cons, List.cons.injEq] at h
        rw [commonPrefix, if_pos h.1]
        exact Nat.succ_le_succ (ih (Nat.le_of_succ_le_succ ha) (Nat.le_of_succ_le_succ hb) h.2)

/-- The lengths of the prefixes of a new prompt that a history starts with. The last token of a
prompt has to be decoded for its answer, so the whole prompt is not one of them. -/
def Shared (history tokens : List Token) : Set Nat :=
  {k | k < tokens.length ∧ history.take k = tokens.take k}

lemma shared_cachedPrefix {m : StageModel H} (hfirst : m.first) (s : Session H) (f : Frame H)
    {tokens : List Token}
    (htokens : tokens ≠ []) : IsGreatest (Shared s.history tokens) (s.cachedPrefix m f tokens) := by
  have hlength := List.length_pos_iff.mpr htokens
  rw [cachedPrefix, if_pos hfirst]
  constructor
  · refine ⟨by omega, ?_⟩
    have hprefix := congrArg (List.take (tokens.length - 1)) (take_commonPrefix s.history tokens)
    rwa [List.take_take, List.take_take, Nat.min_comm] at hprefix
  · rintro k ⟨hk, htake⟩
    have hlen := congrArg List.length htake
    rw [List.length_take, List.length_take] at hlen
    exact Nat.le_min.mpr ⟨le_commonPrefix (by omega) hk.le htake, by omega⟩

end Session

/-! ### One session -/

namespace Session

variable {m : StageModel H} {s : Session H} {f : Frame H} {l : List Token} {out : Frame H}

/-- An operation that succeeds leaves a session that holds its history, in the KV sequence it
had. -/
def Keeps (s : Session H) (h : Handled H) : Prop :=
  ∀ out, h.reply = .ok out → h.session.Holds h.session.history ∧ h.session.sequence = s.sequence

lemma reset_keeps (s : Session H) (f : Frame H) : s.Keeps (s.reset f) := by
  intro out h
  rw [(reset_ok h).2]
  exact ⟨⟨rfl, rfl, rfl⟩, rfl⟩

lemma endRequest_keeps (h : s.Holds s.history) (f : Frame H) : s.Keeps (s.endRequest f) := by
  intro out hout
  rw [(endRequest_ok hout).2.2]
  exact ⟨⟨rfl, h.kv, h.position⟩, rfl⟩

lemma rollback_keeps (hfirst : m.first) (h : s.Holds s.history) (f : Frame H) :
    s.Keeps (s.rollback m f) := by
  intro out hout
  obtain ⟨-, -, hposition, hsession⟩ := rollback_ok hout
  rw [hsession]
  exact ⟨(h.truncate hfirst (hposition.trans h.position.le)).self, rfl⟩

lemma execute_keeps (hfirst : m.first) (h : s.Holds s.history) (f : Frame H) (chunk : Nat)
    (ok : Nat → Bool) :
    s.Keeps (s.execute m f chunk ok) := by
  intro out hout
  obtain ⟨haccepted, hfixed, -, -⟩ := execute_accepted h hfirst hout
  exact ⟨haccepted.holds.self, congrArg (·.1) hfixed⟩

lemma Holds.withChat (h : s.Holds s.history) (hfirst : m.first) (sampling : Sampling)
    (tokens : List Token) {reuse : Nat} (hreuse : reuse ≤ s.position) :
    (s.withChat m sampling tokens reuse).Holds (s.history.take reuse) := by
  have htruncate := h.truncate (m := m) hfirst (hreuse.trans h.position.le)
  exact ⟨htruncate.history, htruncate.kv, htruncate.position⟩

lemma prepareChat_keeps (hfirst : m.first) (h : s.Holds s.history) (f : Frame H) :
    s.Keeps (s.prepareChat m f) := by
  intro out hout
  obtain ⟨-, prompt, sampling, -, -, hreuse, -, hsession, -⟩ := prepareChat_prepared hout
  rw [hsession]
  exact ⟨(h.withChat hfirst sampling _ hreuse).self, rfl⟩

/-- A token that was decoded in a batch. -/
lemma afterBatch_keeps (h : s.Holds s.history) (f : Frame H) (id : Token) :
    (s.afterBatch m f (.token id)).1.Holds (s.afterBatch m f (.token id)).1.history ∧
      (s.afterBatch m f (.token id)).1.sequence = s.sequence := by
  have happend : (s.appendTokens [id]).Holds (s.history ++ [id]) := h.appendTokens [id]
  have hfixed := (s.appendTokens [id]).sample_fixed m
  by_cases hlast : m.last
  · have hafter : (s.afterBatch m f (.token id)).1 = ((s.appendTokens [id]).sample m).2 := by
      rw [afterBatch, if_pos hlast]
      rfl
    rw [hafter]
    exact ⟨happend.sample.self, congrArg (·.1) hfixed⟩
  · have hafter : (s.afterBatch m f (.token id)).1 = s.appendTokens [id] := by
      rw [afterBatch, if_neg hlast]
      rfl
    rw [hafter]
    exact ⟨happend.self, rfl⟩

end Session

/-! ### The table -/

namespace Stage

variable {st : Stage H} {f : Frame H} {chunk : Nat} {ok : Nat → Bool} {out : Frame H}

def slot (st : Stage H) (id : Nat) : Option Nat := (st.sessions.lookup id).map (·.sequence)

/-- Every session's history is what its KV sequence holds, up to its position, and the sequences in
use are the sessions'. -/
structure Table (st : Stage H) : Prop where
  holds : ∀ id s, st.sessions.lookup id = some s → s.Holds s.history
  slots : Slots.Owned st.sequenceUsed st.slot

lemma slot_of_lookup {id : Nat} {s : Session H} (hs : st.sessions.lookup id = some s) :
    st.slot id = some s.sequence := by
  rw [slot, hs]
  rfl

lemma slot_insert (st : Stage H) (id : Nat) (t : Session H) (used : List Bool) :
    slot { st with sessions := st.sessions.insert id t, sequenceUsed := used } =
      Function.update st.slot id (some t.sequence) := by
  funext other
  by_cases hid : other = id
  · subst hid
    rw [Function.update_self, slot, AList.lookup_insert]
    rfl
  · rw [Function.update_of_ne hid, slot, AList.lookup_insert_ne hid]
    rfl

lemma slot_erase (st : Stage H) (id : Nat) (used : List Bool) :
    slot { st with sessions := st.sessions.erase id, sequenceUsed := used } =
      Function.update st.slot id none := by
  funext other
  by_cases hid : other = id
  · subst hid
    rw [Function.update_self, slot, AList.lookup_erase]
    rfl
  · rw [Function.update_of_ne hid, slot, AList.lookup_erase_ne hid]
    rfl

lemma Table.load (m : StageModel H) : (load m).Table where
  holds id s hs := by cases hs
  slots := Slots.owned_replicate m.maxSessions

/-- A session is replaced by one that holds its history in the same sequence. -/
lemma Table.insert (h : st.Table) {id : Nat} {s t : Session H} (hs : st.sessions.lookup id = some s)
    (ht : t.Holds t.history) (hsequence : t.sequence = s.sequence) :
    Table { st with sessions := st.sessions.insert id t } where
  holds other u hu := by
    by_cases hid : other = id
    · subst hid
      rw [AList.lookup_insert] at hu
      cases hu
      exact ht
    · rw [AList.lookup_insert_ne hid] at hu
      exact h.holds other u hu
  slots := by
    have hslot := slot_insert st id t st.sequenceUsed
    rw [hsequence, ← slot_of_lookup hs, Function.update_eq_self] at hslot
    rw [hslot]
    exact h.slots

lemma Table.onSession (h : st.Table) {op : Session H → Handled H}
    (hop : ∀ s : Session H, s.Holds s.history → s.Keeps (op s))
    (hout : (st.onSession f op).2.2 = .ok out) :
    (st.onSession f op).1.Table := by
  rcases st.onSession_cases f op with ⟨e, heq⟩ | ⟨s, -, hs, heq⟩
  · rw [heq]
    exact h
  · rw [heq] at hout ⊢
    obtain ⟨hholds, hsequence⟩ := hop s (h.holds _ s hs) out hout
    exact h.insert hs hholds hsequence

lemma Table.create (h : st.Table) (f : Frame H) : (st.create f).1.Table := by
  rw [Stage.create]
  split_ifs with hcontrol hold hfull hused
  · exact h
  · exact h
  · exact h
  · have hfree := List.getElem?_idxOf hused
    have hnone : st.slot f.session = none := by
      rw [slot, AList.lookup_eq_none.mpr hold]
      rfl
    constructor
    · intro id s hs
      by_cases hid : id = f.session
      · subst hid
        rw [AList.lookup_insert] at hs
        cases hs
        exact ⟨rfl, rfl, rfl⟩
      · rw [AList.lookup_insert_ne hid] at hs
        exact h.holds id s hs
    · rw [slot_insert]
      exact h.slots.take hnone hfree
  · exact h

lemma Table.destroy (h : st.Table) (f : Frame H) : (st.destroy f).1.Table := by
  rw [Stage.destroy]
  cases hrequire : st.requireSession f with
  | error e => exact h
  | ok s =>
    cases hreply : (s.destroy f).reply with
    | error e =>
      simp only [hreply]
      exact h
    | ok reply =>
      simp only [hreply]
      constructor
      · intro id t ht
        by_cases hid : id = f.session
        · subst hid
          rw [AList.lookup_erase] at ht
          cases ht
        · rw [AList.lookup_erase_ne hid] at ht
          exact h.holds id t ht
      · rw [slot_erase]
        exact h.slots.give (slot_of_lookup (requireSession_ok hrequire).2)

lemma Table.metrics (h : st.Table) (f : Frame H) : (st.metrics f).1.Table := by
  rw [Stage.metrics]
  split_ifs
  · exact h
  · exact h

lemma Table.shutdown (h : st.Table) (f : Frame H) : (st.shutdown f).1.Table := by
  rw [Stage.shutdown]
  split_ifs
  · exact h
  · exact h
  · exact ⟨h.holds, h.slots⟩

/-- A frame that a first stage answers. -/
lemma Table.handle (h : st.Table) (hfirst : st.model.first)
    (hout : (st.handle f chunk ok).2.2 = .ok out) :
    (st.handle f chunk ok).1.Table := by
  rw [Stage.handle] at hout ⊢
  cases htype : f.type <;> simp only [htype] at hout ⊢
  case createSession => exact h.create f
  case prepareChat => exact h.onSession (fun s hs => Session.prepareChat_keeps hfirst hs f) hout
  case resetSession =>
    split_ifs at hout ⊢
    exact h.onSession (fun s _ => Session.reset_keeps s f) hout
  case destroySession =>
    split_ifs at hout ⊢
    exact h.destroy f
  case endRequest =>
    split_ifs at hout ⊢
    exact h.onSession (fun s hs => Session.endRequest_keeps hs f) hout
  case rollback => exact h.onSession (fun s hs => Session.rollback_keeps hfirst hs f) hout
  case metrics => exact h.metrics f
  case shutdown => exact h.shutdown f
  all_goals
    first
      | cases hout
      | split_ifs at hout ⊢
        exact h.onSession (fun s hs => Session.execute_keeps hfirst hs f chunk ok) hout

/-! ### A decoded batch -/

/-- What a batch of a first stage decodes are tokens. -/
lemma batchRow_token (hfirst : st.model.first) {vocabulary : Nat} {cell : Cell H}
    (h : st.batchRow vocabulary f = .ok cell) : ∃ id, cell = .token id := by
  rw [batchRow] at h
  split_ifs at h
  cases hrequire : st.requireSession f with
  | error e =>
    rw [hrequire] at h
    cases h
  | ok s =>
    cases hcell : Session.batchCell st.model f with
    | none =>
      rw [hrequire, hcell] at h
      cases h
    | some found =>
      have hfound := hcell
      rw [Session.batchCell, if_pos hfirst, Option.map_eq_some_iff] at hfound
      obtain ⟨id, -, rfl⟩ := hfound
      rw [hrequire, hcell] at h
      dsimp only at h
      split_ifs at h
      exact ⟨id, (Except.ok.inj h).symm⟩

lemma mapM_batchRow_token (hfirst : st.model.first) {vocabulary : Nat} {inputs : List (Frame H)}
    {cells : List (Cell H)} (h : inputs.mapM (st.batchRow vocabulary) = .ok cells) :
    ∀ cell ∈ cells, ∃ id, cell = .token id := by
  induction inputs generalizing cells with
  | nil =>
    cases h
    intro cell hcell
    cases hcell
  | cons f inputs ih =>
    rw [List.mapM_cons] at h
    cases hrow : st.batchRow vocabulary f with
    | error e =>
      rw [hrow] at h
      cases h
    | ok found =>
      cases hrest : inputs.mapM (st.batchRow vocabulary) with
      | error e =>
        rw [hrow, hrest] at h
        cases h
      | ok rest =>
        rw [hrow, hrest] at h
        cases h
        intro cell hcell
        rcases List.mem_cons.mp hcell with rfl | hcell
        · exact batchRow_token hfirst hrow
        · exact ih hrest cell hcell

lemma Table.finishBatch (h : st.Table) {rows : List (Frame H × Cell H)}
    (hrows : ∀ row ∈ rows, ∃ id, row.2 = .token id) :
    (st.finishBatch rows).1.Table ∧ (st.finishBatch rows).1.model = st.model := by
  induction rows generalizing st with
  | nil =>
    rw [Stage.finishBatch]
    exact ⟨h, rfl⟩
  | cons row rows ih =>
    obtain ⟨f, cell⟩ := row
    obtain ⟨id, hcell⟩ := hrows _ List.mem_cons_self
    dsimp only at hcell
    subst hcell
    rw [Stage.finishBatch]
    cases hrequire : st.requireSession f with
    | error e => exact ⟨h, rfl⟩
    | ok s =>
      have hs := (requireSession_ok hrequire).2
      obtain ⟨hholds, hsequence⟩ := Session.afterBatch_keeps (m := st.model) (h.holds _ s hs) f id
      exact ih (h.insert hs hholds hsequence)
        fun row hrow => hrows row (List.mem_cons_of_mem _ hrow)

lemma Table.decodeBatch (h : st.Table) (hfirst : st.model.first) (vocabulary : Nat)
    (decodes : Frame H → Bool) (inputs : List (Frame H)) :
    (st.decodeBatch vocabulary decodes inputs).1.Table ∧
      (st.decodeBatch vocabulary decodes inputs).1.model = st.model := by
  rw [Stage.decodeBatch]
  cases hcells : inputs.mapM (st.batchRow vocabulary) with
  | error e => exact ⟨h, rfl⟩
  | ok cells =>
    dsimp only
    split_ifs
    · refine h.finishBatch fun row hrow => ?_
      exact mapM_batchRow_token hfirst hcells row.2 (List.of_mem_zip hrow).2
    · exact ⟨h, rfl⟩

/-! ### Every run -/

/-- What becomes of a stage as long as it succeeds: frames it answers, batches of different sessions
it decodes, coordinators that leave, and the draft bookkeeping the ring keeps in its sessions. -/
inductive Served (m : StageModel H) : Stage H → Prop
  | load : Served m (load m)
  | handle {st : Stage H} {f : Frame H} {chunk : Nat} {ok : Nat → Bool} {out : Frame H} :
      Served m st → (st.handle f chunk ok).2.2 = .ok out → Served m (st.handle f chunk ok).1
  | decodeBatch {st : Stage H} {vocabulary : Nat} {decodes : Frame H → Bool}
      {inputs outputs : List (Frame H)} :
      Served m st → (inputs.map (·.session)).Nodup →
        (st.decodeBatch vocabulary decodes inputs).2 = .ok outputs →
          Served m (st.decodeBatch vocabulary decodes inputs).1
  | disconnected {st : Stage H} : Served m st → Served m st.coordinatorDisconnected
  | draft {st : Stage H} {id : Nat} {s : Session H} (d : DraftState) :
      Served m st → st.sessions.lookup id = some s →
        Served m { st with sessions := st.sessions.insert id { s with draft := d } }

lemma Served.table {m : StageModel H} (hfirst : m.first) (h : Served m st) :
    st.Table ∧ st.model = m := by
  induction h with
  | load => exact ⟨Table.load m, rfl⟩
  | handle _ hout ih =>
    obtain ⟨htable, hmodel⟩ := ih
    refine ⟨htable.handle ?_ hout, ?_⟩
    · rw [hmodel]
      exact hfirst
    · rw [handle_model, hmodel]
  | decodeBatch _ _ _ ih =>
    obtain ⟨htable, hmodel⟩ := ih
    obtain ⟨htable, hsame⟩ := htable.decodeBatch (hmodel ▸ hfirst) _ _ _
    exact ⟨htable, hsame.trans hmodel⟩
  | disconnected _ ih =>
    refine ⟨⟨fun id s hs => ?_, Slots.owned_replicate _⟩, ih.2⟩
    cases hs
  | draft d _ hs ih =>
    have hholds := ih.1.holds _ _ hs
    exact ⟨ih.1.insert hs ⟨rfl, hholds.kv, hholds.position⟩ rfl, ih.2⟩

/-- Over every run of a first stage whose operations succeed, each session's history is exactly what
its KV sequence holds, as long as its position; no two sessions share a sequence, and those in use
are the sessions'; and a chat that is prepared then keeps the longest prefix of its prompt, short of
all of it, that the history starts with. -/
theorem served_table {m : StageModel H} (hfirst : m.first) (h : Served m st) :
    (∀ id s, st.sessions.lookup id = some s →
      s.history.length = s.position ∧ s.kv.length = s.position ∧ s.kv = s.history.map .token) ∧
    (∀ id id' s s', st.sessions.lookup id = some s → st.sessions.lookup id' = some s' →
      s.sequence = s'.sequence → id = id') ∧
    (∀ i, st.sequenceUsed[i]? = some true ↔ ∃ id s, st.sessions.lookup id = some s ∧
      s.sequence = i) ∧
    ∀ f chunk ok out, f.type = .prepareChat → (st.handle f chunk ok).2.2 = .ok out →
      ∃ s t prompt sampling, st.sessions.lookup f.session = some s ∧
        (st.handle f chunk ok).1.sessions.lookup f.session = some t ∧
        m.template f.payload.message = some (prompt, sampling) ∧
        IsGreatest (Session.Shared s.history (m.tokenize prompt)) t.position ∧
        t.history = s.history.take t.position ∧ t.kv = s.kv.take t.position ∧
        t.chatTokens = (m.tokenize prompt).drop t.position ∧ out.position = t.position := by
  obtain ⟨htable, hmodel⟩ := h.table hfirst
  refine ⟨fun id s hs => ?_, fun id id' s s' hs hs' hsame => ?_, fun i => ?_,
    fun f chunk ok out htype hout => ?_⟩
  · have hholds := htable.holds id s hs
    refine ⟨hholds.position.symm, ?_, hholds.kv⟩
    rw [hholds.kv, List.length_map]
    exact hholds.position.symm
  · have hslot := slot_of_lookup hs
    rw [hsame] at hslot
    exact htable.slots.apart id id' _ hslot (slot_of_lookup hs')
  · rw [htable.slots.marked i]
    constructor
    · rintro ⟨id, hid⟩
      obtain ⟨s, hs, hsequence⟩ := Option.map_eq_some_iff.mp hid
      exact ⟨id, s, hs, hsequence⟩
    · rintro ⟨id, s, hs, hsequence⟩
      exact ⟨id, hsequence ▸ slot_of_lookup hs⟩
  · rw [Stage.handle, htype] at hout ⊢
    obtain ⟨-, s, hs, hreply, hlookup⟩ := onSession_answered hout
    obtain ⟨-, prompt, sampling, htemplate, hempty, -, -, hsession, hreplied⟩ :=
      Session.prepareChat_prepared hreply
    rw [hmodel] at htemplate hempty hsession hreplied
    refine ⟨s, _, prompt, sampling, hs, hlookup, htemplate, ?_⟩
    rw [hmodel, hsession, hreplied]
    refine ⟨Session.shared_cachedPrefix hfirst s f hempty, if_pos hfirst, rfl, if_pos hfirst, rfl⟩

/-- A model whose chats share their first three tokens. -/
def chatTokens : StageModel Unit :=
  { tenTokens with
    tokenize := fun text => if text = "first" then [1, 2, 3, 4] else [1, 2, 3, 9]
    template := fun text => some (text, {}) }

/-- Two sessions run a prompt; the first then has a batch verified of which one row is rolled back,
and its request ends. -/
def servedStage : Stage Unit :=
  let answered (st : Stage Unit) (f : Frame Unit) := (st.handle f 0 fun _ => true).1
  [{ type := .createSession, session := 1 }, { type := .createSession, session := 2 },
    { type := .prompt, session := 1, request := 1, payload := .text "first" },
    { type := .prompt, session := 2, request := 2, payload := .text "second" },
    { type := .token, session := 1, request := 1, position := 4, rows := 2,
      payload := .tokens [5, 6] },
    { type := .rollback, session := 1, request := 1, position := 5 },
    { type := .endRequest, session := 1, request := 1 }].foldl answered (load chatTokens)

def nextChat : Frame Unit := { type := .prepareChat, session := 1, payload := .text "second" }

lemma servedStage_served : Served chatTokens servedStage :=
  .handle (.handle (.handle (.handle (.handle (.handle (.handle .load rfl) rfl) rfl) rfl) rfl) rfl)
    rfl

theorem served_table_chats :
    (∃ s s', servedStage.sessions.lookup 1 = some s ∧ servedStage.sessions.lookup 2 = some s' ∧
      s.history = [1, 2, 3, 4, 5] ∧ s.kv = s.history.map .token ∧ s'.kv = s'.history.map .token) ∧
    ∃ t, (servedStage.handle nextChat 0 fun _ => true).1.sessions.lookup 1 = some t ∧
      t.position = 3 ∧
      IsGreatest (Session.Shared [1, 2, 3, 4, 5] [1, 2, 3, 9]) t.position := by
  obtain ⟨hholds, -, -, hchat⟩ := served_table rfl servedStage_served
  obtain ⟨s, t, prompt, sampling, hs, ht, htemplate, hgreatest, -⟩ :=
    hchat nextChat 0 (fun _ => true) _ rfl rfl
  have hhistory : s.history = [1, 2, 3, 4, 5] := by
    obtain rfl := Option.some.inj hs
    rfl
  have hposition : t.position = 3 := by
    obtain rfl := Option.some.inj ht
    rfl
  have hprompt : chatTokens.tokenize prompt = [1, 2, 3, 9] := by
    cases htemplate
    rfl
  refine ⟨⟨s, _, hs, rfl, hhistory, (hholds 1 s hs).2.2, (hholds 2 _ rfl).2.2⟩, t, ht, hposition,
    ?_⟩
  rwa [hhistory, hprompt] at hgreatest

end Stage

end ProviderOwned
