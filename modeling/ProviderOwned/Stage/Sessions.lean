import ProviderOwned.Stage.CatchUp
import ProviderOwned.Stage.Continuous

/-!
# The sessions that are open

A stage is loaded for a number of sessions. Whatever frames and batches it is given, it has no more
of them open.
-/

namespace ProviderOwned

namespace Stage

variable {H : Type*} {st st' : Stage H}

inductive Step : Stage H → Stage H → Prop
  | handle (st : Stage H) (input : Frame H) (chunk : Nat) (ok : Nat → Bool) :
      Step st (st.handle input chunk ok).1
  | decodeBatch (st : Stage H) (vocabulary : Nat) (decodes : Frame H → Bool)
      (inputs : List (Frame H)) :
      Step st (st.decodeBatch vocabulary decodes inputs).1
  | disconnected (st : Stage H) : Step st st.coordinatorDisconnected
  | draft (st : Stage H) {id : Nat} {s : Session H} (d : DraftState) : st.sessions.lookup id =
      some s →
      Step st { st with sessions := st.sessions.insert id { s with draft := d } }
  | wire (st : Stage H) (dtype : DType) :
      Step st { st with model := { st.model with wire := dtype } }

def openSessions (st : Stage H) : Nat := st.sessions.keys.length

/-- A stage of so many sessions has no more of them open. -/
structure Limited (limit : Nat) (st : Stage H) : Prop where
  maxSessions : st.model.maxSessions = limit
  openSessions : st.openSessions ≤ limit

variable {limit : Nat}

lemma limited_load (m : StageModel H) : Limited m.maxSessions (load m) := ⟨rfl, Nat.zero_le _⟩

lemma openSessions_insert {id : Nat} {s : Session H} (hs : st.sessions.lookup id = some s)
    (t : Session H) :
    (st.sessions.insert id t).keys.length = st.openSessions := by
  have hmem : id ∈ st.sessions.keys := AList.lookup_isSome.mp (by rw [hs]; rfl)
  rw [AList.keys_insert, List.length_cons, List.length_erase_of_mem hmem, openSessions]
  have := List.length_pos_of_mem hmem
  omega

lemma Limited.insert (h : st.Limited limit) {id : Nat} {s : Session H}
    (hs : st.sessions.lookup id = some s)
    (t : Session H) : Limited limit { st with sessions := st.sessions.insert id t } :=
  ⟨h.maxSessions, (openSessions_insert hs t).trans_le h.openSessions⟩

lemma Limited.onSession (h : st.Limited limit) (f : Frame H) (op : Session H → Handled H) :
    (st.onSession f op).1.Limited limit := by
  rcases st.onSession_cases f op with ⟨e, heq⟩ | ⟨s, -, hs, heq⟩
  · rw [heq]
    exact h
  · rw [heq]
    exact h.insert hs _

lemma Limited.create (h : st.Limited limit) (f : Frame H) : (st.create f).1.Limited limit := by
  rw [Stage.create]
  split_ifs with hcontrol hold hfull hused
  · exact h
  · exact h
  · exact h
  · refine ⟨h.maxSessions, ?_⟩
    have hlength :
        (st.sessions.insert f.session { sequence := st.sequenceUsed.idxOf false }).keys.length =
        st.sessions.keys.length + 1 := by
      rw [AList.keys_insert, List.length_cons, List.erase_of_not_mem hold]
    rw [h.maxSessions] at hfull
    rw [Stage.openSessions, hlength]
    omega
  · exact h

lemma Limited.destroy (h : st.Limited limit) (f : Frame H) : (st.destroy f).1.Limited limit := by
  rw [Stage.destroy]
  cases st.requireSession f with
  | error e => exact h
  | ok s =>
    cases hreply : (s.destroy f).reply with
    | error e =>
      simp only [hreply]
      exact h
    | ok reply =>
      simp only [hreply]
      refine ⟨h.maxSessions, le_trans ?_ h.openSessions⟩
      rw [Stage.openSessions, AList.keys_erase]
      exact List.length_erase_le

lemma Limited.handle (h : st.Limited limit) (f : Frame H) (chunk : Nat) (ok : Nat → Bool) :
    (st.handle f chunk ok).1.Limited limit := by
  have hmetrics : (st.metrics f).1.Limited limit := by
    rw [metrics]
    split_ifs
    · exact h
    · exact h
  have hshutdown : (st.shutdown f).1.Limited limit := by
    rw [shutdown]
    split_ifs
    · exact h
    · exact h
    · exact ⟨h.maxSessions, h.openSessions⟩
  rw [Stage.handle]
  cases f.type
  case createSession => exact h.create f
  case destroySession =>
    dsimp only
    split_ifs
    · exact h
    · exact h.destroy f
  case metrics => exact hmetrics
  case shutdown => exact hshutdown
  all_goals
    dsimp only
    first
      | exact h
      | exact h.onSession f _
      | split_ifs
        · exact h
        · exact h.onSession f _

lemma Limited.finishBatch (h : st.Limited limit) (rows : List (Frame H × Cell H)) :
    (st.finishBatch rows).1.Limited limit := by
  induction rows generalizing st with
  | nil => exact h
  | cons row rows ih =>
    rw [Stage.finishBatch]
    cases hrequire : st.requireSession row.1 with
    | error e => exact h
    | ok s => exact ih (h.insert (requireSession_ok hrequire).2 _)

/-- A step opens a session only where there is room for it. -/
lemma Limited.step (h : st.Limited limit) (hstep : Step st st') : st'.Limited limit := by
  cases hstep with
  | handle input chunk ok => exact h.handle input chunk ok
  | decodeBatch vocabulary decodes inputs =>
    rw [Stage.decodeBatch]
    cases inputs.mapM (st.batchRow vocabulary) with
    | error e => exact h
    | ok cells =>
      dsimp only
      split_ifs
      · exact h.finishBatch _
      · exact h
  | disconnected => exact ⟨h.maxSessions, Nat.zero_le _⟩
  | draft d hs => exact h.insert hs _
  | wire dtype => exact ⟨h.maxSessions, h.openSessions⟩

end Stage

end ProviderOwned
