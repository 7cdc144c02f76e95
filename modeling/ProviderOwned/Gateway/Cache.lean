import ProviderOwned.Gateway.Chat

/-!
# The gateway's session cache

`config.sessions`: the sessions that wait for the next turn of their conversation, by
`conversationKey`. A Go map has one entry for a key, which is a field of the structure.
-/

namespace ProviderOwned.Gateway

/-- `sessions map[string]*sessionRecord`. -/
structure Cache where
  entries : List (Text × SessionRecord) := []
  nodup : (entries.map Prod.fst).Nodup := by decide

namespace Cache

/-- `delete(c.sessions, key)`. -/
def erase (c : Cache) (key : Text) : Cache where
  entries := c.entries.filter (·.1 ≠ key)
  nodup := c.nodup.sublist (List.filter_sublist.map _)

/-- `c.sessions[key] = rec`. -/
def insert (c : Cache) (key : Text) (rec : SessionRecord) : Cache where
  entries := (key, rec) :: (c.erase key).entries
  nodup := List.nodup_cons.mpr ⟨by simp [erase], (c.erase key).nodup⟩

/-- `c.sessions[key]`. -/
def find (c : Cache) (key : Text) : Option SessionRecord := c.entries.lookup key

/-- The records that `sweepSessions` removes at time `now`. -/
def expired (c : Cache) (now : Nat) : List SessionRecord :=
  (c.entries.filter (·.2.expires < now)).map Prod.snd

/-- The cache after `sweepSessions` removed them. -/
def sweep (c : Cache) (now : Nat) : Cache where
  entries := c.entries.filter fun e => ¬ e.2.expires < now
  nodup := c.nodup.sublist (List.filter_sublist.map _)

variable {c : Cache} {key other : Text} {rec found : SessionRecord} {now : Nat}

/-- The record `rec` is cached under `key`. -/
def Has (c : Cache) (key : Text) (rec : SessionRecord) : Prop := (key, rec) ∈ c.entries

lemma lookup_eq_some_iff {entries : List (Text × SessionRecord)}
    (hnodup : (entries.map Prod.fst).Nodup) : entries.lookup key = some rec ↔
      (key, rec) ∈ entries := by
  induction entries with
  | nil => simp
  | cons e entries ih =>
    rw [List.map_cons, List.nodup_cons] at hnodup
    obtain ⟨hfresh, hrest⟩ := hnodup
    obtain ⟨k, r⟩ := e
    by_cases hk : key = k
    · subst hk
      have hnot : (key, rec) ∉ entries := fun h => hfresh (List.mem_map.mpr ⟨_, h, rfl⟩)
      simp [hnot, eq_comm]
    · have hbeq : (key == k) = false := beq_eq_false_iff_ne.mpr hk
      simp [List.lookup_cons, hbeq, hk, ih hrest]

lemma find_eq_some_iff : c.find key = some rec ↔ c.Has key rec := lookup_eq_some_iff c.nodup

lemma Has.unique (h : c.Has key rec) (h' : c.Has key found) : rec = found := by
  rw [← find_eq_some_iff] at h h'
  exact Option.some.inj (h.symm.trans h')

@[simp] lemma has_erase : (c.erase key).Has other rec ↔ other ≠ key ∧ c.Has other rec := by
  simp [Has, erase, and_comm]

@[simp] lemma has_insert :
    (c.insert key rec).Has other found ↔
      (other = key ∧ found = rec) ∨ (other ≠ key ∧ c.Has other found) := by
  simp [Has, insert, erase, and_comm]

@[simp] lemma has_sweep : (c.sweep now).Has key rec ↔ ¬ rec.expires < now ∧ c.Has key rec := by
  simp [Has, sweep, and_comm]

lemma mem_expired_iff : rec ∈ c.expired now ↔ rec.expires < now ∧ ∃ key, c.Has key rec := by
  simp [expired, Has, and_comm]

end Cache

end ProviderOwned.Gateway
