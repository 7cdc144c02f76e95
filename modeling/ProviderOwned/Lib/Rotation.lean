import Mathlib.Data.List.Nodup
import Mathlib.Tactic.Common
import Mathlib.Tactic.TypeStar

/-!
# Rotations

A rotation is a line of keys that are served in turn: the first key is served, and then it leaves or
joins again at the end. New keys join at the end, and any key may leave at any time.

The keys ahead of a key that stays are served in their order, if at all, before it is (`Run.ahead`).
So a key that stays is served within as many turns as there are keys (`Run.length_lt`), and between
two services of a key another one is served at least once if it stays (`Run.mem_between`), and only
once if both stay (`Run.count_le`).
-/

namespace Rotation

variable {κ : Type*}

/-- One turn: the key that is served, if any. -/
inductive Turn : List κ → Option κ → List κ → Prop
  | retire (k : κ) (l : List κ) : Turn (k :: l) (some k) l
  | rejoin (k : κ) (l : List κ) : Turn (k :: l) (some k) (l ++ [k])
  | join {k : κ} {l : List κ} : k ∉ l → Turn l none (l ++ [k])
  | leave (p : κ → Bool) (l : List κ) : Turn l none (l.filter p)

/-- Turns in a row, with the keys that are served. Every line on the way meets `P`. -/
inductive Run (P : List κ → Prop) : List κ → List κ → List κ → Prop
  | refl {l : List κ} : P l → Run P l [] l
  | turn {l l' l'' served : List κ} {k : Option κ} :
      P l → Turn l k l' → Run P l' served l'' → Run P l (k.toList ++ served) l''

variable {P Q : List κ → Prop} {l l' served : List κ} {j k : κ} {s : Option κ}

/-- A turn in which nothing happens. -/
lemma Turn.same (l : List κ) : Turn l none l := by
  have h := Turn.leave (fun _ => true) l
  rwa [List.filter_true] at h

lemma Run.first (h : Run P l served l') : P l := by
  cases h <;> assumption

variable [DecidableEq κ]

/-- The keys that are served before a key. -/
def ahead (k : κ) (l : List κ) : List κ := l.takeWhile (· ≠ k)

@[simp] lemma ahead_cons_self : ahead k (k :: l) = [] := by
  simp [ahead]

@[simp] lemma ahead_cons_ne (h : j ≠ k) : ahead k (j :: l) = j :: ahead k l := by
  simp [ahead, h]

lemma ahead_append (h : k ∈ l) (m : List κ) : ahead k (l ++ m) = ahead k l := by
  induction l with
  | nil => simp at h
  | cons x l ih =>
    by_cases hx : x = k
    · simp [hx]
    · have hk : k ∈ l := (List.mem_cons.mp h).resolve_left (Ne.symm hx)
      rw [List.cons_append, ahead_cons_ne hx, ahead_cons_ne hx, ih hk]

/-- A key that joins is behind all others. -/
lemma ahead_concat (h : k ∉ l) : ahead k (l ++ [k]) = l := by
  induction l with
  | nil => simp [ahead]
  | cons x l ih =>
    rw [List.mem_cons, not_or] at h
    rw [List.cons_append, ahead_cons_ne (Ne.symm h.1), ih h.2]

lemma ahead_filter {p : κ → Bool} (h : k ∈ l.filter p) :
    ahead k (l.filter p) = (ahead k l).filter p := by
  have hp : p k := (List.mem_filter.mp h).2
  clear h
  induction l with
  | nil => simp [ahead]
  | cons x l ih =>
    by_cases hx : x = k
    · subst hx
      simp [hp]
    · rw [ahead_cons_ne hx, List.filter_cons, List.filter_cons]
      split_ifs
      · rw [ahead_cons_ne hx, ih]
      · exact ih

lemma ahead_sublist (k : κ) (l : List κ) : (ahead k l).Sublist l :=
  List.takeWhile_sublist _

lemma length_ahead (h : k ∈ l) : (ahead k l).length < l.length := by
  induction l with
  | nil => simp at h
  | cons x l ih =>
    by_cases hx : x = k
    · simp [hx]
    · have hk : k ∈ l := (List.mem_cons.mp h).resolve_left (Ne.symm hx)
      rw [ahead_cons_ne hx]
      simpa using ih hk

/-- A turn of another key is that of the first key ahead, and no key gets ahead. -/
lemma Turn.ahead (h : Turn l s l') (hk : k ∈ l) (hk' : k ∈ l') (hs : k ∉ s.toList) :
    (s.toList ++ Rotation.ahead k l').Sublist (Rotation.ahead k l) := by
  cases h with
  | retire x =>
    have hx : x ≠ k := by
      rintro rfl
      simp at hs
    rw [ahead_cons_ne hx]
    exact List.Sublist.refl _
  | rejoin x l =>
    have hx : x ≠ k := by
      rintro rfl
      simp at hs
    have hl : k ∈ l := (List.mem_cons.mp hk).resolve_left (Ne.symm hx)
    rw [ahead_cons_ne hx, ahead_append hl]
    exact List.Sublist.refl _
  | join => exact (ahead_append hk _).symm ▸ List.Sublist.refl _
  | leave p =>
    rw [ahead_filter hk']
    exact List.filter_sublist

/-- While a key stays and is not served, the keys that are served are keys ahead of it, in order. -/
lemma Run.ahead (h : Run (k ∈ ·) l served l') (hk : k ∉ served) :
    (served ++ Rotation.ahead k l').Sublist (Rotation.ahead k l) := by
  induction h with
  | refl => exact List.Sublist.refl _
  | turn hl hturn hrest ih =>
    rw [List.mem_append, not_or] at hk
    rw [List.append_assoc]
    exact ((ih hk.2).append_left _).trans (hturn.ahead hl hrest.first hk.1)

/-- A key that stays is served within as many turns as there are keys. -/
lemma Run.length_lt (h : Run (k ∈ ·) l served l') (hk : k ∉ served) : served.length < l.length := by
  have hlength := (h.ahead hk).length_le
  rw [List.length_append] at hlength
  have := length_ahead h.first
  omega

/-- While a key stays and is not served, no other key is served twice. -/
lemma Run.count_le (h : Run (k ∈ ·) l served l') (hl : l.Nodup) (hk : k ∉ served) (j : κ) :
    served.count j ≤ 1 := by
  have hserved : served.Sublist (Rotation.ahead k l) :=
    (List.sublist_append_left _ _).trans (h.ahead hk)
  exact List.nodup_iff_count_le_one.mp (hl.sublist (hserved.trans (ahead_sublist k l))) j

/-- A key that stays does not get behind another one. -/
lemma Turn.mem_ahead (h : Turn l s l') (hj : j ∈ l) (hj' : j ∈ l') (hs : j ∉ s.toList)
    (hsk : k ∉ s.toList)
    (hahead : k ∈ l → j ∈ Rotation.ahead k l) : k ∈ l' → j ∈ Rotation.ahead k l' := by
  intro hk
  cases h with
  | retire x =>
    have hx : x ≠ k := by
      rintro rfl
      simp at hsk
    have hmem := hahead (List.mem_cons_of_mem x hk)
    rw [ahead_cons_ne hx] at hmem
    refine (List.mem_cons.mp hmem).resolve_left ?_
    rintro rfl
    simp at hs
  | rejoin x l =>
    have hx : x ≠ k := by
      rintro rfl
      simp at hsk
    have hl : k ∈ l := by simpa [Ne.symm hx] using hk
    have hmem := hahead (List.mem_cons_of_mem x hl)
    rw [ahead_cons_ne hx] at hmem
    rw [ahead_append hl]
    refine (List.mem_cons.mp hmem).resolve_left ?_
    rintro rfl
    simp at hs
  | join hnew =>
    by_cases hl : k ∈ l
    · rw [ahead_append hl]
      exact hahead hl
    · rcases List.mem_append.mp hk with hkl | hknew
      · exact absurd hkl hl
      · rw [List.mem_singleton.mp hknew, ahead_concat hnew]
        exact hj
  | leave p =>
    rw [ahead_filter hk]
    exact List.mem_filter.mpr ⟨hahead (List.mem_filter.mp hk).1, (List.mem_filter.mp hj').2⟩

lemma Run.mem_ahead (h : Run (j ∈ ·) l served l') (hj : j ∉ served) (hk : k ∉ served)
    (hahead : k ∈ l → j ∈ Rotation.ahead k l) : k ∈ l' → j ∈ Rotation.ahead k l' := by
  induction h with
  | refl => exact hahead
  | turn hl hturn hrest ih =>
    rw [List.mem_append, not_or] at hj hk
    exact ih hj.2 hk.2 (hturn.mem_ahead hl hrest.first hj.1 hk.1 hahead)

/-- Between two services of a key every key that stays is served. -/
lemma Run.mem_between {m m' : List κ} (hfirst : Turn (k :: m) (some k) l) (hm : (k :: m).Nodup)
    (h : Run (j ∈ ·) l served (k :: m')) (hjk : j ≠ k) (hk : k ∉ served) : j ∈ served := by
  by_contra hj
  have hnot : k ∉ m := (List.nodup_cons.mp hm).1
  -- the key that was served is behind all others, or it is gone
  have hstart : k ∈ l → j ∈ Rotation.ahead k l := by
    intro hkl
    have hjl := h.first
    cases hfirst with
    | retire => exact absurd hkl hnot
    | rejoin =>
      rw [ahead_concat hnot]
      simpa [hjk] using hjl
  have hend := h.mem_ahead hj hk hstart (by simp)
  rw [ahead_cons_self] at hend
  simp at hend

end Rotation
