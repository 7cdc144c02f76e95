import Mathlib.Data.List.Induction

/-!
# Causal maps on lists

A causal map sends a list to the list of what `f` makes of its nonempty prefixes: the `n`-th value
depends on the first `n + 1` elements only. Causal maps commute with `take`, split over `++` and
compose.
-/

namespace List

variable {α β γ : Type*} (f : List α → β) (g : List β → γ) (l m : List α)

/-- The values of `f` on the nonempty prefixes of a list. -/
def prefixMap (f : List α → β) (l : List α) : List β :=
  (range l.length).map fun n => f (l.take (n + 1))

@[simp] lemma prefixMap_nil : prefixMap f [] = [] := rfl

@[simp] lemma length_prefixMap : (prefixMap f l).length = l.length := by
  simp [prefixMap]

lemma prefixMap_concat (a : α) : prefixMap f (l ++ [a]) = prefixMap f l ++ [f (l ++ [a])] := by
  simp only [prefixMap, length_append, length_singleton, range_succ, map_append, map_singleton]
  congr 1
  · apply map_congr_left
    intro n hn
    rw [take_append_of_le_length (mem_range.mp hn)]
  · rw [take_of_length_le (by simp)]

lemma prefixMap_append :
    prefixMap f (l ++ m) = prefixMap f l ++ prefixMap (fun c => f (l ++ c)) m := by
  induction m using reverseRecOn with
  | nil => simp
  | append_singleton m a ih =>
    rw [← append_assoc, prefixMap_concat, prefixMap_concat, ih, append_assoc, append_assoc]

lemma take_prefixMap (n : Nat) : (prefixMap f l).take n = prefixMap f (l.take n) := by
  conv_lhs => rw [← take_append_drop n l, prefixMap_append]
  by_cases hn : n ≤ l.length
  · rw [take_left' (by simp [hn])]
  · have hlong : l.length ≤ n := by omega
    rw [take_of_length_le hlong, drop_of_length_le hlong, prefixMap_nil, append_nil,
      take_of_length_le (by simpa using hlong)]

lemma map_prefixMap (h : β → γ) : (prefixMap f l).map h = prefixMap (fun c => h (f c)) l := by
  simp [prefixMap, Function.comp_def]

lemma prefixMap_map {δ : Type*} (g : δ → α) (l : List δ) :
    prefixMap f (l.map g) = prefixMap (fun c => f (c.map g)) l := by
  simp [prefixMap, map_take]

/-- Causal maps compose. -/
lemma prefixMap_prefixMap :
    prefixMap g (prefixMap f l) = prefixMap (fun c => g (prefixMap f c)) l := by
  induction l using reverseRecOn with
  | nil => rfl
  | append_singleton l a ih =>
    rw [prefixMap_concat, prefixMap_concat, prefixMap_concat, ih, ← prefixMap_concat]

lemma getLast?_prefixMap (a : α) : (prefixMap f (l ++ [a])).getLast? = some (f (l ++ [a])) := by
  rw [prefixMap_concat, getLast?_concat]

end List
