import ProviderOwned.Lib.Causal

/-!
# Greedy decoding and verified guesses

A decoder is a function `next` from a text to the symbol that follows it. `outputs next text n` are
the first `n` symbols it produces after `text`. A batch of guesses is verified with one sample per
guess, each taken after the guesses before it: as long as the guesses are right the samples are the
decoder's own outputs (`sample_eq_of_take_eq`), so the guesses up to the first wrong one and the
sample there are its next outputs.
-/

namespace Decode

variable {α : Type*} (next : List α → α) (text : List α)

/-- The first `n` symbols decoded after `text`. -/
def outputs (next : List α → α) (text : List α) : Nat → List α
  | 0 => []
  | n + 1 => outputs next text n ++ [next (text ++ outputs next text n)]

@[simp] lemma outputs_zero : outputs next text 0 = [] := rfl

lemma outputs_succ (n : Nat) :
    outputs next text (n + 1) = outputs next text n ++ [next (text ++ outputs next text n)] := rfl

@[simp] lemma length_outputs (n : Nat) : (outputs next text n).length = n := by
  induction n with
  | zero => rfl
  | succ n ih => rw [outputs_succ, List.length_append, ih, List.length_singleton]

/-- Decoding goes on from what was decoded. -/
lemma outputs_add (m n : Nat) :
    outputs next text (m + n) =
      outputs next text m ++ outputs next (text ++ outputs next text m) n := by
  induction n with
  | zero => simp
  | succ n ih => rw [← Nat.add_assoc, outputs_succ, outputs_succ, ih, List.append_assoc,
      ← List.append_assoc text]

/-- The first symbol comes first. -/
lemma outputs_succ_cons (n : Nat) :
    outputs next text (n + 1) = next text :: outputs next (text ++ [next text]) n := by
  have hfirst : outputs next text 1 = [next text] := by
    rw [outputs_succ, outputs_zero, List.nil_append, List.append_nil]
  rw [Nat.add_comm, outputs_add, hfirst, List.singleton_append]

lemma take_outputs {m n : Nat} (h : m ≤ n) :
    (outputs next text n).take m = outputs next text m := by
  obtain ⟨k, rfl⟩ := Nat.exists_eq_add_of_le h
  rw [outputs_add, List.take_left' (length_outputs ..)]

/-- The samples that verify a batch of guesses: one after each guess before it. -/
def samples (next : List α → α) (text guesses : List α) : List α :=
  (List.range guesses.length).map fun i => next (text ++ guesses.take i)

@[simp] lemma length_samples (guesses : List α) :
    (samples next text guesses).length = guesses.length := by
  simp [samples]

lemma samples_cons (guess : α) (guesses : List α) :
    samples next text (guess :: guesses) =
      next text :: samples next (text ++ [guess]) guesses := by
  simp [samples, List.range_succ_eq_map, Function.comp_def]

/-- The same samples, read off the prefixes of a batch that starts with the symbol before them. -/
lemma prefixMap_cons_eq_samples (symbol : α) {guesses : List α} (h : guesses ≠ []) :
    (symbol :: guesses.take (guesses.length - 1)).prefixMap (fun b => next (text ++ b)) =
      samples next (text ++ [symbol]) guesses := by
  have hlength : (symbol :: guesses.take (guesses.length - 1)).length = guesses.length := by
    have hpos := List.length_pos_iff.mpr h
    simp
    omega
  rw [List.prefixMap, samples, hlength]
  apply List.map_congr_left
  intro n hn
  have hshort : n ≤ guesses.length - 1 := by
    have := List.mem_range.mp hn
    omega
  rw [List.take_succ_cons, List.take_take, Nat.min_eq_left hshort, List.append_assoc,
    List.singleton_append]

end Decode
