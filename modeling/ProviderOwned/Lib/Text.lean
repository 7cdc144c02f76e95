import Mathlib.Algebra.Group.Nat.Defs
import Mathlib.Data.Bool.AllAny
import Mathlib.Data.List.TakeWhile
import Mathlib.Tactic.Common

/-!
# Texts of lines and fields

A text is a list of characters. `pieces` splits it at a separator and `cut` at the first one;
numbers are in decimal (`decimal`) and are read with a limit (`fromDecimal`). What was put together
from pieces without the separator is split into the same pieces again.
-/

namespace Text

/-- The pieces of a text between the separators. What follows the last separator is a piece only if
it is not empty. -/
def pieces (sep : Char) : List Char → List (List Char)
  | [] => []
  | c :: text =>
    if c = sep then [] :: pieces sep text
    else match pieces sep text with
      | [] => [[c]]
      | piece :: rest => (c :: piece) :: rest

/-- The pieces that have a separator behind them. -/
def closed (sep : Char) : List Char → List (List Char)
  | [] => []
  | c :: text =>
    if c = sep then [] :: closed sep text
    else match closed sep text with
      | [] => []
      | piece :: rest => (c :: piece) :: rest

/-- What stands before and after the first separator. -/
def cut (sep : Char) : List Char → Option (List Char × List Char)
  | [] => none
  | c :: text =>
    if c = sep then some ([], text)
    else (cut sep text).map fun (before, after) => (c :: before, after)

/-- Each piece with the separator behind it. -/
def terminated (sep : Char) (parts : List (List Char)) : List Char := parts.flatMap (· ++ [sep])

/-- The pieces with the separator between them. -/
def joined (sep : Char) : List (List Char) → List Char
  | [] => []
  | [part] => part
  | part :: next :: parts => part ++ sep :: joined sep (next :: parts)

variable {sep : Char} {part text before after pattern rest : List Char} {parts : List (List Char)}

lemma pieces_append (h : sep ∉ part) (text : List Char) :
    pieces sep (part ++ sep :: text) = part :: pieces sep text := by
  induction part with
  | nil => exact if_pos rfl
  | cons c part ih =>
    rw [List.mem_cons, not_or] at h
    rw [List.cons_append, pieces, if_neg (Ne.symm h.1), ih h.2]

lemma pieces_eq_singleton (h : sep ∉ part) (hne : part ≠ []) : pieces sep part = [part] := by
  induction part with
  | nil => exact absurd rfl hne
  | cons c part ih =>
    rw [List.mem_cons, not_or] at h
    rw [pieces, if_neg (Ne.symm h.1)]
    cases part with
    | nil => rfl
    | cons d part => rw [ih h.2 (List.cons_ne_nil _ _)]

lemma closed_append (h : sep ∉ part) (text : List Char) :
    closed sep (part ++ sep :: text) = part :: closed sep text := by
  induction part with
  | nil => exact if_pos rfl
  | cons c part ih =>
    rw [List.mem_cons, not_or] at h
    rw [List.cons_append, closed, if_neg (Ne.symm h.1), ih h.2]

@[simp] lemma terminated_cons (part : List Char) (parts : List (List Char)) :
    terminated sep (part :: parts) = part ++ sep :: terminated sep parts := by
  rw [terminated, List.flatMap_cons, List.append_assoc]
  rfl

lemma closed_terminated (h : ∀ part ∈ parts, sep ∉ part) :
    closed sep (terminated sep parts) = parts := by
  induction parts with
  | nil => rfl
  | cons part parts ih =>
    rw [List.forall_mem_cons] at h
    rw [terminated_cons, closed_append h.1, ih h.2]

lemma pieces_terminated (h : ∀ part ∈ parts, sep ∉ part) :
    pieces sep (terminated sep parts) = parts := by
  induction parts with
  | nil => rfl
  | cons part parts ih =>
    rw [List.forall_mem_cons] at h
    rw [terminated_cons, pieces_append h.1, ih h.2]

/-- Joined pieces are found again, where none of them is empty. -/
lemma pieces_joined (h : ∀ part ∈ parts, sep ∉ part) (hne : ∀ part ∈ parts, part ≠ []) :
    pieces sep (joined sep parts) = parts := by
  induction parts with
  | nil => rfl
  | cons part parts ih =>
    rw [List.forall_mem_cons] at h hne
    cases parts with
    | nil => exact pieces_eq_singleton h.1 hne.1
    | cons next parts => rw [joined, pieces_append h.1, ih h.2 hne.2]

lemma mem_joined {c : Char} (h : c ∈ joined sep parts) : c = sep ∨ ∃ part ∈ parts, c ∈ part := by
  induction parts with
  | nil => cases h
  | cons part parts ih =>
    cases parts with
    | nil => exact .inr ⟨part, List.mem_singleton_self _, h⟩
    | cons next parts =>
      rw [joined, List.mem_append, List.mem_cons] at h
      rcases h with h | rfl | h
      · exact .inr ⟨part, List.mem_cons_self, h⟩
      · exact .inl rfl
      · rcases ih h with rfl | ⟨other, hother, hc⟩
        · exact .inl rfl
        · exact .inr ⟨other, List.mem_cons_of_mem _ hother, hc⟩

lemma getLast?_joined (h : parts.getLast? = some part) (hne : part ≠ []) :
    (joined sep parts).getLast? = part.getLast? := by
  induction parts with
  | nil => cases h
  | cons first parts ih =>
    cases parts with
    | nil =>
      rw [List.getLast?_singleton, Option.some.injEq] at h
      rw [joined, h]
    | cons next parts =>
      rw [List.getLast?_cons_cons] at h
      have hrest := ih h
      have hsome : (joined sep (next :: parts)).getLast? ≠ none := by
        rwa [hrest, ne_eq, List.getLast?_eq_none_iff]
      rw [joined, List.getLast?_append, List.getLast?_cons, hrest]
      cases hlast : part.getLast? with
      | none =>
        rw [hrest] at hsome
        exact absurd hlast hsome
      | some c => rfl

lemma length_joined_le {k : Nat} (h : ∀ part ∈ parts, part.length ≤ k) :
    (joined sep parts).length ≤ parts.length * (k + 1) := by
  induction parts with
  | nil => exact Nat.zero_le _
  | cons part parts ih =>
    rw [List.forall_mem_cons] at h
    have hrest := ih h.2
    rw [List.length_cons, Nat.succ_mul]
    cases parts with
    | nil =>
      rw [joined]
      omega
    | cons next parts =>
      rw [joined, List.length_append, List.length_cons]
      omega

lemma length_terminated_le {k : Nat} (h : ∀ part ∈ parts, part.length ≤ k) :
    (terminated sep parts).length ≤ parts.length * (k + 1) := by
  induction parts with
  | nil => exact Nat.zero_le _
  | cons part parts ih =>
    rw [List.forall_mem_cons] at h
    have hrest := ih h.2
    rw [terminated_cons, List.length_append, List.length_cons, List.length_cons, Nat.succ_mul]
    omega

/-- Where a terminated text has `pattern` before a separator, a piece ends in it. -/
lemma suffix_of_terminated {pattern q rest : List Char} (h : ∀ part ∈ parts, sep ∉ part)
    (hpattern : sep ∉ pattern) (heq : terminated sep parts = q ++ pattern ++ sep :: rest) :
    rest = [] ∨ ∃ last ∈ parts.dropLast, pattern <:+ last := by
  induction parts generalizing q with
  | nil =>
    have hlength := congrArg List.length heq
    rw [List.length_append, List.length_cons] at hlength
    cases hlength
  | cons part parts ih =>
    rw [List.forall_mem_cons] at h
    rw [terminated_cons] at heq
    have hhere : part = q ++ pattern → terminated sep parts = rest →
        rest = [] ∨ ∃ last ∈ (part :: parts).dropLast, pattern <:+ last := by
      intro hpart hrest
      cases parts with
      | nil => exact .inl hrest.symm
      | cons next parts => exact .inr ⟨part, List.mem_cons_self, q, hpart.symm⟩
    rcases List.append_eq_append_iff.mp heq with ⟨more, hmore, hrest⟩ | ⟨more, hmore, hrest⟩
    · cases more with
      | nil =>
        rw [List.append_nil] at hmore
        exact hhere hmore.symm (List.cons.inj hrest).2
      | cons c more =>
        rw [List.cons_append] at hrest
        obtain ⟨rfl, htail⟩ := List.cons.inj hrest
        have hsuffix : pattern <:+ sep :: more := by
          rcases List.suffix_or_suffix_of_suffix (⟨q, rfl⟩ : pattern <:+ q ++ pattern)
            (⟨part, hmore.symm⟩ : sep :: more <:+ q ++ pattern) with hs | hs
          · exact hs
          · exact absurd (hs.mem List.mem_cons_self) hpattern
        rcases List.suffix_cons_iff.mp hsuffix with hs | ⟨q', hq'⟩
        · exact absurd (hs ▸ List.mem_cons_self) hpattern
        · rcases ih h.2 (hq'.symm ▸ htail) with hend | ⟨last, hlast, hs⟩
          · exact .inl hend
          · refine .inr ⟨last, ?_, hs⟩
            cases parts with
            | nil => cases hlast
            | cons next parts => exact List.mem_cons_of_mem _ hlast
    · cases more with
      | nil =>
        rw [List.append_nil] at hmore
        exact hhere hmore (List.cons.inj hrest).2.symm
      | cons c more =>
        obtain ⟨rfl, -⟩ := List.cons.inj hrest
        exact absurd (hmore ▸ List.mem_append_right _ List.mem_cons_self) h.1

/-- No piece has the separator in it. -/
lemma not_mem_of_mem_pieces (h : part ∈ pieces sep text) : sep ∉ part := by
  induction text generalizing part with
  | nil => cases h
  | cons c text ih =>
    rw [pieces] at h
    split at h
    · rcases List.mem_cons.mp h with rfl | h
      · exact List.not_mem_nil
      · exact ih h
    · rename_i hc
      split at h
      · rw [List.mem_singleton] at h
        rw [h, List.mem_singleton]
        exact Ne.symm hc
      · rename_i piece rest hpieces
        rw [hpieces] at ih
        rcases List.mem_cons.mp h with rfl | h
        · rw [List.mem_cons, not_or]
          exact ⟨Ne.symm hc, ih List.mem_cons_self⟩
        · exact ih (List.mem_cons_of_mem _ h)

lemma pieces_ne_nil (h : text ≠ []) : pieces sep text ≠ [] := by
  cases text with
  | nil => exact absurd rfl h
  | cons c text =>
    rw [pieces]
    split
    · exact List.cons_ne_nil _ _
    · split <;> exact List.cons_ne_nil _ _

/-- A text that ends in no separator is its pieces put together again. -/
lemma joined_pieces (h : text.getLast? ≠ some sep) : joined sep (pieces sep text) = text := by
  induction text with
  | nil => rfl
  | cons c text ih =>
    by_cases htext : text = []
    · subst htext
      have hc : c ≠ sep := by simpa using h
      simp [pieces, joined, hc]
    · rw [List.getLast?_cons_of_ne_nil htext] at h
      have ih := ih h
      rw [pieces]
      cases hpieces : pieces sep text with
      | nil => exact absurd hpieces (pieces_ne_nil htext)
      | cons first others =>
        rw [hpieces] at ih
        split
        · rename_i hc
          rw [joined, ih, hc]
          rfl
        · cases others with
          | nil => rw [joined] at ih ⊢; rw [ih]
          | cons next others => rw [joined] at ih ⊢; rw [List.cons_append, ih]

/-- The last part ends the text. -/
lemma exists_suffix_joined {parts : List (List Char)} (h : parts ≠ []) :
    ∃ part ∈ parts, part <:+ joined sep parts := by
  induction parts with
  | nil => exact absurd rfl h
  | cons first parts ih =>
    cases parts with
    | nil => exact ⟨first, List.mem_cons_self, List.suffix_rfl⟩
    | cons next parts =>
      obtain ⟨part, hpart, hsuffix⟩ := ih (List.cons_ne_nil _ _)
      refine ⟨part, List.mem_cons_of_mem _ hpart, hsuffix.trans ?_⟩
      rw [joined]
      exact (List.suffix_cons _ _).trans (List.suffix_append _ _)

lemma exists_piece_suffix (hne : text ≠ []) (hlast : text.getLast? ≠ some sep) :
    ∃ part ∈ pieces sep text, part <:+ text := by
  have hpieces : pieces sep text ≠ [] := pieces_ne_nil hne
  obtain ⟨part, hpart, hsuffix⟩ := exists_suffix_joined hpieces
  rw [joined_pieces hlast] at hsuffix
  exact ⟨part, hpart, hsuffix⟩

lemma cut_append (h : sep ∉ before) (after : List Char) :
    cut sep (before ++ sep :: after) = some (before, after) := by
  induction before with
  | nil => exact if_pos rfl
  | cons c before ih =>
    rw [List.mem_cons, not_or] at h
    rw [List.cons_append, cut, if_neg (Ne.symm h.1), ih h.2]
    rfl

lemma cut_eq_none (h : sep ∉ text) : cut sep text = none := by
  induction text with
  | nil => rfl
  | cons c text ih =>
    rw [List.mem_cons, not_or] at h
    rw [cut, if_neg (Ne.symm h.1), ih h.2]
    rfl

lemma cut_eq_some (h : cut sep text = some (before, after)) :
    text = before ++ sep :: after ∧ sep ∉ before := by
  induction text generalizing before with
  | nil => cases h
  | cons c text ih =>
    rw [cut] at h
    split_ifs at h with hc
    · obtain ⟨rfl, rfl⟩ := Prod.mk.inj (Option.some.inj h)
      exact ⟨by rw [hc]; rfl, List.not_mem_nil⟩
    · obtain ⟨⟨start, left⟩, hcut, hpair⟩ := Option.map_eq_some_iff.mp h
      obtain ⟨rfl, rfl⟩ := Prod.mk.inj hpair
      obtain ⟨htext, hsep⟩ := ih hcut
      refine ⟨by rw [htext]; rfl, ?_⟩
      rw [List.mem_cons, not_or]
      exact ⟨Ne.symm hc, hsep⟩

/-- What stands before and after the last separator. -/
def cutLast (sep : Char) (text : List Char) : Option (List Char × List Char) :=
  (cut sep text.reverse).map fun (after, before) => (before.reverse, after.reverse)

lemma cutLast_append (before : List Char) (h : sep ∉ after) :
    cutLast sep (before ++ sep :: after) = some (before, after) := by
  have hreverse : sep ∉ after.reverse := by rwa [List.mem_reverse]
  have htext : (before ++ sep :: after).reverse = after.reverse ++ sep :: before.reverse := by
    rw [List.reverse_append, List.reverse_cons, List.append_assoc]
    rfl
  rw [cutLast, htext, cut_append hreverse, Option.map_some]
  dsimp only
  rw [List.reverse_reverse, List.reverse_reverse]

lemma cutLast_eq_some (h : cutLast sep text = some (before, after)) :
    text = before ++ sep :: after ∧ sep ∉ after := by
  obtain ⟨⟨start, left⟩, hcut, hpair⟩ := Option.map_eq_some_iff.mp h
  obtain ⟨rfl, rfl⟩ := Prod.mk.inj hpair
  obtain ⟨htext, hsep⟩ := cut_eq_some hcut
  refine ⟨?_, by rwa [List.mem_reverse]⟩
  rw [← List.reverse_reverse text, htext]
  simp

/-- What stands behind the last occurrence of `pattern`. -/
def afterLast (pattern : List Char) : List Char → Option (List Char)
  | [] => if pattern.isEmpty then some [] else none
  | c :: text =>
    match afterLast pattern text with
    | some rest => some rest
    | none => if pattern.isPrefixOf (c :: text) then some ((c :: text).drop pattern.length)
      else none

/-- What stands behind an occurrence in the rest of a text stands behind it in the text. -/
lemma afterLast_append (front : List Char) (h : afterLast pattern text = some rest) :
    afterLast pattern (front ++ text) = some rest := by
  induction front with
  | nil => exact h
  | cons c front ih => rw [List.cons_append, afterLast, ih]

lemma afterLast_eq_some (h : afterLast pattern text = some rest) :
    pattern ++ rest <:+ text ∧ afterLast pattern (pattern ++ rest) = some rest := by
  induction text with
  | nil =>
    rw [afterLast] at h
    split_ifs at h with hnil
    rw [List.isEmpty_iff.mp hnil, ← Option.some.inj h]
    exact ⟨List.suffix_rfl, rfl⟩
  | cons c text ih =>
    cases hlast : afterLast pattern text with
    | some found =>
      rw [afterLast, hlast] at h
      obtain ⟨hsuffix, hfound⟩ := ih (hlast.trans h)
      exact ⟨hsuffix.trans (List.suffix_cons c text), hfound⟩
    | none =>
      have hwhole := h
      rw [afterLast, hlast] at h
      dsimp only at h
      split_ifs at h with hpattern
      have htext : pattern ++ rest = c :: text := by
        rw [← Option.some.inj h]
        exact (List.prefix_iff_eq_append.mp (List.isPrefixOf_iff_prefix.mp hpattern))
      rw [htext]
      exact ⟨List.suffix_rfl, hwhole⟩

/-- Nothing stands behind a pattern that does not occur. -/
lemma afterLast_eq_none {c : Char} (hpattern : c ∈ pattern) (h : c ∉ text) :
    afterLast pattern text = none := by
  induction text with
  | nil =>
    have hne : pattern ≠ [] := List.ne_nil_of_mem hpattern
    rw [afterLast, if_neg (mt List.isEmpty_iff.mp hne)]
  | cons d text ih =>
    have hstarts : ¬ pattern.isPrefixOf (d :: text) := by
      intro hstarts
      exact h ((List.isPrefixOf_iff_prefix.mp hstarts).subset hpattern)
    rw [List.mem_cons, not_or] at h
    rw [afterLast, ih h.2]
    exact if_neg hstarts

/-- The letters of a text in lower case. -/
def lowercase (text : List Char) : List Char := text.map Char.toLower

/-! ### Numbers -/

def decimal (n : Nat) : List Char := Nat.toDigits 10 n

/-- The number below `limit` that the text is the decimal of, leading zeros allowed. -/
def fromDecimal (limit : Nat) (text : List Char) : Option Nat :=
  if text ≠ [] ∧ text.all Char.isDigit ∧ Nat.ofDigitChars 10 text 0 < limit then
    some (Nat.ofDigitChars 10 text 0)
  else none

variable {n limit : Nat}

lemma decimal_ne_nil (n : Nat) : decimal n ≠ [] := Nat.toDigits_ne_nil

lemma isDigit_of_mem_decimal {c : Char} (h : c ∈ decimal n) : c.isDigit :=
  Nat.isDigit_of_mem_toDigits (by decide) (by decide) h

/-- A character that is no digit is not in a number. -/
lemma not_mem_decimal (h : sep.isDigit = false) (n : Nat) : sep ∉ decimal n := by
  intro hmem
  rw [isDigit_of_mem_decimal hmem] at h
  cases h

lemma all_decimal (n : Nat) : (decimal n).all Char.isDigit :=
  List.all_eq_true.mpr fun _ hc => isDigit_of_mem_decimal hc

@[simp] lemma ofDigitChars_decimal (n : Nat) : Nat.ofDigitChars 10 (decimal n) 0 = n :=
  Nat.ofDigitChars_ten_toDigits

/-- A number below the limit is read back. -/
lemma fromDecimal_decimal (h : n < limit) : fromDecimal limit (decimal n) = some n := by
  rw [fromDecimal, ofDigitChars_decimal, if_pos ⟨decimal_ne_nil n, all_decimal n, h⟩]

/-- A number that reaches the limit is not. -/
lemma fromDecimal_decimal_of_le (h : limit ≤ n) : fromDecimal limit (decimal n) = none := by
  rw [fromDecimal, ofDigitChars_decimal, if_neg fun hlt => Nat.not_lt.mpr h hlt.2.2]

lemma lt_of_fromDecimal (h : fromDecimal limit text = some n) : n < limit := by
  rw [fromDecimal] at h
  split at h
  · rename_i hdigits
    exact Option.some.inj h ▸ hdigits.2.2
  · cases h

lemma length_decimal_le {k : Nat} (hk : 0 < k) (h : n < 10 ^ k) : (decimal n).length ≤ k :=
  (Nat.length_toDigits_le_iff (by decide) hk).mpr h

def isSpace (c : Char) : Bool :=
  c = ' ' || c = '\t' || c = '\n' || c = '\r' || c = '\x0b' || c = '\x0c'

lemma isSpace_of_isDigit {c : Char} (h : c.isDigit) : isSpace c = false := by
  have hblank : ∀ b ∈ [' ', '\t', '\n', '\r', '\x0b', '\x0c'], b.isDigit = false :=
    List.all_iff_forall_prop.mp (by decide)
  by_contra hspace
  simp only [isSpace, Bool.not_eq_false, Bool.or_eq_true, decide_eq_true_eq] at hspace
  have hmem : c ∈ [' ', '\t', '\n', '\r', '\x0b', '\x0c'] := by
    simpa [or_assoc] using hspace
  rw [hblank c hmem] at h
  cases h

/-- The number a text begins with, after blanks and a sign: modulo `limit` for a negative one, and
the largest below `limit` where it is too large. -/
def leadingNumber (limit : Nat) (text : List Char) : Nat :=
  let text := text.dropWhile isSpace
  let digits :=
    (if text.head? = some '-' ∨ text.head? = some '+' then text.tail else text).takeWhile
    Char.isDigit
  let value := Nat.ofDigitChars 10 digits 0
  if limit ≤ value then limit - 1
  else if text.head? = some '-' then (limit - value) % limit
  else value

lemma leadingNumber_decimal (h : n < limit) : leadingNumber limit (decimal n) = n := by
  have hhead : ∀ c, (decimal n).head? = some c → c.isDigit := fun c hc =>
    isDigit_of_mem_decimal (List.mem_of_mem_head? hc)
  have hblank : (decimal n).dropWhile isSpace = decimal n := by
    cases hdecimal : decimal n with
    | nil => rfl
    | cons c rest =>
      have hc : c.isDigit := hhead c (by rw [hdecimal]; rfl)
      rw [List.dropWhile_cons_of_neg]
      rw [isSpace_of_isDigit hc]
      decide
  have hminus : (decimal n).head? ≠ some '-' := fun hc => absurd (hhead '-' hc) (by decide)
  have hplus : (decimal n).head? ≠ some '+' := fun hc => absurd (hhead '+' hc) (by decide)
  have hdigits : (decimal n).takeWhile Char.isDigit = decimal n := by
    rw [List.takeWhile_eq_self_iff]
    exact fun c hc => isDigit_of_mem_decimal hc
  simp only [leadingNumber, hblank, hminus, hplus, or_self, if_false, hdigits, ofDigitChars_decimal]
  exact if_neg (Nat.not_le.mpr h)

end Text
