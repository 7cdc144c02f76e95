import Mathlib.Data.List.Infix
import Mathlib.Data.UInt
import Mathlib.Tactic.Common

/-!
# UTF-8

Characters as bytes: the length of the character a text begins with (`runeLen`), whether a text is
made of characters (`Valid`), and the text with every run of other bytes replaced (`toValid`).

Whether a character begins a text is seen from its own bytes, so a text of characters may be taken
off the front of any text (`valid_append`, `toValid_append`).
-/

namespace Utf8

/-- What the first byte of a character says: how many bytes follow, and the range of the next
one. -/
structure Lead where
  more : Nat
  low : UInt8 := 0x80
  high : UInt8 := 0xBF
  deriving DecidableEq, Repr

def lead (b : UInt8) : Option Lead :=
  if b < 0x80 then some { more := 0 }
  else if b < 0xC2 then none
  else if b < 0xE0 then some { more := 1 }
  else if b = 0xE0 then some { more := 2, low := 0xA0 }
  else if b = 0xED then some { more := 2, high := 0x9F }
  else if b < 0xF0 then some { more := 2 }
  else if b = 0xF0 then some { more := 3, low := 0x90 }
  else if b < 0xF4 then some { more := 3 }
  else if b = 0xF4 then some { more := 3, high := 0x8F }
  else none

/-- Whether `more` bytes follow, the first one in the range and the others between `80` and `BF`. -/
def follows : Nat → UInt8 → UInt8 → List UInt8 → Bool
  | 0, _, _, _ => true
  | _ + 1, _, _, [] => false
  | more + 1, low, high, c :: text => low ≤ c && c ≤ high && follows more 0x80 0xBF text

/-- The number of bytes of the character a text begins with, if it begins with one. -/
def runeLen : List UInt8 → Option Nat
  | [] => none
  | b :: text =>
    (lead b).bind fun l => if follows l.more l.low l.high text then some (l.more + 1) else none

/-- Whether a text is made of characters, after `skip` more bytes of one. -/
def validFrom : Nat → List UInt8 → Bool
  | _, [] => true
  | skip + 1, _ :: text => validFrom skip text
  | 0, b :: text =>
    match runeLen (b :: text) with
    | some n => validFrom (n - 1) text
    | none => false

/-- Whether a text is made of characters. -/
def Valid (text : List UInt8) : Prop := validFrom 0 text = true

instance (text : List UInt8) : Decidable (Valid text) := inferInstanceAs (Decidable (_ = true))

/-- The text with each run of bytes that belong to no character replaced, after `skip` more bytes of
a character; `invalid` when the byte before belongs to none. -/
def toValidFrom (replacement : List UInt8) : Nat → Bool → List UInt8 → List UInt8
  | _, _, [] => []
  | skip + 1, invalid, b :: text => b :: toValidFrom replacement skip invalid text
  | 0, invalid, b :: text =>
    match runeLen (b :: text) with
    | some n => b :: toValidFrom replacement (n - 1) false text
    | none => (if invalid then [] else replacement) ++ toValidFrom replacement 0 true text

/-- The text with each run of bytes that belong to no character replaced. -/
def toValid (replacement text : List UInt8) : List UInt8 := toValidFrom replacement 0 false text

variable {text u v r replacement : List UInt8} {low high : UInt8} {n : Nat}

/-! ### One character -/

lemma follows_append (h : follows n low high u) : follows n low high (u ++ v) := by
  induction n generalizing low high u with
  | zero => rfl
  | succ n ih =>
    cases u with
    | nil => cases h
    | cons c u =>
      simp only [follows, Bool.and_eq_true, List.cons_append] at h ⊢
      exact ⟨h.1, ih h.2⟩

lemma follows_take (h : follows n low high u) : follows n low high (u.take n) := by
  induction n generalizing low high u with
  | zero => rfl
  | succ n ih =>
    cases u with
    | nil => cases h
    | cons c u =>
      simp only [follows, Bool.and_eq_true, List.take_succ_cons] at h ⊢
      exact ⟨h.1, ih h.2⟩

lemma le_length_of_follows (h : follows n low high u) : n ≤ u.length := by
  induction n generalizing low high u with
  | zero => exact Nat.zero_le _
  | succ n ih =>
    cases u with
    | nil => cases h
    | cons c u =>
      simp only [follows, Bool.and_eq_true] at h
      exact Nat.succ_le_succ (ih h.2)

def Rune (r : List UInt8) : Prop := runeLen r = some r.length

lemma runeLen_cons {b : UInt8} :
    runeLen (b :: text) = some n ↔
      ∃ l, lead b = some l ∧ follows l.more l.low l.high text ∧ n = l.more + 1 := by
  rw [runeLen, Option.bind_eq_some_iff]
  constructor
  · rintro ⟨l, hl, h⟩
    split_ifs at h with hfollows
    exact ⟨l, hl, hfollows, (Option.some.inj h).symm⟩
  · rintro ⟨l, hl, hfollows, rfl⟩
    exact ⟨l, hl, if_pos hfollows⟩

/-- A character is one at the start of any text. -/
lemma Rune.append (h : Rune r) (v : List UInt8) : runeLen (r ++ v) = some r.length := by
  cases r with
  | nil => cases h
  | cons b r =>
    obtain ⟨l, hl, hfollows, hn⟩ := runeLen_cons.mp h
    exact runeLen_cons.mpr ⟨l, hl, follows_append hfollows, hn⟩

lemma Rune.ne_nil (h : Rune r) : r ≠ [] := by
  rintro rfl
  cases h

/-- The text is taken apart behind its first character. -/
lemma exists_rune (h : runeLen text = some n) :
    ∃ r v, text = r ++ v ∧ Rune r ∧ r.length = n := by
  cases text with
  | nil => cases h
  | cons b text =>
    obtain ⟨l, hl, hfollows, rfl⟩ := runeLen_cons.mp h
    have hlen := le_length_of_follows hfollows
    have htake : (text.take l.more).length = l.more := by
      rw [List.length_take]
      exact min_eq_left hlen
    refine ⟨b :: text.take l.more, text.drop l.more, ?_, ?_, ?_⟩
    · rw [List.cons_append, List.take_append_drop]
    · exact runeLen_cons.mpr ⟨l, hl, follows_take hfollows, by rw [List.length_cons, htake]⟩
    · rw [List.length_cons, htake]

/-! ### Texts of characters -/

@[simp] lemma valid_nil : Valid [] := rfl

lemma validFrom_eq (n : Nat) (text : List UInt8) :
    validFrom n text = validFrom 0 (text.drop n) := by
  induction n generalizing text with
  | zero => rfl
  | succ n ih =>
    cases text with
    | nil => rfl
    | cons b text => exact ih text

lemma valid_rune_append (h : Rune r) : Valid (r ++ v) ↔ Valid v := by
  have hlen := h.append v
  cases r with
  | nil => exact absurd rfl h.ne_nil
  | cons b r =>
    rw [List.cons_append] at hlen ⊢
    rw [Valid, validFrom, hlen]
    dsimp only
    rw [List.length_cons, Nat.add_sub_cancel, validFrom_eq, List.drop_left]
    rfl

lemma not_valid_of_runeLen {b : UInt8} (h : runeLen (b :: text) = none) : ¬ Valid (b :: text) := by
  rw [Valid, validFrom, h]
  exact Bool.false_ne_true

/-- A text is made of characters one after the other. -/
lemma Valid.rec_on {P : List UInt8 → Prop} (h : Valid text) (nil : P [])
    (rune : ∀ r v, Rune r → Valid v → P v → P (r ++ v)) : P text := by
  induction hn : text.length using Nat.strong_induction_on generalizing text with
  | _ len ih =>
    subst hn
    cases text with
    | nil => exact nil
    | cons b text =>
      cases hlen : runeLen (b :: text) with
      | none => exact absurd h (not_valid_of_runeLen hlen)
      | some n =>
        obtain ⟨r, v, htext, hr, -⟩ := exists_rune hlen
        rw [htext] at h ih ⊢
        have hv := (valid_rune_append hr).mp h
        have hpos := List.length_pos_iff.mpr hr.ne_nil
        have hlt : v.length < (r ++ v).length := by
          rw [List.length_append]
          omega
        exact rune r v hr hv (ih _ hlt hv rfl)

/-- Characters in front change nothing. -/
lemma valid_append (h : Valid u) : Valid (u ++ v) ↔ Valid v := by
  refine h.rec_on (P := fun u => Valid (u ++ v) ↔ Valid v) Iff.rfl fun r u hr _ ih => ?_
  rw [List.append_assoc, valid_rune_append hr, ih]

lemma valid_flatten {texts : List (List UInt8)} (h : ∀ text ∈ texts, Valid text) :
    Valid texts.flatten := by
  induction texts with
  | nil => exact valid_nil
  | cons text texts ih =>
    rw [List.forall_mem_cons] at h
    exact (valid_append h.1).mpr (ih h.2)

/-! ### Replaced bytes -/

lemma toValidFrom_skip (invalid : Bool) (r v : List UInt8) :
    toValidFrom replacement r.length invalid (r ++ v) =
      r ++ toValidFrom replacement 0 invalid v := by
  induction r with
  | nil => rfl
  | cons b r ih => exact congrArg (b :: ·) ih

/-- A character stays, and a run of other bytes ends before it. -/
lemma toValidFrom_rune_append (hr : Rune r) (invalid : Bool) :
    toValidFrom replacement 0 invalid (r ++ v) = r ++ toValid replacement v := by
  have hlen := hr.append v
  cases r with
  | nil => exact absurd rfl hr.ne_nil
  | cons b r =>
    rw [List.cons_append] at hlen ⊢
    rw [toValidFrom, hlen]
    exact congrArg (b :: ·) (toValidFrom_skip false r v)

/-- A byte that begins no character. -/
lemma toValidFrom_of_runeLen {b : UInt8} (invalid : Bool) (h : runeLen (b :: text) = none) :
    toValidFrom replacement 0 invalid (b :: text) =
      (if invalid then [] else replacement) ++ toValidFrom replacement 0 true text := by
  rw [toValidFrom, h]

/-- Characters in front stay as they are. -/
lemma toValid_append (h : Valid u) : toValid replacement (u ++ v) = u ++ toValid replacement v := by
  refine h.rec_on (P := fun u => toValid replacement (u ++ v) = u ++ toValid replacement v) rfl
    fun r u hr _ ih => ?_
  rw [List.append_assoc, List.append_assoc, ← ih]
  exact toValidFrom_rune_append hr false

lemma toValid_of_valid (h : Valid u) : toValid replacement u = u := by
  have : toValid replacement (u ++ []) = u ++ toValid replacement [] := toValid_append h
  rw [List.append_nil] at this
  rw [this]
  exact List.append_nil u

/-- With a replacement of characters the result is made of characters. -/
lemma valid_toValidFrom (h : Valid replacement) (invalid : Bool) (text : List UInt8) :
    Valid (toValidFrom replacement 0 invalid text) := by
  induction hn : text.length using Nat.strong_induction_on generalizing text invalid with
  | _ len ih =>
    subst hn
    cases text with
    | nil => exact valid_nil
    | cons b text =>
      cases hlen : runeLen (b :: text) with
      | none =>
        rw [toValidFrom_of_runeLen invalid hlen]
        have hrest := ih text.length (Nat.lt_succ_self _) true text rfl
        cases invalid with
        | true => exact hrest
        | false => exact (valid_append h).mpr hrest
      | some n =>
        obtain ⟨r, v, htext, hr, -⟩ := exists_rune hlen
        rw [htext] at ih ⊢
        rw [toValidFrom_rune_append hr, valid_rune_append hr]
        have hpos := List.length_pos_iff.mpr hr.ne_nil
        have hlt : v.length < (r ++ v).length := by
          rw [List.length_append]
          omega
        exact ih _ hlt false v rfl

end Utf8
