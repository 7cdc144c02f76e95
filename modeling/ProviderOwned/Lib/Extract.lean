import ProviderOwned.Lib.Text

/-!
# Formatted reading

Words and numbers read from the front of a text as formatted input streams read them: the blanks
before a field are skipped, a word ends at the next blank and a number at the first character that
is no digit. What was written as words with a blank behind each is read again; a text that is no
word is not.
-/

namespace Extract

open Text

variable {α β : Type}

abbrev Reader (α : Type) := StateT (List Char) Option α

/-- The first word of a text, empty where there is none. -/
def firstWord (text : List Char) : List Char :=
  (text.dropWhile isSpace).takeWhile fun c => !isSpace c

def word : Reader (List Char) := fun text =>
  if firstWord text = [] then none
  else some (firstWord text, (text.dropWhile isSpace).dropWhile fun c => !isSpace c)

/-- The next number below `limit`, a negative one modulo `limit`. -/
def number (limit : Nat) : Reader Nat := fun text =>
  let text := text.dropWhile isSpace
  let negative := text.head? = some '-'
  let text := if negative ∨ text.head? = some '+' then text.tail else text
  let digits := text.takeWhile Char.isDigit
  let value := Nat.ofDigitChars 10 digits 0
  if digits = [] ∨ limit ≤ value then none
  else some (if negative then (limit - value) % limit else value, text.dropWhile Char.isDigit)

/-- `count` values, one after the other. -/
def many (r : Reader α) : Nat → Reader (List α)
  | 0 => pure []
  | count + 1 => do
    let a ← r
    let rest ← many r count
    pure (a :: rest)

def Word (part : List Char) : Prop := part ≠ [] ∧ ∀ c ∈ part, isSpace c = false

def Blank (text : List Char) : Prop := ∀ c ∈ text, isSpace c

instance (part : List Char) : Decidable (Word part) :=
  @instDecidableAnd _ _ inferInstance (List.decidableBAll (isSpace · = false) part)

instance (text : List Char) : Decidable (Blank text) := List.decidableBAll (isSpace ·) text

/-- The reader gets the value from the part, with blanks before it, and leaves no more than blanks
of it. -/
def Reads (r : Reader α) (part : List Char) (a : α) : Prop :=
  ∀ lead rest, Blank lead → ∃ left, Blank left ∧ r (lead ++ part ++ rest) = some (a, left ++ rest)

/-- The reader gets nothing from the part. -/
def Fails (r : Reader α) (part : List Char) : Prop :=
  ∀ lead rest, Blank lead → r (lead ++ part ++ rest) = none

/-! ### Words -/

variable {r : Reader α} {k : α → Reader β} {part part' lead text rest : List Char} {a : α} {b : β}
  {sep : Char} {n limit : Nat}

lemma blank_nil : Blank [] := fun _ h => absurd h List.not_mem_nil

lemma dropWhile_lead (h : Blank lead) (text : List Char) :
    (lead ++ text).dropWhile isSpace = text.dropWhile isSpace := by
  induction lead with
  | nil => rfl
  | cons c lead ih =>
    obtain ⟨hc, hlead⟩ := List.forall_mem_cons.mp h
    rw [List.cons_append, List.dropWhile_cons_of_pos hc, ih hlead]

lemma Word.dropWhile (h : Word part) (rest : List Char) :
    (part ++ rest).dropWhile isSpace = part ++ rest := by
  cases part with
  | nil => exact absurd rfl h.1
  | cons c part =>
    have hc := h.2 c List.mem_cons_self
    rw [List.cons_append, List.dropWhile_cons_of_neg (by simp [hc])]

lemma reads_word (h : Word part) (hsep : isSpace sep) : Reads word (part ++ [sep]) part := by
  intro lead rest hlead
  have hdrop : (lead ++ (part ++ [sep]) ++ rest).dropWhile isSpace = part ++ sep :: rest := by
    rw [List.append_assoc, dropWhile_lead hlead, List.append_assoc, h.dropWhile]
    rfl
  have htake : (part ++ sep :: rest).takeWhile (fun c => !isSpace c) = part := by
    rw [List.takeWhile_append_of_pos (by simpa using h.2),
      List.takeWhile_cons_of_neg (by simp [hsep]), List.append_nil]
  have hrest : (part ++ sep :: rest).dropWhile (fun c => !isSpace c) = sep :: rest := by
    rw [List.dropWhile_append_of_pos (by simpa using h.2),
      List.dropWhile_cons_of_neg (by simp [hsep])]
  refine ⟨[sep], by simpa [Blank] using hsep, ?_⟩
  rw [word, firstWord, hdrop, htake, hrest, if_neg h.1]
  rfl

lemma word_spec (h : word text = some (part, rest)) : Word part := by
  rw [word] at h
  split_ifs at h with hne
  obtain ⟨rfl, -⟩ := Prod.mk.inj (Option.some.inj h)
  refine ⟨hne, fun c hc => ?_⟩
  simpa using List.mem_takeWhile_imp hc

/-- Where there is a word in front of a blank, a word is read. -/
lemma word_isSome (hlead : Blank lead) (h : ¬ Blank part) (rest : List Char) :
    ∃ w left, word (lead ++ part ++ rest) = some (w, left) := by
  have hdrop : part.dropWhile isSpace ≠ [] := by
    intro hnil
    exact h fun c hc => (List.dropWhile_eq_nil_iff.mp hnil) c hc
  obtain ⟨c, tail, hcons⟩ := List.exists_cons_of_ne_nil hdrop
  have hc : isSpace c = false := by
    have hhead := List.head?_dropWhile_not isSpace part
    rw [hcons] at hhead
    simpa using hhead
  have hne : firstWord (lead ++ part ++ rest) ≠ [] := by
    rw [firstWord, List.append_assoc, dropWhile_lead hlead, List.dropWhile_append, hcons]
    simp [hc]
  rw [word, if_neg hne]
  exact ⟨_, _, rfl⟩

lemma word_blank (h : Blank text) : word text = none := by
  have hdrop : text.dropWhile isSpace = [] := List.dropWhile_eq_nil_iff.mpr fun c hc => h c hc
  rw [word, if_pos]
  rw [firstWord, hdrop]
  rfl

/-! ### Numbers -/

lemma number_decimal (hlead : Blank lead) (hsep : isSpace sep) (rest : List Char) :
    number limit (lead ++ (decimal n ++ [sep]) ++ rest) =
      if limit ≤ n then none else some (n, sep :: rest) := by
  have hdigits : ∀ c ∈ decimal n, c.isDigit := fun c hc => isDigit_of_mem_decimal hc
  have hword : Word (decimal n) := ⟨decimal_ne_nil n, fun c hc => isSpace_of_isDigit (hdigits c hc)⟩
  have hsepDigit : sep.isDigit = false := by
    by_contra hdigit
    rw [isSpace_of_isDigit (by simpa using hdigit)] at hsep
    cases hsep
  have hdrop : (lead ++ (decimal n ++ [sep]) ++ rest).dropWhile isSpace =
      decimal n ++ sep :: rest := by
    rw [List.append_assoc, dropWhile_lead hlead, List.append_assoc, hword.dropWhile]
    rfl
  have hhead : ∀ c, (decimal n ++ sep :: rest).head? = some c → c.isDigit := by
    intro c hc
    obtain ⟨d, tail, hcons⟩ := List.exists_cons_of_ne_nil hword.1
    rw [hcons, List.cons_append, List.head?_cons, Option.some.injEq] at hc
    exact hdigits c (by rw [hcons, hc]; exact List.mem_cons_self)
  have hminus : (decimal n ++ sep :: rest).head? ≠ some '-' :=
    fun hc => absurd (hhead '-' hc) (by decide)
  have hplus : (decimal n ++ sep :: rest).head? ≠ some '+' :=
    fun hc => absurd (hhead '+' hc) (by decide)
  have htake : (decimal n ++ sep :: rest).takeWhile Char.isDigit = decimal n := by
    rw [List.takeWhile_append_of_pos hdigits, List.takeWhile_cons_of_neg (by simp [hsepDigit]),
      List.append_nil]
  have hrest : (decimal n ++ sep :: rest).dropWhile Char.isDigit = sep :: rest := by
    rw [List.dropWhile_append_of_pos hdigits, List.dropWhile_cons_of_neg (by simp [hsepDigit])]
  simp only [number, hdrop, hminus, hplus, or_self, if_false, htake, hrest, ofDigitChars_decimal,
    hword.1, false_or]

lemma reads_number (h : n < limit) (hsep : isSpace sep) :
    Reads (number limit) (decimal n ++ [sep]) n := by
  intro lead rest hlead
  refine ⟨[sep], by simpa [Blank] using hsep, ?_⟩
  rw [number_decimal hlead hsep, if_neg (Nat.not_le.mpr h)]
  rfl

lemma fails_number (h : limit ≤ n) (hsep : isSpace sep) :
    Fails (number limit) (decimal n ++ [sep]) := by
  intro lead rest hlead
  rw [number_decimal hlead hsep, if_pos h]

/-! ### One after the other -/

lemma reads_pure (a : α) : Reads (pure a) [] a := by
  intro lead rest hlead
  rw [List.append_nil]
  exact ⟨lead, hlead, rfl⟩

lemma Reads.bind (hr : Reads r part a) (hk : Reads (k a) part' b) :
    Reads (r >>= k) (part ++ part') b := by
  intro lead rest hlead
  obtain ⟨left, hleft, hread⟩ := hr lead (part' ++ rest) hlead
  obtain ⟨left', hleft', hnext⟩ := hk left rest hleft
  refine ⟨left', hleft', ?_⟩
  have hsplit : lead ++ (part ++ part') ++ rest = lead ++ part ++ (part' ++ rest) := by simp
  change (r (lead ++ (part ++ part') ++ rest)).bind (fun x => k x.1 x.2) = _
  rw [hsplit, hread, Option.bind_some, ← List.append_assoc]
  exact hnext

lemma Reads.bind_fails (hr : Reads r part a) (hk : Fails (k a) part') :
    Fails (r >>= k) (part ++ part') := by
  intro lead rest hlead
  obtain ⟨left, hleft, hread⟩ := hr lead (part' ++ rest) hlead
  have hsplit : lead ++ (part ++ part') ++ rest = lead ++ part ++ (part' ++ rest) := by simp
  change (r (lead ++ (part ++ part') ++ rest)).bind (fun x => k x.1 x.2) = _
  rw [hsplit, hread, Option.bind_some, ← List.append_assoc]
  exact hk left rest hleft

lemma Fails.bind (h : Fails r part) (part' : List Char) : Fails (r >>= k) (part ++ part') := by
  intro lead rest hlead
  have hsplit : lead ++ (part ++ part') ++ rest = lead ++ part ++ (part' ++ rest) := by simp
  change (r (lead ++ (part ++ part') ++ rest)).bind (fun x => k x.1 x.2) = _
  rw [hsplit, h lead _ hlead]
  rfl

lemma fails_failure (part : List Char) : Fails (failure : Reader α) part := fun _ _ _ => rfl

lemma Reads.map {f : α → β} (h : Reads r part a) :
    Reads (r >>= fun a => pure (f a)) part (f a) := by
  have hpure := h.bind (k := fun a => pure (f a)) (reads_pure (f a))
  rwa [List.append_nil] at hpure

lemma reads_many {f : β → List Char} {g : β → α} {l : List β} (h : ∀ b ∈ l, Reads r (f b) (g b)) :
    Reads (many r l.length) (l.flatMap f) (l.map g) := by
  induction l with
  | nil => exact reads_pure []
  | cons b l ih =>
    obtain ⟨hb, hl⟩ := List.forall_mem_cons.mp h
    rw [List.flatMap_cons]
    exact hb.bind (ih hl).map

lemma bind_some {x : β × List Char} (h : (r >>= k) text = some x) :
    ∃ a rest, r text = some (a, rest) ∧ k a rest = some x := by
  obtain ⟨⟨a, rest⟩, hr, hk⟩ := Option.bind_eq_some_iff.mp h
  exact ⟨a, rest, hr, hk⟩

lemma many_zero : many r 0 text = some ([], text) := rfl

lemma many_succ_isSome :
    (many r (n + 1) text).isSome ↔ ∃ a rest, r text = some (a, rest) ∧ (many r n rest).isSome := by
  constructor
  · intro h
    obtain ⟨x, hx⟩ := Option.isSome_iff_exists.mp h
    obtain ⟨a, next, ha, hx⟩ := bind_some hx
    obtain ⟨l, last, hl, -⟩ := bind_some hx
    exact ⟨a, next, ha, by rw [hl]; rfl⟩
  · rintro ⟨a, next, ha, hl⟩
    obtain ⟨x, hx⟩ := Option.isSome_iff_exists.mp hl
    have hread : many r (n + 1) text = some (a :: x.1, x.2) := by
      change (r text).bind _ = _
      rw [ha, Option.bind_some]
      change (many r n next).bind _ = _
      rw [hx]
      rfl
    rw [hread]
    rfl

/-- What a reader promises of its value holds of all the values it is used for. -/
lemma forall_mem_many {P : α → Prop} {l : List α}
    (hr : ∀ text a rest, r text = some (a, rest) → P a) (h : many r n text = some (l, rest)) :
    ∀ a ∈ l, P a := by
  induction n generalizing text l with
  | zero =>
    cases h
    exact fun a ha => absurd ha List.not_mem_nil
  | succ n ih =>
    obtain ⟨a, next, ha, h⟩ := bind_some h
    obtain ⟨l', last, hl, h⟩ := bind_some h
    cases h
    exact List.forall_mem_cons.mpr ⟨hr _ _ _ ha, ih hl⟩

end Extract
