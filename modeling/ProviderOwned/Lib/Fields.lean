import ProviderOwned.Lib.Text

/-!
# Texts of named fields

A text of lines, each a key and a value with `=` between them. The lines are read one after another
into a value (`readFields`). What was written from a list of fields is read as that list
(`readFields_fieldsText`), and what every line keeps the value that is read has
(`readFields_invariant`).
-/

namespace Text

variable {α β : Type}

/-- The text of a list of keys with their values. -/
def fieldsText (fields : List (List Char × List Char)) : List Char :=
  joined '\n' (fields.map fun field => field.1 ++ '=' :: field.2)

/-- The fields a text may have: the key of each, and what its value does. -/
abbrev Setters (α : Type) := List (String × (α → List Char → Option α))

namespace Setters

/-- Sets a field, which has to be one of these. -/
def set (setters : Setters α) (a : α) (key value : List Char) : Option α :=
  (setters.find? (·.1.toList = key)).bind fun setter => setter.2 a value

/-- Sets a field if it is one of these. -/
def setKnown (setters : Setters α) (a : α) (key value : List Char) : Option α :=
  (setters.find? (·.1.toList = key)).elim (some a) fun setter => setter.2 a value

variable {setters : Setters α} {a b : α} {key : String} {f : α → List Char → Option α}
  {name value : List Char}

lemma find?_eq (hkeys : (setters.map Prod.fst).Nodup) (h : (key, f) ∈ setters) :
    setters.find? (·.1.toList = key.toList) = some (key, f) := by
  induction setters with
  | nil => cases h
  | cons setter setters ih =>
    obtain ⟨hnot, hkeys⟩ := List.nodup_cons.mp hkeys
    rcases List.mem_cons.mp h with rfl | h
    · rw [List.find?_cons_of_pos (by simp)]
    · rw [List.find?_cons_of_neg, ih hkeys h]
      rw [decide_eq_true_eq, String.toList_inj]
      rintro rfl
      exact hnot (List.mem_map.mpr ⟨_, h, rfl⟩)

/-- The field at a place of the list is set by its key. -/
lemma set_at (hkeys : (setters.map Prod.fst).Nodup) (n : Nat) (h : setters[n]? = some (key, f))
    (a : α) (value : List Char) : setters.set a key.toList value = f a value := by
  rw [set, find?_eq hkeys (List.mem_of_getElem? h)]
  rfl

lemma setKnown_at (hkeys : (setters.map Prod.fst).Nodup) (n : Nat) (h : setters[n]? = some (key, f))
    (a : α) (value : List Char) : setters.setKnown a key.toList value = f a value := by
  rw [setKnown, find?_eq hkeys (List.mem_of_getElem? h)]
  rfl

/-- A field that is set is one of these. -/
lemma set_cases (h : setters.set a name value = some b) :
    ∃ setter ∈ setters, setter.2 a value = some b := by
  obtain ⟨setter, hfind, hset⟩ := Option.bind_eq_some_iff.mp h
  exact ⟨setter, List.mem_of_find?_eq_some hfind, hset⟩

lemma setKnown_cases (h : setters.setKnown a name value = some b) :
    b = a ∨ ∃ setter ∈ setters, setter.2 a value = some b := by
  unfold setKnown at h
  cases hfind : setters.find? (·.1.toList = name) with
  | none =>
    rw [hfind] at h
    exact .inl (Option.some.inj h).symm
  | some setter =>
    rw [hfind] at h
    exact .inr ⟨setter, List.mem_of_find?_eq_some hfind, h⟩

end Setters

/-- One line of a text of fields, which has to have a `=`. -/
def readField (set : α → List Char → List Char → Option α) (a : α) (line : List Char) : Option α :=
  (cut '=' line).bind fun field => set a field.1 field.2

/-- Reads the lines of a text, each into what was read before. -/
def readFields (set : α → List Char → List Char → Option α) (a : α) (text : List Char) : Option α :=
  (pieces '\n' text).foldlM (readField set) a

variable {set : α → List Char → List Char → Option α} {a b : α} {sep c : Char}
  {text before after : List Char} {fields : List (List Char × List Char)}

/-- Fields that can be told apart in a text. -/
def PlainFields (fields : List (List Char × List Char)) : Prop :=
  ∀ field ∈ fields, '=' ∉ field.1 ∧ '\n' ∉ field.1 ∧ '\n' ∉ field.2

lemma readField_line (h : '=' ∉ before) :
    readField set a (before ++ '=' :: after) = set a before after := by
  rw [readField, cut_append h]
  rfl

/-- What was written is read field by field. -/
lemma readFields_fieldsText (h : PlainFields fields) :
    readFields set a (fieldsText fields) =
      fields.foldlM (fun a field => set a field.1 field.2) a := by
  have hpieces : pieces '\n' (fieldsText fields) =
      fields.map fun field => field.1 ++ '=' :: field.2 := by
    refine pieces_joined ?_ ?_
    · intro line hline
      obtain ⟨field, hfield, rfl⟩ := List.mem_map.mp hline
      obtain ⟨-, hkey, hvalue⟩ := h field hfield
      rw [List.mem_append, List.mem_cons, not_or, not_or]
      exact ⟨hkey, by decide, hvalue⟩
    · intro line hline
      obtain ⟨field, -, rfl⟩ := List.mem_map.mp hline
      exact List.append_ne_nil_of_right_ne_nil _ (List.cons_ne_nil _ _)
  rw [readFields, hpieces]
  clear hpieces
  induction fields generalizing a with
  | nil => rfl
  | cons field fields ih =>
    obtain ⟨hfield, hrest⟩ := List.forall_mem_cons.mp h
    rw [List.map_cons, List.foldlM_cons, List.foldlM_cons, readField_line hfield.1]
    refine bind_congr fun b => ?_
    exact ih hrest

lemma mem_of_cut (h : cut sep text = some (before, after)) :
    (c ∈ before → c ∈ text) ∧ (c ∈ after → c ∈ text) := by
  induction text generalizing before with
  | nil => cases h
  | cons d text ih =>
    rw [cut] at h
    split_ifs at h
    · obtain ⟨rfl, rfl⟩ := Prod.mk.inj (Option.some.inj h)
      exact ⟨fun hc => absurd hc List.not_mem_nil, List.mem_cons_of_mem _⟩
    · obtain ⟨⟨start, rest⟩, hcut, hpair⟩ := Option.map_eq_some_iff.mp h
      obtain ⟨rfl, rfl⟩ := Prod.mk.inj hpair
      obtain ⟨hbefore, hafter⟩ := ih hcut
      refine ⟨fun hc => ?_, fun hc => List.mem_cons_of_mem _ (hafter hc)⟩
      rcases List.mem_cons.mp hc with rfl | hc
      · exact List.mem_cons_self
      · exact List.mem_cons_of_mem _ (hbefore hc)

lemma plainFields_nil : PlainFields [] := fun _ h => absurd h List.not_mem_nil

lemma PlainFields.cons (h : PlainFields fields) (hkey : '=' ∉ before ∧ '\n' ∉ before)
    (hvalue : '\n' ∉ after) : PlainFields ((before, after) :: fields) :=
  List.forall_mem_cons.mpr ⟨⟨hkey.1, hkey.2, hvalue⟩, h⟩

lemma PlainFields.append {more : List (List Char × List Char)} (h : PlainFields fields)
    (hmore : PlainFields more) : PlainFields (fields ++ more) :=
  List.forall_mem_append.mpr ⟨h, hmore⟩

/-- A field that is written only where it is used. -/
def fieldIf (used : Bool) (key : String) (value : List Char) : List (List Char × List Char) :=
  if used then [(key.toList, value)] else []

lemma plainFields_fieldIf {used : Bool} {key : String} (hkey : '=' ∉ key.toList ∧ '\n' ∉ key.toList)
    (h : used → '\n' ∉ after) : PlainFields (fieldIf used key after) := by
  intro field hfield
  unfold fieldIf at hfield
  split_ifs at hfield with hused
  · rw [List.mem_singleton.mp hfield]
    exact ⟨hkey.1, hkey.2, h hused⟩
  · cases hfield

/-- A field that is left out changes nothing. -/
lemma foldlM_fieldIf (used : Bool) (key : String) :
    (fieldIf used key after).foldlM (fun a field => set a field.1 field.2) a =
      if used then set a key.toList after else some a := by
  unfold fieldIf
  split_ifs
  · exact bind_pure _
  · rfl

/-- What every line keeps, whatever its value, is so of what is read. No value has a line break. -/
lemma readFields_invariant {I : α → Prop} (hstart : I a)
    (hstep : ∀ a key value b, '\n' ∉ value → I a → set a key value = some b → I b)
    (h : readFields set a text = some b) : I b := by
  have hlines : ∀ line ∈ pieces '\n' text, '\n' ∉ line := fun line hline =>
    not_mem_of_mem_pieces hline
  rw [readFields] at h
  generalize pieces '\n' text = lines at h hlines
  induction lines generalizing a with
  | nil =>
    obtain rfl : a = b := Option.some.inj h
    exact hstart
  | cons line lines ih =>
    obtain ⟨hline, hrest⟩ := List.forall_mem_cons.mp hlines
    rw [List.foldlM_cons] at h
    obtain ⟨a', hread, h⟩ := Option.bind_eq_some_iff.mp h
    obtain ⟨⟨key, value⟩, hcut, hset⟩ := Option.bind_eq_some_iff.mp hread
    refine ih (hstep a key value a' (fun hmem => hline ?_) hstart hset) h hrest
    exact (mem_of_cut hcut).2 hmem

/-! ### A fixed number of parts -/

/-- The text cut at the first `count` separators, which have to be all. -/
def splitExactly (sep : Char) : Nat → List Char → Option (List (List Char))
  | 0, text => if (cut sep text).isSome then none else some [text]
  | count + 1, text =>
    (cut sep text).bind fun (before, after) => (splitExactly sep count after).map (before :: ·)

/-- Joined parts are found again, one more than the separators. -/
lemma splitExactly_joined {parts : List (List Char)} {count : Nat}
    (hlength : parts.length = count + 1)
    (h : ∀ part ∈ parts, sep ∉ part) : splitExactly sep count (joined sep parts) = some parts := by
  induction parts generalizing count with
  | nil => cases hlength
  | cons part parts ih =>
    obtain ⟨hpart, hparts⟩ := List.forall_mem_cons.mp h
    cases count with
    | zero =>
      obtain rfl := List.length_eq_zero_iff.mp (Nat.succ.inj hlength)
      simp [splitExactly, joined, cut_eq_none hpart]
    | succ count =>
      obtain ⟨next, rest, rfl⟩ := List.exists_cons_of_length_eq_add_one (Nat.succ.inj hlength)
      simp [splitExactly, joined, cut_append hpart, ih (Nat.succ.inj hlength) hparts]

/-- One field after another. -/
lemma foldlM_cons_some {f : α → β → Option α} {x : β} {l : List β} {a b c : α} (h : f a x = some b)
    (h' : l.foldlM f b = some c) : (x :: l).foldlM f a = some c := by
  rw [List.foldlM_cons, h]
  exact h'

/-- One list of fields after another. -/
lemma foldlM_append_some {f : α → β → Option α} {l l' : List β} {a b c : α}
    (h : l.foldlM f a = some b) (h' : l'.foldlM f b = some c) : (l ++ l').foldlM f a = some c := by
  rw [List.foldlM_append, h]
  exact h'

end Text
