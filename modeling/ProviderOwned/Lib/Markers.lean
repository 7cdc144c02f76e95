import Mathlib.Data.List.Infix
import Mathlib.Data.Nat.Find
import Mathlib.Tactic.Common

/-!
# Marked spans of a text

A span of a text runs from an opening marker to the first closing marker behind it, or to the end of
the text. `Marks.strip` is the text with its spans removed.

A reader that gets the text in pieces can show what no later piece takes back: all but the longest
end of it that may still begin the marker it looks for (`overlap`, `clear_of_overlap`). Where the
two markers begin with a letter that is nowhere else in them, no marker is cut at the border of
another one, and what is shown of a text up to a closing marker says nothing about what follows
(`Marks.strip_append_closing`).
-/

namespace Markers

variable {α : Type*} {pattern text before after e u v : List α} {c : α}

/-! ### Where a pattern begins -/

/-- No occurrence of the pattern in `e ++ v` begins in `e`. -/
def Clear (pattern e v : List α) : Prop := ∀ s, s ≠ [] → s <:+ e → ¬ pattern <+: s ++ v

@[simp] lemma clear_nil : Clear pattern [] v := by
  intro s hne hs
  exact absurd (List.suffix_nil.mp hs) hne

lemma clear_cons : Clear pattern (c :: e) v ↔ ¬ pattern <+: c :: e ++ v ∧ Clear pattern e v := by
  constructor
  · intro h
    refine ⟨h _ (List.cons_ne_nil c e) (List.suffix_refl _), fun s hne hs => ?_⟩
    exact h s hne (hs.trans (List.suffix_cons c e))
  · rintro ⟨hhead, htail⟩ s hne hs
    rcases List.suffix_cons_iff.mp hs with rfl | hs
    · exact hhead
    · exact htail s hne hs

lemma clear_append (h : Clear pattern e (pattern ++ v)) : Clear pattern e (pattern ++ u) := by
  intro s hs hsuf hpre
  rw [← List.append_assoc] at hpre
  have hlen : pattern.length ≤ (s ++ pattern).length := by simp
  have := List.prefix_of_prefix_length_le hpre (List.prefix_append _ u) hlen
  refine h s hs hsuf ?_
  rw [← List.append_assoc]
  exact this.trans (List.prefix_append _ v)

lemma suffix_append_cases {l : List α} (h : l <:+ u ++ v) :
    l <:+ v ∨ ∃ s, s ≠ [] ∧ s <:+ u ∧ l = s ++ v := by
  rcases List.suffix_or_suffix_of_suffix h (List.suffix_append u v) with h' | ⟨s, rfl⟩
  · exact .inl h'
  · by_cases hs : s = []
    · exact .inl (by rw [hs, List.nil_append])
    · obtain ⟨r, hr⟩ := h
      rw [← List.append_assoc, List.append_left_inj] at hr
      exact .inr ⟨s, hs, ⟨r, hr⟩, rfl⟩

/-- Letters that are not in the tail of a marker do not begin one in it. -/
lemma suffix_marker {tail l : List α} (hc : c ∉ tail) (h : c :: l <:+ c :: tail ++ v) :
    c :: l <:+ v ∨ c :: l = c :: tail ++ v := by
  rcases suffix_append_cases h with h | ⟨s, hs, hsuf, heq⟩
  · exact .inl h
  · rcases List.suffix_cons_iff.mp hsuf with rfl | hsuf
    · exact .inr heq
    · obtain ⟨d, s, rfl⟩ := List.exists_cons_of_ne_nil hs
      obtain rfl : c = d := List.head_eq_of_cons_eq heq
      exact absurd (hsuf.subset List.mem_cons_self) hc

/-- An occurrence does not reach over the border to another marker. -/
lemma prefix_of_prefix_append_marker {tail other : List α} (hc : c ∉ tail) (he : e ≠ [])
    (h : c :: tail <+: e ++ c :: other) : c :: tail <+: e := by
  rcases Nat.lt_or_ge e.length (c :: tail).length with hlt | hge
  · obtain ⟨r, hr⟩ := List.prefix_of_prefix_length_le (List.prefix_append e _) h hlt.le
    obtain ⟨d, e', rfl⟩ := List.exists_cons_of_ne_nil he
    rw [← hr, List.prefix_append_right_inj] at h
    have hne : r ≠ [] := by
      rintro rfl
      rw [List.append_nil] at hr
      exact absurd (congrArg List.length hr) hlt.ne
    obtain ⟨d', r', rfl⟩ := List.exists_cons_of_ne_nil hne
    obtain ⟨rfl, -⟩ := List.cons_prefix_cons.mp h
    rw [List.cons_append, List.cons.injEq] at hr
    exact absurd (hr.2 ▸ List.mem_append_right e' List.mem_cons_self) hc
  · exact List.prefix_of_prefix_length_le h (List.prefix_append e _) hge

/-! ### The markers of a span -/

/-- The two markers of a span. -/
structure Marks (α : Type*) where
  opening : List α
  closing : List α
  opening_ne_nil : opening ≠ []
  closing_ne_nil : closing ≠ []

namespace Marks

/-- The marker to look for, in a span or outside. -/
def marker (m : Marks α) (inside : Bool) : List α := if inside then m.closing else m.opening

/-- Both markers begin with a letter that is nowhere else in them, and neither begins with the other
one. -/
structure Apart (m : Marks α) (c : α) : Prop where
  opening : ∃ tail, m.opening = c :: tail ∧ c ∉ tail
  closing : ∃ tail, m.closing = c :: tail ∧ c ∉ tail
  opening_closing : ¬ m.opening <+: m.closing
  closing_opening : ¬ m.closing <+: m.opening

variable {m : Marks α} {inside : Bool}

lemma marker_ne_nil (m : Marks α) (inside : Bool) : m.marker inside ≠ [] := by
  cases inside with
  | true => exact m.closing_ne_nil
  | false => exact m.opening_ne_nil

lemma Apart.marker (h : m.Apart c) (inside : Bool) :
    ∃ tail, m.marker inside = c :: tail ∧ c ∉ tail := by
  cases inside with
  | true => exact h.closing
  | false => exact h.opening

/-- An occurrence of a marker does not reach over the border to another one. -/
lemma Apart.clear (h : m.Apart c) (inside other : Bool) (hclear : Clear (m.marker inside) e []) :
    Clear (m.marker inside) e (m.marker other ++ v) := by
  obtain ⟨tail, hmarker, hc⟩ := h.marker inside
  obtain ⟨tail', hother, -⟩ := h.marker other
  rw [hmarker] at hclear ⊢
  intro s hs hsuf hpre
  rw [hother, List.cons_append] at hpre
  refine hclear s hs hsuf ?_
  rw [List.append_nil]
  exact prefix_of_prefix_append_marker hc hs hpre

/-- No opening marker begins in a closing one. -/
lemma Apart.clear_closing (h : m.Apart c) : Clear m.opening m.closing v := by
  obtain ⟨tail, hopening, -⟩ := h.opening
  obtain ⟨tail', hclosing, hc⟩ := h.closing
  intro s hs hsuf hpre
  rw [hclosing] at hsuf
  rcases List.suffix_cons_iff.mp hsuf with rfl | hsuf
  · rw [← hclosing] at hpre
    rcases List.prefix_or_prefix_of_prefix hpre (List.prefix_append m.closing v) with h' | h'
    · exact h.opening_closing h'
    · exact h.closing_opening h'
  · obtain ⟨d, s, rfl⟩ := List.exists_cons_of_ne_nil hs
    rw [hopening] at hpre
    obtain ⟨rfl, -⟩ := List.cons_prefix_cons.mp hpre
    exact hc (hsuf.subset List.mem_cons_self)

/-- Behind a span's first closing marker and the opening marker that follows it, the closing markers
of the rest remain. -/
lemma Apart.forall_closing_iff (h : m.Apart c) (hclear : Clear m.closing before (m.closing ++ v)) :
    (∀ y, m.closing ++ y <:+ before ++ (m.closing ++ (m.opening ++ e)) → m.opening <+: y) ↔
      ∀ y, m.closing ++ y <:+ e → m.opening <+: y := by
  obtain ⟨tail, hclosing, hc⟩ := h.closing
  obtain ⟨tail', hopening, hc'⟩ := h.opening
  constructor
  · intro hall y hy
    refine hall y (hy.trans ?_)
    rw [← List.append_assoc, ← List.append_assoc]
    exact List.suffix_append _ e
  · intro hall y hy
    rcases suffix_append_cases hy with hy | ⟨s, hs, hsuf, heq⟩
    · rw [hclosing, List.cons_append, ← List.cons_append, List.cons_append] at hy
      rcases suffix_marker hc hy with hy | heq
      · rw [hopening] at hy
        rcases suffix_marker hc' hy with hy | heq
        · exact hall y (by rwa [hclosing])
        · -- a closing marker where the opening one stands
          rw [← hopening, ← List.cons_append, ← hclosing] at heq
          rcases List.prefix_or_prefix_of_prefix (List.prefix_append m.opening e)
            (heq ▸ List.prefix_append m.closing y) with h' | h'
          · exact absurd h' h.opening_closing
          · exact absurd h' h.closing_opening
      · obtain rfl :=
          List.append_cancel_left (show tail ++ y = tail ++ _ from (List.cons.inj heq).2)
        exact List.prefix_append m.opening e
    · exact absurd (heq ▸ List.prefix_append m.closing y) (clear_append hclear s hs hsuf)

end Marks

/-! ### The first occurrence -/

variable [DecidableEq α]

/-- What stands before and after the first occurrence of the pattern. -/
def cut (pattern : List α) : List α → Option (List α × List α)
  | [] => if pattern = [] then some ([], []) else none
  | c :: text =>
    if pattern <+: c :: text then some ([], (c :: text).drop pattern.length)
    else (cut pattern text).map (Prod.map (List.cons c) id)

/-- The text is taken apart at the first occurrence. -/
lemma cut_eq_some (hne : pattern ≠ []) (h : cut pattern text = some (before, after)) :
    text = before ++ (pattern ++ after) ∧ Clear pattern before (pattern ++ after) := by
  induction text generalizing before with
  | nil =>
    rw [cut, if_neg hne] at h
    cases h
  | cons c text ih =>
    rw [cut] at h
    split_ifs at h with hpre
    · obtain ⟨rest, hrest⟩ := hpre
      rw [← hrest, List.drop_left] at h
      cases h
      exact ⟨hrest.symm, clear_nil⟩
    · obtain ⟨⟨b, a⟩, hcut, heq⟩ := Option.map_eq_some_iff.mp h
      cases heq
      obtain ⟨htext, hclear⟩ := ih hcut
      refine ⟨congrArg (c :: ·) htext, clear_cons.mpr ⟨?_, hclear⟩⟩
      rw [List.cons_append, ← htext]
      exact hpre

/-- There is no occurrence at all. -/
lemma cut_eq_none (h : cut pattern text = none) : Clear pattern text [] := by
  induction text with
  | nil => exact clear_nil
  | cons c text ih =>
    rw [cut] at h
    split_ifs at h with hpre
    rw [Option.map_eq_none_iff] at h
    rw [clear_cons, List.append_nil]
    exact ⟨hpre, ih h⟩

lemma length_lt_of_cut (hne : pattern ≠ []) (h : cut pattern text = some (before, after)) :
    after.length < text.length := by
  obtain ⟨htext, -⟩ := cut_eq_some hne h
  have := List.length_pos_iff.mpr hne
  rw [htext]
  simp only [List.length_append]
  omega

/-! ### What may still begin the pattern -/

/-- The length of the longest proper start of the pattern that ends the text. -/
def overlap (pattern text : List α) : Nat :=
  Nat.findGreatest (fun n => pattern.take n <:+ text) (min (pattern.length - 1) text.length)

lemma take_overlap_suffix (pattern text : List α) :
    pattern.take (overlap pattern text) <:+ text := by
  unfold overlap
  exact Nat.findGreatest_spec (P := fun n => pattern.take n <:+ text) (Nat.zero_le _)
    (by simp)

lemma overlap_le (pattern text : List α) :
    overlap pattern text ≤ min (pattern.length - 1) text.length := Nat.findGreatest_le _

lemma overlap_lt (hne : pattern ≠ []) (text : List α) :
    overlap pattern text < pattern.length := by
  have := List.length_pos_iff.mpr hne
  have := overlap_le pattern text
  omega

lemma le_overlap {n : Nat} (hlt : n < pattern.length) (hs : pattern.take n <:+ text) :
    n ≤ overlap pattern text := by
  have hlen := hs.length_le
  rw [List.length_take] at hlen
  exact Nat.le_findGreatest (by omega) hs

/-- A text without the pattern splits into what no continuation takes into an occurrence and the
longest proper start of the pattern at its end. -/
lemma clear_of_overlap (h : Clear pattern text []) (hne : pattern ≠ []) :
    text = text.take (text.length - overlap pattern text) ++ pattern.take (overlap pattern text) ∧
      ∀ u, Clear pattern (text.take (text.length - overlap pattern text))
        (pattern.take (overlap pattern text) ++ u) := by
  have hsplit : text = text.take (text.length - overlap pattern text) ++
      pattern.take (overlap pattern text) := by
    obtain ⟨e, he⟩ := take_overlap_suffix pattern text
    have hlen : text.length - overlap pattern text = e.length := by
      have := overlap_lt hne text
      have := congrArg List.length he
      rw [List.length_append, List.length_take] at this
      omega
    rw [hlen]
    conv_lhs => rw [← he]
    rw [List.append_left_inj]
    conv_rhs => rw [← he]
    rw [List.take_left]
  refine ⟨hsplit, fun u s hs hsuf hpre => ?_⟩
  have hsuffix : s ++ pattern.take (overlap pattern text) <:+ text := by
    obtain ⟨r, hr⟩ := hsuf
    refine ⟨r, ?_⟩
    rw [← List.append_assoc, hr]
    exact hsplit.symm
  rw [← List.append_assoc] at hpre
  rcases Nat.lt_or_ge (s ++ pattern.take (overlap pattern text)).length pattern.length with
    hlt | hge
  · -- the text would end with a longer start of the pattern
    have htake := List.prefix_iff_eq_take.mp
      (List.prefix_of_prefix_length_le (List.prefix_append _ u) hpre hlt.le)
    have hle := le_overlap hlt (htake ▸ hsuffix)
    have hpos := List.length_pos_iff.mpr hs
    have := overlap_lt hne text
    rw [List.length_append, List.length_take] at hle
    omega
  · refine h _ (fun hnil => hs (List.append_eq_nil_iff.mp hnil).1) hsuffix ?_
    rw [List.append_nil]
    exact List.prefix_of_prefix_length_le hpre (List.prefix_append _ u) hge

/-! ### The text outside the spans -/

namespace Marks

/-- The text outside the spans, after `skip` more letters of a marker. -/
def stripFrom (m : Marks α) : Bool → Nat → List α → List α
  | _, _, [] => []
  | inside, skip + 1, _ :: text => m.stripFrom inside skip text
  | inside, 0, c :: text =>
    if m.marker inside <+: c :: text then
      m.stripFrom (!inside) ((m.marker inside).length - 1) text
    else if inside then m.stripFrom inside 0 text
    else c :: m.stripFrom inside 0 text

/-- The text outside the spans, where the text begins in a span or not. -/
def strip (m : Marks α) (inside : Bool) (text : List α) : List α := m.stripFrom inside 0 text

section

variable (m : Marks α) (inside : Bool)

lemma stripFrom_eq (n : Nat) (text : List α) :
    m.stripFrom inside n text = m.strip inside (text.drop n) := by
  induction n generalizing text with
  | zero => rfl
  | succ n ih =>
    cases text with
    | nil => rfl
    | cons c text => exact ih text

@[simp] lemma strip_nil : m.strip inside [] = [] := rfl

@[simp] lemma strip_marker (v : List α) :
    m.strip inside (m.marker inside ++ v) = m.strip (!inside) v := by
  obtain ⟨c, marker, hmarker⟩ := List.exists_cons_of_ne_nil (m.marker_ne_nil inside)
  have hpre : m.marker inside <+: c :: (marker ++ v) := ⟨v, by rw [hmarker, List.cons_append]⟩
  rw [hmarker, List.cons_append, strip, stripFrom, if_pos hpre, stripFrom_eq, hmarker,
    List.length_cons, Nat.add_sub_cancel, List.drop_left]

end

variable {m : Marks α} {inside : Bool}

/-- Up to where a marker begins, all is shown outside of spans and nothing inside. -/
lemma strip_append (inside : Bool) (h : Clear (m.marker inside) e v) :
    m.strip inside (e ++ v) = (if inside then [] else e) ++ m.strip inside v := by
  induction e with
  | nil => cases inside <;> rfl
  | cons c e ih =>
    obtain ⟨hpre, hclear⟩ := clear_cons.mp h
    rw [List.cons_append] at hpre ⊢
    rw [strip, stripFrom, if_neg hpre]
    cases inside with
    | true => exact ih hclear
    | false => exact congrArg (c :: ·) (ih hclear)

lemma strip_of_cut_some (h : cut (m.marker inside) text = some (before, after)) :
    m.strip inside text = (if inside then [] else before) ++ m.strip (!inside) after := by
  obtain ⟨rfl, hclear⟩ := cut_eq_some (m.marker_ne_nil inside) h
  rw [strip_append inside hclear, strip_marker]

lemma strip_of_cut_none (h : cut (m.marker inside) text = none) :
    m.strip inside text = if inside then [] else text := by
  have hclear := cut_eq_none h
  have := strip_append inside hclear
  rwa [List.append_nil, strip_nil, List.append_nil] at this

/-- A proper start of the opening marker is shown. -/
lemma strip_of_short (h : text <+: m.opening) (hne : text ≠ m.opening) :
    m.strip false text = text := by
  cases hcut : cut (m.marker false) text with
  | none => rw [strip_of_cut_none hcut, if_neg Bool.false_ne_true]
  | some split =>
    obtain ⟨htext, -⟩ := cut_eq_some (m.marker_ne_nil false) hcut
    have hlen : m.opening.length ≤ text.length := by
      rw [htext]
      simp only [marker, Bool.false_eq_true, if_false, List.length_append]
      omega
    exact absurd (h.eq_of_length_le hlen) hne

/-- Behind a closing marker the text goes on outside of spans, whatever stood before it. -/
lemma strip_append_closing (h : m.Apart c) (inside : Bool) (e v : List α) :
    m.strip inside (e ++ (m.closing ++ v)) =
      m.strip inside (e ++ m.closing) ++ m.strip false v := by
  induction hn : e.length using Nat.strong_induction_on generalizing e inside with
  | _ n ih =>
    subst hn
    cases hcut : cut (m.marker inside) e with
    | none =>
      have hclear := cut_eq_none hcut
      have hv := strip_append inside (h.clear inside true hclear (v := v))
      have hnil := strip_append inside (h.clear inside true hclear (v := []))
      change m.strip inside (e ++ (m.closing ++ v)) = _ ++ m.strip inside (m.closing ++ v) at hv
      change m.strip inside (e ++ (m.closing ++ [])) = _ ++ m.strip inside (m.closing ++ []) at hnil
      rw [List.append_nil] at hnil
      rw [hv, hnil]
      cases inside with
      | true =>
        have := m.strip_marker true v
        have hend := m.strip_marker true []
        simp only [marker, if_true, Bool.not_true, List.append_nil, strip_nil] at this hend
        simp [this, hend]
      | false =>
        have := strip_append false (h.clear_closing (v := v))
        have hend := strip_append false (h.clear_closing (v := []))
        simp only [List.append_nil, strip_nil] at hend
        simp [this, hend]
    | some split =>
      obtain ⟨before, after⟩ := split
      obtain ⟨rfl, hclear⟩ := cut_eq_some (m.marker_ne_nil inside) hcut
      have hlt := length_lt_of_cut (m.marker_ne_nil inside) hcut
      have hih := ih _ hlt (!inside) after rfl
      rw [List.append_assoc, List.append_assoc, List.append_assoc, List.append_assoc,
        strip_append inside (clear_append hclear), strip_append inside (clear_append hclear),
        strip_marker, strip_marker, hih, List.append_assoc]

/-- A span shows nothing up to a closing marker behind it just if every closing marker in it is
directly followed by an opening one. -/
lemma strip_true_eq_nil_iff (h : m.Apart c) (e : List α) :
    m.strip true (e ++ m.closing) = [] ↔ ∀ y, m.closing ++ y <:+ e → m.opening <+: y := by
  induction hn : e.length using Nat.strong_induction_on generalizing e with
  | _ n ih =>
    subst hn
    have hend : m.strip true m.closing = [] := by
      have := m.strip_marker true []
      rwa [List.append_nil] at this
    cases hcut : cut m.closing e with
    | none =>
      have hclear := cut_eq_none hcut
      have hv := strip_append true (h.clear true true hclear (v := []))
      change m.strip true (e ++ (m.closing ++ [])) = [] ++ m.strip true (m.closing ++ []) at hv
      rw [List.append_nil, List.nil_append, hend] at hv
      refine iff_of_true hv fun y hy => absurd (List.prefix_append m.closing (y ++ [])) ?_
      rw [← List.append_assoc]
      exact hclear _ (fun hnil => m.closing_ne_nil (List.append_eq_nil_iff.mp hnil).1) hy
    | some split =>
      obtain ⟨before, after⟩ := split
      have hlt := length_lt_of_cut m.closing_ne_nil hcut
      obtain ⟨rfl, hclear⟩ := cut_eq_some m.closing_ne_nil hcut
      have hshown : m.strip true (before ++ (m.closing ++ after) ++ m.closing) =
          m.strip false (after ++ m.closing) := by
        rw [List.append_assoc, List.append_assoc]
        have := strip_append (m := m) true (clear_append (u := after ++ m.closing) hclear)
        have hmarker := m.strip_marker true (after ++ m.closing)
        simp only [marker, if_true, List.nil_append, Bool.not_true] at this hmarker
        rw [this, hmarker]
      rw [hshown]
      by_cases hopening : m.opening <+: after
      · obtain ⟨rest, rfl⟩ := hopening
        have := m.strip_marker false (rest ++ m.closing)
        simp only [marker, Bool.false_eq_true, if_false, Bool.not_false] at this
        rw [List.append_assoc, this, h.forall_closing_iff hclear]
        simp only [List.length_append] at hlt
        exact ih rest.length (by simp only [List.length_append]; omega) rest rfl
      · refine iff_of_false ?_ fun hall => hopening (hall after ⟨before, rfl⟩)
        cases after with
        | nil =>
          have := strip_append false (h.clear_closing (v := []))
          rw [List.append_nil] at this
          rw [List.nil_append, this]
          exact fun hnil => m.closing_ne_nil (List.append_eq_nil_iff.mp hnil).1
        | cons d after =>
          obtain ⟨tail, hmarker, hc⟩ := h.opening
          obtain ⟨tail', hother, -⟩ := h.closing
          have hpre : ¬ m.opening <+: d :: (after ++ m.closing) := by
            intro hpre
            rw [hmarker, hother, ← List.cons_append] at hpre
            rw [hmarker] at hopening
            exact hopening (prefix_of_prefix_append_marker hc (List.cons_ne_nil d after) hpre)
          rw [List.cons_append, strip, stripFrom, marker, if_neg Bool.false_ne_true, if_neg hpre]
          exact List.cons_ne_nil _ _

end Marks

end Markers
