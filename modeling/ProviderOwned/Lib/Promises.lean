import Mathlib.Logic.Function.Basic
import Mathlib.Tactic.Common
import Mathlib.Tactic.TypeStar

/-!
# Promises that are set once

Promises that many threads compete for. A promise is opened, entered under its key (if it has one),
accepted or rejected. A thread that wants to set it has to claim it first, which only one can; it
then has the promise in its hands until it has taken the entry out and set the promise.

A book says what the promises, the entries and the hands are. It is `Sound` when every promise that
is claimed and not set is in one thread's hands, none is set twice, and the entries are those of the
promises that are not claimed or run. Every operation keeps this; an entry is taken out by its key,
so withdrawing a promise has to find its own entry or none.
-/

namespace Promises

/-- How far a promise is: nobody claimed it, it was claimed to be run, the run is over, or it was
claimed to be given up. -/
inductive Status
  | queued | active | done | cancelled
  deriving DecidableEq

/-- How far the thread is that wants the promise. -/
inductive Stage
  | outside | entered | accepted | rejected
  deriving DecidableEq

/-- A promise, with the key it is entered under, and what it was set to: whether that came of a
run. -/
structure Promise (κ : Type*) where
  key : Option κ
  status : Status := .queued
  stage : Stage := .outside
  answers : List Bool := []

/-- A promise in the hands of a thread: whether its entry is still to be taken out, and how it was
claimed. -/
structure Hand (ι : Type*) where
  item : ι
  listed : Bool
  status : Status

/-- The promises `ι`, the entries by key `κ`, and what the threads `χ` have in their hands. -/
structure Book (ι κ χ : Type*) where
  promises : ι → Option (Promise κ)
  pending : κ → Option ι
  hand : χ → Option (Hand ι)

namespace Book

variable {ι κ χ : Type*}

/-- No promise is lost or set twice, and the entries are right. -/
structure Sound (b : Book ι κ χ) : Prop where
  exclusive : ∀ x y m n, b.hand x = some m → b.hand y = some n → m.item = n.item → x = y
  held : ∀ x m, b.hand x = some m → ∃ p, b.promises m.item = some p ∧ p.status = m.status ∧
    p.status ≠ .queued ∧ p.answers = [] ∧ (m.listed → p.stage = .accepted)
  awaited : ∀ i p, b.promises i = some p → p.status ≠ .queued → p.answers = [] →
    ∃ x m, b.hand x = some m ∧ m.item = i
  answers : ∀ i p, b.promises i = some p → p.answers = [] ∨
    p.status = .done ∧ p.answers = [true] ∨ p.status = .cancelled ∧ p.answers = [false]
  outside : ∀ i p, b.promises i = some p → p.stage = .outside → p.status = .queued
  entry : ∀ k i, b.pending k = some i → ∃ p, b.promises i = some p ∧ p.key = some k ∧
    p.answers = [] ∧ (p.stage = .entered ∨ p.stage = .accepted)
  own : ∀ i p k, b.promises i = some p → p.key = some k → p.stage = .entered ∨ p.stage = .accepted →
    p.status = .queued ∨ p.status = .active → b.pending k = some i
  listed : ∀ x m p k, b.hand x = some m → m.listed → b.promises m.item = some p → p.key = some k →
    b.pending k = some m.item
  unlisted : ∀ x m k, b.hand x = some m → m.listed = false → b.pending k ≠ some m.item

variable {b : Book ι κ χ} {i : ι} {x : χ} {p : Promise κ} {m : Hand ι}

def put [DecidableEq ι] (b : Book ι κ χ) (i : ι) (p : Promise κ) : Book ι κ χ :=
  { b with promises := fun j => if j = i then some p else b.promises j }

def list [DecidableEq κ] (b : Book ι κ χ) (key : Option κ) (i : ι) : Book ι κ χ :=
  { b with pending := fun k => if key = some k then some i else b.pending k }

/-- Takes the entry of a key out. -/
def unlist [DecidableEq κ] (b : Book ι κ χ) (key : Option κ) : Book ι κ χ :=
  { b with pending := fun k => if key = some k then none else b.pending k }

/-- Puts something into the hands of a thread. -/
def give [DecidableEq χ] (b : Book ι κ χ) (x : χ) (m : Option (Hand ι)) : Book ι κ χ :=
  { b with hand := fun y => if y = x then m else b.hand y }

lemma put_eq_self [DecidableEq ι] (h : b.promises i = some p) : b.put i p = b := by
  refine congrArg (fun q => Book.mk q b.pending b.hand) (funext fun j => ?_)
  by_cases hj : j = i <;> simp [hj, h]

lemma give_eq_self [DecidableEq χ] {m : Option (Hand ι)} (h : b.hand x = m) : b.give x m = b := by
  refine congrArg (Book.mk b.promises b.pending) (funext fun y => ?_)
  by_cases hy : y = x <;> simp [hy, h]

lemma list_none [DecidableEq κ] : b.list none i = b := by simp [list]

/-- A thread that keeps what it holds. -/
lemma Sound.give_self [DecidableEq χ] {m : Option (Hand ι)} (h : b.Sound) (hhand : b.hand x = m) :
    (b.give x m).Sound :=
  (give_eq_self hhand).symm ▸ h

/-- A book with nothing in it. -/
lemma sound_empty (hpromises : ∀ i, b.promises i = none) (hpending : ∀ k, b.pending k = none)
    (hhand : ∀ x, b.hand x = none) : b.Sound := by
  constructor <;> simp [hpromises, hpending, hhand]

/-- Opening a promise. -/
lemma Sound.opens [DecidableEq ι] (h : b.Sound) (hnew : b.promises i = none)
    (hstage : p.stage = .outside ∨ p.stage = .rejected) (hstatus : p.status = .queued)
    (hanswers : p.answers = []) : (b.put i p).Sound := by
  obtain ⟨hexclusive, hheld, hawaited, hans, hout, hentry, hown, hlisted, hunlisted⟩ := h
  constructor <;> simp only [put] <;> grind

/-- Entering a promise whose key has no entry. -/
lemma Sound.enter [DecidableEq ι] [DecidableEq κ] (h : b.Sound) (hp : b.promises i = some p)
    (hstage : p.stage = .outside) (hfree : ∀ k, p.key = some k → b.pending k = none) :
    ((b.put i { p with stage := .entered }).list p.key i).Sound := by
  obtain ⟨hexclusive, hheld, hawaited, hans, hout, hentry, hown, hlisted, hunlisted⟩ := h
  constructor <;> simp only [put, list] <;> grind

/-- A promise that was not entered is rejected. -/
lemma Sound.refuse [DecidableEq ι] (h : b.Sound) (hp : b.promises i = some p)
    (hstage : p.stage = .outside) : (b.put i { p with stage := .rejected }).Sound := by
  obtain ⟨hexclusive, hheld, hawaited, hans, hout, hentry, hown, hlisted, hunlisted⟩ := h
  constructor <;> simp only [put] <;> grind

/-- A promise is withdrawn, and finds its own entry or none. -/
lemma Sound.withdraw [DecidableEq ι] [DecidableEq κ] (h : b.Sound) (hp : b.promises i = some p)
    (hstage : p.stage = .entered) (hfind : ∀ k j, p.key = some k → b.pending k = some j → j = i) :
    ((b.put i { p with stage := .rejected }).unlist p.key).Sound := by
  obtain ⟨hexclusive, hheld, hawaited, hans, hout, hentry, hown, hlisted, hunlisted⟩ := h
  constructor <;> simp only [put, unlist] <;> grind

/-- A promise is accepted. -/
lemma Sound.accept [DecidableEq ι] (h : b.Sound) (hp : b.promises i = some p)
    (hstage : p.stage = .entered) : (b.put i { p with stage := .accepted }).Sound := by
  obtain ⟨hexclusive, hheld, hawaited, hans, hout, hentry, hown, hlisted, hunlisted⟩ := h
  constructor <;> simp only [put] <;> grind

/-- A thread with free hands claims a promise that was accepted. -/
lemma Sound.claim [DecidableEq ι] [DecidableEq χ] {status : Status} (h : b.Sound)
    (hp : b.promises i = some p) (hfree : b.hand x = none) (hqueued : p.status = .queued)
    (hstage : p.stage = .accepted) (hstatus : status ≠ .queued) :
    ((b.put i { p with status }).give x (some ⟨i, true, status⟩)).Sound := by
  obtain ⟨hexclusive, hheld, hawaited, hans, hout, hentry, hown, hlisted, hunlisted⟩ := h
  constructor
  case awaited =>
    intro j q hq hs ha
    by_cases hj : j = i
    · exact ⟨x, _, if_pos rfl, hj.symm⟩
    · obtain ⟨y, n, hn, hitem⟩ := hawaited j q ((if_neg hj).symm.trans hq) hs ha
      have hy : y ≠ x := fun hy => by simp [hy, hfree] at hn
      exact ⟨y, n, (if_neg hy).trans hn, hitem⟩
  all_goals
    simp only [put, give]
    grind

/-- A thread with free hands claims a promise that it found by its key, and takes the entry out. -/
lemma Sound.cancel [DecidableEq ι] [DecidableEq κ] [DecidableEq χ] {k : κ} (h : b.Sound)
    (hfound : b.pending k = some i) (hp : b.promises i = some p) (hfree : b.hand x = none)
    (hqueued : p.status = .queued) :
    (((b.put i { p with status := .cancelled }).unlist p.key).give x
      (some ⟨i, false, .cancelled⟩)).Sound := by
  obtain ⟨hexclusive, hheld, hawaited, hans, hout, hentry, hown, hlisted, hunlisted⟩ := h
  constructor
  case awaited =>
    intro j q hq hs ha
    by_cases hj : j = i
    · exact ⟨x, _, if_pos rfl, hj.symm⟩
    · obtain ⟨y, n, hn, hitem⟩ := hawaited j q ((if_neg hj).symm.trans hq) hs ha
      have hy : y ≠ x := fun hy => by simp [hy, hfree] at hn
      exact ⟨y, n, (if_neg hy).trans hn, hitem⟩
  all_goals
    simp only [put, unlist, give]
    grind

/-- A thread takes the entry of the promise in its hands out. -/
lemma Sound.unlist [DecidableEq κ] [DecidableEq χ] (h : b.Sound) (hm : b.hand x = some m)
    (hbefore : m.listed) (hp : b.promises m.item = some p) (hover : p.status ≠ .active) :
    ((b.unlist p.key).give x (some { m with listed := false })).Sound := by
  obtain ⟨hexclusive, hheld, hawaited, hans, hout, hentry, hown, hlisted, hunlisted⟩ := h
  constructor
  case awaited =>
    intro j q hq hs ha
    obtain ⟨y, n, hn, hitem⟩ := hawaited j q hq hs ha
    by_cases hy : y = x
    · subst hy
      obtain rfl := Option.some.inj (hm.symm.trans hn)
      exact ⟨y, _, if_pos rfl, hitem⟩
    · exact ⟨y, n, (if_neg hy).trans hn, hitem⟩
  all_goals
    simp only [Book.unlist, give]
    grind

/-- The run of a promise is over. -/
lemma Sound.finish [DecidableEq ι] [DecidableEq χ] (h : b.Sound) (hm : b.hand x = some m)
    (hp : b.promises m.item = some p) (hactive : m.status = .active) :
    ((b.put m.item { p with status := .done }).give x (some { m with status := .done })).Sound := by
  obtain ⟨hexclusive, hheld, hawaited, hans, hout, hentry, hown, hlisted, hunlisted⟩ := h
  constructor
  case awaited =>
    intro j q hq hs ha
    by_cases hj : j = m.item
    · exact ⟨x, _, if_pos rfl, hj.symm⟩
    · obtain ⟨y, n, hn, hitem⟩ := hawaited j q ((if_neg hj).symm.trans hq) hs ha
      have hy : y ≠ x := by
        rintro rfl
        obtain rfl := Option.some.inj (hm.symm.trans hn)
        exact hj hitem.symm
      exact ⟨y, n, (if_neg hy).trans hn, hitem⟩
  all_goals
    simp only [put, give]
    grind

/-- A thread sets the promise in its hands. -/
lemma Sound.set [DecidableEq ι] [DecidableEq χ] (h : b.Sound) (hm : b.hand x = some m)
    (hafter : m.listed = false) (hp : b.promises m.item = some p) (hover : m.status ≠ .active) :
    ((b.put m.item { p with answers := p.answers ++ [decide (m.status = .done)] }).give x
      none).Sound := by
  obtain ⟨hexclusive, hheld, hawaited, hans, hout, hentry, hown, hlisted, hunlisted⟩ := h
  constructor
  case awaited =>
    intro j q hq hs ha
    by_cases hj : j = m.item
    · obtain rfl := Option.some.inj ((if_pos hj).symm.trans hq)
      simp at ha
    · obtain ⟨y, n, hn, hitem⟩ := hawaited j q ((if_neg hj).symm.trans hq) hs ha
      have hy : y ≠ x := by
        rintro rfl
        obtain rfl := Option.some.inj (hm.symm.trans hn)
        exact hj hitem.symm
      exact ⟨y, n, (if_neg hy).trans hn, hitem⟩
  case answers =>
    intro j q hq
    by_cases hj : j = m.item
    · obtain rfl := Option.some.inj ((if_pos hj).symm.trans hq)
      obtain ⟨w, hw, hstatus, hqueued, hempty, -⟩ := hheld x m hm
      obtain rfl := Option.some.inj (hw.symm.trans hp)
      right
      -- the promise is over, by a run or without one
      cases hcase : m.status
      · exact absurd (hstatus.trans hcase) hqueued
      · exact absurd hcase hover
      · exact .inl ⟨hstatus.trans hcase, by simp [hempty]⟩
      · exact .inr ⟨hstatus.trans hcase, by simp [hempty]⟩
    · exact hans j q ((if_neg hj).symm.trans hq)
  all_goals
    simp only [put, give]
    grind

end Book

end Promises
