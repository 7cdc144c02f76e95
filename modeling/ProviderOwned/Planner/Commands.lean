import ProviderOwned.Planner.Prepare

/-!
# Rules for single commands

What an attempt has to meet that is a single command, for each command: what holds now, what may be
left where it is cut short, and what follows the answers it may have. A failure is only there if
there may be `trouble`.
-/

namespace ProviderOwned.Gguf

open Interrupted Spans
open Function (update)
open Sha256 (sha256)

variable {w : World} {trouble : Prop} {lost : Nat} {K : Disk → Prop} {E : String → Disk → Prop}
  {d : Disk}
  {path target : List Char}

lemma tries_ask {c : Command} {Q : c.Answer → Disk → Prop} (hK : K d)
    (htorn : ∀ t, World.Torn d c t → K t)
    (hlost : ∀ x t, World.Unnoticed lost d c x t → Q x t ∧ K t)
    (hexec : Q (w.exec d c).1 (w.exec d c).2 ∧ K (w.exec d c).2)
    (hfails : trouble → ∀ x t, World.Fails d c x t → Q x t ∧ K t) :
    Tries (w.machine trouble lost) Q E K (ask c) d := by
  refine tries_lift.mpr ⟨hK, htorn, fun x t hx => ?_⟩
  obtain hx | ⟨htrouble, hx⟩ | hx := hx
  · obtain ⟨rfl, rfl⟩ := Prod.mk.inj hx
    exact hexec
  · exact hfails htrouble x t hx
  · exact hlost x t hx

lemma tries_present {Q : Bool → Disk → Prop} (hK : K d) (h : Q (d path).isSome d) :
    Tries (w.machine trouble lost) Q E K (ask (.present path)) d :=
  tries_ask hK (fun _ ht => ht.elim) (fun _ _ hx => hx.elim) ⟨h, hK⟩ fun _ _ _ hx => hx.elim

lemma tries_remove {Q : Unit → Disk → Prop} (hK : K d) (hK' : K (update d path none))
    (h : Q () (update d path none)) : Tries (w.machine trouble lost) Q E K (ask (.remove path)) d :=
  tries_ask hK (fun _ ht => ht.elim) (fun _ _ hx => hx.elim) ⟨h, hK'⟩ fun _ _ _ hx => hx.elim

lemma tries_read {Q : Option (List UInt8) → Disk → Prop} (hK : K d) (h : Q (d path) d)
    (hfails : trouble → Q none d) : Tries (w.machine trouble lost) Q E K (ask (.read path)) d := by
  refine tries_ask hK (fun _ ht => ht.elim) (fun _ _ hx => hx.elim) ⟨h, hK⟩
    fun htrouble x t hx => ?_
  obtain ⟨rfl, rfl⟩ := hx
  exact ⟨hfails htrouble, hK⟩

/-- What `sha256_file_range` reads. -/
def spanOf (file : Option (List UInt8)) (span : Span) : Except String (List UInt8) :=
  match file with
  | none => .error "could not open artifact for SHA-256"
  | some data => if data.length < span.finish then .error "partial artifact range"
    else .ok (slice data span)

lemma tries_readSpan {span : Span} {Q : Except String (List UInt8) → Disk → Prop} (hK : K d)
    (h : Q (spanOf (d path) span) d) (hfails : trouble → ∀ error, Q (.error error) d) :
    Tries (w.machine trouble lost) Q E K (ask (.readSpan path span)) d := by
  have hexec : w.exec d (.readSpan path span) = (spanOf (d path) span, d) := by
    rw [World.exec]
    unfold spanOf
    cases d path with
    | none => rfl
    | some data =>
      dsimp only
      split_ifs <;> rfl
  refine tries_ask hK (fun _ ht => ht.elim) (fun _ _ hx => hx.elim) ?_ fun htrouble x t hx => ?_
  · rw [hexec]
    exact ⟨h, hK⟩
  · obtain ⟨⟨error, rfl⟩, rfl⟩ := hx
    exact ⟨hfails htrouble error, hK⟩

lemma tries_size {Q : Option Nat → Disk → Prop} (hK : K d) (h : Q ((d path).map List.length) d)
    (hfails : trouble → Q none d) : Tries (w.machine trouble lost) Q E K (ask (.size path)) d := by
  refine tries_ask hK (fun _ ht => ht.elim) (fun _ _ hx => hx.elim) ⟨h, hK⟩
    fun htrouble x t hx => ?_
  obtain ⟨rfl, rfl⟩ := hx
  exact ⟨hfails htrouble, hK⟩

lemma tries_makeParent {Q : Bool → Disk → Prop} (hK : K d) (h : Q true d)
    (hfails : trouble → Q false d) :
    Tries (w.machine trouble lost) Q E K (ask (.makeParent path)) d := by
  refine tries_ask hK (fun _ ht => ht.elim) (fun _ _ hx => hx.elim) ⟨h, hK⟩
    fun htrouble x t hx => ?_
  obtain ⟨rfl, rfl⟩ := hx
  exact ⟨hfails htrouble, hK⟩

lemma tries_space {Q : Option Nat → Disk → Prop} (hK : K d) (h : Q (some w.space) d)
    (hfails : trouble → ∀ x, Q x d) : Tries (w.machine trouble lost) Q E K (ask .space) d := by
  refine tries_ask hK (fun _ ht => ht.elim) (fun _ _ hx => hx.elim) ⟨h, hK⟩
    fun htrouble x t hx => ?_
  obtain rfl : t = d := hx
  exact ⟨hfails htrouble x, hK⟩

lemma tries_physicalSize {Q : Nat → Disk → Prop} (hK : K d)
    (h : Q ((d path).elim 0 w.physicalSize) d)
    (hfails : trouble → ∀ x, Q x d) :
    Tries (w.machine trouble lost) Q E K (ask (.physicalSize path)) d := by
  refine tries_ask hK (fun _ ht => ht.elim) (fun _ _ hx => hx.elim) ⟨h, hK⟩
    fun htrouble x t hx => ?_
  obtain rfl : t = d := hx
  exact ⟨hfails htrouble x, hK⟩

lemma tries_truncate {Q : Bool → Disk → Prop} (hK : K d) (hK' : K (update d path (some [])))
    (h : Q true (update d path (some []))) (hfails : trouble → Q false d) :
    Tries (w.machine trouble lost) Q E K (ask (.truncate path)) d := by
  refine tries_ask hK (fun _ ht => ht.elim) (fun _ _ hx => hx.elim) ⟨h, hK'⟩
    fun htrouble x t hx => ?_
  obtain ⟨rfl, rfl⟩ := hx
  exact ⟨hfails htrouble, hK⟩

lemma tries_fill {bytes : List UInt8} {Q : Bool → Disk → Prop} (hK : K d)
    (hK' : ∀ content, K (update d path (some content))) (h : Q true (update d path (some bytes)))
    (hfails : trouble → ∀ content, Q false (update d path (some content))) :
    Tries (w.machine trouble lost) Q E K (ask (.fill path bytes)) d := by
  refine tries_ask hK ?_ (fun _ _ hx => hx.elim) ⟨h, hK' _⟩ fun htrouble x t hx => ?_
  · rintro t ⟨n, rfl⟩
    exact hK' _
  · obtain ⟨rfl, n, rfl⟩ := hx
    exact ⟨hfails htrouble _, hK' _⟩

lemma tries_rename {data : List UInt8} {Q : Bool → Disk → Prop} (hdata : d path = some data)
    (hK : K d) (hK' : K (update (update d path none) target (some data)))
    (h : Q true (update (update d path none) target (some data))) (hfails : trouble → Q false d) :
    Tries (w.machine trouble lost) Q E K (ask (.rename path target)) d := by
  have hexec : w.exec d (.rename path target) =
      (true, update (update d path none) target (some data)) := by
    rw [World.exec, hdata]
  refine tries_ask hK (fun _ ht => ht.elim) (fun _ _ hx => hx.elim) ?_ fun htrouble x t hx => ?_
  · rw [hexec]
    exact ⟨h, hK'⟩
  · obtain ⟨rfl, rfl⟩ := hx
    exact ⟨hfails htrouble, hK⟩

lemma tries_create {size : Nat} {Q : Bool → Disk → Prop} (hnone : d path = none) (hK : K d)
    (hempty : K (update d path (some [])))
    (hK' : K (update d path (some (List.replicate size 0))))
    (h : Q true (update d path (some (List.replicate size 0))))
    (hfails : trouble → Q false d ∧ Q false (update d path (some []))) :
    Tries (w.machine trouble lost) Q E K (ask (.create path size)) d := by
  have hexec : w.exec d (.create path size) =
      (true, update d path (some (List.replicate size 0))) := by
    rw [World.exec, hnone]
  refine tries_ask hK ?_ (fun _ _ hx => hx.elim) ?_ fun htrouble x t hx => ?_
  · rintro t ⟨-, rfl⟩
    exact hempty
  · rw [hexec]
    exact ⟨h, hK'⟩
  · obtain ⟨rfl, rfl | ⟨-, rfl⟩⟩ := hx
    · exact ⟨(hfails htrouble).1, hK⟩
    · exact ⟨(hfails htrouble).2, hempty⟩

/-- A write that succeeds may have lost some last bytes. -/
lemma tries_write {start : Nat} {bytes data : List UInt8} {Q : Bool → Disk → Prop}
    (hdata : d path = some data) (hK : K d)
    (hK' : ∀ n, K (update d path (some (patch data start (bytes.take n)))))
    (h : ∀ n, bytes.length ≤ n + lost →
      Q true (update d path (some (patch data start (bytes.take n)))))
    (hfails : trouble →
      Q false d ∧ ∀ n, Q false (update d path (some (patch data start (bytes.take n))))) :
    Tries (w.machine trouble lost) Q E K (ask (.write path start bytes)) d := by
  have hexec : w.exec d (.write path start bytes) =
      (true, update d path (some (patch data start (bytes.take bytes.length)))) := by
    rw [World.exec, hdata, List.take_length]
  refine tries_ask hK ?_ ?_ ?_ fun htrouble x t hx => ?_
  · rintro t ⟨data', n, hdata', rfl⟩
    obtain rfl := Option.some.inj (hdata.symm.trans hdata')
    exact hK' n
  · rintro x t ⟨rfl, data', n, hdata', hn, rfl⟩
    obtain rfl := Option.some.inj (hdata.symm.trans hdata')
    exact ⟨h n hn, hK' n⟩
  · rw [hexec]
    exact ⟨h _ (Nat.le_add_right _ _), hK' _⟩
  · obtain ⟨rfl, rfl | ⟨data', n, hdata', rfl⟩⟩ := hx
    · exact ⟨(hfails htrouble).1, hK⟩
    · obtain rfl := Option.some.inj (hdata.symm.trans hdata')
      exact ⟨(hfails htrouble).2 n, hK' n⟩

lemma tries_fetch {source : RangeModelRequest.Source} {span : Span}
    {Q : Except String Nat → Disk → Prop} (hK : K d)
    (hK' : ∀ content headers, K (update (update d (headersPath path) headers) path content))
    (h : span.finish ≤ (w.remote source).length → Q (.ok (w.remote source).length)
      (update (update d (headersPath path) none) path (some (slice (w.remote source) span))))
    (hfails : ∀ error content headers, trouble ∨ (w.remote source).length < span.finish →
      Q (.error error) (update (update d (headersPath path) headers) path content)) :
    Tries (w.machine trouble lost) Q E K (ask (.fetch source span path)) d := by
  refine tries_ask hK ?_ (fun _ _ hx => hx.elim) ?_ fun htrouble x t hx => ?_
  · rintro t ⟨content, headers, rfl⟩
    exact hK' content headers
  · unfold World.exec
    dsimp only
    split_ifs with hshort
    · exact ⟨hfails _ _ _ (.inr hshort), hK' _ _⟩
    · exact ⟨h (Nat.not_lt.mp hshort), hK' _ _⟩
  · obtain ⟨⟨error, rfl⟩, content, headers, rfl⟩ := hx
    exact ⟨hfails _ _ _ (.inl htrouble), hK' _ _⟩

lemma tries_require {c : Prop} [Decidable c] {error : String} {Q : Unit → Disk → Prop} (hK : K d)
    (h : c → Q () d) (hfails : ¬ c → E error d) :
    Tries (w.machine trouble lost) Q E K (require c error) d := by
  unfold require
  split_ifs with hc
  · exact ⟨h hc, hK⟩
  · exact ⟨hfails hc, hK⟩

lemma tries_requireOr {c : Prop} [Decidable c] {error : String} {cleanup : Action Unit}
    {Q : Unit → Disk → Prop} (hK : K d) (h : c → Q () d)
    (hfails : ¬ c → Tries (w.machine trouble lost) (fun _ t => E error t) E K cleanup d) :
    Tries (w.machine trouble lost) Q E K (requireOr c error cleanup) d := by
  unfold requireOr
  split_ifs with hc
  · exact ⟨h hc, hK⟩
  · exact tries_bind.mpr ((hfails hc).mono (fun _ _ hK' h' => ⟨h', hK'⟩) (fun _ _ _ h' => h')
      fun _ h' => h')

lemma tries_fromExcept {α : Type} {x : Except String α} {Q : α → Disk → Prop} (hK : K d)
    (h : Either Q E x d) : Tries (w.machine trouble lost) Q E K (fromExcept x) d := by
  cases x with
  | ok a => exact ⟨h, hK⟩
  | error error => exact ⟨h, hK⟩

end ProviderOwned.Gguf
