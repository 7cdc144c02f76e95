import ProviderOwned.Lib.Fields
import ProviderOwned.Planner.Model
import ProviderOwned.Wire.Address
import ProviderOwned.Worker.Lease

/-!
# Texts of the control plane

The stage request of `lease.hpp`, the assignment of `formation.hpp` and the route of `route.hpp`.
Each is written as lines of named fields, where a field that is not used is left out, and read by a
loop over the lines with one check at the end. What is read passes the check, and what passes the
check is read back from its text.
-/

namespace ProviderOwned

open Text
open Planner (fromChars fromChars_toDigits fromChars_bounds)

/-- `std::to_string` of an `int`. -/
def intText (value : Int) : List Char :=
  if value < 0 then '-' :: decimal value.natAbs else decimal value.toNat

/-- What `std::from_chars` reads as the number it was written from. -/
lemma fromChars_intText {value : Int} (h : 0 ≤ value) (hlt : value < 2 ^ 31) :
    fromChars (intText value) = some value := by
  obtain ⟨n, rfl⟩ := Int.eq_ofNat_of_zero_le h
  rw [intText, if_neg (by omega), Int.toNat_natCast]
  exact fromChars_toDigits (by omega)

lemma not_mem_intText {sep : Char} (h : sep.isDigit = false) (hsep : sep ≠ '-') (value : Int) :
    sep ∉ intText value := by
  unfold intText
  split_ifs
  · rw [List.mem_cons, not_or]
    exact ⟨hsep, not_mem_decimal h _⟩
  · exact not_mem_decimal h _

lemma not_mem_of_hexString {value : List Char} {length : Nat} {c : Char}
    (h : Address.hexString value length) (hc : c ∉ hexDigits) : c ∉ value :=
  fun hmem => hc (mem_hexDigits h hmem)

/-- An address has no line break. -/
lemma not_mem_of_validRingTarget {value : List Char} (h : validRingTarget value) :
    '\n' ∉ value := by
  intro hmem
  rw [validRingTarget, Bool.or_eq_true] at h
  rcases h with h | h
  · rw [validEndpoint, Bool.or_eq_true] at h
    rcases h with h | h
    · rw [List.isEmpty_iff.mp h] at hmem
      cases hmem
    · split at h
      · cases h
      · simp only [Bool.and_eq_true, List.all_eq_true] at h
        exact absurd (h.1.2 '\n' hmem) (by decide)
  · simp only [Bool.and_eq_true, List.all_eq_true] at h
    exact absurd (h.1.2 '\n' hmem) (by decide)

/-! ### Stage requests -/

namespace StageRequest

/-- `stage_request_message`. -/
def fields (r : StageRequest) : List (List Char × List Char) :=
  [("route_id".toList, r.routeId.toList), ("model_sha256".toList, r.modelSha256.toList),
    ("begin".toList, intText r.beginLayer), ("end".toList, intText r.endLayer),
    ("context".toList, decimal r.context), ("sessions".toList, decimal r.sessions)] ++
  fieldIf (r.leaseMs ≠ 0) "lease_ms" (decimal r.leaseMs) ++
  fieldIf (!r.draftSha256.isEmpty) "draft_sha256" r.draftSha256.toList ++
  fieldIf (r.activations = .f16le) "activations" "f16".toList ++
  fieldIf (r.activations = .fp8e4m3) "activations" "fp8".toList

/-- The lines of `parse_stage_request`. -/
def setters : Setters StageRequest :=
  [("route_id", fun r value => some { r with routeId := String.ofList value }),
    ("model_sha256", fun r value => some { r with modelSha256 := String.ofList value }),
    ("begin", fun r value => (fromChars value).map ({ r with beginLayer := · })),
    ("end", fun r value => (fromChars value).map ({ r with endLayer := · })),
    ("context", fun r value => (fromDecimal (2 ^ 32) value).map ({ r with context := · })),
    ("sessions", fun r value => (fromDecimal (2 ^ 32) value).map ({ r with sessions := · })),
    ("lease_ms", fun r value => (fromDecimal (2 ^ 32) value).map ({ r with leaseMs := · })),
    ("draft_sha256", fun r value => some { r with draftSha256 := String.ofList value }),
    ("activations", fun r value =>
      if value = "f16".toList then some { r with activations := .f16le }
      else if value = "fp8".toList then some { r with activations := .fp8e4m3 }
      else if value = "f32".toList then some { r with activations := .f32le }
      else none)]

structure Typed (r : StageRequest) : Prop where
  layers : r.beginLayer < 2 ^ 31 ∧ r.endLayer < 2 ^ 31
  context : r.context < 2 ^ 32
  sessions : r.sessions < 2 ^ 32
  leaseMs : r.leaseMs < 2 ^ 32

end StageRequest

def stageRequestMessage (r : StageRequest) : List Char := fieldsText r.fields

def parseStageRequest (text : List Char) : Option StageRequest :=
  (readFields StageRequest.setters.set {} text).filter StageRequest.valid

namespace StageRequest

/-- The request as the worker gets it: a format that is none is not said, and is `f32`. -/
def sent (r : StageRequest) : StageRequest :=
  { r with activations := if r.activations = .none then .f32le else r.activations }

/-- What the check at the end says, of the characters. -/
lemma valid_iff {r : StageRequest} :
    r.valid ↔ Address.hexString r.routeId.toList 32 ∧ Address.hexString r.modelSha256.toList 64 ∧
      0 ≤ r.beginLayer ∧ r.beginLayer < r.endLayer ∧ r.context ≠ 0 ∧ r.sessions ≠ 0 ∧
      r.leaseMs ≤ maxLeaseMs ∧
      (r.draftSha256 = "" ∨ Address.hexString r.draftSha256.toList 64) := by
  have hhex : ∀ value length, hexString value length = Address.hexString value.toList length :=
    fun _ _ => rfl
  simp only [valid, hhex, Bool.and_eq_true, Bool.or_eq_true, decide_eq_true_eq, String.isEmpty_iff,
    and_assoc]

lemma plain_fields {r : StageRequest} (h : r.valid) : PlainFields r.fields := by
  obtain ⟨hroute, hmodel, -, -, -, -, -, hdraft⟩ := valid_iff.mp h
  have hint : ∀ value, '\n' ∉ intText value := not_mem_intText (by decide) (by decide)
  have hnumber : ∀ n, '\n' ∉ decimal n := not_mem_decimal (by decide)
  unfold fields
  refine PlainFields.append
    (PlainFields.append (PlainFields.append (PlainFields.append ?_ ?_) ?_) ?_) ?_
  · refine ((((((plainFields_nil.cons ?_ (hnumber _)).cons ?_ (hnumber _)).cons ?_ (hint _)).cons ?_
      (hint _)).cons ?_ (not_mem_of_hexString hmodel (by decide))).cons ?_
      (not_mem_of_hexString hroute (by decide)))
    all_goals decide
  · exact plainFields_fieldIf (by decide) fun _ => hnumber _
  · refine plainFields_fieldIf (by decide) fun hused => ?_
    rcases hdraft with hempty | hhex
    · simp [hempty] at hused
    · exact not_mem_of_hexString hhex (by decide)
  · exact plainFields_fieldIf (by decide) fun _ => by decide
  · exact plainFields_fieldIf (by decide) fun _ => by decide

lemma setters_keys : (setters.map Prod.fst).Nodup := by decide

/-- The fields of a request that is valid are read into it. -/
lemma foldlM_fields {r : StageRequest} (h : r.valid) (htyped : r.Typed) :
    r.fields.foldlM (fun a field => setters.set a field.1 field.2) {} = some r.sent := by
  obtain ⟨-, -, hbegin', hend', -⟩ := valid_iff.mp h
  have hroute (a : StageRequest) : setters.set a "route_id".toList r.routeId.toList =
      some { a with routeId := r.routeId } := by
    rw [Setters.set_at setters_keys 0 rfl, String.ofList_toList]
  have hmodel (a : StageRequest) : setters.set a "model_sha256".toList r.modelSha256.toList =
      some { a with modelSha256 := r.modelSha256 } := by
    rw [Setters.set_at setters_keys 1 rfl, String.ofList_toList]
  have hbegin (a : StageRequest) : setters.set a "begin".toList (intText r.beginLayer) =
      some { a with beginLayer := r.beginLayer } := by
    rw [Setters.set_at setters_keys 2 rfl, fromChars_intText hbegin' htyped.layers.1,
      Option.map_some]
  have hend (a : StageRequest) : setters.set a "end".toList (intText r.endLayer) =
      some { a with endLayer := r.endLayer } := by
    rw [Setters.set_at setters_keys 3 rfl,
      fromChars_intText (hbegin'.trans hend'.le) htyped.layers.2, Option.map_some]
  have hcontext (a : StageRequest) : setters.set a "context".toList (decimal r.context) =
      some { a with context := r.context } := by
    rw [Setters.set_at setters_keys 4 rfl, fromDecimal_decimal htyped.context, Option.map_some]
  have hsessions (a : StageRequest) : setters.set a "sessions".toList (decimal r.sessions) =
      some { a with sessions := r.sessions } := by
    rw [Setters.set_at setters_keys 5 rfl, fromDecimal_decimal htyped.sessions, Option.map_some]
  have hlease (a : StageRequest) : setters.set a "lease_ms".toList (decimal r.leaseMs) =
      some { a with leaseMs := r.leaseMs } := by
    rw [Setters.set_at setters_keys 6 rfl, fromDecimal_decimal htyped.leaseMs, Option.map_some]
  have hdraft (a : StageRequest) : setters.set a "draft_sha256".toList r.draftSha256.toList =
      some { a with draftSha256 := r.draftSha256 } := by
    rw [Setters.set_at setters_keys 7 rfl, String.ofList_toList]
  have hf16 (a : StageRequest) : setters.set a "activations".toList "f16".toList =
      some { a with activations := .f16le } := by
    rw [Setters.set_at setters_keys 8 rfl, if_pos rfl]
  have hfp8 (a : StageRequest) : setters.set a "activations".toList "fp8".toList =
      some { a with activations := .fp8e4m3 } := by
    rw [Setters.set_at setters_keys 8 rfl, if_neg (by decide), if_pos rfl]
  simp only [fields, List.foldlM_append, List.foldlM_cons, List.foldlM_nil, foldlM_fieldIf, hroute,
    hmodel, hbegin, hend, hcontext, hsessions, hlease, hdraft, hf16, hfp8, Option.bind_eq_bind,
    Option.bind_some, Option.pure_def]
  obtain ⟨route, model, first, last, context, sessions, lease, draft, activations⟩ := r
  -- a field that is left out has the value it starts with
  by_cases hnoLease : lease = 0
  all_goals by_cases hnoDraft : draft = ""
  all_goals cases activations
  all_goals simp [hnoLease, hnoDraft, sent]

lemma typed_of_set {r r' : StageRequest} {key value : List Char} (h : r.Typed)
    (hformat : r.activations ≠ .none) (hset : setters.set r key value = some r') :
    r'.Typed ∧ r'.activations ≠ .none := by
  obtain ⟨hlayers, hcontext, hsessions, hlease⟩ := h
  obtain ⟨setter, hmem, hset⟩ := Setters.set_cases hset
  simp only [setters, List.mem_cons, List.not_mem_nil, or_false] at hmem
  rcases hmem with rfl | rfl | rfl | rfl | rfl | rfl | rfl | rfl | rfl
  · cases hset
    exact ⟨⟨hlayers, hcontext, hsessions, hlease⟩, hformat⟩
  · cases hset
    exact ⟨⟨hlayers, hcontext, hsessions, hlease⟩, hformat⟩
  · obtain ⟨n, hn, rfl⟩ := Option.map_eq_some_iff.mp hset
    exact ⟨⟨⟨(fromChars_bounds hn).2, hlayers.2⟩, hcontext, hsessions, hlease⟩, hformat⟩
  · obtain ⟨n, hn, rfl⟩ := Option.map_eq_some_iff.mp hset
    exact ⟨⟨⟨hlayers.1, (fromChars_bounds hn).2⟩, hcontext, hsessions, hlease⟩, hformat⟩
  · obtain ⟨n, hn, rfl⟩ := Option.map_eq_some_iff.mp hset
    exact ⟨⟨hlayers, lt_of_fromDecimal hn, hsessions, hlease⟩, hformat⟩
  · obtain ⟨n, hn, rfl⟩ := Option.map_eq_some_iff.mp hset
    exact ⟨⟨hlayers, hcontext, lt_of_fromDecimal hn, hlease⟩, hformat⟩
  · obtain ⟨n, hn, rfl⟩ := Option.map_eq_some_iff.mp hset
    exact ⟨⟨hlayers, hcontext, hsessions, lt_of_fromDecimal hn⟩, hformat⟩
  · cases hset
    exact ⟨⟨hlayers, hcontext, hsessions, hlease⟩, hformat⟩
  · dsimp only at hset
    split_ifs at hset
    all_goals
      cases hset
      exact ⟨⟨hlayers, hcontext, hsessions, hlease⟩, by simp⟩

/-- A request that is read has values of its types, and a format. -/
lemma typed_of_readFields {text : List Char} {r : StageRequest}
    (h : readFields setters.set {} text = some r) : r.Typed ∧ r.activations ≠ .none := by
  have hzero : (0 : Int) < 2 ^ 31 := Int.pow_pos (by decide)
  have hstart : StageRequest.Typed {} :=
    ⟨⟨hzero, hzero⟩, Nat.two_pow_pos 32, Nat.two_pow_pos 32, Nat.two_pow_pos 32⟩
  refine readFields_invariant (I := fun r => r.Typed ∧ r.activations ≠ .none)
    ⟨hstart, by decide⟩ ?_ h
  exact fun r key value r' _ hr hset => typed_of_set hr.1 hr.2 hset

end StageRequest

/-! ### Assignments -/

structure ModelAssignment where
  modelId : List Char := []
  url : List Char := []
  revision : List Char := []
  sha256 : List Char := []
  beginLayer : Int := 0
  endLayer : Int := 0
  context : UInt32 := 0
  sessions : UInt32 := 0
  nextEndpoint : List Char := []
  previousPeerId : List Char := []
  deriving DecidableEq, Repr

namespace ModelAssignment

/-- `assignment_message`. -/
def fields (a : ModelAssignment) : List (List Char × List Char) :=
  [("model_id".toList, a.modelId), ("url".toList, a.url), ("revision".toList, a.revision),
    ("sha256".toList, a.sha256), ("begin".toList, intText a.beginLayer),
    ("end".toList, intText a.endLayer), ("context".toList, decimal a.context.toNat),
    ("sessions".toList, decimal a.sessions.toNat)] ++
  fieldIf (!a.nextEndpoint.isEmpty) "next" a.nextEndpoint ++
  fieldIf (!a.previousPeerId.isEmpty) "previous_peer" a.previousPeerId

/-- The lines of `parse_assignment`. -/
def setters : Setters ModelAssignment :=
  [("model_id", fun a value => some { a with modelId := value }),
    ("url", fun a value => some { a with url := value }),
    ("revision", fun a value => some { a with revision := value }),
    ("sha256", fun a value => some { a with sha256 := value }),
    ("begin", fun a value => (fromChars value).map ({ a with beginLayer := · })),
    ("end", fun a value => (fromChars value).map ({ a with endLayer := · })),
    ("context", fun a value =>
      (fromDecimal (2 ^ 32) value).map ({ a with context := UInt32.ofNat · })),
    ("sessions", fun a value =>
      (fromDecimal (2 ^ 32) value).map ({ a with sessions := UInt32.ofNat · })),
    ("next", fun a value => some { a with nextEndpoint := value }),
    ("previous_peer", fun a value => some { a with previousPeerId := value })]

def idChar (c : Char) : Bool :=
  ('a' ≤ c && c ≤ 'z') || ('A' ≤ c && c ≤ 'Z') || ('0' ≤ c && c ≤ '9') || c = '-' || c = '_' ||
    c = '.'

/-- What `parse_assignment` accepts once every line is read. -/
def valid (a : ModelAssignment) : Bool :=
  !a.modelId.isEmpty && a.modelId.all idChar && "https://".toList.isPrefixOf a.url &&
    a.url.all (fun c => c ≠ '\r' && c ≠ '\n') && Address.hexString a.revision 40 &&
    Address.hexString a.sha256 64 && 0 ≤ a.beginLayer && a.beginLayer < a.endLayer &&
    a.context ≠ 0 && a.sessions ≠ 0 && validRingTarget a.nextEndpoint &&
    (a.previousPeerId.isEmpty || (!a.nextEndpoint.isEmpty && validPeerId a.previousPeerId))

end ModelAssignment

def assignmentMessage (a : ModelAssignment) : List Char := fieldsText a.fields

def parseAssignment (text : List Char) : Option ModelAssignment :=
  (readFields ModelAssignment.setters.set {} text).filter ModelAssignment.valid

namespace ModelAssignment

variable {a : ModelAssignment}

lemma plain_fields (h : a.valid) : PlainFields a.fields := by
  simp only [valid, Bool.and_eq_true, Bool.or_eq_true, List.all_eq_true, decide_eq_true_eq,
    List.isEmpty_iff, and_assoc] at h
  obtain ⟨-, hid, -, hurl, hrevision, hsha, -, -, -, -, hnext, hprevious⟩ := h
  have hint : ∀ value, '\n' ∉ intText value := not_mem_intText (by decide) (by decide)
  have hnumber : ∀ n, '\n' ∉ decimal n := not_mem_decimal (by decide)
  have hidText : '\n' ∉ a.modelId := fun hmem => absurd (hid '\n' hmem) (by decide)
  have hurlText : '\n' ∉ a.url := fun hmem => (hurl '\n' hmem).2 rfl
  unfold fields
  refine PlainFields.append (PlainFields.append ?_ ?_) ?_
  · refine ((((((((plainFields_nil.cons ?_ (hnumber _)).cons ?_ (hnumber _)).cons ?_
      (hint _)).cons ?_
      (hint _)).cons ?_ (not_mem_of_hexString hsha (by decide))).cons ?_
      (not_mem_of_hexString hrevision (by decide))).cons ?_ hurlText).cons ?_ hidText)
    all_goals decide
  · exact plainFields_fieldIf (by decide) fun _ => not_mem_of_validRingTarget hnext
  · refine plainFields_fieldIf (by decide) fun hused => ?_
    rcases hprevious with hempty | ⟨-, hpeer⟩
    · simp [hempty] at hused
    · exact not_mem_of_validPeerId hpeer (by decide)

lemma setters_keys : (setters.map Prod.fst).Nodup := by decide

/-- The fields of an assignment that is valid are read into it. -/
lemma foldlM_fields (h : a.valid) (hend : a.endLayer < 2 ^ 31) :
    a.fields.foldlM (fun a field => setters.set a field.1 field.2) {} = some a := by
  simp only [valid, Bool.and_eq_true, decide_eq_true_eq, and_assoc] at h
  obtain ⟨-, -, -, -, -, -, hbegin', hend', -⟩ := h
  have hcontextText := fromDecimal_decimal a.context.toNat_lt
  have hsessionsText := fromDecimal_decimal a.sessions.toNat_lt
  have hid (b : ModelAssignment) : setters.set b "model_id".toList a.modelId =
      some { b with modelId := a.modelId } :=
    Setters.set_at setters_keys 0 rfl b _
  have hurl (b : ModelAssignment) : setters.set b "url".toList a.url =
      some { b with url := a.url } :=
    Setters.set_at setters_keys 1 rfl b _
  have hrevision (b : ModelAssignment) : setters.set b "revision".toList a.revision =
      some { b with revision := a.revision } :=
    Setters.set_at setters_keys 2 rfl b _
  have hsha (b : ModelAssignment) : setters.set b "sha256".toList a.sha256 =
      some { b with sha256 := a.sha256 } :=
    Setters.set_at setters_keys 3 rfl b _
  have hbegin (b : ModelAssignment) : setters.set b "begin".toList (intText a.beginLayer) =
      some { b with beginLayer := a.beginLayer } := by
    rw [Setters.set_at setters_keys 4 rfl, fromChars_intText hbegin' (hend'.trans hend),
      Option.map_some]
  have hlast (b : ModelAssignment) : setters.set b "end".toList (intText a.endLayer) =
      some { b with endLayer := a.endLayer } := by
    rw [Setters.set_at setters_keys 5 rfl, fromChars_intText (hbegin'.trans hend'.le) hend,
      Option.map_some]
  have hcontext (b : ModelAssignment) : setters.set b "context".toList (decimal a.context.toNat) =
      some { b with context := a.context } := by
    rw [Setters.set_at setters_keys 6 rfl, hcontextText, Option.map_some, UInt32.ofNat_toNat]
  have hsessions (b : ModelAssignment) :
      setters.set b "sessions".toList (decimal a.sessions.toNat) =
      some { b with sessions := a.sessions } := by
    rw [Setters.set_at setters_keys 7 rfl, hsessionsText, Option.map_some, UInt32.ofNat_toNat]
  have hnext (b : ModelAssignment) : setters.set b "next".toList a.nextEndpoint =
      some { b with nextEndpoint := a.nextEndpoint } :=
    Setters.set_at setters_keys 8 rfl b _
  have hprevious (b : ModelAssignment) : setters.set b "previous_peer".toList a.previousPeerId =
      some { b with previousPeerId := a.previousPeerId } :=
    Setters.set_at setters_keys 9 rfl b _
  simp only [fields, List.foldlM_append, List.foldlM_cons, List.foldlM_nil, foldlM_fieldIf, hid,
    hurl, hrevision, hsha, hbegin, hlast, hcontext, hsessions, hnext, hprevious,
    Option.bind_eq_bind, Option.bind_some, Option.pure_def]
  obtain ⟨id, url, revision, sha, first, last, context, sessions, next, previous⟩ := a
  -- a field that is left out has the value it starts with
  by_cases hnoNext : next = []
  all_goals by_cases hnoPrevious : previous = []
  all_goals simp [hnoNext, hnoPrevious]

end ModelAssignment

/-! ### Routes -/

structure RingRoute where
  next : List Char := []
  previousPeer : List Char := []
  loop : List Char := []
  deriving DecidableEq, Repr

def loopSelf : List Char := "self".toList

namespace RingRoute

/-- `route_message`. -/
def fields (r : RingRoute) : List (List Char × List Char) :=
  [("next".toList, r.next)] ++ fieldIf (!r.previousPeer.isEmpty) "previous_peer" r.previousPeer ++
    fieldIf (!r.loop.isEmpty) "loop" r.loop

/-- The lines of `parse_route`: no field is given twice. -/
def setters : Setters RingRoute :=
  [("next", fun r value => if r.next.isEmpty then some { r with next := value } else none),
    ("previous_peer", fun r value =>
      if r.previousPeer.isEmpty then some { r with previousPeer := value } else none),
    ("loop", fun r value => if r.loop.isEmpty then some { r with loop := value } else none)]

/-- What `parse_route` accepts once every line is read. -/
def valid (r : RingRoute) : Bool :=
  !r.next.isEmpty && (r.previousPeer.isEmpty || validPeerId r.previousPeer) &&
    (r.loop.isEmpty || r.loop = loopSelf || validRingTarget r.loop)

end RingRoute

def routeMessage (r : RingRoute) : List Char := fieldsText r.fields

def parseRoute (text : List Char) : Option RingRoute :=
  (readFields RingRoute.setters.set {} text).filter RingRoute.valid

namespace RingRoute

variable {r : RingRoute}

lemma valid_iff : r.valid ↔ r.next ≠ [] ∧ (r.previousPeer = [] ∨ validPeerId r.previousPeer) ∧
    (r.loop = [] ∨ r.loop = loopSelf ∨ validRingTarget r.loop) := by
  simp [valid, and_assoc, or_assoc]

lemma plain_fields (h : r.valid) (hnext : '\n' ∉ r.next) : PlainFields r.fields := by
  obtain ⟨-, hprevious, hloop⟩ := valid_iff.mp h
  unfold fields
  refine PlainFields.append (PlainFields.append (plainFields_nil.cons (by decide) hnext) ?_) ?_
  · refine plainFields_fieldIf (by decide) fun hused => ?_
    rcases hprevious with hempty | hpeer
    · simp [hempty] at hused
    · exact not_mem_of_validPeerId hpeer (by decide)
  · refine plainFields_fieldIf (by decide) fun hused => ?_
    rcases hloop with hempty | hself | htarget
    · simp [hempty] at hused
    · rw [hself]
      decide
    · exact not_mem_of_validRingTarget htarget

lemma setters_keys : (setters.map Prod.fst).Nodup := by decide

/-- The fields of a route are read into it, each into a field that has no value yet. -/
lemma foldlM_fields : r.fields.foldlM (fun r field => setters.set r field.1 field.2) {} =
    some r := by
  have hnext (b : RingRoute) := Setters.set_at setters_keys 0 rfl b r.next
  have hprevious (b : RingRoute) := Setters.set_at setters_keys 1 rfl b r.previousPeer
  have hloop (b : RingRoute) := Setters.set_at setters_keys 2 rfl b r.loop
  simp only [fields, List.foldlM_append, List.foldlM_cons, List.foldlM_nil, foldlM_fieldIf, hnext,
    hprevious, hloop, Option.bind_eq_bind, Option.pure_def]
  obtain ⟨next, previous, loop⟩ := r
  by_cases hnoPrevious : previous = []
  all_goals by_cases hnoLoop : loop = []
  all_goals simp [hnoPrevious, hnoLoop]

/-- No line break is read into the target. -/
lemma next_of_readFields {text : List Char} (h : readFields setters.set {} text = some r) :
    '\n' ∉ r.next := by
  refine readFields_invariant (I := fun r => '\n' ∉ r.next) List.not_mem_nil ?_ h
  intro r key value r' hvalue hnext hset
  obtain ⟨setter, hmem, hset⟩ := Setters.set_cases hset
  simp only [setters, List.mem_cons, List.not_mem_nil, or_false] at hmem
  rcases hmem with rfl | rfl | rfl
  all_goals
    dsimp only at hset
    split_ifs at hset
    cases hset
  · exact hvalue
  · exact hnext
  · exact hnext

end RingRoute

/-! ### Round trips -/

/-- What is written for the control plane is read back, and what is read passes the checks. -/
structure ControlTexts : Prop where
  stageRequest : ∀ r : StageRequest, r.valid → r.Typed →
    parseStageRequest (stageRequestMessage r) = some r.sent
  stageRequest_valid : ∀ text r, parseStageRequest text = some r →
    r.valid ∧ r.Typed ∧ r.activations ≠ .none
  assignment : ∀ a : ModelAssignment, a.valid → a.endLayer < 2 ^ 31 →
    parseAssignment (assignmentMessage a) = some a
  assignment_valid : ∀ text a, parseAssignment text = some a → a.valid
  route : ∀ r : RingRoute, r.valid → '\n' ∉ r.next → parseRoute (routeMessage r) = some r
  route_valid : ∀ text r, parseRoute text = some r → r.valid ∧ '\n' ∉ r.next

theorem controlTexts : ControlTexts where
  stageRequest r h htyped := by
    have hsent : r.sent.valid := h
    rw [parseStageRequest, stageRequestMessage, readFields_fieldsText (StageRequest.plain_fields h),
      StageRequest.foldlM_fields h htyped]
    exact Option.filter_eq_some_iff.mpr ⟨rfl, hsent⟩
  stageRequest_valid text r h := by
    obtain ⟨hread, hvalid⟩ := Option.filter_eq_some_iff.mp h
    exact ⟨hvalid, StageRequest.typed_of_readFields hread⟩
  assignment a h hend := by
    rw [parseAssignment, assignmentMessage, readFields_fieldsText (ModelAssignment.plain_fields h),
      ModelAssignment.foldlM_fields h hend]
    exact Option.filter_eq_some_iff.mpr ⟨rfl, h⟩
  assignment_valid text a h := (Option.filter_eq_some_iff.mp h).2
  route r h hnext := by
    rw [parseRoute, routeMessage, readFields_fieldsText (RingRoute.plain_fields h hnext),
      RingRoute.foldlM_fields]
    exact Option.filter_eq_some_iff.mpr ⟨rfl, h⟩
  route_valid text r h := by
    obtain ⟨hread, hvalid⟩ := Option.filter_eq_some_iff.mp h
    exact ⟨hvalid, RingRoute.next_of_readFields hread⟩

/-- A request whose activations have no format. -/
def formatless : StageRequest where
  routeId := "00000000000000000000000000000000"
  modelSha256 := "0000000000000000000000000000000000000000000000000000000000000000"
  endLayer := 4
  context := 512
  sessions := 1
  activations := .none

/-- It passes the check, and is read as one for `f32`. -/
theorem formatless_read :
    ¬ ∀ r : StageRequest, r.valid → r.Typed →
      parseStageRequest (stageRequestMessage r) = some r := by
  intro h
  have hvalid : formatless.valid := by decide
  have htyped : formatless.Typed := by constructor <;> decide
  have hread := (h formatless hvalid htyped).symm.trans (controlTexts.stageRequest _ hvalid htyped)
  exact absurd hread (by decide)

end ProviderOwned
