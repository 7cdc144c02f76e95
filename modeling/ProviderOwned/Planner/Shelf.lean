import ProviderOwned.Planner.Planned

/-!
# What a run leaves behind

The states of the three files that outlast a run, as they are after any number of runs that were cut
short (`World.Kept`), and how the next run reads them. A piece of the data may be short of its last
bytes, where these were lost without notice (`Nearly`), and the sidecars may count pieces twice,
where a run began anew after it had counted them.
-/

namespace ProviderOwned.Gguf

open Interrupted Spans Text
open Sha256 (sha256 mem_sha256)

/-- A range of a file, as a sidecar says it. -/
def held (file : List UInt8) (piece : Span) : Range := ⟨piece, sha256 (slice file piece)⟩

/-- The bytes are those of `full`, but for `lost` bytes at the end at most. -/
def Nearly (lost : Nat) (bytes full : List UInt8) : Prop :=
  bytes.length = full.length ∧ ∃ n, full.length ≤ n + lost ∧ bytes.take n = full.take n

/-- Data with the first `count` pieces of the plan, as far as `ok` says, and nothing between the
pieces. -/
structure Filled (ok : List UInt8 → List UInt8 → Prop) (file : List UInt8) (plan : Plan)
    (count : Nat) (data : List UInt8) : Prop where
  length : data.length = file.length
  pieces : ∀ piece ∈ plan.pieces.take count, ok (slice data piece) (slice file piece)
  zero : ∀ x, ¬ Covers plan.pieces x → x < data.length → data[x]? = some 0

/-- The bytes a run counts that has the first `count` pieces, and that had counted the first `again`
of them when it began anew. -/
def Plan.counted (plan : Plan) (count again : Nat) : Nat :=
  plan.transferred + (total (plan.pieces.take again) + total (plan.pieces.take count))

/-- The numbers of such a run. -/
def Plan.progress (plan : Plan) (count again : Nat) : RangeModelStats :=
  plan.stats (plan.counted count again)

/-- The first `count` ranges of the plan. -/
def World.ranges (w : World) (r : RangeModelRequest) (plan : Plan) (count : Nat) : List Range :=
  (plan.pieces.take count).map (held (w.remote r.source))

/-- The sidecar of a cache with the first `count` pieces. -/
def World.sidecarBytes (w : World) (magic : List Char) (r : RangeModelRequest) (plan : Plan)
    (count again : Nat) : List UInt8 :=
  encode (sidecarText magic r (plan.progress count again) (w.ranges r plan count))

/-- A request that is accepted and for which there is a plan. -/
structure World.Served (w : World) (path : List Char) (r : RangeModelRequest) (plan : Plan) :
    Prop where
  path : r.path = path
  plain : r.Plain
  accepted : r.accepted
  plan : w.plan r = .ok plan

/-- The states of the files of a model between two commands of any run, where a write may lose
`lost` bytes without notice. -/
inductive World.Kept (w : World) (lost : Nat) (path : List Char) : Shelf → Prop
  /-- No data, and no foreign sidecar. -/
  | vacant {sidecar part : Option (List UInt8)} :
      (∀ bytes ∈ sidecar, firstLine (some bytes) = some cacheMagic) →
        w.Kept lost path ⟨none, sidecar, part⟩
  /-- Data without a sidecar: nothing has been written to it. -/
  | bare {data : List UInt8} : (∀ byte ∈ data, byte = 0) → w.Kept lost path ⟨some data, none, none⟩
  /-- A cache that is being filled, of which the first `count` pieces are done. -/
  | going {r : RangeModelRequest} {plan : Plan} {count again : Nat} {data : List UInt8} :
      w.Served path r plan → count ≤ plan.pieces.length →
      Filled (Nearly lost) (w.remote r.source) plan count data →
      w.Kept lost path ⟨some data, none, some (w.sidecarBytes partialMagic r plan count again)⟩
  /-- A complete cache. -/
  | finished {r : RangeModelRequest} {plan : Plan} {again : Nat} {data : List UInt8}
      {part : Option (List UInt8)} :
      w.Served path r plan → Filled (Nearly lost) (w.remote r.source) plan plan.pieces.length data →
      (∀ bytes ∈ part, bytes = w.sidecarBytes partialMagic r plan plan.pieces.length again) →
      w.Kept lost path
        ⟨some data, some (w.sidecarBytes cacheMagic r plan plan.pieces.length again), part⟩

/-- The cache a request asks for, with pieces that are as `ok` says. -/
def World.Complete (w : World) (ok : List UInt8 → List UInt8 → Prop) (r : RangeModelRequest)
    (again : Nat) (shelf : Shelf) : Prop :=
  ∃ plan data, w.plan r = .ok plan ∧ shelf.data = some data ∧
    Filled ok (w.remote r.source) plan plan.pieces.length data ∧
    shelf.sidecar = some (w.sidecarBytes cacheMagic r plan plan.pieces.length again)

def Shelf.Bare (shelf : Shelf) : Prop := shelf.data.isSome ∧ shelf.sidecar = none ∧
    shelf.part = none

variable {w : World} {path : List Char} {r q : RangeModelRequest} {plan : Plan}
  {count again lost : Nat}
  {file data : List UInt8} {magic : List Char}

/-! ### Reading a sidecar -/

lemma isDigit_lt {c : Char} (h : c.isDigit) : c.toNat < 256 := by
  simp only [Char.isDigit, Bool.and_eq_true, decide_eq_true_eq] at h
  have hle : c.val ≤ '9'.val := h.2
  have hnat : c.toNat ≤ '9'.toNat := UInt32.le_iff_toNat_le.mp hle
  exact hnat.trans_lt (by decide)

def Bytes (text : List Char) : Prop := ∀ c ∈ text, c.toNat < 256

lemma bytes_of_all {text : List Char} (h : text.all fun c => c.toNat < 256) : Bytes text :=
  fun c hc =>
  of_decide_eq_true (List.all_eq_true.mp h c hc)

lemma Bytes.append {a b : List Char} (ha : Bytes a) (hb : Bytes b) : Bytes (a ++ b) :=
  List.forall_mem_append.mpr ⟨ha, hb⟩

lemma Bytes.cons {c : Char} {a : List Char} (hc : c.toNat < 256) (ha : Bytes a) : Bytes (c :: a) :=
  List.forall_mem_cons.mpr ⟨hc, ha⟩

lemma bytes_decimal (n : Nat) : Bytes (decimal n) :=
  fun _ hc => isDigit_lt (isDigit_of_mem_decimal hc)

lemma bytes_intText (value : Int) : Bytes (intText value) := by
  unfold intText
  split_ifs
  · exact (bytes_decimal _).cons (by decide)
  · exact bytes_decimal _

lemma bytes_hexString {value : List Char} {length : Nat} (h : Address.hexString value length) :
    Bytes (lowercase value) := by
  have hdigits : ∀ c ∈ hexDigits, c.toNat < 256 := List.all_iff_forall_prop.mp (by decide)
  exact fun c hc => hdigits c (mem_hexDigits (hexString_lowercase h) hc)

lemma bytes_sha256 (bytes : List UInt8) : Bytes (sha256 bytes) := by
  have hdigits : ∀ c ∈ "0123456789abcdef".toList, c.toNat < 256 :=
    List.all_iff_forall_prop.mp (by decide)
  exact fun c hc => hdigits c (mem_sha256 hc)

lemma bytes_cacheMagic : Bytes cacheMagic := bytes_of_all (by decide)

lemma bytes_partialMagic : Bytes partialMagic := bytes_of_all (by decide)

lemma newline_not_mem_sha256 (bytes : List UInt8) : '\n' ∉ sha256 bytes := by
  intro hmem
  exact absurd (mem_sha256 hmem) (by decide)

lemma bytes_terminated {parts : List (List Char)} (h : ∀ part ∈ parts, Bytes part) :
    Bytes (terminated '\n' parts) := by
  intro c hc
  obtain ⟨part, hpart, hc⟩ := List.mem_flatMap.mp hc
  obtain hc | hc := List.mem_append.mp hc
  · exact h part hpart c hc
  · rw [List.mem_singleton.mp hc]
    decide

lemma bytes_sidecarText {stats : RangeModelStats} {ranges : List Range} (hmagic : Bytes magic)
    (hplain : r.Plain) (haccepted : r.accepted) (hranges : ∀ range ∈ ranges, Bytes range.sha256) :
    Bytes (sidecarText magic r stats ranges) := by
  simp only [RangeModelRequest.accepted, Bool.and_eq_true] at haccepted
  obtain ⟨⟨⟨⟨⟨-, hrevision⟩, hsha256⟩, -⟩, -⟩, -⟩ := haccepted
  have hurl : Bytes r.url := hplain.url_bytes
  have hfields : ∀ field ∈ sidecarFields r stats ++ ranges.map
      fun range => ("range", rangeText range),
      Bytes field.1.toList ∧ Bytes field.2 := by
    refine List.forall_mem_append.mpr ⟨?_, fun field hfield => ?_⟩
    · simp only [sidecarFields, List.forall_mem_cons, hurl, bytes_hexString hrevision,
        bytes_hexString hsha256, bytes_decimal, bytes_intText, and_true, List.not_mem_nil,
        false_implies, implies_true]
      refine ⟨?_, ?_, ?_, ?_, ?_, ?_, ?_, ?_, ?_, ?_⟩
      all_goals exact bytes_of_all (by decide)
    · obtain ⟨range, hrange, rfl⟩ := List.mem_map.mp hfield
      have hkey : Bytes "range".toList := bytes_of_all (by decide)
      refine ⟨hkey, (bytes_decimal _).append (.cons (by decide) ?_)⟩
      exact (bytes_decimal _).append (.cons (by decide) (hranges range hrange))
  refine bytes_terminated (List.forall_mem_cons.mpr ⟨hmagic, fun line hmem => ?_⟩)
  obtain ⟨field, hfield, rfl⟩ := List.mem_map.mp hmem
  exact (hfields field hfield).1.append (.cons (by decide) (hfields field hfield).2)

namespace World

lemma Served.written (h : w.Served path r plan) : r.Written := h.plain.written h.accepted

lemma Served.sound (h : w.Served path r plan) : plan.Sound (w.remote r.source) :=
  w.plan_sound h.plan

/-- The numbers of a sidecar are 64-bit. -/
lemma Served.storable (h : w.Served path r plan) (count again : Nat) :
    Storable (plan.progress count again) (w.ranges r plan count) := by
  have hsize := w.remote_lt r.source
  obtain ⟨hlogical, hheader, htransferred, htensors, hshared, -, hordered, hinside⟩ := h.sound
  refine ⟨?_, ?_, ?_, ?_, ?_, fun range hrange => ?_⟩
  · change plan.logicalBytes < _
    omega
  · change plan.headerBytes < _
    omega
  · exact Nat.mod_lt _ (by decide)
  · change plan.sharedBytes < _
    omega
  · change plan.tensorsPresent < _
    omega
  · obtain ⟨piece, hpiece, rfl⟩ := List.mem_map.mp hrange
    have hfinish := hinside piece (List.mem_of_mem_take hpiece)
    rw [Span.finish] at hfinish
    refine ⟨?_, ?_, newline_not_mem_sha256 _⟩
    · change piece.start < _
      omega
    · change piece.size < _
      omega

/-- The text of a sidecar is read from its bytes. -/
lemma Served.decode (h : w.Served path r plan) (hmagic : Bytes magic) :
    decode (w.sidecarBytes magic r plan count again) =
      sidecarText magic r (plan.progress count again) (w.ranges r plan count) := by
  refine decode_encode (bytes_sidecarText hmagic h.plain h.accepted fun range hrange => ?_)
  obtain ⟨piece, -, rfl⟩ := List.mem_map.mp hrange
  exact bytes_sha256 _

/-- A sidecar is read by a request for the same file and layers, and by no other. -/
lemma Served.parse {allowEmpty : Bool} (h : w.Served path r plan) (hbytes : Bytes magic)
    (hmagic : '\n' ∉ magic) (hallow : allowEmpty ∨ count ≠ 0) :
    parseSidecar magic q allowEmpty (Gguf.decode (w.sidecarBytes magic r plan count again)) =
      if r.key = q.key then .ok (plan.progress count again, w.ranges r plan count)
      else .error "range cache does not match model revision or stage" := by
  have hallow' : allowEmpty = true ∨ w.ranges r plan count ≠ [] := by
    refine hallow.imp_right fun hcount hnil => ?_
    rw [ranges, List.map_eq_nil_iff, List.take_eq_nil_iff] at hnil
    exact hnil.elim hcount h.sound.nonempty
  rw [h.decode hbytes, parseSidecar_sidecarText hmagic h.written (h.storable count again)]
  simp only [hallow', and_true]
  rfl

lemma Served.firstLine (h : w.Served path r plan) (hbytes : Bytes magic) (hmagic : '\n' ∉ magic) :
    firstLine (some (w.sidecarBytes magic r plan count again)) = some magic := by
  rw [Gguf.firstLine, Option.bind_some, h.decode hbytes, sidecarText, terminated_cons,
    pieces_append hmagic]
  rfl

/-- The sidecar of a request is that of any other for the same file and layers. -/
lemma sidecarBytes_congr (h : r.key = q.key) :
    w.sidecarBytes magic r plan count again = w.sidecarBytes magic q plan count again := by
  obtain ⟨hsource, hlayers⟩ := Prod.mk.inj h
  obtain ⟨hstart, hend⟩ := Prod.mk.inj hlayers
  have hurl : r.url = q.url := congrArg RangeModelRequest.Source.url hsource
  have hrevision : lowercase r.revision = lowercase q.revision :=
    congrArg RangeModelRequest.Source.revision hsource
  have hsha256 : lowercase r.fullSha256 = lowercase q.fullSha256 :=
    congrArg RangeModelRequest.Source.sha256 hsource
  unfold sidecarBytes sidecarText sidecarFields ranges
  rw [hsource, hstart, hend, hurl, hrevision, hsha256]

end World

/-! ### The data -/

lemma nearly_self (bytes : List UInt8) : Nearly lost bytes bytes :=
  ⟨rfl, bytes.length, Nat.le_add_right _ _, rfl⟩

/-- Where nothing is lost the bytes are the same. -/
lemma nearly_zero {bytes full : List UInt8} : Nearly 0 bytes full ↔ bytes = full := by
  constructor
  · rintro ⟨hlength, n, hn, htake⟩
    rwa [List.take_of_length_le (by omega), List.take_of_length_le (by omega)] at htake
  · rintro rfl
    exact nearly_self bytes

namespace Filled

variable {ok ok' : List UInt8 → List UInt8 → Prop}

lemma mono (h : Filled ok file plan count data)
    (hok : ∀ {bytes full}, ok bytes full → ok' bytes full) :
    Filled ok' file plan count data :=
  ⟨h.length, fun piece hpiece => hok (h.pieces piece hpiece), h.zero⟩

/-- What was written into a piece leaves the pieces before it. -/
lemma slice_patch_of_disjoint {start : Nat} {bytes : List UInt8} {s : Span}
    (hin : start + bytes.length ≤ data.length)
    (h : s.finish ≤ start ∨ start + bytes.length ≤ s.start) :
    slice (patch data start bytes) s = slice data s := by
  refine List.ext_getElem? fun n => ?_
  rw [getElem?_slice, getElem?_slice]
  split_ifs with hn
  · rw [getElem?_patch hin, if_neg]
    rw [Span.finish] at h
    omega
  · rfl

/-- What was written of a piece is there. -/
lemma nearly_slice_patch {s : Span} {bytes : List UInt8} {n : Nat} (hlength : bytes.length = s.size)
    (hin : s.finish ≤ data.length) (hn : bytes.length ≤ n + lost) :
    Nearly lost (slice (patch data s.start (bytes.take n)) s) bytes := by
  have hle : s.start + (bytes.take n).length ≤ data.length := by
    rw [List.length_take]
    rw [Span.finish] at hin
    omega
  have hsame : (slice (patch data s.start (bytes.take n)) s).length = bytes.length := by
    rw [length_slice (by rw [length_patch hle]; exact hin), hlength]
  refine ⟨hsame, n, hn, List.ext_getElem? fun x => ?_⟩
  rw [List.getElem?_take, List.getElem?_take, getElem?_slice, getElem?_patch hle,
    Nat.add_sub_cancel_left, List.length_take, List.getElem?_take]
  by_cases hx : x < n ∧ x < s.size
  · rw [if_pos hx.1, if_pos hx.2, if_pos (by omega), if_pos hx.1]
  · by_cases hxn : x < n
    · rw [if_pos hxn, if_pos hxn, if_neg fun h => hx ⟨hxn, h⟩, List.getElem?_eq_none (by omega)]
    · rw [if_neg hxn, if_neg hxn]

variable (hsound : plan.Sound file)
include hsound

/-- A file of zeros has no pieces. -/
lemma replicate : Filled ok file plan 0 (List.replicate plan.logicalBytes 0) := by
  refine ⟨?_, fun piece hpiece => ?_, fun x _ hx => ?_⟩
  · rw [List.length_replicate, hsound.logicalBytes]
  · rw [List.take_zero] at hpiece
    cases hpiece
  · rw [List.length_replicate] at hx
    rw [List.getElem?_replicate, if_pos hx]

/-- A part of the next piece may be there already. -/
lemma patch_take (h : Filled ok file plan count data) {piece : Span}
    (hpiece : plan.pieces[count]? = some piece) (n : Nat) :
    Filled ok file plan count (patch data piece.start ((slice file piece).take n)) := by
  have hmem := List.mem_of_getElem? hpiece
  have hfinish := hsound.inside piece hmem
  have hlength := length_slice hfinish
  rw [Span.finish] at hfinish
  have htake : ((slice file piece).take n).length ≤ piece.size := by
    rw [List.length_take, hlength]
    exact Nat.min_le_right _ _
  have hin : piece.start + ((slice file piece).take n).length ≤ data.length := by
    rw [h.length]
    omega
  refine ⟨(length_patch hin).trans h.length, fun earlier hearlier => ?_, fun x hx hlt => ?_⟩
  · rw [slice_patch_of_disjoint hin]
    · exact h.pieces earlier hearlier
    left
    obtain ⟨hcount, hpiece⟩ := List.getElem?_eq_some_iff.mp hpiece
    obtain ⟨m, hm, hearlier⟩ := List.mem_take_iff_getElem.mp hearlier
    have hpairwise :=
      List.pairwise_iff_getElem.mp hsound.ordered.1 m count (by omega) hcount (by omega)
    rwa [hpiece, hearlier] at hpairwise
  · rw [length_patch hin] at hlt
    rw [getElem?_patch hin, if_neg, h.zero x hx hlt]
    rintro ⟨hstart, hend⟩
    exact hx ⟨piece, hmem, hstart, by rw [Span.finish]; omega⟩

/-- One piece more, of which some last bytes may be lost. -/
lemma patch_nearly (hok : ∀ {bytes full}, Nearly lost bytes full → ok bytes full)
    (h : Filled ok file plan count data) {piece : Span} (hpiece : plan.pieces[count]? = some piece)
    {n : Nat} (hn : (slice file piece).length ≤ n + lost) :
    Filled ok file plan (count + 1) (patch data piece.start ((slice file piece).take n)) := by
  have hfinish := hsound.inside piece (List.mem_of_getElem? hpiece)
  have hpart := patch_take hsound h hpiece n
  refine ⟨hpart.length, fun earlier hearlier => ?_, hpart.zero⟩
  rw [List.take_add_one, hpiece, Option.toList_some, List.mem_append, List.mem_singleton]
    at hearlier
  obtain hearlier | rfl := hearlier
  · exact hpart.pieces earlier hearlier
  · exact hok (nearly_slice_patch (length_slice hfinish) (by rw [h.length]; exact hfinish) hn)

omit hsound in
/-- There is only one file with all the pieces as they are on the server. -/
lemma unique {data' : List UInt8} (h : Filled Eq file plan plan.pieces.length data)
    (h' : Filled Eq file plan plan.pieces.length data') : data = data' := by
  have hpieces := h.pieces
  have hpieces' := h'.pieces
  rw [List.take_length] at hpieces hpieces'
  refine List.ext_getElem? fun x => ?_
  by_cases hx : x < data.length
  · by_cases hcovers : Covers plan.pieces x
    · obtain ⟨piece, hpiece, hstart, hfinish⟩ := hcovers
      rw [Span.finish] at hfinish
      have hslice := (hpieces piece hpiece).trans (hpieces' piece hpiece).symm
      have hget := congrArg (fun l : List UInt8 => l[x - piece.start]?) hslice
      rwa [getElem?_slice, getElem?_slice, if_pos (by omega), if_pos (by omega),
        Nat.add_sub_cancel' hstart] at hget
    · rw [h.zero x hcovers hx, h'.zero x hcovers (by rwa [h'.length, ← h.length])]
  · rw [List.getElem?_eq_none (Nat.not_lt.mp hx), List.getElem?_eq_none]
    rw [h'.length, ← h.length]
    exact Nat.not_lt.mp hx

end Filled

end ProviderOwned.Gguf
