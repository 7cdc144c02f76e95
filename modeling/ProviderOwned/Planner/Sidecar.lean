import ProviderOwned.Lib.Sha256
import ProviderOwned.Planner.Header
import ProviderOwned.Wire.Control

/-!
# The range sidecar

`write_sidecar_file` and `read_sidecar_file` of `range_model.cpp`: which ranges of a model file are
there, each with its digest, and which revision and stage they are of. A sidecar that was written
for a request is read back by the same request, and refused by any other
(`parseSidecar_sidecarText`).
-/

namespace ProviderOwned.Gguf

open Text Spans

/-! ### Requests -/

/-- `struct RangeModelRequest`, without the callback that shows the progress. -/
structure RangeModelRequest where
  url : List Char
  revision : List Char
  fullSha256 : List Char
  path : List Char
  stageStart : Int
  stageEnd : Int
  deriving DecidableEq, Repr

structure RangeModelStats where
  logicalBytes : Nat := 0
  physicalBytes : Nat := 0
  downloadedBytes : Nat := 0
  sharedBytes : Nat := 0
  headerBytes : Nat := 0
  tensorsPresent : Nat := 0
  cacheReused : Bool := false
  deriving DecidableEq, Repr

structure Range where
  span : Span
  sha256 : List Char
  deriving DecidableEq, Repr

namespace RangeModelRequest

/-- What `prepare_range_model` asks of a request. -/
def accepted (r : RangeModelRequest) : Bool :=
  !r.url.isEmpty && Address.hexString r.revision 40 && Address.hexString r.fullSha256 64 &&
    !r.path.isEmpty &&
    0 ≤ r.stageStart && r.stageStart < r.stageEnd

structure Source where
  url : List Char
  revision : List Char
  sha256 : List Char
  deriving DecidableEq, Repr

/-- The file a request is for: the case of hexadecimal digits does not matter. -/
def source (r : RangeModelRequest) : Source := ⟨r.url, lowercase r.revision, lowercase r.fullSha256⟩

/-- The file and the layers a request is for. -/
def key (r : RangeModelRequest) : Source × Int × Int := (r.source, r.stageStart, r.stageEnd)

/-- A request as its callers make it: the URL is one line of bytes (`load_manifest` refuses any
other), and the layers are of type `int`. -/
structure Plain (r : RangeModelRequest) : Prop where
  url_line : '\n' ∉ r.url
  url_bytes : ∀ c ∈ r.url, c.toNat < 256
  stageEnd_lt : r.stageEnd < 2 ^ 31

end RangeModelRequest

/-! ### The text -/

/-- The first line of the sidecar of a complete cache. -/
def cacheMagic : List Char := "DAN_RANGE_CACHE_V1".toList

/-- The first line of the sidecar of an incomplete one. -/
def partialMagic : List Char := "DAN_RANGE_CACHE_PARTIAL_V1".toList

/-- The fields of a sidecar, in the order in which they are written. -/
def sidecarFields (r : RangeModelRequest) (stats : RangeModelStats) : List (String × List Char) :=
  [("url", r.url), ("revision", lowercase r.revision), ("full_sha256", lowercase r.fullSha256),
    ("stage_start", intText r.stageStart), ("stage_end", intText r.stageEnd),
    ("logical_bytes", decimal stats.logicalBytes), ("header_bytes", decimal stats.headerBytes),
    ("downloaded_bytes", decimal stats.downloadedBytes),
    ("shared_bytes", decimal stats.sharedBytes), ("tensors_present", decimal stats.tensorsPresent)]

/-- The value of a `range` field. -/
def rangeText (range : Range) : List Char :=
  decimal range.span.start ++ ',' :: (decimal range.span.size ++ ',' :: range.sha256)

/-- The text `write_sidecar_file` writes. -/
def sidecarText (magic : List Char) (r : RangeModelRequest) (stats : RangeModelStats)
    (ranges : List Range) : List Char :=
  terminated '\n' (magic ::
    (sidecarFields r stats ++ ranges.map fun range => ("range", rangeText range)).map
      fun field => field.1.toList ++ '=' :: field.2)

structure Sidecar where
  url : List Char := []
  revision : List Char := []
  fullSha256 : List Char := []
  stageStart : Int := -1
  stageEnd : Int := -1
  stats : RangeModelStats := {}
  ranges : List Range := []
  deriving DecidableEq, Repr

def parseU64 (text : List Char) : Option Nat := fromDecimal (2 ^ 64) text

/-- The value of a `range` field is read. -/
def parseRange (value : List Char) : Option Range := do
  let (start, rest) ← cut ',' value
  let (size, sha256) ← cut ',' rest
  let start ← parseU64 start
  let size ← parseU64 size
  return ⟨⟨start, size⟩, sha256⟩

/-- The fields of a sidecar. A number of a stage has to be an `int`. -/
def sidecarSetters : Setters Sidecar :=
  [("url", fun s value => some { s with url := value }),
    ("revision", fun s value => some { s with revision := value }),
    ("full_sha256", fun s value => some { s with fullSha256 := value }),
    ("stage_start", fun s value => (fromDecimal (2 ^ 31) value).map
      fun n => { s with stageStart := .ofNat n }),
    ("stage_end", fun s value => (fromDecimal (2 ^ 31) value).map
      fun n => { s with stageEnd := .ofNat n }),
    ("logical_bytes", fun s value =>
      (parseU64 value).map fun n => { s with stats.logicalBytes := n }),
    ("header_bytes", fun s value => (parseU64 value).map
      fun n => { s with stats.headerBytes := n }),
    ("downloaded_bytes", fun s value =>
      (parseU64 value).map fun n => { s with stats.downloadedBytes := n }),
    ("shared_bytes", fun s value => (parseU64 value).map
      fun n => { s with stats.sharedBytes := n }),
    ("tensors_present", fun s value =>
      (parseU64 value).map fun n => { s with stats.tensorsPresent := n }),
    ("range", fun s value => (parseRange value).map fun range =>
      { s with ranges := s.ranges ++ [range] })]

/-- The error of a line whose value is wrong. -/
def sidecarError (line : List Char) : String :=
  match cut '=' line with
  | none => "invalid range-cache metadata"
  | some (key, _) =>
    if key = "stage_start".toList ∨ key = "stage_end".toList then "invalid cached stage"
    else if key = "range".toList then "invalid cached range"
    else "invalid range-cache metadata"

def readSidecarLine (s : Sidecar) (line : List Char) : Except String Sidecar :=
  match readField sidecarSetters.set s line with
  | some s => .ok s
  | none => .error (sidecarError line)

/-- `read_sidecar_file` of the text of a file. -/
def parseSidecar (magic : List Char) (r : RangeModelRequest) (allowEmpty : Bool)
    (text : List Char) :
    Except String (RangeModelStats × List Range) :=
  match pieces '\n' text with
  | [] => .error "invalid range-cache metadata"
  | first :: lines =>
    if first ≠ magic then .error "invalid range-cache metadata"
    else do
      let s ← lines.foldlM readSidecarLine {}
      if (⟨s.url, s.revision, s.fullSha256⟩, s.stageStart, s.stageEnd) ≠ r.key ∨
          (!allowEmpty && s.ranges.isEmpty) then
        .error "range cache does not match model revision or stage"
      else .ok (s.stats, s.ranges)

/-! ### Round trip -/

variable {r q : RangeModelRequest} {stats : RangeModelStats} {ranges : List Range} {range : Range}

/-- The numbers of a sidecar are 64-bit, and its digests have no line break. -/
structure Storable (stats : RangeModelStats) (ranges : List Range) : Prop where
  logicalBytes : stats.logicalBytes < 2 ^ 64
  headerBytes : stats.headerBytes < 2 ^ 64
  downloadedBytes : stats.downloadedBytes < 2 ^ 64
  sharedBytes : stats.sharedBytes < 2 ^ 64
  tensorsPresent : stats.tensorsPresent < 2 ^ 64
  ranges : ∀ range ∈ ranges,
    range.span.start < 2 ^ 64 ∧ range.span.size < 2 ^ 64 ∧ '\n' ∉ range.sha256

/-- The part of the numbers that a sidecar keeps. -/
def RangeModelStats.kept (stats : RangeModelStats) : RangeModelStats :=
  { stats with physicalBytes := 0, cacheReused := false }

lemma parseRange_rangeText (hstart : range.span.start < 2 ^ 64) (hsize : range.span.size < 2 ^ 64) :
    parseRange (rangeText range) = some range := by
  have hcomma : ∀ n, ',' ∉ decimal n := fun n => not_mem_decimal (by decide) n
  simp only [parseRange, rangeText, cut_append (hcomma _), parseU64, fromDecimal_decimal hstart,
    fromDecimal_decimal hsize, Option.bind_eq_bind, Option.bind_some]
  rfl

lemma newline_not_mem_rangeText (h : '\n' ∉ range.sha256) : '\n' ∉ rangeText range := by
  have hdecimal : ∀ n, '\n' ∉ decimal n := fun n => not_mem_decimal (by decide) n
  simp only [rangeText, List.mem_append, List.mem_cons, not_or]
  exact ⟨hdecimal _, by decide, hdecimal _, by decide, h⟩

lemma foldlM_cons_ok {α β ε : Type} {f : α → β → Except ε α} {x : β} {l : List β} {a b c : α}
    (h : f a x = .ok b) (h' : l.foldlM f b = .ok c) : (x :: l).foldlM f a = .ok c := by
  rw [List.foldlM_cons, h]
  exact h'

lemma sidecarSetters_keys : (sidecarSetters.map Prod.fst).Nodup := by decide

/-- A field that is set is read from its line. -/
lemma readSidecarLine_field {s t : Sidecar} {key : String}
    {f : Sidecar → List Char → Option Sidecar}
    {value : List Char} (n : Nat) (hkey : sidecarSetters[n]? = some (key, f))
    (hplain : '=' ∉ key.toList)
    (hset : f s value = some t) : readSidecarLine s (key.toList ++ '=' :: value) = .ok t := by
  rw [readSidecarLine, readField_line hplain, Setters.set_at sidecarSetters_keys n hkey, hset]

/-- The ranges are read after whatever was read before. -/
lemma readSidecarLine_ranges (s : Sidecar)
    (h : ∀ range ∈ ranges, range.span.start < 2 ^ 64 ∧ range.span.size < 2 ^ 64) :
    (ranges.map fun range => "range".toList ++ '=' :: rangeText range).foldlM readSidecarLine s =
      .ok { s with ranges := s.ranges ++ ranges } := by
  induction ranges generalizing s with
  | nil =>
    rw [List.append_nil]
    rfl
  | cons range ranges ih =>
    obtain ⟨⟨hstart, hsize⟩, hrest⟩ := List.forall_mem_cons.mp h
    have hline : readSidecarLine s ("range".toList ++ '=' :: rangeText range) =
        .ok { s with ranges := s.ranges ++ [range] } := by
      refine readSidecarLine_field 10 rfl (by decide) ?_
      rw [parseRange_rangeText hstart hsize]
      rfl
    rw [List.map_cons, List.foldlM_cons, hline]
    change List.foldlM _ _ _ = _
    rw [ih _ hrest, List.append_assoc]
    rfl

lemma newline_not_mem_of_hexString {value : List Char} {length : Nat}
    (h : Address.hexString value length) : '\n' ∉ lowercase value :=
  not_mem_of_hexString (hexString_lowercase h) (by decide)

lemma fromDecimal_intText {value : Int} (h : 0 ≤ value) (hlt : value < 2 ^ 31) :
    fromDecimal (2 ^ 31) (intText value) = some value.toNat := by
  rw [intText, if_neg (by omega), fromDecimal_decimal (by omega)]

structure RangeModelRequest.Written (r : RangeModelRequest) : Prop where
  url : '\n' ∉ r.url
  revision : '\n' ∉ lowercase r.revision
  fullSha256 : '\n' ∉ lowercase r.fullSha256
  stageStart : 0 ≤ r.stageStart ∧ r.stageStart < 2 ^ 31
  stageEnd : 0 ≤ r.stageEnd ∧ r.stageEnd < 2 ^ 31

lemma RangeModelRequest.Plain.written (hplain : r.Plain) (h : r.accepted) : r.Written := by
  simp only [RangeModelRequest.accepted, Bool.and_eq_true, decide_eq_true_eq] at h
  obtain ⟨⟨⟨⟨⟨-, hrevision⟩, hsha256⟩, -⟩, hstart⟩, hlt⟩ := h
  have hend := hplain.stageEnd_lt
  exact ⟨hplain.url_line, newline_not_mem_of_hexString hrevision,
    newline_not_mem_of_hexString hsha256, ⟨hstart, by omega⟩, ⟨by omega, hend⟩⟩

/-- The lines of a sidecar are read one after the other. -/
lemma readSidecarLines (hr : r.Written) (h : Storable stats ranges) :
    ((sidecarFields r stats ++ ranges.map fun range => ("range", rangeText range)).map
        fun field => field.1.toList ++ '=' :: field.2).foldlM readSidecarLine {} =
      .ok ⟨r.url, lowercase r.revision, lowercase r.fullSha256, r.stageStart, r.stageEnd,
        stats.kept, ranges⟩ := by
  have hstart : Int.ofNat r.stageStart.toNat = r.stageStart := Int.toNat_of_nonneg hr.stageStart.1
  have hend : Int.ofNat r.stageEnd.toNat = r.stageEnd := Int.toNat_of_nonneg hr.stageEnd.1
  have hfields : ((sidecarFields r stats).map fun field => field.1.toList ++ '=' :: field.2).foldlM
      readSidecarLine {} = .ok ⟨r.url, lowercase r.revision, lowercase r.fullSha256, r.stageStart,
        r.stageEnd, stats.kept, []⟩ := by
    simp only [sidecarFields, List.map_cons, List.map_nil]
    generalize r.url = url, lowercase r.revision = revision, lowercase r.fullSha256 = sha256
    refine foldlM_cons_ok (b := ⟨url, [], [], -1, -1, {}, []⟩)
      (readSidecarLine_field 0 rfl (by decide) rfl) ?_
    refine foldlM_cons_ok (b := ⟨url, revision, [], -1, -1, {}, []⟩)
      (readSidecarLine_field 1 rfl (by decide) rfl) ?_
    refine foldlM_cons_ok (b := ⟨url, revision, sha256, -1, -1, {}, []⟩)
      (readSidecarLine_field 2 rfl (by decide) rfl) ?_
    refine foldlM_cons_ok (b := ⟨url, revision, sha256, r.stageStart, -1, {}, []⟩)
      (readSidecarLine_field 3 rfl (by decide)
        (by rw [fromDecimal_intText hr.stageStart.1 hr.stageStart.2, Option.map_some, hstart])) ?_
    refine foldlM_cons_ok (b := ⟨url, revision, sha256, r.stageStart, r.stageEnd, {}, []⟩)
      (readSidecarLine_field 4 rfl (by decide)
        (by rw [fromDecimal_intText hr.stageEnd.1 hr.stageEnd.2, Option.map_some, hend])) ?_
    generalize r.stageStart = first, r.stageEnd = last
    refine foldlM_cons_ok (b := ⟨url, revision, sha256, first, last,
        ⟨stats.logicalBytes, 0, 0, 0, 0, 0, false⟩, []⟩)
      (readSidecarLine_field 5 rfl (by decide)
        (by rw [parseU64, fromDecimal_decimal h.logicalBytes, Option.map_some])) ?_
    refine foldlM_cons_ok (b := ⟨url, revision, sha256, first, last,
        ⟨stats.logicalBytes, 0, 0, 0, stats.headerBytes, 0, false⟩, []⟩)
      (readSidecarLine_field 6 rfl (by decide)
        (by rw [parseU64, fromDecimal_decimal h.headerBytes, Option.map_some])) ?_
    refine foldlM_cons_ok (b := ⟨url, revision, sha256, first, last,
        ⟨stats.logicalBytes, 0, stats.downloadedBytes, 0, stats.headerBytes, 0, false⟩, []⟩)
      (readSidecarLine_field 7 rfl (by decide)
        (by rw [parseU64, fromDecimal_decimal h.downloadedBytes, Option.map_some])) ?_
    refine foldlM_cons_ok (b := ⟨url, revision, sha256, first, last,
        ⟨stats.logicalBytes, 0, stats.downloadedBytes, stats.sharedBytes, stats.headerBytes, 0,
          false⟩, []⟩)
      (readSidecarLine_field 8 rfl (by decide)
        (by rw [parseU64, fromDecimal_decimal h.sharedBytes, Option.map_some])) ?_
    refine foldlM_cons_ok (b := ⟨url, revision, sha256, first, last, stats.kept, []⟩)
      (readSidecarLine_field 9 rfl (by decide) ?_) rfl
    rw [parseU64, fromDecimal_decimal h.tensorsPresent, Option.map_some]
    rfl
  rw [List.map_append, List.foldlM_append, hfields, List.map_map]
  exact readSidecarLine_ranges _ fun range hrange => ⟨(h.ranges range hrange).1,
    (h.ranges range hrange).2.1⟩

/-- What was written for a request is read by a request for the same file and layers, and by no
other. -/
theorem parseSidecar_sidecarText {magic : List Char} {allowEmpty : Bool} (hmagic : '\n' ∉ magic)
    (hr : r.Written) (h : Storable stats ranges) :
    parseSidecar magic q allowEmpty (sidecarText magic r stats ranges) =
      if r.key = q.key ∧ (allowEmpty ∨ ranges ≠ []) then .ok (stats.kept, ranges)
      else .error "range cache does not match model revision or stage" := by
  have hdecimal : ∀ n, '\n' ∉ decimal n := fun n => not_mem_decimal (by decide) n
  have hint : ∀ n, '\n' ∉ intText n := fun n => not_mem_intText (by decide) (by decide) n
  have hvalues : ∀ field ∈ sidecarFields r stats ++ ranges.map
      fun range => ("range", rangeText range),
      '\n' ∉ field.1.toList ∧ '\n' ∉ field.2 := by
    refine List.forall_mem_append.mpr ⟨?_, fun field hfield => ?_⟩
    · simp only [sidecarFields, List.forall_mem_cons, hdecimal, hint, hr.url, hr.revision,
        hr.fullSha256, not_false_eq_true, and_true]
      decide
    · obtain ⟨range, hrange, rfl⟩ := List.mem_map.mp hfield
      exact ⟨(by decide : '\n' ∉ "range".toList),
        newline_not_mem_rangeText (h.ranges range hrange).2.2⟩
  have hpieces : pieces '\n' (sidecarText magic r stats ranges) = magic ::
      (sidecarFields r stats ++ ranges.map fun range => ("range", rangeText range)).map
        fun field => field.1.toList ++ '=' :: field.2 := by
    refine pieces_terminated (List.forall_mem_cons.mpr ⟨hmagic, fun line hline => ?_⟩)
    obtain ⟨field, hfield, rfl⟩ := List.mem_map.mp hline
    obtain ⟨hkey, hvalue⟩ := hvalues field hfield
    rw [List.mem_append, List.mem_cons, not_or, not_or]
    exact ⟨hkey, by decide, hvalue⟩
  rw [parseSidecar, hpieces]
  dsimp only
  rw [if_neg (not_not.mpr rfl), readSidecarLines hr h]
  change (if _ then _ else _) = _
  by_cases hkey : r.key = q.key
  · by_cases hempty : allowEmpty = true ∨ ranges ≠ []
    · rw [if_neg, if_pos ⟨hkey, hempty⟩]
      rintro (hne | hnone)
      · exact hne hkey
      · simp only [Bool.and_eq_true, Bool.not_eq_true', List.isEmpty_iff] at hnone
        obtain hallow | hne := hempty
        · rw [hallow] at hnone
          exact Bool.false_ne_true hnone.1.symm
        · exact hne hnone.2
    · rw [if_pos, if_neg fun hboth => hempty hboth.2]
      rw [not_or, not_not, Bool.not_eq_true] at hempty
      right
      simp [hempty.1, hempty.2]
  · rw [if_pos (.inl hkey), if_neg fun hboth => hkey hboth.1]

end ProviderOwned.Gguf
