import ProviderOwned.Planner.Commands
import ProviderOwned.Planner.Shelf

/-!
# What a run finds

What every run keeps at every cut (`World.Keeps`), and the parts of `prepare_range_model` up to the
header against it: a sidecar is written in whole or not at all, a cache is reused only if the
digests tell that it is complete, and one that is being filled is a candidate to be continued.
-/

namespace ProviderOwned.Gguf

open Interrupted Spans
open Function (update)
open Sha256 (sha256 mem_sha256)
open Text (lowercase)

/-! ### The files of a model -/

/-- The files a run may leave over, which no run reads. -/
def scratch (path : List Char) : List (List Char) :=
  [temporaryPath path, headersPath (temporaryPath path), writingPath (sidecarPath path),
    writingPath (partialPath path)]

def owned (path : List Char) : List (List Char) :=
  path :: sidecarPath path :: partialPath path :: scratch path

variable {path name : List Char} {d d' : Disk} {content : Option (List UInt8)}

lemma shelf_update (d : Disk) (name : List Char) (content : Option (List UInt8)) :
    Disk.shelf (update d name content) path =
      ⟨if path = name then content else (d.shelf path).data,
        if sidecarPath path = name then content else (d.shelf path).sidecar,
        if partialPath path = name then content else (d.shelf path).part⟩ := by
  simp only [Disk.shelf, Function.update_apply]

lemma shelf_update_congr (h : d'.shelf path = d.shelf path) :
    Disk.shelf (update d' name content) path = Disk.shelf (update d name content) path := by
  rw [shelf_update, shelf_update, h]

@[simp] lemma shelf_update_data : Disk.shelf (update d path content) path =
    ⟨content, (d.shelf path).sidecar, (d.shelf path).part⟩ := by
  simp [shelf_update, sidecarPath, partialPath]

@[simp] lemma shelf_update_sidecar : Disk.shelf (update d (sidecarPath path) content) path =
    ⟨(d.shelf path).data, content, (d.shelf path).part⟩ := by
  simp [shelf_update, sidecarPath, partialPath]

@[simp] lemma shelf_update_part : Disk.shelf (update d (partialPath path) content) path =
    ⟨(d.shelf path).data, (d.shelf path).sidecar, content⟩ := by
  simp [shelf_update, sidecarPath, partialPath]

lemma shelf_update_scratch (h : name ∈ scratch path) :
    Disk.shelf (update d name content) path = d.shelf path := by
  have hne : path ≠ name ∧ sidecarPath path ≠ name ∧ partialPath path ≠ name := by
    simp only [scratch, List.mem_cons, List.not_mem_nil, or_false] at h
    rcases h with rfl | rfl | rfl | rfl
    all_goals simp [temporaryPath, headersPath, writingPath, sidecarPath, partialPath]
  rw [shelf_update, if_neg hne.1, if_neg hne.2.1, if_neg hne.2.2]

/-- What a run keeps at every cut: the files of the model are in one of the states, and no other
file has changed. -/
structure World.Keeps (w : World) (slack : Nat) (path : List Char) (start d : Disk) : Prop where
  shelf : w.Kept slack path (d.shelf path)
  others : ∀ name ∉ owned path, d name = start name

namespace World.Keeps

variable {w : World} {slack : Nat} {start : Disk}

lemma update_owned (h : w.Keeps slack path start d) (hname : name ∈ owned path)
    (hkept : w.Kept slack path (Disk.shelf (update d name content) path)) :
    w.Keeps slack path start (update d name content) where
  shelf := hkept
  others other hother := by
    have hne : other ≠ name := by
      rintro rfl
      exact hother hname
    rw [Function.update_of_ne hne]
    exact h.others other hother

lemma update_scratch (h : w.Keeps slack path start d) (hname : name ∈ scratch path) :
    w.Keeps slack path start (update d name content) :=
  h.update_owned (List.mem_cons_of_mem _ (List.mem_cons_of_mem _ (List.mem_cons_of_mem _ hname)))
    (by rw [shelf_update_scratch hname]; exact h.shelf)

end World.Keeps

/-! ### Writing a sidecar -/

variable {w : World} {trouble : Prop} {lost slack : Nat} {start : Disk} {r : RangeModelRequest}

/-- A sidecar is there in whole or not at all. -/
lemma tries_writeSidecarFile {target magic : List Char} {stats : RangeModelStats}
    {ranges : List Range} {Q : Unit → Disk → Prop} {E : String → Disk → Prop}
    (hwriting : writingPath target ∈ scratch path)
    (htarget : target ∈ owned path) (hK : w.Keeps slack path start d)
    (hnew : w.Kept slack path
      (Disk.shelf (update d target (some (encode (sidecarText magic r stats ranges)))) path))
    (hQ : ∀ t, w.Keeps slack path start t →
      t.shelf path =
        Disk.shelf (update d target (some (encode (sidecarText magic r stats ranges)))) path →
      Q () t)
    (hE : trouble → ∀ error t, w.Keeps slack path start t → t.shelf path = d.shelf path →
      E error t) :
    Tries (w.machine trouble lost) Q E (w.Keeps slack path start)
      (writeSidecarFile target magic r stats ranges) d := by
  have hcut : ∀ content {t}, w.Keeps slack path start t → t.shelf path = d.shelf path →
      w.Keeps slack path start (update t (writingPath target) content) ∧
        Disk.shelf (update t (writingPath target) content) path = d.shelf path :=
            fun _ _ ht hshelf =>
    ⟨ht.update_scratch hwriting, (shelf_update_scratch hwriting).trans hshelf⟩
  have hremove : ∀ {t : Disk} {error}, trouble → w.Keeps slack path start t →
      t.shelf path = d.shelf path →
      Tries (w.machine trouble lost) (fun _ t => E error t) E (w.Keeps slack path start)
        (ask (.remove (writingPath target))) t := fun htrouble ht hshelf =>
    tries_remove ht (hcut none ht hshelf).1
      (hE htrouble _ _ (hcut none ht hshelf).1 (hcut none ht hshelf).2)
  obtain ⟨hopened, hopenedShelf⟩ := hcut (some []) hK rfl
  unfold writeSidecarFile
  refine tries_bind.mpr (tries_truncate hK hopened ?_ fun htrouble => ?_)
  rotate_left
  · exact tries_bind.mpr (tries_require hK (fun h => absurd h Bool.false_ne_true)
      fun _ => hE htrouble _ _ hK rfl)
  refine tries_bind.mpr (tries_require hopened (fun _ => ?_) fun h => absurd rfl h)
  refine tries_bind.mpr (tries_fill hopened (fun _ => (hcut _ hopened hopenedShelf).1) ?_
    fun htrouble content => ?_)
  rotate_left
  · obtain ⟨hfilled, hfilledShelf⟩ := hcut (some content) hopened hopenedShelf
    exact tries_bind.mpr (tries_requireOr hfilled (fun h => absurd h Bool.false_ne_true)
      fun _ => hremove htrouble hfilled hfilledShelf)
  obtain ⟨hfilled, hfilledShelf⟩ :=
    hcut (some (encode (sidecarText magic r stats ranges))) hopened hopenedShelf
  refine tries_bind.mpr (tries_requireOr hfilled (fun _ => ?_) fun h => absurd rfl h)
  obtain ⟨hmoved, hmovedShelf⟩ := hcut none hfilled hfilledShelf
  have hpublished :
      Disk.shelf (update _ target (some (encode (sidecarText magic r stats ranges)))) path =
      Disk.shelf (update d target (some (encode (sidecarText magic r stats ranges)))) path :=
    shelf_update_congr hmovedShelf
  have hpublish : w.Keeps slack path start
      (update _ target (some (encode (sidecarText magic r stats ranges)))) :=
    hmoved.update_owned htarget (by rw [hpublished]; exact hnew)
  refine tries_bind.mpr (tries_rename (Function.update_self ..) hfilled hpublish ?_
    fun htrouble => ?_)
  · exact tries_requireOr hpublish (fun _ => hQ _ hpublish hpublished) fun h => absurd rfl h
  · exact tries_requireOr hfilled (fun h => absurd h Bool.false_ne_true)
      fun _ => hremove htrouble hfilled hfilledShelf

/-! ### Reusing a complete cache -/

lemma shelf_eq {shelf : Shelf} (h : d.shelf path = shelf) :
    d path = shelf.data ∧ d (sidecarPath path) = shelf.sidecar ∧
    d (partialPath path) = shelf.part := by
  subst h
  exact ⟨rfl, rfl, rfl⟩

lemma newline_not_mem_cacheMagic : '\n' ∉ cacheMagic := by decide

lemma newline_not_mem_partialMagic : '\n' ∉ partialMagic := by decide

lemma spanOf_inside {data : List UInt8} {piece : Span} (h : piece.finish ≤ data.length) :
    spanOf (some data) piece = .ok (slice data piece) := by
  rw [spanOf, if_neg (Nat.not_lt.mpr h)]

lemma lowercase_sha256 (bytes : List UInt8) : lowercase (sha256 bytes) = sha256 bytes := by
  have hdigits : ∀ c ∈ "0123456789abcdef".toList, c.toLower = c :=
    List.all_iff_forall_prop.mp (by decide)
  refine (List.map_congr_left fun c hc => ?_).trans (List.map_id _)
  exact hdigits c (mem_sha256 hc)

namespace World

variable {plan : Plan} {data : List UInt8} {ok : List UInt8 → List UInt8 → Prop} {count : Nat}

/-- The digests tell: a piece of the data that may be short of some last bytes, but has the digest
of the whole piece, is as `ok` says. -/
def Told (w : World) (ok : List UInt8 → List UInt8 → Prop) (slack : Nat) (r : RangeModelRequest)
    (data : List UInt8) : Prop :=
  ∀ plan, w.plan r = .ok plan → ∀ piece ∈ plan.pieces,
    Nearly slack (slice data piece) (slice (w.remote r.source) piece) →
    sha256 (slice data piece) = sha256 (slice (w.remote r.source) piece) →
    ok (slice data piece) (slice (w.remote r.source) piece)

lemma Told.filled (h : w.Told ok slack r data) (hplan : w.plan r = .ok plan)
    (hfilled : Filled (Nearly slack) (w.remote r.source) plan count data)
    (hdigests : ∀ piece ∈ plan.pieces.take count,
      sha256 (slice data piece) = sha256 (slice (w.remote r.source) piece)) :
    Filled ok (w.remote r.source) plan count data where
  length := hfilled.length
  pieces piece hpiece :=
    h plan hplan piece (List.mem_of_mem_take hpiece) (hfilled.pieces piece hpiece)
      (hdigests piece hpiece)
  zero := hfilled.zero

end World

/-- A sidecar is read as it is, or not at all. -/
lemma tries_readSidecarFile {file magic : List Char} {allowEmpty : Bool} {K : Disk → Prop}
    {Q : RangeModelStats × List Range → Disk → Prop} {E : String → Disk → Prop} (hK : K d)
    (hQ : ∀ bytes found, d file = some bytes →
      parseSidecar magic r allowEmpty (decode bytes) = .ok found → Q found d)
    (hE : ∀ error, (trouble ∨ ∀ bytes, d file = some bytes →
      ∃ error, parseSidecar magic r allowEmpty (decode bytes) = .error error) → E error d) :
    Tries (w.machine trouble lost) Q E K (readSidecarFile file magic r allowEmpty) d := by
  unfold readSidecarFile
  refine tries_bind.mpr (tries_read hK ?_ fun htrouble => ⟨hE _ (.inl htrouble), hK⟩)
  cases hfile : d file with
  | none => exact ⟨hE _ (.inr fun bytes hbytes => by rw [hfile] at hbytes; cases hbytes), hK⟩
  | some bytes =>
    refine tries_fromExcept hK ?_
    cases hparse : parseSidecar magic r allowEmpty (decode bytes) with
    | ok found => exact hQ bytes found hfile hparse
    | error error =>
      refine hE error (.inr fun bytes' hbytes' => ⟨error, ?_⟩)
      rw [← Option.some.inj (hfile.symm.trans hbytes'), hparse]

/-- A range passes that has the digest of the sidecar. -/
lemma tries_checkCached {piece : Span} {file data : List UInt8} {Q : Unit → Disk → Prop}
    {E : String → Disk → Prop} {K : Disk → Prop} {logicalBytes : Nat} (hK : K d)
    (hdata : d r.path = some data) (hinside : piece.finish ≤ data.length)
    (hQ : sha256 (slice data piece) = sha256 (slice file piece) → Q () d)
    (hE : ∀ error, E error d) :
    Tries (w.machine trouble lost) Q E K (checkCached r logicalBytes (held file piece)) d := by
  unfold checkCached
  refine tries_bind.mpr (tries_require hK (fun _ => ?_) fun _ => hE _)
  refine tries_bind.mpr (tries_readSpan hK ?_ fun _ error => ⟨hE _, hK⟩)
  rw [hdata, held, spanOf_inside hinside]
  refine tries_require hK (fun hdigest => hQ ?_) fun _ => hE _
  rwa [lowercase_sha256, lowercase_sha256] at hdigest

/-- A cache is reused only if it is complete. -/
lemma tries_reuseCache {ok : List UInt8 → List UInt8 → Prop} {Q : RangeModelStats → Disk → Prop}
    {E : String → Disk → Prop} (hK : w.Keeps slack r.path start d)
    (htold : ∀ data ∈ d r.path, w.Told ok slack r data)
    (hQ : ∀ stats again, w.Complete ok r again (d.shelf r.path) → Q stats d)
    (hE : ∀ error, E error d) :
    Tries (w.machine trouble lost) Q E (w.Keeps slack r.path start) (reuseCache r) d := by
  have hkept := hK.shelf
  generalize hshelf : d.shelf r.path = shelf at hkept hQ
  obtain ⟨hdata, hsidecar, -⟩ := shelf_eq hshelf
  unfold reuseCache
  refine tries_bind.mpr (tries_readSidecarFile hK (fun bytes found hbytes hparse => ?_)
    fun _ _ => hE _)
  rw [hsidecar] at hbytes
  cases hkept with
  | vacant hforeign =>
    refine tries_bind.mpr (tries_size hK ?_ fun _ => ?_)
    all_goals exact tries_bind.mpr (tries_require hK (fun h => by simp [hdata] at h) fun _ => hE _)
  | bare => cases hbytes
  | going => cases hbytes
  | @finished q plan again data part hserved hfilled hpart =>
    have hcount : plan.pieces.length ≠ 0 := fun hzero =>
      hserved.sound.nonempty (List.length_eq_zero_iff.mp hzero)
    obtain rfl := Option.some.inj hbytes
    rw [hserved.parse bytes_cacheMagic newline_not_mem_cacheMagic (.inr hcount)] at hparse
    split_ifs at hparse with hkey
    obtain rfl := Except.ok.inj hparse
    have hsound := hserved.sound
    have hplan : w.plan r = .ok plan := w.plan_congr hkey ▸ hserved.plan
    have hsource : q.source = r.source := congrArg Prod.fst hkey
    rw [hsource] at hfilled
    have hranges : w.ranges q plan plan.pieces.length = w.ranges r plan plan.pieces.length := by
      rw [World.ranges, World.ranges, hsource]
    rw [hranges]
    refine tries_bind.mpr (tries_size hK ?_ fun _ => ?_)
    rotate_left
    · exact tries_bind.mpr (tries_require hK (fun h => by cases h) fun _ => hE _)
    refine tries_bind.mpr (tries_require hK (fun _ => ?_) fun _ => hE _)
    -- The digests of the ranges that were checked are right.
    refine tries_bind.mpr (tries_foldlM (I := fun front _ t => t = d ∧
      ∀ range ∈ front, sha256 (slice data range.span) = range.sha256) ?_ ?_ ⟨rfl, by simp⟩ hK)
    · rintro front range rest ⟨⟩ t hsplit ⟨rfl, hfront⟩ hKt
      have hrange : range ∈ w.ranges r plan plan.pieces.length := hsplit ▸ List.mem_append_cons_self
      obtain ⟨piece, hpiece, rfl⟩ := List.mem_map.mp hrange
      refine tries_checkCached hKt hdata ?_ (fun hdigest => ⟨rfl, ?_⟩) fun _ => hE _
      · rw [hfilled.length, ← hsource]
        exact hsound.inside piece (List.mem_of_mem_take hpiece)
      · exact List.forall_mem_append.mpr ⟨hfront, List.forall_mem_singleton.mpr hdigest⟩
    · rintro ⟨⟩ t hKt ⟨rfl, hdigests⟩
      have hwhole : Filled ok (w.remote r.source) plan plan.pieces.length data :=
        (htold data hdata).filled hplan hfilled fun piece hpiece =>
          hdigests (held (w.remote r.source) piece) (List.mem_map_of_mem hpiece)
      have hcomplete : w.Complete ok r again
          ⟨some data, some (w.sidecarBytes cacheMagic q plan plan.pieces.length again), part⟩ :=
        ⟨plan, data, hplan, rfl, hwhole, congrArg some (World.sidecarBytes_congr hkey)⟩
      exact tries_bind.mpr (tries_physicalSize hKt ⟨hQ _ _ hcomplete, hKt⟩
        fun _ _ => ⟨hQ _ _ hcomplete, hKt⟩)

/-! ### Taking stock -/

/-- A shelf without data has no sidecar of an incomplete cache. -/
def Shelf.tidied (shelf : Shelf) : Shelf :=
  ⟨shelf.data, shelf.sidecar, if shelf.data.isSome then shelf.part else none⟩

lemma Shelf.part_tidied {shelf : Shelf} (h : shelf.tidied.data = none) :
    shelf.tidied.part = none := by
  obtain ⟨data, sidecar, part⟩ := shelf
  obtain rfl : data = none := h
  rfl

lemma Shelf.bare_of_tidied {shelf : Shelf} (h : shelf.tidied.Bare) : shelf.Bare := by
  obtain ⟨data, sidecar, part⟩ := shelf
  obtain ⟨hdata, hsidecar, hpart⟩ := h
  obtain ⟨bytes, rfl⟩ := Option.isSome_iff_exists.mp hdata
  exact ⟨hdata, hsidecar, hpart⟩

def Shelf.empty : Shelf := ⟨none, none, none⟩

lemma tries_tidy {Q : Unit → Disk → Prop} {E : String → Disk → Prop}
    (hK : w.Keeps slack r.path start d)
    (hQ : ∀ t, w.Keeps slack r.path start t → t.shelf r.path = (d.shelf r.path).tidied → Q () t) :
    Tries (w.machine trouble lost) Q E (w.Keeps slack r.path start) (tidy r) d := by
  unfold tidy
  refine tries_bind.mpr (tries_present hK ?_)
  cases hpart : d (partialPath r.path) with
  | none =>
    refine ⟨hQ d hK ?_, hK⟩
    simp [Shelf.tidied, Disk.shelf, hpart]
  | some part =>
    refine tries_bind.mpr (tries_present hK ?_)
    cases hdata : d r.path with
    | some data =>
      refine ⟨hQ d hK ?_, hK⟩
      simp [Shelf.tidied, Disk.shelf, hdata]
    | none =>
      have hkept := hK.shelf
      have hshelf : d.shelf r.path = ⟨none, d (sidecarPath r.path), some part⟩ := by
        rw [Disk.shelf, hdata, hpart]
      have hremoved : w.Keeps slack r.path start (update d (partialPath r.path) none) := by
        refine hK.update_owned (by simp [owned]) ?_
        rw [shelf_update_part, hshelf]
        rw [hshelf] at hkept
        cases hkept with
        | vacant hforeign => exact .vacant hforeign
      refine tries_remove hK hremoved (hQ _ hremoved ?_)
      rw [shelf_update_part, hshelf]
      rfl

lemma tries_isKnown {K : Disk → Prop} {Q : Bool → Disk → Prop} {E : String → Disk → Prop} (hK : K d)
    (h : Q ((d r.path).isSome || (d (sidecarPath r.path)).isSome) d) :
    Tries (w.machine trouble lost) Q E K (isKnown r) d := by
  unfold isKnown
  refine tries_bind.mpr (tries_present hK ?_)
  cases hdata : d r.path with
  | some data =>
    rw [hdata, Option.isSome_some, Bool.true_or] at h
    exact ⟨h, hK⟩
  | none =>
    rw [hdata, Option.isSome_none, Bool.false_or] at h
    exact tries_present hK h

lemma tries_isCandidate {K : Disk → Prop} {Q : Bool → Disk → Prop} {E : String → Disk → Prop}
    (hK : K d)
    (h : Q (!(d (sidecarPath r.path)).isSome && (d r.path).isSome &&
      (d (partialPath r.path)).isSome) d) :
    Tries (w.machine trouble lost) Q E K (isCandidate r) d := by
  unfold isCandidate
  refine tries_bind.mpr (tries_present hK ?_)
  cases hsidecar : d (sidecarPath r.path) with
  | some sidecar =>
    rw [hsidecar] at h
    exact ⟨h, hK⟩
  | none =>
    rw [hsidecar] at h
    refine tries_bind.mpr (tries_present hK ?_)
    cases hdata : d r.path with
    | none =>
      rw [hdata] at h
      exact ⟨h, hK⟩
    | some data =>
      rw [hdata] at h
      exact tries_present hK h

/-- The files of a cache that is not reused are removed, the data first. -/
lemma tries_removeAll {Q : Option RangeModelStats × Bool → Disk → Prop} {E : String → Disk → Prop}
    (hK : w.Keeps slack r.path start d)
    (hforeign : ∀ bytes ∈ d (sidecarPath r.path), firstLine (some bytes) = some cacheMagic)
    (hQ : ∀ t, w.Keeps slack r.path start t → t.shelf r.path = .empty → Q (none, false) t) :
    Tries (w.machine trouble lost) Q E (w.Keeps slack r.path start) (do
      ask (.remove r.path)
      ask (.remove (sidecarPath r.path))
      ask (.remove (partialPath r.path))
      return (none, false)) d := by
  have hdata : w.Keeps slack r.path start (update d r.path none) := by
    refine hK.update_owned (by simp [owned]) ?_
    rw [shelf_update_data]
    exact .vacant hforeign
  have hsidecar :
      w.Keeps slack r.path start (update (update d r.path none) (sidecarPath r.path) none) := by
    refine hdata.update_owned (by simp [owned]) ?_
    rw [shelf_update_sidecar, shelf_update_data]
    exact .vacant fun bytes hbytes => by cases hbytes
  have hpart :
      w.Keeps slack r.path start (update (update (update d r.path none) (sidecarPath r.path) none)
      (partialPath r.path) none) := by
    refine hsidecar.update_owned (by simp [owned]) ?_
    rw [shelf_update_part, shelf_update_sidecar, shelf_update_data]
    exact .vacant fun bytes hbytes => by cases hbytes
  refine tries_bind.mpr (tries_remove hK hdata ?_)
  refine tries_bind.mpr (tries_remove hdata hsidecar ?_)
  refine tries_bind.mpr (tries_remove hsidecar hpart ⟨hQ _ hpart ?_, hpart⟩)
  rw [shelf_update_part, shelf_update_sidecar, shelf_update_data]
  rfl

/-- What is on the shelf is reused, continued, or removed; data without a sidecar is left alone. -/
lemma tries_takeStock {ok : List UInt8 → List UInt8 → Prop}
    {Q : Option RangeModelStats × Bool → Disk → Prop} {E : String → Disk → Prop}
    (hK : w.Keeps slack r.path start d) (htold : ∀ data ∈ d r.path, w.Told ok slack r data)
    (htidy : (d.shelf r.path).data = none → (d.shelf r.path).part = none)
    (hreused : ∀ stats again, w.Complete ok r again (d.shelf r.path) → Q (some stats, false) d)
    (hfresh : ∀ t, w.Keeps slack r.path start t → t.shelf r.path = .empty → Q (none, false) t)
    (hcandidate : ∀ q plan count again data, w.Served r.path q plan → count ≤ plan.pieces.length →
      Filled (Nearly slack) (w.remote q.source) plan count data →
      d.shelf r.path = ⟨some data, none, some (w.sidecarBytes partialMagic q plan count again)⟩ →
      Q (none, true) d)
    (hE : ∀ error, trouble ∨ (d.shelf r.path).Bare → E error d) :
    Tries (w.machine trouble lost) Q E (w.Keeps slack r.path start) (takeStock r) d := by
  have hkept := hK.shelf
  generalize hshelf : d.shelf r.path = shelf at hkept htidy hreused hcandidate hE
  obtain ⟨hdata, hsidecar, hpart⟩ := shelf_eq hshelf
  unfold takeStock
  refine tries_bind.mpr (tries_isKnown hK ?_)
  have hreuse : ∀ {f : Except String RangeModelStats → Action (Option RangeModelStats × Bool)},
      (∀ stats again, w.Complete ok r again shelf →
        Tries (w.machine trouble lost) Q E (w.Keeps slack r.path start) (f (.ok stats)) d) →
      (∀ error, Tries (w.machine trouble lost) Q E (w.Keeps slack r.path start)
        (f (.error error)) d) →
      Tries (w.machine trouble lost) Q E (w.Keeps slack r.path start)
        (ExceptT.lift (reuseCache r).run >>= f) d := by
    intro f hok herror
    refine tries_bind.mpr (tries_lift.mpr ?_)
    refine Always.mono ?_ (fun _ h => h) (tries_reuseCache hK htold
      (Q := fun stats t => t = d ∧ ∃ again, w.Complete ok r again shelf) (E := fun _ t => t = d)
      (fun stats again h => ⟨rfl, again, hshelf ▸ h⟩) fun _ => rfl)
    rintro (error | stats) t - h
    · obtain rfl : t = d := h
      exact herror error
    · obtain ⟨rfl, again, hcomplete⟩ := h
      exact hok stats again hcomplete
  have hkeep : ∀ stats again, w.Complete ok r again shelf →
      Tries (w.machine trouble lost) Q E (w.Keeps slack r.path start)
          (return (some stats, false)) d :=
    fun stats again hcomplete => ⟨hreused stats again hcomplete, hK⟩
  cases hkept with
  | @vacant sidecar part hforeign =>
    obtain rfl : part = none := htidy rfl
    cases sidecar with
    | none =>
      rw [hdata, hsidecar]
      exact ⟨hfresh d hK hshelf, hK⟩
    | some bytes =>
      rw [hdata, hsidecar]
      refine hreuse hkeep fun error => ?_
      refine tries_bind.mpr (tries_isCandidate hK ?_)
      rw [hsidecar]
      refine tries_bind.mpr (tries_read hK ?_ fun htrouble => ?_)
      · rw [hsidecar]
        exact tries_bind.mpr (tries_require hK
          (fun _ => tries_removeAll hK (hsidecar ▸ hforeign) hfresh)
          fun h => absurd (hforeign bytes rfl) h)
      · exact tries_bind.mpr (tries_require hK (fun h => by cases h) fun _ => hE _ (.inl htrouble))
  | @bare data hzero =>
    have hbare : trouble ∨ Shelf.Bare ⟨some data, none, none⟩ := .inr ⟨rfl, rfl, rfl⟩
    rw [hdata]
    refine hreuse hkeep fun error => ?_
    refine tries_bind.mpr (tries_isCandidate hK ?_)
    rw [hsidecar, hdata, hpart]
    refine tries_bind.mpr (tries_read hK ?_ fun _ => ?_)
    · rw [hsidecar]
      exact tries_bind.mpr (tries_require hK (fun h => by cases h) fun _ => hE _ hbare)
    · exact tries_bind.mpr (tries_require hK (fun h => by cases h) fun _ => hE _ hbare)
  | @going q plan count again data hserved hcount hfilled =>
    rw [hdata]
    refine hreuse hkeep fun error => ?_
    refine tries_bind.mpr (tries_isCandidate hK ?_)
    rw [hsidecar, hdata, hpart]
    refine tries_bind.mpr (tries_read hK ?_ fun htrouble => ?_)
    · rw [hpart]
      exact tries_bind.mpr (tries_require hK
        (fun _ => ⟨hcandidate q plan count again data hserved hcount hfilled rfl, hK⟩)
        fun h => absurd (hserved.firstLine bytes_partialMagic newline_not_mem_partialMagic) h)
    · exact tries_bind.mpr (tries_require hK (fun h => by cases h) fun _ => hE _ (.inl htrouble))
  | @finished q plan again data part hserved hfilled hforeign =>
    have hmagic : firstLine (some (w.sidecarBytes cacheMagic q plan plan.pieces.length again)) =
        some cacheMagic := hserved.firstLine bytes_cacheMagic newline_not_mem_cacheMagic
    rw [hdata]
    refine hreuse hkeep fun error => ?_
    refine tries_bind.mpr (tries_isCandidate hK ?_)
    rw [hsidecar]
    refine tries_bind.mpr (tries_read hK ?_ fun htrouble => ?_)
    · rw [hsidecar]
      refine tries_bind.mpr (tries_require hK (fun _ => tries_removeAll hK ?_ hfresh)
        fun h => absurd hmagic h)
      rw [hsidecar]
      rintro bytes ⟨⟩
      exact hmagic
    · exact tries_bind.mpr (tries_require hK (fun h => by cases h) fun _ => hE _ (.inl htrouble))

/-! ### The header -/

lemma temporary_mem_scratch : temporaryPath path ∈ scratch path := List.mem_cons_self

lemma headers_mem_scratch : headersPath (temporaryPath path) ∈ scratch path :=
  List.mem_cons_of_mem _ List.mem_cons_self

/-- A fetched range is in the temporary file. -/
lemma tries_fetchSpan {span : Span} {Q : Nat → Disk → Prop} {E : String → Disk → Prop}
    (hK : w.Keeps slack r.path start d)
    (hQ : ∀ t, w.Keeps slack r.path start t → t.shelf r.path = d.shelf r.path →
      span.finish ≤ (w.remote r.source).length →
      t (temporaryPath r.path) = some (slice (w.remote r.source) span) →
      Q (w.remote r.source).length t)
    (hE : ∀ error t, w.Keeps slack r.path start t → t.shelf r.path = d.shelf r.path →
      trouble ∨ span.size = 0 ∨ (w.remote r.source).length < span.finish → E error t) :
    Tries (w.machine trouble lost) Q E (w.Keeps slack r.path start) (fetchSpan r span) d := by
  have hsize := w.remote_lt r.source
  have hupdate : ∀ content headers,
      w.Keeps slack r.path start (update (update d (headersPath (temporaryPath r.path)) headers)
        (temporaryPath r.path) content) ∧
      Disk.shelf (update (update d (headersPath (temporaryPath r.path)) headers)
        (temporaryPath r.path)
        content) r.path = d.shelf r.path := fun content headers =>
    ⟨(hK.update_scratch headers_mem_scratch).update_scratch temporary_mem_scratch, by
      rw [shelf_update_scratch temporary_mem_scratch, shelf_update_scratch headers_mem_scratch]⟩
  unfold fetchSpan
  refine tries_bind.mpr (tries_require hK (fun hspan => ?_) fun hspan => hE _ d hK rfl (.inr ?_))
  · refine tries_bind.mpr (tries_fetch hK
      (fun content headers => (hupdate content headers).1) ?_ ?_)
    · intro hfinish
      obtain ⟨hkeeps, hshelf⟩ := hupdate (some (slice (w.remote r.source) span)) none
      exact ⟨hQ _ hkeeps hshelf hfinish (Function.update_self ..), hkeeps⟩
    · intro error content headers hcause
      obtain ⟨hkeeps, hshelf⟩ := hupdate content headers
      exact ⟨hE _ _ hkeeps hshelf (hcause.imp_right .inr), hkeeps⟩
  · rw [not_and_or, not_not, Nat.not_lt] at hspan
    exact hspan.imp_right fun h => by omega

/-- The header is read as it is on the server. -/
lemma tries_fetchHeader {left offset transferred : Nat} {logicalSize : UInt64}
    {architecture : List Char}
    {metadata : List UInt8} {Q : Index × Nat × Nat → Disk → Prop} {E : String → Disk → Prop}
    (hK : w.Keeps slack r.path start d)
    (hsize : logicalSize = 0 ∨ logicalSize = .ofNat (w.remote r.source).length)
    (hQ : ∀ index total t, w.Keeps slack r.path start t → t.shelf r.path = d.shelf r.path →
      headerPieces (w.remote r.source) left offset logicalSize architecture metadata transferred =
        .ok (index, total) → Q (index, (w.remote r.source).length, total) t)
    (hE : ∀ error t, w.Keeps slack r.path start t → t.shelf r.path = d.shelf r.path →
      (trouble ∨
        ∃ error, headerPieces (w.remote r.source) left offset logicalSize architecture metadata
        transferred = .error error) → E error t) :
    Tries (w.machine trouble lost) Q E (w.Keeps slack r.path start)
      (fetchHeader r left offset logicalSize architecture metadata transferred) d := by
  have hlt := w.remote_lt r.source
  induction left generalizing offset logicalSize architecture metadata transferred d with
  | zero => exact ⟨hE _ d hK rfl (.inr ⟨_, rfl⟩), hK⟩
  | succ left ih =>
    rw [headerPieces] at hQ hE
    dsimp only at hQ hE
    rw [fetchHeader]
    refine tries_bind.mpr (tries_require hK (fun hwanted => ?_)
      fun hwanted => hE _ d hK rfl (.inr ?_))
    rotate_left
    · rw [if_pos (not_not.mp hwanted)]
      exact ⟨_, rfl⟩
    rw [if_neg hwanted] at hQ hE
    refine tries_bind.mpr (tries_fetchSpan hK (fun t ht hshelf hfinish htemporary => ?_)
      fun error t ht hshelf hcause => hE error t ht hshelf (hcause.imp_right fun hcause => ?_))
    rotate_left
    · rw [if_pos (show (w.remote r.source).length < offset + wantedSize logicalSize offset from
        hcause.resolve_left hwanted)]
      exact ⟨_, rfl⟩
    have hlong : ¬ (w.remote r.source).length < offset + wantedSize logicalSize offset :=
      Nat.not_lt.mpr hfinish
    rw [if_neg hlong] at hQ hE
    have hreported : logicalSize = 0 ∨ (w.remote r.source).length = logicalSize.toNat := by
      refine hsize.imp_right fun heq => ?_
      rw [heq, UInt64.toNat_ofNat_of_lt' (hlt.trans (by decide))]
    have hremoved : w.Keeps slack r.path start (update t (temporaryPath r.path) none) :=
      ht.update_scratch temporary_mem_scratch
    have hremovedShelf : Disk.shelf (update t (temporaryPath r.path) none) r.path =
        d.shelf r.path :=
      (shelf_update_scratch temporary_mem_scratch).trans hshelf
    refine tries_bind.mpr (tries_requireOr ht (fun _ => ?_) fun h => absurd hreported h)
    refine tries_bind.mpr (tries_read ht ?_ fun htrouble => ?_)
    rotate_left
    · exact tries_bind.mpr (tries_remove ht hremoved ⟨hE _ _ hremoved hremovedShelf (.inl htrouble),
        hremoved⟩)
    rw [htemporary]
    refine tries_bind.mpr (tries_remove ht hremoved ?_)
    cases hparse : parseIndexInto architecture
      (metadata ++ slice (w.remote r.source) ⟨offset, wantedSize logicalSize offset⟩)
      (.ofNat (w.remote r.source).length) with
    | ok index =>
      rw [hparse] at hQ
      exact ⟨hQ index _ _ hremoved hremovedShelf rfl, hremoved⟩
    | error stop =>
      rw [hparse] at hQ hE
      cases stop with
      | invalid error => exact ⟨hE _ _ hremoved hremovedShelf (.inr ⟨_, rfl⟩), hremoved⟩
      | incomplete =>
        refine ih hremoved (.inr rfl) (fun index total t' ht' hshelf' => ?_)
          fun error t' ht' hshelf' => ?_
        · exact hQ index total t' ht' (hshelf'.trans hremovedShelf)
        · exact hE error t' ht' (hshelf'.trans hremovedShelf)

end ProviderOwned.Gguf
