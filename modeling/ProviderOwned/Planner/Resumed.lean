import ProviderOwned.Planner.Stocked

/-!
# Downloads that are cut short

The parts of `prepare_range_model` behind the header against the files they leave at every cut, and
the whole of it (`tries_prepareRangeModel`).
-/

namespace ProviderOwned.Gguf

open Interrupted Spans
open Function (update)
open Sha256 (sha256)

variable {w : World} {path : List Char} {start d : Disk} {trouble : Prop} {lost slack : Nat}
  {ok : List UInt8 → List UInt8 → Prop} {r : RangeModelRequest} {plan : Plan} {count again : Nat}

/-! ### Continuing a cache -/

/-- The first `count` pieces of a cache that is being filled are as `ok` says. -/
def World.Going (w : World) (ok : List UInt8 → List UInt8 → Prop) (r : RangeModelRequest)
    (plan : Plan) (count again : Nat) (shelf : Shelf) : Prop :=
  count ≤ plan.pieces.length ∧ ∃ data, Filled ok (w.remote r.source) plan count data ∧
    shelf = ⟨some data, none, some (w.sidecarBytes partialMagic r plan count again)⟩

/-- A range passes that has the digest of the sidecar. -/
lemma tries_checkCompleted {piece : Span} {file data : List UInt8} {Q : Unit → Disk → Prop}
    {E : String → Disk → Prop} {K : Disk → Prop} (hK : K d) (hdata : d r.path = some data)
    (hinside : piece.finish ≤ data.length)
    (hQ : sha256 (slice data piece) = sha256 (slice file piece) → Q () d)
    (hE : ∀ error, E error d) :
    Tries (w.machine trouble lost) Q E K (checkCompleted r (held file piece) piece) d := by
  unfold checkCompleted
  refine tries_bind.mpr (tries_require hK (fun _ => ?_) fun _ => hE _)
  refine tries_bind.mpr (tries_readSpan hK ?_ fun _ error => ⟨hE _, hK⟩)
  rw [hdata, held, spanOf_inside hinside]
  refine tries_require hK (fun hdigest => hQ ?_) fun _ => hE _
  rwa [lowercase_sha256, lowercase_sha256] at hdigest

/-- The ranges pass if they all have their digests; else those before the wrong one are counted. -/
lemma tries_checkRanges {pieces : List Span} {file data : List UInt8} {completedBytes : Nat}
    {Q : Nat × Bool → Disk → Prop} {E : String → Disk → Prop} {K : Disk → Prop} (hK : K d)
    (hdata : d r.path = some data) (hinside : ∀ piece ∈ pieces, piece.finish ≤ data.length)
    (hfits : (∀ piece ∈ pieces, sha256 (slice data piece) = sha256 (slice file piece)) →
      Q (completedBytes + total pieces, true) d)
    (hwrong : ∀ n, Q (completedBytes + total (pieces.take n), false) d) :
    Tries (w.machine trouble lost) Q E K
      (checkRanges r (pieces.map fun piece => (held file piece, piece)) completedBytes) d := by
  induction pieces generalizing completedBytes with
  | nil => exact ⟨hfits (List.forall_mem_nil _), hK⟩
  | cons piece pieces ih =>
    rw [List.forall_mem_cons] at hinside
    rw [List.map_cons, checkRanges]
    refine tries_bind.mpr (tries_lift.mpr ?_)
    refine Always.mono ?_ (fun _ h => h) (tries_checkCompleted hK hdata hinside.1
      (Q := fun _ t => t = d ∧ sha256 (slice data piece) = sha256 (slice file piece))
      (E := fun _ t => t = d) (fun hdigest => ⟨rfl, hdigest⟩) fun _ => rfl)
    rintro (error | ⟨⟩) t - h
    · obtain rfl : t = d := h
      exact ⟨hwrong 0, hK⟩
    · obtain ⟨rfl, hdigest⟩ := h
      refine ih hinside.2 (fun hrest => ?_) fun n => ?_
      · have hall := hfits (List.forall_mem_cons.mpr ⟨hdigest, hrest⟩)
        rwa [total_cons, ← Nat.add_assoc] at hall
      · have hsome := hwrong (n + 1)
        rwa [List.take_succ_cons, total_cons, ← Nat.add_assoc] at hsome

lemma zip_map_self {α β : Type} (f : α → β) (l : List α) (n : Nat) :
    ((l.take n).map f).zip l = (l.take n).map fun a => (f a, a) := by
  induction l generalizing n with
  | nil => simp
  | cons a l ih =>
    cases n with
    | zero => rfl
    | succ n => rw [List.take_succ_cons, List.map_cons, List.zip_cons_cons, ih, List.map_cons]

/-- Only a sidecar for the same file and layers is read. -/
lemma tries_readPartial (plan : Plan) {q : RangeModelRequest} {plan' : Plan} {data : List UInt8}
    {Q : List Range → Disk → Prop} {E : String → Disk → Prop} {K : Disk → Prop} (hK : K d)
    (hserved : w.Served path q plan')
    (hshelf : d.shelf r.path =
      ⟨some data, none, some (w.sidecarBytes partialMagic q plan' count again)⟩)
    (hQ : q.key = r.key → Q (w.ranges q plan' count) d) (hE : ∀ error, E error d) :
    Tries (w.machine trouble lost) Q E K (readPartial r plan) d := by
  obtain ⟨-, -, hpart⟩ := shelf_eq hshelf
  unfold readPartial
  refine tries_bind.mpr (tries_readSidecarFile hK (fun bytes found hbytes hparse => ?_)
    fun _ _ => hE _)
  rw [hpart] at hbytes
  obtain rfl := Option.some.inj hbytes
  rw [hserved.parse bytes_partialMagic newline_not_mem_partialMagic (.inl rfl)] at hparse
  split_ifs at hparse with hkey
  obtain rfl := Except.ok.inj hparse
  refine tries_bind.mpr (tries_require hK (fun _ => ?_) fun _ => hE _)
  refine tries_bind.mpr (tries_size hK ?_ fun _ => ?_)
  all_goals refine tries_bind.mpr (tries_require hK (fun _ => ?_) fun _ => hE _)
  all_goals exact tries_bind.mpr (tries_require hK (fun _ => ⟨hQ hkey, hK⟩) fun _ => hE _)

/-- A candidate that does not fit is removed, the data first. -/
lemma tries_discard {Q : Unit → Disk → Prop} {E : String → Disk → Prop}
    (hK : w.Keeps slack r.path start d) (hsidecar : (d.shelf r.path).sidecar = none)
    (hQ : ∀ t, w.Keeps slack r.path start t → t.shelf r.path = .empty → Q () t) :
    Tries (w.machine trouble lost) Q E (w.Keeps slack r.path start) (discard r) d := by
  have hdata : w.Keeps slack r.path start (update d r.path none) := by
    refine hK.update_owned (by simp [owned]) ?_
    rw [shelf_update_data, hsidecar]
    exact .vacant fun bytes hbytes => by cases hbytes
  have hpart : w.Keeps slack r.path start
      (update (update d r.path none) (partialPath r.path) none) := by
    refine hdata.update_owned (by simp [owned]) ?_
    rw [shelf_update_part, shelf_update_data, hsidecar]
    exact .vacant fun bytes hbytes => by cases hbytes
  refine tries_bind.mpr (tries_remove hK hdata (tries_remove hdata hpart (hQ _ hpart ?_)))
  rw [shelf_update_part, shelf_update_data, hsidecar]
  rfl

/-- A candidate is continued, or removed with some of its pieces counted. -/
lemma tries_resume {candidate : Bool} {Q : Option (List Range) × Nat → Disk → Prop}
    {E : String → Disk → Prop} (hserved : w.Served r.path r plan)
    (hK : w.Keeps slack r.path start d)
    (htold : ∀ data ∈ (d.shelf r.path).data, w.Told ok slack r data)
    (hempty : candidate = false → d.shelf r.path = .empty)
    (hstock : candidate = true → ∃ q plan' count again,
      w.Served r.path q plan' ∧ w.Going (Nearly slack) q plan' count again (d.shelf r.path))
    (hfresh : ∀ again t, w.Keeps slack r.path start t → t.shelf r.path = .empty →
      (candidate = false → again = 0) → Q (none, total (plan.pieces.take again)) t)
    (hgoing : ∀ count again, w.Going ok r plan count again (d.shelf r.path) →
      Q (some (w.ranges r plan count), total (plan.pieces.take count)) d) :
    Tries (w.machine trouble lost) Q E (w.Keeps slack r.path start)
      (resume r plan candidate) d := by
  unfold resume
  cases candidate with
  | false => exact ⟨hfresh 0 d hK (hempty rfl) fun _ => rfl, hK⟩
  | true =>
    obtain ⟨q, plan', count, again, hserved', hcount, data, hfilled, hshelf⟩ := hstock rfl
    obtain ⟨hdata, -, -⟩ := shelf_eq hshelf
    have hanew : ∀ {n : Nat}, Tries (w.machine trouble lost) Q E (w.Keeps slack r.path start) (do
        discard r
        return (none, total (plan.pieces.take n))) d := fun {n} =>
      tries_bind.mpr (tries_discard hK (by rw [hshelf])
        fun t ht hempty => ⟨hfresh n t ht hempty (by rintro ⟨⟩), ht⟩)
    refine tries_bind.mpr (tries_lift.mpr ?_)
    refine Always.mono ?_ (fun _ h => h) (tries_readPartial plan hK hserved' hshelf
      (Q := fun completed t => t = d ∧ q.key = r.key ∧ completed = w.ranges q plan' count)
      (E := fun _ t => t = d) (fun hkey => ⟨rfl, hkey, rfl⟩) fun _ => rfl)
    rintro (error | completed) t - h
    · obtain rfl : t = d := h
      exact hanew (n := 0)
    obtain ⟨rfl, hkey, rfl⟩ := h
    have hsource : q.source = r.source := congrArg Prod.fst hkey
    obtain rfl : plan' = plan := by
      have hplan := hserved'.plan
      rw [w.plan_congr hkey, hserved.plan] at hplan
      exact (Except.ok.inj hplan).symm
    have hranges : w.ranges q plan' count = w.ranges r plan' count := by
      rw [World.ranges, World.ranges, hsource]
    rw [hsource] at hfilled
    rw [hranges]
    refine tries_bind.mpr ?_
    have hzip : (w.ranges r plan' count).zip plan'.pieces =
        (plan'.pieces.take count).map fun piece => (held (w.remote r.source) piece, piece) :=
      zip_map_self _ _ _
    rw [hzip]
    refine tries_checkRanges hK hdata (fun piece hpiece => ?_) (fun hdigests => ?_) fun n => ?_
    · rw [hfilled.length]
      exact hserved.sound.inside piece (List.mem_of_mem_take hpiece)
    · have hwhole : Filled ok (w.remote r.source) plan' count data :=
        (htold data (by rw [hshelf]; rfl)).filled hserved.plan hfilled hdigests
      rw [Nat.zero_add]
      refine ⟨hgoing count again ⟨hcount, data, hwhole, ?_⟩, hK⟩
      rw [hshelf, World.sidecarBytes_congr hkey]
    · rw [Nat.zero_add, List.take_take]
      exact hanew

/-! ### Downloading -/

/-- What a run may rely on: what is written is as `ok` says, and that is all of it where nothing
fails. -/
structure Trust (trouble : Prop) (lost slack : Nat) (ok : List UInt8 → List UInt8 → Prop) :
    Prop where
  written : ∀ {bytes full}, Nearly lost bytes full → ok bytes full
  nearly : ∀ {bytes full}, ok bytes full → Nearly slack bytes full
  exact : ¬ trouble → ∀ {bytes full}, ok bytes full → bytes = full

section
variable (htrust : Trust trouble lost slack ok)
include htrust

/-- The sidecar of an incomplete cache is written. -/
lemma tries_writePartial {Q : Unit → Disk → Prop} {E : String → Disk → Prop} {data : List UInt8}
    (hserved : w.Served r.path r plan) (hK : w.Keeps slack r.path start d)
    (hcount : count ≤ plan.pieces.length) (hfilled : Filled ok (w.remote r.source) plan count data)
    (hdata : (d.shelf r.path).data = some data) (hsidecar : (d.shelf r.path).sidecar = none)
    (hQ : ∀ t, w.Keeps slack r.path start t → w.Going ok r plan count again (t.shelf r.path) →
      Q () t)
    (hE : trouble → ∀ error t, w.Keeps slack r.path start t → E error t) :
    Tries (w.machine trouble lost) Q E (w.Keeps slack r.path start) (writeSidecarFile
      (partialPath r.path) partialMagic r (plan.progress count again) (w.ranges r plan count))
        d := by
  have hshelf : Disk.shelf (update d (partialPath r.path) (some (encode (sidecarText partialMagic r
      (plan.progress count again) (w.ranges r plan count))))) r.path =
        ⟨some data, none, some (w.sidecarBytes partialMagic r plan count again)⟩ := by
    rw [shelf_update_part, hdata, hsidecar]
    rfl
  refine tries_writeSidecarFile (by simp [scratch]) (by simp [owned]) hK ?_ (fun t ht hshelf' => ?_)
    fun htrouble error t ht _ => hE htrouble error t ht
  · rw [hshelf]
    exact .going hserved hcount (hfilled.mono htrust.nearly)
  · exact hQ t ht ⟨hcount, data, hfilled, hshelf'.trans hshelf⟩

omit htrust in
lemma ranges_succ {piece : Span} (hpiece : plan.pieces[count]? = some piece) :
    w.ranges r plan count ++ [held (w.remote r.source) piece] = w.ranges r plan (count + 1) := by
  rw [World.ranges, World.ranges, List.take_add_one, hpiece, List.map_append]
  rfl

omit htrust in
lemma total_take_succ {l : List Span} {piece : Span} (hpiece : l[count]? = some piece) :
    total (l.take (count + 1)) = total (l.take count) + piece.size := by
  rw [List.take_add_one, hpiece, total, List.map_append, List.sum_append]
  rfl

omit htrust in
lemma Plan.counted_succ {piece : Span} (hpiece : plan.pieces[count]? = some piece) :
    plan.counted (count + 1) again = plan.counted count again + piece.size := by
  rw [Plan.counted, Plan.counted, total_take_succ hpiece]
  omega

omit htrust in
lemma tries_clearTemporary {piece : Span} {Q : Unit → Disk → Prop} {E : String → Disk → Prop}
    (hK : w.Keeps slack r.path start d)
    (hQ : ∀ t, w.Keeps slack r.path start t → t.shelf r.path = d.shelf r.path → Q () t) :
    Tries (w.machine trouble lost) Q E (w.Keeps slack r.path start) (clearTemporary r piece) d := by
  have hremoved : w.Keeps slack r.path start (update d (temporaryPath r.path) none) :=
    hK.update_scratch temporary_mem_scratch
  unfold clearTemporary
  split_ifs with hzero
  · exact tries_remove hK hremoved (hQ _ hremoved (shelf_update_scratch temporary_mem_scratch))
  · exact ⟨hQ d hK rfl, hK⟩

/-- The next piece is fetched, written and added to the sidecar. -/
lemma tries_downloadPiece {piece : Span} {Q : List Range × Nat → Disk → Prop}
    {E : String → Disk → Prop} (hserved : w.Served r.path r plan)
    (hK : w.Keeps slack r.path start d) (hgoing : w.Going ok r plan count again (d.shelf r.path))
    (hpiece : plan.pieces[count]? = some piece)
    (hQ : ∀ t, w.Keeps slack r.path start t → w.Going ok r plan (count + 1) again (t.shelf r.path) →
      Q (w.ranges r plan (count + 1), plan.counted (count + 1) again) t)
    (hE : trouble → ∀ error t, w.Keeps slack r.path start t → E error t) :
    Tries (w.machine trouble lost) Q E (w.Keeps slack r.path start) (downloadPiece r plan
      (w.ranges r plan count, plan.counted count again) piece) d := by
  have hsound := hserved.sound
  have hmem := List.mem_of_getElem? hpiece
  have hlt : count < plan.pieces.length := (List.getElem?_eq_some_iff.mp hpiece).1
  obtain ⟨hcount, data, hfilled, hshelf⟩ := hgoing
  have hremoved : ∀ {t : Disk}, w.Keeps slack r.path start t →
      w.Keeps slack r.path start (update t (temporaryPath r.path) none) :=
    fun ht => ht.update_scratch temporary_mem_scratch
  unfold downloadPiece
  refine tries_bind.mpr (tries_clearTemporary hK fun t ht htShelf => ?_)
  refine tries_bind.mpr (tries_fetchSpan ht (fun t ht htShelf' hfinish htemporary => ?_)
    fun error t ht _ hcause => ?_)
  rotate_left
  · have hsize := hsound.ordered.2 piece hmem
    have hfinish := hsound.inside piece hmem
    exact hE (hcause.resolve_right (by omega)) error t ht
  refine tries_bind.mpr (tries_require ht (fun _ => ?_) fun h => absurd hsound.logicalBytes.symm h)
  refine tries_bind.mpr (tries_read ht ?_ fun htrouble => ⟨hE htrouble _ _ ht, ht⟩)
  rw [htemporary]
  rw [htShelf, hshelf] at htShelf'
  obtain ⟨hdata, -, -⟩ := shelf_eq htShelf'
  have hshelfPatched : ∀ bytes : List UInt8, Disk.shelf (update t r.path (some bytes)) r.path =
      ⟨some bytes, none, some (w.sidecarBytes partialMagic r plan count again)⟩ := by
    intro bytes
    rw [shelf_update_data, htShelf']
  have hpatched : ∀ n, w.Keeps slack r.path start (update t r.path
      (some (patch data piece.start ((slice (w.remote r.source) piece).take n)))) := by
    intro n
    refine ht.update_owned (by simp [owned]) ?_
    rw [hshelfPatched]
    exact .going hserved hcount ((hfilled.patch_take hsound hpiece n).mono htrust.nearly)
  refine tries_bind.mpr (tries_bind.mpr (tries_read ht ?_ fun htrouble => ⟨hE htrouble _ _ ht, ht⟩))
  rw [htemporary]
  refine tries_bind.mpr (tries_write hdata ht hpatched (fun n hn => ?_)
    fun htrouble => ⟨?_, fun n => ?_⟩)
  rotate_left
  · exact tries_require ht (fun h => by cases h) fun _ => hE htrouble _ _ ht
  · exact tries_require (hpatched n) (fun h => by cases h) fun _ => hE htrouble _ _ (hpatched n)
  have hwritten := hpatched n
  have hfilled' := hfilled.patch_nearly hsound htrust.written hpiece hn
  have hwrittenShelf : Disk.shelf (update (update t r.path
      (some (patch data piece.start ((slice (w.remote r.source) piece).take n))))
      (temporaryPath r.path) none) r.path =
      ⟨some (patch data piece.start ((slice (w.remote r.source) piece).take n)), none,
        some (w.sidecarBytes partialMagic r plan count again)⟩ := by
    rw [shelf_update_scratch temporary_mem_scratch, hshelfPatched]
  refine tries_require hwritten (fun _ => ?_) fun h => absurd rfl h
  refine tries_bind.mpr (tries_remove hwritten (hremoved hwritten) ?_)
  have hranges : w.ranges r plan count ++ [⟨piece, sha256 (slice (w.remote r.source) piece)⟩] =
      w.ranges r plan (count + 1) := ranges_succ hpiece
  rw [hranges, ← Plan.counted_succ hpiece]
  refine tries_bind.mpr (tries_writePartial htrust hserved (hremoved hwritten) hlt hfilled' ?_ ?_
    (fun t' ht' hgoing' => ⟨hQ t' ht' hgoing', ht'⟩) hE)
  · rw [hwrittenShelf]
  · rw [hwrittenShelf]

omit htrust

/-- There is room for what is missing where so many bytes count as completed. -/
def World.Roomy (w : World) (plan : Plan) (completedBytes : Nat) : Prop :=
  plan.roomy completedBytes (some w.space)

lemma World.Roomy.mono (h : w.Roomy plan 0) (completedBytes : Nat) :
    w.Roomy plan completedBytes := by
  have hmissing : total plan.pieces - completedBytes ≤ total plan.pieces - 0 :=
    Nat.sub_le_sub_left (Nat.zero_le _) _
  simp only [World.Roomy, Plan.roomy, Option.any_some, decide_eq_true_eq] at h ⊢
  exact (Nat.add_le_add hmissing (min_le_min_left _ hmissing)).trans h

def World.Sparse (w : World) (r : RangeModelRequest) (plan : Plan) : Prop :=
  ∀ data, Filled Eq (w.remote r.source) plan plan.pieces.length data →
    plan.sparse r (w.physicalSize data)

include htrust

/-- The sidecar of the complete cache is published while that of the incomplete one is still
there. -/
lemma tries_publish {Q : RangeModelStats → Disk → Prop} {E : String → Disk → Prop}
    (hserved : w.Served r.path r plan) (hK : w.Keeps slack r.path start d)
    (hgoing : w.Going ok r plan plan.pieces.length again (d.shelf r.path))
    (hQ : ∀ stats t, w.Keeps slack r.path start t → w.Complete ok r again (t.shelf r.path) →
      (¬ trouble → w.Sparse r plan) → Q stats t)
    (hE : ∀ error t, w.Keeps slack r.path start t → trouble ∨ ¬ w.Sparse r plan → E error t) :
    Tries (w.machine trouble lost) Q E (w.Keeps slack r.path start) (publish r plan
      (w.ranges r plan plan.pieces.length, plan.counted plan.pieces.length again)) d := by
  obtain ⟨-, data, hfilled, hshelf⟩ := hgoing
  obtain ⟨hdata, -, -⟩ := shelf_eq hshelf
  have hwrite : ∀ physicalBytes, (¬ trouble → w.Sparse r plan) →
      Tries (w.machine trouble lost) Q E (w.Keeps slack r.path start) (do
        writeSidecarFile (sidecarPath r.path) cacheMagic r
          { plan.progress plan.pieces.length again with physicalBytes }
          (w.ranges r plan plan.pieces.length)
        ask (.remove (partialPath r.path))
        return { plan.progress plan.pieces.length again with physicalBytes }) d := by
    intro physicalBytes hsparse
    have hboth : Disk.shelf (update d (sidecarPath r.path) (some (encode (sidecarText cacheMagic r
        { plan.progress plan.pieces.length again with physicalBytes }
        (w.ranges r plan plan.pieces.length))))) r.path =
        ⟨some data, some (w.sidecarBytes cacheMagic r plan plan.pieces.length again),
          some (w.sidecarBytes partialMagic r plan plan.pieces.length again)⟩ := by
      rw [shelf_update_sidecar, hshelf]
      rfl
    refine tries_bind.mpr (tries_writeSidecarFile (by simp [scratch]) (by simp [owned]) hK ?_
      (fun t ht htShelf => ?_) fun htrouble error t ht _ => hE error t ht (.inl htrouble))
    · rw [hboth]
      refine .finished hserved (hfilled.mono htrust.nearly) ?_
      rintro bytes ⟨⟩
      rfl
    · have hremoved : Disk.shelf (update t (partialPath r.path) none) r.path =
          ⟨some data, some (w.sidecarBytes cacheMagic r plan plan.pieces.length again), none⟩ := by
        rw [shelf_update_part, htShelf, hboth]
      have hkeeps : w.Keeps slack r.path start (update t (partialPath r.path) none) := by
        refine ht.update_owned (by simp [owned]) ?_
        rw [hremoved]
        exact .finished hserved (hfilled.mono htrust.nearly) fun bytes hbytes => by cases hbytes
      refine tries_bind.mpr (tries_remove ht hkeeps ⟨hQ _ _ hkeeps ?_ hsparse, hkeeps⟩)
      rw [hremoved]
      exact ⟨plan, data, hserved.plan, rfl, hfilled, rfl⟩
  -- Without trouble the data is what the server has, of which there is only one.
  have hexact : ¬ trouble → Filled Eq (w.remote r.source) plan plan.pieces.length data :=
    fun hcalm => hfilled.mono (htrust.exact hcalm)
  unfold publish
  refine tries_bind.mpr (tries_physicalSize hK ?_ fun htrouble physicalBytes => ?_)
  · rw [hdata]
    refine tries_bind.mpr (tries_require hK (fun hsparse => hwrite _ fun hcalm data' hfilled' => ?_)
      fun hsparse => hE _ d hK ?_)
    · rw [hfilled'.unique (hexact hcalm)]
      exact hsparse
    · exact or_iff_not_imp_left.mpr fun hcalm h => hsparse (h data (hexact hcalm))
  · exact tries_bind.mpr (tries_require hK (fun _ => hwrite _ fun h => absurd htrouble h)
      fun _ => hE _ d hK (.inl htrouble))

/-- What is missing is downloaded. -/
lemma tries_complete {Q : RangeModelStats → Disk → Prop} {E : String → Disk → Prop}
    {data : List UInt8} (hserved : w.Served r.path r plan) (hK : w.Keeps slack r.path start d)
    (hcount : count ≤ plan.pieces.length) (hfilled : Filled ok (w.remote r.source) plan count data)
    (hdata : (d.shelf r.path).data = some data) (hsidecar : (d.shelf r.path).sidecar = none)
    (hQ : ∀ stats t, w.Keeps slack r.path start t → w.Complete ok r again (t.shelf r.path) →
      (¬ trouble → w.Roomy plan (total (plan.pieces.take again) + total (plan.pieces.take count)) ∧
        w.Sparse r plan) → Q stats t)
    (hE : ∀ error t, w.Keeps slack r.path start t → trouble ∨
      ¬ (w.Roomy plan (total (plan.pieces.take again) + total (plan.pieces.take count)) ∧
        w.Sparse r plan) → E error t) :
    Tries (w.machine trouble lost) Q E (w.Keeps slack r.path start)
      (complete r plan (w.ranges r plan count)
        (total (plan.pieces.take again) + total (plan.pieces.take count))) d := by
  have hlength : (w.ranges r plan count).length = count := by
    rw [World.ranges, List.length_map, List.length_take, Nat.min_eq_left hcount]
  unfold complete
  rw [hlength]
  refine tries_bind.mpr (tries_writePartial htrust hserved hK hcount hfilled hdata hsidecar
    (fun t ht hgoing => ?_) fun htrouble error t ht => hE error t ht (.inl htrouble))
  -- Without trouble it is known that there is room.
  suffices hdownload : (¬ trouble →
      w.Roomy plan (total (plan.pieces.take again) + total (plan.pieces.take count))) →
      Tries (w.machine trouble lost) Q E (w.Keeps slack r.path start) (do
        let done ← (plan.pieces.drop count).foldlM (downloadPiece r plan)
          (w.ranges r plan count, plan.counted count again)
        publish r plan done) t by
    refine tries_bind.mpr (tries_space ht ?_ fun htrouble available => ?_)
    · exact tries_bind.mpr (tries_require ht (fun hroomy => hdownload fun _ => hroomy)
        fun hroomy => hE _ t ht (.inr fun h => hroomy h.1))
    · exact tries_bind.mpr (tries_require ht (fun _ => hdownload fun h => absurd htrouble h)
        fun _ => hE _ t ht (.inl htrouble))
  intro hroomy
  refine tries_bind.mpr (tries_foldlM (I := fun front done t =>
    w.Going ok r plan (count + front.length) again (t.shelf r.path) ∧
      done = (w.ranges r plan (count + front.length), plan.counted (count + front.length) again))
    ?_ ?_ ⟨hgoing, rfl⟩ ht)
  · rintro front piece rest done t hdrop ⟨hgoing, rfl⟩ ht
    have hpiece : plan.pieces[count + front.length]? = some piece := by
      rw [← List.getElem?_drop, hdrop, List.getElem?_append_right (Nat.le_refl _), Nat.sub_self]
      rfl
    refine tries_downloadPiece htrust hserved ht hgoing hpiece (fun t ht hgoing => ?_)
      fun htrouble error t ht => hE error t ht (.inl htrouble)
    rw [List.length_append, List.length_singleton, ← Nat.add_assoc]
    exact ⟨hgoing, rfl⟩
  · rintro done t ht ⟨hgoing, rfl⟩
    have hall : count + (plan.pieces.drop count).length = plan.pieces.length := by
      rw [List.length_drop]
      omega
    rw [hall] at hgoing ⊢
    exact tries_publish htrust hserved ht hgoing
      (fun stats t ht hcomplete hsparse => hQ stats t ht hcomplete fun h => ⟨hroomy h, hsparse h⟩)
      fun error t ht hcause => hE error t ht (hcause.imp_right fun hsparse h => hsparse h.2)

end

/-- An empty file is created. Between this and its first sidecar the data is bare. -/
lemma tries_sparseCreate {Q : Unit → Disk → Prop} {E : String → Disk → Prop}
    (hK : w.Keeps slack r.path start d) (hempty : d.shelf r.path = .empty) {size : Nat}
    (hQ : ∀ t, w.Keeps slack r.path start t →
      t.shelf r.path = ⟨some (List.replicate size 0), none, none⟩ → Q () t)
    (hE : trouble → ∀ error t, w.Keeps slack r.path start t → E error t) :
    Tries (w.machine trouble lost) Q E (w.Keeps slack r.path start)
      (sparseCreate r.path size) d := by
  obtain ⟨hnone, -, -⟩ := shelf_eq hempty
  have hshelf : ∀ content, Disk.shelf (update d r.path content) r.path = ⟨content, none, none⟩ := by
    intro content
    rw [shelf_update_data, hempty]
    rfl
  have hbare : ∀ data : List UInt8, (∀ byte ∈ data, byte = 0) →
      w.Keeps slack r.path start (update d r.path (some data)) := by
    intro data hzero
    refine hK.update_owned (by simp [owned]) ?_
    rw [hshelf]
    exact .bare hzero
  have hcreated := hbare (List.replicate size 0) fun _ => List.eq_of_mem_replicate
  have hremove : ∀ t error, trouble → w.Keeps slack r.path start t →
      (∀ name ≠ r.path, t name = d name) →
      Tries (w.machine trouble lost)
          (fun _ t => E error t) E (w.Keeps slack r.path start) (ask (.remove r.path)) t := by
    intro t error htrouble ht hother
    have hsidecar : t (sidecarPath r.path) = none := by
      rw [hother _ (by simp [sidecarPath])]
      exact (shelf_eq hempty).2.1
    have hvacant : w.Keeps slack r.path start (update t r.path none) := by
      refine ht.update_owned (by simp [owned]) ?_
      rw [shelf_update_data]
      refine .vacant fun bytes hbytes => ?_
      rw [Disk.shelf, hsidecar] at hbytes
      cases hbytes
    exact tries_remove ht hvacant (hE htrouble _ _ hvacant)
  unfold sparseCreate
  refine tries_bind.mpr (tries_create hnone hK (hbare [] fun _ hmem => by cases hmem) hcreated ?_
    fun htrouble => ⟨?_, ?_⟩)
  · exact tries_requireOr hcreated (fun _ => hQ _ hcreated (hshelf _)) fun h => absurd rfl h
  · exact tries_requireOr hK (fun h => by cases h) fun _ => hremove d _ htrouble hK fun _ _ => rfl
  · have hempty' := hbare [] fun _ hmem => by cases hmem
    exact tries_requireOr hempty' (fun h => by cases h)
      fun _ => hremove _ _ htrouble hempty' fun name hname => Function.update_of_ne hname ..

/-- A new file is filled, or one that was begun is completed. -/
lemma tries_download {completed : Option (List Range)} {completedBytes : Nat}
    {Q : RangeModelStats → Disk → Prop} {E : String → Disk → Prop}
    (htrust : Trust trouble lost slack ok) (hserved : w.Served r.path r plan)
    (hK : w.Keeps slack r.path start d)
    (hfresh : completed = none →
      d.shelf r.path = .empty ∧ completedBytes = total (plan.pieces.take again))
    (hgoing : ∀ ranges, completed = some ranges → again = 0 ∧
      ∃ count again, w.Going ok r plan count again (d.shelf r.path) ∧
        ranges = w.ranges r plan count ∧
        completedBytes = total (plan.pieces.take count))
    (hQ : ∀ stats t, w.Keeps slack r.path start t → w.Complete ok r again (t.shelf r.path) →
      (¬ trouble → w.Roomy plan completedBytes ∧ w.Sparse r plan) → Q stats t)
    (hE : ∀ error t, w.Keeps slack r.path start t →
      trouble ∨ ¬ (w.Roomy plan completedBytes ∧ w.Sparse r plan) → E error t) :
    Tries (w.machine trouble lost) Q E (w.Keeps slack r.path start)
      (download r plan completed completedBytes) d := by
  have hhandler : ∀ error t, w.Keeps slack r.path start t →
      trouble ∨ ¬ (w.Roomy plan completedBytes ∧ w.Sparse r plan) →
      Tries (w.machine trouble lost) Q E (w.Keeps slack r.path start) (do
        ask (.remove (temporaryPath r.path))
        throw error) t := by
    intro error t ht hcause
    have hremoved : w.Keeps slack r.path start (update t (temporaryPath r.path) none) :=
      ht.update_scratch temporary_mem_scratch
    exact tries_bind.mpr (tries_remove ht hremoved ⟨hE error _ hremoved hcause, hremoved⟩)
  unfold download
  refine tries_catch.mpr ?_
  cases completed with
  | some ranges =>
    obtain ⟨rfl, count, again, ⟨hcount, data, hfilled, hshelf⟩, rfl, rfl⟩ := hgoing ranges rfl
    have hbytes : total (plan.pieces.take count) =
        total (plan.pieces.take 0) + total (plan.pieces.take count) := by
      rw [List.take_zero, total_nil, Nat.zero_add]
    rw [hbytes] at hQ hhandler ⊢
    exact tries_complete htrust hserved hK hcount hfilled (by rw [hshelf])
      (by rw [hshelf]) hQ hhandler
  | none =>
    obtain ⟨hempty, rfl⟩ := hfresh rfl
    refine tries_bind.mpr (tries_sparseCreate hK hempty (fun t ht htShelf => ?_)
      fun htrouble error t ht => hhandler error t ht (.inl htrouble))
    have hbytes : total (plan.pieces.take again) =
        total (plan.pieces.take again) + total (plan.pieces.take 0) := by
      rw [List.take_zero, total_nil, Nat.add_zero]
    rw [hbytes] at hQ hhandler ⊢
    rw [show ([] : List Range) = w.ranges r plan 0 from rfl]
    exact tries_complete htrust hserved ht (Nat.zero_le _) (Filled.replicate hserved.sound)
      (by rw [htShelf]) (by rw [htShelf]) hQ hhandler

/-! ### The whole of it -/

/-- A request that succeeds from scratch when nothing fails. -/
def World.Ready (w : World) (r : RangeModelRequest) : Prop :=
  r.accepted ∧ ∃ plan, w.plan r = .ok plan ∧ w.Roomy plan 0 ∧ w.Sparse r plan

lemma World.plan_of_header {header : Index × Nat} (h : headerOf (w.remote r.source) = .ok header) :
    w.plan r = planOf r header.1 (w.remote r.source).length header.2 := by
  rw [World.plan, h]
  rfl

lemma World.Ready.header (h : w.Ready r) : ∃ header, headerOf (w.remote r.source) = .ok header := by
  obtain ⟨-, plan, hplan, -⟩ := h
  cases hheader : headerOf (w.remote r.source) with
  | ok header => exact ⟨header, rfl⟩
  | error error =>
    rw [World.plan, hheader] at hplan
    cases hplan

/-- A run keeps the files in one of their states, and succeeds only with a complete cache. Where
nothing fails it succeeds if the request is ready and the data is not bare, and from an empty shelf
only if the request is ready. -/
theorem tries_prepareRangeModel {Q : RangeModelStats → Disk → Prop} {E : String → Disk → Prop}
    (htrust : Trust trouble lost slack ok) (hplain : r.Plain) (hK : w.Keeps slack r.path start d)
    (htold : ∀ data ∈ d r.path, w.Told ok slack r data)
    (hQ : ∀ stats again t, w.Keeps slack r.path start t → w.Complete ok r again (t.shelf r.path) →
      (¬ trouble → d.shelf r.path = .empty → again = 0 ∧ w.Ready r) → Q stats t)
    (hE : ∀ error t, w.Keeps slack r.path start t →
      trouble ∨ ¬ w.Ready r ∨ (d.shelf r.path).Bare → E error t) :
    Tries (w.machine trouble lost) Q E (w.Keeps slack r.path start) (prepareRangeModel r) d := by
  unfold prepareRangeModel
  refine tries_bind.mpr (tries_require hK (fun haccepted => ?_)
    fun haccepted => hE _ d hK (.inr (.inl fun h => haccepted h.1)))
  refine tries_bind.mpr (tries_tidy hK fun t ht htidied => ?_)
  have hempty : d.shelf r.path = .empty → t.shelf r.path = .empty := by
    intro hempty
    rw [htidied, hempty]
    rfl
  have hbare : (t.shelf r.path).Bare → (d.shelf r.path).Bare := by
    rw [htidied]
    exact Shelf.bare_of_tidied
  have hpart : (t.shelf r.path).data = none → (t.shelf r.path).part = none := by
    rw [htidied]
    exact Shelf.part_tidied
  have htold' : ∀ data ∈ (t.shelf r.path).data, w.Told ok slack r data := by
    rw [htidied]
    exact htold
  -- From here on the plan is what the server has.
  have hrest : ∀ candidate t', w.Keeps slack r.path start t' →
      (d.shelf r.path = .empty → candidate = false) →
      (candidate = false → t'.shelf r.path = .empty) →
      (candidate = true → t'.shelf r.path = t.shelf r.path ∧ ∃ q plan count again,
        w.Served r.path q plan ∧ w.Going (Nearly slack) q plan count again (t.shelf r.path)) →
      Tries (w.machine trouble lost) Q E (w.Keeps slack r.path start) (refill r candidate) t' := by
    intro candidate t' ht' hscratched hfresh hstock
    refine tries_bind.mpr (tries_makeParent ht' ?_ fun htrouble => ?_)
    rotate_left
    · exact tries_bind.mpr (tries_require ht' (fun h => by cases h)
        fun _ => hE _ t' ht' (.inl htrouble))
    refine tries_bind.mpr (tries_require ht' (fun _ => ?_) fun h => absurd rfl h)
    refine tries_bind.mpr (tries_fetchHeader ht' (.inl rfl)
      (fun index transferred u hu hshelf hheader => ?_)
      fun error u hu _ hcause => hE error u hu (hcause.imp_right fun hheader => .inl
        fun hready => ?_))
    rotate_left
    · obtain ⟨header, hok⟩ := hready.header
      obtain ⟨error, herror⟩ := hheader
      cases hok.symm.trans herror
    have hplanned : w.plan r = planOf r index (w.remote r.source).length transferred :=
      World.plan_of_header hheader
    refine tries_bind.mpr (tries_fromExcept hu ?_)
    cases hplan : planOf r index (w.remote r.source).length transferred with
    | error error =>
      refine hE error u hu (.inr (.inl fun hready => ?_))
      obtain ⟨-, plan, hok, -⟩ := hready
      cases hok.symm.trans (hplanned.trans hplan)
    | ok plan =>
      have hserved : w.Served r.path r plan := ⟨rfl, hplain, haccepted, hplanned.trans hplan⟩
      have hready : ∀ {completedBytes}, w.Ready r →
          w.Roomy plan completedBytes ∧ w.Sparse r plan := by
        rintro completedBytes ⟨-, plan', hplan', hroomy, hsparse⟩
        obtain rfl : plan' = plan := Except.ok.inj (hplan'.symm.trans hserved.plan)
        exact ⟨hroomy.mono completedBytes, hsparse⟩
      rw [← hshelf] at hfresh hstock
      have htold'' : ∀ data ∈ (u.shelf r.path).data, w.Told ok slack r data := by
        intro data hdata
        cases candidate with
        | false =>
          rw [hfresh rfl] at hdata
          cases hdata
        | true =>
          rw [(hstock rfl).1] at hdata
          exact htold' data hdata
      refine tries_bind.mpr (tries_resume hserved hu htold'' hfresh
        (fun h => (hstock h).1.symm ▸ (hstock h).2) (fun again v hv hempty hzero => ?_)
        fun count again hgoing => ?_)
      · refine tries_download htrust hserved hv (fun _ => ⟨hempty, rfl⟩)
          (fun ranges h => by cases h)
          (fun stats v hv hcomplete h => hQ stats again v hv hcomplete fun hcalm hscratch => ?_)
          fun error v hv hcause => hE error v hv (hcause.imp_right fun h => .inl (mt hready h))
        obtain rfl := hzero (hscratched hscratch)
        exact ⟨rfl, haccepted, plan, hserved.plan, h hcalm⟩
      · refine tries_download htrust hserved hu (fun h => by cases h) ?_
          (fun stats v hv hcomplete _ => hQ stats 0 v hv hcomplete fun _ hscratch => ?_)
          fun error v hv hcause => hE error v hv (hcause.imp_right fun h => .inl (mt hready h))
        · rintro ranges ⟨⟩
          exact ⟨rfl, count, again, hgoing, rfl, rfl⟩
        · obtain ⟨-, data, -, hdata⟩ := hgoing
          rw [hfresh (hscratched hscratch)] at hdata
          cases hdata
  refine tries_bind.mpr (tries_takeStock ht htold' hpart (fun stats again hcomplete => ?_)
    (fun t' ht' hempty => hrest false t' ht' (fun _ => rfl) (fun _ => hempty)
      fun h => by cases h) ?_
    fun error hcause => hE error t ht (hcause.imp_right fun h => .inr (hbare h)))
  · refine ⟨hQ stats again t ht hcomplete fun _ h => ?_, ht⟩
    rw [hempty h] at hcomplete
    obtain ⟨_, _, _, hdata, -⟩ := hcomplete
    cases hdata
  · intro q plan count again data hserved hcount hfilled hshelf
    refine hrest true t ht (fun h => ?_) (fun h => by cases h) fun _ =>
      ⟨rfl, q, plan, count, again, hserved, hcount, data, hfilled, hshelf⟩
    rw [hempty h] at hshelf
    cases hshelf

end ProviderOwned.Gguf
