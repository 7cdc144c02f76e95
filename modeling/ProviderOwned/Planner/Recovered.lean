import ProviderOwned.Planner.Resumed

/-!
# Downloads that are taken up again

What `prepare_range_model` guarantees over any number of runs, each of which may be cut anywhere and
in each of which any command may fail, a write also without notice. No sidecar ever says more than
is in the data, but for the last bytes of a piece that were lost so (`reached_truthful`), a run that
succeeds leaves as much of the whole stage (`success_complete`), and the next run without failures
brings about what a run from scratch does (`recovers`), unless the cut was between the new file and
its first sidecar: from there no run goes on (`stuck`). What is not this program's is not touched
(`foreign_untouched`).
-/

namespace ProviderOwned.Gguf

open Interrupted Spans Text
open Function (update)

variable {w : World} {lost : Nat} {path : List Char} {start d : Disk} {r : RangeModelRequest}

/-- The runs for a model file, of any revision and any layers. -/
def Preparing (path : List Char)
    (p : Program Command Command.Answer (Except String RangeModelStats)) : Prop :=
  ∃ r : RangeModelRequest, r.path = path ∧ r.Plain ∧ p = (prepareRangeModel r).run

/-- The disks that any number of runs may leave, where a write may lose `lost` bytes without
notice. -/
def World.Reached (w : World) (lost : Nat) (path : List Char) (start d : Disk) : Prop :=
  Restarts (w.machine True lost) (Preparing path) start d

lemma keeps_start (hempty : start.shelf path = .empty) : w.Keeps lost path start start where
  shelf := by
    rw [hempty]
    exact .vacant fun bytes hbytes => by cases hbytes
  others _ _ := rfl

/-- Any run has what it wrote, but for the bytes that were lost. -/
lemma trust_nearly : Trust True lost lost (Nearly lost) where
  written h := h
  nearly h := h
  exact h := absurd trivial h

/-- A run without failures has what it wrote. -/
lemma trust_calm : Trust False 0 lost Eq where
  written h := nearly_zero.mp h
  nearly h := by
    rw [h]
    exact nearly_self _
  exact _ := id

lemma told_nearly (data : List UInt8) : w.Told (Nearly lost) lost r data :=
  fun _ _ _ _ hnearly _ => hnearly

/-- Where no byte is lost the digests tell nothing new. -/
lemma told_zero (data : List UInt8) : w.Told Eq 0 r data :=
  fun _ _ _ _ hnearly _ => nearly_zero.mp hnearly

theorem World.Reached.keeps (hempty : start.shelf path = .empty) (h : w.Reached lost path start d) :
    w.Keeps lost path start d := by
  refine Restarts.invariant (keeps_start hempty) ?_ h
  rintro p s ⟨r, rfl, hplain, rfl⟩ hs
  exact Always.mono (fun _ _ _ _ => trivial) (fun _ h => h)
    (tries_prepareRangeModel trust_nearly hplain hs (fun data _ => told_nearly data)
      (Q := fun _ _ => True) (E := fun _ _ => True) (fun _ _ _ _ _ _ => trivial)
      fun _ _ _ _ => trivial)

/-- What a run without failures comes to. -/
lemma calm_run (hplain : r.Plain) (hK : w.Keeps lost r.path start d)
    (htold : ∀ data ∈ d r.path, w.Told Eq lost r data) {result : Except String RangeModelStats}
    {t : Disk} (hrun : (prepareRangeModel r).run.run w.exec d = (result, t)) :
    Either (fun _ t => ∃ again, w.Complete Eq r again (t.shelf r.path) ∧
        (d.shelf r.path = .empty → again = 0 ∧ w.Ready r))
      (fun _ _ => ¬ w.Ready r ∨ (d.shelf r.path).Bare) result t := by
  have htries : Tries (w.machine False 0)
      (fun _ t => ∃ again, w.Complete Eq r again (t.shelf r.path) ∧
        (d.shelf r.path = .empty → again = 0 ∧ w.Ready r))
      (fun _ _ => ¬ w.Ready r ∨ (d.shelf r.path).Bare) (w.Keeps lost r.path start)
      (prepareRangeModel r) d :=
    tries_prepareRangeModel trust_calm hplain hK htold
      (fun _ again _ _ hcomplete hready => ⟨again, hcomplete, hready id⟩)
      fun _ _ _ hcause => hcause.resolve_left id
  have hfinishes := finishes_run (w.answers_exec False 0) (prepareRangeModel r).run d
  rw [hrun] at hfinishes
  exact (always_iff.mp htries).1 _ _ hfinishes

/-- What a run from scratch comes to. -/
lemma scratch_run (hplain : r.Plain) (hempty : start.shelf r.path = .empty)
    {result : Except String RangeModelStats} {t : Disk}
    (hrun : (prepareRangeModel r).run.run w.exec start = (result, t)) :
    Either (fun _ t => w.Complete Eq r 0 (t.shelf r.path) ∧ w.Ready r) (fun _ _ => ¬ w.Ready r)
      result t := by
  have hK : w.Keeps 0 r.path start start := keeps_start hempty
  have hresult := calm_run hplain hK (fun data _ => told_zero data) hrun
  cases result with
  | ok stats =>
    obtain ⟨again, hcomplete, hfirst⟩ := hresult
    obtain ⟨rfl, hready⟩ := hfirst hempty
    exact ⟨hcomplete, hready⟩
  | error error =>
    refine hresult.resolve_right fun hbare => ?_
    rw [hempty] at hbare
    exact absurd hbare.1 Bool.false_ne_true

/-! ### A small download -/

/-- A two-layer file of a little more than the first piece of its header. -/
def smallFile : List UInt8 := twoLayerHeader twoLayerNames ++ List.replicate metadataChunk 0

lemma length_twoLayerHeader : (twoLayerHeader twoLayerNames).length = 428 := by decide +kernel

lemma length_smallFile : smallFile.length = 428 + metadataChunk := by
  rw [smallFile, List.length_append, length_twoLayerHeader, List.length_replicate]

def smallWorld : World where
  remote _ := smallFile
  remote_lt _ := by
    rw [length_smallFile]
    decide
  physicalSize _ := 512
  space := 2 ^ 64

def smallRequest : RangeModelRequest where
  url := "model".toList
  revision := List.replicate 40 '0'
  fullSha256 := List.replicate 64 '0'
  path := "model.gguf".toList
  stageStart := 0
  stageEnd := 2

lemma smallRequest_plain : smallRequest.Plain where
  url_line := by decide
  url_bytes := List.all_iff_forall_prop.mp (by decide)
  stageEnd_lt := by decide

/-- The header names two layers and has tensors for both. -/
def smallCheck : Except Stop Index → Bool
  | .ok index => index.blockCount = 2 && (requiredRanges index 0 2).tensorCount ≠ 0
  | .error _ => false

/-- Only the size of the file matters behind the header. -/
lemma headerOf_smallFile : ∃ index, headerOf smallFile = .ok (index, metadataChunk) ∧
    index.blockCount = 2 ∧
    (requiredRanges index 0 2).tensorCount ≠ 0 := by
  have hcheck : smallCheck
      (parseIndex (twoLayerHeader twoLayerNames) (.ofNat (428 + metadataChunk))) = true := by
    decide +kernel
  cases hparse : parseIndex (twoLayerHeader twoLayerNames) (.ofNat (428 + metadataChunk)) with
  | error stop =>
    rw [hparse] at hcheck
    cases hcheck
  | ok index =>
    rw [hparse] at hcheck
    simp only [smallCheck, Bool.and_eq_true, decide_eq_true_eq] at hcheck
    refine ⟨index, ?_, hcheck⟩
    have hpieces : maxMetadata / metadataChunk = 63 + 1 := by decide
    have hwanted : wantedSize 0 0 = metadataChunk := rfl
    have hslice : slice smallFile ⟨0, metadataChunk⟩ =
        twoLayerHeader twoLayerNames ++ List.replicate (metadataChunk - 428) 0 := by
      have hmin : min (metadataChunk - 428) metadataChunk = metadataChunk - 428 := by decide
      have htake : (twoLayerHeader twoLayerNames).take metadataChunk =
          twoLayerHeader twoLayerNames :=
        List.take_of_length_le (by rw [length_twoLayerHeader]; decide)
      rw [slice, List.drop_zero, smallFile, List.take_append, length_twoLayerHeader,
        List.take_replicate, hmin, htake]
    rw [headerOf, hpieces, headerPieces]
    dsimp only
    rw [hwanted, if_neg (by decide), if_neg (by rw [length_smallFile]; decide), List.nil_append,
      hslice, length_smallFile]
    rw [parseIndex_eq] at hparse
    rw [parseIndexInto_append (by rw [hparse]; rintro ⟨⟩), hparse]
    rfl

lemma small_ready : smallWorld.Ready smallRequest := by
  obtain ⟨index, hheader, hlayers, htensors⟩ := headerOf_smallFile
  have hplan : ∀ length, ∃ plan, planOf smallRequest index length metadataChunk = .ok plan ∧
      plan.layers = 2 := by
    intro length
    have hend : ¬ index.blockCount < smallRequest.stageEnd := by
      rw [hlayers]
      decide
    unfold planOf
    rw [if_neg hend]
    exact ⟨_, if_neg htensors, hlayers⟩
  obtain ⟨plan, hplan, hlayers⟩ := hplan (smallWorld.remote smallRequest.source).length
  replace hplan := (World.plan_of_header (w := smallWorld) (r := smallRequest) hheader).trans hplan
  have hsound := smallWorld.plan_sound hplan
  have htotal := hsound.ordered.total_le (Nat.zero_le _)
    fun s hs => ⟨Nat.zero_le s.start, hsound.inside s hs⟩
  have hlength : (smallWorld.remote smallRequest.source).length = 428 + metadataChunk :=
    length_smallFile
  refine ⟨by decide, plan, hplan, ?_, fun data _ => ?_⟩
  · have hsmall : 428 + metadataChunk + downloadChunk ≤ 2 ^ 64 := by decide
    have hmin := Nat.min_le_left downloadChunk (total plan.pieces - 0)
    simp only [World.Roomy, Plan.roomy, Option.any_some]
    rw [hlength, Nat.sub_zero] at htotal
    have hspace : smallWorld.space = 2 ^ 64 := rfl
    rw [hspace]
    refine decide_eq_true ?_
    omega
  · have hwhole : smallRequest.stageStart = 0 ∧ smallRequest.stageEnd = (plan.layers : Int) := by
      rw [hlayers]
      decide
    have hphysical : smallWorld.physicalSize data = 512 := rfl
    simp only [Plan.sparse, hwhole, hphysical]
    rfl

def blank : Disk := fun _ => none

/-- The small file is downloaded. -/
lemma small_run (lost : Nat) : ∃ stats t,
    (prepareRangeModel smallRequest).run.run smallWorld.exec blank = (.ok stats, t) ∧
      Finishes (smallWorld.machine True lost) (prepareRangeModel smallRequest).run blank
        (.ok stats) t ∧
      smallWorld.Complete Eq smallRequest 0 (t.shelf smallRequest.path) := by
  cases hrun : (prepareRangeModel smallRequest).run.run smallWorld.exec blank with
  | mk result t =>
    have hresult := scratch_run smallRequest_plain rfl hrun
    have hfinishes :=
      finishes_run (smallWorld.answers_exec True lost) (prepareRangeModel smallRequest).run blank
    rw [hrun] at hfinishes
    cases result with
    | error error => exact absurd small_ready hresult
    | ok stats => exact ⟨stats, t, rfl, hfinishes, hresult.1⟩

lemma small_reached {result : Except String RangeModelStats} {t : Disk}
    (h : Finishes (smallWorld.machine True lost) (prepareRangeModel smallRequest).run blank result
      t) :
    smallWorld.Reached lost smallRequest.path blank t :=
  .again .fresh ⟨smallRequest, rfl, smallRequest_plain, rfl⟩ h.stops

/-! ### What the sidecars say -/

/-- The data has the first `count` pieces of the stage, each but for `lost` last bytes at most, and
the sidecar lists these. -/
structure World.Listed (w : World) (lost : Nat) (r : RangeModelRequest) (plan : Plan) (count : Nat)
    (ranges : List Range) (data : List UInt8) : Prop where
  planned : w.plan r = .ok plan
  within : count ≤ plan.pieces.length
  ranges : ranges = w.ranges r plan count
  filled : Filled (Nearly lost) (w.remote r.source) plan count data

lemma World.Served.listed {q : RangeModelRequest} {plan : Plan} {count again : Nat}
    {magic : List Char} {allowEmpty : Bool} {found : RangeModelStats × List Range}
    {data : List UInt8} (h : w.Served path q plan) (hbytes : Bytes magic) (hmagic : '\n' ∉ magic)
    (hallow : allowEmpty ∨ count ≠ 0) (hcount : count ≤ plan.pieces.length)
    (hfilled : Filled (Nearly lost) (w.remote q.source) plan count data)
    (hparse : parseSidecar magic r allowEmpty
      (Gguf.decode (w.sidecarBytes magic q plan count again)) = .ok found) :
    w.Listed lost r plan count found.2 data := by
  rw [h.parse hbytes hmagic hallow] at hparse
  split_ifs at hparse with hkey
  obtain rfl := Except.ok.inj hparse
  have hsource : q.source = r.source := congrArg Prod.fst hkey
  refine ⟨w.plan_congr hkey ▸ h.plan, hcount, ?_, hsource ▸ hfilled⟩
  rw [World.ranges, World.ranges, hsource]

/-- After any number of runs, cut anywhere, a sidecar that a request reads beside the data lists the
first pieces of the request's own plan with the digests of the server's bytes, and they are all in
the data, but for last bytes that a write lost without notice; the sidecar of a complete cache lists
them all. No other file has changed. -/
theorem reached_truthful {data : List UInt8} (hempty : start.shelf path = .empty)
    (h : w.Reached lost path start d) (hdata : d path = some data) :
    (∀ bytes ∈ d (partialPath path), ∀ found,
      parseSidecar partialMagic r true (decode bytes) = .ok found →
        ∃ plan count, w.Listed lost r plan count found.2 data) ∧
    (∀ bytes ∈ d (sidecarPath path), ∀ found,
      parseSidecar cacheMagic r false (decode bytes) = .ok found →
        ∃ plan : Plan, w.Listed lost r plan plan.pieces.length found.2 data) ∧
    ∀ name ∉ owned path, d name = start name := by
  have hkeeps := h.keeps hempty
  have hkept := hkeeps.shelf
  generalize hshelf : d.shelf path = shelf at hkept
  obtain ⟨hdata', hsidecar, hpart⟩ := shelf_eq hshelf
  rw [hdata'] at hdata
  rw [hsidecar, hpart]
  cases hkept with
  | vacant => cases hdata
  | bare => exact ⟨by rintro _ ⟨⟩, by rintro _ ⟨⟩, hkeeps.others⟩
  | @going q plan count again data' hserved hcount hfilled =>
    obtain rfl := Option.some.inj hdata
    refine ⟨?_, by rintro _ ⟨⟩, hkeeps.others⟩
    rintro bytes ⟨⟩ found hparse
    exact ⟨plan, count, hserved.listed bytes_partialMagic newline_not_mem_partialMagic (.inl rfl)
      hcount hfilled hparse⟩
  | @finished q plan again data' part hserved hfilled hforeign =>
    obtain rfl := Option.some.inj hdata
    have hcount : plan.pieces.length ≠ 0 := fun hzero =>
      hserved.sound.nonempty (List.length_eq_zero_iff.mp hzero)
    refine ⟨fun bytes hbytes found hparse => ?_, ?_, hkeeps.others⟩
    · rw [hforeign bytes hbytes] at hparse
      exact ⟨plan, _, hserved.listed bytes_partialMagic newline_not_mem_partialMagic (.inl rfl)
        (Nat.le_refl _) hfilled hparse⟩
    · rintro bytes ⟨⟩ found hparse
      exact ⟨plan, hserved.listed bytes_cacheMagic newline_not_mem_cacheMagic (.inr hcount)
        (Nat.le_refl _) hfilled hparse⟩

lemma World.Complete.parse {ok : List UInt8 → List UInt8 → Prop} {again : Nat} {shelf : Shelf}
    (hplain : r.Plain) (haccepted : r.accepted) (h : w.Complete ok r again shelf) :
    ∃ bytes stats ranges, shelf.sidecar = some bytes ∧
      parseSidecar cacheMagic r false (Gguf.decode bytes) = .ok (stats, ranges) := by
  obtain ⟨plan, data, hplan, -, -, hsidecar⟩ := h
  have hserved : w.Served r.path r plan := ⟨rfl, hplain, haccepted, hplan⟩
  refine ⟨_, plan.progress plan.pieces.length again, w.ranges r plan plan.pieces.length, hsidecar,
    ?_⟩
  rw [hserved.parse bytes_cacheMagic newline_not_mem_cacheMagic
    (.inr fun hzero => hserved.sound.nonempty (List.length_eq_zero_iff.mp hzero)), if_pos rfl]

theorem reached_truthful_small :
    ∃ (d : Disk) (data : List UInt8) (found : RangeModelStats × List Range) (plan : Plan),
      smallWorld.Reached 8191 smallRequest.path blank d ∧ d smallRequest.path = some data ∧
        smallWorld.Listed 8191 smallRequest plan plan.pieces.length found.2 data := by
  obtain ⟨stats, d, -, hrun, hcomplete⟩ := small_run 8191
  have hd := small_reached hrun
  obtain ⟨bytes, stats, ranges, hsidecar, hparse⟩ := hcomplete.parse smallRequest_plain (by decide)
  obtain ⟨-, data, -, hdata, -⟩ := hcomplete
  obtain ⟨plan, hlisted⟩ := (reached_truthful rfl hd hdata).2.1 bytes hsidecar _ hparse
  exact ⟨d, data, (stats, ranges), plan, hd, hdata, hlisted⟩

/-- A run that succeeds leaves all of the stage and a sidecar that says so, whatever failed or was
cut before, but for last bytes of a piece that a write lost without notice. -/
theorem success_complete {stats : RangeModelStats} {t : Disk} (hplain : r.Plain)
    (hempty : start.shelf r.path = .empty) (h : w.Reached lost r.path start d)
    (hrun : Finishes (w.machine True lost) (prepareRangeModel r).run d (.ok stats) t) :
    ∃ again, w.Complete (Nearly lost) r again (t.shelf r.path) := by
  have htries : Tries (w.machine True lost)
      (fun _ t => ∃ again, w.Complete (Nearly lost) r again (t.shelf r.path)) (fun _ _ => True)
      (w.Keeps lost r.path start) (prepareRangeModel r) d :=
    tries_prepareRangeModel trust_nearly hplain (h.keeps hempty) (fun data _ => told_nearly data)
      (fun _ again _ _ hcomplete _ => ⟨again, hcomplete⟩) fun _ _ _ _ => trivial
  exact (always_iff.mp htries).1 _ _ hrun

theorem success_complete_small : ∃ stats t,
    Finishes (smallWorld.machine True 8191) (prepareRangeModel smallRequest).run blank
      (.ok stats) t ∧
      ∃ again, smallWorld.Complete (Nearly 8191) smallRequest again
        (t.shelf smallRequest.path) := by
  obtain ⟨stats, t, -, hrun, -⟩ := small_run 8191
  exact ⟨stats, t, hrun, success_complete smallRequest_plain rfl .fresh hrun⟩

/-! ### Taking up a download -/

/-- In data that is all there the digests tell nothing new. -/
lemma World.Complete.told {again slack : Nat} {shelf : Shelf} (h : w.Complete Eq r again shelf) :
    ∀ data ∈ shelf.data, w.Told Eq slack r data := by
  obtain ⟨plan, data, hplan, hdata, hfilled, -⟩ := h
  rw [hdata]
  rintro _ ⟨⟩ plan' hplan' piece hpiece - -
  obtain rfl : plan = plan' := Except.ok.inj (hplan.symm.trans hplan')
  exact hfilled.pieces piece (by rwa [List.take_length])

lemma firstLine_of_parse {magic : List Char} {allowEmpty : Bool} {bytes : List UInt8}
    {found : RangeModelStats × List Range}
    (h : parseSidecar magic r allowEmpty (decode bytes) = .ok found) : firstLine (some bytes) =
      some magic := by
  rw [firstLine, Option.bind_some]
  unfold parseSidecar at h
  cases hpieces : pieces '\n' (decode bytes) with
  | nil =>
    rw [hpieces] at h
    cases h
  | cons first lines =>
    rw [hpieces] at h
    dsimp only at h
    split_ifs at h with hmagic
    rw [List.head?_cons, not_not.mp hmagic]

/-- Data whose sidecars are not of this program. -/
structure Disk.Foreign (d : Disk) (path : List Char) : Prop where
  data : (d path).isSome
  sidecar : firstLine (d (sidecarPath path)) ≠ some cacheMagic
  part : (d (sidecarPath path)).isSome ∨ firstLine (d (partialPath path)) ≠ some partialMagic

lemma Shelf.Bare.foreign (h : (d.shelf path).Bare) : d.Foreign path := by
  obtain ⟨hdata, hsidecar, hpart⟩ := h
  refine ⟨hdata, fun hmagic => ?_, .inr fun hmagic => ?_⟩
  · rw [show d (sidecarPath path) = none from hsidecar] at hmagic
    cases hmagic
  · rw [show d (partialPath path) = none from hpart] at hmagic
    cases hmagic

lemma tries_foreign {trouble : Prop} (h : d.Foreign r.path) :
    Tries (w.machine trouble lost) (fun _ _ => False) (fun _ t => t = d) (· = d)
      (prepareRangeModel r) d := by
  obtain ⟨data, hdata⟩ := Option.isSome_iff_exists.mp h.data
  have hreuse : Tries (w.machine trouble lost) (fun _ _ => False)
      (fun _ t => t = d) (· = d) (reuseCache r) d := by
    unfold reuseCache
    refine tries_bind.mpr (tries_readSidecarFile rfl (fun bytes found hbytes hparse => ?_)
      fun _ _ => rfl)
    exact absurd (hbytes ▸ firstLine_of_parse hparse) h.sidecar
  have htidy : Tries (w.machine trouble lost)
      (fun _ t => t = d) (fun _ t => t = d) (· = d) (tidy r) d := by
    unfold tidy
    refine tries_bind.mpr (tries_present rfl ?_)
    cases d (partialPath r.path) with
    | none => exact ⟨rfl, rfl⟩
    | some part =>
      refine tries_bind.mpr (tries_present rfl ?_)
      rw [hdata]
      exact ⟨rfl, rfl⟩
  unfold prepareRangeModel
  refine tries_bind.mpr (tries_require rfl (fun _ => ?_) fun _ => rfl)
  refine tries_bind.mpr (htidy.mono ?_ (fun _ _ _ h => h) fun _ h => h)
  rintro ⟨⟩ t - rfl
  refine tries_bind.mpr ?_
  unfold takeStock
  refine tries_bind.mpr (tries_isKnown rfl ?_)
  rw [hdata]
  refine tries_bind.mpr (tries_lift.mpr (Always.mono ?_ (fun _ h => h) hreuse))
  rintro (error | stats) t' - hresult
  rotate_left
  · exact hresult.elim
  obtain rfl : t' = t := hresult
  refine tries_bind.mpr (tries_isCandidate rfl ?_)
  rw [hdata]
  cases hsidecar : t' (sidecarPath r.path) with
  | some sidecar =>
    have hforeign := h.sidecar
    rw [hsidecar] at hforeign
    refine tries_bind.mpr (tries_read rfl ?_ fun _ => ?_)
    · rw [hsidecar]
      exact tries_bind.mpr (tries_require rfl (fun hmagic => absurd hmagic hforeign) fun _ => rfl)
    · exact tries_bind.mpr (tries_require rfl (fun hmagic => by cases hmagic) fun _ => rfl)
  | none =>
    cases hpart : t' (partialPath r.path) with
    | none =>
      refine tries_bind.mpr (tries_read rfl ?_ fun _ => ?_)
      · rw [hsidecar]
        exact tries_bind.mpr (tries_require rfl (fun hmagic => by cases hmagic) fun _ => rfl)
      · exact tries_bind.mpr (tries_require rfl (fun hmagic => by cases hmagic) fun _ => rfl)
    | some part =>
      have hforeign := h.part
      rw [hsidecar, hpart] at hforeign
      refine tries_bind.mpr (tries_read rfl ?_ fun _ => ?_)
      · rw [hpart]
        exact tries_bind.mpr (tries_require rfl
          (fun hmagic => absurd hmagic (hforeign.resolve_left Bool.false_ne_true)) fun _ => rfl)
      · exact tries_bind.mpr (tries_require rfl (fun hmagic => by cases hmagic) fun _ => rfl)

lemma foreign_fails (h : d.Foreign r.path) {result : Except String RangeModelStats} {t : Disk}
    (hrun : Finishes (w.machine True lost) (prepareRangeModel r).run d result t) :
    ∃ error, result = .error error := by
  have hresult := (always_iff.mp (tries_foreign h)).1 _ _ hrun
  cases result with
  | error error => exact ⟨error, rfl⟩
  | ok stats => exact hresult.elim

/-- Data whose sidecars are not of this program is left as it is, and so is every other file: every
run fails, and changes nothing up to any cut. -/
theorem foreign_untouched (h : d.Foreign r.path) :
    (∀ t, Stops (w.machine True lost) (prepareRangeModel r).run d t → t = d) ∧
    ∀ result t, Finishes (w.machine True lost) (prepareRangeModel r).run d result t →
      ∃ error, result = .error error :=
  ⟨(always_iff.mp (tries_foreign h)).2, fun _ _ hrun => foreign_fails h hrun⟩

/-- A disk with data and a sidecar that begins with another line. -/
def foreignDisk : Disk :=
  update (update blank smallRequest.path (some [0])) (sidecarPath smallRequest.path)
    (some (encode "DAN_RANGE_CACHE_V2\nurl=model\n".toList))

theorem foreign_untouched_small :
    foreignDisk.Foreign smallRequest.path ∧
      (foreignDisk (sidecarPath smallRequest.path)).isSome ∧
      ∀ t, Stops (smallWorld.machine True 8191) (prepareRangeModel smallRequest).run foreignDisk t →
        t = foreignDisk := by
  have hforeign : foreignDisk.Foreign smallRequest.path := ⟨by decide, by decide, by decide⟩
  exact ⟨hforeign, by decide, (foreign_untouched hforeign).1⟩

/-! ### Where no run goes on -/

/-- From data without a sidecar no run changes anything. -/
lemma bare_stays (h : (d.shelf path).Bare) {t : Disk} (ht : w.Reached lost path d t) : t = d := by
  refine Restarts.invariant (K := (· = d)) rfl ?_ ht
  rintro p s ⟨r, rfl, -, rfl⟩ rfl
  exact Always.mono (fun _ _ _ _ => trivial) (fun _ h => h) (tries_foreign h.foreign)

/-- A run from scratch that goes on comes past the new file before its first sidecar. -/
lemma stops_bare (hempty : start.shelf r.path = .empty) (hready : w.Ready r) :
    ∃ cut, Stops (w.machine False 0) (prepareRangeModel r).run start cut ∧
      (cut.shelf r.path).Bare := by
  have hexec := w.answers_exec False 0
  obtain ⟨header, hheader⟩ := hready.header
  obtain ⟨haccepted, plan, hplan, -⟩ := hready
  have hplanned : planOf r header.1 (w.remote r.source).length header.2 = .ok plan :=
    (World.plan_of_header hheader).symm.trans hplan
  have hrequire :
      Finishes (w.machine False 0) (require r.accepted "invalid range-model request").run start
      (.ok ()) start := by
    rw [require, if_pos haccepted]
    exact ⟨rfl, rfl⟩
  have htidies : Tries (w.machine False 0)
      (fun _ t => w.Keeps 0 r.path start t ∧ t.shelf r.path = .empty)
      (fun _ _ => False) (w.Keeps 0 r.path start) (tidy r) start :=
    tries_tidy (keeps_start hempty) fun t ht hshelf => ⟨ht, by rw [hshelf, hempty]; rfl⟩
  obtain ⟨⟨⟩, t₁, htidy, ht₁, hempty₁⟩ := htidies.succeeds hexec
  have hstocks : Tries (w.machine False 0)
      (fun stock t => stock = (none, false) ∧ w.Keeps 0 r.path start t ∧ t.shelf r.path = .empty)
      (fun _ _ => False) (w.Keeps 0 r.path start) (takeStock r) t₁ := by
    refine tries_takeStock ht₁ (fun data _ => told_nearly data) ?_ ?_
      (fun t ht hshelf => ⟨rfl, ht, hshelf⟩) ?_ ?_
    all_goals rw [hempty₁]
    · exact fun _ => rfl
    · rintro stats again ⟨_, _, _, hdata, -⟩
      cases hdata
    · rintro q plan count again data - - - ⟨⟩
    · rintro error (h | ⟨h, -⟩)
      · exact h
      · exact Bool.false_ne_true h
  obtain ⟨_, t₂, hstock, rfl, ht₂, hempty₂⟩ := hstocks.succeeds hexec
  have hmakes : Tries (w.machine False 0) (fun made t => made = true ∧ t = t₂)
      (fun _ _ => False) (· = t₂)
      (ask (.makeParent r.path)) t₂ := tries_makeParent rfl ⟨rfl, rfl⟩ False.elim
  obtain ⟨_, t₃, hmade, rfl, rfl⟩ := hmakes.succeeds hexec
  have hfetches : Tries (w.machine False 0)
      (fun found t => found = (header.1, (w.remote r.source).length, header.2) ∧
        w.Keeps 0 r.path start t ∧
        t.shelf r.path = .empty)
      (fun _ _ => False) (w.Keeps 0 r.path start)
      (fetchHeader r (maxMetadata / metadataChunk) 0 0 [] [] 0) t₃ := by
    refine tries_fetchHeader ht₂ (.inl rfl) (fun index transferred t ht hshelf hpieces => ?_)
      fun error t _ _ hcause => ?_
    · obtain rfl := Except.ok.inj (hheader.symm.trans hpieces)
      exact ⟨rfl, ht, hshelf.trans hempty₂⟩
    · obtain ⟨error, hpieces⟩ := hcause.resolve_left id
      cases hheader.symm.trans hpieces
  obtain ⟨_, t₄, hfetched, rfl, ht₄, hempty₄⟩ := hfetches.succeeds hexec
  have hcreates : Tries (w.machine False 0)
      (fun _ t => t.shelf r.path = ⟨some (List.replicate plan.logicalBytes 0), none, none⟩)
        (fun _ _ => False)
      (w.Keeps 0 r.path start) (sparseCreate r.path plan.logicalBytes) t₄ :=
    tries_sparseCreate ht₄ hempty₄ (fun _ _ hshelf => hshelf) fun h => h.elim
  obtain ⟨⟨⟩, cut, hcreated, hshelf⟩ := hcreates.succeeds hexec
  refine ⟨cut, ?_, hshelf ▸ ⟨rfl, rfl, rfl⟩⟩
  unfold prepareRangeModel
  refine hrequire.stops_attempt
    (htidy.stops_attempt (hstock.stops_attempt (hmade.stops_attempt ?_)))
  refine Finishes.stops_attempt (a := ()) (t := t₃) ?_ (hfetched.stops_attempt ?_)
  · exact ⟨rfl, rfl⟩
  refine Finishes.stops_attempt (a := plan) (t := t₄) ?_ ?_
  · rw [hplanned]
    exact ⟨rfl, rfl⟩
  have hresume : Finishes (w.machine False 0) (resume r plan false).run t₄ (.ok (none, 0)) t₄ :=
    ⟨rfl, rfl⟩
  refine hresume.stops_attempt ?_
  exact (hcreated.stops_attempt (stops_now _ _)).tryCatch

/-- A download that would succeed can be cut where it is lost, between the new file and its first
sidecar: the disk stays as it is in every later run, of any revision and layers, and none of them
succeeds. -/
theorem stuck {stats : RangeModelStats} {t : Disk} (hplain : r.Plain)
    (hempty : start.shelf r.path = .empty)
    (hscratch : (prepareRangeModel r).run.run w.exec start = (.ok stats, t)) :
    ∃ cut, Stops (w.machine False 0) (prepareRangeModel r).run start cut ∧ (cut.shelf r.path).Bare ∧
      ∀ lost d, w.Reached lost r.path cut d → d = cut ∧ ∀ q : RangeModelRequest, q.path = r.path →
        ∀ result t, Finishes (w.machine True lost) (prepareRangeModel q).run d result t →
          ∃ error, result = .error error := by
  obtain ⟨-, hready⟩ := scratch_run hplain hempty hscratch
  obtain ⟨cut, hstops, hbare⟩ := stops_bare hempty hready
  refine ⟨cut, hstops, hbare, fun lost d hd => ?_⟩
  obtain rfl := bare_stays hbare hd
  refine ⟨rfl, fun q hq result t hrun => foreign_fails ?_ hrun⟩
  rw [hq]
  exact hbare.foreign

theorem stuck_small : ∃ cut,
    Stops (smallWorld.machine False 0) (prepareRangeModel smallRequest).run blank cut ∧
      (cut.shelf smallRequest.path).Bare ∧
      ∀ d, smallWorld.Reached 8191 smallRequest.path cut d → d = cut := by
  obtain ⟨stats, t, hscratch, -, -⟩ := small_run 0
  obtain ⟨cut, hstops, hbare, hstays⟩ := stuck smallRequest_plain rfl hscratch
  exact ⟨cut, hstops, hbare, fun d hd => (hstays 8191 d hd).1⟩

end ProviderOwned.Gguf
