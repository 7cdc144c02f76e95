import ProviderOwned.Lib.Markers
import ProviderOwned.Worker.Greeting
import ProviderOwned.Worker.Speeds

/-!
# What a worker measures and finds

What a greeting says besides the worker's own settings: the bandwidth from its peers
(`BandwidthTable` of `measurement.hpp`), the links that the sidecar has measured and the layer
ranges on disk (`measured_links` and `cached_ranges` of `stage_worker.cpp`). Bandwidths, times and
the number of links keep to the bounds of the greeting; a range is one of layers, but neither the
ranges nor their layers are counted.
-/

namespace ProviderOwned.Greeting

open Text Pick Planner
open Binary64 (Double)
open Arithmetic (decimal lt)

/-- Speeds in double precision. -/
instance : Rounding Double := ⟨fun n => Double.ofRat n, Double.llround⟩

/-! ### Bandwidth -/

def minBandwidthFrameBytes : UInt64 := 2 ^ 20

def maxBandwidthPeers : Nat := 32

def bandwidthMaxAgeS : Int := 24 * 3600

/-- An entry of the `BandwidthTable`. -/
structure Bandwidth where
  peer : List Char
  kibPerS : Double
  updatedUnixS : Int

namespace Bandwidth

/-- Whether the entry is too old to be used. -/
def stale (entry : Bandwidth) (now : Int) : Bool := bandwidthMaxAgeS < now - entry.updatedUnixS

/-- A new observation of the peer: an old one is replaced, and a recent one counts for more. -/
def fold (entry : Bandwidth) (kibPerS : Double) (now : Int) : Bandwidth :=
  { entry with
    kibPerS := if entry.stale now then kibPerS
      else entry.kibPerS * decimal 7 1 + kibPerS * decimal 3 1
    updatedUnixS := now }

/-- The entries without the one that was updated longest ago. -/
def eraseOldest (entries : List Bandwidth) : List Bandwidth :=
  ((pick (fun left right => left.1.updatedUnixS < right.1.updatedUnixS) entries.zipIdx).map
      fun found =>
    entries.eraseIdx found.2).getD entries

def observe (entries : List Bandwidth) (peer : List Char) (bytes : UInt64) (seconds : Double)
    (now : Int) :
    List Bandwidth :=
  let kibPerS : Double := Arithmetic.ofNat bytes.toNat / Arithmetic.ofNat 1024 / seconds
  if peer.isEmpty || bytes < minBandwidthFrameBytes || !lt (Arithmetic.ofNat 0) seconds then entries
  else if !kibPerS.isFinite then entries
  else
    match entries.findIdx? (·.peer = peer) with
    | none =>
      (if maxBandwidthPeers ≤ entries.length then eraseOldest entries else entries) ++
        [⟨peer, kibPerS, now⟩]
    | some index => entries.modify index (·.fold kibPerS now)

def clamp (value low high : Double) : Double :=
  if lt value low then low else if lt high value then high else value

/-- `BandwidthTable::kib_per_s`. -/
def kibPerSOf (entries : List Bandwidth) (peer : List Char) (now : Int) : UInt32 :=
  match entries.find? fun entry => entry.peer = peer && !entry.stale now with
  | none => 0
  | some entry =>
    .ofNat (clamp entry.kibPerS (Arithmetic.ofNat 1)
      (Arithmetic.ofNat (100 * 1024 * 1024))).truncate.toNat

/-- Whether a bandwidth from the peer is known and not too old. -/
def knows (entries : List Bandwidth) (peer : List Char) (now : Int) : Bool :=
  entries.any fun entry => entry.peer = peer && !entry.stale now

/-- The entries are numbers without a minus sign, so that they convert to an integer. -/
def Plain (entries : List Bandwidth) : Prop := ∀ entry ∈ entries, entry.kibPerS.plain

variable {entry : Bandwidth} {entries : List Bandwidth} {peer : List Char} {bytes : UInt64}
  {seconds value : Double} {now : Int}

lemma plain_fold (h : entry.kibPerS.plain) (hvalue : value.plain) :
    (entry.fold value now).kibPerS.plain := by
  obtain ⟨seven, hseven, hne⟩ : ∃ m, (decimal 7 1 : Double) = .finite false m ∧ m.size ≠ 0 :=
    Double.exists_ofRat (-2) (by norm_num) (by norm_num) (by norm_num)
  obtain ⟨three, hthree, hne'⟩ : ∃ m, (decimal 3 1 : Double) = .finite false m ∧ m.size ≠ 0 :=
    Double.exists_ofRat (-2) (by norm_num) (by norm_num) (by norm_num)
  simp only [fold]
  split_ifs
  · exact hvalue
  · rw [hseven, hthree]
    exact Double.plain_add (Double.plain_mul h hne) (Double.plain_mul hvalue hne')

lemma mem_of_mem_eraseOldest (h : entry ∈ eraseOldest entries) : entry ∈ entries := by
  rw [eraseOldest] at h
  cases hfound :
      pick (fun left right : Bandwidth × Nat => left.1.updatedUnixS < right.1.updatedUnixS)
      entries.zipIdx with
  | none =>
    rw [hfound] at h
    exact h
  | some found =>
    rw [hfound] at h
    exact List.mem_of_mem_eraseIdx h

lemma plain_rate {bytes : Nat} (hseconds : lt (Arithmetic.ofNat 0) seconds)
    (hfinite : (Arithmetic.ofNat bytes / Arithmetic.ofNat 1024 / seconds : Double).isFinite) :
    (Arithmetic.ofNat bytes / Arithmetic.ofNat 1024 / seconds : Double).plain := by
  obtain ⟨x, hx, hpos⟩ := Numbers.value_of_lt_zero hseconds
  have hnat : ∀ n : ℕ, (Arithmetic.ofNat n : Double).plain :=
    fun n => Double.plain_ofRat n.cast_nonneg
  refine Double.plain_div (Double.plain_div (hnat _) (hnat _) ?_) (Double.plain_of_pos hx hpos) ?_
  · intro hnan
    rw [hnan, Double.nan_div] at hfinite
    cases hfinite
  · intro hnan
    rw [hnan] at hfinite
    cases hfinite

lemma Plain.append (h : Plain entries) (hvalue : value.plain) :
    Plain (entries ++ [⟨peer, value, now⟩]) := by
  intro entry hentry
  rcases List.mem_append.mp hentry with hentry | hentry
  · exact h entry hentry
  · rw [List.mem_singleton.mp hentry]
    exact hvalue

lemma Plain.modify (h : Plain entries) (hvalue : value.plain) (index : Nat) :
    Plain (entries.modify index (·.fold value now)) := by
  intro entry hentry
  obtain ⟨i, hi⟩ := List.mem_iff_getElem?.mp hentry
  rw [List.getElem?_modify] at hi
  obtain ⟨other, hother, heq⟩ := Option.map_eq_some_iff.mp hi
  have hplain := h other (List.mem_iff_getElem?.mpr ⟨i, hother⟩)
  split_ifs at heq
  · exact heq ▸ plain_fold hplain hvalue
  · exact heq ▸ hplain

/-- An observation keeps the entries numbers. -/
lemma Plain.observe (h : Plain entries) : Plain (observe entries peer bytes seconds now) := by
  have hkept : Plain (if maxBandwidthPeers ≤ entries.length then eraseOldest entries
    else entries) := by
    split_ifs
    · exact fun entry hentry => h entry (mem_of_mem_eraseOldest hentry)
    · exact h
  rw [Bandwidth.observe]
  generalize (if maxBandwidthPeers ≤ entries.length then eraseOldest entries else entries) = kept
    at hkept ⊢
  split_ifs with hsmall hfinite
  · exact h
  · exact h
  · simp only [Bool.or_eq_true, Bool.not_eq_true', not_or, Bool.not_eq_false] at hsmall hfinite
    have hrate := plain_rate hsmall.2 hfinite
    cases entries.findIdx? (·.peer = peer) with
    | none => exact hkept.append hrate
    | some index => exact h.modify hrate index

/-! ### The bandwidth of a greeting -/

lemma value_natCast {n : ℕ} (h : n < 2 ^ 53) :
    (Arithmetic.ofNat n : Double).value = some (((n : ℚ) : WithTop ℚ) : Binary64.Extended) :=
  (Planner.Rounded.value_ofNat (D := Double) n).trans
    (congrArg some (Planner.Rounded.rounded_natCast h))

lemma truncate_clamp (h : value.plain) (low high : ℕ) (hle : low ≤ high) (hlt : high < 2 ^ 53) :
    low ≤ (clamp value (Arithmetic.ofNat low) (Arithmetic.ofNat high)).truncate ∧
      (clamp value (Arithmetic.ofNat low) (Arithmetic.ofNat high)).truncate ≤ high := by
  have hvalue : ∀ n : ℕ, n ≤ high → (Arithmetic.ofNat n : Double).truncate = n := by
    intro n hn
    rw [Double.truncate_eq_floor (value_natCast (hn.trans_lt hlt)) n.cast_nonneg, Int.floor_natCast]
  rw [clamp]
  split_ifs with hlow hhigh
  · rw [hvalue low hle]
    exact ⟨le_rfl, by exact_mod_cast hle⟩
  · rw [hvalue high le_rfl]
    exact ⟨by exact_mod_cast hle, le_rfl⟩
  · obtain ⟨u, hu, hnonneg⟩ := Double.value_of_plain h
    rw [Numbers.lt_iff] at hlow hhigh
    have hge : ((low : ℚ) : WithTop ℚ) ≤ u := by
      by_contra hless
      exact hlow ⟨u, hu, _, value_natCast (hle.trans_lt hlt), not_le.mp hless⟩
    have hle : u ≤ ((high : ℚ) : WithTop ℚ) := by
      by_contra hmore
      exact hhigh ⟨_, value_natCast hlt, u, hu, not_le.mp hmore⟩
    rcases top_or_coe_of_nonneg hnonneg with rfl | ⟨q, rfl, hq⟩
    · have htop : ((high : ℚ) : WithTop ℚ) = ⊤ := WithBot.coe_injective (top_le_iff.mp hle)
      exact absurd htop WithTop.coe_ne_top
    · rw [Double.truncate_eq_floor hu hq]
      have hlowq : (low : ℚ) ≤ q := WithTop.coe_le_coe.mp (WithBot.coe_le_coe.mp hge)
      have hhighq : q ≤ (high : ℚ) := WithTop.coe_le_coe.mp (WithBot.coe_le_coe.mp hle)
      refine ⟨Int.le_floor.mpr (by exact_mod_cast hlowq), ?_⟩
      exact_mod_cast Int.floor_le_iff.mpr (hhighq.trans_lt (by push_cast; linarith))

/-- A bandwidth is in the range that is taken, and given where it is known. -/
lemma kibPerSOf_spec (h : Plain entries) :
    kibPerSOf entries peer now ≤ maxGreetingKibPerS ∧
    (kibPerSOf entries peer now = 0 ↔ !knows entries peer now) := by
  rw [kibPerSOf, knows]
  cases hfound : entries.find? fun entry => entry.peer = peer && !entry.stale now with
  | none =>
    have hnone : entries.any (fun entry => entry.peer = peer && !entry.stale now) = false :=
      List.any_eq_false.mpr (List.find?_eq_none.mp hfound)
    rw [hnone]
    exact ⟨UInt32.zero_le, iff_of_true rfl rfl⟩
  | some entry =>
    have hany : entries.any (fun entry => entry.peer = peer && !entry.stale now) = true :=
      List.any_eq_true.mpr ⟨entry, List.mem_of_find?_eq_some hfound,
        List.find?_some (p := fun entry : Bandwidth => entry.peer =
          peer && !entry.stale now) hfound⟩
    obtain ⟨hpos, hle⟩ := truncate_clamp (h entry (List.mem_of_find?_eq_some hfound)) 1
      (100 * 1024 * 1024) (by decide) (by decide)
    dsimp only
    generalize
      (clamp entry.kibPerS (Arithmetic.ofNat 1) (Arithmetic.ofNat (100 * 1024 * 1024))).truncate = n
      at hpos hle ⊢
    have hnat : (UInt32.ofNat n.toNat).toNat = n.toNat := UInt32.toNat_ofNat_of_lt' (by
      change n.toNat < 2 ^ 32
      omega)
    rw [hany, UInt32.le_iff_toNat_le, hnat]
    refine ⟨?_, iff_of_false (fun hzero => ?_) Bool.false_ne_true⟩
    · change n.toNat ≤ 100 * 2 ^ 20
      omega
    · rw [hzero] at hnat
      change 0 = n.toNat at hnat
      omega

end Bandwidth

/-! ### Measured links -/

/-- `number_after`: the digits behind the key, as a number of 64 bits. -/
def numberAfter (object : List Char) (key : String) : Option Nat :=
  match Markers.cut key.toList object with
  | none => none
  | some (_, rest) =>
    let digits := rest.takeWhile Char.isDigit
    if digits.isEmpty then none else some (Nat.ofDigitChars 10 digits 0 % 2 ^ 64)

def objectLink (object : List Char) : Option PeerLink := do
  let (_, rest) ← Markers.cut "\"peer\":\"".toList object
  let rtt ← (numberAfter object "\"rtt_ms\":").filter (· ≤ 60000)
  let (peer, _) ← cut '"' rest
  let relayed := (Markers.cut "\"path\":\"relay\"".toList object).isSome
  if !validPeerId peer then none else some { peer, rttMs := .ofNat rtt, relayed, kibPerS := 0 }

/-- The loop of `measured_links` over the list. An object goes from a brace to the next closing
one. -/
def objectLinks : List Char → List PeerLink → List PeerLink
  | [], links => links
  | c :: rest, links =>
    if c ≠ '\x7b' then objectLinks rest links
    else if maxGreetingLinks ≤ links.length then links
    else
      match cut '\x7d' (c :: rest) with
      | none => links
      | some (object, _) => objectLinks rest (links ++ (objectLink object).toList)

/-- `measured_links`, of what is in the status file of the sidecar, if there is one. -/
def measuredLinks (status : Option (List Char)) (nowMs : Int) : List PeerLink :=
  match status.bind fun text => (numberAfter text "\"updated_unix_ms\":").map (Prod.mk text) with
  | none => []
  | some (text, updated) =>
    if 10000 < nowMs - (updated : Int).bmod (2 ^ 64) then []
    else
      match (Markers.cut "\"links\":[".toList text).bind fun found => cut ']' found.2 with
      | none => []
      | some (list, _) => objectLinks list []

/-- A link as the sidecar measured it, still without a bandwidth. -/
structure PeerLink.Measured (link : PeerLink) : Prop where
  peer : validPeerId link.peer
  rtt : link.rttMs ≤ 60000

lemma measured_objectLink {object : List Char} {link : PeerLink}
    (h : objectLink object = some link) :
    link.Measured := by
  rw [objectLink] at h
  obtain ⟨⟨before, rest⟩, -, h⟩ := Option.bind_eq_some_iff.mp h
  obtain ⟨rtt, hfound, h⟩ := Option.bind_eq_some_iff.mp h
  obtain ⟨⟨peer, after⟩, -, h⟩ := Option.bind_eq_some_iff.mp h
  obtain ⟨hvalid, h⟩ := Option.ite_none_left_eq_some.mp h
  have hrtt : rtt ≤ 60000 := of_decide_eq_true (Option.filter_eq_some_iff.mp hfound).2
  obtain rfl := Option.some.inj h
  have hnat : (UInt32.ofNat rtt).toNat = rtt := UInt32.toNat_ofNat_of_lt' (by
    change rtt < 2 ^ 32
    omega)
  refine ⟨by simpa using hvalid, ?_⟩
  rw [UInt32.le_iff_toNat_le, hnat]
  exact hrtt

lemma measured_objectLinks {text : List Char} {links : List PeerLink}
    (hlength : links.length ≤ maxGreetingLinks) (hlinks : ∀ link ∈ links, link.Measured) :
    (objectLinks text links).length ≤ maxGreetingLinks ∧
    ∀ link ∈ objectLinks text links, link.Measured := by
  induction text generalizing links with
  | nil => exact ⟨hlength, hlinks⟩
  | cons c rest ih =>
    rw [objectLinks]
    split_ifs with hbrace hfull
    · exact ih hlength hlinks
    · exact ⟨hlength, hlinks⟩
    · cases cut '\x7d' (c :: rest) with
      | none => exact ⟨hlength, hlinks⟩
      | some found =>
        cases hlink : objectLink found.1 with
        | none =>
          dsimp only
          rw [hlink, Option.toList_none, List.append_nil]
          exact ih hlength hlinks
        | some link =>
          dsimp only
          rw [hlink, Option.toList_some]
          refine ih ?_ fun other hother => ?_
          · rw [List.length_append, List.length_singleton]
            omega
          · rcases List.mem_append.mp hother with hother | hother
            · exact hlinks other hother
            · exact List.mem_singleton.mp hother ▸ measured_objectLink hlink

/-- There are not too many links, and each is one the parser takes. -/
lemma measuredLinks_spec (status : Option (List Char)) (nowMs : Int) :
    (measuredLinks status nowMs).length ≤ maxGreetingLinks ∧
      ∀ link ∈ measuredLinks status nowMs, link.Measured := by
  have hnone : ([] : List PeerLink).length ≤ maxGreetingLinks ∧ ∀ link ∈ ([] : List PeerLink),
      link.Measured :=
    ⟨Nat.zero_le _, fun _ h => absurd h List.not_mem_nil⟩
  rw [measuredLinks]
  split
  · exact hnone
  · split_ifs
    · exact hnone
    · split
      · exact hnone
      · exact measured_objectLinks hnone.1 hnone.2

/-! ### Ranges on disk -/

/-- `std::stoi`: the number behind blanks and a sign, where it is an `int`. -/
def stoi (text : List Char) : Option Int :=
  let text := text.dropWhile isSpace
  let digits := (if text.head? = some '-' ∨ text.head? = some '+' then text.tail
    else text).takeWhile Char.isDigit
  let magnitude : Int := Nat.ofDigitChars 10 digits 0
  let value := if text.head? = some '-' then -magnitude else magnitude
  if digits.isEmpty ∨ value < -2 ^ 31 ∨ 2 ^ 31 ≤ value then none else some value

/-- The layers in the name of a cache file, `<model_id>-<begin>-<end>.gguf`. -/
def cachedRange (modelId modelSha256 name : List Char) : Option CachedRange := do
  let span ← (← name.dropPrefix? (modelId ++ ['-'])).dropSuffix? ".gguf".toList
  let (first, last) ← cut '-' span
  let first ← stoi first
  let last ← stoi last
  if first < last then some { modelSha256, first, last } else none

/-- `cached_ranges`, of the names of the files in the cache. -/
def cachedRanges (files : List (List Char)) (modelId modelSha256 : List Char) : List CachedRange :=
  files.filterMap fun name =>
    if name ++ ".ranges".toList ∈ files then cachedRange modelId modelSha256 name else none

lemma stoi_lt {text : List Char} {value : Int} (h : stoi text = some value) : value < 2 ^ 31 := by
  obtain ⟨hrange, h⟩ := Option.ite_none_left_eq_some.mp h
  rw [not_or, not_or] at hrange
  exact Option.some.inj h ▸ Int.not_le.mp hrange.2.2

lemma stoi_nonneg {text : List Char} {value : Int} (hminus : '-' ∉ text)
    (h : stoi text = some value) :
    0 ≤ value := by
  obtain ⟨-, h⟩ := Option.ite_none_left_eq_some.mp h
  have hhead : (text.dropWhile isSpace).head? ≠ some '-' := fun hhead =>
    hminus ((List.dropWhile_sublist _).subset (List.mem_of_mem_head? hhead))
  rw [if_neg hhead] at h
  exact Option.some.inj h ▸ Int.natCast_nonneg _

/-- A range is one of layers, of the model it is looked for. -/
lemma mem_cachedRanges {files : List (List Char)} {modelId modelSha256 : List Char}
    {range : CachedRange} (h : range ∈ cachedRanges files modelId modelSha256) :
    range.modelSha256 = modelSha256 ∧ 0 ≤ range.first ∧ range.first < range.last ∧
    range.last < 2 ^ 31 := by
  obtain ⟨name, -, h⟩ := List.mem_filterMap.mp h
  obtain ⟨-, h⟩ := Option.ite_none_right_eq_some.mp h
  rw [cachedRange] at h
  obtain ⟨rest, -, h⟩ := Option.bind_eq_some_iff.mp h
  obtain ⟨span, -, h⟩ := Option.bind_eq_some_iff.mp h
  obtain ⟨⟨before, after⟩, hcut, h⟩ := Option.bind_eq_some_iff.mp h
  obtain ⟨first, hfirst, h⟩ := Option.bind_eq_some_iff.mp h
  obtain ⟨last, hlast, h⟩ := Option.bind_eq_some_iff.mp h
  obtain ⟨hlt, h⟩ := Option.ite_none_right_eq_some.mp h
  obtain rfl := Option.some.inj h
  exact ⟨rfl, stoi_nonneg (cut_eq_some hcut).2 hfirst, hlt, stoi_lt hlast⟩

end ProviderOwned.Greeting
