import ProviderOwned.Wire.Control
import ProviderOwned.Worker.Capability

/-!
# The greeting

`available_message` and `parse_available` of `formation.hpp`, with the text of a measured speed in
`measurement.hpp`. A speed is sent as a whole number and with its age, so it arrives rounded and
dated by the clock of the reader. The sessions that are open are sent with the time since the worker
was last busy, and not without it.
-/

namespace ProviderOwned.Greeting

open Text
open Planner (fromChars)

/-- What the greeting uses of the source's `double`. -/
class Rounding (D : Type) where
  ofNat : Nat → D
  llround : D → Int

open Rounding

/-- Speeds that are whole numbers. -/
instance : Rounding Nat := ⟨id, Int.ofNat⟩

variable {D : Type} [Rounding D]

/-! ### Speeds -/

def SpeedRecord.speed (record : SpeedRecord D) : Nat := (llround record.usPerGib % 2 ^ 64).toNat

def SpeedRecord.age (record : SpeedRecord D) (now : Int) : Nat :=
  (max 0 (now - record.updatedUnixS)).toNat

def Phase.letter : Phase → List Char
  | .decode => ['d']
  | .prefill => ['p']

/-- The phase of a letter that is one of the two. -/
def Phase.ofLetter (letter : List Char) : Phase := if letter = ['d'] then .decode else .prefill

def speedFields (record : SpeedRecord D) (now : Int) : List (List Char) :=
  [record.key.modelSha256, record.key.phase.letter, decimal record.key.context.toNat,
    decimal record.key.sessions.toNat, decimal record.speed, decimal record.samples.toNat,
    decimal (record.age now)]

def speedText (record : SpeedRecord D) (now : Int) : List Char :=
  joined ':' (speedFields record now)

/-- A digit of a lowercase SHA-256. -/
def lowerHex (c : Char) : Bool := ('0' ≤ c && c ≤ '9') || ('a' ≤ c && c ≤ 'f')

def parseSpeedText (text : List Char) (now : Int) : Option (SpeedRecord D) := do
  match ← splitExactly ':' 6 text with
  | [sha, phase, context, sessions, speed, samples, age] =>
    if sha.length ≠ 64 ∨ !sha.all lowerHex ∨ (phase ≠ ['d'] ∧ phase ≠ ['p']) then none
    else
      let context ← (fromDecimal (2 ^ 32) context).map UInt32.ofNat
      let sessions ← (fromDecimal (2 ^ 32) sessions).map UInt32.ofNat
      let speed ← fromDecimal (2 ^ 64) speed
      let samples ← (fromDecimal (2 ^ 32) samples).map UInt32.ofNat
      let age ← fromDecimal (2 ^ 64) age
      if context ≠ contextBucket context ∨ sessions ≠ sessionsBucket sessions ∨ speed = 0 ∨
          maxUsPerGib < speed ∨ samples = 0 ∨ speedMaxAgeS * 4 < age then none
      else
        let key := { modelSha256 := sha, phase := Phase.ofLetter phase, context, sessions }
        some { key, usPerGib := ofNat speed, samples, updatedUnixS := now - age }
  | _ => none

/-! ### The greeting -/

def maxGreetingBytes : Nat := 64 * 1024

def maxGreetingName : Nat := 128

def maxGreetingVramMib : UInt64 := 2 ^ 24

def maxGreetingContext : UInt32 := 2 ^ 20

def maxGreetingSessions : UInt32 := 256

def maxGreetingModels : Nat := 64

def maxGreetingCached : Nat := 256

def maxGreetingLayer : Int := 4096

def maxGreetingLinks : Nat := 32

def maxGreetingKibPerS : UInt32 := 100 * 2 ^ 20

/-- A `cached=` value. -/
def cachedText (range : CachedRange) : List Char :=
  range.modelSha256 ++ ':' :: (intText range.first ++ '-' :: intText range.last)

/-- A `link=` value. -/
def linkText (link : PeerLink) : List Char :=
  link.peer ++ ':' :: (decimal link.rttMs.toNat ++ ':' :: (if link.relayed then "relay"
    else "direct").toList)

/-- A `link_bw=` value. -/
def bandwidthText (link : PeerLink) : List Char := link.peer ++ ':' :: decimal link.kibPerS.toNat

def linkFields (link : PeerLink) : List (List Char × List Char) :=
  ("link".toList, linkText link) :: fieldIf (link.kibPerS ≠ 0) "link_bw" (bandwidthText link)

/-- The `activations=` value. -/
def activationsText (f16 fp8 : Bool) : List Char :=
  (if f16 then "f16".toList else []) ++ (if f16 && fp8 then [','] else []) ++
    (if fp8 then "fp8".toList else [])

namespace ProviderCapability

/-- `available_message`. -/
def fields (c : ProviderCapability D) (now : Int) : List (List Char × List Char) :=
  [("id".toList, c.id), ("gpu".toList, c.gpu),
    ("vram_mib".toList, decimal c.offeredVramMib.toNat)] ++
  (fieldIf (!c.ringEndpoint.isEmpty) "ring" c.ringEndpoint ++
  (fieldIf (!c.state.isEmpty) "state" c.state ++
  (fieldIf (!c.runtimeAbi.isEmpty) "abi" c.runtimeAbi ++
  (fieldIf (c.maxContext ≠ 0) "max_context" (decimal c.maxContext.toNat) ++
  (fieldIf (c.maxSessions ≠ 0) "max_sessions" (decimal c.maxSessions.toNat) ++
  (c.models.map (fun model => ("model".toList, model)) ++
  (c.cached.map (fun range => ("cached".toList, cachedText range)) ++
  (fieldIf (c.speedUsPerGib ≠ 0) "speed" (decimal c.speedUsPerGib.toNat) ++
  (c.speeds.map (fun record => ("measured".toList, speedText record now)) ++
  (c.idleS.elim [] (fun idle => [("idle_s".toList, decimal idle.toNat),
    ("open_sessions".toList, decimal c.openSessions.toNat)]) ++
  (c.links.flatMap linkFields ++
  (fieldIf c.replicaOwner "owner" ['1'] ++
  fieldIf (c.f16Activations || c.fp8Activations) "activations"
    (activationsText c.f16Activations c.fp8Activations)))))))))))))

def setBandwidth (c : ProviderCapability D) (value : List Char) :
    Option (ProviderCapability D) := do
  let (peer, number) ← cut ':' value
  let kibPerS ← (fromDecimal (2 ^ 32) number).map UInt32.ofNat
  if kibPerS = 0 ∨ maxGreetingKibPerS < kibPerS then none
  else
    match c.links.findIdx? fun link => link.peer = peer with
    | none => none
    | some n =>
      if (c.links[n]?.map PeerLink.kibPerS).getD 0 ≠ 0 then none
      else some { c with links := c.links.modify n ({ · with kibPerS }) }

/-- The formats of an `activations=` value. -/
def setActivations (c : ProviderCapability D) (value : List Char) : ProviderCapability D :=
  (pieces ',' value).foldl (fun c format =>
    if format = "f16".toList then { c with f16Activations := true }
    else if format = "fp8".toList then { c with fp8Activations := true }
    else c) c

/-- A range in a `cached=` value. -/
def readCached (value : List Char) : Option CachedRange := do
  let (sha, range) ← cut ':' value
  let (first, last) ← cut '-' range
  let first ← fromChars first
  let last ← fromChars last
  if !Address.hexString sha 64 ∨ first < 0 ∨ last ≤ first ∨ maxGreetingLayer < last then none
  else some { modelSha256 := sha, first, last }

/-- A link in a `link=` value. -/
def readLink (value : List Char) : Option PeerLink := do
  let (peer, rest) ← cut ':' value
  let (rtt, path) ← cut ':' rest
  let rttMs ← (fromDecimal (2 ^ 32) rtt).map UInt32.ofNat
  if !validPeerId peer ∨ 60000 < rttMs ∨ (path ≠ "direct".toList ∧ path ≠ "relay".toList) then none
  else some { peer, rttMs, relayed := path = "relay".toList, kibPerS := 0 }

/-- The lines of `parse_available`; `clock n` is the time when the speed number `n` is read. -/
def setters (clock : Nat → Int) : Setters (ProviderCapability D) :=
  [("id", fun c value => some { c with id := value }),
    ("gpu", fun c value => some { c with gpu := value }),
    ("vram_mib", fun c value =>
      (fromDecimal (2 ^ 64) value).map ({ c with offeredVramMib := UInt64.ofNat · })),
    ("ring", fun c value => some { c with ringEndpoint := value }),
    ("state", fun c value => some { c with state := value }),
    ("abi", fun c value => some { c with runtimeAbi := value }),
    ("max_context", fun c value =>
      (fromDecimal (2 ^ 32) value).map ({ c with maxContext := UInt32.ofNat · })),
    ("max_sessions", fun c value =>
      (fromDecimal (2 ^ 32) value).map ({ c with maxSessions := UInt32.ofNat · })),
    ("model", fun c value =>
      if !Address.hexString value 64 ∨ maxGreetingModels ≤ c.models.length then none
      else some { c with models := c.models ++ [value] }),
    ("cached", fun c value =>
      if maxGreetingCached ≤ c.cached.length then none
      else (readCached value).map fun range => { c with cached := c.cached ++ [range] }),
    ("speed", fun c value =>
      ((fromDecimal (2 ^ 64) value).filter (· ≤ maxUsPerGib)).map
        ({ c with speedUsPerGib := UInt64.ofNat · })),
    ("measured", fun c value =>
      if maxSpeedRecords ≤ c.speeds.length then none
      else (parseSpeedText value (clock c.speeds.length)).map fun record =>
        { c with speeds := c.speeds ++ [record] }),
    ("idle_s", fun c value =>
      (fromDecimal (2 ^ 32) value).map
        fun seconds => { c with idleS := some (UInt32.ofNat seconds) }),
    ("open_sessions", fun c value =>
      (fromDecimal (2 ^ 32) value).map ({ c with openSessions := UInt32.ofNat · })),
    ("link", fun c value =>
      if maxGreetingLinks ≤ c.links.length then none
      else (readLink value).map fun link => { c with links := c.links ++ [link] }),
    ("link_bw", setBandwidth),
    ("owner", fun c value => some { c with replicaOwner := value = ['1'] }),
    ("activations", fun c value => some (c.setActivations value))]

/-- What `parse_available` accepts once every line is read. -/
def valid (c : ProviderCapability D) : Bool :=
  !c.id.isEmpty && c.id.all (fun b => b ≠ '\r' && b ≠ '\n') && c.id.length ≤ maxGreetingName &&
    c.gpu.length ≤ maxGreetingName && c.runtimeAbi.length ≤ maxGreetingName &&
    c.offeredVramMib ≤ maxGreetingVramMib && c.maxContext ≤ maxGreetingContext &&
    c.maxSessions ≤ maxGreetingSessions && c.openSessions ≤ maxGreetingSessions && !c.gpu.isEmpty &&
    c.offeredVramMib ≠ 0 && validRingTarget c.ringEndpoint &&
    (c.state.isEmpty || c.state = "available".toList || c.state = "reserved".toList ||
      c.state = "loading".toList || c.state = "serving".toList) &&
    c.runtimeAbi.all fun b => b ≠ '\r' && b ≠ '\n'

end ProviderCapability

def availableMessage (c : ProviderCapability D) (now : Int) : List Char := fieldsText (c.fields now)

def parseAvailable (text : List Char) (clock : Nat → Int) : Option (ProviderCapability D) :=
  if maxGreetingBytes < text.length then none
  else (readFields (ProviderCapability.setters clock).setKnown {} text).filter
    ProviderCapability.valid

/-! ### The values of the lines -/

/-- A speed is kept for a configuration in buckets, of a model by its lowercase SHA-256. -/
structure SpeedKey.Proper (key : SpeedKey) : Prop where
  length : key.modelSha256.length = 64
  lower : key.modelSha256.all lowerHex
  context : key.context = contextBucket key.context
  sessions : key.sessions = sessionsBucket key.sessions

/-- A speed that can be sent: measured, in the range that is taken, and not too old. -/
structure SpeedRecord.Sendable (record : SpeedRecord D) (now : Int) : Prop where
  key : record.key.Proper
  speed_pos : 0 < record.speed
  speed_le : record.speed ≤ maxUsPerGib
  samples : record.samples ≠ 0
  age : record.age now ≤ speedMaxAgeS * 4

/-- The speed as it is read: rounded, and dated by the reader's clock. -/
def SpeedRecord.sent (record : SpeedRecord D) (now read : Int) : SpeedRecord D :=
  { record with usPerGib := ofNat record.speed, updatedUnixS := read - record.age now }

structure SpeedRecord.ReadAt (record : SpeedRecord D) (read : Int) : Prop where
  key : record.key.Proper
  speed : ∃ n, 0 < n ∧ n ≤ maxUsPerGib ∧ record.usPerGib = ofNat n
  samples : record.samples ≠ 0
  age : ∃ n : Nat, n ≤ speedMaxAgeS * 4 ∧ record.updatedUnixS = read - n

structure CachedRange.Valid (range : CachedRange) : Prop where
  sha : Address.hexString range.modelSha256 64
  first : 0 ≤ range.first
  last : range.first < range.last
  layers : range.last ≤ maxGreetingLayer

structure PeerLink.Valid (link : PeerLink) : Prop where
  peer : validPeerId link.peer
  rtt : link.rttMs ≤ 60000
  bandwidth : link.kibPerS ≤ maxGreetingKibPerS

variable {record : SpeedRecord D} {range : CachedRange} {link : PeerLink} {text value : List Char}
  {now read : Int}

lemma not_mem_of_lowerHex {sep : Char} (h : value.all lowerHex) (hsep : lowerHex sep = false) :
    sep ∉ value := by
  intro hmem
  rw [List.all_eq_true.mp h sep hmem] at hsep
  cases hsep

lemma letter_ne_nil_colon (phase : Phase) : ':' ∉ phase.letter ∧ '\n' ∉ phase.letter := by
  cases phase <;> decide

/-- A speed of a configuration is read back if it is in range and not too old. -/
lemma parseSpeedText_speedText_eq (h : record.key.Proper) :
    parseSpeedText (speedText record now) read =
      if record.speed = 0 ∨ maxUsPerGib < record.speed ∨ record.samples = 0 ∨
        speedMaxAgeS * 4 < record.age now then none else some (record.sent now read) := by
  have hnumber : ∀ n, ':' ∉ decimal n := not_mem_decimal (by decide)
  have hsha : ':' ∉ record.key.modelSha256 := not_mem_of_lowerHex h.lower (by decide)
  have hletter := (letter_ne_nil_colon record.key.phase).1
  have hsplit : splitExactly ':' 6 (speedText record now) = some (speedFields record now) :=
    splitExactly_joined rfl (by simp [speedFields, hsha, hletter, hnumber])
  have hspeed : record.speed < 2 ^ 64 := by
    rw [SpeedRecord.speed]
    omega
  have hphase : Phase.ofLetter record.key.phase.letter = record.key.phase := by
    cases record.key.phase <;> rfl
  have hphases : ¬ (record.key.phase.letter ≠ ['d'] ∧ record.key.phase.letter ≠ ['p']) := by
    cases record.key.phase <;> decide
  have hfields :
      ¬ (record.key.modelSha256.length ≠ 64 ∨ (!record.key.modelSha256.all lowerHex) = true ∨
      record.key.phase.letter ≠ ['d'] ∧ record.key.phase.letter ≠ ['p']) := by
    rw [h.lower]
    simp [h.length, hphases]
  unfold parseSpeedText
  rw [hsplit, speedFields]
  simp only [Option.bind_eq_bind, Option.bind_some, if_neg hfields, Option.map_some,
    fromDecimal_decimal record.key.context.toNat_lt,
    fromDecimal_decimal record.key.sessions.toNat_lt, fromDecimal_decimal hspeed,
    fromDecimal_decimal record.samples.toNat_lt, UInt32.ofNat_toNat, hphase,
    ← h.context, ← h.sessions, ne_eq, not_true_eq_false, false_or]
  by_cases hage : record.age now < 2 ^ 64
  · rw [fromDecimal_decimal hage, Option.bind_some]
    rfl
  · have hold : speedMaxAgeS * 4 < record.age now := lt_of_lt_of_le (by decide) (Nat.not_lt.mp hage)
    rw [fromDecimal_decimal_of_le (Nat.not_lt.mp hage), Option.bind_none,
      if_pos (.inr (.inr (.inr hold)))]

lemma parseSpeedText_speedText (h : record.Sendable now) :
    parseSpeedText (speedText record now) read = some (record.sent now read) := by
  rw [parseSpeedText_speedText_eq h.key, if_neg]
  simp only [h.samples, false_or, not_or, Nat.not_lt]
  exact ⟨h.speed_pos.ne', h.speed_le, h.age⟩

/-- A speed that is read was well formed. -/
lemma parseSpeedText_readAt (h : parseSpeedText text read = some record) : record.ReadAt read := by
  unfold parseSpeedText at h
  obtain ⟨parts, -, h⟩ := Option.bind_eq_some_iff.mp h
  split at h
  · rename_i sha phase context sessions speed samples age
    split_ifs at h with hfields
    obtain ⟨context, -, h⟩ := Option.bind_eq_some_iff.mp h
    obtain ⟨sessions, -, h⟩ := Option.bind_eq_some_iff.mp h
    obtain ⟨speed, -, h⟩ := Option.bind_eq_some_iff.mp h
    obtain ⟨samples, -, h⟩ := Option.bind_eq_some_iff.mp h
    obtain ⟨age, -, h⟩ := Option.bind_eq_some_iff.mp h
    split_ifs at h with hvalues
    simp only [not_or, not_not, Bool.not_eq_true] at hfields hvalues
    obtain ⟨hcontext, hsessions, hspeed, hspeedLe, hsamples, hage⟩ := hvalues
    cases h
    exact ⟨⟨hfields.1, by simpa using hfields.2.1, hcontext, hsessions⟩,
      ⟨speed, Nat.pos_of_ne_zero hspeed, Nat.not_lt.mp hspeedLe, rfl⟩, hsamples,
      ⟨age, Nat.not_lt.mp hage, rfl⟩⟩
  · cases h

/-- A range of layers is read back if there are not too many of them. -/
lemma readCached_cachedText_eq (hsha : Address.hexString range.modelSha256 64)
    (hfirst : 0 ≤ range.first) (horder : range.first < range.last) (hlast : range.last < 2 ^ 31) :
    ProviderCapability.readCached (cachedText range) =
      if maxGreetingLayer < range.last then none else some range := by
  have hcut : cut ':' (cachedText range) =
      some (range.modelSha256, intText range.first ++ '-' :: intText range.last) :=
    cut_append (not_mem_of_hexString hsha (by decide)) _
  have hdecimal : intText range.first = decimal range.first.toNat := if_neg (Int.not_lt.mpr hfirst)
  have hdash : '-' ∉ intText range.first := by
    rw [hdecimal]
    exact not_mem_decimal (by decide) _
  unfold ProviderCapability.readCached
  rw [hcut]
  simp only [Option.bind_eq_bind, Option.bind_some, cut_append hdash,
    fromChars_intText hfirst (horder.trans hlast), fromChars_intText (hfirst.trans horder.le) hlast,
    hsha, Bool.not_true, Bool.false_eq_true, Int.not_lt.mpr hfirst, Int.not_le.mpr horder, false_or]

lemma readCached_cachedText (h : range.Valid) :
    ProviderCapability.readCached (cachedText range) = some range := by
  have hlast : range.last < 2 ^ 31 := lt_of_le_of_lt h.layers (by decide)
  rw [readCached_cachedText_eq h.sha h.first h.last hlast, if_neg (Int.not_lt.mpr h.layers)]

lemma readCached_valid (h : ProviderCapability.readCached value = some range) : range.Valid := by
  unfold ProviderCapability.readCached at h
  obtain ⟨parts, -, h⟩ := Option.bind_eq_some_iff.mp h
  obtain ⟨numbers, -, h⟩ := Option.bind_eq_some_iff.mp h
  obtain ⟨first, -, h⟩ := Option.bind_eq_some_iff.mp h
  obtain ⟨last, -, h⟩ := Option.bind_eq_some_iff.mp h
  split_ifs at h with hbad
  simp only [not_or, Bool.not_eq_true, Bool.not_eq_false'] at hbad
  obtain ⟨hsha, hfirst, hlast, hlayers⟩ := hbad
  cases h
  exact ⟨hsha, Int.not_lt.mp hfirst, Int.not_le.mp hlast, Int.not_lt.mp hlayers⟩

lemma readLink_linkText (h : link.Valid) :
    ProviderCapability.readLink (linkText link) = some { link with kibPerS := 0 } := by
  have hcut : cut ':' (linkText link) = some (link.peer,
      decimal link.rttMs.toNat ++ ':' :: (if link.relayed then "relay" else "direct").toList) :=
    cut_append (not_mem_of_validPeerId h.peer (by decide)) _
  have hpath : ¬ ((if link.relayed then "relay" else "direct").toList ≠ "direct".toList ∧
      (if link.relayed then "relay" else "direct").toList ≠ "relay".toList) := by
    cases link.relayed <;> decide
  have hrelayed : decide ((if link.relayed then "relay" else "direct").toList = "relay".toList) =
      link.relayed := by
    cases link.relayed <;> decide
  have hvalid : ¬ ((!validPeerId link.peer) = true ∨ 60000 < link.rttMs ∨
      (if link.relayed then "relay" else "direct").toList ≠ "direct".toList ∧
        (if link.relayed then "relay" else "direct").toList ≠ "relay".toList) := by
    simp only [h.peer, Bool.not_true, Bool.false_eq_true, false_or, not_or]
    exact ⟨UInt32.not_lt.mpr h.rtt, hpath⟩
  have hrtt : ':' ∉ decimal link.rttMs.toNat := not_mem_decimal (by decide) _
  unfold ProviderCapability.readLink
  rw [hcut]
  simp only [Option.bind_eq_bind, Option.bind_some, cut_append hrtt,
    fromDecimal_decimal link.rttMs.toNat_lt, Option.map_some, UInt32.ofNat_toNat, if_neg hvalid,
    hrelayed]

lemma readLink_valid (h : ProviderCapability.readLink value = some link) :
    link.Valid ∧ link.kibPerS = 0 := by
  unfold ProviderCapability.readLink at h
  obtain ⟨parts, -, h⟩ := Option.bind_eq_some_iff.mp h
  obtain ⟨numbers, -, h⟩ := Option.bind_eq_some_iff.mp h
  obtain ⟨rtt, -, h⟩ := Option.bind_eq_some_iff.mp h
  split_ifs at h with hbad
  simp only [not_or, Bool.not_eq_true, Bool.not_eq_false'] at hbad
  obtain ⟨hpeer, hrtt, -⟩ := hbad
  cases h
  exact ⟨⟨hpeer, UInt32.not_lt.mp hrtt, UInt32.le_iff_toNat_le.mpr (Nat.zero_le _)⟩, rfl⟩

/-! ### The lines -/

namespace ProviderCapability

variable {clock : Nat → Int} {b c : ProviderCapability D}

lemma setters_keys : ((setters clock : Setters (ProviderCapability D)).map Prod.fst).Nodup := by
  change ["id", "gpu", "vram_mib", "ring", "state", "abi", "max_context", "max_sessions", "model",
    "cached", "speed", "measured", "idle_s", "open_sessions", "link", "link_bw", "owner",
    "activations"].Nodup
  decide

abbrev step (clock : Nat → Int) (b : ProviderCapability D) (field : List Char × List Char) :
    Option (ProviderCapability D) :=
  (setters clock).setKnown b field.1 field.2

lemma step_at (n : Nat) {key : String}
    {f : ProviderCapability D → List Char → Option (ProviderCapability D)}
    (h : (setters clock)[n]? = some (key, f)) (b : ProviderCapability D) (value : List Char) :
    step clock b (key.toList, value) = f b value :=
  Setters.setKnown_at setters_keys n h b value

/-- A field that is left out where it has the value it starts with. -/
lemma fold_fieldIf {used : Bool} {key : String} {value : List Char} {b' : ProviderCapability D}
    (hset : used = true → step clock b (key.toList, value) = some b')
    (hskip : used = false → b = b') :
    (fieldIf used key value).foldlM (step clock) b = some b' := by
  rw [foldlM_fieldIf]
  cases used with
  | true => exact hset rfl
  | false => exact congrArg some (hskip rfl)

/-- The lines that are always there. -/
lemma fold_names :
    [("id".toList, c.id), ("gpu".toList, c.gpu),
      ("vram_mib".toList, decimal c.offeredVramMib.toNat)].foldlM
      (step clock) b =
        some { b with id := c.id, gpu := c.gpu, offeredVramMib := c.offeredVramMib } := by
  refine foldlM_cons_some (step_at 0 rfl b _) (foldlM_cons_some (step_at 1 rfl _ _)
    (foldlM_cons_some ?_ rfl))
  rw [step_at 2 rfl, fromDecimal_decimal c.offeredVramMib.toNat_lt, Option.map_some,
    UInt64.ofNat_toNat]

lemma fold_ring (h : b.ringEndpoint = []) :
    (fieldIf (!c.ringEndpoint.isEmpty) "ring" c.ringEndpoint).foldlM (step clock) b =
      some { b with ringEndpoint := c.ringEndpoint } := by
  refine fold_fieldIf (fun _ => step_at 3 rfl b _) fun hempty => ?_
  have hnone : c.ringEndpoint = [] := by simpa using hempty
  rw [hnone, ← h]

lemma fold_state (h : b.state = []) :
    (fieldIf (!c.state.isEmpty) "state" c.state).foldlM (step clock) b =
      some { b with state := c.state } := by
  refine fold_fieldIf (fun _ => step_at 4 rfl b _) fun hempty => ?_
  have hnone : c.state = [] := by simpa using hempty
  rw [hnone, ← h]

lemma fold_abi (h : b.runtimeAbi = []) :
    (fieldIf (!c.runtimeAbi.isEmpty) "abi" c.runtimeAbi).foldlM (step clock) b =
      some { b with runtimeAbi := c.runtimeAbi } := by
  refine fold_fieldIf (fun _ => step_at 5 rfl b _) fun hempty => ?_
  have hnone : c.runtimeAbi = [] := by simpa using hempty
  rw [hnone, ← h]

lemma fold_maxContext (h : b.maxContext = 0) :
    (fieldIf (c.maxContext ≠ 0) "max_context" (decimal c.maxContext.toNat)).foldlM (step clock) b =
      some { b with maxContext := c.maxContext } := by
  refine fold_fieldIf (fun _ => ?_) fun hzero => ?_
  · rw [step_at 6 rfl, fromDecimal_decimal c.maxContext.toNat_lt, Option.map_some,
      UInt32.ofNat_toNat]
  · have hcontext : c.maxContext = 0 := by simpa using hzero
    rw [hcontext, ← h]

lemma fold_maxSessions (h : b.maxSessions = 0) :
    (fieldIf (c.maxSessions ≠ 0) "max_sessions" (decimal c.maxSessions.toNat)).foldlM
      (step clock) b =
      some { b with maxSessions := c.maxSessions } := by
  refine fold_fieldIf (fun _ => ?_) fun hzero => ?_
  · rw [step_at 7 rfl, fromDecimal_decimal c.maxSessions.toNat_lt, Option.map_some,
      UInt32.ofNat_toNat]
  · have hsessions : c.maxSessions = 0 := by simpa using hzero
    rw [hsessions, ← h]

lemma fold_models {models : List (List Char)} (hhex : ∀ model ∈ models, Address.hexString model 64)
    (hcount : b.models.length + models.length ≤ maxGreetingModels) :
    (models.map fun model => ("model".toList, model)).foldlM (step clock) b =
      some { b with models := b.models ++ models } := by
  induction models generalizing b with
  | nil => simp
  | cons model models ih =>
    obtain ⟨hmodel, hmodels⟩ := List.forall_mem_cons.mp hhex
    rw [List.length_cons] at hcount
    have hroom : ¬ maxGreetingModels ≤ b.models.length := by omega
    have hset : step clock b ("model".toList, model) =
        some { b with models := b.models ++ [model] } := by
      rw [step_at 8 rfl, if_neg (by simp [hmodel, hroom])]
    rw [List.map_cons, List.foldlM_cons, hset, Option.bind_eq_bind, Option.bind_some, ih hmodels]
    · simp
    · rw [List.length_append, List.length_singleton]
      omega

lemma fold_cached {cached : List CachedRange} (hvalid : ∀ range ∈ cached, range.Valid)
    (hcount : b.cached.length + cached.length ≤ maxGreetingCached) :
    (cached.map fun range => ("cached".toList, cachedText range)).foldlM (step clock) b =
      some { b with cached := b.cached ++ cached } := by
  induction cached generalizing b with
  | nil => simp
  | cons range cached ih =>
    obtain ⟨hrange, hcached⟩ := List.forall_mem_cons.mp hvalid
    rw [List.length_cons] at hcount
    have hset : step clock b ("cached".toList, cachedText range) =
        some { b with cached := b.cached ++ [range] } := by
      rw [step_at 9 rfl, if_neg (by omega), readCached_cachedText hrange, Option.map_some]
    rw [List.map_cons, List.foldlM_cons, hset, Option.bind_eq_bind, Option.bind_some, ih hcached]
    · simp
    · rw [List.length_append, List.length_singleton]
      omega

lemma fold_speed (h : b.speedUsPerGib = 0) (hle : c.speedUsPerGib.toNat ≤ maxUsPerGib) :
    (fieldIf (c.speedUsPerGib ≠ 0) "speed" (decimal c.speedUsPerGib.toNat)).foldlM (step clock) b =
      some { b with speedUsPerGib := c.speedUsPerGib } := by
  refine fold_fieldIf (fun _ => ?_) fun hzero => ?_
  · rw [step_at 10 rfl, fromDecimal_decimal c.speedUsPerGib.toNat_lt,
      Option.filter_some_pos (by simpa using hle), Option.map_some, UInt64.ofNat_toNat]
  · have hspeed : c.speedUsPerGib = 0 := by simpa using hzero
    rw [hspeed, ← h]

/-- The speeds as they are read, from the number `n` on. -/
def sentSpeeds (now : Int) (clock : Nat → Int) (n : Nat) (speeds : List (SpeedRecord D)) :
    List (SpeedRecord D) :=
  (speeds.zipIdx n).map fun (record, n) => record.sent now (clock n)

lemma fold_speeds {speeds : List (SpeedRecord D)}
    (hsendable : ∀ record ∈ speeds, record.Sendable now)
    (hcount : b.speeds.length + speeds.length ≤ maxSpeedRecords) :
    (speeds.map fun record => ("measured".toList, speedText record now)).foldlM (step clock) b =
      some { b with speeds := b.speeds ++ sentSpeeds now clock b.speeds.length speeds } := by
  induction speeds generalizing b with
  | nil => simp [sentSpeeds]
  | cons record speeds ih =>
    obtain ⟨hrecord, hspeeds⟩ := List.forall_mem_cons.mp hsendable
    rw [List.length_cons] at hcount
    have hset : step clock b ("measured".toList, speedText record now) =
        some { b with speeds := b.speeds ++ [record.sent now (clock b.speeds.length)] } := by
      rw [step_at 11 rfl, if_neg (by omega), parseSpeedText_speedText hrecord, Option.map_some]
    rw [List.map_cons, List.foldlM_cons, hset, Option.bind_eq_bind, Option.bind_some, ih hspeeds]
    · simp [sentSpeeds]
    · rw [List.length_append, List.length_singleton]
      omega

lemma fold_idle (hidle : b.idleS = none) (hopen : b.openSessions = 0) :
    (c.idleS.elim [] fun idle => [("idle_s".toList, decimal idle.toNat),
      ("open_sessions".toList, decimal c.openSessions.toNat)]).foldlM (step clock) b =
      some { b with
        idleS := c.idleS
        openSessions := if c.idleS.isSome then c.openSessions else 0 } := by
  cases c.idleS with
  | none =>
    rw [Option.elim_none, List.foldlM_nil]
    refine congrArg some ?_
    cases b
    simp_all
  | some idle =>
    rw [Option.elim_some]
    refine foldlM_cons_some (b := { b with idleS := some idle }) ?_ (foldlM_cons_some ?_ rfl)
    · rw [step_at 12 rfl, fromDecimal_decimal idle.toNat_lt, Option.map_some, UInt32.ofNat_toNat]
    · rw [step_at 13 rfl, fromDecimal_decimal c.openSessions.toNat_lt, Option.map_some,
        UInt32.ofNat_toNat]
      rfl

/-- A link is read without its bandwidth, which the next line sets. -/
lemma fold_link (hvalid : link.Valid) (hcount : b.links.length < maxGreetingLinks)
    (hnew : link.kibPerS ≠ 0 → ∀ l ∈ b.links, l.peer ≠ link.peer) :
    (linkFields link).foldlM (step clock) b = some { b with links := b.links ++ [link] } := by
  have hlink : step clock b ("link".toList, linkText link) =
      some { b with links := b.links ++ [{ link with kibPerS := 0 }] } := by
    rw [step_at 14 rfl, if_neg (Nat.not_le.mpr hcount), readLink_linkText hvalid, Option.map_some]
  refine foldlM_cons_some hlink (fold_fieldIf (fun hused => ?_) fun hzero => ?_)
  · have hcut : cut ':' (bandwidthText link) = some (link.peer, decimal link.kibPerS.toNat) :=
      cut_append (not_mem_of_validPeerId hvalid.peer (by decide)) _
    have hmeasured : link.kibPerS ≠ 0 := by simpa using hused
    have hbad : ¬ (link.kibPerS = 0 ∨ maxGreetingKibPerS < link.kibPerS) := by
      rw [not_or, UInt32.not_lt]
      exact ⟨hmeasured, hvalid.bandwidth⟩
    have hfind : (b.links ++ [{ link with kibPerS := 0 }]).findIdx?
      (fun l : PeerLink => l.peer = link.peer) =
        some b.links.length := by
      rw [List.findIdx?_append, List.findIdx?_eq_none_iff.mpr (by simpa using hnew hmeasured)]
      simp
    rw [step_at 15 rfl, setBandwidth, hcut]
    simp only [Option.bind_eq_bind, Option.bind_some, fromDecimal_decimal link.kibPerS.toNat_lt,
      Option.map_some, UInt32.ofNat_toNat, if_neg hbad, hfind]
    simp [List.modify_eq_take_drop]
  · have hnone : link.kibPerS = 0 := by simpa using hzero
    rw [← hnone]

/-- Links are read if the bandwidth of a peer is given once. -/
lemma fold_links {links : List PeerLink} (hvalid : ∀ link ∈ links, link.Valid)
    (hcount : b.links.length + links.length ≤ maxGreetingLinks)
    (honce : (b.links ++ links).Pairwise fun l link => l.peer = link.peer → link.kibPerS = 0) :
    (links.flatMap linkFields).foldlM (step clock) b =
      some { b with links := b.links ++ links } := by
  induction links generalizing b with
  | nil => simp
  | cons link links ih =>
    obtain ⟨hlink, hlinks⟩ := List.forall_mem_cons.mp hvalid
    rw [List.length_cons] at hcount
    have hnew : link.kibPerS ≠ 0 → ∀ l ∈ b.links, l.peer ≠ link.peer := by
      intro hmeasured l hl hsame
      exact hmeasured ((List.pairwise_append.mp honce).2.2 l hl link List.mem_cons_self hsame)
    rw [List.flatMap_cons]
    refine foldlM_append_some (fold_link hlink (by omega) hnew) ?_
    rw [ih hlinks]
    · simp
    · rw [List.length_append, List.length_singleton]
      omega
    · simpa using honce

lemma fold_owner (h : b.replicaOwner = false) :
    (fieldIf c.replicaOwner "owner" ['1']).foldlM (step clock) b =
      some { b with replicaOwner := c.replicaOwner } := by
  refine fold_fieldIf (fun hused => ?_) fun hunused => ?_
  · rw [step_at 16 rfl, hused]
    rfl
  · rw [hunused, ← h]

lemma fold_activations (hf16 : b.f16Activations = false) (hfp8 : b.fp8Activations = false) :
    (fieldIf (c.f16Activations || c.fp8Activations) "activations"
      (activationsText c.f16Activations c.fp8Activations)).foldlM (step clock) b =
      some { b with f16Activations := c.f16Activations, fp8Activations := c.fp8Activations } := by
  refine fold_fieldIf (fun hused => ?_) fun hunused => ?_
  · rw [step_at 17 rfl]
    refine congrArg some ?_
    cases b
    revert hused
    cases c.f16Activations <;> cases c.fp8Activations <;>
      simp_all [setActivations, activationsText, pieces]
  · cases b
    simp_all

/-! ### What can be sent -/

/-- What the parser bounds besides its check at the end. -/
structure Counted (c : ProviderCapability D) : Prop where
  modelCount : c.models.length ≤ maxGreetingModels
  models : ∀ model ∈ c.models, Address.hexString model 64
  cachedCount : c.cached.length ≤ maxGreetingCached
  cached : ∀ range ∈ c.cached, range.Valid
  speed : c.speedUsPerGib.toNat ≤ maxUsPerGib
  speedCount : c.speeds.length ≤ maxSpeedRecords
  linkCount : c.links.length ≤ maxGreetingLinks
  links : ∀ link ∈ c.links, link.Valid

/-- A capability within the greeting's bounds. -/
structure Sendable (c : ProviderCapability D) (now : Int) : Prop extends Counted c where
  valid : c.valid
  gpu : '\n' ∉ c.gpu
  peers : (c.links.map PeerLink.peer).Nodup
  speeds : ∀ record ∈ c.speeds, record.Sendable now
  size : (availableMessage c now).length ≤ maxGreetingBytes

def sent (c : ProviderCapability D) (now : Int) (clock : Nat → Int) : ProviderCapability D :=
  { c with
    speeds := sentSpeeds now clock 0 c.speeds
    openSessions := if c.idleS.isSome then c.openSessions else 0 }

omit [Rounding D] in
/-- What the check at the end says. -/
lemma valid_iff : c.valid ↔ c.id ≠ [] ∧ (∀ b ∈ c.id, b ≠ '\r' ∧ b ≠ '\n') ∧
    c.id.length ≤ maxGreetingName ∧
    c.gpu.length ≤ maxGreetingName ∧ c.runtimeAbi.length ≤ maxGreetingName ∧
    c.offeredVramMib ≤ maxGreetingVramMib ∧ c.maxContext ≤ maxGreetingContext ∧
    c.maxSessions ≤ maxGreetingSessions ∧ c.openSessions ≤ maxGreetingSessions ∧ c.gpu ≠ [] ∧
    c.offeredVramMib ≠ 0 ∧ validRingTarget c.ringEndpoint ∧
    c.state ∈ [[], "available".toList, "reserved".toList, "loading".toList, "serving".toList] ∧
    ∀ b ∈ c.runtimeAbi, b ≠ '\r' ∧ b ≠ '\n' := by
  simp only [valid, Bool.and_eq_true, Bool.or_eq_true, List.all_eq_true, decide_eq_true_eq,
    Bool.not_eq_true', List.isEmpty_eq_false_iff, List.isEmpty_iff, List.mem_cons, List.not_mem_nil,
    or_false, and_assoc, or_assoc, ne_eq]

lemma valid_sent (h : c.valid) : (c.sent now clock).valid := by
  rw [valid_iff] at h ⊢
  obtain ⟨hid, hidText, hidLength, hgpuLength, habiLength, hvram, hcontext, hsessions, hopen,
    hrest⟩ := h
  refine ⟨hid, hidText, hidLength, hgpuLength, habiLength, hvram, hcontext, hsessions, ?_, hrest⟩
  unfold sent
  dsimp only
  split_ifs
  · exact hopen
  · decide

/-- The lines of a capability are read into it. -/
lemma foldlM_fields (h : c.Counted) (hspeeds : ∀ record ∈ c.speeds, record.Sendable now)
    (honce : c.links.Pairwise fun l link => l.peer = link.peer → link.kibPerS = 0) :
    (c.fields now).foldlM (step clock) {} = some (c.sent now clock) := by
  refine foldlM_append_some fold_names ?_
  refine foldlM_append_some (fold_ring rfl) ?_
  refine foldlM_append_some (fold_state rfl) ?_
  refine foldlM_append_some (fold_abi rfl) ?_
  refine foldlM_append_some (fold_maxContext rfl) ?_
  refine foldlM_append_some (fold_maxSessions rfl) ?_
  refine foldlM_append_some (fold_models h.models (by simpa using h.modelCount)) ?_
  refine foldlM_append_some (fold_cached h.cached (by simpa using h.cachedCount)) ?_
  refine foldlM_append_some (fold_speed rfl h.speed) ?_
  refine foldlM_append_some (fold_speeds hspeeds (by simpa using h.speedCount)) ?_
  refine foldlM_append_some (fold_idle rfl rfl) ?_
  refine foldlM_append_some (fold_links h.links (by simpa using h.linkCount) honce) ?_
  refine foldlM_append_some (fold_owner rfl) ?_
  rw [fold_activations rfl rfl]
  rfl

lemma plainFields_map {α : Type} {key : String} {f : α → List Char} {l : List α}
    (hkey : '=' ∉ key.toList ∧ '\n' ∉ key.toList) (h : ∀ a ∈ l, '\n' ∉ f a) :
    PlainFields (l.map fun a => (key.toList, f a)) := by
  intro field hfield
  obtain ⟨a, ha, rfl⟩ := List.mem_map.mp hfield
  exact ⟨hkey.1, hkey.2, h a ha⟩

lemma not_mem_intText_newline (value : Int) : '\n' ∉ intText value :=
  not_mem_intText (by decide) (by decide) value

lemma not_mem_decimal_newline (n : Nat) : '\n' ∉ decimal n := not_mem_decimal (by decide) n

lemma not_mem_speedText (h : record.key.Proper) : '\n' ∉ speedText record now := by
  have hsha : '\n' ∉ record.key.modelSha256 := not_mem_of_lowerHex h.lower (by decide)
  have hletter := (letter_ne_nil_colon record.key.phase).2
  intro hmem
  obtain hcolon | ⟨part, hpart, hmem⟩ := mem_joined hmem
  · exact absurd hcolon (by decide)
  · simp only [speedFields, List.mem_cons, List.not_mem_nil, or_false] at hpart
    obtain rfl | rfl | rfl | rfl | rfl | rfl | rfl := hpart
    · exact hsha hmem
    · exact hletter hmem
    all_goals exact not_mem_decimal_newline _ hmem

lemma not_mem_cachedText (h : Address.hexString range.modelSha256 64) :
    '\n' ∉ cachedText range := by
  have hsha : '\n' ∉ range.modelSha256 := not_mem_of_hexString h (by decide)
  simp [cachedText, hsha, not_mem_intText_newline]

lemma plain_linkFields (h : link.Valid) : PlainFields (linkFields link) := by
  have hpeer : '\n' ∉ link.peer := not_mem_of_validPeerId h.peer (by decide)
  have hpath : '\n' ∉ (if link.relayed then "relay" else "direct").toList := by
    cases link.relayed <;> decide
  refine PlainFields.cons (plainFields_fieldIf (by decide) fun _ => ?_) (by decide) ?_
  · simp [bandwidthText, hpeer, not_mem_decimal_newline]
  · rw [linkText]
    simp only [List.mem_append, List.mem_cons, hpeer, not_mem_decimal_newline, hpath, or_false,
      false_or]
    decide

/-- No value has a line break. -/
lemma plain_fields (hvalid : c.valid) (hgpu : '\n' ∉ c.gpu)
    (hmodels : ∀ model ∈ c.models, Address.hexString model 64)
    (hcached : ∀ range ∈ c.cached, Address.hexString range.modelSha256 64)
    (hspeeds : ∀ record ∈ c.speeds, record.key.Proper) (hlinks : ∀ link ∈ c.links, link.Valid) :
    PlainFields (c.fields now) := by
  obtain ⟨-, hid, -, -, -, -, -, -, -, -, -, hring, hstate, habi⟩ := valid_iff.mp hvalid
  have hnumber : ∀ n, '\n' ∉ decimal n := not_mem_decimal_newline
  refine PlainFields.append
    (((plainFields_nil.cons (by decide) (hnumber _)).cons (by decide) hgpu).cons
    (by decide) fun hmem => (hid _ hmem).2 rfl) ?_
  refine PlainFields.append (plainFields_fieldIf (by decide)
    fun _ => not_mem_of_validRingTarget hring) ?_
  refine PlainFields.append (plainFields_fieldIf (by decide) fun _ => ?_) ?_
  · revert hstate
    generalize c.state = state
    simp only [List.mem_cons, List.not_mem_nil, or_false]
    rintro (rfl | rfl | rfl | rfl | rfl) <;> decide
  refine PlainFields.append (plainFields_fieldIf (by decide) fun _ hmem => (habi _ hmem).2 rfl) ?_
  refine PlainFields.append (plainFields_fieldIf (by decide) fun _ => hnumber _) ?_
  refine PlainFields.append (plainFields_fieldIf (by decide) fun _ => hnumber _) ?_
  refine PlainFields.append (plainFields_map (by decide) fun model hmodel =>
    not_mem_of_hexString (hmodels model hmodel) (by decide)) ?_
  refine PlainFields.append (plainFields_map (by decide) fun range hrange =>
    not_mem_cachedText (hcached range hrange)) ?_
  refine PlainFields.append (plainFields_fieldIf (by decide) fun _ => hnumber _) ?_
  refine PlainFields.append (plainFields_map (by decide) fun record hrecord =>
    not_mem_speedText (hspeeds record hrecord)) ?_
  refine PlainFields.append ?_ ?_
  · cases c.idleS with
    | none => exact plainFields_nil
    | some idle => exact (plainFields_nil.cons (by decide) (hnumber _)).cons (by decide) (hnumber _)
  refine PlainFields.append ?_ ?_
  · intro field hfield
    obtain ⟨link, hlink, hfield⟩ := List.mem_flatMap.mp hfield
    exact plain_linkFields (hlinks link hlink) field hfield
  refine PlainFields.append (plainFields_fieldIf (by decide) fun _ => by decide)
    (plainFields_fieldIf (by decide) fun _ => ?_)
  cases c.f16Activations <;> cases c.fp8Activations <;> decide

/-- What is sent within the bounds is read. The bandwidth of a peer may be given once. -/
lemma parseAvailable_of_counted (h : c.Counted) (hvalid : c.valid) (hgpu : '\n' ∉ c.gpu)
    (hspeeds : ∀ record ∈ c.speeds, record.Sendable now)
    (honce : c.links.Pairwise fun l link => l.peer = link.peer → link.kibPerS = 0)
    (hsize : (availableMessage c now).length ≤ maxGreetingBytes) :
    parseAvailable (availableMessage c now) clock = some (c.sent now clock) := by
  have hplain : PlainFields (c.fields now) :=
    plain_fields hvalid hgpu h.models (fun range hrange => (h.cached range hrange).sha)
      (fun record hrecord => (hspeeds record hrecord).key) h.links
  have hread : readFields (setters clock).setKnown {} (availableMessage c now) =
      some (c.sent now clock) :=
    (readFields_fieldsText hplain).trans (foldlM_fields h hspeeds honce)
  rw [parseAvailable, if_neg (Nat.not_lt.mpr hsize), hread]
  exact Option.filter_eq_some_iff.mpr ⟨rfl, valid_sent hvalid⟩

lemma parseAvailable_availableMessage (h : c.Sendable now) :
    parseAvailable (availableMessage c now) clock = some (c.sent now clock) := by
  have hpeers : c.links.Pairwise fun l link => l.peer ≠ link.peer := List.pairwise_map.mp h.peers
  exact parseAvailable_of_counted h.toCounted h.valid h.gpu h.speeds
    (hpeers.imp fun hne hsame => absurd hsame hne) h.size

/-! ### What is read -/

/-- What a capability that was read has besides the check at the end. -/
structure Read (c : ProviderCapability D) (clock : Nat → Int) : Prop extends Counted c where
  speeds : ∀ (n : Nat) (record : SpeedRecord D), c.speeds[n]? = some record →
    record.ReadAt (clock n)

lemma read_nothing : Read ({} : ProviderCapability D) clock where
  modelCount := Nat.zero_le _
  models := fun _ h => absurd h List.not_mem_nil
  cachedCount := Nat.zero_le _
  cached := fun _ h => absurd h List.not_mem_nil
  speed := Nat.zero_le _
  speedCount := Nat.zero_le _
  linkCount := Nat.zero_le _
  links := fun _ h => absurd h List.not_mem_nil
  speeds := fun _ _ h => by cases h

/-- A line of another field changes nothing of this. -/
lemma Read.of_eq (h : Read b clock) (hmodels : c.models = b.models) (hcached : c.cached = b.cached)
    (hspeed : c.speedUsPerGib = b.speedUsPerGib) (hspeeds : c.speeds = b.speeds)
    (hlinks : c.links = b.links) : Read c clock := by
  obtain ⟨⟨hmodelCount, hmodels', hcachedCount, hcached', hspeed', hspeedCount, hlinkCount,
    hlinks'⟩, hspeeds'⟩ := h
  rw [← hmodels] at hmodelCount hmodels'
  rw [← hcached] at hcachedCount hcached'
  rw [← hspeed] at hspeed'
  rw [← hspeeds] at hspeedCount hspeeds'
  rw [← hlinks] at hlinkCount hlinks'
  exact ⟨⟨hmodelCount, hmodels', hcachedCount, hcached', hspeed', hspeedCount, hlinkCount, hlinks'⟩,
    hspeeds'⟩

lemma forall_mem_concat {α : Type} {P : α → Prop} {l : List α} {a : α} (h : ∀ x ∈ l, P x)
    (ha : P a) :
    ∀ x ∈ l ++ [a], P x :=
  List.forall_mem_append.mpr ⟨h, by simpa using ha⟩

lemma length_concat_le {α : Type} {l : List α} {a : α} {limit : Nat} (h : ¬ limit ≤ l.length) :
    (l ++ [a]).length ≤ limit := by
  rw [List.length_append, List.length_singleton]
  omega

omit [Rounding D] in
lemma setActivations_spec (value : List Char) :
    ∃ f16 fp8, b.setActivations value =
      { b with f16Activations := f16, fp8Activations := fp8 } := by
  unfold setActivations
  generalize pieces ',' value = formats
  induction formats generalizing b with
  | nil => exact ⟨b.f16Activations, b.fp8Activations, rfl⟩
  | cons format formats ih =>
    rw [List.foldl_cons]
    split_ifs
    · exact ih
    · exact ih
    · exact ih

lemma Read.setBandwidth (h : Read b clock) (hset : b.setBandwidth value = some c) :
    Read c clock := by
  unfold ProviderCapability.setBandwidth at hset
  obtain ⟨⟨peer, number⟩, -, hset⟩ := Option.bind_eq_some_iff.mp hset
  obtain ⟨kibPerS, -, hset⟩ := Option.bind_eq_some_iff.mp hset
  split_ifs at hset with hbad
  rw [not_or, UInt32.not_lt] at hbad
  split at hset
  · cases hset
  · rename_i n hn
    split_ifs at hset
    cases hset
    refine ⟨⟨h.modelCount, h.models, h.cachedCount, h.cached, h.speed, h.speedCount, ?_, ?_⟩,
      h.speeds⟩
    · rw [List.length_modify]
      exact h.linkCount
    · intro link hlink
      obtain ⟨i, hi, rfl⟩ := List.mem_iff_getElem.mp hlink
      rw [List.getElem_modify]
      split_ifs
      · have hold := h.links _ (List.getElem_mem (by simpa using hi))
        exact ⟨hold.peer, hold.rtt, hbad.2⟩
      · exact h.links _ (List.getElem_mem _)

/-- Every line that is taken keeps the bounds. -/
lemma Read.set {key : List Char} (h : Read b clock)
    (hset : (setters clock).setKnown b key value = some c) :
    Read c clock := by
  obtain rfl | ⟨setter, hmem, hset⟩ := Setters.setKnown_cases hset
  · exact h
  simp only [setters, List.mem_cons, List.not_mem_nil, or_false] at hmem
  rcases hmem with rfl | rfl | rfl | rfl | rfl | rfl | rfl | rfl | rfl | rfl | rfl | rfl | rfl |
    rfl | rfl |
    rfl | rfl | rfl
  all_goals dsimp only at hset
  · cases hset
    exact h.of_eq rfl rfl rfl rfl rfl
  · cases hset
    exact h.of_eq rfl rfl rfl rfl rfl
  · obtain ⟨n, -, rfl⟩ := Option.map_eq_some_iff.mp hset
    exact h.of_eq rfl rfl rfl rfl rfl
  · cases hset
    exact h.of_eq rfl rfl rfl rfl rfl
  · cases hset
    exact h.of_eq rfl rfl rfl rfl rfl
  · cases hset
    exact h.of_eq rfl rfl rfl rfl rfl
  · obtain ⟨n, -, rfl⟩ := Option.map_eq_some_iff.mp hset
    exact h.of_eq rfl rfl rfl rfl rfl
  · obtain ⟨n, -, rfl⟩ := Option.map_eq_some_iff.mp hset
    exact h.of_eq rfl rfl rfl rfl rfl
  · -- a model
    split_ifs at hset with hbad
    rw [not_or, Bool.not_eq_true, Bool.not_eq_false'] at hbad
    cases hset
    exact ⟨{ h.toCounted with
      modelCount := length_concat_le hbad.2
      models := forall_mem_concat h.models hbad.1 }, h.speeds⟩
  · -- a range
    split_ifs at hset with hfull
    obtain ⟨range, hrange, rfl⟩ := Option.map_eq_some_iff.mp hset
    exact ⟨{ h.toCounted with
      cachedCount := length_concat_le hfull
      cached := forall_mem_concat h.cached (readCached_valid hrange) }, h.speeds⟩
  · -- the speed of all configurations
    obtain ⟨n, hn, rfl⟩ := Option.map_eq_some_iff.mp hset
    obtain ⟨hnumber, hle⟩ := Option.filter_eq_some_iff.mp hn
    refine ⟨{ h.toCounted with speed := ?_ }, h.speeds⟩
    rw [UInt64.toNat_ofNat', Nat.mod_eq_of_lt (lt_of_fromDecimal hnumber)]
    exact of_decide_eq_true hle
  · -- a speed of one configuration
    split_ifs at hset with hfull
    obtain ⟨record, hrecord, rfl⟩ := Option.map_eq_some_iff.mp hset
    refine ⟨{ h.toCounted with speedCount := length_concat_le hfull }, fun n other hother => ?_⟩
    rw [List.getElem?_append] at hother
    split_ifs at hother with hn
    · exact h.speeds n other hother
    · rw [List.getElem?_singleton] at hother
      split_ifs at hother with hlast
      obtain rfl := Option.some.inj hother
      obtain rfl : n = b.speeds.length := by omega
      exact parseSpeedText_readAt hrecord
  · obtain ⟨n, -, rfl⟩ := Option.map_eq_some_iff.mp hset
    exact h.of_eq rfl rfl rfl rfl rfl
  · obtain ⟨n, -, rfl⟩ := Option.map_eq_some_iff.mp hset
    exact h.of_eq rfl rfl rfl rfl rfl
  · -- a link
    split_ifs at hset with hfull
    obtain ⟨link, hlink, rfl⟩ := Option.map_eq_some_iff.mp hset
    exact ⟨{ h.toCounted with
      linkCount := length_concat_le hfull
      links := forall_mem_concat h.links (readLink_valid hlink).1 }, h.speeds⟩
  · exact h.setBandwidth hset
  · cases hset
    exact h.of_eq rfl rfl rfl rfl rfl
  · cases hset
    obtain ⟨f16, fp8, hactivations⟩ := setActivations_spec (b := b) value
    rw [hactivations]
    exact h.of_eq rfl rfl rfl rfl rfl

end ProviderCapability

/-! ### The round trip -/

/-- What the greeting promises in both directions. -/
structure RoundTrip (D : Type) [Rounding D] : Prop where
  /-- What is sent within the bounds is read, whenever it is read. -/
  sent : ∀ (c : ProviderCapability D) (now : Int) (clock : Nat → Int), c.Sendable now →
    parseAvailable (availableMessage c now) clock = some (c.sent now clock)
  /-- What is read is within the bounds. -/
  read : ∀ (text : List Char) (clock : Nat → Int) (c : ProviderCapability D),
    parseAvailable text clock = some c → text.length ≤ maxGreetingBytes ∧ c.Read clock ∧ c.valid

theorem roundTrip (D : Type) [Rounding D] : RoundTrip D where
  sent c now clock h := ProviderCapability.parseAvailable_availableMessage h
  read text clock c h := by
    unfold parseAvailable at h
    split_ifs at h with hsize
    obtain ⟨hread, hvalid⟩ := Option.filter_eq_some_iff.mp h
    refine ⟨Nat.not_lt.mp hsize, ?_, hvalid⟩
    exact readFields_invariant (I := fun c => c.Read clock) ProviderCapability.read_nothing
      (fun a key value b _ ha hset => ha.set hset) hread

/-- A worker that says it has sessions open and not since when it is idle. -/
def openWithoutIdle : ProviderCapability Nat where
  id := "worker".toList
  gpu := "gpu".toList
  offeredVramMib := 24576
  openSessions := 3

/-- Its sessions are not sent, so it is read as another. -/
theorem openSessions_not_sent :
    ¬ ∀ c : ProviderCapability Nat, c.speeds = [] → c.Sendable 0 →
      parseAvailable (availableMessage c 0) (fun _ => 0) = some c := by
  intro h
  have hsendable : openWithoutIdle.Sendable 0 := by
    constructor
    · have hread : openWithoutIdle.Read fun _ => 0 :=
        ProviderCapability.read_nothing.of_eq rfl rfl rfl rfl rfl
      exact hread.toCounted
    · decide
    · decide
    · decide
    · exact fun record h => absurd h List.not_mem_nil
    · decide +kernel
  have hread := (h openWithoutIdle rfl hsendable).symm.trans ((roundTrip Nat).sent _ 0 _ hsendable)
  exact absurd (congrArg ProviderCapability.openSessions (Option.some.inj hread)) (by decide)

end ProviderOwned.Greeting
