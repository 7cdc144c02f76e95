import Mathlib.Data.UInt
import Mathlib.Tactic.Common

/-!
# What a worker says of itself

The capability in a worker's greeting (`formation.hpp`) with the speeds it has measured
(`measurement.hpp`). A speed belongs to a configuration: model, phase, and the size of context and
of load, both rounded up to a bucket.
-/

namespace ProviderOwned.Greeting

/-! ### Measured speeds -/

inductive Phase
  | decode | prefill
  deriving DecidableEq, Repr

def maxSpeedRecords : Nat := 64

def speedMaxAgeS : Nat := 7 * 24 * 3600

def confidentSamples : UInt32 := 32

def maxUsPerGib : Nat := 10 ^ 9

/-- The loop of the two buckets: doubled until it reaches `value` or the `largest`. -/
def bucket (largest value : UInt32) : Nat → UInt32 → UInt32
  | 0, size => size
  | fuel + 1, size =>
    if size < value ∧ size < largest then bucket largest value fuel (size * 2) else size

/-- `context_bucket`: eleven doublings reach the largest. -/
def contextBucket (context : UInt32) : UInt32 := bucket (2 ^ 20) context 11 512

/-- `sessions_bucket`: six doublings reach the largest. -/
def sessionsBucket (sessions : UInt32) : UInt32 := bucket 64 sessions 6 1

structure SpeedKey where
  modelSha256 : List Char
  phase : Phase
  context : UInt32
  sessions : UInt32
  deriving DecidableEq, Repr

structure SpeedRecord (D : Type) where
  key : SpeedKey
  usPerGib : D
  samples : UInt32
  updatedUnixS : Int

structure SpeedEstimate (D : Type) where
  usPerGib : D
  measured : Bool

variable {D : Type}

/-- Whether a record can stand in for the configuration that is planned. -/
def SpeedRecord.comparable (record : SpeedRecord D) (wanted : SpeedKey) (now : Int) : Bool :=
  record.key.modelSha256 = wanted.modelSha256 && record.key.phase = wanted.phase &&
    wanted.context ≤ record.key.context && wanted.sessions ≤ record.key.sessions &&
    confidentSamples ≤ record.samples && now - record.updatedUnixS ≤ speedMaxAgeS

/-- Whether one record was measured under a lighter configuration than another. -/
def SpeedRecord.lighter (record best : SpeedRecord D) : Bool :=
  record.key.context < best.key.context ||
    (record.key.context = best.key.context && record.key.sessions < best.key.sessions)

def estimateSpeed (records : List (SpeedRecord D)) (wanted : SpeedKey) (now : Int) (fallback : D) :
    SpeedEstimate D :=
  let best := (records.filter (·.comparable wanted now)).foldl (fun best record =>
    if best.all record.lighter then some record else best) none
  best.elim ⟨fallback, false⟩ fun record => ⟨record.usPerGib, true⟩

/-! ### The capability -/

structure CachedRange where
  modelSha256 : List Char
  first : Int
  last : Int
  deriving DecidableEq, Repr

structure PeerLink where
  peer : List Char
  rttMs : UInt32
  relayed : Bool
  kibPerS : UInt32
  deriving DecidableEq, Repr

structure ProviderCapability (D : Type) where
  id : List Char := []
  gpu : List Char := []
  offeredVramMib : UInt64 := 0
  ringEndpoint : List Char := []
  state : List Char := []
  runtimeAbi : List Char := []
  maxContext : UInt32 := 0
  maxSessions : UInt32 := 0
  models : List (List Char) := []
  cached : List CachedRange := []
  speedUsPerGib : UInt64 := 0
  speeds : List (SpeedRecord D) := []
  idleS : Option UInt32 := none
  openSessions : UInt32 := 0
  links : List PeerLink := []
  replicaOwner : Bool := false
  f16Activations : Bool := false
  fp8Activations : Bool := false

end ProviderOwned.Greeting
