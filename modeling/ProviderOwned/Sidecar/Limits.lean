import Mathlib.Data.UInt
import ProviderOwned.Wire.Address

/-!
# What the sidecar takes from a peer

`limits.go`: the bounds on a worker's capability and on a replica owner's status. Both come from
another machine, so that any value of the message types can arrive. Names are as many bytes as they
have characters.
-/

namespace ProviderOwned.Sidecar

open Text

/-- `capabilities.Range`. -/
structure Range where
  first : UInt32
  last : UInt32
  deriving DecidableEq, Repr

/-- `capabilities.ModelAvailability`. -/
structure ModelAvailability where
  sha256 : List Char
  layers : UInt32
  cached : List (Option Range)
  deriving DecidableEq, Repr

/-- `capabilities.State`. -/
inductive State
  | offline | available | reserved | loading | serving
  deriving DecidableEq, Repr

/-- `capabilities.Capability`. -/
structure Capability where
  protocolVersion : UInt32
  workerId : List Char
  runtimeAbi : List Char
  dataProtocols : List (List Char)
  device : List Char
  totalMemoryMib : UInt64
  offeredMemoryMib : UInt64
  maxContext : UInt32
  maxSessions : UInt32
  models : List (Option ModelAvailability)
  state : State
  deriving DecidableEq, Repr

/-- A member of `replicaStatus`. -/
structure Member where
  first : UInt32
  last : UInt32
  deriving DecidableEq, Repr

structure ReplicaStatus where
  state : List Char
  owner : List Char
  replicaId : List Char
  modelSha256 : List Char
  draftSha256 : List Char
  runtimeAbi : List Char
  context : UInt32
  sessionsMax : UInt32
  sessionsInUse : UInt32
  msPerToken : UInt32
  firstTokenMs : UInt32
  members : List Member
  deriving DecidableEq, Repr

def maxNameBytes : Nat := 128

def maxOfferedMib : UInt64 := 16 * 2 ^ 20

def maxPeerContext : UInt32 := 2 ^ 20

def maxPeerSessions : UInt32 := 256

def maxPeerModels : Nat := 64

def maxPeerLayers : UInt32 := 4096

def maxCachedRanges : Nat := 64

def maxDataProtocols : Nat := 8

def maxReplicaMembers : Nat := 64

def maxReplicaLatencyMs : UInt32 := 10000000

/-- `isHex`: what `hex.DecodeString` decodes to that many bytes. -/
def isHex (value : List Char) (bytes : Nat) : Bool := Address.hexString value (2 * bytes)

/-- The check of one cached range of a model with so many layers. -/
def validCached (layers : UInt32) : Option Range → Bool
  | none => false
  | some cached => !(cached.last ≤ cached.first || (layers ≠ 0 && layers < cached.last))

def validModel : Option ModelAvailability → Except String Unit
  | none => .error "invalid model entry"
  | some model =>
    if !isHex model.sha256 32 || maxPeerLayers < model.layers || maxCachedRanges <
      model.cached.length
    then .error "invalid model entry"
    else if model.cached.all (validCached model.layers) then .ok ()
    else .error "invalid cached range"

def validCapability : Option Capability → Except String Unit
  | none => .error "no capability"
  | some c =>
    if c.protocolVersion ≠ 1 then .error ("protocol version " ++ toString c.protocolVersion)
    else if maxNameBytes < c.workerId.length ∨ maxNameBytes < c.device.length ∨
        maxNameBytes < c.runtimeAbi.length then .error "name too long"
    else if maxDataProtocols < c.dataProtocols.length then .error "too many data protocols"
    else if maxOfferedMib < c.offeredMemoryMib ∨ maxOfferedMib < c.totalMemoryMib then
      .error ("implausible memory " ++ toString c.offeredMemoryMib ++ " MiB")
    else if maxPeerContext < c.maxContext ∨ maxPeerSessions < c.maxSessions then
      .error ("implausible limits: context " ++ toString c.maxContext ++ ", sessions " ++
        toString c.maxSessions)
    else if maxPeerModels < c.models.length then
      .error ("too many models (" ++ toString c.models.length ++ ")")
    else c.models.forM validModel

def validReplicaStatus : Option ReplicaStatus → Except String Unit
  | none => .error "no status"
  | some s =>
    if !isHex s.replicaId 16 || !isHex s.modelSha256 32 then .error "invalid replica or model id"
    else if s.draftSha256 ≠ [] ∧ !isHex s.draftSha256 32 then .error "invalid draft id"
    else if maxNameBytes < s.runtimeAbi.length then .error "name too long"
    else if s.sessionsMax = 0 ∨ maxPeerSessions < s.sessionsMax ∨
      s.sessionsMax < s.sessionsInUse then
      .error ("implausible sessions " ++ toString s.sessionsInUse ++ "/" ++ toString s.sessionsMax)
    else if s.context = 0 ∨ maxPeerContext < s.context then
      .error ("implausible context " ++ toString s.context)
    else if s.members = [] ∨ maxReplicaMembers < s.members.length then
      .error ("implausible member count " ++ toString s.members.length)
    else if maxReplicaLatencyMs < s.msPerToken ∨ maxReplicaLatencyMs < s.firstTokenMs then
      .error "implausible latency"
    else if s.members.all fun m => !(m.last ≤ m.first || maxPeerLayers < m.last) then .ok ()
    else .error "invalid member range"

/-! ### What has been checked -/

/-- What a candidate's line says has been checked. -/
structure Capability.Bounded (c : Capability) : Prop where
  abi : c.runtimeAbi.length ≤ maxNameBytes
  offered : c.offeredMemoryMib ≤ maxOfferedMib

lemma bounded_of_validCapability {c : Capability} (h : validCapability (some c) = .ok ()) :
    c.Bounded := by
  rw [validCapability] at h
  split at h
  · cases h
  · split at h
    · cases h
    · rename_i hnames
      split at h
      · cases h
      · split at h
        · cases h
        · rename_i hmemory
          push Not at hnames hmemory
          exact ⟨hnames.2.2, UInt64.not_lt.mp hmemory.1⟩

/-- What a replica's line says has been checked. -/
structure ReplicaStatus.Bounded (s : ReplicaStatus) : Prop where
  replicaId : Address.hexString s.replicaId 32
  model : Address.hexString s.modelSha256 64
  draft : s.draftSha256 = [] ∨ Address.hexString s.draftSha256 64
  sessions_pos : s.sessionsMax ≠ 0
  sessions_le : s.sessionsMax ≤ maxPeerSessions
  inUse : s.sessionsInUse ≤ s.sessionsMax
  context_pos : s.context ≠ 0
  context_le : s.context ≤ maxPeerContext
  members_ne : s.members ≠ []
  members_le : s.members.length ≤ maxReplicaMembers
  token : s.msPerToken ≤ maxReplicaLatencyMs
  firstToken : s.firstTokenMs ≤ maxReplicaLatencyMs

lemma bounded_of_validReplicaStatus {s : ReplicaStatus}
    (h : validReplicaStatus (some s) = .ok ()) : s.Bounded := by
  rw [validReplicaStatus] at h
  split_ifs at h with hids hdraft hname hsessions hcontext hmembers hlatency hranges
  rw [Bool.or_eq_true, not_or, Bool.not_eq_true', Bool.not_eq_true', Bool.not_eq_false,
    Bool.not_eq_false] at hids
  push Not at hsessions hcontext hmembers hlatency
  have hdraft' : s.draftSha256 = [] ∨ Address.hexString s.draftSha256 64 := by
    by_contra hbad
    rw [not_or] at hbad
    have hlength : isHex s.draftSha256 32 = false := eq_false_of_ne_true hbad.2
    exact hdraft ⟨hbad.1, by rw [hlength]; rfl⟩
  exact {
    replicaId := hids.1
    model := hids.2
    draft := hdraft'
    sessions_pos := hsessions.1
    sessions_le := UInt32.not_lt.mp hsessions.2.1
    inUse := UInt32.not_lt.mp hsessions.2.2
    context_pos := hcontext.1
    context_le := UInt32.not_lt.mp hcontext.2
    members_ne := hmembers.1
    members_le := hmembers.2
    token := UInt32.not_lt.mp hlatency.1
    firstToken := UInt32.not_lt.mp hlatency.2 }

end ProviderOwned.Sidecar
