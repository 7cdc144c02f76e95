import ProviderOwned.Sidecar.Limits

/-!
# The sidecar's answers to its client

What `startCandidateAPI` and `answerReplicas` write to the client on this machine, made of the
answers of remote peers. A peer whose answer fails the checks is left out by itself. The answers of
one model come in the order in which the sidecar lists them.
-/

namespace ProviderOwned.Sidecar

open Text

/-- How a peer is reached: `link.path`. -/
inductive Path
  | direct | relay
  deriving DecidableEq, Repr

def Path.text : Path → List Char
  | .direct => "direct".toList
  | .relay => "relay".toList

/-- `link`: the round trip in nanoseconds, a `time.Duration`. -/
structure Link where
  rtt : Nat
  path : Path
  rtt_lt : rtt < 2 ^ 63
  deriving DecidableEq, Repr

/-- `time.Duration.Milliseconds`. -/
def Link.milliseconds (l : Link) : Nat := l.rtt / 1000000

structure PeerId where
  text : List Char
  valid : validPeerId text
  deriving DecidableEq, Repr

/-! ### Candidates -/

/-- What comes of asking one peer for its capability: its answer and the forward to it, where there
are any. -/
structure CandidateAnswer where
  id : PeerId
  capability : Option Capability
  control : Option Loopback
  reach : Link
  deriving DecidableEq, Repr

structure Candidate where
  id : PeerId
  control : Loopback
  capability : Capability
  reach : Link
  bounded : capability.Bounded
  deriving DecidableEq, Repr

/-- The query of `findCandidates`, for one peer. -/
def keepCandidate (includeBusy : Bool) (a : CandidateAnswer) : Option Candidate :=
  match a.capability with
  | none => none
  | some c =>
    match h : validCapability (some c) with
    | .error _ => none
    | .ok () =>
      let busy := c.state = .reserved ∨ c.state = .serving
      if (c.state ≠ .available ∧ ¬ (includeBusy ∧ busy)) ∨ c.models = [] then none
      else a.control.map fun control => ⟨a.id, control, c, a.reach, bounded_of_validCapability h⟩

/-- A candidate beside those already found: a peer is listed once, with its best measurement. -/
def addCandidate (found : List Candidate) (c : Candidate) : List Candidate :=
  if found.any (·.id = c.id) then
    found.map fun f => if f.id = c.id ∧ c.reach.rtt < f.reach.rtt then { f with reach := c.reach }
      else f
  else found ++ [c]

/-- The candidates of a reply, from the answers for each model asked about. -/
def candidatesFound (includeBusy : Bool) (answers : List (List CandidateAnswer)) : List Candidate :=
  (answers.flatMap (List.filterMap (keepCandidate includeBusy))).foldl addCandidate []

/-- The runtime in a candidate's line. -/
def Candidate.abi (c : Candidate) : List Char :=
  if c.capability.runtimeAbi.isEmpty || c.capability.runtimeAbi.any
    (fun b => b = ' ' || b = '\r' || b = '\n')
  then ['-'] else c.capability.runtimeAbi

def candidateLine (includeBusy : Bool) (c : Candidate) : List (List Char) :=
  ["CANDIDATE".toList, c.id.text, c.control.text, decimal c.capability.offeredMemoryMib.toNat,
    c.abi, decimal c.reach.milliseconds, c.reach.path.text] ++
    if includeBusy then
      [if c.capability.state = .available then "available".toList else "busy".toList]
    else []

/-- Where a ring may return to this node: the `RETURN` line. -/
inductive Return
  | none
  | returnInbound (a : Loopback)
  | ringInbound (a : Loopback)
  deriving DecidableEq, Repr

def returnTargetPrefix : List Char := "/dan-return".toList

def Return.lines : Return → List (List (List Char))
  | .none => []
  | .returnInbound a => [["RETURN".toList, a.text, returnTargetPrefix]]
  | .ringInbound a => [["RETURN".toList, a.text]]

def written (lines : List (List (List Char))) : List Char :=
  terminated '\n' (lines.map (joined ' '))

/-- The answer to `DAN-CANDIDATES/1`. -/
def candidateReply (self : PeerId) (back : Return) (includeBusy : Bool)
    (answers : List (List CandidateAnswer)) : List Char :=
  written (["SELF".toList, self.text] :: back.lines ++
    (candidatesFound includeBusy answers).map (candidateLine includeBusy) ++ [["END".toList]])

/-! ### Replicas -/

/-- What comes of asking one replica owner: its status, whether it is fresh, and the forward. -/
structure ReplicaAnswer where
  id : PeerId
  status : Option ReplicaStatus
  fresh : Bool
  control : Option Loopback
  reach : Link
  deriving DecidableEq, Repr

structure FoundReplica where
  owner : PeerId
  control : Loopback
  status : ReplicaStatus
  reach : Link
  bounded : status.Bounded
  deriving DecidableEq, Repr

/-- The query of `findReplicas`, for one peer and a model. -/
def keepReplica (model : List Char) (a : ReplicaAnswer) : Option FoundReplica :=
  match a.status with
  | none => none
  | some s =>
    if s.state ≠ "ready".toList ∨ s.owner ≠ a.id.text ∨ lowercase s.modelSha256 ≠ lowercase model ∨
        s.replicaId.length ≠ 32 ∨ ¬ a.fresh then none
    else match h : validReplicaStatus (some s) with
      | .error _ => none
      | .ok () =>
        a.control.map fun control => ⟨a.id, control, s, a.reach, bounded_of_validReplicaStatus h⟩

/-- The replicas of a reply, from the answers for each model asked about. -/
def replicasFound (answers : List (List Char × List ReplicaAnswer)) : List FoundReplica :=
  answers.flatMap fun (model, answers) => answers.filterMap (keepReplica model)

def hexOrDash (value : List Char) : List Char :=
  if isHex (lowercase value) 32 then lowercase value else ['-']

def ReplicaStatus.free (s : ReplicaStatus) : UInt32 :=
  if s.sessionsInUse < s.sessionsMax then s.sessionsMax - s.sessionsInUse else 0

def replicaLine (r : FoundReplica) : List (List Char) :=
  ["REPLICA".toList, r.owner.text, r.control.text, decimal r.reach.milliseconds, r.reach.path.text,
    lowercase r.status.replicaId, lowercase r.status.modelSha256, decimal r.status.free.toNat,
    decimal r.status.sessionsMax.toNat, decimal r.status.context.toNat,
    decimal r.status.members.length, hexOrDash r.status.draftSha256,
    decimal r.status.msPerToken.toNat, decimal r.status.firstTokenMs.toNat]

/-- The answer to `DAN-REPLICAS/1`. -/
def replicaReply (self : PeerId) (answers : List (List Char × List ReplicaAnswer)) : List Char :=
  written (["SELF".toList, self.text] :: (replicasFound answers).map replicaLine ++
    [["END".toList]])

end ProviderOwned.Sidecar
