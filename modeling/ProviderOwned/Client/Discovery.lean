import ProviderOwned.Lib.Segments
import ProviderOwned.Sidecar.Replies

/-!
# Discovering workers and replicas

`discover_candidates` and `discover_replicas` of `placement.cpp`: the client asks the sidecar on its
own machine and reads the answer line by line. One line it does not accept ends the whole discovery,
so the sidecar may let nothing through from a peer that the client would not take.
-/

namespace ProviderOwned

open Text Segments

def maxGreetingVramMib : Nat := 16 * 2 ^ 20

def maxGreetingContext : Nat := 2 ^ 20

def maxGreetingSessions : Nat := 256

/-- The size from which on no more of an answer is read. -/
def maxAnswer : Nat := 1024 * 1024

/-- The loop that receives an answer, until the peer closes or the text is `done`. Each receive
takes 4096 bytes at most, so the fuel is the number of bytes. -/
def receive (done : List Char → Bool) : Nat → List Char → List (List Char) → List Char
  | 0, text, _ => text
  | fuel + 1, text, segments =>
    if maxAnswer ≤ text.length then text
    else match read 4096 segments with
      | ([], _) => text
      | (chunk, rest) =>
        if done (text ++ chunk) then text ++ chunk else receive done fuel (text ++ chunk) rest

/-! ### Candidates -/

structure PlacementCandidate where
  control : List Char
  peerId : List Char
  rttMs : Nat := 0
  relayed : Bool := false
  offeredMib : Nat := 0
  busy : Bool := false
  deriving DecidableEq, Repr

structure Discovery where
  selfPeer : List Char := []
  returnListen : List Char := []
  returnPrefix : List Char := []
  candidates : List PlacementCandidate := []
  deriving DecidableEq, Repr

def loopbackEndpoint (address : List Char) : Bool :=
  validPrivateEndpoint address && "127.".toList.isPrefixOf address

/-- The candidate of a line with these fields after `CANDIDATE`. -/
def candidateOf (fields : List (List Char)) : PlacementCandidate where
  peerId := fields[0]?.getD []
  control := fields[1]?.getD []
  offeredMib := fields[2]?.elim 0 (leadingNumber (2 ^ 64))
  rttMs := if 6 ≤ fields.length then fields[4]?.elim 0 (leadingNumber (2 ^ 64)) % 2 ^ 32 else 0
  relayed := fields[5]?.any (· = "relay".toList)
  busy := fields[6]?.any (· = "busy".toList)

/-- One line of the answer: the discovery with it, and whether it is complete. -/
def readLine (d : Discovery) (line : List Char) : Except String (Discovery × Bool) :=
  match pieces ' ' line with
  | [] => .ok (d, false)
  | key :: fields =>
    if key = "ERR".toList then
      .error ("candidate API: " ++ String.ofList ((cut ' ' line).elim line Prod.snd))
    else if key = "SELF".toList ∧ fields.length = 1 ∧ fields[0]?.any validPeerId then
      .ok ({ d with selfPeer := fields[0]?.getD [] }, false)
    else if key = "RETURN".toList ∧
        (fields.length = 1 ∨ (fields.length = 2 ∧ fields[1]? = some "/dan-return".toList)) ∧
        fields[0]?.any validPrivateEndpoint then
      .ok ({ d with
        returnListen := fields[0]?.getD []
        returnPrefix := fields[1]?.getD d.returnPrefix }, false)
    else if key = "CANDIDATE".toList ∧ 2 ≤ fields.length ∧ fields[0]?.any validPeerId ∧
        fields[1]?.any loopbackEndpoint then
      if maxGreetingVramMib < (candidateOf fields).offeredMib ∨ 512 ≤ d.candidates.length then
        .error "candidate API sent an implausible candidate list"
      else .ok ({ d with candidates := d.candidates ++ [candidateOf fields] }, false)
    else if key = "END".toList then .ok (d, true)
    else .error "candidate API sent an invalid line"

/-- The loop over the lines, to the one that completes the answer. -/
def readLines : List (List Char) → Discovery → Except String (Discovery × Bool)
  | [], d => .ok (d, false)
  | line :: lines, d =>
    match readLine d line with
    | .error error => .error error
    | .ok (d, true) => .ok (d, true)
    | .ok (d, false) => readLines lines d

/-- What `discover_candidates` makes of an answer. -/
def readCandidates (text : List Char) : Except String Discovery :=
  match readLines (closed '\n' text) {} with
  | .error error => .error error
  | .ok (d, complete) =>
    if !complete || d.selfPeer.isEmpty then .error "candidate API reply was incomplete" else .ok d

/-- Whether `discover_candidates` receives no more. -/
def candidatesDone (text : List Char) : Bool :=
  "END\n".toList.isSuffixOf text || "ERR ".toList.isPrefixOf text

/-- `discover_candidates`, from the answer on. -/
def discoverCandidates (segments : List (List Char)) : Except String Discovery :=
  readCandidates (receive candidatesDone maxAnswer [] segments)

/-! ### Replicas -/

structure ReplicaCandidate where
  owner : List Char
  control : List Char
  rttMs : Nat
  relayed : Bool
  replicaId : List Char
  modelSha256 : List Char
  draftSha256 : List Char
  sessionsFree : Nat
  sessionsMax : Nat
  context : Nat
  stages : Nat
  msPerToken : Nat
  firstTokenMs : Nat
  deriving DecidableEq, Repr

def toU32 (text : List Char) : Nat := leadingNumber (2 ^ 64) text % 2 ^ 32

/-- The fields of the lines of an answer before `END`: `api_request`. -/
def apiLines (text : List Char) : Except String (List (List (List Char))) :=
  if "ERR ".toList.isPrefixOf text then
    .error ("sidecar: " ++ String.ofList ((text.drop 4).takeWhile (· ≠ '\n')))
  else if !"END\n".toList.isSuffixOf text then .error "sidecar reply was incomplete"
  else .ok ((((closed '\n' text).takeWhile (· ≠ "END".toList)).map (pieces ' ')).filter (· ≠ []))

/-- Whether the fields of a line are those of a replica. -/
def replicaFields (fields : List (List Char)) : Bool :=
  fields[0]? = some "REPLICA".toList && 12 ≤ fields.length && fields.length ≤ 14 &&
    fields[1]?.any validPeerId && fields[2]?.any loopbackEndpoint &&
    (fields[4]? = some "direct".toList || fields[4]? = some "relay".toList) &&
    fields[5]?.any (Address.hexString · 32) && fields[6]?.any (Address.hexString · 64) &&
    (fields[11]? = some ['-'] || fields[11]?.any (Address.hexString · 64))

def replicaOf (fields : List (List Char)) : ReplicaCandidate where
  owner := fields[1]?.getD []
  control := fields[2]?.getD []
  rttMs := fields[3]?.elim 0 toU32
  relayed := fields[4]? = some "relay".toList
  replicaId := fields[5]?.getD []
  modelSha256 := lowercase (fields[6]?.getD [])
  draftSha256 := if fields[11]? = some ['-'] then [] else lowercase (fields[11]?.getD [])
  sessionsFree := fields[7]?.elim 0 toU32
  sessionsMax := fields[8]?.elim 0 toU32
  context := fields[9]?.elim 0 toU32
  stages := fields[10]?.elim 0 toU32
  msPerToken := fields[12]?.elim 0 toU32
  firstTokenMs := fields[13]?.elim 0 toU32

/-- Whether the client can take the values of a replica's line. -/
def ReplicaCandidate.credible (r : ReplicaCandidate) : Bool :=
  r.sessionsMax ≠ 0 && r.sessionsMax ≤ maxGreetingSessions && r.sessionsFree ≤ r.sessionsMax &&
    r.context ≠ 0 && r.context ≤ maxGreetingContext && r.stages ≠ 0 && r.stages ≤ 64 &&
    r.msPerToken ≤ 10000000 && r.firstTokenMs ≤ 10000000

/-- The loop of `discover_replicas`. -/
def readReplicas : List (List (List Char)) → List ReplicaCandidate →
    Except String (List ReplicaCandidate)
  | [], replicas => .ok replicas
  | fields :: lines, replicas =>
    if fields[0]? = some "SELF".toList then readReplicas lines replicas
    else if !replicaFields fields then .error "sidecar sent an invalid replica line"
    else if !(replicaOf fields).credible || 512 ≤ replicas.length then
      .error "sidecar sent an implausible replica line"
    else readReplicas lines (replicas ++ [replicaOf fields])

/-- Whether `api_request` receives no more. -/
def apiDone (text : List Char) : Bool :=
  "END\n".toList.isSuffixOf text || ("ERR ".toList.isPrefixOf text && ['\n'].isSuffixOf text)

/-- What `discover_replicas` makes of an answer. -/
def readReplicaAnswer (text : List Char) : Except String (List ReplicaCandidate) :=
  match apiLines text with
  | .error error => .error error
  | .ok lines => readReplicas lines []

/-- `discover_replicas`, from the answer on. -/
def discoverReplicas (segments : List (List Char)) : Except String (List ReplicaCandidate) :=
  readReplicaAnswer (receive apiDone maxAnswer [] segments)

/-! ### Lines -/

open Sidecar

/-- A field that is not empty, holds no separator and is no longer than a name. -/
structure PlainField (part : List Char) : Prop where
  ne_nil : part ≠ []
  no_space : ' ' ∉ part
  no_newline : '\n' ∉ part
  length_le : part.length ≤ maxNameBytes

instance (part : List Char) : Decidable (PlainField part) :=
  decidable_of_iff (part ≠ [] ∧ ' ' ∉ part ∧ '\n' ∉ part ∧ part.length ≤ maxNameBytes)
    ⟨fun ⟨h₁, h₂, h₃, h₄⟩ => ⟨h₁, h₂, h₃, h₄⟩, fun ⟨h₁, h₂, h₃, h₄⟩ => ⟨h₁, h₂, h₃, h₄⟩⟩

def Plain (line : List (List Char)) : Prop := ∀ part ∈ line, PlainField part

instance (line : List (List Char)) : Decidable (Plain line) :=
  inferInstanceAs (Decidable (∀ part ∈ line, PlainField part))

variable {line : List (List Char)} {lines : List (List (List Char))}

lemma plain_nil : Plain [] := fun _ hpart => absurd hpart List.not_mem_nil

lemma plain_cons {part : List Char} : Plain (part :: line) ↔ PlainField part ∧ Plain line :=
  List.forall_mem_cons

lemma Plain.pieces (h : Plain line) : Text.pieces ' ' (joined ' ' line) = line :=
  pieces_joined (fun part hpart => (h part hpart).no_space) fun part hpart => (h part hpart).ne_nil

lemma Plain.not_mem (h : Plain line) : '\n' ∉ joined ' ' line := by
  intro hmem
  rcases mem_joined hmem with hblank | ⟨part, hpart, hc⟩
  · exact absurd hblank (by decide)
  · exact (h part hpart).no_newline hc

/-- The lines that were written are read. -/
lemma closed_written (h : ∀ line ∈ lines, Plain line) :
    closed '\n' (written lines) = lines.map (joined ' ') := by
  apply closed_terminated
  intro text htext
  obtain ⟨line, hline, rfl⟩ := List.mem_map.mp htext
  exact (h line hline).not_mem

lemma plain_decimal {n : Nat} (h : n < 2 ^ 64) : PlainField (decimal n) where
  ne_nil := decimal_ne_nil n
  no_space := not_mem_decimal (by decide) n
  no_newline := not_mem_decimal (by decide) n
  length_le :=
    Nat.le_trans (length_decimal_le (by decide) (Nat.lt_trans h (by decide : 2 ^ 64 < 10 ^ 20)))
    (by decide)

lemma plain_uint32 (n : UInt32) : PlainField (decimal n.toNat) :=
  plain_decimal (Nat.lt_trans n.toNat_lt (by decide))

lemma plain_peer (p : PeerId) : PlainField p.text where
  ne_nil := ne_nil_of_validPeerId p.valid
  no_space := not_mem_of_validPeerId p.valid (by decide)
  no_newline := not_mem_of_validPeerId p.valid (by decide)
  length_le := Nat.le_trans (length_le_of_validPeerId p.valid) (by decide)

lemma plain_loopback (a : Loopback) : PlainField a.text where
  ne_nil := List.cons_ne_nil _ _
  no_space := a.not_mem_text (by decide)
  no_newline := a.not_mem_text (by decide)
  length_le := Nat.le_trans a.length_text_le (by decide)

lemma plain_path (p : Path) : PlainField p.text := by
  cases p <;> decide

lemma plain_hex {value : List Char} {length : Nat} (h : Address.hexString value (length + 1))
    (hlength : length < maxNameBytes) : PlainField value where
  ne_nil := by
    rintro rfl
    exact absurd h (by simp [Address.hexString])
  no_space := fun hc => absurd (mem_hexDigits h hc) (by decide)
  no_newline := fun hc => absurd (mem_hexDigits h hc) (by decide)
  length_le := by
    rw [Address.hexString, Bool.and_eq_true, decide_eq_true_eq] at h
    exact h.1 ▸ hlength

lemma plain_abi (c : Candidate) : PlainField c.abi := by
  rw [Candidate.abi]
  split
  · decide
  · rename_i h
    simp only [Bool.or_eq_true, not_or, List.isEmpty_iff, List.any_eq_true, not_exists, not_and,
      decide_eq_true_eq] at h
    exact ⟨h.1, fun hc => (h.2 ' ' hc).1.1 rfl, fun hc => (h.2 '\n' hc).2 rfl, c.bounded.abi⟩

lemma milliseconds_lt (l : Link) : l.milliseconds < 2 ^ 64 :=
  Nat.lt_of_le_of_lt (Nat.div_le_self _ _) (Nat.lt_trans l.rtt_lt (by decide))

lemma plain_candidateLine (includeBusy : Bool) (c : Candidate) :
    Plain (candidateLine includeBusy c) := by
  have hbusy : Plain (if includeBusy then
      [if c.capability.state = .available then "available".toList else "busy".toList] else []) := by
    cases includeBusy with
    | false => exact plain_nil
    | true =>
      rw [if_pos rfl]
      split
      · decide
      · decide
  simp only [candidateLine, List.cons_append, List.nil_append, plain_cons]
  exact ⟨by decide, plain_peer _, plain_loopback _, plain_decimal (UInt64.toNat_lt _), plain_abi _,
    plain_decimal (milliseconds_lt _), plain_path _, hbusy⟩

lemma hexOrDash_eq {value : List Char} (h : value = [] ∨ Address.hexString value 64) :
    hexOrDash value = if value = [] then ['-'] else lowercase value := by
  rcases h with rfl | h
  · rfl
  · have hne : value ≠ [] := (plain_hex h (by decide)).ne_nil
    have hhex : isHex (lowercase value) 32 := hexString_lowercase h
    rw [hexOrDash, if_pos hhex, if_neg hne]

lemma plain_draft (r : FoundReplica) : PlainField (hexOrDash r.status.draftSha256) := by
  rw [hexOrDash_eq r.bounded.draft]
  split
  · decide
  · rename_i hne
    exact plain_hex (hexString_lowercase (r.bounded.draft.resolve_left hne)) (by decide)

lemma plain_replicaLine (r : FoundReplica) : Plain (replicaLine r) := by
  have hmembers : r.status.members.length < 2 ^ 64 :=
    Nat.lt_of_le_of_lt r.bounded.members_le (by decide)
  simp only [replicaLine, plain_cons]
  exact ⟨by decide, plain_peer _, plain_loopback _, plain_decimal (milliseconds_lt _), plain_path _,
    plain_hex (hexString_lowercase r.bounded.replicaId) (by decide),
    plain_hex (hexString_lowercase r.bounded.model) (by decide), plain_uint32 _, plain_uint32 _,
    plain_uint32 _, plain_decimal hmembers, plain_draft r, plain_uint32 _, plain_uint32 _,
    plain_nil⟩

/-- The size of an answer with so few and so short lines. -/
lemma length_written {n : Nat} (h : ∀ line ∈ lines, Plain line ∧ line.length ≤ 14)
    (hn : lines.length ≤ n) : (written lines).length ≤ n * 1807 := by
  have hline : ∀ text ∈ lines.map (joined ' '), text.length ≤ 1806 := by
    intro text htext
    obtain ⟨line, hline, rfl⟩ := List.mem_map.mp htext
    obtain ⟨hplain, hfields⟩ := h line hline
    have hparts : ∀ part ∈ line, part.length ≤ 128 :=
      fun part hpart => (hplain part hpart).length_le
    have hjoined : (joined ' ' line).length ≤ _ := length_joined_le hparts
    omega
  have htotal : (written lines).length ≤ _ := length_terminated_le hline
  rw [List.length_map] at htotal
  exact Nat.le_trans htotal (Nat.mul_le_mul_right _ hn)

/-! ### Reading the candidates -/

/-- What the client is to know of a candidate. -/
def Sidecar.Candidate.seen (includeBusy : Bool) (c : Candidate) : PlacementCandidate where
  control := c.control.text
  peerId := c.id.text
  rttMs := c.reach.milliseconds % 2 ^ 32
  relayed := c.reach.path = .relay
  offeredMib := c.capability.offeredMemoryMib.toNat
  busy := includeBusy && c.capability.state ≠ .available

lemma loopbackEndpoint_text (a : Loopback) : loopbackEndpoint a.text := by
  rw [loopbackEndpoint, a.validPrivateEndpoint_text, a.isPrefixOf_text]
  rfl

lemma path_relay (p : Path) : decide (p.text = "relay".toList) = decide (p = .relay) := by
  cases p <;> decide

lemma state_busy (s : State) :
    decide ((if s = .available then "available".toList else "busy".toList) = "busy".toList) =
      decide (s ≠ .available) := by
  cases s <;> decide

lemma candidateOf_line (includeBusy : Bool) (c : Candidate) :
    candidateOf (candidateLine includeBusy c).tail = c.seen includeBusy := by
  have hoffered := leadingNumber_decimal c.capability.offeredMemoryMib.toNat_lt
  have hrtt := leadingNumber_decimal (milliseconds_lt c.reach)
  have hpath := path_relay c.reach.path
  cases includeBusy with
  | false =>
    have hline : (candidateLine false c).tail = [c.id.text, c.control.text,
      decimal c.capability.offeredMemoryMib.toNat, c.abi, decimal c.reach.milliseconds,
      c.reach.path.text] := rfl
    rw [hline, candidateOf, Candidate.seen]
    simp only [List.getElem?_cons_zero, List.getElem?_cons_succ, List.getElem?_nil,
      Option.getD_some, Option.elim_some, Option.any_some, Option.any_none, hoffered, hrtt, hpath]
    rfl
  | true =>
    have hline : (candidateLine true c).tail = [c.id.text, c.control.text,
      decimal c.capability.offeredMemoryMib.toNat, c.abi, decimal c.reach.milliseconds,
      c.reach.path.text,
      if c.capability.state = .available then "available".toList else "busy".toList] := rfl
    rw [hline, candidateOf, Candidate.seen]
    simp only [List.getElem?_cons_zero, List.getElem?_cons_succ, Option.getD_some, Option.elim_some,
      Option.any_some, hoffered, hrtt, hpath, state_busy, Bool.true_and]
    rfl

/-- The client takes the line of a candidate, while it has few enough. -/
lemma readLine_candidate (includeBusy : Bool) (c : Candidate) {d : Discovery}
    (hroom : d.candidates.length < 512) :
    readLine d (joined ' ' (candidateLine includeBusy c)) =
      .ok ({ d with candidates := d.candidates ++ [c.seen includeBusy] }, false) := by
  obtain ⟨more, hline⟩ : ∃ more, candidateLine includeBusy c =
      "CANDIDATE".toList :: c.id.text :: c.control.text :: more := ⟨_, rfl⟩
  have hseen := candidateOf_line includeBusy c
  have hplain := plain_candidateLine includeBusy c
  rw [hline] at hseen hplain ⊢
  rw [List.tail_cons] at hseen
  have hoffered : ¬ maxGreetingVramMib < (c.seen includeBusy).offeredMib :=
    Nat.not_lt.mpr c.bounded.offered
  rw [readLine, hplain.pieces]
  dsimp only
  rw [if_neg (by decide), if_neg fun h => absurd h.1 (by decide),
    if_neg fun h => absurd h.1 (by decide), List.getElem?_cons_zero, List.getElem?_cons_succ,
    List.getElem?_cons_zero, Option.any_some, Option.any_some, c.id.valid, loopbackEndpoint_text,
    if_pos ⟨rfl, Nat.le_add_left 2 _, rfl, rfl⟩, hseen,
    if_neg (not_or.mpr ⟨hoffered, Nat.not_le.mpr hroom⟩)]

lemma readLines_candidates (includeBusy : Bool) (found : List Candidate) {d : Discovery}
    (hroom : d.candidates.length + found.length ≤ 512) (rest : List (List Char)) :
    readLines ((found.map (candidateLine includeBusy)).map (joined ' ') ++ rest) d =
      readLines rest { d with
        candidates := d.candidates ++ found.map (Candidate.seen includeBusy) } := by
  induction found generalizing d with
  | nil => rw [List.map_nil, List.map_nil, List.map_nil, List.nil_append, List.append_nil]
  | cons c found ih =>
    rw [List.length_cons] at hroom
    have hline := readLine_candidate includeBusy c (d := d) (by omega)
    rw [List.map_cons, List.map_cons, List.cons_append, readLines, hline]
    dsimp only
    rw [ih (by rw [List.length_append, List.length_singleton]; omega), List.map_cons,
      List.append_assoc]
    rfl

/-- The discovery with the `RETURN` line in it. -/
def Sidecar.Return.noted (back : Return) (d : Discovery) : Discovery :=
  match back with
  | .none => d
  | .returnInbound a => { d with returnListen := a.text, returnPrefix := returnTargetPrefix }
  | .ringInbound a => { d with returnListen := a.text }

lemma plain_returnLines (back : Return) : ∀ line ∈ back.lines, Plain line := by
  cases back with
  | none => exact fun line hline => absurd hline List.not_mem_nil
  | returnInbound a =>
    rw [Return.lines, List.forall_mem_singleton, plain_cons, plain_cons]
    exact ⟨by decide, plain_loopback a, by decide⟩
  | ringInbound a =>
    rw [Return.lines, List.forall_mem_singleton, plain_cons, plain_cons]
    exact ⟨by decide, plain_loopback a, by decide⟩

lemma readLines_return (back : Return) (d : Discovery) (rest : List (List Char)) :
    readLines (back.lines.map (joined ' ') ++ rest) d = readLines rest (back.noted d) := by
  have hplain := plain_returnLines back
  cases back with
  | none => rfl
  | returnInbound a =>
    rw [Return.lines, List.forall_mem_singleton] at hplain
    rw [Return.lines, List.map_singleton, List.singleton_append, readLines, readLine, hplain.pieces]
    dsimp only
    rw [if_neg (by decide), if_neg fun h => absurd h.1 (by decide), List.getElem?_cons_zero,
      Option.any_some, a.validPrivateEndpoint_text, if_pos ⟨rfl, .inr ⟨rfl, rfl⟩, rfl⟩]
    rfl
  | ringInbound a =>
    rw [Return.lines, List.forall_mem_singleton] at hplain
    rw [Return.lines, List.map_singleton, List.singleton_append, readLines, readLine, hplain.pieces]
    dsimp only
    rw [if_neg (by decide), if_neg fun h => absurd h.1 (by decide), List.getElem?_cons_zero,
      Option.any_some, a.validPrivateEndpoint_text, if_pos ⟨rfl, .inl rfl, rfl⟩]
    rfl

lemma plain_self (self : PeerId) : Plain ["SELF".toList, self.text] := by
  rw [plain_cons, plain_cons]
  exact ⟨by decide, plain_peer self, by decide⟩

lemma readLine_self (self : PeerId) (d : Discovery) :
    readLine d (joined ' ' ["SELF".toList, self.text]) =
      .ok ({ d with selfPeer := self.text }, false) := by
  rw [readLine, (plain_self self).pieces]
  dsimp only
  rw [if_neg (by decide), List.getElem?_cons_zero, Option.any_some, self.valid,
    if_pos ⟨rfl, rfl, rfl⟩]
  rfl

lemma readLines_end (d : Discovery) :
    readLines [joined ' ' ["END".toList]] d = .ok (d, true) := by
  have hplain : Plain ["END".toList] := by decide
  rw [readLines, readLine, hplain.pieces]
  dsimp only
  rw [if_neg (by decide), if_neg fun h => absurd h.1 (by decide),
    if_neg fun h => absurd h.1 (by decide), if_neg fun h => absurd h.1 (by decide), if_pos rfl]

/-- A peer is listed once, so there are no more candidates than answers. -/
lemma length_foldl_addCandidate (answers found : List Candidate) :
    (answers.foldl addCandidate found).length ≤ found.length + answers.length := by
  induction answers generalizing found with
  | nil => exact Nat.le_refl _
  | cons c answers ih =>
    have hadd : (addCandidate found c).length ≤ found.length + 1 := by
      rw [addCandidate]
      split
      · rw [List.length_map]
        exact Nat.le_succ _
      · rw [List.length_append, List.length_singleton]
    have hrest := ih (addCandidate found c)
    rw [List.foldl_cons, List.length_cons]
    omega

lemma length_flatMap_le {α β : Type*} {f : α → List β} {k : Nat} {l : List α}
    (h : ∀ a ∈ l, (f a).length ≤ k) : (l.flatMap f).length ≤ l.length * k := by
  induction l with
  | nil => exact Nat.zero_le _
  | cons a l ih =>
    rw [List.forall_mem_cons] at h
    have hrest := ih h.2
    rw [List.flatMap_cons, List.length_append, List.length_cons, Nat.succ_mul]
    omega

lemma length_candidatesFound {includeBusy : Bool} {answers : List (List CandidateAnswer)}
    (hmodels : answers.length ≤ 8) (hpeers : ∀ l ∈ answers, l.length ≤ 64) :
    (candidatesFound includeBusy answers).length ≤ 512 := by
  have hkept : ∀ l ∈ answers, (l.filterMap (keepCandidate includeBusy)).length ≤ 64 := fun l hl =>
    Nat.le_trans (List.length_filterMap_le _ _) (hpeers l hl)
  have hall := length_flatMap_le hkept
  have hfound := length_foldl_addCandidate
    (answers.flatMap (List.filterMap (keepCandidate includeBusy))) []
  rw [List.length_nil, Nat.zero_add] at hfound
  rw [candidatesFound]
  omega

lemma plain_candidateReply (self : PeerId) (back : Return) (includeBusy : Bool)
    (found : List Candidate) :
    ∀ line ∈ ["SELF".toList, self.text] :: back.lines ++ found.map (candidateLine includeBusy) ++
      [["END".toList]], Plain line := by
  intro line hline
  rcases List.mem_append.mp hline with hline | hline
  · rcases List.mem_append.mp hline with hline | hline
    · rcases List.mem_cons.mp hline with rfl | hline
      · exact plain_self self
      · exact plain_returnLines back line hline
    · obtain ⟨c, -, rfl⟩ := List.mem_map.mp hline
      exact plain_candidateLine includeBusy c
  · rw [List.mem_singleton.mp hline]
    decide

/-- The client reads every candidate that the sidecar lists. -/
lemma readCandidates_reply (self : PeerId) (back : Return) (includeBusy : Bool)
    {answers : List (List CandidateAnswer)}
    (hcount : (candidatesFound includeBusy answers).length ≤ 512) :
    readCandidates (candidateReply self back includeBusy answers) =
      .ok { back.noted { selfPeer := self.text } with
        candidates := (candidatesFound includeBusy answers).map (Candidate.seen includeBusy) } := by
  have hplain := plain_candidateReply self back includeBusy (candidatesFound includeBusy answers)
  have hnone : (back.noted { selfPeer := self.text }).candidates = [] := by
    cases back <;> rfl
  have hself : (back.noted { selfPeer := self.text }).selfPeer = self.text := by
    cases back <;> rfl
  have hroom : (back.noted { selfPeer := self.text }).candidates.length +
      (candidatesFound includeBusy answers).length ≤ 512 := by
    rw [hnone, List.length_nil, Nat.zero_add]
    exact hcount
  have hpresent : self.text.isEmpty = false :=
    List.isEmpty_eq_false_iff.mpr (ne_nil_of_validPeerId self.valid)
  rw [readCandidates, candidateReply, closed_written hplain, List.map_append, List.map_append,
    List.map_cons, List.map_singleton, List.cons_append, List.cons_append, List.append_assoc,
    readLines, readLine_self]
  dsimp only
  rw [readLines_return, readLines_candidates includeBusy _ hroom, readLines_end]
  dsimp only
  rw [hself, hpresent, hnone, List.nil_append]
  rfl

/-! ### Reading the replicas -/

/-- What the client is to know of a replica. -/
def Sidecar.FoundReplica.seen (r : FoundReplica) : ReplicaCandidate where
  owner := r.owner.text
  control := r.control.text
  rttMs := r.reach.milliseconds % 2 ^ 32
  relayed := r.reach.path = .relay
  replicaId := lowercase r.status.replicaId
  modelSha256 := lowercase r.status.modelSha256
  draftSha256 := lowercase r.status.draftSha256
  sessionsFree := r.status.free.toNat
  sessionsMax := r.status.sessionsMax.toNat
  context := r.status.context.toNat
  stages := r.status.members.length
  msPerToken := r.status.msPerToken.toNat
  firstTokenMs := r.status.firstTokenMs.toNat

lemma toU32_decimal (n : UInt32) : toU32 (decimal n.toNat) = n.toNat := by
  rw [toU32, leadingNumber_decimal (Nat.lt_trans n.toNat_lt (by decide)),
    Nat.mod_eq_of_lt n.toNat_lt]

lemma free_le (s : ReplicaStatus) : s.free ≤ s.sessionsMax := by
  rw [ReplicaStatus.free]
  split
  · rename_i h
    rw [UInt32.le_iff_toNat_le, UInt32.toNat_sub_of_le _ _ (UInt32.le_of_lt h)]
    exact Nat.sub_le _ _
  · exact UInt32.zero_le

lemma draft_line (r : FoundReplica) :
    (if some (hexOrDash r.status.draftSha256) = some ['-'] then []
      else lowercase (hexOrDash r.status.draftSha256)) = lowercase r.status.draftSha256 := by
  rw [hexOrDash_eq r.bounded.draft]
  split
  · rename_i hempty
    rw [if_pos rfl, hempty]
    rfl
  · rename_i hne
    have hhex := r.bounded.draft.resolve_left hne
    have hdash : lowercase r.status.draftSha256 ≠ ['-'] := by
      intro hdash
      have hmem := mem_hexDigits (hexString_lowercase hhex) (hdash ▸ List.mem_singleton_self '-')
      exact absurd hmem (by decide)
    rw [if_neg (by simpa using hdash), lowercase_lowercase hhex]

lemma replicaOf_line (r : FoundReplica) : replicaOf (replicaLine r) = r.seen := by
  have hmembers : toU32 (decimal r.status.members.length) = r.status.members.length := by
    have hle := r.bounded.members_le
    rw [toU32, leadingNumber_decimal (Nat.lt_of_le_of_lt hle (by decide)),
      Nat.mod_eq_of_lt (Nat.lt_of_le_of_lt hle (by decide))]
  have hrtt : toU32 (decimal r.reach.milliseconds) = r.reach.milliseconds % 2 ^ 32 := by
    rw [toU32, leadingNumber_decimal (milliseconds_lt r.reach)]
  rw [replicaOf, FoundReplica.seen, replicaLine]
  simp only [List.getElem?_cons_zero, List.getElem?_cons_succ, Option.getD_some, Option.elim_some,
    toU32_decimal, hmembers, hrtt, Option.some.injEq, lowercase_lowercase r.bounded.model]
  rw [path_relay]
  have hdraft := draft_line r
  simp only [Option.some.injEq] at hdraft
  rw [hdraft]

lemma replicaFields_line (r : FoundReplica) : replicaFields (replicaLine r) := by
  have hpath : (some r.reach.path.text = some "direct".toList ∨
      some r.reach.path.text = some "relay".toList) := by
    cases r.reach.path
    · exact .inl rfl
    · exact .inr rfl
  have hdraft : (some (hexOrDash r.status.draftSha256) = some ['-'] ∨
      Address.hexString (hexOrDash r.status.draftSha256) 64) := by
    rw [hexOrDash_eq r.bounded.draft]
    split
    · exact .inl rfl
    · rename_i hne
      exact .inr (hexString_lowercase (r.bounded.draft.resolve_left hne))
  rw [replicaFields, replicaLine]
  simp only [List.getElem?_cons_zero, List.getElem?_cons_succ, Option.any_some, r.owner.valid,
    loopbackEndpoint_text, hexString_lowercase r.bounded.replicaId,
    hexString_lowercase r.bounded.model, Bool.and_eq_true, Bool.or_eq_true, decide_eq_true_eq]
  exact ⟨⟨⟨⟨⟨⟨⟨⟨trivial, (by decide : 12 ≤ 14)⟩, Nat.le_refl 14⟩, trivial⟩, trivial⟩, hpath⟩,
    trivial⟩, trivial⟩, hdraft⟩

lemma credible_iff {r : ReplicaCandidate} : r.credible ↔
    r.sessionsMax ≠ 0 ∧ r.sessionsMax ≤ maxGreetingSessions ∧ r.sessionsFree ≤ r.sessionsMax ∧
      r.context ≠ 0 ∧ r.context ≤ maxGreetingContext ∧ r.stages ≠ 0 ∧ r.stages ≤ 64 ∧
      r.msPerToken ≤ 10000000 ∧ r.firstTokenMs ≤ 10000000 := by
  simp only [ReplicaCandidate.credible, Bool.and_eq_true, decide_eq_true_eq, and_assoc]

lemma credible_seen (r : FoundReplica) : r.seen.credible := by
  obtain ⟨-, -, -, hsessions, hmost, -, hcontext, hlarge, hmembers, hcount, htoken, hfirst⟩ :=
    r.bounded
  have hfree : r.status.free.toNat ≤ r.status.sessionsMax.toNat :=
    UInt32.le_iff_toNat_le.mp (free_le r.status)
  have hsessions' : r.status.sessionsMax.toNat ≠ 0 := fun h => hsessions (UInt32.toNat.inj h)
  have hmost' : r.status.sessionsMax.toNat ≤ 256 := UInt32.le_iff_toNat_le.mp hmost
  have hcontext' : r.status.context.toNat ≠ 0 := fun h => hcontext (UInt32.toNat.inj h)
  have hlarge' : r.status.context.toNat ≤ 2 ^ 20 := UInt32.le_iff_toNat_le.mp hlarge
  have hmembers' : r.status.members.length ≠ 0 := fun h => hmembers (List.length_eq_zero_iff.mp h)
  have htoken' : r.status.msPerToken.toNat ≤ 10000000 := UInt32.le_iff_toNat_le.mp htoken
  have hfirst' : r.status.firstTokenMs.toNat ≤ 10000000 := UInt32.le_iff_toNat_le.mp hfirst
  exact credible_iff.mpr ⟨hsessions', hmost', hfree, hcontext', hlarge', hmembers', hcount, htoken',
    hfirst'⟩

lemma readReplicas_found (found : List FoundReplica) {replicas : List ReplicaCandidate}
    (hroom : replicas.length + found.length ≤ 512) :
    readReplicas (found.map replicaLine) replicas =
      .ok (replicas ++ found.map FoundReplica.seen) := by
  induction found generalizing replicas with
  | nil => rw [List.map_nil, List.map_nil, List.append_nil, readReplicas]
  | cons r found ih =>
    have hself : (replicaLine r)[0]? ≠ some "SELF".toList := by
      have hfirst : (replicaLine r)[0]? = some "REPLICA".toList := rfl
      rw [hfirst]
      decide
    have hfew : decide (512 ≤ replicas.length) = false := by
      rw [List.length_cons] at hroom
      exact decide_eq_false (by omega)
    rw [List.map_cons, readReplicas, if_neg hself, replicaFields_line, replicaOf_line,
      credible_seen, hfew, if_neg (by decide), if_neg (by decide), ih, List.map_cons,
      List.append_assoc]
    · rfl
    · rw [List.length_append, List.length_singleton]
      rw [List.length_cons] at hroom
      omega

lemma length_replicasFound {answers : List (List Char × List ReplicaAnswer)}
    (hmodels : answers.length ≤ 8) (hpeers : ∀ p ∈ answers, p.2.length ≤ 64) :
    (replicasFound answers).length ≤ 512 := by
  have hkept : ∀ p ∈ answers, (p.2.filterMap (keepReplica p.1)).length ≤ 64 := fun p hp =>
    Nat.le_trans (List.length_filterMap_le _ _) (hpeers p hp)
  have hall : (replicasFound answers).length ≤ _ := length_flatMap_le hkept
  omega

lemma plain_replicaReply (self : PeerId) (found : List FoundReplica) :
    ∀ line ∈ ["SELF".toList, self.text] :: found.map replicaLine ++ [["END".toList]],
      Plain line := by
  intro line hline
  rcases List.mem_append.mp hline with hline | hline
  · rcases List.mem_cons.mp hline with rfl | hline
    · exact plain_self self
    · obtain ⟨r, -, rfl⟩ := List.mem_map.mp hline
      exact plain_replicaLine r
  · rw [List.mem_singleton.mp hline]
    decide

lemma joined_ne_end {key part : List Char} {line : List (List Char)}
    (h : ' ' ∈ joined ' ' (key :: part :: line)) :
    joined ' ' (key :: part :: line) ≠ "END".toList := by
  intro hend
  rw [hend] at h
  exact absurd h (by decide)

/-- The lines before the last one are read as they were written. -/
lemma apiLines_written (hplain : ∀ line ∈ lines, Plain line)
    (hend : ∀ line ∈ lines, joined ' ' line ≠ "END".toList) (hne : ∀ line ∈ lines, line ≠ [])
    (herror : "ERR ".toList.isPrefixOf (written (lines ++ [["END".toList]])) = false) :
    apiLines (written (lines ++ [["END".toList]])) = .ok lines := by
  have hclosed : "END\n".toList.isSuffixOf (written (lines ++ [["END".toList]])) := by
    rw [List.isSuffixOf_iff_suffix, written, List.map_append, terminated, List.flatMap_append]
    exact List.suffix_append _ _
  have hall : ∀ line ∈ lines ++ [["END".toList]], Plain line := by
    intro line hline
    rcases List.mem_append.mp hline with hline | hline
    · exact hplain line hline
    · rw [List.mem_singleton.mp hline]
      decide
  have hbefore : (closed '\n' (written (lines ++ [["END".toList]]))).takeWhile (· ≠ "END".toList) =
      lines.map (joined ' ') := by
    rw [closed_written hall, List.map_append, List.takeWhile_append_of_pos]
    · rw [List.map_singleton, List.takeWhile_cons_of_neg (by decide), List.append_nil]
    · intro text htext
      obtain ⟨line, hline, rfl⟩ := List.mem_map.mp htext
      exact decide_eq_true (hend line hline)
  have hpieces : (lines.map (joined ' ')).map (pieces ' ') = lines := by
    rw [List.map_map]
    exact (List.map_congr_left fun line hline => (hplain line hline).pieces).trans (List.map_id _)
  rw [apiLines, herror, hclosed, hbefore, hpieces, if_neg (by decide), if_neg (by decide),
    List.filter_eq_self.mpr fun line hline => decide_eq_true (hne line hline)]

/-- The client reads every replica that the sidecar lists. -/
lemma readReplicaAnswer_reply (self : PeerId) {answers : List (List Char × List ReplicaAnswer)}
    (hcount : (replicasFound answers).length ≤ 512) :
    readReplicaAnswer (replicaReply self answers) =
      .ok ((replicasFound answers).map FoundReplica.seen) := by
  have hlines : apiLines (replicaReply self answers) =
      .ok (["SELF".toList, self.text] :: (replicasFound answers).map replicaLine) := by
    apply apiLines_written
    · exact fun line hline =>
        plain_replicaReply self (replicasFound answers) line (List.mem_append_left _ hline)
    · rw [List.forall_mem_cons]
      refine ⟨joined_ne_end (List.mem_append_right _ List.mem_cons_self), fun line hline => ?_⟩
      obtain ⟨r, -, rfl⟩ := List.mem_map.mp hline
      exact joined_ne_end (List.mem_append_right _ List.mem_cons_self)
    · rw [List.forall_mem_cons]
      refine ⟨List.cons_ne_nil _ _, fun line hline => ?_⟩
      obtain ⟨r, -, rfl⟩ := List.mem_map.mp hline
      exact List.cons_ne_nil _ _
    · rfl
  rw [readReplicaAnswer, hlines]
  dsimp only
  rw [readReplicas, List.getElem?_cons_zero, if_pos rfl,
    readReplicas_found _ (by rwa [List.length_nil, Nat.zero_add]), List.nil_append]

/-! ### Receiving an answer -/

/-- An answer that is not `done` before its end is received as a whole. -/
lemma receive_eq {done : List Char → Bool} {fuel : Nat} {text : List Char}
    {segments : List (List Char)} (hfuel : segments.flatten.length ≤ fuel)
    (hsize : (text ++ segments.flatten).length < maxAnswer)
    (hearly : ∀ before rest, text ++ segments.flatten = before ++ rest → rest ≠ [] →
      done before = false) :
    receive done fuel text segments = text ++ segments.flatten := by
  induction fuel generalizing text segments with
  | zero =>
    rw [receive, List.length_eq_zero_iff.mp (Nat.le_zero.mp hfuel), List.append_nil]
  | succ fuel ih =>
    have hshort : ¬ maxAnswer ≤ text.length := by
      rw [List.length_append] at hsize
      omega
    have hflatten := read_flatten 4096 segments
    rw [receive, if_neg hshort]
    split
    · rename_i rest hread
      have hend : segments.flatten = [] :=
        flatten_eq_nil_of_read (by decide : 0 < 4096) (by rw [hread])
      rw [hend, List.append_nil]
    · rename_i chunk rest hchunk hread
      replace hflatten : chunk ++ rest.flatten = segments.flatten := by rwa [hread] at hflatten
      have hpos : 0 < chunk.length := List.length_pos_iff.mpr hchunk
      rw [← hflatten] at hfuel hsize hearly ⊢
      rw [← List.append_assoc] at hsize hearly ⊢
      split
      · rename_i hdone
        by_cases hrest : rest.flatten = []
        · rw [hrest, List.append_nil]
        · rw [hearly (text ++ chunk) rest.flatten rfl hrest] at hdone
          cases hdone
      · rw [List.length_append] at hfuel
        exact ih (by omega) hsize hearly

/-- A line that does not end as the last one does. -/
def Silent (line : List (List Char)) : Prop := ¬ "END".toList <:+ joined ' ' line

/-- No part of the answer but the whole ends in its last line. -/
lemma not_end_of_silent {before rest : List Char}
    (hplain : ∀ line ∈ lines ++ [["END".toList]], Plain line)
    (hsilent : ∀ line ∈ lines, Silent line)
    (heq : written (lines ++ [["END".toList]]) = before ++ rest)
    (hrest : rest ≠ []) : "END\n".toList.isSuffixOf before = false := by
  rw [Bool.eq_false_iff, ne_eq, List.isSuffixOf_iff_suffix]
  rintro ⟨q, rfl⟩
  have hline : ∀ text ∈ (lines ++ [["END".toList]]).map (joined ' '), '\n' ∉ text := by
    intro text htext
    obtain ⟨line, hline, rfl⟩ := List.mem_map.mp htext
    exact (hplain line hline).not_mem
  have hbreak : written (lines ++ [["END".toList]]) = q ++ "END".toList ++ '\n' :: rest := by
    rw [heq, List.append_assoc, List.append_assoc]
    rfl
  rcases suffix_of_terminated hline (by decide) hbreak with hnil | ⟨text, htext, hsuffix⟩
  · exact hrest hnil
  · rw [List.map_append, List.map_singleton, List.dropLast_concat] at htext
    obtain ⟨line, hmem, rfl⟩ := List.mem_map.mp htext
    exact hsilent line hmem hsuffix

lemma silent_of_last (part : List Char) (hlast : line.getLast? = some part) (hne : part ≠ [])
    (hmem : 'D' ∉ part) : Silent line := by
  rintro ⟨q, hq⟩
  have hend : (joined ' ' line).getLast? = some 'D' := by
    rw [← hq, List.getLast?_append]
    rfl
  rw [getLast?_joined hlast hne] at hend
  exact hmem (List.mem_of_getLast? hend)

lemma silent_self {self : PeerId} (h : ¬ "END".toList <:+ self.text) :
    Silent ["SELF".toList, self.text] := by
  intro hend
  have hlength := le_length_of_validPeerId self.valid
  have hself : self.text <:+ joined ' ' ["SELF".toList, self.text] :=
    ⟨"SELF ".toList, rfl⟩
  have hshort : "END".toList.length ≤ self.text.length := Nat.le_trans (by decide) hlength
  exact h (List.suffix_of_suffix_length_le hend hself hshort)

lemma silent_returnLines (back : Return) : ∀ line ∈ back.lines, Silent line := by
  cases back with
  | none => exact fun line hline => absurd hline List.not_mem_nil
  | returnInbound a =>
    rw [Return.lines, List.forall_mem_singleton]
    exact silent_of_last returnTargetPrefix rfl (List.cons_ne_nil _ _) (by decide)
  | ringInbound a =>
    rw [Return.lines, List.forall_mem_singleton]
    exact silent_of_last a.text rfl (List.cons_ne_nil _ _) (a.not_mem_text (by decide))

lemma silent_candidateLine (includeBusy : Bool) (c : Candidate) :
    Silent (candidateLine includeBusy c) := by
  cases includeBusy with
  | false =>
    apply silent_of_last c.reach.path.text rfl
    · exact (plain_path _).ne_nil
    · cases c.reach.path <;> decide
  | true =>
    apply silent_of_last
      (if c.capability.state = .available then "available".toList else "busy".toList) rfl
    · split
      · decide
      · decide
    · split
      · decide
      · decide

lemma silent_replicaLine (r : FoundReplica) : Silent (replicaLine r) :=
  silent_of_last (decimal r.status.firstTokenMs.toNat) rfl (decimal_ne_nil _)
    (not_mem_decimal (by decide) _)

/-- A line that the client takes as it was written, wherever the answer is cut into segments. -/
structure Steady (line : List (List Char)) : Prop where
  plain : Plain line
  few : line.length ≤ 14
  silent : Silent line

lemma steady_self {self : PeerId} (h : ¬ "END".toList <:+ self.text) :
    Steady ["SELF".toList, self.text] :=
  ⟨plain_self self, (by decide : 2 ≤ 14), silent_self h⟩

lemma steady_returnLines (back : Return) : ∀ line ∈ back.lines, Steady line := by
  intro line hline
  refine ⟨plain_returnLines back line hline, ?_, silent_returnLines back line hline⟩
  cases back with
  | none => cases hline
  | returnInbound a =>
    rw [List.mem_singleton.mp hline]
    exact (by decide : 3 ≤ 14)
  | ringInbound a =>
    rw [List.mem_singleton.mp hline]
    exact (by decide : 2 ≤ 14)

lemma steady_candidateLine (includeBusy : Bool) (c : Candidate) :
    Steady (candidateLine includeBusy c) := by
  refine ⟨plain_candidateLine includeBusy c, ?_, silent_candidateLine includeBusy c⟩
  cases includeBusy with
  | false => exact (by decide : 7 ≤ 14)
  | true => exact (by decide : 8 ≤ 14)

lemma steady_replicaLine (r : FoundReplica) : Steady (replicaLine r) :=
  ⟨plain_replicaLine r, Nat.le_refl 14, silent_replicaLine r⟩

/-- An answer of such lines is received as the sidecar wrote it. -/
lemma receive_written {done : List Char → Bool} (h : ∀ line ∈ lines, Steady line)
    (hcount : lines.length ≤ 514)
    (hdone : ∀ text, done text → "END\n".toList.isSuffixOf text ∨ "ERR ".toList.isPrefixOf text)
    (herror : "ERR ".toList.isPrefixOf (written (lines ++ [["END".toList]])) = false)
    {segments : List (List Char)}
    (hsegments : segments.flatten = written (lines ++ [["END".toList]])) :
    receive done maxAnswer [] segments = written (lines ++ [["END".toList]]) := by
  have hend : Plain ["END".toList] ∧ ["END".toList].length ≤ 14 := by decide
  have hall : ∀ line ∈ lines ++ [["END".toList]], Plain line ∧ line.length ≤ 14 := by
    intro line hline
    rcases List.mem_append.mp hline with hline | hline
    · exact ⟨(h line hline).plain, (h line hline).few⟩
    · rwa [List.mem_singleton.mp hline]
  have hsize : (written (lines ++ [["END".toList]])).length < maxAnswer := by
    have hlength : (written (lines ++ [["END".toList]])).length ≤ 515 * 1807 := by
      apply length_written hall
      rw [List.length_append, List.length_singleton]
      omega
    exact Nat.lt_of_le_of_lt hlength (by decide)
  rw [← hsegments] at hsize
  rw [receive_eq (Nat.le_of_lt hsize) hsize, List.nil_append, hsegments]
  intro before rest heq hrest
  rw [List.nil_append, hsegments] at heq
  rw [Bool.eq_false_iff]
  intro hbefore
  rcases hdone before hbefore with hclosed | hstarts
  · rw [not_end_of_silent (fun line hline => (hall line hline).1)
      (fun line hline => (h line hline).silent) heq hrest] at hclosed
    cases hclosed
  · rw [List.isPrefixOf_iff_prefix] at hstarts
    rw [heq, Bool.eq_false_iff, ne_eq, List.isPrefixOf_iff_prefix] at herror
    exact herror (hstarts.trans (List.prefix_append before rest))

lemma receive_candidateReply {self : PeerId} (hself : ¬ "END".toList <:+ self.text) (back : Return)
    (includeBusy : Bool) {answers : List (List CandidateAnswer)}
    (hcount : (candidatesFound includeBusy answers).length ≤ 512) {segments : List (List Char)}
    (hsegments : segments.flatten = candidateReply self back includeBusy answers) :
    receive candidatesDone maxAnswer [] segments =
      candidateReply self back includeBusy answers := by
  apply receive_written _ _ _ rfl hsegments
  · intro line hline
    rcases List.mem_append.mp hline with hline | hline
    · rcases List.mem_cons.mp hline with rfl | hline
      · exact steady_self hself
      · exact steady_returnLines back line hline
    · obtain ⟨c, -, rfl⟩ := List.mem_map.mp hline
      exact steady_candidateLine includeBusy c
  · have hreturn : back.lines.length ≤ 1 := by
      cases back with
      | none => exact Nat.zero_le 1
      | returnInbound a => exact Nat.le_refl 1
      | ringInbound a => exact Nat.le_refl 1
    rw [List.length_append, List.length_cons, List.length_map]
    omega
  · intro text hdone
    rwa [candidatesDone, Bool.or_eq_true] at hdone

lemma receive_replicaReply {self : PeerId} (hself : ¬ "END".toList <:+ self.text)
    {answers : List (List Char × List ReplicaAnswer)}
    (hcount : (replicasFound answers).length ≤ 512) {segments : List (List Char)}
    (hsegments : segments.flatten = replicaReply self answers) :
    receive apiDone maxAnswer [] segments = replicaReply self answers := by
  apply receive_written _ _ _ rfl hsegments
  · intro line hline
    rcases List.mem_cons.mp hline with rfl | hline
    · exact steady_self hself
    · obtain ⟨r, -, rfl⟩ := List.mem_map.mp hline
      exact steady_replicaLine r
  · rw [List.length_cons, List.length_map]
    omega
  · intro text hdone
    rw [apiDone, Bool.or_eq_true, Bool.and_eq_true] at hdone
    exact hdone.imp id And.left

/-- Whatever the remote peers answer, the client takes all that the sidecar lists of it, with the
values that the sidecar checked. The sidecar's own id must not end as the answer does, for the
client to find the end of an answer that comes in pieces. -/
theorem remote_answers_read (self : PeerId) (back : Return) (includeBusy : Bool)
    {capabilities : List (List CandidateAnswer)} (hmodels : capabilities.length ≤ 8)
    (hpeers : ∀ answers ∈ capabilities, answers.length ≤ 64)
    {statuses : List (List Char × List ReplicaAnswer)} (hmodels' : statuses.length ≤ 8)
    (hpeers' : ∀ answers ∈ statuses, answers.2.length ≤ 64) :
    readCandidates (candidateReply self back includeBusy capabilities) =
        .ok { back.noted { selfPeer := self.text } with
          candidates :=
            (candidatesFound includeBusy capabilities).map (Candidate.seen includeBusy) } ∧
      readReplicaAnswer (replicaReply self statuses) =
        .ok ((replicasFound statuses).map FoundReplica.seen) ∧
      (¬ "END".toList <:+ self.text →
        (∀ segments, segments.flatten = candidateReply self back includeBusy capabilities →
          discoverCandidates segments =
            readCandidates (candidateReply self back includeBusy capabilities)) ∧
        ∀ segments, segments.flatten = replicaReply self statuses →
          discoverReplicas segments = readReplicaAnswer (replicaReply self statuses)) := by
  have hcount : (candidatesFound includeBusy capabilities).length ≤ 512 :=
    length_candidatesFound hmodels hpeers
  have hcount' := length_replicasFound hmodels' hpeers'
  refine ⟨readCandidates_reply self back includeBusy hcount, readReplicaAnswer_reply self hcount',
    fun hself => ⟨fun segments hsegments => ?_, fun segments hsegments => ?_⟩⟩
  · rw [discoverCandidates, receive_candidateReply hself back includeBusy hcount hsegments]
  · rw [discoverReplicas, receive_replicaReply hself hcount' hsegments]

/-- A peer, a forward to it and what it answers. -/
def onePeer : PeerId := ⟨List.replicate 46 'Q', by decide⟩

def oneForward : Loopback := ⟨0, 0, 1, 40001, by decide, by decide⟩

def oneLink : Link := ⟨17500000, .relay, by decide⟩

def oneCapability : Capability where
  protocolVersion := 1
  workerId := "worker 1".toList
  runtimeAbi := "cuda 12".toList
  dataProtocols := []
  device := "gpu".toList
  totalMemoryMib := 24576
  offeredMemoryMib := 22000
  maxContext := 8192
  maxSessions := 4
  models := [some ⟨List.replicate 64 'a', 32, [some ⟨0, 16⟩]⟩]
  state := .serving

def oneReplica : ReplicaStatus where
  state := "ready".toList
  owner := onePeer.text
  replicaId := List.replicate 32 'B'
  modelSha256 := List.replicate 64 'a'
  draftSha256 := []
  runtimeAbi := []
  context := 8192
  sessionsMax := 4
  sessionsInUse := 1
  msPerToken := 35
  firstTokenMs := 900
  members := [⟨0, 16⟩, ⟨16, 32⟩]

def oneAsked : List (List CandidateAnswer) :=
  [[⟨onePeer, some oneCapability, some oneForward, oneLink⟩]]

def oneOwner : List (List Char × List ReplicaAnswer) :=
  [(List.replicate 64 'A', [⟨onePeer, some oneReplica, true, some oneForward, oneLink⟩])]

theorem remote_answers_read_one :
    readCandidates (candidateReply onePeer .none true oneAsked) =
        .ok { selfPeer := onePeer.text
              candidates := [⟨oneForward.text, onePeer.text, 17, true, 22000, true⟩] } ∧
      readReplicaAnswer (replicaReply onePeer oneOwner) =
        .ok [⟨onePeer.text, oneForward.text, 17, true, List.replicate 32 'b',
          List.replicate 64 'a', [], 3, 4, 8192, 2, 35, 900⟩] := by
  have hread := remote_answers_read onePeer .none true (by decide : oneAsked.length ≤ 8) (by decide)
    (by decide : oneOwner.length ≤ 8) (by decide)
  have hfound : (candidatesFound true oneAsked).map (Candidate.seen true) =
      [⟨oneForward.text, onePeer.text, 17, true, 22000, true⟩] := by decide
  have hfound' : (replicasFound oneOwner).map FoundReplica.seen =
      [⟨onePeer.text, oneForward.text, 17, true, List.replicate 32 'b', List.replicate 64 'a', [],
        3, 4, 8192, 2, 35, 900⟩] := by decide
  rw [hfound, hfound'] at hread
  exact ⟨hread.1, hread.2.1⟩

end ProviderOwned
