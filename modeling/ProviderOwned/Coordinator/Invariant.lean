import ProviderOwned.Coordinator.Chunks
import ProviderOwned.Coordinator.Hops

/-!
# The invariant of pipelined decoding

At any time the stages have decoded, or will once everything sent has gone through (`drained`), the
answer so far and after it whatever was guessed last. The sender's next chunk goes on from there, or
from a correction, and every chunk whose reply will still be applied is checked against the answer
followed by the live guesses before it (`Decoding`). The sockets and the threads keep what
`Coordinator.Hops` says (`Flow`). Each step keeps both, and lessens what is left to do (`weight`).
-/

namespace ProviderOwned

variable {H σ : Type*}

/-! ### What is in flight -/

/-- The chunk whose reply the receiver holds. -/
def ReceiverPhase.held : ReceiverPhase H → List (SpeculativeChunk × Frame H)
  | .holding chunk response _ => [(chunk, response)]
  | _ => []

/-- The steps the receiver has before it, apart from reading. -/
def ReceiverPhase.steps : ReceiverPhase H → Nat
  | .waiting => 1
  | .holding _ _ _ => 2
  | .done => 0

namespace SenderPhase

/-- The chunk the sender has drafted and not sent. -/
def unsent : SenderPhase → List SpeculativeChunk
  | .drafted chunk => [chunk]
  | _ => []

/-- The chunk the sender has sent and not counted. -/
def uncounted : SenderPhase → List SpeculativeChunk
  | .placed chunk => [chunk]
  | _ => []

end SenderPhase

namespace PipelineState

variable (r : PipelineRun σ) (s : PipelineState H σ)

/-- A chunk whose reply will be applied, as things stand. -/
def live (chunk : SpeculativeChunk) : Bool :=
  !s.finished && chunk.epoch = s.epoch

/-- The chunks that were sent and whose reply was not dealt with, oldest first. -/
def sent : List SpeculativeChunk :=
  s.receiver.held.map (·.1) ++ s.inflight ++ s.sender.phase.uncounted

def chunks : List SpeculativeChunk :=
  s.sent ++ s.sender.phase.unsent

/-- The stages, and the replies of the last one, once everything sent has gone through. -/
def drained : List (Connection H) × List (Frame H) :=
  Chain.feed Connection.serve (nodesOf s.hops) []

/-- Where the sender drafts next unless a correction stops it. -/
def frontier : Nat × Token :=
  match s.sender.phase with
  | .placed chunk => (s.sender.basePosition + r.draftTokens, chunk.guesses.getLastD 0)
  | _ => (s.sender.basePosition, s.sender.carry)

/-- The sender's next chunk does not continue its last one. -/
def interrupted : Bool :=
  s.finished || s.correction.isSome

/-- A chunk the stages can decode after the first `kept` tokens of what they have. -/
structure Fits (r : PipelineRun σ) (context : Nat) (text : List Token) (kept : Nat)
    (chunk : SpeculativeChunk) : Prop where
  guesses : chunk.guesses.length = r.draftTokens
  reach : chunk.basePosition ≤ text.length
  kept : kept ≤ chunk.basePosition
  room : chunk.basePosition + r.draftTokens ≤ context

/-- The part of the invariant about the threads and the sockets. -/
structure Flow : Prop where
  quiet : s.error = none
  counted : ∀ h ∈ s.hops, h.Counted
  closing : Closing s.hops
  passes : Chain.Passes Connection.serve (Relayable r.call) (nodesOf s.hops) []
  head : ∃ finished, headFlags s.hops = some (!s.sender.phase.uncounted.isEmpty, finished) ∧
    (finished = true → s.finished = true ∧ s.sender.phase = .waiting)
  bound : s.inflight.length + s.sender.phase.uncounted.length + s.sender.phase.unsent.length ≤
    r.maxInflight
  ended : s.receiver = .done →
    hopsWeight s.hops = 0 ∧ s.finished = true ∧ s.sender.phase = .waiting

/-- The part of the invariant about the answer. After `n` rounds of one token each the stages, once
everything sent has gone through, have decoded `text`, and `front` is the answer so far with all
live guesses behind it. -/
structure Decoding (context : Nat) (models : List (StageModel H)) (prompt : String)
    (stages : List (Connection H)) (replies : List (Frame H)) (n : Nat)
    (text front : List Token) : Prop where
  le : n ≤ (targetOf models prompt).rounds r.call
  output : s.output = (targetOf models prompt).resultAfter r.call.sink n
  finished : s.finished = true ↔ n = (targetOf models prompt).rounds r.call
  same : modelsOf stages = models
  on : OnText context r.call.hidden r.call.session r.call.request text stages
  reach : (promptTokens models prompt).length + n ≤ text.length
  right : text.take ((promptTokens models prompt).length + n) = (targetOf models prompt).text n
  lined : Lined r.call (nextToken models) r.draftTokens s.live
    ((targetOf models prompt).text (n + 1))
    s.sent (s.receiver.held.map (·.2) ++ replies) front
  verdict : ∀ chunk response apply, s.receiver = .holding chunk response apply →
    apply = s.live chunk
  epochs : ∀ chunk ∈ s.chunks, chunk.epoch ≤ s.epoch
  unsent : ∀ chunk, s.sender.phase = .drafted chunk →
    Fits r context text ((promptTokens models prompt).length + n) chunk ∧
      chunk.basePosition = s.sender.basePosition ∧ s.live chunk = !s.interrupted
  stopped : s.interrupted = true → front = (targetOf models prompt).text (n + 1) ∧
    (s.finished = false → s.correction = some ((promptTokens models prompt).length + n,
      nextToken models ((targetOf models prompt).text n)))
  continued : s.interrupted = false →
    (s.frontier r).1 ≤ text.length ∧ front = text.take (s.frontier r).1 ++ [(s.frontier r).2]

/-- How many chunks may still be drafted: whenever the answer gets longer the sender may fill the
pipeline anew. -/
def budget (t : Target) : Nat :=
  if s.finished then 0
  else (r.maxInflight + 1) * (t.rounds r.call + 1 - s.output.tokenIds.length) +
    (r.maxInflight + 1 - s.chunks.countP s.live)

/-- The steps left for the chunks that are drafted, and for the threads to end. -/
def steps : Nat :=
  (3 * s.hops.length + 2) * s.sender.phase.unsent.length + hopsWeight s.hops + s.receiver.steps

def weight (t : Target) : Nat :=
  (3 * s.hops.length + 3) * s.budget r t + s.steps

variable {r s} in
lemma weight_lt {s' : PipelineState H σ} {t : Target} (hlength : s'.hops.length = s.hops.length)
    (hbudget : s'.budget r t ≤ s.budget r t) (hsteps : s'.steps < s.steps) :
    s'.weight r t < s.weight r t := by
  rw [weight, weight, hlength]
  exact Nat.add_lt_add_of_le_of_lt (Nat.mul_le_mul_left _ hbudget) hsteps

end PipelineState

/-- What a pipelined request needs: ids, a drafter that speaks the target's language, a width the
stages support, room for the answer and the chunks in flight, and stages that send 32-bit floats to
each other. -/
structure PipelineRun.Suits (r : PipelineRun σ) (context : Nat) (models : List (StageModel H))
    (prompt : String) : Prop where
  send : Sendable context r.call.hidden r.call.session r.call.request
  agrees : r.drafter.Agrees (targetOf models prompt) prompt
  width : 1 ≤ r.draftTokens ∧ r.draftTokens ≤ maxSpeculativeWidth
  depth : 1 ≤ r.maxInflight
  room : (promptTokens models prompt).length + (targetOf models prompt).rounds r.call +
    r.draftTokens * (r.maxInflight + 1) ≤ context
  wire : ∀ m ∈ models.dropLast, m.wire = .f32le

namespace PipelineState

/-! ### The stages and the relays -/

section route

variable {r : PipelineRun σ} {s : PipelineState H σ} {context : Nat} {models : List (StageModel H)}
  {prompt : String} {stages : List (Connection H)} {replies : List (Frame H)} {n : Nat}
  {text front : List Token} {hops' : List (Hop H)}

lemma Flow.hopsMoved (hf : s.Flow r) (hm : HopsMoved r.call s.hops hops') :
    Flow r { s with hops := hops' } where
  quiet := hf.quiet
  counted := hm.counted hf.counted
  closing := hm.closing hf.closing
  passes := hm.moved.passes _ hf.passes
  head := by
    obtain ⟨finished, hhead, hfinished⟩ := hf.head
    exact ⟨finished, hm.head.trans hhead, hfinished⟩
  bound := hf.bound
  ended hdone := by
    have hweight := hm.weight
    rw [(hf.ended hdone).1] at hweight
    exact absurd hweight (Nat.not_lt_zero _)

/-- The hops themselves do not matter to the answer, only what will have gone through. -/
lemma Decoding.hops (hd : s.Decoding r context models prompt stages replies n text front)
    (hops' : List (Hop H)) :
    Decoding r { s with hops := hops' } context models prompt stages replies n text front :=
  { hd with }

lemma weight_hopsMoved (t : Target) (hm : HopsMoved r.call s.hops hops') :
    weight r { s with hops := hops' } t < weight r s t := by
  apply weight_lt hm.length
  · exact le_rfl
  · have hweight := hm.weight
    simp only [steps, hm.length]
    omega

end route

/-! ### The sender -/

section sender

variable {r : PipelineRun σ} {s : PipelineState H σ} {context : Nat} {models : List (StageModel H)}
  {prompt : String} {stages : List (Connection H)} {replies : List (Frame H)} {n : Nat}
  {text front : List Token}

/-- Drafting a chunk, seen from outside: it starts at the correction, or where the sender is. -/
lemma draft_eq (hagrees : r.drafter.Agrees (targetOf models prompt) prompt) :
    ∃ base carry state guesses, guesses.length = r.draftTokens ∧
      (s.correction = some (base, carry) ∨
        s.correction = none ∧ base = s.sender.basePosition ∧ carry = s.sender.carry) ∧
      s.draft r = { s with
        correction := none
        sender := ⟨base, carry, state, .drafted ⟨s.epoch, base, guesses⟩⟩ } := by
  cases hcorrection : s.correction with
  | none =>
    refine ⟨_, _, (r.drafter.propose s.sender.state s.sender.carry r.draftTokens).1,
      (r.drafter.propose s.sender.state s.sender.carry r.draftTokens).2,
      hagrees.propose .., .inr ⟨rfl, rfl, rfl⟩, ?_⟩
    rw [draft, hcorrection]
  | some correction =>
    refine ⟨correction.1, correction.2,
      (r.drafter.propose (r.drafter.rollback s.sender.state correction.1) correction.2
        r.draftTokens).1,
      (r.drafter.propose (r.drafter.rollback s.sender.state correction.1) correction.2
        r.draftTokens).2, hagrees.propose .., .inl rfl, ?_⟩
    rw [draft, hcorrection]

/-- A chunk that is drafted is not sent yet. -/
lemma draft_sent (hagrees : r.drafter.Agrees (targetOf models prompt) prompt)
    (hphase : s.sender.phase = .waiting) :
    (s.draft r).sent = s.sent ∧
      ∃ base guesses, (s.draft r).chunks = s.sent ++ [⟨s.epoch, base, guesses⟩] := by
  obtain ⟨base, carry, state, guesses, -, -, hdraft⟩ := draft_eq (s := s) hagrees
  have hsent : (s.draft r).sent = s.sent := by
    rw [hdraft, sent, sent, hphase]
    rfl
  refine ⟨hsent, base, guesses, ?_⟩
  rw [chunks, hsent, hdraft]
  rfl

lemma sent_of_waiting (hphase : s.sender.phase = .waiting) :
    s.sent = s.receiver.held.map (·.1) ++ s.inflight ∧ s.chunks = s.sent := by
  simp [sent, chunks, hphase, SenderPhase.unsent, SenderPhase.uncounted]

lemma length_held_le (p : ReceiverPhase H) : p.held.length ≤ 1 := by
  cases p <;> simp [ReceiverPhase.held]

/-- The sender has caught up, so the live chunks all fit the pipeline. -/
lemma countP_live_le (hphase : s.sender.phase = .waiting)
    (hfree : s.inflight.length < r.maxInflight) :
    s.sent.countP s.live ≤ r.maxInflight := by
  have hheld := length_held_le s.receiver
  calc s.sent.countP s.live ≤ s.sent.length := List.countP_le_length
    _ = s.receiver.held.length + s.inflight.length := by
      rw [(sent_of_waiting hphase).1, List.length_append, List.length_map]
    _ ≤ r.maxInflight := by omega

/-- The text before the sender's next chunk, when it has caught up. -/
lemma Decoding.reaches (hd : s.Decoding r context models prompt stages replies n text front)
    (hphase : s.sender.phase = .waiting) (hgoing : s.finished = false) {base : Nat} {carry : Token}
    (hstart : s.correction = some (base, carry) ∨
      s.correction = none ∧ base = s.sender.basePosition ∧ carry = s.sender.carry) :
    base ≤ text.length ∧ front = text.take base ++ [carry] := by
  rcases hstart with hcorrection | ⟨hnone, rfl, rfl⟩
  · obtain ⟨hfront, hagain⟩ := hd.stopped (by simp [PipelineState.interrupted, hcorrection])
    have hat := hagain hgoing
    rw [hcorrection, Option.some.injEq, Prod.mk.injEq] at hat
    obtain ⟨rfl, rfl⟩ := hat
    refine ⟨hd.reach, ?_⟩
    rw [hfront, hd.right, Target.text_succ]
    rfl
  · have hfrontier : s.frontier r = (s.sender.basePosition, s.sender.carry) := by
      rw [frontier, hphase]
    have hcontinued := hd.continued (by simp [PipelineState.interrupted, hnone, hgoing])
    rwa [hfrontier] at hcontinued

/-- The next chunk fits: the chunks in flight are at most as many as the pipeline holds. -/
lemma Decoding.fits (hsuits : r.Suits context models prompt)
    (hd : s.Decoding r context models prompt stages replies n text front)
    (hphase : s.sender.phase = .waiting) (hgoing : s.finished = false)
    (hfree : s.inflight.length < r.maxInflight) {chunk : SpeculativeChunk} {carry : Token}
    (hguesses : chunk.guesses.length = r.draftTokens)
    (hreach : chunk.basePosition ≤ text.length)
    (hfront : front = text.take chunk.basePosition ++ [carry]) :
    Fits r context text ((promptTokens models prompt).length + n) chunk := by
  obtain ⟨guessed, hguessed, hlength⟩ := hd.lined.final_eq
  have hn : n < (targetOf models prompt).rounds r.call := by
    apply lt_of_le_of_ne hd.le
    intro heq
    rw [hd.finished.mpr heq] at hgoing
    cases hgoing
  have hbase : chunk.basePosition + 1 =
      (promptTokens models prompt).length + n + 1 + guessed.length := by
    have hlengths := congrArg List.length (hfront.symm.trans hguessed)
    rw [List.length_append, List.length_append, List.length_take, Nat.min_eq_left hreach,
      Target.length_text] at hlengths
    exact hlengths
  have hcount : guessed.length ≤ r.draftTokens * r.maxInflight := by
    rw [hlength]
    exact Nat.mul_le_mul_left _ (countP_live_le hphase hfree)
  have hroom := hsuits.room
  rw [Nat.mul_succ] at hroom
  exact ⟨hguesses, hreach, by omega, by omega⟩

lemma Flow.draft (hsuits : r.Suits context models prompt) (hf : s.Flow r)
    (hphase : s.sender.phase = .waiting) (hopen : senderFinished s.hops = false)
    (hfree : s.inflight.length < r.maxInflight) (hgoing : s.finished = false) :
    (s.draft r).Flow r := by
  obtain ⟨base, carry, state, guesses, -, -, hdraft⟩ := draft_eq (s := s) hsuits.agrees
  rw [hdraft]
  constructor
  · exact hf.quiet
  · exact hf.counted
  · exact hf.closing
  · exact hf.passes
  · obtain ⟨finished, hhead, -⟩ := hf.head
    rw [hphase] at hhead
    refine ⟨finished, hhead, ?_⟩
    intro hfinished
    rw [senderFinished_of_headFlags hhead, hfinished] at hopen
    cases hopen
  · exact hfree
  · intro hdone
    rw [(hf.ended hdone).2.1] at hgoing
    cases hgoing

lemma Decoding.draft (hsuits : r.Suits context models prompt)
    (hd : s.Decoding r context models prompt stages replies n text front)
    (hphase : s.sender.phase = .waiting) (hgoing : s.finished = false)
    (hfree : s.inflight.length < r.maxInflight) :
    (s.draft r).Decoding r context models prompt stages replies n text front := by
  obtain ⟨base, carry, state, guesses, hguesses, hstart, hdraft⟩ :=
    draft_eq (s := s) hsuits.agrees
  obtain ⟨hreach, hfront⟩ := hd.reaches hphase hgoing hstart
  have hfits : Fits r context text ((promptTokens models prompt).length + n)
      ⟨s.epoch, base, guesses⟩ := hd.fits hsuits hphase hgoing hfree hguesses hreach hfront
  have hsent := (draft_sent hsuits.agrees hphase).1
  have hchunks := (sent_of_waiting hphase).2
  rw [hdraft] at hsent ⊢
  constructor
  · exact hd.le
  · exact hd.output
  · exact hd.finished
  · exact hd.same
  · exact hd.on
  · exact hd.reach
  · exact hd.right
  · rw [hsent]
    exact hd.lined
  · exact hd.verdict
  · intro chunk hchunk
    rw [chunks, hsent] at hchunk
    rcases List.mem_append.mp hchunk with hold | hnew
    · exact hd.epochs chunk (hchunks ▸ hold)
    · rw [List.mem_singleton.mp hnew]
  · rintro chunk ⟨⟩
    refine ⟨hfits, rfl, ?_⟩
    simp [live, PipelineState.interrupted, hgoing]
  · intro hstopped
    simp [PipelineState.interrupted, hgoing] at hstopped
  · intro _
    exact ⟨hreach, hfront⟩

/-- A chunk more in the pipeline is one less to draft. -/
lemma weight_draft (hsuits : r.Suits context models prompt) (hphase : s.sender.phase = .waiting)
    (hgoing : s.finished = false) (hfree : s.inflight.length < r.maxInflight) (t : Target) :
    (s.draft r).weight r t < s.weight r t := by
  obtain ⟨base, carry, state, guesses, -, -, hdraft⟩ := draft_eq (s := s) hsuits.agrees
  have hcount := countP_live_le hphase hfree
  have hchunks := (sent_of_waiting hphase).2
  have hlive : (s.draft r).live = s.live := by rw [hdraft]; rfl
  have hcount' : (s.draft r).chunks.countP (s.draft r).live = s.sent.countP s.live + 1 := by
    obtain ⟨-, base, guesses, hdrafted⟩ := draft_sent (s := s) hsuits.agrees hphase
    rw [hdrafted, hlive, List.countP_append, List.countP_singleton]
    simp [live, hgoing]
  have hbudget : (s.draft r).budget r t + 1 ≤ s.budget r t := by
    rw [budget, budget, hcount', hchunks, hgoing]
    rw [hdraft]
    simp only [hgoing, Bool.false_eq_true, if_false]
    omega
  have hsteps : (s.draft r).steps = s.steps + (3 * s.hops.length + 2) := by
    rw [steps, steps, hdraft, hphase]
    simp only [SenderPhase.unsent, List.length_cons, List.length_nil]
    omega
  have hlength : (s.draft r).hops = s.hops := by rw [hdraft]
  have hmul := Nat.mul_le_mul_left (3 * s.hops.length + 3) hbudget
  rw [Nat.mul_add] at hmul
  rw [weight, weight, hsteps, hlength]
  omega

lemma send_sent (r : PipelineRun σ) {chunk : SpeculativeChunk}
    (hphase : s.sender.phase = .drafted chunk) :
    (s.send r chunk).sent = s.sent ++ [chunk] ∧ (s.send r chunk).chunks = s.chunks := by
  have hsent : (s.send r chunk).sent = s.sent ++ [chunk] := by
    simp [sent, send, hphase, SenderPhase.uncounted]
  refine ⟨hsent, ?_⟩
  rw [chunks, chunks, hsent, hphase]
  exact List.append_nil _

lemma Flow.send (hf : s.Flow r) {chunk : SpeculativeChunk}
    (hphase : s.sender.phase = .drafted chunk)
    (hpasses : Chain.SerialPasses Connection.serve (Relayable r.call) s.drained.1
      (chunkFrame r s.sender.carry chunk)) :
    (s.send r chunk).Flow r := by
  obtain ⟨finished, hhead, hfinished⟩ := hf.head
  rw [hphase] at hhead
  obtain ⟨hplaced, hhead'⟩ := placeFirst_placed (c := r.call) (chunkFrame r s.sender.carry chunk)
    hhead
  constructor
  · exact hf.quiet
  · exact hplaced.counted hf.counted
  · exact hplaced.closing hf.closing
  · exact hplaced.passes hf.passes hpasses
  · refine ⟨finished, hhead', ?_⟩
    intro hdone
    rw [hphase] at hfinished
    cases (hfinished hdone).2
  · have hbound := hf.bound
    rw [hphase] at hbound
    exact hbound
  · intro hdone
    have hwaiting := (hf.ended hdone).2.2
    rw [hphase] at hwaiting
    cases hwaiting

lemma drained_send (hf : s.Flow r) {chunk : SpeculativeChunk}
    (hphase : s.sender.phase = .drafted chunk) :
    (s.send r chunk).drained =
      ((Chain.serial Connection.serve s.drained.1 (chunkFrame r s.sender.carry chunk)).1,
        s.drained.2 ++
          [(Chain.serial Connection.serve s.drained.1 (chunkFrame r s.sender.carry chunk)).2]) := by
  obtain ⟨finished, hhead, -⟩ := hf.head
  rw [hphase] at hhead
  exact (placeFirst_placed (c := r.call) (chunkFrame r s.sender.carry chunk) hhead).1.feed

lemma weight_send (hf : s.Flow r) {chunk : SpeculativeChunk}
    (hphase : s.sender.phase = .drafted chunk) (t : Target) :
    (s.send r chunk).weight r t < s.weight r t := by
  obtain ⟨finished, hhead, -⟩ := hf.head
  rw [hphase] at hhead
  have hplaced := (placeFirst_placed (c := r.call) (chunkFrame r s.sender.carry chunk) hhead).1
  have hweight := hplaced.weight
  apply weight_lt hplaced.length
  · rw [budget, budget, (send_sent r hphase).2]
    exact le_rfl
  · rw [steps, steps, hphase, show (s.send r chunk).hops.length = s.hops.length from hplaced.length]
    change _ * 0 + hopsWeight (placeFirst _ _) + _ < _ * 1 + _ + _
    rw [hweight]
    change _ + s.receiver.steps < _
    omega

/-- A chunk on its way: the stages will have decoded it after the text before it. -/
lemma Decoding.send (hsuits : r.Suits context models prompt)
    (hd : s.Decoding r context models prompt s.drained.1 replies n text front)
    {chunk : SpeculativeChunk} (hphase : s.sender.phase = .drafted chunk) :
    Chain.SerialPasses Connection.serve (Relayable r.call) s.drained.1
        (chunkFrame r s.sender.carry chunk) ∧
      ∃ text' front', (s.send r chunk).Decoding r context models prompt
        (Chain.serial Connection.serve s.drained.1 (chunkFrame r s.sender.carry chunk)).1
        (replies ++
          [(Chain.serial Connection.serve s.drained.1 (chunkFrame r s.sender.carry chunk)).2])
        n text' front' := by
  obtain ⟨hfits, hbase, hlive⟩ := hd.unsent chunk hphase
  obtain ⟨hsent, hchunks⟩ := send_sent r hphase
  obtain ⟨hreply, hmodels, hon, hpasses⟩ := serial_chunk s.sender.carry hsuits.send hd.on
    (by rw [hd.same]; exact hsuits.wire) hfits.guesses hsuits.width hfits.reach hfits.room
  have hblock : (blockOf s.sender.carry chunk).length = chunk.guesses.length :=
    length_blockOf s.sender.carry (by rw [hfits.guesses]; exact hsuits.width.1)
  have hkept : (promptTokens models prompt).length + n ≤ (text.take chunk.basePosition).length := by
    rw [List.length_take, Nat.min_eq_left hfits.reach]
    exact hfits.kept
  have hright : (text.take chunk.basePosition ++ blockOf s.sender.carry chunk).take
      ((promptTokens models prompt).length + n) = (targetOf models prompt).text n := by
    rw [List.take_append_of_le_length hkept, List.take_take, Nat.min_eq_left hfits.kept, hd.right]
  have hguesses : 1 ≤ chunk.guesses.length := hfits.guesses ▸ hsuits.width.1
  -- a live chunk is checked against the text before it, as the stages will have it
  have hlined : ∃ front', Lined r.call (nextToken models) r.draftTokens s.live
      ((targetOf models prompt).text (n + 1)) (s.sent ++ [chunk])
      (s.receiver.held.map (·.2) ++ replies ++ [chunkReply r.call chunk
        ((blockOf s.sender.carry chunk).prefixMap fun b =>
          nextToken models (text.take chunk.basePosition ++ b))]) front' ∧
      (s.interrupted = true → front' = front) ∧
      (s.interrupted = false → front' = front ++ chunk.guesses) := by
    cases hstopped : s.interrupted with
    | true =>
      rw [hstopped] at hlive
      refine ⟨front, ?_, fun _ => rfl, by simp⟩
      apply hd.lined.concat_stale hlive hfits.guesses
      rw [List.length_prefixMap, hblock, hfits.guesses]
    | false =>
      rw [hstopped] at hlive
      obtain ⟨-, hfront⟩ := hd.continued hstopped
      have hfrontier : s.frontier r = (chunk.basePosition, s.sender.carry) := by
        rw [frontier, hphase, hbase]
      rw [hfrontier] at hfront
      refine ⟨front ++ chunk.guesses, ?_, by simp, fun _ => rfl⟩
      have hsamples := Decode.prefixMap_cons_eq_samples (nextToken models)
        (text.take chunk.basePosition) s.sender.carry (List.length_pos_iff.mp hguesses)
      rw [blockOf, hsamples, ← hfront]
      apply hd.lined.concat_current hlive hfits.guesses
      rw [hfront, List.length_append, List.length_take, Nat.min_eq_left hfits.reach]
      rfl
  obtain ⟨front', hlined, hsame, hlonger⟩ := hlined
  refine ⟨hpasses, text.take chunk.basePosition ++ blockOf s.sender.carry chunk, front', ?_⟩
  rw [hreply, hd.same]
  constructor
  · exact hd.le
  · exact hd.output
  · exact hd.finished
  · exact hmodels.trans hd.same
  · exact hon
  · rw [List.length_append]
    omega
  · exact hright
  · rw [hsent, ← List.append_assoc]
    exact hlined
  · exact hd.verdict
  · rw [hchunks]
    exact hd.epochs
  · rintro _ ⟨⟩
  · intro hstopped
    rw [hsame hstopped]
    exact hd.stopped hstopped
  · intro hgoing
    obtain ⟨-, hfront⟩ := hd.continued hgoing
    have hfrontier : s.frontier r = (chunk.basePosition, s.sender.carry) := by
      rw [frontier, hphase, hbase]
    have hfrontier' : (s.send r chunk).frontier r =
        (chunk.basePosition + r.draftTokens, chunk.guesses.getLastD 0) := by
      rw [hbase]
      rfl
    have hlength : (text.take chunk.basePosition ++ blockOf s.sender.carry chunk).length =
        chunk.basePosition + r.draftTokens := by
      rw [List.length_append, List.length_take, Nat.min_eq_left hfits.reach, hblock, hfits.guesses]
    rw [hfrontier] at hfront
    rw [hfrontier', hlonger hgoing, hfront]
    refine ⟨hlength.ge, ?_⟩
    rw [List.take_of_length_le hlength.le, List.append_assoc, List.append_assoc,
      blockOf_concat _ hguesses, List.singleton_append]

/-- Counting changes nothing but where the chunk is listed. -/
lemma count_sent (r : PipelineRun σ) {chunk : SpeculativeChunk}
    (hphase : s.sender.phase = .placed chunk) :
    (s.count r chunk).sent = s.sent ∧ (s.count r chunk).chunks = s.chunks := by
  have hsent : (s.count r chunk).sent = s.sent := by
    simp [sent, count, hphase, SenderPhase.uncounted]
  refine ⟨hsent, ?_⟩
  rw [chunks, chunks, hsent, hphase]
  rfl

/-- A sender that has sent something is not finished. -/
lemma Flow.head_placed (hf : s.Flow r) {chunk : SpeculativeChunk}
    (hphase : s.sender.phase = .placed chunk) : headFlags s.hops = some (true, false) := by
  obtain ⟨finished, hhead, hfinished⟩ := hf.head
  rw [hphase] at hhead hfinished
  cases finished with
  | true => cases (hfinished rfl).2
  | false => exact hhead

lemma Flow.count (hf : s.Flow r) {chunk : SpeculativeChunk}
    (hphase : s.sender.phase = .placed chunk) : (s.count r chunk).Flow r := by
  obtain ⟨hmarked, hhead⟩ := countFirst_marked (hf.head_placed hphase)
  constructor
  · exact hf.quiet
  · exact hmarked.counted hf.counted
  · exact hmarked.closing hf.closing
  · rw [show nodesOf (s.count r chunk).hops = nodesOf s.hops from hmarked.nodes]
    exact hf.passes
  · exact ⟨false, hhead, by simp⟩
  · have hbound := hf.bound
    rw [hphase] at hbound
    simpa [PipelineState.count, SenderPhase.uncounted, SenderPhase.unsent] using hbound
  · intro hdone
    have hwaiting := (hf.ended hdone).2.2
    rw [hphase] at hwaiting
    cases hwaiting

lemma drained_count (hf : s.Flow r) {chunk : SpeculativeChunk}
    (hphase : s.sender.phase = .placed chunk) : (s.count r chunk).drained = s.drained := by
  rw [drained, drained,
    show nodesOf (s.count r chunk).hops = nodesOf s.hops from
      (countFirst_marked (hf.head_placed hphase)).1.nodes]

lemma weight_count (hf : s.Flow r) {chunk : SpeculativeChunk}
    (hphase : s.sender.phase = .placed chunk) (t : Target) :
    (s.count r chunk).weight r t < s.weight r t := by
  have hmarked := (countFirst_marked (hf.head_placed hphase)).1
  have hweight := hmarked.weight
  apply weight_lt hmarked.length
  · rw [budget, budget, (count_sent r hphase).2]
    exact le_rfl
  · rw [steps, steps, hphase,
      show (s.count r chunk).hops.length = s.hops.length from hmarked.length]
    change _ * 0 + hopsWeight (countFirst s.hops) + s.receiver.steps < _ * 0 + _ + _
    omega

lemma Decoding.count (hd : s.Decoding r context models prompt stages replies n text front)
    {chunk : SpeculativeChunk} (hphase : s.sender.phase = .placed chunk) :
    (s.count r chunk).Decoding r context models prompt stages replies n text front := by
  obtain ⟨hsent, hchunks⟩ := count_sent r hphase
  constructor
  · exact hd.le
  · exact hd.output
  · exact hd.finished
  · exact hd.same
  · exact hd.on
  · exact hd.reach
  · exact hd.right
  · rw [hsent]
    exact hd.lined
  · exact hd.verdict
  · rw [hchunks]
    exact hd.epochs
  · rintro _ ⟨⟩
  · exact hd.stopped
  · intro hgoing
    have hcontinued := hd.continued hgoing
    rw [frontier, hphase] at hcontinued
    exact hcontinued

lemma Flow.finishSender (hf : s.Flow r) (hphase : s.sender.phase = .waiting)
    (hopen : senderFinished s.hops = false) (hfinished : s.finished = true) :
    Flow r { s with hops := finishFirst s.hops } ∧ FirstMarked s.hops (finishFirst s.hops) := by
  obtain ⟨finished, hhead, -⟩ := hf.head
  rw [senderFinished_of_headFlags hhead] at hopen
  rw [hopen] at hhead
  obtain ⟨hmarked, hhead'⟩ := finishFirst_marked hhead
  refine ⟨?_, hmarked⟩
  constructor
  · exact hf.quiet
  · exact hmarked.counted hf.counted
  · exact hmarked.closing hf.closing
  · rw [hmarked.nodes]
    exact hf.passes
  · exact ⟨true, hhead', fun _ => ⟨hfinished, hphase⟩⟩
  · exact hf.bound
  · intro hdone
    have hweight := hmarked.weight
    rw [(hf.ended hdone).1] at hweight
    exact absurd hweight (Nat.not_lt_zero _)

end sender

/-! ### The receiver -/

section receiver

variable {r : PipelineRun σ} {s : PipelineState H σ} {context : Nat} {models : List (StageModel H)}
  {prompt : String} {stages : List (Connection H)} {replies : List (Frame H)} {n : Nat}
  {text front : List Token} {hops' : List (Hop H)} {response : Frame H}
  {chunk : SpeculativeChunk} {chunks : List SpeculativeChunk}

/-- A reply that can be read belongs to a chunk that is queued. -/
lemma inflight_ne_nil (hf : s.Flow r)
    (hd : s.Decoding r context models prompt s.drained.1 s.drained.2 n text front)
    (hwaiting : s.receiver = .waiting) (ht : takeLast s.hops = some (response, hops')) :
    s.inflight ≠ [] := by
  obtain ⟨finished, hhead, -⟩ := hf.head
  have hload := load_of_takeLast hf.counted hhead ht
  have hlength := hd.lined.length
  rw [hwaiting, sent, hwaiting] at hlength
  have hreplies : s.drained.2.length = Chain.load (nodesOf s.hops) := by
    rw [drained, Chain.length_feed]
    rfl
  intro hnone
  rw [hnone] at hlength
  simp only [ReceiverPhase.held, List.map_nil, List.nil_append] at hlength
  rw [hreplies] at hlength
  cases hphase : s.sender.phase <;> rw [hphase] at hlength hload <;>
    simp [SenderPhase.uncounted] at hlength hload <;> omega

lemma Flow.receive (hf : s.Flow r) (ht : takeLast s.hops = some (response, hops'))
    (hinflight : s.inflight = chunk :: chunks) (apply : Bool) :
    Flow r { s with
      hops := hops', inflight := chunks, receiver := .holding chunk response apply } := by
  have htaken : LastTaken r.call response s.hops hops' := takeLast_taken ht
  constructor
  · exact hf.quiet
  · exact htaken.counted hf.counted
  · exact htaken.closing hf.closing
  · exact htaken.passes _ hf.passes
  · obtain ⟨finished, hhead, hfinished⟩ := hf.head
    exact ⟨finished, htaken.head.trans hhead, hfinished⟩
  · have hbound := hf.bound
    rw [hinflight, List.length_cons] at hbound
    dsimp only
    omega
  · rintro ⟨⟩

lemma Decoding.receive
    (hd : s.Decoding r context models prompt stages (response :: replies) n text front)
    (hwaiting : s.receiver = .waiting) (hinflight : s.inflight = chunk :: chunks) :
    Decoding r { s with
        hops := hops', inflight := chunks, receiver := .holding chunk response (s.live chunk) }
      context models prompt stages replies n text front := by
  have hsent : sent { s with
      hops := hops', inflight := chunks, receiver := .holding chunk response (s.live chunk) } =
        s.sent := by
    simp [sent, hwaiting, hinflight, ReceiverPhase.held]
  constructor
  · exact hd.le
  · exact hd.output
  · exact hd.finished
  · exact hd.same
  · exact hd.on
  · exact hd.reach
  · exact hd.right
  · have hlined := hd.lined
    rw [hwaiting] at hlined
    rw [hsent]
    exact hlined
  · rintro chunk' response' apply' ⟨⟩
    rfl
  · rw [PipelineState.chunks, hsent]
    exact hd.epochs
  · exact hd.unsent
  · exact hd.stopped
  · exact hd.continued

lemma weight_receive (hwaiting : s.receiver = .waiting)
    (ht : takeLast s.hops = some (response, hops')) (hinflight : s.inflight = chunk :: chunks)
    (t : Target) (apply : Bool) :
    weight r { s with
      hops := hops', inflight := chunks, receiver := .holding chunk response apply } t <
        s.weight r t := by
  have htaken : LastTaken r.call response s.hops hops' := takeLast_taken ht
  have hweight := htaken.weight
  have hsent : PipelineState.chunks { s with
      hops := hops', inflight := chunks, receiver := .holding chunk response apply } =
        s.chunks := by
    simp [PipelineState.chunks, sent, hwaiting, hinflight, ReceiverPhase.held]
  apply weight_lt htaken.length
  · rw [budget, budget, hsent]
    exact le_rfl
  · rw [steps, steps, hwaiting]
    simp only [ReceiverPhase.steps, htaken.length]
    omega

/-- The chunk whose reply is held is the oldest one. -/
lemma sent_of_holding {apply : Bool} (hholding : s.receiver = .holding chunk response apply) :
    s.sent = chunk :: sent { s with receiver := .waiting } ∧
      s.chunks = chunk :: PipelineState.chunks { s with receiver := .waiting } := by
  simp [PipelineState.chunks, sent, hholding, ReceiverPhase.held]

lemma Flow.settle (hf : s.Flow r) (output : RequestResult) (epoch : Nat)
    (correction : Option (Nat × Token)) {finished : Bool}
    (hfinished : s.finished = true → finished = true) :
    Flow r { s with receiver := .waiting, output, epoch, correction, finished } := by
  constructor
  · exact hf.quiet
  · exact hf.counted
  · exact hf.closing
  · exact hf.passes
  · obtain ⟨done, hhead, hdone⟩ := hf.head
    exact ⟨done, hhead, fun h => ⟨hfinished (hdone h).1, (hdone h).2⟩⟩
  · exact hf.bound
  · rintro ⟨⟩

/-- The reply to a chunk that is not live is only counted. -/
lemma Decoding.discard {apply : Bool}
    (hd : s.Decoding r context models prompt stages replies n text front)
    (hholding : s.receiver = .holding chunk response apply) (hlive : s.live chunk = false) :
    Decoding r { s with receiver := .waiting } context models prompt stages replies n text
      front := by
  obtain ⟨hsent, hchunks⟩ := sent_of_holding hholding
  have hlined := hd.lined
  rw [hsent, hholding] at hlined
  constructor
  · exact hd.le
  · exact hd.output
  · exact hd.finished
  · exact hd.same
  · exact hd.on
  · exact hd.reach
  · exact hd.right
  · cases hlined with
    | stale _ _ _ hrest => exact hrest
    | current hlive' => rw [hlive] at hlive'; cases hlive'
  · rintro _ _ _ ⟨⟩
  · intro chunk' hchunk'
    exact hd.epochs chunk' (by rw [hchunks]; exact List.mem_cons_of_mem _ hchunk')
  · exact hd.unsent
  · exact hd.stopped
  · exact hd.continued

lemma weight_discard {apply : Bool} (hholding : s.receiver = .holding chunk response apply)
    (hlive : s.live chunk = false) (t : Target) :
    weight r { s with receiver := .waiting } t < s.weight r t := by
  apply weight_lt
  · rfl
  · rw [budget, budget, (sent_of_holding hholding).2, List.countP_cons_of_neg (by simp [hlive])]
    exact le_rfl
  · rw [steps, steps, hholding]
    exact Nat.lt_succ_self _

/-- A reply that is applied makes the answer longer, which is worth a full pipeline. -/
lemma weight_apply {apply : Bool} (hholding : s.receiver = .holding chunk response apply)
    {t : Target} {m : Nat} (hgoing : s.finished = false)
    (houtput : s.output = t.resultAfter r.call.sink n) (hm : n < m) (hrounds : m ≤ t.rounds r.call)
    (epoch : Nat) (correction : Option (Nat × Token)) (finished : Bool) :
    weight r { s with
      receiver := .waiting, output := t.resultAfter r.call.sink m, epoch, correction, finished } t <
        s.weight r t := by
  have hlength : ∀ k, (t.resultAfter r.call.sink k).tokenIds.length = k + 1 := by
    intro k
    simp [Target.resultAfter]
  apply weight_lt
  · rfl
  · rw [budget, budget, houtput, hlength, hgoing]
    dsimp only
    rw [hlength]
    have hstep : (r.maxInflight + 1) * (t.rounds r.call + 1 - (m + 1)) + (r.maxInflight + 1) ≤
        (r.maxInflight + 1) * (t.rounds r.call + 1 - (n + 1)) := by
      rw [← Nat.mul_succ]
      exact Nat.mul_le_mul_left _ (by omega)
    rw [if_neg Bool.false_ne_true]
    by_cases hdone : finished = true
    · rw [if_pos hdone]
      exact Nat.zero_le _
    · rw [if_neg hdone]
      omega
  · rw [steps, steps, hholding]
    exact Nat.lt_succ_self _

/-- Where the live chunk that is applied stands: it starts after the answer so far, the sender has
not been stopped, and what the stages will have decoded agrees with its guesses. -/
lemma Decoding.applied {apply : Bool}
    (hd : s.Decoding r context models prompt stages replies n text front)
    (hsuits : r.Suits context models prompt)
    (hholding : s.receiver = .holding chunk response apply) (hlive : s.live chunk = true) :
    n < (targetOf models prompt).rounds r.call ∧ s.finished = false ∧ s.interrupted = false ∧
      chunk.guesses.length = r.draftTokens ∧
      chunk.basePosition = (promptTokens models prompt).length + n ∧
      response = chunkReply r.call chunk (Decode.samples (nextToken models)
        ((targetOf models prompt).text (n + 1)) chunk.guesses) ∧
      Lined r.call (nextToken models) r.draftTokens s.live
        ((targetOf models prompt).text (n + 1) ++ chunk.guesses)
        (sent { s with receiver := .waiting }) replies front := by
  have hlined := hd.lined
  rw [(sent_of_holding hholding).1, hholding] at hlined
  cases hlined with
  | stale hlive' => rw [hlive] at hlive'; cases hlive'
  | current _ hguesses hbase hrest =>
    have hgoing : s.finished = false := by
      simp only [live, Bool.and_eq_true, Bool.not_eq_true'] at hlive
      exact hlive.1
    have hn : n < (targetOf models prompt).rounds r.call := by
      apply lt_of_le_of_ne hd.le
      intro heq
      rw [hd.finished.mpr heq] at hgoing
      cases hgoing
    have hfree : s.interrupted = false := by
      by_contra hstopped
      obtain ⟨hfront, -⟩ := hd.stopped (by simpa using hstopped)
      obtain ⟨guessed, hguessed, -⟩ := hrest.final_eq
      have hlengths := congrArg List.length (hfront.symm.trans hguessed)
      have hwidth := hsuits.width.1
      simp only [List.length_append, hguesses] at hlengths
      omega
    rw [Target.length_text] at hbase
    exact ⟨hn, hgoing, hfree, hguesses, Nat.succ_injective hbase, rfl, hrest⟩

/-- What the stages will have decoded is right up to every token the guesses have right. -/
lemma Decoding.right_of_guesses
    (hd : s.Decoding r context models prompt stages replies n text front)
    (hfree : s.interrupted = false) {guesses : List Token} {m : Nat}
    {chunks : List SpeculativeChunk}
    (hrest : Lined r.call (nextToken models) r.draftTokens s.live
      ((targetOf models prompt).text (n + 1) ++ guesses) chunks replies front)
    (hm : m ≤ n + guesses.length)
    (htext : ((targetOf models prompt).text (n + 1) ++ guesses).take
      ((promptTokens models prompt).length + m) = (targetOf models prompt).text m) :
    (promptTokens models prompt).length + m ≤ (s.frontier r).1 ∧
      (promptTokens models prompt).length + m ≤ text.length ∧
      text.take ((promptTokens models prompt).length + m) = (targetOf models prompt).text m := by
  obtain ⟨hreach, hfront⟩ := hd.continued hfree
  obtain ⟨guessed, hguessed, -⟩ := hrest.final_eq
  have hprompt : (targetOf models prompt).prompt.length = (promptTokens models prompt).length := rfl
  have hlengths := congrArg List.length (hfront.symm.trans hguessed)
  simp only [List.length_append, List.length_take, Nat.min_eq_left hreach, Target.length_text,
    List.length_singleton] at hlengths
  have hbase : (promptTokens models prompt).length + m ≤ (s.frontier r).1 := by omega
  refine ⟨hbase, hbase.trans hreach, ?_⟩
  have htaken : (text.take (s.frontier r).1).take ((promptTokens models prompt).length + m) =
      front.take ((promptTokens models prompt).length + m) := by
    rw [hfront, List.take_append_of_le_length (by rwa [List.length_take, Nat.min_eq_left hreach])]
  rw [List.take_take, Nat.min_eq_left hbase] at htaken
  rw [htaken, hguessed, List.take_append_of_le_length (by
    rw [List.length_append, Target.length_text]
    omega), htext]

/-- A reply that ends the request or corrects the sender: no chunk in flight matters any more. -/
lemma Decoding.stop {apply : Bool}
    (hd : s.Decoding r context models prompt stages replies n text front)
    (hsuits : r.Suits context models prompt)
    (hholding : s.receiver = .holding chunk response apply) (hlive : s.live chunk = true) {m : Nat}
    (hm : m ≤ n + chunk.guesses.length) (hrounds : m ≤ (targetOf models prompt).rounds r.call)
    (htext : ((targetOf models prompt).text (n + 1) ++ chunk.guesses).take
      ((promptTokens models prompt).length + m) = (targetOf models prompt).text m)
    {finished : Bool} {epoch : Nat} {correction : Option (Nat × Token)}
    (hfinished : finished = true ↔ m = (targetOf models prompt).rounds r.call)
    (hepoch : s.epoch ≤ epoch) (hdead : finished = true ∨ s.epoch < epoch)
    (hcorrection : finished = true ∨ correction = some ((promptTokens models prompt).length + m,
      nextToken models ((targetOf models prompt).text m))) :
    Decoding r { s with
        receiver := .waiting, output := (targetOf models prompt).resultAfter r.call.sink m, epoch,
        correction, finished }
      context models prompt stages replies m text ((targetOf models prompt).text (m + 1)) := by
  obtain ⟨-, -, hfree, hguesses, -, -, hrest⟩ := hd.applied hsuits hholding hlive
  obtain ⟨hbase, hreach, hright⟩ := hd.right_of_guesses hfree hrest hm htext
  have hchunks := (sent_of_holding hholding).2
  have hepochs : ∀ chunk ∈ PipelineState.chunks { s with receiver := .waiting },
      chunk.epoch ≤ s.epoch := by
    intro chunk' hchunk'
    exact hd.epochs chunk' (by rw [hchunks]; exact List.mem_cons_of_mem _ hchunk')
  have hstopped : (finished || correction.isSome) = true := by
    rcases hcorrection with h | h <;> simp [h]
  have hnone : ∀ chunk : SpeculativeChunk, chunk.epoch ≤ s.epoch →
      (!finished && decide (chunk.epoch = epoch)) = false := by
    intro chunk' hle
    rcases hdead with hdone | hlt
    · simp [hdone]
    · simp [show chunk'.epoch ≠ epoch by omega]
  constructor
  · exact hrounds
  · rfl
  · exact hfinished
  · exact hd.same
  · exact hd.on
  · exact hreach
  · exact hright
  · apply hrest.discard
    intro chunk' hchunk'
    exact hnone chunk' (hepochs chunk' (List.mem_append_left _ hchunk'))
  · rintro _ _ _ ⟨⟩
  · intro chunk' hchunk'
    exact (hepochs chunk' hchunk').trans hepoch
  · intro chunk' hphase
    obtain ⟨hfits, hat, -⟩ := hd.unsent chunk' hphase
    have hfrontier : s.frontier r = (s.sender.basePosition, s.sender.carry) := by
      rw [frontier, show s.sender.phase = .drafted chunk' from hphase]
    rw [hfrontier, ← hat] at hbase
    refine ⟨⟨hfits.guesses, hfits.reach, hbase, hfits.room⟩, hat, ?_⟩
    have hmem : chunk' ∈ PipelineState.chunks { s with receiver := .waiting } := by
      apply List.mem_append_right
      rw [show s.sender.phase = .drafted chunk' from hphase]
      exact List.mem_singleton_self _
    exact (hnone chunk' (hepochs chunk' hmem)).trans (congrArg Bool.not hstopped.symm)
  · intro _
    refine ⟨rfl, ?_⟩
    intro hgoing
    rcases hcorrection with hdone | hagain
    · rw [show finished = false from hgoing] at hdone
      cases hdone
    · exact hagain
  · intro hgoing
    cases hstopped.symm.trans hgoing

/-- A reply that confirms every guess of its chunk: the chunks behind it stay as they are. -/
lemma Decoding.accept {apply : Bool}
    (hd : s.Decoding r context models prompt stages replies n text front)
    (hsuits : r.Suits context models prompt)
    (hholding : s.receiver = .holding chunk response apply) (hlive : s.live chunk = true)
    (hrounds : n + chunk.guesses.length < (targetOf models prompt).rounds r.call)
    (htext : (targetOf models prompt).text (n + 1) ++ chunk.guesses =
      (targetOf models prompt).text (n + chunk.guesses.length + 1)) :
    Decoding r { s with
        receiver := .waiting
        output := (targetOf models prompt).resultAfter r.call.sink (n + chunk.guesses.length) }
      context models prompt stages replies (n + chunk.guesses.length) text front := by
  obtain ⟨-, hgoing, hfree, hguesses, -, -, hrest⟩ := hd.applied hsuits hholding hlive
  obtain ⟨hbase, hreach, hright⟩ := hd.right_of_guesses hfree hrest le_rfl (by
    rw [htext]
    exact (targetOf models prompt).take_text (Nat.le_succ _))
  constructor
  · exact hrounds.le
  · rfl
  · refine ⟨?_, fun heq => absurd heq hrounds.ne⟩
    intro hdone
    rw [show s.finished = true from hdone] at hgoing
    cases hgoing
  · exact hd.same
  · exact hd.on
  · exact hreach
  · exact hright
  · rw [← htext]
    exact hrest
  · rintro _ _ _ ⟨⟩
  · intro chunk' hchunk'
    exact hd.epochs chunk' (by
      rw [(sent_of_holding hholding).2]
      exact List.mem_cons_of_mem _ hchunk')
  · intro chunk' hphase
    obtain ⟨hfits, hat, hsame⟩ := hd.unsent chunk' hphase
    have hfrontier : s.frontier r = (s.sender.basePosition, s.sender.carry) := by
      rw [frontier, show s.sender.phase = .drafted chunk' from hphase]
    rw [hfrontier, ← hat] at hbase
    exact ⟨⟨hfits.guesses, hfits.reach, hbase, hfits.room⟩, hat, hsame⟩
  · intro hstopped
    rw [show s.interrupted = true from hstopped] at hfree
    cases hfree
  · exact hd.continued

lemma Flow.finishReceiver (hf : s.Flow r)
    (hlast : ∀ h ∈ s.hops.getLast?, h.stageFinished = true ∧ h.unread = 0) :
    Flow r { s with receiver := .done } := by
  obtain ⟨finished, hhead, hfinished⟩ := hf.head
  have hopen : finished = true → (!s.sender.phase.uncounted.isEmpty) = false := by
    intro hdone
    rw [(hfinished hdone).2]
    rfl
  obtain ⟨hzero, hdone⟩ := hopsWeight_of_closed hf.counted hf.closing hhead hopen hlast
  exact { hf with ended := fun _ => ⟨hzero, hfinished hdone⟩ }

lemma Decoding.finishReceiver
    (hd : s.Decoding r context models prompt stages replies n text front)
    (hwaiting : s.receiver = .waiting) :
    Decoding r { s with receiver := .done } context models prompt stages replies n text front := by
  have hsent : sent { s with receiver := .done } = s.sent := by
    rw [sent, sent, hwaiting]
    rfl
  have hlined := hd.lined
  rw [hwaiting] at hlined
  exact { hd with
    lined := by rw [hsent]; exact hlined
    verdict := by rintro _ _ _ ⟨⟩
    epochs := by rw [PipelineState.chunks, hsent]; exact hd.epochs }

end receiver

end PipelineState

end ProviderOwned
