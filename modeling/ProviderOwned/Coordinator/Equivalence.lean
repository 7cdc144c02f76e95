import ProviderOwned.Coordinator.Invariant

/-!
# Pipelined decoding gives the same answer

Whatever order the threads and the stages run in, a pipelined request ends, with the answer that
`generate` gives with the same drafter or without one (`pipelined_eq_generate`), as long as no
chunk is applied whose last guess alone is wrong. Such a chunk passes for one that is right
throughout: the chunks behind it continue a guess that the target has refuted, and their replies
are applied all the same (`echoRoute_pipelined_ne`).
-/

namespace ProviderOwned

variable {H σ : Type*} {r : PipelineRun σ} {s s' : PipelineState H σ} {context : Nat}
  {models : List (StageModel H)} {prompt : String}

def PipelineState.Good (r : PipelineRun σ) (context : Nat) (models : List (StageModel H))
    (prompt : String) (s : PipelineState H σ) : Prop :=
  s.Flow r ∧ ∃ n text front,
    s.Decoding r context models prompt s.drained.1 s.drained.2 n text front

/-- The step is no reply to a chunk whose last guess alone is wrong. -/
def LastGuessesHold (r : PipelineRun σ) (t : Target) (s : PipelineState H σ) (e : PipelineEvent) :
    Prop :=
  e = .apply → ∀ chunk response, s.receiver = .holding chunk response true →
    ¬ LastGuessWrong t r.call (s.output.tokenIds.length - 1) chunk.guesses

lemma pipelineStep_cases {e : PipelineEvent} (h : pipelineStep r s e = some s') :
    senderStep r s e = some s' ∨ routeMove r s e = some s' ∨ receiverStep r s e = some s' := by
  rw [pipelineStep] at h
  split_ifs at h with herror
  cases hsender : senderStep r s e with
  | some s₁ =>
    rw [hsender] at h
    exact .inl h
  | none =>
    rw [hsender] at h
    cases hroute : routeMove r s e with
    | some s₁ =>
      rw [hroute] at h
      exact .inr (.inl h)
    | none =>
      rw [hroute] at h
      exact .inr (.inr h)

namespace PipelineState

/-- A step of the sender. -/
lemma Good.senderStep {e : PipelineEvent} (hsuits : r.Suits context models prompt)
    (hgood : s.Good r context models prompt)
    (h : ProviderOwned.senderStep r s e = some s') :
    s'.Good r context models prompt ∧
      s'.weight r (targetOf models prompt) < s.weight r (targetOf models prompt) := by
  obtain ⟨hf, n, text, front, hd⟩ := hgood
  cases e with
  | draft =>
    simp only [ProviderOwned.senderStep] at h
    split_ifs at h with hready
    cases h
    obtain ⟨hphase, hopen, hgoing, hfree⟩ := hready
    simp only [Bool.not_eq_true'] at hopen hgoing
    have hdrained : (s.draft r).drained = s.drained := by
      obtain ⟨base, carry, state, guesses, -, -, hdraft⟩ := draft_eq (s := s) hsuits.agrees
      rw [drained, hdraft]
      rfl
    refine ⟨⟨hf.draft hsuits hphase hopen hfree hgoing, n, text, front, ?_⟩,
      weight_draft hsuits hphase hgoing hfree _⟩
    rw [hdrained]
    exact hd.draft hsuits hphase hgoing hfree
  | send =>
    simp only [ProviderOwned.senderStep] at h
    split at h
    · next chunk hphase =>
      cases h
      obtain ⟨hpasses, text', front', hd'⟩ := hd.send hsuits hphase
      refine ⟨⟨hf.send hphase hpasses, n, text', front', ?_⟩, weight_send hf hphase _⟩
      rw [drained_send hf hphase]
      exact hd'
    · cases h
  | count =>
    simp only [ProviderOwned.senderStep] at h
    split at h
    · next chunk hphase =>
      cases h
      refine ⟨⟨hf.count hphase, n, text, front, ?_⟩, weight_count hf hphase _⟩
      rw [drained_count hf hphase]
      exact hd.count hphase
    · cases h
  | finishSender =>
    simp only [ProviderOwned.senderStep] at h
    split_ifs at h with hready
    cases h
    obtain ⟨hphase, hopen, hfinished⟩ := hready
    obtain ⟨hflow, hmarked⟩ := hf.finishSender hphase (by simpa using hopen) hfinished
    refine ⟨⟨hflow, n, text, front, ?_⟩, ?_⟩
    · rw [drained, hmarked.nodes]
      exact hd.hops _
    · apply weight_lt hmarked.length
      · exact le_rfl
      · have hweight := hmarked.weight
        simp only [steps, hmarked.length]
        omega
  | _ => cases h

/-- A step of a stage or a relay. -/
lemma Good.routeMove {e : PipelineEvent} (hgood : s.Good r context models prompt)
    (h : ProviderOwned.routeMove r s e = some s') :
    s'.Good r context models prompt ∧
      s'.weight r (targetOf models prompt) < s.weight r (targetOf models prompt) := by
  obtain ⟨hf, n, text, front, hd⟩ := hgood
  have hmoved : ∀ hops', HopsMoved r.call s.hops hops' →
      Good r context models prompt { s with hops := hops' } ∧
        weight r { s with hops := hops' } (targetOf models prompt) <
          s.weight r (targetOf models prompt) := by
    intro hops' hm
    refine ⟨⟨hf.hopsMoved hm, n, text, front, ?_⟩, weight_hopsMoved _ hm⟩
    rw [drained, hm.moved.feed]
    exact hd.hops _
  cases e with
  | work i =>
    obtain ⟨hops', hatHop, rfl⟩ := Option.map_eq_some_iff.mp h
    exact hmoved hops' (atHop_moved workHead_moved hatHop)
  | forward i =>
    obtain ⟨hops', hatHop, rfl⟩ := Option.map_eq_some_iff.mp h
    exact hmoved hops' (atHop_moved forwardHead_moved hatHop)
  | reject i =>
    obtain ⟨hops', hatHop, -⟩ := Option.map_eq_some_iff.mp h
    rw [atHop_rejectHead hf.passes] at hatHop
    cases hatHop
  | countRelay i =>
    obtain ⟨hops', hatHop, rfl⟩ := Option.map_eq_some_iff.mp h
    exact hmoved hops' (atHop_moved countHead_moved hatHop)
  | finishRelay i =>
    obtain ⟨hops', hatHop, rfl⟩ := Option.map_eq_some_iff.mp h
    exact hmoved hops' (atHop_moved finishHead_moved hatHop)
  | _ => cases h

/-- Applying a reply. -/
lemma Good.apply (hsuits : r.Suits context models prompt) (hgood : s.Good r context models prompt)
    (hok : LastGuessesHold r (targetOf models prompt) s .apply)
    (h : ProviderOwned.receiverStep r s .apply = some s') :
    s'.Good r context models prompt ∧
      s'.weight r (targetOf models prompt) < s.weight r (targetOf models prompt) := by
  obtain ⟨hf, n, text, front, hd⟩ := hgood
  simp only [ProviderOwned.receiverStep] at h
  split at h
  · next chunk response apply hholding =>
    obtain rfl := hd.verdict chunk response apply hholding
    cases hlive : s.live chunk with
    | false =>
      have hlined := hd.lined
      rw [(sent_of_holding hholding).1, hholding] at hlined
      obtain ⟨samples, hsamples⟩ := hlined.requireChunk_head
      rw [hsamples, hlive] at h
      cases h
      exact ⟨⟨hf.settle s.output s.epoch s.correction id, n, text, front,
        hd.discard hholding hlive⟩, weight_discard hholding hlive _⟩
    | true =>
      obtain ⟨hn, hgoing, -, hguesses, hbase, hresponse, -⟩ := hd.applied hsuits hholding hlive
      rw [hresponse, requireChunk_chunkReply (Decode.length_samples ..), hlive] at h
      simp only [if_true, Option.some.injEq] at h
      change s.settle r chunk (Decode.samples (targetOf models prompt).next _ _) = s' at h
      have hlength : s.output.tokenIds.length - 1 = n := by
        rw [hd.output]
        simp [Target.resultAfter]
      have hright : ¬ LastGuessWrong (targetOf models prompt) r.call n chunk.guesses := by
        rw [← hlength]
        exact hok rfl chunk response (hlive ▸ hholding)
      have hverdict := settle_spec (s := s) hsuits.agrees hn hd.output hbase
        (by rw [hguesses]; exact hsuits.width.1) hright
      rw [h] at hverdict
      cases hverdict with
      | finish m hm hle hrounds htext =>
        exact ⟨⟨hf.settle _ s.epoch s.correction fun _ => rfl, m, text, _,
          hd.stop hsuits hholding hlive hle hrounds.le htext (by simp [hrounds]) le_rfl (.inl rfl)
            (.inl rfl)⟩,
          weight_apply hholding hgoing hd.output hm hrounds.le s.epoch s.correction true⟩
      | correct m hm hlt hrounds htext =>
        refine ⟨⟨hf.settle _ (s.epoch + 1) _ id, m, text, _,
          hd.stop hsuits hholding hlive hlt.le hrounds.le htext ?_ (Nat.le_succ _)
            (.inr (Nat.lt_succ_self _)) (.inr rfl)⟩,
          weight_apply hholding hgoing hd.output hm hrounds.le _ _ s.finished⟩
        simp [hgoing, hrounds.ne]
      | accept hrounds htext =>
        refine ⟨⟨hf.settle _ s.epoch s.correction id, _, text, front,
          hd.accept hsuits hholding hlive hrounds htext⟩,
          weight_apply hholding hgoing hd.output ?_ hrounds.le s.epoch s.correction s.finished⟩
        have hwidth := hsuits.width.1
        omega
  · cases h

/-- A step of the receiver. -/
lemma Good.receiverStep {e : PipelineEvent} (hsuits : r.Suits context models prompt)
    (hgood : s.Good r context models prompt)
    (hok : LastGuessesHold r (targetOf models prompt) s e)
    (h : ProviderOwned.receiverStep r s e = some s') :
    s'.Good r context models prompt ∧
      s'.weight r (targetOf models prompt) < s.weight r (targetOf models prompt) := by
  cases e with
  | apply => exact hgood.apply hsuits hok h
  | receive =>
    obtain ⟨hf, n, text, front, hd⟩ := hgood
    simp only [ProviderOwned.receiverStep] at h
    split at h
    · next response hops' hwaiting htake =>
      split at h
      · next hnone => exact absurd hnone (inflight_ne_nil hf hd hwaiting htake)
      · next chunk chunks hinflight =>
        cases h
        have htaken : LastTaken r.call response s.hops hops' := takeLast_taken htake
        have hdrained : s.drained = ((Chain.feed Connection.serve (nodesOf hops') []).1,
            response :: (Chain.feed Connection.serve (nodesOf hops') []).2) := htaken.feed []
        rw [hdrained] at hd
        exact ⟨⟨hf.receive htake hinflight _, n, text, front, hd.receive hwaiting hinflight⟩,
          weight_receive hwaiting htake hinflight _ _⟩
    · cases h
  | finishReceiver =>
    obtain ⟨hf, n, text, front, hd⟩ := hgood
    simp only [ProviderOwned.receiverStep] at h
    split at h
    · next hwaiting =>
      split_ifs at h with hclosed
      cases h
      refine ⟨⟨hf.finishReceiver ?_, n, text, front, hd.finishReceiver hwaiting⟩, ?_⟩
      · intro last hlast
        rw [show s.hops.getLast? = some last from hlast] at hclosed
        simpa using hclosed
      · apply weight_lt
        · rfl
        · have hchunks : PipelineState.chunks { s with receiver := .done } = s.chunks := by
            rw [PipelineState.chunks, PipelineState.chunks, sent, sent, hwaiting]
            rfl
          rw [budget, budget, hchunks]
          exact le_rfl
        · rw [steps, steps, hwaiting]
          exact Nat.lt_succ_self _
    · cases h
  | _ => cases h

/-- Every step keeps the invariant and lessens what is left to do. -/
lemma Good.step {e : PipelineEvent} (hsuits : r.Suits context models prompt)
    (hgood : s.Good r context models prompt)
    (hok : LastGuessesHold r (targetOf models prompt) s e) (h : pipelineStep r s e = some s') :
    s'.Good r context models prompt ∧
      s'.weight r (targetOf models prompt) < s.weight r (targetOf models prompt) := by
  rcases pipelineStep_cases h with hsender | hroute | hreceiver
  · exact hgood.senderStep hsuits hsender
  · exact hgood.routeMove hroute
  · exact hgood.receiverStep hsuits hok hreceiver

lemma load_of_idle {hops : List (Hop H)} (h : ∀ hop ∈ hops, hop.Idle) :
    Chain.load (nodesOf hops) = 0 := by
  induction hops with
  | nil => rfl
  | cons hop rest ih =>
    rw [List.forall_mem_cons] at h
    simp [nodesOf_cons, Chain.load, h.1.1, h.1.2.1, ih h.2]

/-- The threads never wait for each other: until the receiver has returned, one of them, or a stage,
can go on. -/
lemma Good.progress (hsuits : r.Suits context models prompt)
    (hgood : s.Good r context models prompt) (hrunning : s.receiver ≠ .done) :
    ∃ e s', pipelineStep r s e = some s' := by
  obtain ⟨hf, n, text, front, hd⟩ := hgood
  obtain ⟨finished, hhead, hfinished⟩ := hf.head
  have henabled : ∀ e, ((ProviderOwned.senderStep r s e).isSome ∨
      (ProviderOwned.routeMove r s e).isSome ∨ (ProviderOwned.receiverStep r s e).isSome) →
        ∃ e s', pipelineStep r s e = some s' := by
    intro e he
    refine ⟨e, Option.isSome_iff_exists.mp ?_⟩
    rw [pipelineStep, if_neg (by simp [hf.quiet])]
    simpa [Option.isSome_or] using he
  cases hreceiver : s.receiver with
  | done => exact absurd hreceiver hrunning
  | holding chunk response apply =>
    apply henabled .apply
    simp only [ProviderOwned.receiverStep, hreceiver]
    cases requireChunk r.call response chunk <;> simp
  | waiting =>
    cases hphase : s.sender.phase with
    | drafted chunk => exact henabled .send (.inl (by simp [ProviderOwned.senderStep, hphase]))
    | placed chunk => exact henabled .count (.inl (by simp [ProviderOwned.senderStep, hphase]))
    | waiting =>
      rw [hphase] at hhead
      have hne : s.hops ≠ [] := by
        intro hnil
        rw [hnil] at hhead
        cases hhead
      have hplaced : ∀ h ∈ s.hops.head?, h.placed = false := by
        intro h hh
        rw [headFlags, show s.hops.head? = some h from hh] at hhead
        simpa [SenderPhase.uncounted] using congrArg (fun flags => flags.map Prod.fst) hhead
      rcases exists_hopsMove (c := r.call) hne hf.counted hf.closing hplaced with
        ⟨move, hmove, i, hsome⟩ | htake | ⟨hidle, hlast⟩
      · simp only [hopsMoves, List.mem_cons, List.not_mem_nil, or_false] at hmove
        rcases hmove with rfl | rfl | rfl | rfl | rfl
        · exact henabled (.work i) (.inr (.inl (by simpa [ProviderOwned.routeMove] using hsome)))
        · exact henabled (.forward i) (.inr (.inl (by simpa [ProviderOwned.routeMove] using hsome)))
        · exact henabled (.reject i) (.inr (.inl (by simpa [ProviderOwned.routeMove] using hsome)))
        · exact henabled (.countRelay i)
            (.inr (.inl (by simpa [ProviderOwned.routeMove] using hsome)))
        · exact henabled (.finishRelay i)
            (.inr (.inl (by simpa [ProviderOwned.routeMove] using hsome)))
      · obtain ⟨⟨response, hops'⟩, htaken⟩ := Option.isSome_iff_exists.mp htake
        apply henabled .receive
        simp only [ProviderOwned.receiverStep, hreceiver, htaken]
        cases s.inflight <;> simp
      · -- nothing is on its way: the sender goes on, or the threads end one after the other
        have hnone : s.inflight = [] := by
          have hlength := hd.lined.length
          have hreplies : s.drained.2.length = 0 := by
            rw [drained, Chain.length_feed, load_of_idle hidle]
            rfl
          rw [hreceiver, sent, hreceiver, hphase] at hlength
          simp only [ReceiverPhase.held, SenderPhase.uncounted, List.map_nil, List.nil_append,
            List.append_nil, hreplies] at hlength
          exact List.length_eq_zero_iff.mp hlength.symm
        have hsender := senderFinished_of_headFlags hhead
        cases hdone : s.finished with
        | false =>
          apply henabled .draft
          have hopen : finished = false := by
            by_contra hclosed
            have := (hfinished (by simpa using hclosed)).1
            rw [hdone] at this
            cases this
          have hdepth := hsuits.depth
          left
          simp [ProviderOwned.senderStep, hphase, hsender, hopen, hdone, hnone,
            show 0 < r.maxInflight by omega]
        | true =>
          cases hclosed : finished with
          | false =>
            apply henabled .finishSender
            left
            simp [ProviderOwned.senderStep, hphase, hsender, hclosed, hdone]
          | true =>
            apply henabled .finishReceiver
            right; right
            have hend : s.hops.getLast?.all (fun h => h.stageFinished && h.unread = 0) = true := by
              cases hgetLast : s.hops.getLast? with
              | none => rfl
              | some last =>
                have hflag := hlast (hsender.trans hclosed) last hgetLast
                have hempty := hidle last (List.mem_of_getLast? hgetLast)
                simp [hflag, hempty.2.2]
            simp [ProviderOwned.receiverStep, hreceiver, hend]

end PipelineState

/-! ### The start and the end of a request -/

section request

variable {stages : List (Connection H)} {n : Nat}

lemma closing_idleHops (finished : Bool) (stages : List (Connection H)) :
    Closing (idleHops finished stages) := by
  induction stages with
  | nil => trivial
  | cons c rest ih =>
    cases rest with
    | nil => trivial
    | cons c' rest => exact ⟨fun hdone => ⟨hdone, rfl, rfl⟩, ih⟩

lemma hopsWeight_idleHops (stages : List (Connection H)) :
    hopsWeight (idleHops true stages) = 0 := by
  induction stages with
  | nil => rfl
  | cons c rest ih =>
    have hcons : idleHops true (c :: rest) =
        { node := ⟨[], c, []⟩, stageFinished := true } :: idleHops true rest := rfl
    simp [hcons, hopsWeight, ih]

lemma nodesOf_idleHops (finished : Bool) (stages : List (Connection H)) :
    (∀ n ∈ nodesOf (idleHops finished stages), n.inbox = [] ∧ n.outbox = []) ∧
      (nodesOf (idleHops finished stages)).map (·.state) = stages := by
  constructor
  · intro n hn
    simp only [nodesOf, idleHops, List.map_map, List.mem_map] at hn
    obtain ⟨c, -, rfl⟩ := hn
    exact ⟨rfl, rfl⟩
  · simp [nodesOf, idleHops, Function.comp_def]

lemma promptResult_eq (c : Call) (models : List (StageModel H)) (prompt : String) :
    promptResult c (resultOf models (nextToken models (promptTokens models prompt))
      (promptTokens models prompt).length) = (targetOf models prompt).resultAfter c.sink 0 := by
  have htext : (targetOf models prompt).text 0 = promptTokens models prompt := List.append_nil _
  rw [Target.resultAfter, Target.recorded, htext]
  rfl

lemma Target.ends_at_zero_iff (t : Target) (c : Call) :
    (!c.goesOn (t.resultAfter c.sink 0)) = true ↔ 0 = t.rounds c := by
  rw [Bool.not_eq_true']
  constructor
  · intro hends
    exact (Nat.le_zero.mp (t.le_of_goesOn hends)).symm
  · intro hzero
    rw [hzero]
    exact t.goesOn_rounds c

lemma pipelineInit_flow (hne : stages ≠ []) (state : σ) (output : RequestResult) :
    (pipelineInit r stages state output).Flow r := by
  constructor
  · rfl
  · intro h hh
    obtain ⟨c, -, rfl⟩ := List.mem_map.mp hh
    rfl
  · exact closing_idleHops _ stages
  · exact Chain.passes_idle (nodesOf_idleHops _ stages).1
  · cases stages with
    | nil => exact absurd rfl hne
    | cons c rest => exact ⟨_, rfl, fun hdone => ⟨hdone, rfl⟩⟩
  · exact Nat.zero_le _
  · intro hdone
    cases hgo : r.call.goesOn output with
    | true =>
      rw [pipelineInit, hgo] at hdone
      cases hdone
    | false =>
      rw [pipelineInit, hgo]
      exact ⟨hopsWeight_idleHops stages, rfl, rfl⟩

/-- The state the threads start in, once the prompt is decoded. -/
lemma pipelineInit_good (hon : OnText context r.call.hidden r.call.session r.call.request
      (promptTokens models prompt) stages) (hsame : modelsOf stages = models) (state : σ) :
    (pipelineInit r stages state ((targetOf models prompt).resultAfter r.call.sink 0)).Good r
      context models prompt := by
  have htext : (targetOf models prompt).text 0 = promptTokens models prompt := List.append_nil _
  have hne : stages ≠ [] := by
    rintro rfl
    exact hon.wired
  refine ⟨pipelineInit_flow hne state _, 0, promptTokens models prompt,
    (targetOf models prompt).text 1, ?_⟩
  have hdrained : (pipelineInit r stages state
      ((targetOf models prompt).resultAfter r.call.sink 0)).drained = (stages, []) := by
    obtain ⟨hidle, hstates⟩ := nodesOf_idleHops
      (!r.call.goesOn ((targetOf models prompt).resultAfter r.call.sink 0)) stages
    exact (Chain.feed_idle hidle).trans (by rw [hstates])
  have hheld : (pipelineInit r stages state
      ((targetOf models prompt).resultAfter r.call.sink 0)).receiver.held = [] := by
    rw [pipelineInit]
    dsimp only
    split_ifs <;> rfl
  rw [hdrained]
  constructor
  · exact Nat.zero_le _
  · rfl
  · exact (targetOf models prompt).ends_at_zero_iff r.call
  · exact hsame
  · exact hon
  · exact le_rfl
  · rw [htext]
    exact List.take_length
  · rw [PipelineState.sent, hheld]
    exact .nil _
  · intro chunk response apply hholding
    rw [hholding] at hheld
    cases hheld
  · rw [PipelineState.chunks, PipelineState.sent, hheld]
    rintro chunk ⟨⟩
  · rintro chunk ⟨⟩
  · intro hstopped
    refine ⟨rfl, ?_⟩
    intro hgoing
    rw [PipelineState.interrupted, hgoing] at hstopped
    cases hstopped
  · intro _
    refine ⟨le_rfl, ?_⟩
    change _ = (promptTokens models prompt).take (promptTokens models prompt).length ++
      [(targetOf models prompt).next ((targetOf models prompt).text 0)]
    rw [List.take_length, Target.text_succ, htext]

/-- What a request returns whose threads have ended. -/
lemma PipelineState.Good.close (hsuits : r.Suits context models prompt)
    (hgood : s.Good r context models prompt) (hdone : s.receiver = .done) (preserve : Bool) :
    closePipelined r preserve s =
      (targetOf models prompt).settledResult r.call context preserve := by
  obtain ⟨hf, n, text, front, hd⟩ := hgood
  obtain ⟨hzero, hfinished, -⟩ := hf.ended hdone
  obtain rfl := hd.finished.mp hfinished
  have hdrained : s.drained = (s.hops.map (·.node.state), []) := feed_of_hopsWeight hzero
  rw [hdrained] at hd
  have hroom := hsuits.room
  rw [closePipelined, hf.quiet]
  dsimp only
  rw [hd.output]
  exact closeRequest_spec hsuits.send preserve
    ⟨hd.same, by omega, text, hd.on, hd.reach, hd.right⟩

/-- The prompt: the threads start in a good state, or the request fails, as it would with
`generate`. -/
lemma startPipelined_spec (hsuits : r.Suits context (modelsOf stages) prompt)
    (hfresh : Fresh context r.call.hidden r.call.session r.call.request stages) (state : σ) :
    (PromptFits context (modelsOf stages) prompt ∧
      ∃ init, startPipelined r stages prompt state = .ok init ∧
        init.Good r context (modelsOf stages) prompt) ∨
    ∃ e, startPipelined r stages prompt state = .error e ∧
      ∀ preserve (draft : Option (Speculation σ)),
        (generate r.call stages 0 prompt preserve draft).2 = .error e := by
  rcases routeStep_prompt prompt hsuits.send hfresh with
    ⟨hfits, done, hstep, hmodels, hon⟩ | ⟨-, e, herror⟩
  · refine .inl ⟨hfits, _, ?_, pipelineInit_good hon hmodels (r.drafter.start state prompt).1⟩
    rw [startPipelined, hstep]
    dsimp only
    rw [startDraft_agrees rfl hsuits.agrees]
    dsimp only
    rw [promptResult_eq]
  · refine .inr ⟨e, ?_, fun preserve draft => generate_refused preserve draft herror⟩
    rw [startPipelined]
    rcases hstep : routeStep stages _ _ with ⟨done, result⟩
    rw [hstep] at herror
    simp only [show result = .error e from herror]

/-- With room for the chunks in flight `generate` gives the target's answer, with a drafter or
without. -/
lemma generate_of_suits (hsuits : r.Suits context (modelsOf stages) prompt)
    (hfresh : Fresh context r.call.hidden r.call.session r.call.request stages)
    (hfits : PromptFits context (modelsOf stages) prompt) (state : σ) (preserve : Bool) :
    (generate r.call stages 0 prompt preserve (some ⟨r.drafter, state, r.draftTokens⟩)).2 =
        (targetOf (modelsOf stages) prompt).settledResult r.call context preserve ∧
      (generate r.call stages 0 prompt preserve (none : Option (Speculation σ))).2 =
        (targetOf (modelsOf stages) prompt).settledResult r.call context preserve := by
  have hroom := hsuits.room
  rw [Nat.mul_succ] at hroom
  constructor
  · rcases generate_draft hsuits.send hfresh preserve hfits state hsuits.agrees hsuits.width with
      ⟨-, hdraft⟩ | ⟨⟨m, hm, hfull⟩, -⟩
    · exact hdraft
    · have hcount : draftCount r.call r.draftTokens m ≤ r.draftTokens := Nat.min_le_left _ _
      omega
  · rw [generate_plain hsuits.send hfresh preserve hfits, if_pos (by omega)]

end request

/-- A pipelined request whose applied chunks are never wrong in their last guess alone ends, in any
order of its threads and stages, with what `generate` returns with the same drafter and without
one. -/
theorem pipelined_eq_generate (r : PipelineRun σ) (stages : List (Connection H)) (prompt : String)
    (preserve : Bool) (state : σ) (context : Nat)
    (hsuits : r.Suits context (modelsOf stages) prompt)
    (hfresh : Fresh context r.call.hidden r.call.session r.call.request stages) :
    (generate r.call stages 0 prompt preserve (some ⟨r.drafter, state, r.draftTokens⟩)).2 =
      (generate r.call stages 0 prompt preserve (none : Option (Speculation σ))).2 ∧
    (∀ e, startPipelined r stages prompt state = .error e →
      (generate r.call stages 0 prompt preserve (none : Option (Speculation σ))).2 = .error e) ∧
    ∀ init, startPipelined r stages prompt state = .ok init →
      ∀ s, (pipelineSystem r init).Reachable
        (LastGuessesHold r (targetOf (modelsOf stages) prompt)) s →
          Acc ((pipelineSystem r init).Next
            (LastGuessesHold r (targetOf (modelsOf stages) prompt))) s ∧
          (s.receiver ≠ .done → ∃ e s', pipelineStep r s e = some s') ∧
          (s.receiver = .done → closePipelined r preserve s =
            (generate r.call stages 0 prompt preserve (none : Option (Speculation σ))).2) := by
  rcases startPipelined_spec hsuits hfresh state with
    ⟨hfits, init, hstart, hinit⟩ | ⟨e, herror, hrefused⟩
  · obtain ⟨hdraft, hplain⟩ := generate_of_suits hsuits hfresh hfits state preserve
    rw [hdraft, hplain]
    refine ⟨rfl, by simp [hstart], ?_⟩
    intro init' hstart' s hreach
    cases hstart.symm.trans hstart'
    have hgood : s.Good r context (modelsOf stages) prompt :=
      hreach.invariant hinit fun _ _ _ _ hgood hok hstep => (hgood.step hsuits hok hstep).1
    refine ⟨?_, hgood.progress hsuits, ?_⟩
    · exact Transition.System.acc_of_measure
        (fun s => s.weight r (targetOf (modelsOf stages) prompt))
        (fun _ _ _ hgood hok hstep => hgood.step hsuits hok hstep) hgood
    · intro hdone
      exact hgood.close hsuits hdone preserve
  · rw [hrefused, hrefused]
    refine ⟨rfl, ?_, by simp [herror]⟩
    intro e' he'
    cases herror.symm.trans he'
    rfl

/-! ### Two requests -/

def createdStage (m : StageModel Unit) : Connection Unit :=
  { stage := ((Stage.load m).handle (controlFrame .createSession 1) 0 fun _ => true).1 }

/-- A model in two stages. Every prompt has four tokens, and the fifth token of the answer ends
it. -/
def splitRoute : List (Connection Unit) :=
  [createdStage { shortModel with last := false, contextSize := 20 },
   createdStage { shortModel with
      first := false, contextSize := 20
      greedy := fun cells => if cells.length < 8 then 0 else 2 }]

/-- Its first chunk is wrong at once, all others guess on. -/
def hastyDrafter : Drafter Nat where
  start _ _ := (0, 4)
  propose n _ count :=
    (n + 1, if n = 0 then (List.replicate count 0).set 0 1 else List.replicate count 0)
  rollback n _ := n
  piece _ := "a"
  isEog token := token = 2

/-- Two chunks of two tokens in flight. -/
def splitRun : PipelineRun Nat :=
  { call := shortCall, drafter := hastyDrafter, draftTokens := 2, maxInflight := 2 }

lemma splitRoute_fresh : Fresh 20 1 1 1 splitRoute := by
  constructor
  · exact ⟨⟨rfl, rfl, rfl⟩, rfl, rfl, ⟨rfl, rfl, rfl⟩, rfl, rfl⟩
  · refine ⟨⟨rfl, { sequence := 0 }, rfl, ?_, rfl, rfl⟩,
      ⟨rfl, { sequence := 0 }, rfl, ?_, rfl, rfl⟩, trivial⟩
    · exact ⟨rfl, rfl, rfl, rfl, .inr ⟨rfl, Nat.one_pos⟩⟩
    · exact ⟨rfl, rfl, rfl, rfl, .inr ⟨rfl, Nat.one_pos⟩⟩

lemma splitRoute_rounds : (targetOf (modelsOf splitRoute) "hi").rounds shortCall = 4 := by
  rw [Target.rounds, Nat.find_eq_iff]
  constructor
  · rfl
  · decide

lemma splitRun_suits : splitRun.Suits 20 (modelsOf splitRoute) "hi" where
  send := ⟨Nat.one_ne_zero, Nat.one_ne_zero, by decide⟩
  agrees :=
    { start := fun _ => rfl
      piece := rfl
      isEog := rfl
      propose := by
        intro n token count
        by_cases hn : n = 0 <;> simp [splitRun, hastyDrafter, hn] }
  width := ⟨by decide, by decide⟩
  depth := by decide
  room := by
    rw [show splitRun.call = shortCall from rfl, splitRoute_rounds]
    decide
  wire := by
    intro m hm
    rw [List.mem_singleton.mp hm]
    rfl

/-- The receiver holds no chunk whose last guess is another token than 0. -/
def endsInZero (s : PipelineState Unit Nat) : Bool :=
  s.receiver.held.all fun chunk => chunk.1.guesses.getLastD 0 = 0

lemma lastGuessesHold_of_endsInZero {s : PipelineState Unit Nat} {e : PipelineEvent}
    (h : endsInZero s = true) :
    LastGuessesHold splitRun (targetOf (modelsOf splitRoute) "hi") s e := by
  rintro - chunk response hholding ⟨hrounds, -, hwrong⟩
  rw [endsInZero, hholding] at h
  rw [show splitRun.call = shortCall from rfl, splitRoute_rounds] at hrounds
  apply hwrong
  have hlast : chunk.guesses.getLastD 0 = 0 := by simpa [ReceiverPhase.held] using h
  have hshort : (image { shortModel with last := false, contextSize := 20 }
      (((targetOf (modelsOf splitRoute) "hi").text
        (s.output.tokenIds.length - 1 + chunk.guesses.length)).map .token)).length < 8 := by
    rw [Session.length_image, List.length_map, Target.length_text]
    change 4 + _ < 8
    omega
  exact hlast.trans (if_pos hshort).symm

/-- The threads take turns; the second chunk is on its way when the first is corrected. -/
def splitEvents : List PipelineEvent :=
  [.draft, .send, .count, .draft, .send, .count, .work 0, .work 0, .forward 0, .countRelay 0,
   .forward 0, .countRelay 0, .work 1, .receive, .apply, .draft, .send, .count, .work 0, .forward 0,
   .countRelay 0, .work 1, .receive, .apply, .draft, .send, .count, .work 0, .forward 0,
   .countRelay 0, .work 1, .receive, .apply, .draft, .send, .count, .work 0, .forward 0,
   .countRelay 0, .work 1, .receive, .apply, .work 1, .receive, .apply, .finishSender,
   .finishRelay 0, .finishReceiver]

/-- A request with a correction and a chunk that is accepted in full ends as it should. -/
theorem splitRoute_pipelined_eq :
    ∃ init s, startPipelined splitRun splitRoute "hi" 0 = .ok init ∧
      (pipelineSystem splitRun init).Reachable
        (LastGuessesHold splitRun (targetOf (modelsOf splitRoute) "hi")) s ∧
      s.receiver = .done ∧ closePipelined splitRun true s =
        (generate shortCall splitRoute 0 "hi" true (none : Option (Speculation Nat))).2 := by
  obtain ⟨init, hstart, hrun⟩ : ∃ init, startPipelined splitRun splitRoute "hi" 0 = .ok init ∧
      ((pipelineSystem splitRun init).exec (fun s _ => endsInZero s = true) init splitEvents).map
        (·.receiver.steps) = some 0 := ⟨_, rfl, by decide +kernel⟩
  obtain ⟨s, hexec, hsteps⟩ := Option.map_eq_some_iff.mp hrun
  have hreach : (pipelineSystem splitRun init).Reachable
      (LastGuessesHold splitRun (targetOf (modelsOf splitRoute) "hi")) s :=
    ((Transition.System.Reachable.init (t := pipelineSystem splitRun init)).exec splitEvents
      hexec).mono fun _ _ h => lastGuessesHold_of_endsInZero h
  have hdone : s.receiver = .done := by
    cases hreceiver : s.receiver <;> rw [hreceiver] at hsteps <;> cases hsteps
  refine ⟨init, s, hstart, hreach, hdone, ?_⟩
  exact ((pipelined_eq_generate splitRun splitRoute "hi" true 0 20 splitRun_suits
    splitRoute_fresh).2.2 init hstart s hreach).2.2 hdone

/-- A model in one stage that says 9 after a 7 and else 0. -/
def echoRoute : List (Connection Unit) :=
  [createdStage { shortModel with
      contextSize := 20
      greedy := fun cells => if cells.getLast? = some (.token 7) then 9 else 0 }]

/-- One token at a time, and the guess is always 7. -/
def echoRun : PipelineRun Nat :=
  { call := { shortCall with limit := 3 }
    drafter := { hastyDrafter with propose := fun n _ count => (n, List.replicate count 7) }
    draftTokens := 1, maxInflight := 1 }

/-- The first guess is wrong, and the next chunk continues it all the same: the pipelined request
answers with a token the target never produces. -/
theorem echoRoute_pipelined_ne :
    echoRun.Suits 20 (modelsOf echoRoute) "hi" ∧ Fresh 20 1 1 1 echoRoute ∧
    ∃ init s, startPipelined echoRun echoRoute "hi" 0 = .ok init ∧
      (pipelineSystem echoRun init).exec (fun _ _ => True) init
        [.draft, .send, .count, .work 0, .receive, .apply, .draft, .send, .count, .work 0, .receive,
         .apply, .finishSender, .finishReceiver] = some s ∧ s.receiver = .done ∧
      closePipelined echoRun true s =
        .ok { output := "aaa", tokenIds := [0, 0, 9], offered := ["a", "a", "a"], position := 7,
              finalToken := 9, eog := false, cancelled := false } ∧
      (generate echoRun.call echoRoute 0 "hi" true (none : Option (Speculation Nat))).2 =
        .ok { output := "aaa", tokenIds := [0, 0, 0], offered := ["a", "a", "a"], position := 7,
              finalToken := 0, eog := false, cancelled := false } := by
  have hrounds : (targetOf (modelsOf echoRoute) "hi").rounds echoRun.call = 2 := by
    rw [Target.rounds, Nat.find_eq_iff]
    constructor
    · rfl
    · decide
  refine ⟨?_, ?_, _, _, rfl, rfl, rfl, rfl, rfl⟩
  · constructor
    · exact ⟨Nat.one_ne_zero, Nat.one_ne_zero, by decide⟩
    · exact ⟨fun _ => rfl, rfl, rfl, fun _ _ _ => List.length_replicate⟩
    · exact ⟨by decide, by decide⟩
    · decide
    · rw [hrounds]
      decide
    · rintro m ⟨⟩
  · constructor
    · exact ⟨⟨rfl, rfl, rfl⟩, rfl, rfl⟩
    · refine ⟨⟨rfl, { sequence := 0 }, rfl, ?_, rfl, rfl⟩, trivial⟩
      exact ⟨rfl, rfl, rfl, rfl, .inr ⟨rfl, Nat.one_pos⟩⟩

end ProviderOwned
