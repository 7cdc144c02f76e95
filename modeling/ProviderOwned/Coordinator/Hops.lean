import ProviderOwned.Coordinator.Pipeline

/-!
# The hops between the stages

What the relays and the stages do to the hops of a pipelined request. A frame on a stage's sockets
is counted and not yet read, or about to be counted (`Hop.Counted`), and a stage is finished only
once nothing more can reach it (`Closing`). Every move keeps both, leaves what the route will
answer as it is (`HopsMoved`), and brings a frame closer to the receiver (`hopsWeight`); and unless
nothing is left to do, some move is possible (`exists_hopsMove`).
-/

namespace ProviderOwned

variable {H σ : Type*}

/-- The frames on a stage's sockets: those counted and not read, and one that is about to be. -/
def Hop.Counted (h : Hop H) : Prop :=
  h.node.inbox.length + h.node.outbox.length = h.unread + h.placed.toNat

/-- A stage is finished when the stage before it is, and everything was read from that one. -/
def Closing : List (Hop H) → Prop
  | h :: h' :: rest =>
    (h'.stageFinished = true → h.stageFinished = true ∧ h.unread = 0 ∧ h'.placed = false) ∧
      Closing (h' :: rest)
  | _ => True

/-- What is left to do on the hops: a frame moves from the inbox to the outbox of a stage, is
forwarded and counted, and at the end every hop is finished. -/
def hopsWeight : List (Hop H) → Nat
  | [] => 0
  | h :: rest =>
    h.node.inbox.length * (3 * rest.length + 3) + h.node.outbox.length * (3 * rest.length + 2) +
      h.placed.toNat + (!h.stageFinished).toNat + hopsWeight rest

def headFlags (hops : List (Hop H)) : Option (Bool × Bool) :=
  hops.head?.map fun h => (h.placed, h.stageFinished)

def nodesOf (hops : List (Hop H)) : List (Chain.Node (Connection H) (Frame H)) :=
  hops.map (·.node)

/-- A reply that the relays let pass. -/
def Relayable (c : Call) (f : Frame H) : Prop :=
  validateRelayActivation c f = true

@[simp] lemma nodesOf_cons (h : Hop H) (rest : List (Hop H)) :
    nodesOf (h :: rest) = h.node :: nodesOf rest := rfl

@[simp] lemma length_nodesOf (hops : List (Hop H)) : (nodesOf hops).length = hops.length := by
  simp [nodesOf]

lemma senderFinished_of_headFlags {hops : List (Hop H)} {placed finished : Bool}
    (h : headFlags hops = some (placed, finished)) : senderFinished hops = finished := by
  cases hops with
  | nil => cases h
  | cons h₀ rest =>
    cases h
    rfl

/-! ### Moves of the stages and the relays -/

structure HopsMoved (c : Call) (hops hops' : List (Hop H)) : Prop where
  moved : Chain.Moved Connection.serve (Relayable c) (nodesOf hops) (nodesOf hops')
  counted : (∀ h ∈ hops, h.Counted) → ∀ h ∈ hops', h.Counted
  closing : Closing hops → Closing hops'
  head : headFlags hops' = headFlags hops
  weight : hopsWeight hops' < hopsWeight hops

section moves

variable {c : Call} {hops hops' : List (Hop H)} {h : Hop H}

lemma HopsMoved.length (hm : HopsMoved c hops hops') : hops'.length = hops.length := by
  simpa using hm.moved.length

/-- Whether a hop closes before the next one depends on the flags of that one only. -/
lemma closing_cons_of_head (hhead : headFlags hops' = headFlags hops)
    (hclosing : Closing hops → Closing hops') (hc : Closing (h :: hops)) :
    Closing (h :: hops') := by
  cases hops' with
  | nil => trivial
  | cons h' rest' =>
    cases hops with
    | nil => cases hhead
    | cons h'' rest =>
      simp only [headFlags, List.head?_cons, Option.map_some, Option.some.injEq,
        Prod.mk.injEq] at hhead
      refine ⟨?_, hclosing hc.2⟩
      rw [hhead.1, hhead.2]
      exact hc.1

/-- A move further down the route. -/
lemma HopsMoved.cons (hm : HopsMoved c hops hops') (h : Hop H) :
    HopsMoved c (h :: hops) (h :: hops') where
  moved := hm.moved.cons h.node
  counted hcounted := by
    rw [List.forall_mem_cons] at hcounted ⊢
    exact ⟨hcounted.1, hm.counted hcounted.2⟩
  closing := closing_cons_of_head hm.head hm.closing
  head := rfl
  weight := by
    simp only [hopsWeight, hm.length]
    have hweight := hm.weight
    omega

lemma atHop_moved {move : List (Hop H) → Option (List (Hop H))}
    (hmove : ∀ {hops hops'}, move hops = some hops' → HopsMoved c hops hops') {i : Nat}
    (h : atHop move i hops = some hops') : HopsMoved c hops hops' := by
  induction i generalizing hops hops' with
  | zero => exact hmove h
  | succ i ih =>
    cases hops with
    | nil => cases h
    | cons h₀ rest =>
      obtain ⟨rest', hrest, rfl⟩ := Option.map_eq_some_iff.mp h
      exact (ih hrest).cons h₀

lemma workHead_moved (hwork : workHead hops = some hops') : HopsMoved c hops hops' := by
  obtain _ | ⟨h, rest⟩ := hops
  · cases hwork
  obtain ⟨⟨_ | ⟨x, xs⟩, state, outbox⟩, placed, unread, finished⟩ := h
  · cases hwork
  · cases hwork
    constructor
    · exact Chain.Moved.work x xs state outbox (nodesOf rest)
    · intro hcounted
      rw [List.forall_mem_cons] at hcounted ⊢
      refine ⟨?_, hcounted.2⟩
      have hhere := hcounted.1
      simp only [Hop.Counted, List.length_cons, List.length_append, List.length_nil] at hhere ⊢
      omega
    · intro hclosing
      cases rest with
      | nil => trivial
      | cons h' rest => exact hclosing
    · rfl
    · simp only [hopsWeight, List.length_cons, List.length_append, List.length_nil, Nat.add_mul]
      omega

/-- A relay reads a reply that is counted and puts it on the next socket. -/
lemma relayHead_eq_some {pass : Bool} (h : relayHead c hops = some (pass, hops')) :
    ∃ h₀ h₁ rest y ys, hops = h₀ :: h₁ :: rest ∧ h₀.node.outbox = y :: ys ∧
      (0 < h₀.unread ∧ h₁.placed = false ∧ h₁.stageFinished = false) ∧
      pass = validateRelayActivation c y ∧
      hops' = { h₀ with node := { h₀.node with outbox := ys }, unread := h₀.unread - 1 } ::
        { h₁ with node := { h₁.node with inbox := h₁.node.inbox ++ [y] }, placed := true } ::
          rest := by
  rw [relayHead.eq_def] at h
  split at h
  · next h₀ h₁ rest =>
    split at h
    · cases h
    · next y ys hout =>
      split_ifs at h with hready
      cases h
      refine ⟨h₀, h₁, rest, y, ys, rfl, hout, ?_, rfl, rfl⟩
      simpa using hready
  · cases h

lemma forwardHead_moved (h : forwardHead c hops = some hops') : HopsMoved c hops hops' := by
  rw [forwardHead.eq_def] at h
  split at h
  · next hops'' hrelay =>
    cases h
    obtain ⟨h₀, h₁, rest, y, ys, rfl, hout, ⟨hunread, hplaced, hfinished⟩, -, rfl⟩ :=
      relayHead_eq_some hrelay
    constructor
    · have hnode : h₀.node = ⟨h₀.node.inbox, h₀.node.state, y :: ys⟩ := by rw [← hout]
      rw [nodesOf_cons, nodesOf_cons, hnode]
      exact Chain.Moved.carry y h₀.node.inbox ys h₀.node.state h₁.node (nodesOf rest)
    · intro hcounted
      simp only [List.forall_mem_cons] at hcounted ⊢
      refine ⟨?_, ?_, hcounted.2.2⟩
      · have hhere := hcounted.1
        simp only [Hop.Counted, hout, List.length_cons] at hhere ⊢
        omega
      · have hnext := hcounted.2.1
        simp only [Hop.Counted, hplaced, List.length_append, List.length_cons, List.length_nil,
          Bool.toNat_true, Bool.toNat_false] at hnext ⊢
        omega
    · intro hclosing
      refine ⟨?_, ?_⟩
      · intro hdone
        rw [show h₁.stageFinished = true from hdone] at hfinished
        cases hfinished
      · cases rest with
        | nil => trivial
        | cons h₂ rest => exact hclosing.2
    · rfl
    · simp only [hopsWeight, hout, hplaced, List.length_cons, List.length_append, List.length_nil,
        Nat.add_mul, Nat.mul_add, Bool.toNat_true, Bool.toNat_false]
      omega
  · cases h

lemma countHead_moved (h : countHead hops = some hops') : HopsMoved c hops hops' := by
  rw [countHead.eq_def] at h
  split at h
  · next h₀ h₁ rest =>
    split_ifs at h with hplaced
    cases h
    constructor
    · exact ⟨rfl, fun _ => rfl, fun _ hpasses => hpasses⟩
    · intro hcounted
      simp only [List.forall_mem_cons] at hcounted ⊢
      refine ⟨hcounted.1, ?_, hcounted.2.2⟩
      have hnext := hcounted.2.1
      simp only [Hop.Counted, hplaced, Bool.toNat_true, Bool.toNat_false] at hnext ⊢
      omega
    · intro hclosing
      -- the frame is counted after all, so the stage is not finished
      have hopen : h₁.stageFinished = false := by
        by_contra hdone
        have hclosed := (hclosing.1 (by simpa using hdone)).2.2
        rw [hplaced] at hclosed
        cases hclosed
      refine ⟨?_, ?_⟩
      · intro hdone
        exact ⟨(hclosing.1 hdone).1, (hclosing.1 hdone).2.1, rfl⟩
      · cases rest with
        | nil => trivial
        | cons h₂ rest =>
          refine ⟨?_, hclosing.2.2⟩
          intro hdone
          have hclosed := (hclosing.2.1 hdone).1
          rw [hopen] at hclosed
          cases hclosed
    · rfl
    · simp only [hopsWeight, hplaced, List.length_cons, Bool.toNat_true, Bool.toNat_false]
      omega
  · cases h

lemma finishHead_moved (h : finishHead hops = some hops') : HopsMoved c hops hops' := by
  rw [finishHead.eq_def] at h
  split at h
  · next h₀ h₁ rest =>
    split_ifs at h with hready
    cases h
    simp only [Bool.not_eq_true'] at hready
    obtain ⟨hdone₀, hunread, hplaced, hopen⟩ := hready
    constructor
    · exact ⟨rfl, fun _ => rfl, fun _ hpasses => hpasses⟩
    · intro hcounted
      simp only [List.forall_mem_cons] at hcounted ⊢
      exact hcounted
    · intro hclosing
      refine ⟨fun _ => ⟨hdone₀, hunread, hplaced⟩, ?_⟩
      cases rest with
      | nil => trivial
      | cons h₂ rest =>
        refine ⟨?_, hclosing.2.2⟩
        intro hdone
        exact ⟨rfl, (hclosing.2.1 hdone).2⟩
    · rfl
    · simp only [hopsWeight, hopen, List.length_cons, Bool.not_true, Bool.not_false,
        Bool.toNat_true, Bool.toNat_false]
      omega
  · cases h

/-- A relay never throws on what the stages answer to well-formed chunks. -/
lemma atHop_rejectHead {i : Nat} {xs : List (Frame H)}
    (hpasses : Chain.Passes Connection.serve (Relayable c) (nodesOf hops) xs) :
    atHop (rejectHead c) i hops = none := by
  induction i generalizing hops xs with
  | zero =>
    rw [atHop, rejectHead.eq_def]
    split
    · next hrelay =>
      obtain ⟨h₀, h₁, rest, y, ys, rfl, hout, -, hpass, -⟩ := relayHead_eq_some hrelay
      have hy : Relayable c y := hpasses.head (by rw [hout]; exact List.mem_cons_self)
      rw [Relayable, ← hpass] at hy
      cases hy
    · rfl
  | succ i ih =>
    cases hops with
    | nil => rfl
    | cons h rest =>
      rw [atHop, Option.map_eq_none_iff]
      cases rest with
      | nil => cases i <;> rfl
      | cons h' rest => exact ih hpasses.2

end moves

/-! ### The two ends of the route -/

section ends

variable {c : Call} {hops hops' : List (Hop H)} {h h' : Hop H} {y : Frame H}

lemma takeLast_eq_some (ht : takeLast hops = some (y, hops')) :
    ∃ front h ys, hops = front ++ [h] ∧ h.node.outbox = y :: ys ∧ 0 < h.unread ∧
      hops' = front ++
        [{ h with node := { h.node with outbox := ys }, unread := h.unread - 1 }] := by
  induction hops generalizing hops' with
  | nil => cases ht
  | cons h rest ih =>
    cases rest with
    | nil =>
      rw [takeLast.eq_def] at ht
      simp only at ht
      split at ht
      · cases ht
      · next y' ys hout =>
        split_ifs at ht with hunread
        cases ht
        exact ⟨[], h, ys, rfl, hout, hunread, rfl⟩
    | cons h' rest =>
      obtain ⟨⟨y', rest'⟩, hrest, heq⟩ := Option.map_eq_some_iff.mp ht
      cases heq
      obtain ⟨front, last, ys, hfront, hout, hunread, htaken⟩ := ih hrest
      exact ⟨h :: front, last, ys, by rw [hfront, List.cons_append], hout, hunread,
        by rw [htaken, List.cons_append]⟩

lemma closing_last (front : List (Hop H)) (hplaced : h'.placed = h.placed)
    (hfinished : h'.stageFinished = h.stageFinished) (hc : Closing (front ++ [h])) :
    Closing (front ++ [h']) := by
  induction front with
  | nil => trivial
  | cons h₀ front ih =>
    have hhead : headFlags (front ++ [h']) = headFlags (front ++ [h]) := by
      cases front with
      | nil => simp [headFlags, hplaced, hfinished]
      | cons h₁ front => rfl
    exact closing_cons_of_head hhead ih hc

lemma hopsWeight_last (front : List (Hop H)) (h h' : Hop H) :
    hopsWeight (front ++ [h']) + hopsWeight [h] = hopsWeight (front ++ [h]) + hopsWeight [h'] := by
  induction front with
  | nil => exact Nat.add_comm ..
  | cons h₀ front ih =>
    simp only [List.cons_append, hopsWeight, List.length_append, List.length_cons] at ih ⊢
    omega

/-- The receiver has read `y`. -/
structure LastTaken (c : Call) (y : Frame H) (hops hops' : List (Hop H)) : Prop where
  feed : ∀ xs, Chain.feed Connection.serve (nodesOf hops) xs =
    ((Chain.feed Connection.serve (nodesOf hops') xs).1,
      y :: (Chain.feed Connection.serve (nodesOf hops') xs).2)
  passes : ∀ xs, Chain.Passes Connection.serve (Relayable c) (nodesOf hops) xs →
    Chain.Passes Connection.serve (Relayable c) (nodesOf hops') xs
  counted : (∀ h ∈ hops, h.Counted) → ∀ h ∈ hops', h.Counted
  closing : Closing hops → Closing hops'
  head : headFlags hops' = headFlags hops
  weight : hopsWeight hops' + 1 < hopsWeight hops
  length : hops'.length = hops.length

lemma takeLast_taken (ht : takeLast hops = some (y, hops')) : LastTaken c y hops hops' := by
  obtain ⟨front, ⟨⟨ins, state, outbox⟩, placed, unread, finished⟩, ys, rfl, hout, hunread, rfl⟩ :=
    takeLast_eq_some ht
  cases hout
  constructor
  · intro xs
    simp only [nodesOf, List.map_append, List.map_cons, List.map_nil]
    exact Chain.feed_pop ..
  · intro xs hpasses
    simp only [nodesOf, List.map_append, List.map_cons, List.map_nil] at hpasses ⊢
    exact hpasses.pop
  · intro hcounted
    rw [List.forall_mem_append, List.forall_mem_singleton] at hcounted ⊢
    refine ⟨hcounted.1, ?_⟩
    have hlast := hcounted.2
    simp only [Hop.Counted, List.length_cons] at hlast hunread ⊢
    omega
  · exact closing_last front rfl rfl
  · cases front <;> rfl
  · have hweight := hopsWeight_last front ⟨⟨ins, state, y :: ys⟩, placed, unread, finished⟩
      ⟨⟨ins, state, ys⟩, placed, unread - 1, finished⟩
    simp only [hopsWeight, List.length_cons, List.length_nil] at hweight ⊢
    omega
  · simp

/-- The sender puts a frame on the first socket. -/
structure FirstPlaced (c : Call) (f : Frame H) (hops hops' : List (Hop H)) : Prop where
  feed : Chain.feed Connection.serve (nodesOf hops') [] =
    ((Chain.serial Connection.serve (Chain.feed Connection.serve (nodesOf hops) []).1 f).1,
      (Chain.feed Connection.serve (nodesOf hops) []).2 ++
        [(Chain.serial Connection.serve (Chain.feed Connection.serve (nodesOf hops) []).1 f).2])
  passes : Chain.Passes Connection.serve (Relayable c) (nodesOf hops) [] →
    Chain.SerialPasses Connection.serve (Relayable c)
      (Chain.feed Connection.serve (nodesOf hops) []).1 f →
    Chain.Passes Connection.serve (Relayable c) (nodesOf hops') []
  counted : (∀ h ∈ hops, h.Counted) → ∀ h ∈ hops', h.Counted
  closing : Closing hops → Closing hops'
  weight : hopsWeight hops' = hopsWeight hops + (3 * hops.length + 1)
  length : hops'.length = hops.length

lemma placeFirst_placed {finished : Bool} (f : Frame H)
    (hflags : headFlags hops = some (false, finished)) :
    FirstPlaced c f hops (placeFirst f hops) ∧
      headFlags (placeFirst f hops) = some (true, finished) := by
  obtain _ | ⟨h, rest⟩ := hops
  · cases hflags
  simp only [headFlags, List.head?_cons, Option.map_some, Option.some.injEq,
    Prod.mk.injEq] at hflags
  obtain ⟨hplaced, rfl⟩ := hflags
  refine ⟨?_, rfl⟩
  constructor
  · exact (Chain.feed_push h.node (nodesOf rest) f []).trans (Chain.feed_concat _ [] f)
  · intro hpasses hserial
    exact (Chain.passes_push h.node (nodesOf rest) f []).mpr (hpasses.concat hserial)
  · intro hcounted
    rw [placeFirst, List.forall_mem_cons]
    rw [List.forall_mem_cons] at hcounted
    refine ⟨?_, hcounted.2⟩
    have hhere := hcounted.1
    simp only [Hop.Counted, hplaced, List.length_append, List.length_cons, List.length_nil,
      Bool.toNat_true, Bool.toNat_false] at hhere ⊢
    omega
  · intro hclosing
    cases rest with
    | nil => trivial
    | cons h' rest => exact hclosing
  · simp only [placeFirst, hopsWeight, hplaced, List.length_append, List.length_cons,
      List.length_nil, Nat.add_mul, Bool.toNat_true, Bool.toNat_false]
    omega
  · rfl

/-- The sender counts its frame, or says that there will be no more. -/
structure FirstMarked (hops hops' : List (Hop H)) : Prop where
  nodes : nodesOf hops' = nodesOf hops
  counted : (∀ h ∈ hops, h.Counted) → ∀ h ∈ hops', h.Counted
  closing : Closing hops → Closing hops'
  weight : hopsWeight hops' < hopsWeight hops

lemma FirstMarked.length (hm : FirstMarked hops hops') : hops'.length = hops.length := by
  simpa using congrArg List.length hm.nodes

lemma countFirst_marked (hflags : headFlags hops = some (true, false)) :
    FirstMarked hops (countFirst hops) ∧ headFlags (countFirst hops) = some (false, false) := by
  obtain _ | ⟨h, rest⟩ := hops
  · cases hflags
  simp only [headFlags, List.head?_cons, Option.map_some, Option.some.injEq,
    Prod.mk.injEq] at hflags
  obtain ⟨hplaced, hopen⟩ := hflags
  refine ⟨?_, by simp [countFirst, headFlags, hopen]⟩
  constructor
  · rfl
  · intro hcounted
    rw [countFirst, List.forall_mem_cons]
    rw [List.forall_mem_cons] at hcounted
    refine ⟨?_, hcounted.2⟩
    have hhere := hcounted.1
    simp only [Hop.Counted, hplaced, Bool.toNat_true, Bool.toNat_false] at hhere ⊢
    omega
  · intro hclosing
    cases rest with
    | nil => trivial
    | cons h' rest =>
      refine ⟨?_, hclosing.2⟩
      intro hdone
      have hclosed := (hclosing.1 hdone).1
      rw [hopen] at hclosed
      cases hclosed
  · simp only [countFirst, hopsWeight, hplaced, Bool.toNat_true, Bool.toNat_false]
    omega

lemma finishFirst_marked {placed : Bool} (hflags : headFlags hops = some (placed, false)) :
    FirstMarked hops (finishFirst hops) ∧
      headFlags (finishFirst hops) = some (placed, true) := by
  obtain _ | ⟨h, rest⟩ := hops
  · cases hflags
  simp only [headFlags, List.head?_cons, Option.map_some, Option.some.injEq,
    Prod.mk.injEq] at hflags
  obtain ⟨rfl, hopen⟩ := hflags
  refine ⟨?_, rfl⟩
  constructor
  · rfl
  · intro hcounted
    rw [finishFirst, List.forall_mem_cons]
    rwa [List.forall_mem_cons] at hcounted
  · intro hclosing
    cases rest with
    | nil => trivial
    | cons h' rest =>
      refine ⟨?_, hclosing.2⟩
      intro hdone
      exact ⟨rfl, (hclosing.1 hdone).2⟩
  · simp only [finishFirst, hopsWeight, hopen, Bool.not_true, Bool.not_false, Bool.toNat_true,
      Bool.toNat_false]
    omega

/-- A reply the receiver may read is not the one the sender has yet to count. -/
lemma load_of_takeLast (hcounted : ∀ h ∈ hops, h.Counted) {placed finished : Bool}
    (hflags : headFlags hops = some (placed, finished)) (ht : takeLast hops = some (y, hops')) :
    placed.toNat + 1 ≤ Chain.load (nodesOf hops) := by
  induction hops generalizing hops' y placed finished with
  | nil => cases ht
  | cons h rest ih =>
    rw [List.forall_mem_cons] at hcounted
    have hhere := hcounted.1
    cases hflags
    rw [Hop.Counted] at hhere
    cases rest with
    | nil =>
      obtain ⟨front, last, ys, hfront, -, hunread, -⟩ := takeLast_eq_some ht
      have hlast : h = last := by
        cases front with
        | nil => simpa using hfront
        | cons h₀ front => simp at hfront
      rw [← hlast] at hunread
      simp only [nodesOf_cons, Chain.load]
      omega
    | cons h' rest =>
      obtain ⟨⟨y', rest'⟩, hrest, -⟩ := Option.map_eq_some_iff.mp ht
      have hmore := ih hcounted.2 rfl hrest
      simp only [nodesOf_cons, Chain.load] at hmore ⊢
      omega

/-- Once the last stage is finished and read there is nothing on any socket, and all are. -/
lemma hopsWeight_of_closed (hcounted : ∀ h ∈ hops, h.Counted) (hclosing : Closing hops)
    {placed finished : Bool} (hflags : headFlags hops = some (placed, finished))
    (hplaced : finished = true → placed = false)
    (hlast : ∀ h ∈ hops.getLast?, h.stageFinished = true ∧ h.unread = 0) :
    hopsWeight hops = 0 ∧ finished = true := by
  induction hops generalizing placed finished with
  | nil => cases hflags
  | cons h rest ih =>
    rw [List.forall_mem_cons] at hcounted
    have hhere := hcounted.1
    cases hflags
    have hrest : hopsWeight rest = 0 ∧ h.stageFinished = true ∧ h.unread = 0 := by
      cases rest with
      | nil => exact ⟨rfl, hlast h rfl⟩
      | cons h' rest =>
        obtain ⟨hzero, hdone⟩ := ih hcounted.2 hclosing.2 rfl (fun h => (hclosing.1 h).2.2)
          (by simpa [List.getLast?_cons_cons] using hlast)
        exact ⟨hzero, (hclosing.1 hdone).1, (hclosing.1 hdone).2.1⟩
    obtain ⟨hzero, hdone, hunread⟩ := hrest
    refine ⟨?_, hdone⟩
    have hin : h.node.inbox.length = 0 ∧ h.node.outbox.length = 0 := by
      rw [Hop.Counted, hunread, hplaced hdone, Bool.toNat_false] at hhere
      omega
    simp [hopsWeight, hin.1, hin.2, hzero, hdone, hplaced hdone]

/-- With nothing left to do every stage is where it will be. -/
lemma feed_of_hopsWeight (hzero : hopsWeight hops = 0) :
    Chain.feed Connection.serve (nodesOf hops) [] = (hops.map (·.node.state), []) := by
  have hidle : ∀ n ∈ nodesOf hops, n.inbox = [] ∧ n.outbox = [] := by
    induction hops with
    | nil => simp [nodesOf]
    | cons h rest ih =>
      simp only [hopsWeight, Nat.add_eq_zero_iff, Nat.mul_eq_zero] at hzero
      rw [nodesOf_cons, List.forall_mem_cons]
      refine ⟨?_, ih hzero.2⟩
      simpa using hzero.1.1.1
  rw [Chain.feed_idle hidle, nodesOf, List.map_map]
  rfl

end ends

/-! ### Something is always left to do -/

def hopsMoves (c : Call) : List (List (Hop H) → Option (List (Hop H))) :=
  [workHead, forwardHead c, rejectHead c, countHead, finishHead]

def Hop.Idle (h : Hop H) : Prop :=
  h.node.inbox = [] ∧ h.node.outbox = [] ∧ h.unread = 0

section progress

variable {c : Call} {hops : List (Hop H)}

/-- A stage or a relay can move, or the receiver can read, or the route is empty; then the last
stage is finished if the first is. -/
lemma exists_hopsMove (hne : hops ≠ []) (hcounted : ∀ h ∈ hops, h.Counted) (hclosing : Closing hops)
    (hplaced : ∀ h ∈ hops.head?, h.placed = false) :
    (∃ move ∈ hopsMoves c, ∃ i, (atHop move i hops).isSome) ∨ (takeLast hops).isSome ∨
      (∀ h ∈ hops, h.Idle) ∧
        (senderFinished hops = true → ∀ h ∈ hops.getLast?, h.stageFinished = true) := by
  induction hops with
  | nil => exact absurd rfl hne
  | cons h rest ih =>
    rw [List.forall_mem_cons] at hcounted
    have hhere := hcounted.1
    have hopen : h.placed = false := hplaced h rfl
    rw [Hop.Counted, hopen, Bool.toNat_false] at hhere
    cases hin : h.node.inbox with
    | cons x xs =>
      refine .inl ⟨workHead, by simp [hopsMoves], 0, ?_⟩
      simp [atHop, workHead, hin]
    | nil =>
      rw [hin] at hhere
      cases rest with
      | nil =>
        cases hout : h.node.outbox with
        | cons y ys =>
          rw [hout] at hhere
          simp only [List.length_nil, List.length_cons] at hhere
          refine .inr (.inl ?_)
          simp [takeLast, hout, show 0 < h.unread by omega]
        | nil =>
          rw [hout] at hhere
          refine .inr (.inr ⟨?_, ?_⟩)
          · simpa [Hop.Idle, hin, hout] using hhere.symm
          · simp [senderFinished]
      | cons h' rest =>
        by_cases hplaced' : h'.placed = true
        · refine .inl ⟨countHead, by simp [hopsMoves], 0, ?_⟩
          simp [atHop, countHead, hplaced']
        · rw [Bool.not_eq_true] at hplaced'
          cases hout : h.node.outbox with
          | cons y ys =>
            rw [hout] at hhere
            simp only [List.length_nil, List.length_cons] at hhere
            have hunread : 0 < h.unread := by omega
            have hgoing : h'.stageFinished = false := by
              by_contra hdone
              have hclosed := (hclosing.1 (by simpa using hdone)).2.1
              omega
            cases hpass : validateRelayActivation c y with
            | true =>
              refine .inl ⟨forwardHead c, by simp [hopsMoves], 0, ?_⟩
              simp [atHop, forwardHead, relayHead, hout, hunread, hplaced', hgoing, hpass]
            | false =>
              refine .inl ⟨rejectHead c, by simp [hopsMoves], 0, ?_⟩
              simp [atHop, rejectHead, relayHead, hout, hunread, hplaced', hgoing, hpass]
          | nil =>
            rw [hout] at hhere
            have hidle : h.Idle := ⟨hin, hout, by simpa using hhere.symm⟩
            rcases ih (List.cons_ne_nil _ _) hcounted.2 hclosing.2 (by simpa using hplaced') with
              ⟨move, hmove, i, henabled⟩ | htake | ⟨hrest, hlast⟩
            · refine .inl ⟨move, hmove, i + 1, ?_⟩
              simpa [atHop] using henabled
            · refine .inr (.inl ?_)
              simpa [takeLast] using htake
            · by_cases hdone : h.stageFinished = true ∧ h'.stageFinished = false
              · refine .inl ⟨finishHead, by simp [hopsMoves], 0, ?_⟩
                simp [atHop, finishHead, hdone, hplaced', hidle.2.2]
              · refine .inr (.inr ⟨?_, ?_⟩)
                · rw [List.forall_mem_cons]
                  exact ⟨hidle, hrest⟩
                · intro hfirst
                  rw [List.getLast?_cons_cons]
                  apply hlast
                  simp only [senderFinished, List.head?_cons, Option.any_some] at hfirst ⊢
                  simpa [hfirst] using hdone

end progress

end ProviderOwned
