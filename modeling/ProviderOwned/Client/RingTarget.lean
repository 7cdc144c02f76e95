import ProviderOwned.Client.Context

/-!
# The peer of a ring target

A libp2p target is a list of addresses, and `route.hpp` says that all of them name the same PeerID.
`valid_ring_target` looks at each address by itself and lets everything pass that has the shape of
an endpoint; `unusable` compares the peer of the last address only. `namesOne_iff` says for which
targets that is enough.
-/

namespace ProviderOwned

open Greeting Planner Planner.Arithmetic Text

def EndsIn (peer address : List Char) : Prop := "/p2p/".toList ++ peer <:+ address

/-- The target is a list of addresses that end in one PeerID. -/
def NamesOne (value : List Char) : Prop :=
  ∃ peer, validPeerId peer ∧ ∀ address ∈ pieces ',' value, EndsIn peer address

/-- `peer_of` finds in every address of the list what it finds in the whole target. -/
def Agree (value : List Char) : Prop := ∀ address ∈ pieces ',' value, peerOf address = peerOf value

variable {value peer address : List Char}

lemma ne_nil_of_validP2pTarget (h : validP2pTarget value) : value ≠ [] := by
  rintro rfl
  cases h

/-- An endpoint ends in a colon and a number. -/
lemma port_of_validEndpoint (h : validEndpoint value) (hne : value ≠ []) :
    ∃ host port, value = host ++ ':' :: port ∧ port ≠ [] ∧ ∀ c ∈ port, c.isDigit := by
  rw [validEndpoint, Bool.or_eq_true] at h
  have h := h.resolve_left (mt List.isEmpty_iff.mp hne)
  cases hcut : cutLast ':' value with
  | none =>
    rw [hcut] at h
    cases h
  | some parts =>
    obtain ⟨host, port⟩ := parts
    rw [hcut] at h
    simp only [Bool.and_eq_true, Bool.not_eq_true', List.isEmpty_eq_false_iff] at h
    obtain ⟨⟨⟨-, hport⟩, -⟩, hnumber⟩ := h
    refine ⟨host, port, (cutLast_eq_some hcut).1, hport, ?_⟩
    rw [Option.any_eq_true] at hnumber
    obtain ⟨n, hn, -⟩ := hnumber
    rw [fromDecimal] at hn
    split_ifs at hn with hdigits
    exact List.all_eq_true.mp hdigits.2.1

/-- A text that ends in a PeerID does not end in a port. -/
lemma not_validEndpoint_of_endsIn (hpeer : validPeerId peer) (h : EndsIn peer value) :
    ¬ validEndpoint value := by
  intro hendpoint
  have hne : value ≠ [] := by
    rintro rfl
    simp [EndsIn] at h
  obtain ⟨host, port, hvalue, -, hdigits⟩ := port_of_validEndpoint hendpoint hne
  have hcolon : ':' ∉ "/p2p/".toList ++ peer := by
    rw [List.mem_append, not_or]
    refine ⟨by decide, fun hmem => ?_⟩
    rw [validPeerId, Bool.and_eq_true, List.all_eq_true] at hpeer
    exact absurd (hpeer.2 _ hmem) (by decide)
  have hport : ':' :: port <:+ value := ⟨host, hvalue.symm⟩
  rcases List.suffix_or_suffix_of_suffix hport h with hshort | hlong
  · exact hcolon (hshort.subset List.mem_cons_self)
  · rcases List.suffix_cons_iff.mp hlong with heq | hlong
    · rw [heq] at hcolon
      exact hcolon List.mem_cons_self
    · have hslash : '/' ∈ port := hlong.subset (List.mem_append_left _ List.mem_cons_self)
      exact absurd (hdigits _ hslash) (by decide)

/-- A target that is no endpoint is a list of addresses with a PeerID each. -/
lemma addresses_of_validP2pTarget (h : validP2pTarget value) (hendpoint : ¬ validEndpoint value) :
    value.getLast? ≠ some ',' ∧ ∀ address ∈ pieces ',' value,
      ∃ peer, afterLast "/p2p/".toList address = some peer ∧ validPeerId peer := by
  rw [validP2pTarget, Bool.and_eq_true, validRingTarget, Bool.or_eq_true] at h
  have h := h.2.resolve_left hendpoint
  simp only [Bool.and_eq_true, decide_eq_true_eq, List.all_eq_true, Option.any_eq_true] at h
  refine ⟨h.1.1.1.2, fun address haddress => ?_⟩
  obtain ⟨peer, hafter, hpeer⟩ := (h.2 address haddress).2
  exact ⟨peer, hafter, hpeer⟩

lemma endsIn_of_afterLast (h : afterLast "/p2p/".toList address = some peer) :
    EndsIn peer address :=
  (afterLast_eq_some h).1

/-- A PeerID holds no slash, so the last `/p2p/` is the one before it. -/
lemma afterLast_peer (h : validPeerId peer) :
    afterLast "/p2p/".toList ("/p2p/".toList ++ peer) = some peer := by
  have hslash : '/' ∉ peer := by
    intro hmem
    rw [validPeerId, Bool.and_eq_true, List.all_eq_true] at h
    exact absurd (h.2 _ hmem) (by decide)
  have hnone : afterLast "/p2p/".toList peer = none :=
    afterLast_eq_none (by decide : '/' ∈ _) hslash
  have hother : ¬ "p2p/".toList <+: peer := fun hstarts => hslash (hstarts.subset (by decide))
  simp_all [afterLast]

lemma afterLast_of_endsIn (hown : afterLast "/p2p/".toList ("/p2p/".toList ++ peer) = some peer)
    (h : EndsIn peer address) : afterLast "/p2p/".toList address = some peer := by
  obtain ⟨front, rfl⟩ := h
  exact afterLast_append front hown

lemma peerOf_eq (h : afterLast "/p2p/".toList address = some peer) : peerOf address = peer := by
  rw [peerOf, h]
  rfl

lemma afterLast_of_peerOf (h : peerOf address = peer) (hne : peer ≠ []) :
    afterLast "/p2p/".toList address = some peer := by
  rw [peerOf] at h
  cases hlast : afterLast "/p2p/".toList address with
  | none =>
    rw [hlast] at h
    exact absurd h.symm hne
  | some found =>
    rw [hlast] at h
    exact congrArg some h

/-- The last address ends the target, so its peer is the one found in the target. -/
lemma endsIn_of_namesOne (hne : value ≠ []) (hlast : value.getLast? ≠ some ',')
    (h : ∀ address ∈ pieces ',' value, EndsIn peer address) : EndsIn peer value := by
  obtain ⟨address, haddress, hsuffix⟩ := exists_piece_suffix hne hlast
  exact (h address haddress).trans hsuffix

lemma getLast?_ne_comma (h : validP2pTarget value) : value.getLast? ≠ some ',' := by
  by_cases hendpoint : validEndpoint value
  · obtain ⟨host, port, hvalue, hport, hdigits⟩ :=
      port_of_validEndpoint hendpoint (ne_nil_of_validP2pTarget h)
    intro hcomma
    rw [hvalue, List.getLast?_append, List.getLast?_cons_of_ne_nil hport,
      List.getLast?_eq_getLast_of_ne_nil hport] at hcomma
    have hmem : ',' ∈ port := Option.some.inj hcomma ▸ List.getLast_mem hport
    exact absurd (hdigits _ hmem) (by decide)
  · exact (addresses_of_validP2pTarget h hendpoint).1

lemma namesOne_iff (h : validP2pTarget value) :
    NamesOne value ↔ ¬ validEndpoint value ∧ Agree value := by
  have hne := ne_nil_of_validP2pTarget h
  constructor
  · rintro ⟨peer, hpeer, hends⟩
    have hvalue := endsIn_of_namesOne hne (getLast?_ne_comma h) hends
    refine ⟨not_validEndpoint_of_endsIn hpeer hvalue, fun address haddress => ?_⟩
    have hown := afterLast_peer hpeer
    rw [peerOf_eq (afterLast_of_endsIn hown (hends address haddress)),
      peerOf_eq (afterLast_of_endsIn hown hvalue)]
  · rintro ⟨hendpoint, hagree⟩
    obtain ⟨-, haddresses⟩ := addresses_of_validP2pTarget h hendpoint
    have hpieces : pieces ',' value ≠ [] := pieces_ne_nil hne
    obtain ⟨first, hfirst⟩ := List.exists_mem_of_ne_nil _ hpieces
    obtain ⟨peer, hafter, hpeer⟩ := haddresses first hfirst
    refine ⟨peer, hpeer, fun address haddress => ?_⟩
    obtain ⟨found, hfound, -⟩ := haddresses address haddress
    have hsame : found = peer := by
      rw [← peerOf_eq hfound, hagree address haddress, ← hagree first hfirst, peerOf_eq hafter]
    exact endsIn_of_afterLast (hsame ▸ hfound)

variable {D : Type} {worker : GreetedWorker D} {request : PlacementRequest D} {option : ModelOption}
  {context : UInt32}

/-- A worker behind a PeerID takes part only if its ring target ends in that PeerID. -/
lemma target_of_unusable (hpeer : worker.candidate.peerId ≠ [])
    (h : unusable worker request option context = []) :
    validP2pTarget worker.hello.ringEndpoint ∧
      afterLast "/p2p/".toList worker.hello.ringEndpoint = some worker.candidate.peerId := by
  have hnonempty : ∀ (text : List Char) (rest : List Char), text ≠ [] → text ++ rest ≠ [] :=
    fun _ _ htext => List.append_ne_nil_of_left_ne_nil htext _
  unfold unusable at h
  dsimp only at h
  rw [if_neg hpeer] at h
  split_ifs at h with _ _ _ _ _ _ htarget
  all_goals first
    | exact absurd h (by decide)
    | exact absurd h (hnonempty _ _ (by decide))
    | skip
  rw [not_or, not_not, Bool.not_eq_true', Bool.not_eq_false] at htarget
  obtain ⟨hvalid, hafter⟩ := htarget
  refine ⟨hvalid, ?_⟩
  rw [peerOf] at hafter
  cases hlast : afterLast "/p2p/".toList worker.hello.ringEndpoint with
  | none =>
    rw [hlast] at hafter
    exact absurd hafter.symm hpeer
  | some peer =>
    rw [hlast] at hafter
    rw [← hafter]
    rfl

/-- The ring of a worker is directed to its own PeerID exactly if the addresses agree. -/
lemma directs_iff (hpeer : worker.candidate.peerId ≠ [])
    (h : unusable worker request option context = []) :
    (∀ address ∈ pieces ',' worker.hello.ringEndpoint, EndsIn worker.candidate.peerId address) ↔
      Agree worker.hello.ringEndpoint := by
  obtain ⟨-, hvalue⟩ := target_of_unusable hpeer h
  have hown := (afterLast_eq_some hvalue).2
  constructor
  · intro hends address haddress
    rw [peerOf_eq (afterLast_of_endsIn hown (hends address haddress)), peerOf_eq hvalue]
  · intro hagree address haddress
    have hfound := hagree address haddress
    rw [peerOf_eq hvalue] at hfound
    exact endsIn_of_afterLast (afterLast_of_peerOf hfound hpeer)

/-- A ring target names one peer, and directs the ring to the peer that gave it, exactly if
`peer_of` finds that peer in all its addresses and it has not the shape of an endpoint. -/
theorem target_names_one_iff (h : validP2pTarget value) :
    (NamesOne value ↔ ¬ validEndpoint value ∧ Agree value) ∧
    ∀ (worker : GreetedWorker D) (request : PlacementRequest D) (option : ModelOption)
      (context : UInt32),
      worker.hello.ringEndpoint = value → worker.candidate.peerId ≠ [] →
      unusable worker request option context = [] →
      ((∀ address ∈ pieces ',' value, EndsIn worker.candidate.peerId address) ↔ Agree value) := by
  refine ⟨namesOne_iff h, ?_⟩
  rintro worker request option context rfl hpeer husable
  exact directs_iff hpeer husable

def addressOf (peer : List Char) : List Char := "/ip4/10.0.0.1/tcp/4001/p2p/".toList ++ peer

/-- A worker whose ring target has two addresses, both of its own peer. -/
def onePeerWorker : GreetedWorker Time :=
  { roomyWorker with
    candidate := { control := "127.0.0.1:4000".toList, peerId := List.replicate 46 'A' }
    hello := { roomyWorker.hello with
      ringEndpoint := addressOf (List.replicate 46 'A') ++
        ",/ip4/192.168.0.1/tcp/4001/p2p/".toList ++ List.replicate 46 'A' } }

theorem target_names_one_small :
    NamesOne onePeerWorker.hello.ringEndpoint ∧
      unusable onePeerWorker (smallPlacement 8192) (smallOption 8192) 8192 = [] ∧
      ∀ address ∈ pieces ',' onePeerWorker.hello.ringEndpoint,
        EndsIn onePeerWorker.candidate.peerId address := by
  have hvalid : validP2pTarget onePeerWorker.hello.ringEndpoint := by decide +kernel
  have husable : unusable onePeerWorker (smallPlacement 8192) (smallOption 8192) 8192 = [] := by
    decide +kernel
  have hagree : Agree onePeerWorker.hello.ringEndpoint := by
    rw [Agree]
    decide +kernel
  obtain ⟨hone, hdirects⟩ := target_names_one_iff (D := Time) hvalid
  exact ⟨hone.mpr ⟨by decide +kernel, hagree⟩, husable,
    (hdirects onePeerWorker _ _ _ rfl (by decide) husable).mpr hagree⟩

/-- A worker with the PeerID `B`s whose ring target has an address of the peer `A`s before its
own. -/
def twoPeerWorker : GreetedWorker Time :=
  { roomyWorker with
    candidate := { control := "127.0.0.1:4000".toList, peerId := List.replicate 46 'B' }
    hello := { roomyWorker.hello with
      ringEndpoint :=
        addressOf (List.replicate 46 'A') ++ ',' :: addressOf (List.replicate 46 'B') } }

/-- A target with two peers is accepted, from a worker that is only the second of them, as is one
that names no peer. -/
theorem target_names_two :
    (validP2pTarget twoPeerWorker.hello.ringEndpoint ∧ ¬ NamesOne twoPeerWorker.hello.ringEndpoint ∧
      unusable twoPeerWorker (smallPlacement 8192) (smallOption 8192) 8192 = [] ∧
      ∃ address ∈ pieces ',' twoPeerWorker.hello.ringEndpoint,
        ¬ EndsIn twoPeerWorker.candidate.peerId address) ∧
    validP2pTarget "/ring:80".toList ∧ ¬ NamesOne "/ring:80".toList := by
  have hvalid : validP2pTarget twoPeerWorker.hello.ringEndpoint := by decide +kernel
  have hendpoint : validP2pTarget "/ring:80".toList := by decide +kernel
  have hagree : ¬ Agree twoPeerWorker.hello.ringEndpoint := by
    rw [Agree]
    decide +kernel
  have husable : unusable twoPeerWorker (smallPlacement 8192) (smallOption 8192) 8192 = [] := by
    decide +kernel
  refine ⟨⟨hvalid, fun hone => hagree ((namesOne_iff hvalid).mp hone).2, husable, ?_⟩, hendpoint,
    ?_⟩
  · by_contra hall
    simp only [not_exists, not_and, not_not] at hall
    exact hagree ((directs_iff (by decide) husable).mp hall)
  · intro hone
    exact ((namesOne_iff hendpoint).mp hone).1 (by decide +kernel)

end ProviderOwned
