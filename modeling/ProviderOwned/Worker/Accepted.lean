import ProviderOwned.Worker.Greeting

/-!
# Which greetings are taken

`parse_available` takes a greeting or refuses all of it. A worker's capability is well formed
(`Formed`), and is taken if besides it is fresh (`Fresh`): no measured speed is too old or rounds to
zero, no more ranges are cached than are taken, and the bandwidth from each peer is given once.
-/

namespace ProviderOwned.Greeting

open Text

/-! ### The length of a text of fields -/

section

variable {fields more : List (List Char × List Char)} {key : String} {value : List Char} {k : Nat}

/-- The room that the lines of these fields take, with their ends. -/
def room (fields : List (List Char × List Char)) : Nat :=
  (fields.map fun field => field.1.length + field.2.length + 2).sum

lemma length_joined_le_sum (sep : Char) (parts : List (List Char)) :
    (joined sep parts).length ≤ (parts.map fun part => part.length + 1).sum := by
  induction parts with
  | nil => exact Nat.zero_le _
  | cons part parts ih =>
    cases parts with
    | nil =>
      rw [joined, List.map_singleton, List.sum_singleton]
      exact Nat.le_succ _
    | cons next parts =>
      rw [joined, List.length_append, List.length_cons, List.map_cons, List.sum_cons]
      omega

lemma length_fieldsText_le (fields : List (List Char × List Char)) :
    (fieldsText fields).length ≤ room fields := by
  refine (length_joined_le_sum _ _).trans (le_of_eq ?_)
  rw [room, List.map_map]
  refine congrArg List.sum (List.map_congr_left fun field _ => ?_)
  simp only [Function.comp_apply, List.length_append, List.length_cons]
  omega

lemma room_append_le {n m : Nat} (h : room fields ≤ n) (hmore : room more ≤ m) :
    room (fields ++ more) ≤ n + m := by
  rw [room, List.map_append, List.sum_append]
  exact Nat.add_le_add h hmore

lemma room_fieldIf_le {used : Bool} (h : used = true → key.length + value.length + 2 ≤ k) :
    room (fieldIf used key value) ≤ k := by
  rw [fieldIf]
  split_ifs with hused
  · rw [room, List.map_singleton, List.sum_singleton, String.length_toList]
    exact h hused
  · exact Nat.zero_le _

lemma room_flatMap_le {α : Type} {f : α → List (List Char × List Char)} {l : List α}
    (h : ∀ a ∈ l, room (f a) ≤ k) : room (l.flatMap f) ≤ l.length * k := by
  induction l with
  | nil => exact Nat.zero_le _
  | cons a l ih =>
    obtain ⟨ha, hl⟩ := List.forall_mem_cons.mp h
    rw [List.flatMap_cons, List.length_cons]
    refine (room_append_le ha (ih hl)).trans (le_of_eq ?_)
    rw [Nat.succ_mul, Nat.add_comm]

lemma room_map_le {α : Type} {f : α → List Char} {l : List α}
    (h : ∀ a ∈ l, key.length + (f a).length + 2 ≤ k) :
    room (l.map fun a => (key.toList, f a)) ≤ l.length * k := by
  have hflat : (l.map fun a => (key.toList, f a)) = l.flatMap fun a => [(key.toList, f a)] :=
    (List.flatMap_pure_eq_map ..).symm
  rw [hflat]
  refine room_flatMap_le fun a ha => ?_
  rw [room, List.map_singleton, List.sum_singleton, String.length_toList]
  exact h a ha

lemma exists_of_foldlM_append {α β : Type} {f : α → β → Option α} {l l' : List β} {a c : α}
    (h : (l ++ l').foldlM f a = some c) : ∃ b, l.foldlM f a = some b ∧ l'.foldlM f b = some c := by
  rw [List.foldlM_append] at h
  exact Option.bind_eq_some_iff.mp h

end

variable {D : Type} [Rounding D] {record : SpeedRecord D} {range : CachedRange} {link : PeerLink}
  {now : Int}
  {clock : Nat → Int} {b b' c : ProviderCapability D}

namespace ProviderCapability

/-- What a worker's capability has at any time. -/
structure Formed (c : ProviderCapability D) : Prop where
  valid : c.valid
  gpu : '\n' ∉ c.gpu
  ring : c.ringEndpoint.length ≤ 16 * 1024
  modelCount : c.models.length ≤ maxGreetingModels
  models : ∀ model ∈ c.models, Address.hexString model 64
  cached : ∀ range ∈ c.cached, Address.hexString range.modelSha256 64 ∧ 0 ≤ range.first ∧
    range.first < range.last ∧ range.last < 2 ^ 31
  speedCount : c.speeds.length ≤ maxSpeedRecords
  speeds : ∀ record ∈ c.speeds, record.key.Proper ∧ record.speed ≤ maxUsPerGib ∧ record.samples ≠ 0
  linkCount : c.links.length ≤ maxGreetingLinks
  links : ∀ link ∈ c.links, link.Valid
  bandwidth : ∃ kibPerS : List Char → UInt32, ∀ link ∈ c.links, link.kibPerS = kibPerS link.peer

/-- What the parser bounds and the worker does not. -/
structure Fresh (c : ProviderCapability D) (now : Int) : Prop where
  cachedCount : c.cached.length ≤ maxGreetingCached
  layers : ∀ range ∈ c.cached, range.last ≤ maxGreetingLayer
  speed : c.speedUsPerGib.toNat ≤ maxUsPerGib
  speeds : ∀ record ∈ c.speeds, record.speed ≠ 0 ∧ record.age now ≤ speedMaxAgeS * 4
  once : c.links.Pairwise fun l link => l.peer = link.peer → link.kibPerS = 0

variable {cached : List CachedRange} {speeds : List (SpeedRecord D)} {links : List PeerLink}

lemma Formed.sendable (h : c.Formed) (hfresh : c.Fresh now) :
    ∀ record ∈ c.speeds, record.Sendable now := by
  intro record hrecord
  obtain ⟨hkey, hle, hsamples⟩ := h.speeds record hrecord
  obtain ⟨hpos, hage⟩ := hfresh.speeds record hrecord
  exact ⟨hkey, Nat.pos_of_ne_zero hpos, hle, hsamples, hage⟩

lemma Formed.counted (h : c.Formed) (hfresh : c.Fresh now) : c.Counted where
  modelCount := h.modelCount
  models := h.models
  cachedCount := hfresh.cachedCount
  cached range hrange :=
    ⟨(h.cached range hrange).1, (h.cached range hrange).2.1, (h.cached range hrange).2.2.1,
      hfresh.layers range hrange⟩
  speed := hfresh.speed
  speedCount := h.speedCount
  linkCount := h.linkCount
  links := h.links

/-! ### The size of a greeting -/

lemma length_decimal_uint32 (n : UInt32) : (decimal n.toNat).length ≤ 10 :=
  length_decimal_le (by decide) (n.toNat_lt.trans (by decide))

lemma length_cachedText_le (h : range.Valid) : (cachedText range).length ≤ 74 := by
  have hsha : range.modelSha256.length = 64 := by
    have hhex := h.sha
    rw [Address.hexString, Bool.and_eq_true, decide_eq_true_eq] at hhex
    exact hhex.1
  have hnumber : ∀ {n : Int}, 0 ≤ n → n ≤ maxGreetingLayer → (intText n).length ≤ 4 := by
    intro n hpos hle
    rw [intText, if_neg (Int.not_lt.mpr hpos)]
    refine length_decimal_le (by decide) ?_
    rw [maxGreetingLayer] at hle
    omega
  have hfirst := hnumber h.first (h.last.le.trans h.layers)
  have hlast := hnumber (h.first.trans h.last.le) h.layers
  rw [cachedText, List.length_append, List.length_cons, List.length_append, List.length_cons, hsha]
  omega

lemma length_speedText_le (h : record.Sendable now) : (speedText record now).length ≤ 122 := by
  have hletter : record.key.phase.letter.length = 1 := by cases record.key.phase <;> rfl
  have hspeed : (decimal record.speed).length ≤ 10 := by
    refine length_decimal_le (by decide) (h.speed_le.trans_lt ?_)
    decide
  have hage : (decimal (record.age now)).length ≤ 10 := by
    refine length_decimal_le (by decide) (h.age.trans_lt ?_)
    decide
  have hcontext := length_decimal_uint32 record.key.context
  have hsessions := length_decimal_uint32 record.key.sessions
  have hsamples := length_decimal_uint32 record.samples
  refine (length_joined_le_sum _ _).trans ?_
  simp only [speedFields, List.map_cons, List.map_nil, List.sum_cons, List.sum_nil, h.key.length,
    hletter]
  omega

lemma room_linkFields_le (h : link.Valid) : room (linkFields link) ≤ 225 := by
  have hpeer := length_le_of_validPeerId h.peer
  have hrtt := length_decimal_uint32 link.rttMs
  have hkib := length_decimal_uint32 link.kibPerS
  have hpath : (if link.relayed then "relay" else "direct").toList.length ≤ 6 := by
    cases link.relayed <;> decide
  have hlink : (linkText link).length ≤ 108 := by
    rw [linkText, List.length_append, List.length_cons, List.length_append, List.length_cons]
    omega
  have hbandwidth : (bandwidthText link).length ≤ 101 := by
    rw [bandwidthText, List.length_append, List.length_cons]
    omega
  have hfirst : room [("link".toList, linkText link)] ≤ 114 := by
    rw [room, List.map_singleton, List.sum_singleton]
    change 4 + (linkText link).length + 2 ≤ 114
    omega
  refine room_append_le (n := 114) (m := 111) hfirst (room_fieldIf_le fun _ => ?_)
  change 7 + (bandwidthText link).length + 2 ≤ 111
  omega

/-- Within the bounds a greeting is not too long. -/
lemma Formed.length_le (h : c.Formed) (hfresh : c.Fresh now) :
    (availableMessage c now).length ≤ maxGreetingBytes := by
  obtain ⟨-, -, hid, hgpu, habi, -, -, -, -, -, -, -, hstate, -⟩ := valid_iff.mp h.valid
  rw [maxGreetingName] at hid hgpu habi
  have hring := h.ring
  have hcounted := h.counted hfresh
  have hmodel : ∀ model ∈ c.models, "model".length + model.length + 2 ≤ 71 := by
    intro model hmodel
    have hhex := h.models model hmodel
    rw [Address.hexString, Bool.and_eq_true, decide_eq_true_eq] at hhex
    rw [hhex.1]
    decide
  have hcached : ∀ range ∈ c.cached, "cached".length + (cachedText range).length + 2 ≤ 82 := by
    intro range hrange
    have hle := length_cachedText_le (hcounted.cached range hrange)
    change 6 + (cachedText range).length + 2 ≤ 82
    omega
  have hspeed : ∀ record ∈ c.speeds, "measured".length + (speedText record now).length + 2 ≤
      132 := by
    intro record hrecord
    have hle := length_speedText_le (h.sendable hfresh record hrecord)
    change 8 + (speedText record now).length + 2 ≤ 132
    omega
  have hlong : ∀ n : UInt64, (decimal n.toNat).length ≤ 20 := fun n =>
    length_decimal_le (by decide) (n.toNat_lt.trans (by decide))
  have hshort := length_decimal_uint32
  have hname : c.state.length ≤ 9 := by
    revert hstate
    generalize c.state = state
    simp only [List.mem_cons, List.not_mem_nil, or_false]
    rintro (rfl | rfl | rfl | rfl | rfl) <;> decide
  have hnames : room [("id".toList, c.id), ("gpu".toList, c.gpu),
      ("vram_mib".toList, decimal c.offeredVramMib.toNat)] ≤ 295 := by
    have hvram := hlong c.offeredVramMib
    change (2 + c.id.length + 2) + ((3 + c.gpu.length + 2) +
      ((8 + (decimal c.offeredVramMib.toNat).length + 2) + 0)) ≤ 295
    omega
  have hidle : room (c.idleS.elim [] fun idle => [("idle_s".toList, decimal idle.toNat),
      ("open_sessions".toList, decimal c.openSessions.toNat)]) ≤ 43 := by
    cases c.idleS with
    | none => exact Nat.zero_le _
    | some idle =>
      have hidle := hshort idle
      have hopen := hshort c.openSessions
      change (6 + (decimal idle.toNat).length + 2) +
        ((13 + (decimal c.openSessions.toNat).length + 2) + 0) ≤ 43
      omega
  have hactivations : (activationsText c.f16Activations c.fp8Activations).length ≤ 7 := by
    cases c.f16Activations <;> cases c.fp8Activations <;> decide
  have hmodels := Nat.mul_le_mul_right 71 hcounted.modelCount
  have hranges := Nat.mul_le_mul_right 82 hcounted.cachedCount
  have hrecords := Nat.mul_le_mul_right 132 hcounted.speedCount
  have hlinks := Nat.mul_le_mul_right 225 hcounted.linkCount
  have hring : "ring".length + c.ringEndpoint.length + 2 ≤ 16390 := by
    change 4 + c.ringEndpoint.length + 2 ≤ 16390
    omega
  have hstate : "state".length + c.state.length + 2 ≤ 16 := by
    change 5 + c.state.length + 2 ≤ 16
    omega
  have habi : "abi".length + c.runtimeAbi.length + 2 ≤ 133 := by
    change 3 + c.runtimeAbi.length + 2 ≤ 133
    omega
  have hcontext : "max_context".length + (decimal c.maxContext.toNat).length + 2 ≤ 23 := by
    have hle := hshort c.maxContext
    change 11 + (decimal c.maxContext.toNat).length + 2 ≤ 23
    omega
  have hsessions : "max_sessions".length + (decimal c.maxSessions.toNat).length + 2 ≤ 24 := by
    have hle := hshort c.maxSessions
    change 12 + (decimal c.maxSessions.toNat).length + 2 ≤ 24
    omega
  have hgeneral : "speed".length + (decimal c.speedUsPerGib.toNat).length + 2 ≤ 27 := by
    have hle := hlong c.speedUsPerGib
    change 5 + (decimal c.speedUsPerGib.toNat).length + 2 ≤ 27
    omega
  have hformats : "activations".length +
      (activationsText c.f16Activations c.fp8Activations).length + 2 ≤ 20 := by
    change 11 + (activationsText c.f16Activations c.fp8Activations).length + 2 ≤ 20
    omega
  have howner : "owner".length + ['1'].length + 2 ≤ 8 := by decide
  have hlink := fun link hlink => room_linkFields_le (h.links link hlink)
  have hroom : room (c.fields now) ≤ _ := room_append_le hnames
    (room_append_le (room_fieldIf_le fun _ => hring)
    (room_append_le (room_fieldIf_le fun _ => hstate)
    (room_append_le (room_fieldIf_le fun _ => habi)
    (room_append_le (room_fieldIf_le fun _ => hcontext)
    (room_append_le (room_fieldIf_le fun _ => hsessions)
    (room_append_le ((room_map_le hmodel).trans hmodels)
    (room_append_le ((room_map_le hcached).trans hranges)
    (room_append_le (room_fieldIf_le fun _ => hgeneral)
    (room_append_le ((room_map_le hspeed).trans hrecords)
    (room_append_le hidle
    (room_append_le ((room_flatMap_le hlink).trans hlinks)
    (room_append_le (room_fieldIf_le fun _ => howner)
    (room_fieldIf_le fun _ => hformats)))))))))))))
  exact (length_fieldsText_le _).trans (hroom.trans (by decide))

/-! ### What is taken -/

lemma fresh_cached
    (hcached : ∀ range ∈ cached, Address.hexString range.modelSha256 64 ∧ 0 ≤ range.first ∧
      range.first < range.last ∧ range.last < 2 ^ 31)
    (h : (cached.map fun range => ("cached".toList, cachedText range)).foldlM (step clock) b =
      some b') :
    b.cached.length + cached.length ≤ max b.cached.length maxGreetingCached ∧
      ∀ range ∈ cached, range.last ≤ maxGreetingLayer := by
  induction cached generalizing b with
  | nil => exact ⟨le_max_left _ _, fun _ h => absurd h List.not_mem_nil⟩
  | cons range cached ih =>
    obtain ⟨⟨hsha, hfirst, horder, hlast⟩, hrest⟩ := List.forall_mem_cons.mp hcached
    rw [List.map_cons, List.foldlM_cons] at h
    obtain ⟨b₁, hb₁, h⟩ := Option.bind_eq_some_iff.mp h
    rw [step_at 9 rfl, readCached_cachedText_eq hsha hfirst horder hlast] at hb₁
    obtain ⟨hfull, hb₁⟩ := Option.ite_none_left_eq_some.mp hb₁
    obtain ⟨read, hread, rfl⟩ := Option.map_eq_some_iff.mp hb₁
    obtain ⟨hlayers, -⟩ := Option.ite_none_left_eq_some.mp hread
    obtain ⟨hcount, hle⟩ := ih hrest h
    dsimp only at hcount
    rw [List.length_append, List.length_singleton] at hcount
    rw [List.length_cons]
    exact ⟨by omega, List.forall_mem_cons.mpr ⟨Int.not_lt.mp hlayers, hle⟩⟩

lemma fresh_speed
    (h : (fieldIf (c.speedUsPerGib ≠ 0) "speed" (decimal c.speedUsPerGib.toNat)).foldlM
    (step clock) b = some b') : c.speedUsPerGib.toNat ≤ maxUsPerGib := by
  rw [foldlM_fieldIf] at h
  split_ifs at h with hused
  · rw [Setters.setKnown_at setters_keys 10 rfl, fromDecimal_decimal c.speedUsPerGib.toNat_lt] at h
    obtain ⟨n, hn, -⟩ := Option.map_eq_some_iff.mp h
    obtain ⟨hsome, hle⟩ := Option.filter_eq_some_iff.mp hn
    rw [Option.some.inj hsome]
    exact of_decide_eq_true hle
  · have hzero : c.speedUsPerGib = 0 := by simpa using hused
    rw [hzero]
    exact Nat.zero_le _

lemma fresh_speeds (hspeeds : ∀ record ∈ speeds, record.key.Proper)
    (h : (speeds.map fun record => ("measured".toList, speedText record now)).foldlM
      (step clock) b = some b') :
    ∀ record ∈ speeds, record.speed ≠ 0 ∧ record.age now ≤ speedMaxAgeS * 4 := by
  induction speeds generalizing b with
  | nil => exact fun _ h => absurd h List.not_mem_nil
  | cons record speeds ih =>
    obtain ⟨hkey, hrest⟩ := List.forall_mem_cons.mp hspeeds
    rw [List.map_cons, List.foldlM_cons] at h
    obtain ⟨b₁, hb₁, h⟩ := Option.bind_eq_some_iff.mp h
    rw [step_at 11 rfl, parseSpeedText_speedText_eq hkey] at hb₁
    obtain ⟨-, hb₁⟩ := Option.ite_none_left_eq_some.mp hb₁
    obtain ⟨read, hread, rfl⟩ := Option.map_eq_some_iff.mp hb₁
    obtain ⟨hgood, -⟩ := Option.ite_none_left_eq_some.mp hread
    simp only [not_or, Nat.not_lt] at hgood
    exact List.forall_mem_cons.mpr ⟨⟨hgood.1, hgood.2.2.2⟩, ih hrest h⟩

/-- The bandwidth of a peer is not taken twice. -/
lemma fold_link_again (hvalid : link.Valid) (hcount : b.links.length < maxGreetingLinks)
    (hmeasured : link.kibPerS ≠ 0) (hagain : ∃ l ∈ b.links, l.peer = link.peer)
    (hset : ∀ l ∈ b.links, l.peer = link.peer → l.kibPerS ≠ 0) :
    (linkFields link).foldlM (step clock) b = none := by
  have hlink : step clock b ("link".toList, linkText link) =
      some { b with links := b.links ++ [{ link with kibPerS := 0 }] } := by
    rw [step_at 14 rfl, if_neg (Nat.not_le.mpr hcount), readLink_linkText hvalid, Option.map_some]
  have hcut : cut ':' (bandwidthText link) = some (link.peer, decimal link.kibPerS.toNat) :=
    cut_append (not_mem_of_validPeerId hvalid.peer (by decide)) _
  have hgood : ¬ (link.kibPerS = 0 ∨ maxGreetingKibPerS < link.kibPerS) := by
    rw [not_or, UInt32.not_lt]
    exact ⟨hmeasured, hvalid.bandwidth⟩
  obtain ⟨n, hn⟩ : ∃ n, b.links.findIdx? (fun l : PeerLink => l.peer = link.peer) = some n := by
    refine Option.isSome_iff_exists.mp (List.findIdx?_isSome.trans (List.any_eq_true.mpr ?_))
    obtain ⟨l, hl, hsame⟩ := hagain
    exact ⟨l, hl, decide_eq_true hsame⟩
  obtain ⟨hlt, hfound, -⟩ := List.findIdx?_eq_some_iff_getElem.mp hn
  have hfirst : (b.links ++ [{ link with kibPerS := 0 }]).findIdx?
    (fun l : PeerLink => l.peer = link.peer) =
      some n := by
    rw [List.findIdx?_append, hn]
    rfl
  have hold : (b.links ++ [{ link with kibPerS := 0 }])[n]? = some b.links[n] := by
    rw [List.getElem?_append_left hlt, List.getElem?_eq_getElem hlt]
  have hkib := hset _ (List.getElem_mem hlt) (of_decide_eq_true hfound)
  have hfail : step clock { b with links := b.links ++ [{ link with kibPerS := 0 }] }
      ("link_bw".toList, bandwidthText link) = none := by
    rw [step_at 15 rfl, setBandwidth, hcut]
    simp only [Option.bind_eq_bind, Option.bind_some, fromDecimal_decimal link.kibPerS.toNat_lt,
      Option.map_some, UInt32.ofNat_toNat, if_neg hgood, hfirst, hold, Option.getD_some, ne_eq,
      hkib, not_false_eq_true, if_true]
  rw [linkFields, List.foldlM_cons, hlink, Option.bind_eq_bind, Option.bind_some, foldlM_fieldIf,
    if_pos (decide_eq_true hmeasured)]
  exact hfail

lemma fresh_links {kibPerS : List Char → UInt32} (hvalid : ∀ link ∈ links, link.Valid)
    (hkib : ∀ link ∈ b.links ++ links, link.kibPerS = kibPerS link.peer)
    (hcount : b.links.length + links.length ≤ maxGreetingLinks)
    (hb : b.links.Pairwise fun l link => l.peer = link.peer → link.kibPerS = 0)
    (h : (links.flatMap linkFields).foldlM (step clock) b = some b') :
    (b.links ++ links).Pairwise fun l link => l.peer = link.peer → link.kibPerS = 0 := by
  induction links generalizing b with
  | nil =>
    rw [List.append_nil]
    exact hb
  | cons link links ih =>
    obtain ⟨hlink, hlinks⟩ := List.forall_mem_cons.mp hvalid
    rw [List.length_cons] at hcount
    rw [List.flatMap_cons] at h
    obtain ⟨b₁, hb₁, h⟩ := exists_of_foldlM_append h
    have hsame : link.kibPerS = kibPerS link.peer :=
      hkib link (List.mem_append_right _ List.mem_cons_self)
    have hnew : link.kibPerS ≠ 0 → ∀ l ∈ b.links, l.peer ≠ link.peer := by
      intro hmeasured l hl hpeer
      rw [fold_link_again hlink (by omega) hmeasured ⟨l, hl, hpeer⟩] at hb₁
      · cases hb₁
      · intro l hl hpeer
        rw [hkib l (List.mem_append_left _ hl), hpeer, ← hsame]
        exact hmeasured
    rw [fold_link hlink (by omega) hnew] at hb₁
    obtain rfl := Option.some.inj hb₁
    have hmore : (b.links ++ [link]).Pairwise fun l link => l.peer = link.peer →
        link.kibPerS = 0 := by
      refine List.pairwise_append.mpr ⟨hb, List.pairwise_singleton ..,
        fun l hl other hother hpeer => ?_⟩
      rw [List.mem_singleton.mp hother] at hpeer ⊢
      by_contra hmeasured
      exact hnew hmeasured l hl hpeer
    have hall := ih (b := { b with links := b.links ++ [link] }) hlinks (by simpa using hkib)
      (by simp only [List.length_append, List.length_singleton]; omega) hmore h
    simpa using hall

/-- A worker's greeting is taken if and only if it is fresh. -/
lemma Formed.isSome_iff (h : c.Formed) :
    (parseAvailable (D := D) (availableMessage c now) clock).isSome ↔ c.Fresh now := by
  constructor
  · intro hsome
    obtain ⟨taken, htaken⟩ := Option.isSome_iff_exists.mp hsome
    have hplain : PlainFields (c.fields now) :=
      plain_fields h.valid h.gpu h.models (fun range hrange => (h.cached range hrange).1)
        (fun record hrecord => (h.speeds record hrecord).1) h.links
    rw [parseAvailable] at htaken
    obtain ⟨-, htaken⟩ := Option.ite_none_left_eq_some.mp htaken
    obtain ⟨hread, -⟩ := Option.filter_eq_some_iff.mp htaken
    rw [availableMessage, readFields_fieldsText hplain] at hread
    obtain ⟨b, hb, hread⟩ := exists_of_foldlM_append hread
    obtain rfl := Option.some.inj (hb.symm.trans fold_names)
    obtain ⟨b, hb, hread⟩ := exists_of_foldlM_append hread
    obtain rfl := Option.some.inj (hb.symm.trans (fold_ring rfl))
    obtain ⟨b, hb, hread⟩ := exists_of_foldlM_append hread
    obtain rfl := Option.some.inj (hb.symm.trans (fold_state rfl))
    obtain ⟨b, hb, hread⟩ := exists_of_foldlM_append hread
    obtain rfl := Option.some.inj (hb.symm.trans (fold_abi rfl))
    obtain ⟨b, hb, hread⟩ := exists_of_foldlM_append hread
    obtain rfl := Option.some.inj (hb.symm.trans (fold_maxContext rfl))
    obtain ⟨b, hb, hread⟩ := exists_of_foldlM_append hread
    obtain rfl := Option.some.inj (hb.symm.trans (fold_maxSessions rfl))
    obtain ⟨b, hb, hread⟩ := exists_of_foldlM_append hread
    obtain rfl :=
      Option.some.inj (hb.symm.trans (fold_models h.models (by simpa using h.modelCount)))
    obtain ⟨b, hb, hread⟩ := exists_of_foldlM_append hread
    obtain ⟨hcount, hlayers⟩ := fresh_cached h.cached hb
    have hcachedCount : c.cached.length ≤ maxGreetingCached := by simpa using hcount
    have hcached : ∀ range ∈ c.cached, range.Valid := fun range hrange =>
      ⟨(h.cached range hrange).1, (h.cached range hrange).2.1, (h.cached range hrange).2.2.1,
        hlayers range hrange⟩
    obtain rfl :=
      Option.some.inj (hb.symm.trans (fold_cached hcached (by simpa using hcachedCount)))
    obtain ⟨b, hb, hread⟩ := exists_of_foldlM_append hread
    have hspeed := fresh_speed hb
    obtain rfl := Option.some.inj (hb.symm.trans (fold_speed rfl hspeed))
    obtain ⟨b, hb, hread⟩ := exists_of_foldlM_append hread
    have hspeeds := fresh_speeds (fun record hrecord => (h.speeds record hrecord).1) hb
    have hsendable : ∀ record ∈ c.speeds, record.Sendable now := fun record hrecord =>
      ⟨(h.speeds record hrecord).1, Nat.pos_of_ne_zero (hspeeds record hrecord).1,
        (h.speeds record hrecord).2.1, (h.speeds record hrecord).2.2, (hspeeds record hrecord).2⟩
    obtain rfl :=
      Option.some.inj (hb.symm.trans (fold_speeds hsendable (by simpa using h.speedCount)))
    obtain ⟨b, hb, hread⟩ := exists_of_foldlM_append hread
    obtain rfl := Option.some.inj (hb.symm.trans (fold_idle rfl rfl))
    obtain ⟨b, hb, hread⟩ := exists_of_foldlM_append hread
    obtain ⟨kibPerS, hkib⟩ := h.bandwidth
    have honce := fresh_links h.links (by simpa using hkib) (by simpa using h.linkCount)
      List.Pairwise.nil hb
    exact ⟨hcachedCount, hlayers, hspeed, hspeeds, honce⟩
  · intro hfresh
    rw [parseAvailable_of_counted (h.counted hfresh) h.valid h.gpu (h.sendable hfresh) hfresh.once
      (h.length_le hfresh)]
    rfl

end ProviderCapability

end ProviderOwned.Greeting
