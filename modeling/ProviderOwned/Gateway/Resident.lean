import Mathlib.Data.List.Nodup
import ProviderOwned.Lib.Ledger
import ProviderOwned.Gateway.Sessions

/-!
# Who holds a resident session

Every session the gateway created is with one holder: the request that works on it, the cache, the
sweep that has taken it out and is about to destroy it, or the destroy that was issued for it. No
session ever has two holders (`exclusive`). It loses its last one in two places: `chatWithSession`
takes an expired record out of the cache and forgets it, and stores a record over another one with
the same key. In runs without these every session has exactly one holder
(`session_held_once`).
-/

namespace ProviderOwned.Gateway

open Transition

inductive Holder
  | request (r : Nat)
  | cached (key : Text)
  | sweeper
  | destroyed
  deriving DecidableEq

namespace Config

variable {hash : Text → Text} {endpoints : List String} {g g' : Config} {r session : Nat}
  {x : Holder} {e : Event}

/-- The holder `x` has the session in its hands. -/
def Holds (g : Config) : Holder → Nat → Prop
  | .request r, session => ∃ c, g.chats r = some c ∧ c.phase.session = some session
  | .cached key, session => ∃ rec, g.sessions.Has key rec ∧ rec.id = session
  | .sweeper, session => ∃ rec ∈ g.sweeping, rec.id = session
  | .destroyed, session => session ∈ g.destroyed

/-- `newSessionID` draws an id that was not drawn before. -/
def Fresh (g : Config) : Event → Prop
  | .create _ session => session ∉ g.created
  | _ => True

instance (g : Config) : DecidablePred g.Fresh
  | .create _ session => inferInstanceAs (Decidable (session ∉ g.created))
  | .tick _ | .chat .. | .look _ | .resumed .. | .start _ | .served .. | .store _ | .sweep _
  | .sweepNext => inferInstanceAs (Decidable True)

/-! ### Holders after a change -/

lemma holds_congr (hchats : g'.chats = g.chats) (hsessions : g'.sessions = g.sessions)
    (hsweeping : g'.sweeping = g.sweeping) (hdestroyed : g'.destroyed = g.destroyed) :
    g'.Holds x session ↔ g.Holds x session := by
  cases x <;> simp [Holds, hchats, hsessions, hsweeping, hdestroyed]

lemma holds_request_iff {c : Chat} (hc : g.chats r = some c) :
    g.Holds (.request r) session ↔ c.phase.session = some session := by
  simp [Holds, hc]

lemma holds_setChat {chat : Option Chat} :
    (g.setChat r chat).Holds x session ↔
      (x = .request r ∧ ∃ c, chat = some c ∧ c.phase.session = some session) ∨
        (x ≠ .request r ∧ g.Holds x session) := by
  cases x with
  | request q =>
    by_cases hq : q = r
    · simp [Holds, setChat, hq]
    · simp [Holds, setChat, hq]
  | cached key => simp [Holds, setChat]
  | sweeper => simp [Holds, setChat]
  | destroyed => simp [Holds, setChat]

/-- The request goes on, or is over, with no session. -/
lemma holds_setChat_none {chat : Option Chat}
    (hchat : ∀ c, chat = some c → c.phase.session = none) :
    (g.setChat r chat).Holds x session ↔ x ≠ .request r ∧ g.Holds x session := by
  rw [holds_setChat, or_iff_right]
  rintro ⟨-, c, hc, hsession⟩
  rw [hchat c hc] at hsession
  contradiction

/-- The request goes on with the session it has. -/
lemma holds_setChat_same {c c' : Chat} (hc : g.chats r = some c)
    (hsession : c'.phase.session = c.phase.session) :
    (g.setChat r (some c')).Holds x session ↔ g.Holds x session := by
  rw [holds_setChat]
  by_cases hx : x = .request r
  · simp [hx, holds_request_iff hc, hsession]
  · simp [hx]

/-- The request goes on with another session. -/
lemma holds_setChat_some {c : Chat} {s : Nat} (hs : c.phase.session = some s) :
    (g.setChat r (some c)).Holds x session ↔
      (x = .request r ∧ session = s) ∨ (x ≠ .request r ∧ g.Holds x session) := by
  rw [holds_setChat]
  simp [hs, eq_comm]

lemma holds_destroy {s : Nat} :
    (g.destroy s).Holds x session ↔ (x = .destroyed ∧ session = s) ∨ g.Holds x session := by
  cases x <;> simp [Holds, destroy]

lemma holds_erase {key : Text} :
    { g with sessions := g.sessions.erase key }.Holds x session ↔
      x ≠ .cached key ∧ g.Holds x session := by
  cases x <;> simp [Holds, and_assoc]

lemma holds_insert {key : Text} {rec : SessionRecord} :
    { g with sessions := g.sessions.insert key rec }.Holds x session ↔
      (x = .cached key ∧ session = rec.id) ∨ (x ≠ .cached key ∧ g.Holds x session) := by
  cases x with
  | cached k =>
    by_cases hk : k = key
    · simp [Holds, hk, eq_comm]
    · simp [Holds, hk]
  | request q => simp [Holds]
  | sweeper => simp [Holds]
  | destroyed => simp [Holds]

/-- What the sweep does to the records that have expired at `now`. -/
lemma holds_sweep {now : Nat} (hnone : g.sweeping = []) :
    { g with sweeping := g.sessions.expired now, sessions := g.sessions.sweep now }.Holds x
      session ↔
      (x = .sweeper ∧ ∃ rec ∈ g.sessions.expired now, rec.id = session) ∨
        (g.Holds x session ∧
          ∀ key, x = .cached key → ∃ rec, g.sessions.Has key rec ∧ rec.id = session ∧
            ¬ rec.expires < now) := by
  cases x with
  | cached k =>
    simp only [Holds, Cache.has_sweep, reduceCtorEq, false_and, false_or, Holder.cached.injEq,
      forall_eq']
    constructor
    · rintro ⟨rec, ⟨hexpires, hhas⟩, hid⟩
      exact ⟨⟨rec, hhas, hid⟩, rec, hhas, hid, hexpires⟩
    · rintro ⟨-, rec, hhas, hid, hexpires⟩
      exact ⟨rec, ⟨hexpires, hhas⟩, hid⟩
  | request q => simp [Holds]
  | sweeper => simp [Holds, hnone]
  | destroyed => simp [Holds]

lemma holds_sweepNext {rec : SessionRecord} {rest : List SessionRecord}
    (hsweeping : g.sweeping = rec :: rest) (hfresh : ∀ rec' ∈ rest, rec'.id ≠ rec.id) :
    { g with sweeping := rest }.Holds x session ↔
      g.Holds x session ∧ (x = .sweeper → session ≠ rec.id) := by
  cases x with
  | sweeper =>
    simp only [Holds, hsweeping, List.mem_cons, exists_eq_or_imp, forall_const]
    constructor
    · rintro ⟨rec', hmem, rfl⟩
      exact ⟨.inr ⟨rec', hmem, rfl⟩, hfresh rec' hmem⟩
    · rintro ⟨hid | hrest, hne⟩
      · exact absurd hid.symm hne
      · exact hrest
  | cached k => simp [Holds]
  | request q => simp [Holds]
  | destroyed => simp [Holds]

/-! ### No session has two holders -/

/-- No session has two holders, all that are held were created, and the sweep has none twice. -/
structure HeldOnce (g : Config) : Prop where
  exclusive : Ledger.Exclusive g.Holds (· ∈ g.created)
  sweeping : (g.sweeping.map SessionRecord.id).Nodup

/-- Under different keys the cache has different sessions. -/
lemma HeldOnce.expired_nodup (h : g.HeldOnce) (now : Nat) :
    ((g.sessions.expired now).map SessionRecord.id).Nodup := by
  have hpairs : (g.sessions.entries.map fun entry => entry.2.id).Nodup := by
    refine List.Nodup.map_on ?_ (List.Nodup.of_map _ g.sessions.nodup)
    rintro ⟨key, rec⟩ hentry ⟨key', rec'⟩ hentry' hid
    have hkey := h.exclusive.unique (.cached key) (.cached key') rec.id ⟨rec, hentry, rfl⟩
      ⟨rec', hentry', hid.symm⟩
    obtain rfl := Holder.cached.inj hkey
    rw [Cache.Has.unique hentry hentry']
  rw [Cache.expired, List.map_map]
  exact hpairs.sublist (List.filter_sublist.map _)

lemma HeldOnce.sweeping_fresh {rec : SessionRecord} {rest : List SessionRecord} (h : g.HeldOnce)
    (hsweeping : g.sweeping = rec :: rest) : ∀ rec' ∈ rest, rec'.id ≠ rec.id := by
  have hnodup := h.sweeping
  rw [hsweeping, List.map_cons, List.nodup_cons] at hnodup
  intro rec' hmem heq
  exact hnodup.1 (List.mem_map.mpr ⟨rec', hmem, heq⟩)

/-- What a request with a session in its hands gives away, it has no more. -/
lemma holds_request_ne {c : Chat} {s : Nat} (hc : g.chats r = some c)
    (hs : c.phase.session = some s) (hne : session ≠ s) : ¬ g.Holds (.request r) session := by
  rw [holds_request_iff hc, hs]
  simpa using hne.symm

/-- A request gives its session to a destroy. -/
lemma exclusive_destroy {c : Chat} {s : Nat} {chat : Option Chat}
    (h : Ledger.Exclusive g.Holds (· ∈ g.created)) (hc : g.chats r = some c)
    (hs : c.phase.session = some s) (hchat : ∀ c', chat = some c' → c'.phase.session = none) :
    Ledger.Exclusive ((g.destroy s).setChat r chat).Holds (· ∈ g.created) := by
  refine h.handover (.request r) .destroyed s ((holds_request_iff hc).mpr hs) (fun _ => id)
    fun x t hx => ?_
  obtain ⟨hne, hx⟩ := (holds_setChat_none hchat).mp hx
  rcases holds_destroy.mp hx with hx | hx
  · exact .inl hx
  · exact .inr ⟨hx, fun heq => absurd heq hne⟩

lemma complete_destroy {c : Chat} {s : Nat} {chat : Option Chat}
    (h : Ledger.Complete g.Holds (· ∈ g.created)) (hc : g.chats r = some c)
    (hs : c.phase.session = some s) (hchat : ∀ c', chat = some c' → c'.phase.session = none) :
    Ledger.Complete ((g.destroy s).setChat r chat).Holds (· ∈ g.created) := by
  refine h.handover .destroyed s (fun _ => .inl) ?_ fun x t ht hx => ?_
  · exact (holds_setChat_none hchat).mpr ⟨by simp, holds_destroy.mpr (.inl ⟨rfl, rfl⟩)⟩
  · refine (holds_setChat_none hchat).mpr ⟨?_, holds_destroy.mpr (.inr hx)⟩
    rintro rfl
    exact holds_request_ne hc hs ht hx

lemma step_heldOnce (h : g.HeldOnce) (hfresh : g.Fresh e) (hstep : Step hash g e g') :
    g'.HeldOnce := by
  cases hstep with
  | tick time =>
    exact ⟨h.exclusive.mono (fun _ => id) fun x s => (holds_congr rfl rfl rfl rfl).mp, h.sweeping⟩
  | miss onChunk hnew hmessages =>
    refine ⟨h.exclusive.mono (fun _ => id) fun x s hx => ?_, h.sweeping⟩
    exact ((holds_setChat_none (by simp [Phase.session])).mp hx).2
  | @take r messages rec onChunk hnew hmessages hlong hfound =>
    refine ⟨h.exclusive.handover (.cached (lookupKey hash messages)) (.request r) rec.id
      ⟨rec, hfound, rfl⟩ (fun _ => id) fun x s hx => ?_, h.sweeping⟩
    rcases (holds_setChat_some rfl).mp hx with hx | ⟨-, hx⟩
    · exact .inl hx
    · obtain ⟨hne, hx⟩ := holds_erase.mp hx
      exact .inr ⟨hx, fun heq => absurd heq hne⟩
  | resume hc hphase hresumes =>
    refine ⟨h.exclusive.mono (fun _ => id) fun x s hx => ?_, h.sweeping⟩
    exact (holds_congr rfl rfl rfl rfl).mp ((holds_setChat_same hc (by rw [hphase]; rfl)).mp hx)
  | drop hc hphase hno =>
    refine ⟨h.exclusive.mono (fun _ => id) fun x s hx => ?_, h.sweeping⟩
    exact ((holds_setChat_none (by simp [Phase.session])).mp hx).2
  | resumed served eog reply hc hphase =>
    refine ⟨h.exclusive.mono (fun _ => id) fun x s hx => ?_, h.sweeping⟩
    exact (holds_congr rfl rfl rfl rfl).mp ((holds_setChat_same hc (by rw [hphase]; rfl)).mp hx)
  | failed served eog hc hphase hmessages hphase' =>
    exact ⟨exclusive_destroy h.exclusive hc (by rw [hphase]; rfl)
      (by simp [hphase', Phase.session]), h.sweeping⟩
  | start request replica hc hphase hmessages hchoosing =>
    obtain ⟨rest, hchoosing⟩ := hchoosing
    refine ⟨h.exclusive.mono (fun _ => id) fun x s hx => ?_, h.sweeping⟩
    exact (holds_congr rfl rfl rfl rfl).mp
      ((holds_setChat_none (by simp [hchoosing, Phase.session])).mp hx).2
  | @create r c endpoint rest session hc hphase =>
    refine ⟨h.exclusive.give (.request r) session hfresh ?_ fun x s hx => ?_, h.sweeping⟩
    · rintro s (hs | rfl)
      · exact List.mem_cons_of_mem session hs
      · exact List.mem_cons_self
    · rcases (holds_setChat_some rfl).mp hx with hx | ⟨-, hx⟩
      · exact .inl hx
      · exact .inr ((holds_congr rfl rfl rfl rfl).mp hx)
  | served served eog reply hc hphase =>
    refine ⟨h.exclusive.mono (fun _ => id) fun x s hx => ?_, h.sweeping⟩
    exact (holds_congr rfl rfl rfl rfl).mp ((holds_setChat_same hc (by rw [hphase]; rfl)).mp hx)
  | refused served eog hc hphase hchat =>
    refine ⟨exclusive_destroy h.exclusive hc (by rw [hphase]; rfl) fun c' hc' => ?_, h.sweeping⟩
    obtain ⟨-, rest, hchoosing⟩ := hchat c' hc'
    rw [hchoosing]
    rfl
  | @store r c endpoint session reply hc hphase =>
    refine ⟨h.exclusive.handover (.request r) (.cached (storeKey hash c reply)) session
      ((holds_request_iff hc).mpr (by rw [hphase]; rfl)) (fun _ => id) fun x s hx => ?_, h.sweeping⟩
    obtain ⟨hne, hx⟩ := (holds_setChat_none (by simp)).mp hx
    rcases holds_insert.mp ((holds_congr rfl rfl rfl rfl).mp hx) with hx | ⟨-, hx⟩
    · exact .inl hx
    · exact .inr ⟨hx, fun heq => absurd heq hne⟩
  | @sweep now hnone =>
    refine ⟨h.exclusive.move (fun s => ∃ rec ∈ g.sessions.expired now, rec.id = s)
      (fun _ => .sweeper)
      ?_ fun x s hx => ?_, h.expired_nodup now⟩
    · rintro s (hs | ⟨rec, hrec, rfl⟩)
      · exact hs
      · obtain ⟨-, key, hhas⟩ := Cache.mem_expired_iff.mp hrec
        exact h.exclusive.known (.cached key) rec.id ⟨rec, hhas, rfl⟩
    · rcases (holds_sweep hnone).mp hx with ⟨rfl, hx⟩ | ⟨hx, hcached⟩
      · exact .inl ⟨hx, rfl⟩
      · refine .inr ⟨?_, hx⟩
        rintro ⟨rec, hrec, rfl⟩
        obtain ⟨hexpired, key, hhas⟩ := Cache.mem_expired_iff.mp hrec
        obtain rfl := h.exclusive.unique x (.cached key) rec.id hx ⟨rec, hhas, rfl⟩
        obtain ⟨rec', hhas', -, hlive⟩ := hcached key rfl
        exact hlive (hhas.unique hhas' ▸ hexpired)
  | @sweepNext rec rest hsweeping =>
    have hnodup := h.sweeping
    rw [hsweeping, List.map_cons, List.nodup_cons] at hnodup
    refine ⟨h.exclusive.handover .sweeper .destroyed rec.id
      ⟨rec, by simp [hsweeping], rfl⟩ (fun _ => id) fun x s hx => ?_, hnodup.2⟩
    rcases holds_destroy.mp hx with hx | hx
    · exact .inl hx
    · exact .inr ((holds_sweepNext hsweeping (h.sweeping_fresh hsweeping)).mp hx)

lemma heldOnce (h : (gateway hash endpoints).Reachable Fresh g) : g.HeldOnce := by
  refine h.invariant ⟨⟨?_, ?_⟩, by simp [gateway]⟩
    fun s e s' _ ih hok hstep => step_heldOnce ih hok (step_cases hstep)
  · rintro (r | key | _ | _) y s hx <;> simp [Holds, gateway, Cache.Has] at hx
  · rintro (r | key | _ | _) s hx <;> simp [Holds, gateway, Cache.Has] at hx

/-! ### No session is lost -/

/-- The record a request found has not expired. -/
def aliveAt (now : Nat) : Phase → Bool
  | .found rec => now < rec.expires
  | _ => true

/-- The request stores its session under a key that has no record. -/
def storesApart (hash : Text → Text) (g : Config) (c : Chat) : Bool :=
  match c.phase with
  | .storing _ _ reply => (g.sessions.find (storeKey hash c reply)).isNone
  | _ => true

/-- A request that looks at the record it found finds it alive, and a request stores its session
under a key that has no record. -/
def HandsOn (hash : Text → Text) (g : Config) : Event → Prop
  | .look r => ∀ c ∈ g.chats r, aliveAt g.clock c.phase
  | .store r => ∀ c ∈ g.chats r, g.storesApart hash c
  | _ => True

instance (hash : Text → Text) (g : Config) : DecidablePred (g.HandsOn hash)
  | .look r => inferInstanceAs (Decidable (∀ c ∈ g.chats r, aliveAt g.clock c.phase))
  | .store r => inferInstanceAs (Decidable (∀ c ∈ g.chats r, g.storesApart hash c))
  | .tick _ | .chat .. | .resumed .. | .start _ | .create .. | .served .. | .sweep _
  | .sweepNext => inferInstanceAs (Decidable True)

/-- The sessions that were created all have a holder. -/
def Complete (g : Config) : Prop := Ledger.Complete g.Holds (· ∈ g.created)

/-- A record that is alive is resumed. -/
lemma resumes_isSome {c : Chat} {rec : SessionRecord} {now : Nat} (hmessages : Accepted c.messages)
    (hlong : 1 < c.messages.length) (hlive : now < rec.expires) :
    resumes c.messages (some rec) now ≠ none := by
  have hlast : Accepted (c.messages.drop (c.messages.length - 1)) := by
    refine ⟨?_, fun m hm => hmessages.2 m (List.drop_subset _ _ hm)⟩
    rw [ne_eq, List.drop_eq_nil_iff]
    omega
  intro hno
  have hsome := resumes_eq_some_iff.mpr ⟨rfl, hlong, hlive, qwenPrompt_of_accepted hlast⟩
  rw [hno] at hsome
  contradiction

lemma step_complete (h : g.Complete) (honce : g.HeldOnce) (hchecked : g.Checked)
    (hhands : g.HandsOn hash e) (hstep : Step hash g e g') : g'.Complete := by
  cases hstep with
  | tick time =>
    exact Ledger.Complete.mono h (fun _ => id) fun x s => (holds_congr rfl rfl rfl rfl).mpr
  | miss onChunk hnew hmessages =>
    refine Ledger.Complete.mono h (fun _ => id) fun x s hx => ?_
    refine (holds_setChat_none (by simp [Phase.session])).mpr ⟨?_, hx⟩
    rintro rfl
    simp [Holds, hnew] at hx
  | @take r messages rec onChunk hnew hmessages hlong hfound =>
    refine Ledger.Complete.handover h (.request r) rec.id (fun _ => .inl)
      ((holds_setChat_some rfl).mpr (.inl ⟨rfl, rfl⟩)) fun x s hs hx => ?_
    refine (holds_setChat_some rfl).mpr (.inr ⟨?_, holds_erase.mpr ⟨?_, hx⟩⟩)
    · rintro rfl
      simp [Holds, hnew] at hx
    · rintro rfl
      obtain ⟨rec', hhas, rfl⟩ := hx
      rw [hhas.unique hfound] at hs
      exact hs rfl
  | resume hc hphase hresumes =>
    refine Ledger.Complete.mono h (fun _ => id) fun x s hx => ?_
    exact (holds_setChat_same hc (by rw [hphase]; rfl)).mpr ((holds_congr rfl rfl rfl rfl).mpr hx)
  | @drop r c rec hc hphase hno =>
    have hlive := hhands c hc
    rw [hphase, aliveAt, decide_eq_true_eq] at hlive
    obtain ⟨hmessages, hlong⟩ := hchecked r c hc
    exact absurd hno (resumes_isSome hmessages (hlong rec hphase) hlive)
  | resumed served eog reply hc hphase =>
    refine Ledger.Complete.mono h (fun _ => id) fun x s hx => ?_
    exact (holds_setChat_same hc (by rw [hphase]; rfl)).mpr ((holds_congr rfl rfl rfl rfl).mpr hx)
  | @failed r c c' rec delta served eog hc hphase hmessages hphase' =>
    exact complete_destroy h hc (by rw [hphase]; rfl) (by simp [hphase', Phase.session])
  | start request replica hc hphase hmessages hchoosing =>
    obtain ⟨rest, hchoosing⟩ := hchoosing
    refine Ledger.Complete.mono h (fun _ => id) fun x s hx => ?_
    refine (holds_setChat_none (by simp [hchoosing, Phase.session])).mpr
      ⟨?_, (holds_congr rfl rfl rfl rfl).mpr hx⟩
    rintro rfl
    rw [holds_request_iff hc, hphase] at hx
    contradiction
  | @create r c endpoint rest session hc hphase =>
    refine Ledger.Complete.handover h (.request r) session (fun s hs => (List.mem_cons.mp hs).symm)
      ((holds_setChat_some rfl).mpr (.inl ⟨rfl, rfl⟩)) fun x s hs hx => ?_
    refine (holds_setChat_some rfl).mpr (.inr ⟨?_, (holds_congr rfl rfl rfl rfl).mpr hx⟩)
    rintro rfl
    rw [holds_request_iff hc, hphase] at hx
    contradiction
  | served served eog reply hc hphase =>
    refine Ledger.Complete.mono h (fun _ => id) fun x s hx => ?_
    exact (holds_setChat_same hc (by rw [hphase]; rfl)).mpr ((holds_congr rfl rfl rfl rfl).mpr hx)
  | refused served eog hc hphase hchat =>
    refine complete_destroy h hc (by rw [hphase]; rfl) fun c' hc' => ?_
    obtain ⟨-, rest, hchoosing⟩ := hchat c' hc'
    rw [hchoosing]
    rfl
  | @store r c endpoint session reply hc hphase =>
    have hfree := hhands c hc
    simp only [storesApart, hphase, Option.isNone_iff_eq_none] at hfree
    refine Ledger.Complete.handover h (.cached (storeKey hash c reply)) session (fun _ => .inl) ?_
      fun x s hs hx => ?_
    · exact (holds_setChat_none (by simp)).mpr ⟨by simp, (holds_congr rfl rfl rfl rfl).mpr
        (holds_insert.mpr (.inl ⟨rfl, rfl⟩))⟩
    · refine (holds_setChat_none (by simp)).mpr ⟨?_, (holds_congr rfl rfl rfl rfl).mpr
        (holds_insert.mpr (.inr ⟨?_, hx⟩))⟩
      · rintro rfl
        exact holds_request_ne hc (by rw [hphase]; rfl) hs hx
      · rintro rfl
        obtain ⟨rec, hhas, -⟩ := hx
        rw [Cache.find_eq_some_iff.mpr hhas] at hfree
        contradiction
  | @sweep now hnone =>
    refine Ledger.Complete.move h (fun s => ∃ rec ∈ g.sessions.expired now, rec.id = s)
      (fun _ => .sweeper) (fun _ => .inl) (fun s hs => (holds_sweep hnone).mpr (.inl ⟨rfl, hs⟩))
      fun x s hs hx => ⟨x, (holds_sweep hnone).mpr (.inr ⟨hx, ?_⟩)⟩
    rintro key rfl
    obtain ⟨rec, hhas, rfl⟩ := hx
    exact ⟨rec, hhas, rfl, fun hexpired => hs ⟨rec, Cache.mem_expired_iff.mpr ⟨hexpired, key, hhas⟩,
      rfl⟩⟩
  | @sweepNext rec rest hsweeping =>
    refine Ledger.Complete.handover h .destroyed rec.id (fun _ => .inl)
      (holds_destroy.mpr (.inl ⟨rfl, rfl⟩)) fun x s hs hx => holds_destroy.mpr (.inr ?_)
    exact (holds_sweepNext hsweeping (honce.sweeping_fresh hsweeping)).mpr ⟨hx, fun _ => hs⟩

/-- The sweep needs nobody to destroy what it has taken out. -/
lemma sweep_destroys (g : Config) :
    ∃ g', (gateway hash endpoints).exec (fun _ _ => True) g
        (List.replicate g.sweeping.length .sweepNext) = some g' ∧ g'.sweeping = [] ∧
      ∀ s, g.Holds .sweeper s ∨ g.Holds .destroyed s → g'.Holds .destroyed s := by
  induction hsweeping : g.sweeping generalizing g with
  | nil => exact ⟨g, rfl, hsweeping, by simp [Holds, hsweeping]⟩
  | cons rec rest ih =>
    obtain ⟨g', hexec, hdone, hall⟩ := ih ({ g with sweeping := rest }.destroy rec.id) rfl
    refine ⟨g', ?_, hdone, fun s hs => hall s ?_⟩
    · simpa [List.replicate_succ, System.exec, gateway, step, hsweeping] using hexec
    · simp only [Holds, hsweeping, List.mem_cons, exists_eq_or_imp] at hs
      rcases hs with (rfl | hrest) | hdestroyed
      · exact .inr List.mem_cons_self
      · exact .inl hrest
      · exact .inr (List.mem_cons_of_mem _ hdestroyed)

/-- In runs in which no record is found expired or overwritten, every session the gateway created is
with exactly one holder: one request, one key of the cache, its destroy, or the sweep that took it
out, which destroys it next. -/
theorem session_held_once
    (h : (gateway hash endpoints).Reachable (fun g e => g.Fresh e ∧ g.HandsOn hash e) g) :
    (∀ s ∈ g.created, ∃! x, g.Holds x s) ∧ (∀ x s, g.Holds x s → s ∈ g.created) ∧
      ∃ g', (gateway hash endpoints).exec (fun _ _ => True) g
          (List.replicate g.sweeping.length .sweepNext) = some g' ∧
        ∀ s, g.Holds .sweeper s → g'.Holds .destroyed s := by
  have honce := heldOnce (h.mono fun _ _ hok => hok.1)
  have hcomplete : g.Complete := by
    refine h.invariant (fun s hs => ?_) fun s e s' hs ih hok hstep => ?_
    · simp [gateway] at hs
    · exact step_complete ih (heldOnce (hs.mono fun _ _ hok => hok.1)) (checked hs) hok.2
        (step_cases hstep)
  obtain ⟨g', hexec, -, hall⟩ := @sweep_destroys hash endpoints g
  exact ⟨fun s => Ledger.existsUnique_holder honce.exclusive hcomplete, honce.exclusive.known, g',
    hexec, fun s hs => hall s (.inl hs)⟩

/-- The first turn of a conversation: the coordinator answers "Hello", and the session is stored. -/
def firstTurn (r session : Nat) : List Event :=
  [.chat r [⟨ascii "user", ascii "Hi"⟩] none, .start r, .create r session,
    .served r { reads := [.ok ⟨.clientResult, session, r, 1, ascii "Hello"⟩] } true, .store r]

/-- The second turn of it, as far as the look at the record that was found. -/
def secondTurn (r : Nat) : List Event :=
  [.chat r [⟨ascii "user", ascii "Hi"⟩, assistantMessage (ascii "Hello"),
    ⟨ascii "user", ascii "Bye"⟩]
    none, .look r]

/-- What the requests 1 and 2, the cache, the sweep and the destroys have in their hands. -/
def inHands (g : Config) : List (Option Nat) × List Nat :=
  ([1, 2].map fun r => (g.chats r).bind fun c => c.phase.session,
    g.sessions.entries.map (·.2.id) ++ g.sweeping.map SessionRecord.id ++ g.destroyed)

/-- The record has expired when the second turn finds it: it is out of the cache, the request starts
anew, and nothing will ever destroy the session. -/
theorem expired_session_lost :
    ¬ ∀ g, (gateway id ["a:50100"]).Reachable Fresh g → ∀ s ∈ g.created, ∃! x, g.Holds x s := by
  intro h
  have hrun : ((gateway id ["a:50100"]).exec Fresh {}
      (firstTurn 1 7 ++ [.tick 600000] ++ secondTurn 2)).map (fun g => (g.created, g.inHands)) =
      some ([7], [none, none], []) := by
    decide +kernel
  obtain ⟨g, hexec, hview⟩ := Option.map_eq_some_iff.mp hrun
  simp only [inHands, Prod.mk.injEq, List.map_cons, List.map_nil, List.cons.injEq, and_true,
    List.append_eq_nil_iff, List.map_eq_nil_iff] at hview
  obtain ⟨hcreated, ⟨hfirst, hsecond⟩, ⟨hentries, hsweeping⟩, hdestroyed⟩ := hview
  obtain ⟨x, hx, -⟩ := h g (System.Reachable.init.exec _ hexec) 7 (by simp [hcreated])
  cases x with
  | request r =>
    have hr : (g.chats r).bind (fun c => c.phase.session) = some 7 := Option.bind_eq_some_iff.mpr hx
    by_cases h1 : r = 1
    · simp [h1, hfirst] at hr
    · by_cases h2 : r = 2
      · simp [h2, hsecond] at hr
      · have hother : ∀ e ∈ firstTurn 1 7 ++ [.tick 600000] ++ secondTurn 2, e.request ≠
            some r := by
          simp [firstTurn, secondTurn, Event.request, Ne.symm h1, Ne.symm h2]
        simp [exec_chats hother hexec] at hr
  | cached key => simp [Holds, Cache.Has, hentries] at hx
  | sweeper => simp [Holds, hsweeping] at hx
  | destroyed => simp [Holds, hdestroyed] at hx

/-- A run of two turns in which the record is found in time. -/
theorem resumed_session_held_once :
    ∃ g, (gateway id ["a:50100"]).Reachable (fun g e => g.Fresh e ∧ g.HandsOn id e) g ∧
      g.created = [7] ∧ g.inHands = ([none, some 7], []) ∧ ∃! x, g.Holds x 7 := by
  have hrun : ((gateway id ["a:50100"]).exec (fun g e => g.Fresh e ∧ g.HandsOn id e) {}
      (firstTurn 1 7 ++ secondTurn 2)).map (fun g => (g.created, g.inHands)) =
      some ([7], [none, some 7], []) := by
    decide +kernel
  obtain ⟨g, hexec, hview⟩ := Option.map_eq_some_iff.mp hrun
  have hreach := System.Reachable.init.exec _ hexec
  obtain ⟨hcreated, hhands⟩ := Prod.mk.inj hview
  exact ⟨g, hreach, hcreated, hhands, (session_held_once hreach).1 7 (by simp [hcreated])⟩

end Config

end ProviderOwned.Gateway
