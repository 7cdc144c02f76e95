import ProviderOwned.Gateway.Resident

/-!
# Resumed conversations

What a request that resumes a session knows about it. The session was recorded under the key the
request looks for (`Filed`), so without zero bytes in the messages it is the session of the
request's own history (`resumes_own_history`). The text in the session is never the start of the
prompt of that history, because nothing ends the line, or the message, after a reply
(`resumed_text_ne`).
-/

namespace ProviderOwned.Gateway

open Transition

namespace Config

variable {hash : Text → Text} {endpoints : List String} {g g' : Config} {r session : Nat}
  {e : Event}
  {c : Chat} {rec : SessionRecord}

/-! ### The record a request finds -/

/-- The session was recorded under `key`, with a history that renders to more than its text. -/
def Behind (hash : Text → Text) (g : Config) (key : Text) (session : Nat) : Prop :=
  key = conversationKey hash (g.recorded session) ∧
    weight (g.fed session) < weight (keyBytes (g.recorded session))

/-- What a request knows about the session in its hands. -/
def Knows (hash : Text → Text) (g : Config) (c : Chat) : Prop :=
  match c.phase with
  | .found rec => g.Behind hash (lookupKey hash c.messages) rec.id
  | .resuming rec delta =>
    g.Behind hash (lookupKey hash c.messages) rec.id ∧ 1 < c.messages.length ∧
      qwenPrompt (c.messages.drop (c.messages.length - 1)) = .ok delta
  | .storing _ session reply =>
    weight (g.fed session) < weight (keyBytes (c.messages ++ [assistantMessage reply]))
  | _ => True

/-- Every record is cached under the key of its session's history. -/
structure Filed (hash : Text → Text) (g : Config) : Prop where
  cached : ∀ key rec, g.sessions.Has key rec → g.Behind hash key rec.id
  chats : ∀ r c, g.chats r = some c → g.Knows hash c

lemma Knows.congr (hsame : ∀ s, c.phase.session = some s →
    g'.fed s = g.fed s ∧ g'.recorded s = g.recorded s) (h : g.Knows hash c) : g'.Knows hash c := by
  unfold Knows Behind at *
  split at h
  all_goals simp_all [Phase.session]

/-- A step of the request `r` changes the text and the history of its own session only. -/
lemma Filed.step_of (h : g.Filed hash) (honce : g.HeldOnce) (r : Nat)
    (hsame : ∀ s, ¬ g.Holds (.request r) s → g'.fed s = g.fed s ∧ g'.recorded s = g.recorded s)
    (hother : ∀ q, q ≠ r → g'.chats q = g.chats q)
    (hcached : ∀ key rec, g'.sessions.Has key rec →
      g.sessions.Has key rec ∨ g'.Behind hash key rec.id)
    (hown : ∀ c, g'.chats r = some c → g'.Knows hash c) : g'.Filed hash where
  cached key rec hhas := by
    rcases hcached key rec hhas with hold | hnew
    · have hnot : ¬ g.Holds (.request r) rec.id := fun hr => by
        simpa using honce.exclusive.unique _ (.cached key) _ hr ⟨rec, hold, rfl⟩
      obtain ⟨hfed, hrecorded⟩ := hsame rec.id hnot
      simpa only [Behind, hfed, hrecorded] using h.cached key rec hold
    · exact hnew
  chats q c hc := by
    by_cases hq : q = r
    · exact hown c (hq ▸ hc)
    · rw [hother q hq] at hc
      refine (h.chats q c hc).congr fun s hs => hsame s fun hr => hq ?_
      simpa using honce.exclusive.unique _ _ _ ((holds_request_iff hc).mpr hs) hr

/-- An answer adds less to the text of its session than to the history. -/
lemma weight_answered_lt (reply : Text) (eog : Bool) :
    22 + weight (answered reply eog) < weight (keyBytes [assistantMessage reply]) := by
  have hend : weight (ascii "<|im_end|>") = 10 := by decide
  have hnil : weight [] = 0 := rfl
  rw [weight_assistantMessage, answered, weight_append]
  split_ifs
  · rw [hend]
    omega
  · rw [hnil]
    omega

/-- The messages of a request and its prompt, split before the last message. -/
lemma rendered_dropLast_append (messages : List Message) :
    rendered messages.dropLast ++ rendered (messages.drop (messages.length - 1)) =
      rendered messages := by
  rw [← rendered_append, List.dropLast_eq_take, List.take_append_drop]

/-- The text of a session that is behind its history, with the next prompt. -/
lemma weight_fed_append_lt {messages : List Message} {delta : Text} (hinj : Function.Injective hash)
    (hbehind : g.Behind hash (lookupKey hash messages) session)
    (hdelta : qwenPrompt (messages.drop (messages.length - 1)) = .ok delta) :
    weight (g.fed session ++ delta) < weight (rendered messages) + 22 := by
  have hbytes : keyBytes messages.dropLast = keyBytes (g.recorded session) := hinj hbehind.1
  obtain ⟨-, rfl⟩ := qwenPrompt_eq_ok_iff.mp hdelta
  have hlight := hbehind.2
  rw [← hbytes, ← weight_rendered] at hlight
  rw [← rendered_dropLast_append messages]
  simp only [weight_append, weight_assistantStart]
  omega

lemma step_filed (hinj : Function.Injective hash) (h : g.Filed hash) (honce : g.HeldOnce)
    (hstep : Step hash g e g') : g'.Filed hash := by
  cases hstep with
  | tick time => exact ⟨h.cached, h.chats⟩
  | @miss r messages onChunk hnew hmessages =>
    refine h.step_of honce r (fun s _ => ⟨rfl, rfl⟩) (fun q hq => Function.update_of_ne hq _ _)
      (fun key rec => .inl) ?_
    simp [Knows]
  | @take r messages rec onChunk hnew hmessages hlong hfound =>
    refine h.step_of honce r (fun s _ => ⟨rfl, rfl⟩) (fun q hq => Function.update_of_ne hq _ _)
      (fun key rec hhas => .inl (Cache.has_erase.mp hhas).2) ?_
    rw [chats_setChat, Function.update_self]
    rintro c ⟨⟩
    exact h.cached _ rec hfound
  | @resume r c rec delta hc hphase hresumes =>
    refine h.step_of honce r (fun s _ => ⟨rfl, rfl⟩) (fun q hq => Function.update_of_ne hq _ _)
      (fun key rec => .inl) ?_
    obtain ⟨-, hlong, -, hdelta⟩ := resumes_eq_some_iff.mp hresumes
    have hfound := h.chats r c hc
    simp only [Knows, hphase] at hfound
    simpa [Knows] using ⟨hfound, hlong, hdelta⟩
  | @drop r c rec hc hphase hno =>
    refine h.step_of honce r (fun s _ => ⟨rfl, rfl⟩) (fun q hq => Function.update_of_ne hq _ _)
      (fun key rec => .inl) ?_
    simp [Knows]
  | @resumed r c rec delta served eog reply hc hphase =>
    have hholds : g.Holds (.request r) rec.id := (holds_request_iff hc).mpr (by rw [hphase]; rfl)
    refine h.step_of honce r (fun s hs => ⟨Function.update_of_ne ?_ _ _, rfl⟩)
      (fun q hq => Function.update_of_ne hq _ _) (fun key rec => .inl) ?_
    · rintro rfl
      exact hs hholds
    · have hresuming := h.chats r c hc
      simp only [Knows, hphase] at hresuming
      obtain ⟨hbehind, -, hdelta⟩ := hresuming
      have hfed := weight_fed_append_lt hinj hbehind hdelta
      have hreply := weight_answered_lt reply eog
      rw [chats_setChat, Function.update_self]
      rintro c' ⟨⟩
      simp only [Knows, feed, setChat, Function.update_self, keyBytes_append, weight_append]
        at hfed ⊢
      rw [weight_rendered] at hfed
      omega
  | @failed r c c' rec delta served eog hc hphase hmessages hphase' =>
    refine h.step_of honce r (fun s _ => ⟨rfl, rfl⟩) (fun q hq => Function.update_of_ne hq _ _)
      (fun key rec => .inl) ?_
    simp [Knows, hphase']
  | @start r c c' request replica hc hphase hmessages hchoosing =>
    obtain ⟨rest, hchoosing⟩ := hchoosing
    refine h.step_of honce r (fun s _ => ⟨rfl, rfl⟩) (fun q hq => Function.update_of_ne hq _ _)
      (fun key rec => .inl) ?_
    simp [Knows, hchoosing]
  | @create r c endpoint rest session hc hphase =>
    refine h.step_of honce r (fun s _ => ⟨rfl, rfl⟩) (fun q hq => Function.update_of_ne hq _ _)
      (fun key rec => .inl) ?_
    simp [Knows]
  | @served r c endpoint session rest served eog reply hc hphase =>
    have hholds : g.Holds (.request r) session := (holds_request_iff hc).mpr (by rw [hphase]; rfl)
    refine h.step_of honce r (fun s hs => ⟨Function.update_of_ne ?_ _ _, rfl⟩)
      (fun q hq => Function.update_of_ne hq _ _) (fun key rec => .inl) ?_
    · rintro rfl
      exact hs hholds
    · have hreply := weight_answered_lt reply eog
      rw [chats_setChat, Function.update_self]
      rintro c' ⟨⟩
      simp only [Knows, feed, setChat, Function.update_self, keyBytes_append, weight_append,
        weight_rendered, weight_assistantStart]
      omega
  | @refused r c endpoint session rest chat served eog hc hphase hchat =>
    refine h.step_of honce r (fun s _ => ⟨rfl, rfl⟩) (fun q hq => Function.update_of_ne hq _ _)
      (fun key rec => .inl) ?_
    rw [chats_setChat, Function.update_self]
    intro c' hc'
    obtain ⟨-, rest, hchoosing⟩ := hchat c' hc'
    simp [Knows, hchoosing]
  | @store r c endpoint session reply hc hphase =>
    have hholds : g.Holds (.request r) session := (holds_request_iff hc).mpr (by rw [hphase]; rfl)
    have hlight := h.chats r c hc
    simp only [Knows, hphase] at hlight
    refine h.step_of honce r (fun s hs => ⟨rfl, Function.update_of_ne ?_ _ _⟩)
      (fun q hq => Function.update_of_ne hq _ _) (fun key rec hhas => ?_) ?_
    · rintro rfl
      exact hs hholds
    · rcases Cache.has_insert.mp hhas with ⟨rfl, rfl⟩ | ⟨-, hold⟩
      · refine .inr ?_
        simpa [Behind, Config.store, setChat, storeKey] using hlight
      · exact .inl hold
    · rw [Config.store, chats_setChat, Function.update_self]
      simp
  | sweep hnone => exact ⟨fun key rec hhas => h.cached key rec (Cache.has_sweep.mp hhas).2, h.chats⟩
  | sweepNext hsweeping => exact ⟨h.cached, h.chats⟩

lemma filed (hinj : Function.Injective hash) (h : (gateway hash endpoints).Reachable Fresh g) :
    g.Filed hash := by
  refine h.invariant ⟨?_, ?_⟩ fun s e s' hs ih _ hstep =>
    step_filed hinj ih (heldOnce hs) (step_cases hstep)
  · simp [gateway, Cache.Has]
  · simp [gateway]

/-- The messages of a request that resumes a session, the session's record and the prompt for it. -/
def resuming (g : Config) (r : Nat) : Option (List Message × SessionRecord × Text) :=
  (g.chats r).bind fun c =>
    match c.phase with
    | .resuming rec delta => some (c.messages, rec, delta)
    | _ => none

lemma resuming_eq_some_iff {messages : List Message} {delta : Text} :
    g.resuming r = some (messages, rec, delta) ↔
      ∃ c, g.chats r = some c ∧ c.messages = messages ∧ c.phase = .resuming rec delta := by
  simp only [resuming, Option.bind_eq_some_iff]
  refine exists_congr fun c => and_congr_right fun _ => ?_
  cases hphase : c.phase <;> simp

/-- What is known of a session that is resumed. -/
lemma Filed.resuming {messages : List Message} {delta : Text} (h : g.Filed hash)
    (hresuming : g.resuming r = some (messages, rec, delta)) :
    g.Behind hash (lookupKey hash messages) rec.id ∧
      qwenPrompt (messages.drop (messages.length - 1)) = .ok delta := by
  obtain ⟨c, hc, rfl, hphase⟩ := resuming_eq_some_iff.mp hresuming
  have hknows := h.chats r c hc
  simp only [Knows, hphase] at hknows
  exact ⟨hknows.1, hknows.2.2⟩

/-! ### The text a resumed session has seen -/

/-- A resumed session never holds the prompt of the whole conversation: after every reply the end of
the message, or at least of its line, is missing. -/
theorem resumed_text_ne (hinj : Function.Injective hash)
    (h : (gateway hash endpoints).Reachable Fresh g) {messages : List Message} {delta : Text}
    (hresuming : g.resuming r = some (messages, rec, delta)) :
    qwenPrompt messages ≠ .ok (g.fed rec.id ++ delta) := by
  obtain ⟨hbehind, hdelta⟩ := (filed hinj h).resuming hresuming
  have hlt := weight_fed_append_lt hinj hbehind hdelta
  intro hprompt
  obtain ⟨-, heq⟩ := qwenPrompt_eq_ok_iff.mp hprompt
  rw [heq, weight_append, weight_assistantStart] at hlt
  exact Nat.lt_irrefl _ hlt

/-- The second turn of `firstTurn` resumes the session of the first. -/
lemma exec_secondTurn :
    ∃ g, (gateway id ["a:50100"]).Reachable Fresh g ∧
      g.fed 7 =
        ascii "<|im_start|>user\nHi<|im_end|>\n<|im_start|>assistant\nHello<|im_end|>" ∧
      g.resuming 2 = some ([⟨ascii "user", ascii "Hi"⟩, assistantMessage (ascii "Hello"),
        ⟨ascii "user", ascii "Bye"⟩], ⟨7, "a:50100", 600000⟩,
        ascii "<|im_start|>user\nBye<|im_end|>\n<|im_start|>assistant\n") := by
  have hrun : ((gateway id ["a:50100"]).exec Fresh {} (firstTurn 1 7 ++ secondTurn 2)).map
      (fun g => (g.fed 7, g.resuming 2)) =
      some (ascii "<|im_start|>user\nHi<|im_end|>\n<|im_start|>assistant\nHello<|im_end|>",
        some ([⟨ascii "user", ascii "Hi"⟩, assistantMessage (ascii "Hello"),
          ⟨ascii "user", ascii "Bye"⟩], ⟨7, "a:50100", 600000⟩,
          ascii "<|im_start|>user\nBye<|im_end|>\n<|im_start|>assistant\n")) := by
    decide +kernel
  obtain ⟨g, hexec, hview⟩ := Option.map_eq_some_iff.mp hrun
  exact ⟨g, System.Reachable.init.exec _ hexec, (Prod.mk.inj hview).1, (Prod.mk.inj hview).2⟩

theorem secondTurn_text_ne :
    ∃ g messages rec delta, (gateway id ["a:50100"]).Reachable Fresh g ∧
      g.resuming 2 = some (messages, rec, delta) ∧
      qwenPrompt messages ≠ .ok (g.fed rec.id ++ delta) := by
  obtain ⟨g, hreach, -, hresuming⟩ := exec_secondTurn
  exact ⟨g, _, _, _, hreach, hresuming, resumed_text_ne Function.injective_id hreach hresuming⟩

/-- The end token of the reply is followed by the next message at once, where the prompt of the
conversation has a line break. -/
theorem secondTurn_line_missing :
    ¬ ∀ g r messages rec delta, (gateway id ["a:50100"]).Reachable Fresh g →
      g.resuming r = some (messages, rec, delta) →
      qwenPrompt messages = .ok (g.fed rec.id ++ delta) := by
  intro h
  obtain ⟨g, hreach, hfed, hresuming⟩ := exec_secondTurn
  obtain ⟨-, heq⟩ := qwenPrompt_eq_ok_iff.mp (h g 2 _ _ _ hreach hresuming)
  rw [hfed] at heq
  exact absurd heq (by decide +kernel)

/-! ### The conversation a request is attached to -/

/-- The reply a request is about to record has no zero byte. -/
def recordsNulFree : Phase → Bool
  | .storing _ _ reply => 0 ∉ reply
  | _ => true

/-- No zero byte in the messages of a request or in the reply it records. -/
def NulFree (g : Config) : Event → Prop
  | .chat _ messages _ => ∀ m ∈ messages, 0 ∉ m.content
  | .store r => ∀ c ∈ g.chats r, recordsNulFree c.phase
  | _ => True

instance (g : Config) : DecidablePred g.NulFree
  | .chat _ messages _ => inferInstanceAs (Decidable (∀ m ∈ messages, 0 ∉ m.content))
  | .store r => inferInstanceAs (Decidable (∀ c ∈ g.chats r, recordsNulFree c.phase))
  | .tick _ | .look _ | .resumed .. | .start _ | .create .. | .served .. | .sweep _
  | .sweepNext => inferInstanceAs (Decidable True)

/-- No zero byte in any request or record. -/
structure Plain (g : Config) : Prop where
  chats : ∀ r c, g.chats r = some c → ∀ m ∈ c.messages, m.NulFree
  recorded : ∀ s, ∀ m ∈ g.recorded s, m.NulFree

lemma Plain.setChat {g₁ : Config} {chat : Option Chat} (h : g.Plain) (hchats : g₁.chats = g.chats)
    (hrecorded : g₁.recorded = g.recorded)
    (hchat : ∀ c, chat = some c → ∀ m ∈ c.messages, m.NulFree) : (g₁.setChat r chat).Plain where
  chats q c hc := by
    by_cases hq : q = r
    · rw [hq, chats_setChat, Function.update_self] at hc
      exact hchat c hc
    · rw [chats_setChat, Function.update_of_ne hq, hchats] at hc
      exact h.chats q c hc
  recorded s := by
    rw [show (g₁.setChat r chat).recorded = g.recorded from hrecorded]
    exact h.recorded s

/-- Accepted messages have a zero byte only in their contents. -/
lemma nulFree_of_accepted {messages : List Message} (h : Accepted messages)
    (hcontent : ∀ m ∈ messages, 0 ∉ m.content) : ∀ m ∈ messages, m.NulFree := fun m hm =>
  ⟨zero_notMem_role (Message.supported_iff.mp (h.2 m hm)).1, hcontent m hm⟩

lemma step_plain (h : g.Plain) (hfree : g.NulFree e) (hstep : Step hash g e g') : g'.Plain := by
  cases hstep with
  | tick | sweep | sweepNext => exact ⟨h.chats, h.recorded⟩
  | miss onChunk hnew hmessages | take onChunk hnew hmessages =>
    refine h.setChat rfl rfl ?_
    rintro c ⟨⟩
    exact nulFree_of_accepted hmessages hfree
  | resume hc | drop hc | resumed _ _ _ hc | create _ hc | served _ _ _ hc =>
    refine h.setChat rfl rfl ?_
    rintro c' ⟨⟩
    intro m hm
    exact h.chats _ _ hc m hm
  | failed served eog hc hphase hmessages | start request replica hc hphase hmessages =>
    refine h.setChat rfl rfl ?_
    rintro c' ⟨⟩
    rw [hmessages]
    exact h.chats _ _ hc
  | refused served eog hc hphase hchat =>
    refine h.setChat rfl rfl fun c' hc' => ?_
    rw [(hchat c' hc').1]
    exact h.chats _ _ hc
  | @store r c endpoint session reply hc hphase =>
    have hreply := hfree c hc
    simp only [hphase, recordsNulFree, decide_eq_true_eq] at hreply
    have hrole : 0 ∉ (assistantMessage reply).role := zero_notMem_role rfl
    have hrecorded : Plain { g with
        recorded :=
            Function.update g.recorded session (c.messages ++ [assistantMessage reply]) } := by
      refine ⟨h.chats, fun s => ?_⟩
      by_cases hs : s = session
      · simp only [hs, Function.update_self, List.forall_mem_append, List.forall_mem_singleton]
        exact ⟨h.chats _ c hc, hrole, hreply⟩
      · simp only [Function.update_of_ne hs]
        exact h.recorded s
    exact hrecorded.setChat rfl rfl (by simp)

lemma plain {ok : Config → Event → Prop} (hok : ∀ g e, ok g e → g.NulFree e)
    (h : (gateway hash endpoints).Reachable ok g) : g.Plain := by
  refine h.invariant ⟨?_, ?_⟩ fun s e s' _ ih hse hstep =>
    step_plain ih (hok s e hse) (step_cases hstep)
  · simp [gateway]
  · simp [gateway]

/-- Where no content has a zero byte, equal keys mean equal histories, and a request resumes only
the session of its own history. With zero bytes a key stands for one history only if that is a
single message that cannot be read as two. -/
theorem resumes_own_history (hinj : Function.Injective hash) :
    (∀ a b, Accepted a → Accepted b → (∀ m ∈ a ++ b, 0 ∉ m.content) →
      conversationKey hash a = conversationKey hash b → a = b) ∧
    (∀ a, Accepted a →
      ((∀ b, Accepted b → conversationKey hash b = conversationKey hash a → b = a) ↔
      a.length = 1 ∧ ∀ m ∈ a, ¬ Splits m.content)) ∧
    ∀ g r messages rec delta,
      (gateway hash endpoints).Reachable (fun g e => g.Fresh e ∧ g.NulFree e) g →
      g.resuming r = some (messages, rec, delta) → messages.dropLast = g.recorded rec.id := by
  refine ⟨fun a b ha hb hfree hkey => ?_, fun a ha => ?_, ?_⟩
  · obtain ⟨hfreea, hfreeb⟩ := List.forall_mem_append.mp hfree
    exact keyBytes_injective (nulFree_of_accepted ha hfreea) (nulFree_of_accepted hb hfreeb)
      (hinj hkey)
  · have hiff := not_congr (exists_same_key_iff hinj ha)
    push Not at hiff
    have hlength := List.length_pos_of_ne_nil ha.1
    constructor
    · intro hall
      have hnot := hiff.mp fun b hb hne hkey => hne (hall b hb hkey)
      exact ⟨by omega, hnot.2⟩
    · rintro ⟨hone, hsplits⟩ b hb hkey
      by_contra hne
      exact hiff.mpr ⟨by omega, hsplits⟩ b hb hne hkey
  · intro g r messages rec delta h hresuming
    obtain ⟨c, hc, rfl, -⟩ := resuming_eq_some_iff.mp hresuming
    have hplain := plain (fun _ _ hok => hok.2) h
    obtain ⟨hbehind, -⟩ := (filed hinj (h.mono fun _ _ hok => hok.1)).resuming hresuming
    exact keyBytes_injective (fun m hm => hplain.chats r c hc m (List.dropLast_subset _ hm))
      (hplain.recorded rec.id) (hinj hbehind.1)

/-- Another client's history reads like the one of the first turn when it is hashed. -/
def strangerTurn (r : Nat) : List Event :=
  [.chat r [⟨ascii "user", ascii "Hi" ++ 0 :: (ascii "assistant" ++ 0 :: ascii "Hello")⟩,
    ⟨ascii "user", ascii "Bye"⟩] none, .look r]

/-- A zero byte in a message attaches its request to the session of another conversation. -/
theorem stranger_resumes :
    ¬ ((∀ a b, Accepted a → Accepted b → conversationKey id a = conversationKey id b → a = b) ∧
      ∀ g r messages rec delta, (gateway id ["a:50100"]).Reachable Fresh g →
        g.resuming r = some (messages, rec, delta) → messages.dropLast = g.recorded rec.id) := by
  rintro ⟨-, h⟩
  have hrun : ((gateway id ["a:50100"]).exec Fresh {} (firstTurn 1 7 ++ strangerTurn 2)).bind
      (fun g => (g.resuming 2).map fun (messages, rec, _) => (messages.length, rec.id,
        (g.recorded 7).length)) = some (2, 7, 2) := by
    decide +kernel
  obtain ⟨g, hexec, hview⟩ := Option.bind_eq_some_iff.mp hrun
  obtain ⟨⟨messages, rec, delta⟩, hresuming, hlength⟩ := Option.map_eq_some_iff.mp hview
  simp only [Prod.mk.injEq] at hlength
  obtain ⟨hmessages, hid, hrecorded⟩ := hlength
  have heq := h g 2 messages rec delta (System.Reachable.init.exec _ hexec) hresuming
  rw [hid] at heq
  have := congrArg List.length heq
  simp [hmessages, hrecorded] at this

theorem secondTurn_own_history :
    Function.Injective (id : Text → Text) ∧
      ∃ g messages rec delta,
        (gateway id ["a:50100"]).Reachable (fun g e => g.Fresh e ∧ g.NulFree e) g ∧
        g.resuming 2 = some (messages, rec, delta) ∧ messages.dropLast = g.recorded rec.id := by
  have hrun : ((gateway id ["a:50100"]).exec (fun g e => g.Fresh e ∧ g.NulFree e) {}
      (firstTurn 1 7 ++ secondTurn 2)).bind (fun g => (g.resuming 2).map fun m => m.1.length) =
      some 3 := by
    decide +kernel
  obtain ⟨g, hexec, hview⟩ := Option.bind_eq_some_iff.mp hrun
  obtain ⟨⟨messages, rec, delta⟩, hresuming, -⟩ := Option.map_eq_some_iff.mp hview
  have hreach := System.Reachable.init.exec _ hexec
  exact ⟨Function.injective_id, g, messages, rec, delta, hreach, hresuming,
    (resumes_own_history Function.injective_id).2.2 g 2 messages rec delta hreach hresuming⟩

end Config

end ProviderOwned.Gateway
