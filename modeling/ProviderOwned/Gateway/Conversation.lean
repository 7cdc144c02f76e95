import ProviderOwned.Lib.Separated

/-!
# Conversations of the API gateway

The messages of a chat request, the prompt `qwenPrompt` writes for them and the key under which
`conversationKey` files their history. A Go string is its bytes; SHA-256 with its hex form is the
parameter `hash`.

`conversationKey` ends every role and every content with a zero byte before it hashes them. Roles
have no zero byte but contents may, so the bytes it hashes determine the messages only where no
content has one (`keyBytes_injective`, `exists_same_key_iff`).
-/

namespace ProviderOwned.Gateway

abbrev Text := List UInt8

def ascii (s : String) : Text := s.toList.map fun c => c.toNat.toUInt8

structure Message where
  role : Text
  content : Text
  deriving DecidableEq, Repr

/-- The roles `qwenPrompt` knows. -/
def supportedRole (role : Text) : Bool :=
  role = ascii "system" || role = ascii "user" || role = ascii "assistant"

namespace Message

/-- What `qwenPrompt` requires of a message. -/
def supported (m : Message) : Bool := supportedRole m.role && m.content ≠ []

/-- One message as `qwenPrompt` writes it. -/
def render (m : Message) : Text :=
  ascii "<|im_start|>" ++ m.role ++ ascii "\n" ++ m.content ++ ascii "<|im_end|>\n"

/-- What `conversationKey` feeds the hash for one message, each followed by a zero byte. -/
def fields (m : Message) : List Text := [m.role, m.content]

/-- Neither the role nor the content has a zero byte. -/
def NulFree (m : Message) : Prop := 0 ∉ m.role ∧ 0 ∉ m.content

end Message

/-- The start of the answer, at the end of every prompt. -/
def assistantStart : Text := ascii "<|im_start|>assistant\n"

/-- The messages of a prompt, without the start of the answer. -/
def rendered (messages : List Message) : Text := messages.flatMap Message.render

def qwenPrompt (messages : List Message) : Except String Text :=
  if messages = [] then .error "messages must not be empty"
  else if messages.all Message.supported then .ok (rendered messages ++ assistantStart)
  else .error "each message needs a supported role and non-empty content"

/-- The message list `qwenPrompt` accepts. -/
def Accepted (messages : List Message) : Prop :=
  messages ≠ [] ∧ ∀ m ∈ messages, m.supported

instance (messages : List Message) : Decidable (Accepted messages) :=
  inferInstanceAs (Decidable (_ ∧ _))

/-- Everything `conversationKey` feeds the hash. -/
def keyBytes (messages : List Message) : Text :=
  Separated.terminated 0 (messages.flatMap Message.fields)

def conversationKey (hash : Text → Text) (messages : List Message) : Text :=
  hash (keyBytes messages)

/-- The assistant's message a turn adds to the history. -/
def assistantMessage (reply : Text) : Message := ⟨ascii "assistant", reply⟩

variable {a b messages : List Message} {m : Message}

lemma qwenPrompt_of_accepted (h : Accepted messages) :
    qwenPrompt messages = .ok (rendered messages ++ assistantStart) := by
  simp only [qwenPrompt, if_neg h.1, List.all_eq_true.mpr h.2, ↓reduceIte]

lemma qwenPrompt_eq_ok_iff {prompt : Text} :
    qwenPrompt messages = .ok prompt ↔
      Accepted messages ∧ prompt = rendered messages ++ assistantStart := by
  constructor
  · intro h
    unfold qwenPrompt at h
    split_ifs at h with hempty hall
    exact ⟨⟨hempty, List.all_eq_true.mp hall⟩, (Except.ok.inj h).symm⟩
  · rintro ⟨h, rfl⟩
    exact qwenPrompt_of_accepted h

@[simp] lemma rendered_append (a b : List Message) :
    rendered (a ++ b) = rendered a ++ rendered b := List.flatMap_append

@[simp] lemma keyBytes_append (a b : List Message) :
    keyBytes (a ++ b) = keyBytes a ++ keyBytes b := by
  simp [keyBytes, Separated.terminated_append]

@[simp] lemma keyBytes_nil : keyBytes [] = [] := rfl

@[simp] lemma keyBytes_cons (m : Message) (ms : List Message) :
    keyBytes (m :: ms) = m.role ++ 0 :: (m.content ++ 0 :: keyBytes ms) := by
  simp [keyBytes, Message.fields]

/-! ### Which histories share a key -/

lemma zero_notMem_role {role : Text} (h : supportedRole role) : 0 ∉ role := by
  simp only [supportedRole, Bool.or_eq_true, decide_eq_true_eq] at h
  rcases h with (rfl | rfl) | rfl <;> decide

lemma Message.supported_iff : m.supported ↔ supportedRole m.role ∧ m.content ≠ [] := by
  simp [Message.supported]

lemma fields_injective (h : a.flatMap Message.fields = b.flatMap Message.fields) : a = b := by
  induction a generalizing b with
  | nil =>
    cases b with
    | nil => rfl
    | cons m ms => simp [Message.fields] at h
  | cons k ks ih =>
    cases b with
    | nil => simp [Message.fields] at h
    | cons m ms =>
      simp only [List.flatMap_cons, Message.fields, List.cons_append, List.nil_append,
        List.cons.injEq] at h
      obtain ⟨hrole, hcontent, hrest⟩ := h
      rw [ih hrest]
      cases k
      cases m
      simp_all

/-- Without zero bytes in them, the messages can be read back from the bytes. -/
lemma keyBytes_injective (ha : ∀ m ∈ a, m.NulFree) (hb : ∀ m ∈ b, m.NulFree)
    (h : keyBytes a = keyBytes b) : a = b := by
  have hfree : ∀ l : List Message, (∀ m ∈ l, m.NulFree) →
      ∀ x ∈ l.flatMap Message.fields, (0 : UInt8) ∉ x := by
    intro l hl x hx
    obtain ⟨m, hm, hx⟩ := List.mem_flatMap.mp hx
    simp only [Message.fields, List.mem_cons, List.not_mem_nil, or_false] at hx
    rcases hx with rfl | rfl
    · exact (hl m hm).1
    · exact (hl m hm).2
  exact fields_injective (Separated.terminated_injective (hfree a ha) (hfree b hb) h)

/-- A content that reads like the end of one message and the start of another. -/
def Splits (content : Text) : Prop :=
  ∃ first role second, first ≠ [] ∧ supportedRole role ∧ second ≠ [] ∧
    content = first ++ 0 :: (role ++ 0 :: second)

/-- A message followed by others, in the bytes of one message alone. -/
lemma splits_of_keyBytes {k m n : Message} {ms : List Message} (hk : k.supported)
    (hm : m.supported) (hn : n.supported) (h : keyBytes (m :: n :: ms) = keyBytes [k]) :
    Splits k.content := by
  simp only [keyBytes_cons, keyBytes_nil] at h
  obtain ⟨-, h⟩ := Separated.append_cons_inj
    (zero_notMem_role (Message.supported_iff.mp hm).1)
    (zero_notMem_role (Message.supported_iff.mp hk).1) h
  refine ⟨m.content, n.role, n.content ++ (0 :: keyBytes ms).dropLast,
    (Message.supported_iff.mp hm).2, (Message.supported_iff.mp hn).1,
    by simp [(Message.supported_iff.mp hn).2], ?_⟩
  have hlast := congrArg List.dropLast h
  simp only [List.dropLast_concat] at hlast
  rw [← hlast]
  simp [List.dropLast_append_of_ne_nil, List.dropLast_cons_of_ne_nil]

/-- The two first messages can be merged into one. -/
lemma exists_merged {hash : Text → Text} {k n : Message} {ms : List Message}
    (h : Accepted (k :: n :: ms)) :
    ∃ b, Accepted b ∧ b ≠ k :: n :: ms ∧
      conversationKey hash b = conversationKey hash (k :: n :: ms) := by
  refine ⟨⟨k.role, k.content ++ 0 :: (n.role ++ 0 :: n.content)⟩ :: ms, ⟨by simp, ?_⟩,
    fun heq => ?_, by simp [conversationKey]⟩
  · intro m hm
    rcases List.mem_cons.mp hm with rfl | hm
    · exact Message.supported_iff.mpr ⟨(Message.supported_iff.mp (h.2 k (by simp))).1, by simp⟩
    · exact h.2 m (by simp [hm])
  · simpa using congrArg List.length heq

/-- Another accepted history has the same key unless the history is one message whose content does
not split. -/
lemma exists_same_key_iff {hash : Text → Text} (hinj : Function.Injective hash)
    (ha : Accepted a) :
    (∃ b, Accepted b ∧ b ≠ a ∧ conversationKey hash b = conversationKey hash a) ↔
      2 ≤ a.length ∨ ∃ m ∈ a, Splits m.content := by
  match a with
  | [] => exact absurd rfl ha.1
  | k :: n :: ms => exact iff_of_true (exists_merged ha) (.inl (by simp))
  | [k] =>
    have hk := Message.supported_iff.mp (ha.2 k (by simp))
    constructor
    · rintro ⟨b, hb, hne, hkey⟩
      have hbytes : keyBytes b = keyBytes [k] := hinj hkey
      match b with
      | [] => exact absurd rfl hb.1
      | m :: n :: ms =>
        exact .inr ⟨k, by simp, splits_of_keyBytes (ha.2 k (by simp)) (hb.2 m (by simp))
          (hb.2 n (by simp)) hbytes⟩
      | [m] =>
        simp only [keyBytes_cons, keyBytes_nil] at hbytes
        obtain ⟨hrole, hcontent⟩ := Separated.append_cons_inj
          (zero_notMem_role (Message.supported_iff.mp (hb.2 m (by simp))).1)
          (zero_notMem_role hk.1) hbytes
        refine absurd ?_ hne
        cases k
        cases m
        simp_all
    · rintro (hlong | ⟨m, hm, first, role, second, hfirst, hrole, hsecond, hcontent⟩)
      · simp at hlong
      · obtain rfl := List.mem_singleton.mp hm
        refine ⟨[⟨m.role, first⟩, ⟨role, second⟩], ⟨by simp, ?_⟩, by simp, ?_⟩
        · intro n hn
          simp only [List.mem_cons, List.not_mem_nil, or_false] at hn
          rcases hn with rfl | rfl
          · exact Message.supported_iff.mpr ⟨hk.1, hfirst⟩
          · exact Message.supported_iff.mpr ⟨hrole, hsecond⟩
        · simp [conversationKey, hcontent]

/-! ### What a session is fed, against what its history renders to -/

/-- A zero byte counts for twelve: the two that end a message in the key weigh what the markers
around it in a prompt do. -/
def weight (t : Text) : Nat := t.length + 11 * t.count 0

@[simp] lemma weight_append (s t : Text) : weight (s ++ t) = weight s + weight t := by
  simp only [weight, List.length_append, List.count_append]
  omega

lemma weight_cons_zero (t : Text) : weight (0 :: t) = 12 + weight t := by
  simp only [weight, List.length_cons, List.count_cons_self]
  omega

/-- A history weighs the same in the prompt and in its key. -/
lemma weight_rendered (messages : List Message) :
    weight (rendered messages) = weight (keyBytes messages) := by
  induction messages with
  | nil => rfl
  | cons m ms ih =>
    have hstart : weight (ascii "<|im_start|>") = 12 := by decide
    have hline : weight (ascii "\n") = 1 := by decide
    have hend : weight (ascii "<|im_end|>\n") = 11 := by decide
    rw [keyBytes_cons]
    simp only [rendered, List.flatMap_cons, weight_append, weight_cons_zero] at ih ⊢
    simp only [Message.render, weight_append, hstart, hline, hend, ih]
    omega

lemma weight_assistantStart : weight assistantStart = 22 := by decide

lemma weight_assistantMessage (reply : Text) :
    weight (keyBytes [assistantMessage reply]) = 33 + weight reply := by
  have hrole : weight (ascii "assistant") = 9 := by decide
  have hnil : weight [] = 0 := rfl
  simp only [assistantMessage, keyBytes_cons, keyBytes_nil, weight_append, weight_cons_zero, hrole,
    hnil]
  omega

end ProviderOwned.Gateway
