import ProviderOwned.Lib.Text

/-!
# Addresses

The peer ids and addresses that `protocol.hpp` and `route.hpp` accept. A character stands for a
byte.
-/

namespace ProviderOwned

open Text

def base58 (c : Char) : Bool :=
  ('1' ≤ c && c ≤ '9') || ('A' ≤ c && c ≤ 'H') || ('J' ≤ c && c ≤ 'N') || ('P' ≤ c && c ≤ 'Z') ||
    ('a' ≤ c && c ≤ 'k') || ('m' ≤ c && c ≤ 'z')

def validPeerId (value : List Char) : Bool :=
  32 ≤ value.length && value.length ≤ 90 && value.all base58

def Address.hexString (value : List Char) (length : Nat) : Bool :=
  value.length = length && value.all fun c =>
    ('0' ≤ c && c ≤ '9') || ('a' ≤ c && c ≤ 'f') || ('A' ≤ c && c ≤ 'F')

def validEndpoint (endpoint : List Char) : Bool :=
  endpoint.isEmpty ||
    match cutLast ':' endpoint with
    | none => false
    | some (host, port) =>
      !host.isEmpty && !port.isEmpty &&
        endpoint.all (fun c => c ≠ '\r' && c ≠ '\n' && c ≠ ' ' && c ≠ '\t') &&
        (fromDecimal (2 ^ 32) port).any fun port => port ≠ 0 && port ≤ 65535

/-- A character of a ring target that is no endpoint. -/
def targetChar (c : Char) : Bool :=
  ('a' ≤ c && c ≤ 'z') || ('A' ≤ c && c ≤ 'Z') || ('0' ≤ c && c ≤ '9') || c = '/' || c = '.' ||
    c = '_' || c = ':' || c = '-' || c = ','

def validRingTarget (value : List Char) : Bool :=
  validEndpoint value ||
    (!value.isEmpty && value.getLast? ≠ some ',' && value.length ≤
      16 * 1024 && value.all targetChar &&
      (pieces ',' value).all fun address => address.head? = some '/' &&
        (afterLast "/p2p/".toList address).any validPeerId)

def validP2pTarget (value : List Char) : Bool := value.head? = some '/' && validRingTarget value

/-- One number of an IPv4 address. -/
def octet (text : List Char) : Option Nat :=
  if text.head? = some '0' ∧ text ≠ ['0'] then none else fromDecimal 256 text

/-- `inet_pton` of an IPv4 address. -/
def inetPton (host : List Char) : Option (Nat × Nat × Nat × Nat) := do
  let (a, host) ← cut '.' host
  let (b, host) ← cut '.' host
  let (c, d) ← cut '.' host
  return (← octet a, ← octet b, ← octet c, ← octet d)

def validPrivateEndpoint (value : List Char) : Bool :=
  !value.isEmpty && value.head? ≠ some '/' && validEndpoint value &&
    match cutLast ':' value with
    | none => false
    | some (host, _) =>
      (inetPton (host.takeWhile (· ≠ '\x00'))).any fun (a, b, _, _) =>
        a = 127 || a = 10 || (a = 172 && 16 ≤ b && b ≤ 31) || (a = 192 && b = 168) ||
          (a = 100 && 64 ≤ b && b ≤ 127)

/-! ### Loopback addresses -/

structure Loopback where
  b : Nat
  c : Nat
  d : Nat
  port : Nat
  octets : b < 256 ∧ c < 256 ∧ d < 256
  port_range : 0 < port ∧ port < 65536
  deriving DecidableEq, Repr

namespace Loopback

def host (a : Loopback) : List Char :=
  "127".toList ++ '.' :: (decimal a.b ++ '.' :: (decimal a.c ++ '.' :: decimal a.d))

/-- `host:port`. -/
def text (a : Loopback) : List Char := a.host ++ ':' :: decimal a.port

variable (a : Loopback)

lemma octet_decimal {n : Nat} (h : n < 256) : octet (decimal n) = some n := by
  have hall : ∀ n < 256, octet (decimal n) = some n := by decide +kernel
  exact hall n h

/-- The characters of the address. -/
lemma mem_text {c : Char} (h : c ∈ a.text) : c.isDigit ∨ c = '.' ∨ c = ':' := by
  simp only [text, host, List.mem_append, List.mem_cons] at h
  have hfirst : ∀ c ∈ "127".toList, c.isDigit := List.all_eq_true.mp (by decide)
  rcases h with (h | rfl | h | rfl | h | rfl | h) | rfl | h
  · exact .inl (hfirst c h)
  · exact .inr (.inl rfl)
  · exact .inl (isDigit_of_mem_decimal h)
  · exact .inr (.inl rfl)
  · exact .inl (isDigit_of_mem_decimal h)
  · exact .inr (.inl rfl)
  · exact .inl (isDigit_of_mem_decimal h)
  · exact .inr (.inr rfl)
  · exact .inl (isDigit_of_mem_decimal h)

lemma not_mem_text {c : Char} (h : c.isDigit = false ∧ c ≠ '.' ∧ c ≠ ':') : c ∉ a.text := by
  intro hmem
  rcases a.mem_text hmem with hdigit | hdot | hcolon
  · rw [hdigit] at h
    cases h.1
  · exact h.2.1 hdot
  · exact h.2.2 hcolon

lemma inetPton_host : inetPton a.host = some (127, a.b, a.c, a.d) := by
  have hdot : ∀ n, '.' ∉ decimal n := not_mem_decimal (by decide)
  have hfirst : octet "127".toList = some 127 := by decide
  rw [inetPton, host, cut_append (by decide)]
  simp only [Option.bind_eq_bind, Option.bind_some, cut_append (hdot _), hfirst,
    octet_decimal a.octets.1, octet_decimal a.octets.2.1, octet_decimal a.octets.2.2]
  rfl

lemma cutLast_text : cutLast ':' a.text = some (a.host, decimal a.port) :=
  cutLast_append a.host (not_mem_decimal (by decide) a.port)

lemma validEndpoint_text : validEndpoint a.text := by
  have hport : fromDecimal (2 ^ 32) (decimal a.port) = some a.port :=
    fromDecimal_decimal (Nat.lt_trans a.port_range.2 (by decide))
  have hblank : a.text.all (fun c => c ≠ '\r' && c ≠ '\n' && c ≠ ' ' && c ≠ '\t') := by
    rw [List.all_eq_true]
    intro c hc
    simp only [Bool.and_eq_true, decide_eq_true_eq]
    refine ⟨⟨⟨?_, ?_⟩, ?_⟩, ?_⟩
    all_goals
      rintro rfl
      exact a.not_mem_text (by decide) hc
  have hhost : a.host ≠ [] := List.cons_ne_nil _ _
  have hrange := a.port_range
  rw [validEndpoint, cutLast_text]
  dsimp only
  rw [hblank, hport]
  simp only [Option.any_some, List.isEmpty_eq_false_iff.mpr hhost,
    List.isEmpty_eq_false_iff.mpr (decimal_ne_nil a.port), Bool.not_false, Bool.true_and,
    Bool.or_eq_true, Bool.and_eq_true, decide_eq_true_eq]
  exact .inr ⟨Nat.ne_of_gt hrange.1, Nat.le_of_lt_succ hrange.2⟩

/-- The client takes the address of a local listener. -/
lemma validPrivateEndpoint_text : validPrivateEndpoint a.text := by
  have hhost : a.host.takeWhile (· ≠ '\x00') = a.host := by
    rw [List.takeWhile_eq_self_iff]
    rintro c hc
    rw [decide_eq_true_eq]
    rintro rfl
    exact a.not_mem_text (by decide) (List.mem_append_left _ hc)
  rw [validPrivateEndpoint, a.validEndpoint_text, cutLast_text]
  dsimp only
  rw [hhost, inetPton_host]
  rfl

lemma isPrefixOf_text : "127.".toList.isPrefixOf a.text := rfl

lemma length_text_le : a.text.length ≤ 21 := by
  have hb := length_decimal_le (by decide : 0 < 3) (Nat.lt_trans a.octets.1 (by decide))
  have hc := length_decimal_le (by decide : 0 < 3) (Nat.lt_trans a.octets.2.1 (by decide))
  have hd := length_decimal_le (by decide : 0 < 3) (Nat.lt_trans a.octets.2.2 (by decide))
  have hport := length_decimal_le (by decide : 0 < 5) (Nat.lt_trans a.port_range.2 (by decide))
  have hfirst : "127".toList.length = 3 := rfl
  simp only [text, host, List.length_append, List.length_cons, hfirst]
  omega

end Loopback

/-! ### Peer ids -/

lemma not_mem_of_validPeerId {value : List Char} (h : validPeerId value) {c : Char}
    (hc : base58 c = false) : c ∉ value := by
  intro hmem
  rw [validPeerId, Bool.and_eq_true, List.all_eq_true] at h
  rw [h.2 c hmem] at hc
  cases hc

lemma ne_nil_of_validPeerId {value : List Char} (h : validPeerId value) : value ≠ [] := by
  rintro rfl
  exact absurd h (by decide)

lemma le_length_of_validPeerId {value : List Char} (h : validPeerId value) : 32 ≤ value.length := by
  rw [validPeerId, Bool.and_eq_true, Bool.and_eq_true, decide_eq_true_eq, decide_eq_true_eq] at h
  exact h.1.1

lemma length_le_of_validPeerId {value : List Char} (h : validPeerId value) : value.length ≤ 90 := by
  rw [validPeerId, Bool.and_eq_true, Bool.and_eq_true, decide_eq_true_eq, decide_eq_true_eq] at h
  exact h.1.2

/-! ### Hexadecimal digits -/

/-- The digits that `hex_string` takes. -/
def hexDigits : List Char := "0123456789abcdefABCDEF".toList

lemma mem_hexDigits {value : List Char} {length : Nat} (h : Address.hexString value length)
    {c : Char} (hc : c ∈ value) : c ∈ hexDigits := by
  rw [Address.hexString, Bool.and_eq_true, List.all_eq_true] at h
  have hdigit := h.2 c hc
  have hall : ∀ n < 128, (('0' ≤ Char.ofNat n && Char.ofNat n ≤ '9') ||
      ('a' ≤ Char.ofNat n && Char.ofNat n ≤ 'f') || ('A' ≤ Char.ofNat n && Char.ofNat n ≤ 'F')) =
        true →
      Char.ofNat n ∈ hexDigits := by decide +kernel
  have hsmall : c.toNat < 128 := by
    simp only [Bool.or_eq_true, Bool.and_eq_true, decide_eq_true_eq] at hdigit
    rcases hdigit with (⟨-, hle⟩ | ⟨-, hle⟩) | ⟨-, hle⟩
    all_goals exact Nat.lt_of_le_of_lt hle (by decide)
  have hchar := hall c.toNat hsmall
  rw [Char.ofNat_toNat] at hchar
  exact hchar hdigit

/-- A hexadecimal number in lower case is one of the same length. -/
lemma hexString_lowercase {value : List Char} {length : Nat} (h : Address.hexString value length) :
    Address.hexString (lowercase value) length := by
  have hlower : ∀ c ∈ hexDigits, c.toLower ∈ hexDigits := List.all_iff_forall_prop.mp (by decide)
  have hdigits : ∀ c ∈ hexDigits, (('0' ≤ c && c ≤ '9') || ('a' ≤ c && c ≤ 'f') ||
    ('A' ≤ c && c ≤ 'F')) = true := List.all_eq_true.mp (by decide)
  have hall := fun c hc => mem_hexDigits h (c := c) hc
  rw [Address.hexString, Bool.and_eq_true, decide_eq_true_eq] at h ⊢
  refine ⟨by rw [lowercase, List.length_map]; exact h.1, ?_⟩
  rw [List.all_eq_true]
  intro c hc
  obtain ⟨b, hb, rfl⟩ := List.mem_map.mp hc
  exact hdigits _ (hlower b (hall b hb))

lemma lowercase_lowercase {value : List Char} {length : Nat} (h : Address.hexString value length) :
    lowercase (lowercase value) = lowercase value := by
  have hlower : ∀ c ∈ hexDigits, c.toLower.toLower = c.toLower :=
    List.all_iff_forall_prop.mp (by decide)
  rw [lowercase, lowercase, List.map_map]
  exact List.map_congr_left fun c hc => hlower c (mem_hexDigits h hc)

end ProviderOwned
