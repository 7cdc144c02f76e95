import ProviderOwned.Lib.Layout
import ProviderOwned.Protocol

/-!
# Frames as bytes

The frame header of `protocol.hpp` and of the gateway's `main.go`: a record of big-endian fields. A
frame here has its payload as bytes and its `dtype` as the number on the wire, which `decode_header`
casts without a check; the decoded payloads of `Protocol` are what the stages make of these bytes.
-/

namespace ProviderOwned

def FrameType.code : FrameType → Nat
  | .error => 0
  | .createSession => 1
  | .resetSession => 2
  | .destroySession => 3
  | .prompt => 4
  | .token => 5
  | .activation => 6
  | .result => 7
  | .endRequest => 8
  | .ack => 9
  | .metrics => 10
  | .shutdown => 11
  | .commitToken => 12
  | .commitActivation => 13
  | .cancelRequest => 14
  | .clientResult => 15
  | .providerAvailable => 16
  | .assignStage => 17
  | .stageReady => 18
  | .unloadStage => 19
  | .speculativeActivation => 20
  | .rollback => 21
  | .promptChunk => 22
  | .streamPrompt => 23
  | .clientChunk => 24
  | .reserve => 25
  | .releaseRoute => 26
  | .prepareChat => 27

/-- The frame type of a number up to that of `prepare_chat`. -/
def FrameType.ofCode (code : Nat) : Option FrameType :=
  [.error, .createSession, .resetSession, .destroySession, .prompt, .token, .activation, .result,
    .endRequest, .ack, .metrics, .shutdown, .commitToken, .commitActivation, .cancelRequest,
    .clientResult, .providerAvailable, .assignStage, .stageReady, .unloadStage,
    .speculativeActivation, .rollback, .promptChunk, .streamPrompt, .clientChunk, .reserve,
    .releaseRoute, .prepareChat][code]?

lemma FrameType.ofCode_code (t : FrameType) : FrameType.ofCode t.code = some t := by
  cases t <;> rfl

lemma FrameType.code_lt (t : FrameType) : t.code < 28 := by
  cases t <;> decide

lemma FrameType.code_of_ofCode {n : Nat} {t : FrameType} (h : FrameType.ofCode n = some t) :
    t.code = n := by
  have hlt : n < 28 := (List.getElem?_eq_some_iff.mp h).1
  have hall : ∀ n < 28, (FrameType.ofCode n).map FrameType.code = some n := by decide
  have hcode := hall n hlt
  rw [h] at hcode
  exact Option.some.inj hcode

namespace Wire

open Layout

def magic : Nat := 0x44414e31

def version : Nat := 2

def headerSize : Nat := 48

/-- `protocol.hpp`: `struct Frame`, its payload not decoded. -/
structure WireFrame where
  type : FrameType := .error
  session : UInt64 := 0
  request : UInt64 := 0
  position : UInt32 := 0
  rows : UInt32 := 0
  cols : UInt32 := 0
  dtype : UInt16 := 0
  payload : List UInt8 := []
  deriving DecidableEq, Repr

def frameHeader (f : WireFrame) : WireFrame := { f with payload := [] }

/-- The fields of a header, in the order they stand in: their widths and numbers. -/
def headerRow (type : Nat) (session request : UInt64) (position rows cols : UInt32)
    (dtype reserved : UInt16) (size : Nat) : List (Nat × Nat) :=
  [(4, magic), (2, version), (2, type), (8, session.toNat), (8, request.toNat),
    (4, position.toNat), (4, rows.toNat), (4, cols.toNat), (2, dtype.toNat), (2, reserved.toNat),
    (8, size)]

def encodeHeader (f : WireFrame) : Except String (List UInt8) :=
  if maxPayload < f.payload.length then .error "payload exceeds 64 MiB"
  else .ok (layout (headerRow f.type.code f.session f.request f.position f.rows f.cols f.dtype 0
    f.payload.length))

/-- `decode_header`: the frame without its payload, and the payload's size. -/
def decodeHeader (header : List UInt8) : Except String (WireFrame × Nat) :=
  if field header 0 4 ≠ magic ∨ field header 4 2 ≠ version ∨ field header 38 2 ≠ 0 then
    .error "bad frame header"
  else match FrameType.ofCode (field header 6 2) with
    | none => .error "unknown frame type"
    | some type =>
      if maxPayload < field header 40 8 then .error "payload exceeds 64 MiB"
      else .ok
        ({ type
           session := .ofNat (field header 8 8)
           request := .ofNat (field header 16 8)
           position := .ofNat (field header 24 4)
           rows := .ofNat (field header 28 4)
           cols := .ofNat (field header 32 4)
           dtype := .ofNat (field header 36 2) }, field header 40 8)

/-! ### Round trips -/

@[simp] lemma length_headerRow (type : Nat) (session request : UInt64) (position rows cols : UInt32)
    (dtype reserved : UInt16) (size : Nat) :
    (layout (headerRow type session request position rows cols dtype reserved size)).length =
      headerSize := by
  rw [length_layout]
  rfl

/-- What each field of a header reads. -/
lemma field_headerRow (type : Nat) (session request : UInt64) (position rows cols : UInt32)
    (dtype reserved : UInt16) (size : Nat) (htype : type < 2 ^ 16) (hsize : size < 2 ^ 64) :
    let header := layout (headerRow type session request position rows cols dtype reserved size)
    field header 0 4 = magic ∧ field header 4 2 = version ∧ field header 6 2 = type ∧
      field header 8 8 = session.toNat ∧ field header 16 8 = request.toNat ∧
      field header 24 4 = position.toNat ∧ field header 28 4 = rows.toNat ∧
      field header 32 4 = cols.toNat ∧ field header 36 2 = dtype.toNat ∧
      field header 38 2 = reserved.toNat ∧ field header 40 8 = size := by
  have hrow : ∀ (n : Nat) (hn : n < 11), _ := fun n hn => field_getElem
    (headerRow type session request position rows cols dtype reserved size) n hn
  exact ⟨hrow 0 (by decide) (by decide : magic < 256 ^ 4),
    hrow 1 (by decide) (by decide : version < 256 ^ 2), hrow 2 (by decide) htype,
    hrow 3 (by decide) session.toNat_lt, hrow 4 (by decide) request.toNat_lt,
    hrow 5 (by decide) position.toNat_lt, hrow 6 (by decide) rows.toNat_lt,
    hrow 7 (by decide) cols.toNat_lt, hrow 8 (by decide) dtype.toNat_lt,
    hrow 9 (by decide) reserved.toNat_lt, hrow 10 (by decide) hsize⟩

/-- The row that a header of the right length is laid out from. -/
lemma layout_field (header : List UInt8) (h : header.length = headerSize) :
    layout [(4, field header 0 4), (2, field header 4 2), (2, field header 6 2),
      (8, field header 8 8), (8, field header 16 8), (4, field header 24 4),
      (4, field header 28 4), (4, field header 32 4), (2, field header 36 2),
      (2, field header 38 2), (8, field header 40 8)] = header := by
  have hfields : layout (fields [4, 2, 2, 8, 8, 4, 4, 4, 2, 2, 8] header) = header :=
    layout_fields h
  simp only [fields, List.drop_drop] at hfields
  exact hfields

variable {f : WireFrame} {header payload : List UInt8} {size : Nat}

/-- The header of a frame whose payload is not too long. -/
def headerOf (f : WireFrame) : List UInt8 :=
  layout (headerRow f.type.code f.session f.request f.position f.rows f.cols f.dtype 0
    f.payload.length)

@[simp] lemma length_headerOf (f : WireFrame) : (headerOf f).length = headerSize :=
  length_headerRow ..

lemma encodeHeader_eq (h : f.payload.length ≤ maxPayload) : encodeHeader f = .ok (headerOf f) :=
  if_neg (Nat.not_lt.mpr h)

lemma decodeHeader_headerOf (h : f.payload.length ≤ maxPayload) :
    decodeHeader (headerOf f) = .ok (frameHeader f, f.payload.length) := by
  have htype : f.type.code < 2 ^ 16 := Nat.lt_trans f.type.code_lt (by decide)
  have hsize : f.payload.length < 2 ^ 64 := Nat.lt_of_le_of_lt h (by decide)
  obtain ⟨hmagic, hversion, hkind, hsession, hrequest, hposition, hrows, hcols, hdtype, hreserved,
    hpayload⟩ := field_headerRow f.type.code f.session f.request f.position f.rows f.cols f.dtype 0
      f.payload.length htype hsize
  rw [← headerOf] at *
  rw [decodeHeader, hmagic, hversion, hkind, hsession, hrequest, hposition, hrows, hcols, hdtype,
    hreserved, hpayload, FrameType.ofCode_code, if_neg (by decide)]
  dsimp only
  rw [if_neg (Nat.not_lt.mpr h)]
  simp only [UInt64.ofNat_toNat, UInt32.ofNat_toNat, UInt16.ofNat_toNat]
  rfl

/-- What an accepted header says. -/
lemma decodeHeader_eq (h : decodeHeader header = .ok (f, size)) :
    field header 0 4 = magic ∧ field header 4 2 = version ∧ field header 38 2 = 0 ∧
      FrameType.ofCode (field header 6 2) = some f.type ∧ size = field header 40 8 ∧
      size ≤ maxPayload ∧ f.session = .ofNat (field header 8 8) ∧
      f.request = .ofNat (field header 16 8) ∧ f.position = .ofNat (field header 24 4) ∧
      f.rows = .ofNat (field header 28 4) ∧ f.cols = .ofNat (field header 32 4) ∧
      f.dtype = .ofNat (field header 36 2) ∧ f.payload = [] := by
  rw [decodeHeader] at h
  split at h
  · cases h
  · rename_i hgood
    split at h
    · cases h
    · rename_i type htype
      split at h
      · cases h
      · rename_i hsize
        cases h
        push Not at hgood
        exact ⟨hgood.1, hgood.2.1, hgood.2.2, htype, rfl, Nat.not_lt.mp hsize, rfl, rfl, rfl, rfl,
          rfl, rfl, rfl⟩

/-- Encoding what an accepted header says gives the header back, whatever the payload. -/
lemma encodeHeader_of_decodeHeader (hlength : header.length = headerSize)
    (h : decodeHeader header = .ok (f, size)) (hpayload : payload.length = size) :
    encodeHeader { f with payload := payload } = .ok header := by
  obtain ⟨hmagic, hversion, hreserved, htype, rfl, hsize, hsession, hrequest, hposition, hrows,
    hcols, hdtype, -⟩ := decodeHeader_eq h
  have hsmall : ({ f with payload := payload } : WireFrame).payload.length ≤ maxPayload :=
    hpayload ▸ hsize
  rw [encodeHeader_eq hsmall, headerOf, headerRow]
  dsimp only
  rw [FrameType.code_of_ofCode htype, hsession, hrequest, hposition, hrows, hcols, hdtype,
    hpayload, UInt64.toNat_ofNat_of_lt' (field_lt ..), UInt64.toNat_ofNat_of_lt' (field_lt ..),
    UInt32.toNat_ofNat_of_lt' (field_lt ..), UInt32.toNat_ofNat_of_lt' (field_lt ..),
    UInt32.toNat_ofNat_of_lt' (field_lt ..), UInt16.toNat_ofNat_of_lt' (field_lt ..)]
  have hlayout := layout_field header hlength
  rw [hmagic, hversion, hreserved] at hlayout
  exact congrArg Except.ok hlayout

end Wire

end ProviderOwned
