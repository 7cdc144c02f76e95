import ProviderOwned.Lib.Segments
import ProviderOwned.Wire.Codec

/-!
# Frames on a byte stream

`send_frame` and `recv_frame` of `protocol.hpp` and the gateway's `writeFrame` and `readFrame`. A
socket takes the bytes of a send in pieces of its own choice, here a list of counts, and gives them
back in other pieces, here the segments of a stream; the end of the segments is the end of the
stream.
-/

namespace ProviderOwned.Wire

open Layout Segments

/-- A byte stream in the segments it arrives in. -/
abbrev ByteStream := List (List UInt8)

def intMax : Nat := 2 ^ 31 - 1

/-! ### The engine's side -/

/-- `send_all`, where the socket takes the given counts of bytes, each as far as it is offered and
zero for a failed send: whether all was sent, what was sent and the counts left. -/
def sendAll : List Nat → List UInt8 → Bool × List UInt8 × List Nat
  | accepts, [] => (true, [], accepts)
  | [], _ :: _ => (false, [], [])
  | accept :: accepts, byte :: bytes =>
    let count := min accept (min (byte :: bytes).length intMax)
    if count = 0 then (false, [], accepts)
    else
      let (ok, sent, left) := sendAll accepts ((byte :: bytes).drop count)
      (ok, (byte :: bytes).take count ++ sent, left)

/-- `recv_all`: the bytes where all came, and the rest of the stream. -/
def recvAll (size : Nat) (stream : ByteStream) : Option (List UInt8) × ByteStream :=
  let (bytes, rest) := readUpTo intMax size size stream
  (if bytes.length = size then some bytes else none, rest)

/-- `send_frame`: the outcome, what was sent and the counts left. -/
def sendFrame (accepts : List Nat) (f : WireFrame) : Except String Unit × List UInt8 × List Nat :=
  match encodeHeader f with
  | .error error => (.error error, [], accepts)
  | .ok header =>
    match sendAll accepts header with
    | (false, sent, left) => (.error "peer disconnected while sending frame", sent, left)
    | (true, sent, left) =>
      match sendAll left f.payload with
      | (false, more, left) =>
        (.error "peer disconnected while sending frame", sent ++ more, left)
      | (true, more, left) => (.ok (), sent ++ more, left)

/-- `recv_frame`: the outcome and the rest of the stream. -/
def recvFrame (stream : ByteStream) : Except String WireFrame × ByteStream :=
  match recvAll headerSize stream with
  | (none, rest) => (.error "peer disconnected while receiving frame", rest)
  | (some header, rest) =>
    match decodeHeader header with
    | .error error => (.error error, rest)
    | .ok (frame, size) =>
      match recvAll size rest with
      | (none, rest) => (.error "peer disconnected during payload", rest)
      | (some payload, rest) => (.ok { frame with payload := payload }, rest)

/-- One `send_frame` after the other: the bytes of the stream where none failed. -/
def sendFrames : List Nat → List WireFrame → Option (List UInt8)
  | _, [] => some []
  | accepts, f :: frames =>
    match sendFrame accepts f with
    | (.error _, _, _) => none
    | (.ok _, sent, left) => (sendFrames left frames).map (sent ++ ·)

/-- At most `n` calls of `recv_frame`: the frames received and the error of the last call. -/
def recvFrames : Nat → ByteStream → List WireFrame × Option String
  | 0, _ => ([], none)
  | n + 1, stream =>
    match recvFrame stream with
    | (.error error, _) => ([], some error)
    | (.ok frame, rest) =>
      let (frames, error) := recvFrames n rest
      (frame :: frames, error)

/-! ### The gateway's side -/

/-- `main.go`: `type frame`. -/
structure GatewayFrame where
  typeID : UInt16 := 0
  session : UInt64 := 0
  request : UInt64 := 0
  rows : UInt32 := 0
  payload : List UInt8 := []
  deriving DecidableEq, Repr

def maxBodySize : Nat := 2 ^ 20

/-- `writeFrame`: the bytes it writes to a connection that takes them. -/
def writeFrame (f : GatewayFrame) : List UInt8 :=
  layout (headerRow f.typeID.toNat f.session f.request 0 f.rows 0 0 0 f.payload.length) ++ f.payload

/-- `io.ReadFull`. -/
def readFull (size : Nat) (stream : ByteStream) : Except String (List UInt8) × ByteStream :=
  let (bytes, rest) := readUpTo size size size stream
  if bytes.length = size then (.ok bytes, rest)
  else if bytes.isEmpty then (.error "EOF", rest)
  else (.error "unexpected EOF", rest)

def readFrame (stream : ByteStream) : Except String GatewayFrame × ByteStream :=
  match readFull headerSize stream with
  | (.error error, rest) => (.error error, rest)
  | (.ok header, rest) =>
    if field header 0 4 ≠ magic ∨ field header 4 2 ≠ version then
      (.error "invalid DAN response", rest)
    else if maxBodySize < field header 40 8 then (.error "DAN response is too large", rest)
    else match readFull (field header 40 8) rest with
      | (.error error, rest) => (.error error, rest)
      | (.ok payload, rest) =>
        (.ok
          { typeID := .ofNat (field header 6 2)
            session := .ofNat (field header 8 8)
            request := .ofNat (field header 16 8)
            rows := .ofNat (field header 28 4)
            payload := payload }, rest)

/-! ### Bytes in and out -/

variable {accepts left : List Nat} {bytes sent rest : List UInt8} {stream : ByteStream}
  {f : WireFrame} {frames : List WireFrame}

/-- A `send_all` that succeeds has sent every byte. -/
lemma sent_of_sendAll (h : (sendAll accepts bytes).1 = true) :
    (sendAll accepts bytes).2.1 = bytes := by
  induction accepts generalizing bytes with
  | nil =>
    cases bytes with
    | nil => rfl
    | cons byte bytes => cases h
  | cons accept accepts ih =>
    cases bytes with
    | nil => rfl
    | cons byte bytes =>
      rw [sendAll] at h ⊢
      dsimp only at h ⊢
      split at h
      · cases h
      · rename_i hcount
        rw [if_neg hcount]
        dsimp only at h ⊢
        rw [ih h, List.take_append_drop]

def wire (f : WireFrame) : List UInt8 := headerOf f ++ f.payload

lemma sendFrame_spec (h : sendFrame accepts f = (.ok (), sent, left)) :
    f.payload.length ≤ maxPayload ∧ sent = wire f := by
  rw [sendFrame] at h
  split at h
  · cases h
  · rename_i header hheader
    have hsmall : f.payload.length ≤ maxPayload := by
      by_contra hlong
      rw [encodeHeader, if_pos (Nat.not_le.mp hlong)] at hheader
      cases hheader
    rw [encodeHeader_eq hsmall] at hheader
    cases hheader
    split at h
    · cases h
    · rename_i first left' hfirst
      split at h
      · cases h
      · rename_i second left'' hsecond
        cases h
        have hheader := sent_of_sendAll (congrArg Prod.fst hfirst)
        have hpayload := sent_of_sendAll (congrArg Prod.fst hsecond)
        rw [hfirst] at hheader
        rw [hsecond] at hpayload
        exact ⟨hsmall, congrArg₂ _ hheader hpayload⟩

/-- `recv_all` gives the next bytes of the stream, wherever its segments end. -/
lemma recvAll_of_flatten (h : stream.flatten = bytes ++ rest) :
    ∃ stream', recvAll bytes.length stream = (some bytes, stream') ∧ stream'.flatten = rest := by
  obtain ⟨htake, hdrop⟩ := readUpTo_spec (by decide : 0 < intMax) (Nat.le_refl bytes.length) stream
  rw [h, List.take_left] at htake
  rw [h, List.drop_left] at hdrop
  have hread : readUpTo intMax bytes.length bytes.length stream = (bytes, _) := Prod.ext htake rfl
  refine ⟨_, ?_, hdrop⟩
  rw [recvAll, hread]
  exact congrArg (·, _) (if_pos rfl)

/-- `recv_all` fails on a stream that has ended. -/
lemma recvAll_of_nil {size : Nat} (hsize : 0 < size) (h : stream.flatten = []) :
    ∃ stream', recvAll size stream = (none, stream') := by
  obtain ⟨htake, -⟩ := readUpTo_spec (by decide : 0 < intMax) (Nat.le_refl size) stream
  rw [h, List.take_nil] at htake
  have hread : readUpTo intMax size size stream = ([], _) := Prod.ext htake rfl
  refine ⟨(readUpTo intMax size size stream).2, ?_⟩
  rw [recvAll, hread]
  exact congrArg (·, _) (if_neg (Nat.ne_of_lt hsize))

/-- `recv_frame` reads a header it accepts and the payload behind it. -/
lemma recvFrame_of_header {header payload : List UInt8} {frame : WireFrame}
    (hlength : header.length = headerSize)
    (hdecode : decodeHeader header = .ok (frame, payload.length))
    (h : stream.flatten = header ++ payload ++ rest) :
    ∃ stream', recvFrame stream = (.ok { frame with payload := payload }, stream') ∧
      stream'.flatten = rest := by
  rw [List.append_assoc] at h
  obtain ⟨stream₁, hheader, h₁⟩ := recvAll_of_flatten h
  obtain ⟨stream₂, hpayload, h₂⟩ := recvAll_of_flatten h₁
  refine ⟨stream₂, ?_, h₂⟩
  rw [recvFrame, ← hlength, hheader]
  dsimp only
  rw [hdecode]
  dsimp only
  rw [hpayload]

lemma recvFrame_wire (hsmall : f.payload.length ≤ maxPayload)
    (h : stream.flatten = wire f ++ rest) :
    ∃ stream', recvFrame stream = (.ok f, stream') ∧ stream'.flatten = rest := by
  have hread := recvFrame_of_header (length_headerOf f) (decodeHeader_headerOf hsmall) h
  exact hread

/-- However the bytes of a run of `send_frame` are split, `recv_frame` returns its frames and then
finds the end of the stream. -/
lemma recvFrames_of_sendFrames {sent : List UInt8} (hsend : sendFrames accepts frames = some sent)
    (h : stream.flatten = sent) :
    recvFrames (frames.length + 1) stream =
      (frames, some "peer disconnected while receiving frame") := by
  induction frames generalizing accepts sent stream with
  | nil =>
    rw [sendFrames] at hsend
    cases hsend
    obtain ⟨stream', hend⟩ := recvAll_of_nil (by decide : 0 < headerSize) h
    rw [List.length_nil, recvFrames, recvFrame, hend]
  | cons f frames ih =>
    rw [sendFrames] at hsend
    split at hsend
    · cases hsend
    · rename_i first left hfirst
      obtain ⟨hsmall, rfl⟩ := sendFrame_spec hfirst
      obtain ⟨more, hmore, rfl⟩ := Option.map_eq_some_iff.mp hsend
      obtain ⟨stream', hread, hrest⟩ := recvFrame_wire hsmall h
      rw [List.length_cons, recvFrames, hread]
      dsimp only
      rw [ih hmore hrest]

/-- A socket that goes on taking bytes lets every `send_all` through, for one count a byte at
most. -/
lemma sendAll_complete (hpos : ∀ n ∈ accepts, 0 < n) (hcount : bytes.length ≤ accepts.length) :
    ∃ left, sendAll accepts bytes = (true, bytes, left) ∧ left <:+ accepts ∧
      accepts.length ≤ left.length + bytes.length := by
  induction accepts generalizing bytes with
  | nil =>
    obtain rfl := List.length_eq_zero_iff.mp (Nat.le_zero.mp hcount)
    exact ⟨[], rfl, List.suffix_rfl, Nat.le_refl _⟩
  | cons accept accepts ih =>
    cases bytes with
    | nil => exact ⟨accept :: accepts, rfl, List.suffix_rfl, Nat.le_refl _⟩
    | cons byte bytes =>
      rw [List.forall_mem_cons] at hpos
      have htaken : 0 < min accept (min (byte :: bytes).length intMax) :=
        Nat.lt_min.mpr ⟨hpos.1, Nat.lt_min.mpr ⟨Nat.succ_pos _, by decide⟩⟩
      rw [sendAll]
      dsimp only
      generalize min accept (min (byte :: bytes).length intMax) = count at htaken ⊢
      have hrest : ((byte :: bytes).drop count).length + 1 ≤ (byte :: bytes).length := by
        rw [List.length_drop, List.length_cons]
        omega
      have hfit : ((byte :: bytes).drop count).length ≤ accepts.length :=
        Nat.le_of_succ_le_succ (Nat.le_trans hrest hcount)
      obtain ⟨left, hsend, hleft, hcounts⟩ := ih hpos.2 hfit
      refine ⟨left, ?_, hleft.trans (List.suffix_cons _ _), ?_⟩
      · rw [if_neg (Nat.ne_of_gt htaken), hsend]
        dsimp only
        rw [List.take_append_drop]
      · calc accepts.length + 1
            ≤ left.length + (((byte :: bytes).drop count).length + 1) := Nat.succ_le_succ hcounts
          _ ≤ _ := Nat.add_le_add_left hrest _

lemma sendFrame_complete (hsmall : f.payload.length ≤ maxPayload) (hpos : ∀ n ∈ accepts, 0 < n)
    (hcount : (wire f).length ≤ accepts.length) :
    ∃ left, sendFrame accepts f = (.ok (), wire f, left) ∧ left <:+ accepts ∧
      accepts.length ≤ left.length + (wire f).length := by
  rw [wire, List.length_append] at hcount ⊢
  obtain ⟨left₁, hheader, hleft₁, hcount₁⟩ :=
    sendAll_complete hpos (Nat.le_trans (Nat.le_add_right _ _) hcount)
  have hpos₁ : ∀ n ∈ left₁, 0 < n := fun n hn => hpos n (hleft₁.subset hn)
  have hfit : f.payload.length ≤ left₁.length := by omega
  obtain ⟨left₂, hpayload, hleft₂, hcount₂⟩ := sendAll_complete hpos₁ hfit
  refine ⟨left₂, ?_, hleft₂.trans hleft₁, by omega⟩
  rw [sendFrame, encodeHeader_eq hsmall]
  dsimp only
  rw [hheader]
  dsimp only
  rw [hpayload]

/-- Every sequence of frames that can be encoded is sent by a socket that goes on taking bytes. -/
lemma sendFrames_complete (hsmall : ∀ f ∈ frames, f.payload.length ≤ maxPayload)
    (hpos : ∀ n ∈ accepts, 0 < n) (hcount : (frames.flatMap wire).length ≤ accepts.length) :
    sendFrames accepts frames = some (frames.flatMap wire) := by
  induction frames generalizing accepts with
  | nil => rfl
  | cons f frames ih =>
    rw [List.forall_mem_cons] at hsmall
    rw [List.flatMap_cons, List.length_append] at hcount
    obtain ⟨left, hsend, hleft, hcounts⟩ :=
      sendFrame_complete hsmall.1 hpos (Nat.le_trans (Nat.le_add_right _ _) hcount)
    have hpos' : ∀ n ∈ left, 0 < n := fun n hn => hpos n (hleft.subset hn)
    rw [sendFrames, hsend]
    dsimp only
    rw [ih hsmall.2 hpos' (by omega)]
    rfl

/-! ### The gateway and the engine -/

/-- The frame that the engine makes of a gateway's frame. -/
def GatewayFrame.received (f : GatewayFrame) (type : FrameType) : WireFrame :=
  { type := type, session := f.session, request := f.request, rows := f.rows, payload := f.payload }

/-- What the gateway's codec keeps of a frame. -/
def WireFrame.forGateway (f : WireFrame) : GatewayFrame :=
  { typeID := .ofNat f.type.code, session := f.session, request := f.request, rows := f.rows,
    payload := f.payload }

lemma recvFrame_writeFrame {g : GatewayFrame} {type : FrameType}
    (htype : FrameType.ofCode g.typeID.toNat = some type) (hsmall : g.payload.length ≤ maxPayload)
    (h : stream.flatten = writeFrame g ++ rest) :
    ∃ stream', recvFrame stream = (.ok (g.received type), stream') ∧ stream'.flatten = rest := by
  have hwire : writeFrame g = wire (g.received type) := by
    rw [writeFrame, wire, headerOf, ← FrameType.code_of_ofCode htype]
    rfl
  rw [hwire] at h
  exact recvFrame_wire hsmall h

/-- `io.ReadFull` gives the next bytes of the stream, wherever its segments end. -/
lemma readFull_of_flatten (h : stream.flatten = bytes ++ rest) :
    ∃ stream', readFull bytes.length stream = (.ok bytes, stream') ∧ stream'.flatten = rest := by
  rcases Nat.eq_zero_or_pos bytes.length with hzero | hpos
  · obtain rfl := List.length_eq_zero_iff.mp hzero
    exact ⟨stream, rfl, h⟩
  · obtain ⟨htake, hdrop⟩ := readUpTo_spec hpos (Nat.le_refl bytes.length) stream
    rw [h, List.take_left] at htake
    rw [h, List.drop_left] at hdrop
    have hread : readUpTo bytes.length bytes.length bytes.length stream = (bytes, _) :=
      Prod.ext htake rfl
    refine ⟨_, ?_, hdrop⟩
    rw [readFull, hread]
    exact if_pos rfl

lemma readFrame_wire (hsmall : f.payload.length ≤ maxBodySize)
    (h : stream.flatten = wire f ++ rest) :
    ∃ stream', readFrame stream = (.ok f.forGateway, stream') ∧ stream'.flatten = rest := by
  have htype : f.type.code < 2 ^ 16 := Nat.lt_trans f.type.code_lt (by decide)
  have hsize : f.payload.length < 2 ^ 64 := Nat.lt_of_le_of_lt hsmall (by decide)
  obtain ⟨hmagic, hversion, hkind, hsession, hrequest, -, hrows, -, -, -, hpayload⟩ :=
    field_headerRow f.type.code f.session f.request f.position f.rows f.cols f.dtype 0
      f.payload.length htype hsize
  rw [← headerOf] at *
  rw [wire, List.append_assoc] at h
  obtain ⟨stream₁, hheader, h₁⟩ := readFull_of_flatten h
  obtain ⟨stream₂, hread, h₂⟩ := readFull_of_flatten h₁
  refine ⟨stream₂, ?_, h₂⟩
  rw [readFrame, ← length_headerOf f, hheader]
  dsimp only
  rw [hmagic, hversion, if_neg (by decide), hpayload, if_neg (Nat.not_lt.mpr hsmall), hread]
  dsimp only
  rw [hkind, hsession, hrequest, hrows, UInt64.ofNat_toNat, UInt64.ofNat_toNat, UInt32.ofNat_toNat]
  rfl

/-- Both ways through the header give back what went in; a run of sends is received as the same
frames and the end of the stream, however it is split; and the two programs read each other's
frames, the gateway's where their type is known and their payload not too long. -/
theorem framing_faithful :
    (∀ f : WireFrame, f.payload.length ≤ maxPayload →
      ∃ header, encodeHeader f = .ok header ∧ header.length = headerSize ∧
        decodeHeader header = .ok (frameHeader f, f.payload.length)) ∧
    (∀ (header payload : List UInt8) (f : WireFrame), header.length = headerSize →
      decodeHeader header = .ok (f, payload.length) →
      encodeHeader { f with payload := payload } = .ok header) ∧
    (∀ (frames : List WireFrame) (accepts : List Nat),
      (∀ f ∈ frames, f.payload.length ≤ maxPayload) → (∀ n ∈ accepts, 0 < n) →
      (frames.flatMap wire).length ≤ accepts.length → (sendFrames accepts frames).isSome) ∧
    (∀ (frames : List WireFrame) (accepts : List Nat) (sent : List UInt8) (stream : ByteStream),
      sendFrames accepts frames = some sent → stream.flatten = sent →
      recvFrames (frames.length + 1) stream =
        (frames, some "peer disconnected while receiving frame")) ∧
    (∀ (g : GatewayFrame) (type : FrameType) (rest : List UInt8) (stream : ByteStream),
      FrameType.ofCode g.typeID.toNat = some type → g.payload.length ≤ maxPayload →
      stream.flatten = writeFrame g ++ rest →
      ∃ stream', recvFrame stream = (.ok (g.received type), stream') ∧ stream'.flatten = rest) ∧
    ∀ (f : WireFrame) (accepts left : List Nat) (sent rest : List UInt8) (stream : ByteStream),
      sendFrame accepts f = (.ok (), sent, left) → f.payload.length ≤ maxBodySize →
      stream.flatten = sent ++ rest →
      ∃ stream', readFrame stream = (.ok f.forGateway, stream') ∧ stream'.flatten = rest := by
  refine ⟨?_, ?_, ?_, ?_, ?_, ?_⟩
  · intro f hsmall
    exact ⟨headerOf f, encodeHeader_eq hsmall, length_headerOf f, decodeHeader_headerOf hsmall⟩
  · intro header payload f hlength hdecode
    exact encodeHeader_of_decodeHeader hlength hdecode rfl
  · intro frames accepts hsmall hpos hcount
    rw [sendFrames_complete hsmall hpos hcount]
    rfl
  · intro frames accepts sent stream hsend hstream
    exact recvFrames_of_sendFrames hsend hstream
  · intro g type rest stream htype hsmall hstream
    exact recvFrame_writeFrame htype hsmall hstream
  · intro f accepts left sent rest stream hsend hsmall hstream
    obtain ⟨-, rfl⟩ := sendFrame_spec hsend
    exact readFrame_wire hsmall hstream

/-- A frame of a type that the engine does not know. -/
def strangeFrame : GatewayFrame := { typeID := 28, session := 7, request := 3 }

/-- `writeFrame` writes it and `recv_frame` refuses it. -/
theorem strangeFrame_refused :
    ¬ ∀ (g : GatewayFrame) (stream : ByteStream), stream.flatten = writeFrame g →
      ∃ type stream', type.code = g.typeID.toNat ∧
        recvFrame stream = (.ok (g.received type), stream') := by
  intro hall
  obtain ⟨type, stream', -, hread⟩ :=
    hall strangeFrame [writeFrame strangeFrame] (List.append_nil _)
  have herror : (recvFrame [writeFrame strangeFrame]).1 = .error "unknown frame type" := by
    decide +kernel
  rw [hread] at herror
  cases herror

end ProviderOwned.Wire
