import ProviderOwned.Stage.Execute
import ProviderOwned.Wire.Codec

/-!
# Guesses on the ring

The bytes of an activation frame, and the guesses of a speculative batch behind them. Nothing on the
wire says where the activations end: each stage finds it from the frame's rows, columns and number
format, which may be another one at every hop, as each stage sends in its own (`runMiddle`).

What numbers there are, and what llama.cpp makes of a batch of them, is left open.
-/

namespace ProviderOwned

/-- The number of a `DType`. -/
def DType.code : DType → UInt16
  | .none => 0
  | .f32le => 1
  | .f16le => 2
  | .fp8e4m3 => 3

namespace Wire

open Layout

/-! ### Sizes -/

/-- `activation_dtype`, of the number on the wire. -/
def activationDtype (dtype : UInt16) : Bool :=
  dtype = DType.f32le.code || dtype = DType.f16le.code || dtype = DType.fp8e4m3.code

/-- `activation_bytes`, in 64 bits. -/
def activationBytes (dtype : UInt16) (rows cols : UInt64) : UInt64 :=
  if dtype = DType.f32le.code then rows * cols * 4
  else if dtype = DType.f16le.code then rows * cols * 2
  else if dtype = DType.fp8e4m3.code then rows * (cols + 4)
  else 0

def guessBytes (f : WireFrame) : Nat :=
  if f.type ≠ .speculativeActivation ∨ f.rows < 2 then 0
  else if UInt64.ofNat f.payload.length =
      8 + activationBytes f.dtype f.rows.toUInt64 f.cols.toUInt64 +
      UInt64.ofNat ((f.rows.toNat - 1) * 4) then (f.rows.toNat - 1) * 4
  else 0

/-- The `get32` of each four bytes. -/
def words : List UInt8 → List UInt32
  | a :: b :: c :: d :: rest => .ofNat (get [a, b, c, d]) :: words rest
  | _ => []

def carriedGuesses (f : WireFrame) : List UInt32 :=
  words (f.payload.drop (f.payload.length - guessBytes f))

/-- The loop of `draft_round` that puts the guesses behind the activations. -/
def appendGuesses (f : WireFrame) (guesses : List UInt32) : WireFrame :=
  { f with payload := f.payload ++ guesses.flatMap fun guess => put 4 guess.toNat }

@[simp] lemma appendGuesses_type (f : WireFrame) (guesses : List UInt32) :
    (appendGuesses f guesses).type = f.type :=
  rfl

@[simp] lemma appendGuesses_position (f : WireFrame) (guesses : List UInt32) :
    (appendGuesses f guesses).position = f.position := rfl

@[simp] lemma appendGuesses_rows (f : WireFrame) (guesses : List UInt32) :
    (appendGuesses f guesses).rows = f.rows :=
  rfl

@[simp] lemma appendGuesses_cols (f : WireFrame) (guesses : List UInt32) :
    (appendGuesses f guesses).cols = f.cols :=
  rfl

@[simp] lemma appendGuesses_dtype (f : WireFrame) (guesses : List UInt32) :
    (appendGuesses f guesses).dtype = f.dtype := rfl

lemma appendGuesses_payload (f : WireFrame) (guesses : List UInt32) :
    (appendGuesses f guesses).payload = f.payload ++ guesses.flatMap fun guess =>
      put 4 guess.toNat := rfl

def rowBytes (dtype : UInt16) (cols : Nat) : Nat :=
  if dtype = DType.f32le.code then cols * 4
  else if dtype = DType.f16le.code then cols * 2
  else if dtype = DType.fp8e4m3.code then cols + 4
  else 0

/-- The payload is eight bytes and the frame's rows, and nothing else. -/
def Bare (f : WireFrame) : Prop :=
  f.payload.length = 8 + f.rows.toNat * rowBytes f.dtype f.cols.toNat

variable {f : WireFrame} {guesses : List UInt32}

lemma activationBytes_toNat (dtype : UInt16) (rows cols : UInt32)
    (h : rows.toNat * rowBytes dtype cols.toNat < 2 ^ 63) :
    (activationBytes dtype rows.toUInt64 cols.toUInt64).toNat =
      rows.toNat * rowBytes dtype cols.toNat := by
  rw [activationBytes]
  rw [rowBytes] at h ⊢
  have hcols : cols.toNat < 2 ^ 32 := cols.toNat_lt
  split_ifs at h ⊢
  · rw [← Nat.mul_assoc] at h ⊢
    rw [UInt64.toNat_mul, UInt64.toNat_mul, UInt32.toNat_toUInt64, UInt32.toNat_toUInt64]
    rw [Nat.mod_eq_of_lt (a := rows.toNat * cols.toNat) (by omega)]
    exact Nat.mod_eq_of_lt (by change rows.toNat * cols.toNat * 4 < _; omega)
  · rw [← Nat.mul_assoc] at h ⊢
    rw [UInt64.toNat_mul, UInt64.toNat_mul, UInt32.toNat_toUInt64, UInt32.toNat_toUInt64]
    rw [Nat.mod_eq_of_lt (a := rows.toNat * cols.toNat) (by omega)]
    exact Nat.mod_eq_of_lt (by change rows.toNat * cols.toNat * 2 < _; omega)
  · rw [UInt64.toNat_mul, UInt64.toNat_add, UInt32.toNat_toUInt64, UInt32.toNat_toUInt64]
    have hfour : (4 : UInt64).toNat = 4 := rfl
    rw [hfour, Nat.mod_eq_of_lt (a := cols.toNat + 4) (by omega)]
    exact Nat.mod_eq_of_lt (by omega)
  · rw [Nat.mul_zero]
    rfl

/-- Which sizes show that there are guesses. -/
lemma guess_size_iff (h : f.rows.toNat * rowBytes f.dtype f.cols.toNat < 2 ^ 63)
    (hsize : f.payload.length < 2 ^ 64) :
    UInt64.ofNat f.payload.length = 8 + activationBytes f.dtype f.rows.toUInt64 f.cols.toUInt64 +
        UInt64.ofNat ((f.rows.toNat - 1) * 4) ↔
      f.payload.length = 8 + f.rows.toNat * rowBytes f.dtype f.cols.toNat + (f.rows.toNat - 1) *
        4 := by
  have hrows : f.rows.toNat < 2 ^ 32 := f.rows.toNat_lt
  have height : (8 : UInt64).toNat = 8 := rfl
  rw [← UInt64.toNat_inj, UInt64.toNat_add, UInt64.toNat_add, activationBytes_toNat _ _ _ h, height,
    UInt64.toNat_ofNat', UInt64.toNat_ofNat', Nat.mod_eq_of_lt hsize]
  omega

/-! ### Frames with guesses and without -/

@[simp] lemma length_words (guesses : List UInt32) :
    (guesses.flatMap fun guess => put 4 guess.toNat).length = guesses.length * 4 := by
  induction guesses with
  | nil => rfl
  | cons guess guesses ih =>
    rw [List.flatMap_cons, List.length_append, ih, length_put, List.length_cons]
    omega

lemma words_put (guesses : List UInt32) : words (guesses.flatMap fun guess => put 4 guess.toNat) =
    guesses := by
  induction guesses with
  | nil => rfl
  | cons guess guesses ih =>
    have hbytes : put 4 guess.toNat =
        [.ofNat (guess.toNat >>> 8 >>> 8 >>> 8), .ofNat (guess.toNat >>> 8 >>> 8),
        .ofNat (guess.toNat >>> 8), .ofNat guess.toNat] := rfl
    have hvalue : get (put 4 guess.toNat) = guess.toNat := get_put guess.toNat_lt
    rw [hbytes] at hvalue
    rw [List.flatMap_cons, hbytes, List.cons_append, List.cons_append, List.cons_append,
      List.cons_append, List.nil_append, words, hvalue, ih, UInt32.ofNat_toNat]

/-- A frame that is sent without guesses has none. -/
lemma guessBytes_of_bare (hbare : f.type = .speculativeActivation → Bare f)
    (hsize : f.payload.length ≤ maxPayload) :
    guessBytes f = 0 := by
  rw [guessBytes]
  split_ifs with hplain htail
  · rfl
  · rw [not_or, not_not, UInt32.not_lt] at hplain
    have htwo : 2 ≤ f.rows.toNat := UInt32.le_iff_toNat_le.mp hplain.2
    have hpayload : f.payload.length = 8 + _ := hbare hplain.1
    rw [maxPayload] at hsize
    rw [guess_size_iff (by omega) (by omega)] at htail
    omega
  · rfl

/-- What holds of the frame of a batch with `n` guesses before they are appended, at every hop. -/
structure Batch (n : Nat) (f : WireFrame) : Prop where
  type : f.type = if n = 0 then .activation else .speculativeActivation
  rows : f.rows.toNat = n + 1
  width : n < maxSpeculativeWidth
  bare : Bare f

lemma rowBytes_le (dtype : UInt16) (cols : Nat) : rowBytes dtype cols ≤ cols * 4 + 4 := by
  rw [rowBytes]
  split_ifs <;> omega

/-- A batch of the width the stages take is far from 64 bits. -/
lemma Batch.small {n : Nat} (h : Batch n f) :
    f.rows.toNat * rowBytes f.dtype f.cols.toNat < 2 ^ 62 := by
  have hcols : f.cols.toNat < 2 ^ 32 := f.cols.toNat_lt
  have hwidth := h.width
  rw [maxSpeculativeWidth] at hwidth
  have hrow := rowBytes_le f.dtype f.cols.toNat
  have hrows := h.rows
  calc f.rows.toNat * rowBytes f.dtype f.cols.toNat ≤ 32 * (2 ^ 32 * 4 + 4) :=
        Nat.mul_le_mul (by omega) (by omega)
    _ < 2 ^ 62 := by decide

lemma Batch.guessBytes_eq {n : Nat} (h : Batch n f) : guessBytes f = 0 := by
  have hsmall := h.small
  have hbare := h.bare
  have hrows := h.rows
  rw [Bare] at hbare
  rw [guessBytes]
  split_ifs with hplain htail
  · rfl
  · rw [not_or, not_not, UInt32.not_lt] at hplain
    have htwo : 2 ≤ f.rows.toNat := UInt32.le_iff_toNat_le.mp hplain.2
    rw [guess_size_iff (by omega) (by omega)] at htail
    omega
  · rfl

lemma Batch.guessBytes_append (h : Batch guesses.length f) :
    guessBytes (appendGuesses f guesses) = guesses.length * 4 := by
  have hsmall := h.small
  have hbare := h.bare
  have hrows := h.rows
  have hwidth := h.width
  have htype := h.type
  rw [Bare] at hbare
  rw [maxSpeculativeWidth] at hwidth
  have hlength : (appendGuesses f guesses).payload.length =
      f.payload.length + guesses.length * 4 := by
    rw [appendGuesses, List.length_append, length_words]
  have hlarge : f.rows.toNat * rowBytes f.dtype f.cols.toNat < 2 ^ 63 := by omega
  have hiff := guess_size_iff (f := appendGuesses f guesses) hlarge (by omega)
  rw [hlength] at hiff
  rw [guessBytes, hlength]
  split_ifs with hplain htail
  · rcases hplain with hplain | hplain
    · by_cases hnone : guesses.length = 0
      · omega
      · rw [if_neg hnone] at htype
        exact absurd htype hplain
    · have htwo : f.rows.toNat < 2 := UInt32.lt_iff_toNat_lt.mp hplain
      omega
  · change (f.rows.toNat - 1) * 4 = guesses.length * 4
    omega
  · refine absurd (hiff.mpr ?_) htail
    change f.payload.length + guesses.length * 4 =
      8 + f.rows.toNat * rowBytes f.dtype f.cols.toNat + (f.rows.toNat - 1) * 4
    omega

/-- The guesses are read back. -/
lemma Batch.carriedGuesses_append (h : Batch guesses.length f) :
    carriedGuesses (appendGuesses f guesses) = guesses := by
  rw [carriedGuesses, h.guessBytes_append, appendGuesses]
  dsimp only
  rw [List.length_append, length_words, Nat.add_sub_cancel, List.drop_left, words_put]

/-! ### The payload as the stages have it -/

/-- The format of a number, `none` for any that is none. -/
def dtypeOf (code : UInt16) : DType :=
  if code = DType.f32le.code then .f32le
  else if code = DType.f16le.code then .f16le
  else if code = DType.fp8e4m3.code then .fp8e4m3
  else .none

/-- An activation frame decoded: its rows, and what comes behind them as guesses. -/
def decoded {H : Type*} (rows : List H) (f : WireFrame) : Frame H :=
  { type := f.type, session := f.session.toNat, request := f.request.toNat,
    position := f.position.toNat
    rows := f.rows.toNat, cols := f.cols.toNat, dtype := dtypeOf f.dtype
    payload := .hidden rows
      ((words (f.payload.drop (8 + f.rows.toNat * rowBytes f.dtype f.cols.toNat))).map
        UInt32.toNat) }

lemma length_words_of {bytes : List UInt8} {n : Nat} (h : bytes.length = n * 4) :
    (words bytes).length = n := by
  induction n generalizing bytes with
  | zero =>
    rw [Nat.zero_mul, List.length_eq_zero_iff] at h
    rw [h]
    rfl
  | succ n ih =>
    rcases bytes with _ | ⟨a, _ | ⟨b, _ | ⟨c, _ | ⟨d, rest⟩⟩⟩⟩
    case cons.cons.cons.cons =>
      simp only [List.length_cons] at h
      rw [words, List.length_cons, ih (by omega)]
    all_goals
      simp only [List.length_cons, List.length_nil] at h
      omega

/-- The size shows the guesses that the decoded frame has. -/
lemma guessCount_decoded {H : Type*} (rows : List H) {n : Nat}
    (htail : (words (f.payload.drop (8 + f.rows.toNat * rowBytes f.dtype f.cols.toNat))).length = n)
    (hlength : f.payload.length = 8 + f.rows.toNat * rowBytes f.dtype f.cols.toNat + n * 4)
    (hsize : f.payload.length ≤ maxPayload) :
    guessCount (decoded rows f) = 0 ∧ guessBytes f = 0 ∨ guessCount (decoded rows f) = n ∧
    guessBytes f = n * 4 := by
  have hcount : guessCount (decoded rows f) =
      if f.type = .speculativeActivation ∧ 2 ≤ f.rows.toNat ∧
        ((words (f.payload.drop (8 + f.rows.toNat * rowBytes f.dtype f.cols.toNat))).map
          UInt32.toNat).length =
          f.rows.toNat - 1
      then ((words (f.payload.drop (8 + f.rows.toNat * rowBytes f.dtype f.cols.toNat))).map
        UInt32.toNat).length
      else 0 := rfl
  rw [maxPayload] at hsize
  have hiff := guess_size_iff (f := f) (by omega) (by omega)
  rw [hcount, guessBytes, List.length_map, htail]
  by_cases hplain : f.type ≠ .speculativeActivation ∨ f.rows < 2
  · left
    refine ⟨if_neg fun h => ?_, if_pos hplain⟩
    rcases hplain with hplain | hplain
    · exact hplain h.1
    · exact absurd (UInt32.lt_iff_toNat_lt.mp hplain) (Nat.not_lt.mpr h.2.1)
  · rw [if_neg hplain]
    rw [not_or, not_not, UInt32.not_lt] at hplain
    have htwo : 2 ≤ f.rows.toNat := UInt32.le_iff_toNat_le.mp hplain.2
    by_cases hn : n = f.rows.toNat - 1
    · right
      rw [if_pos ⟨hplain.1, htwo, hn⟩, if_pos (hiff.mpr (by omega))]
      exact ⟨rfl, by omega⟩
    · left
      refine ⟨if_neg fun h => hn h.2.2, if_neg fun h => hn ?_⟩
      have hequal := hiff.mp h
      omega

/-- The bytes carry the guesses that the decoded frame carries. -/
theorem carriedGuesses_decoded {H : Type*} (rows : List H) {n : Nat}
    (hlength : f.payload.length = 8 + f.rows.toNat * rowBytes f.dtype f.cols.toNat + n * 4)
    (hsize : f.payload.length ≤ maxPayload) :
    ProviderOwned.carriedGuesses (decoded rows f) = (carriedGuesses f).map UInt32.toNat := by
  have htail : (words (f.payload.drop (8 + f.rows.toNat * rowBytes f.dtype f.cols.toNat))).length =
      n := by
    refine length_words_of ?_
    rw [List.length_drop, hlength]
    omega
  have hcarried : ProviderOwned.carriedGuesses (decoded rows f) =
      ((words (f.payload.drop (8 + f.rows.toNat * rowBytes f.dtype f.cols.toNat))).map
        UInt32.toNat).drop
        (((words (f.payload.drop (8 + f.rows.toNat * rowBytes f.dtype f.cols.toNat))).map
          UInt32.toNat).length -
          guessCount (decoded rows f)) := rfl
  rw [hcarried, carriedGuesses, List.length_map, htail]
  rcases guessCount_decoded rows htail hlength hsize with ⟨hcount, hbytes⟩ | ⟨hcount, hbytes⟩
  · rw [hcount, hbytes, Nat.sub_zero, Nat.sub_zero, List.drop_length, List.drop_of_length_le]
    · rfl
    · rw [List.length_map, htail]
  · rw [hcount, hbytes, Nat.sub_self, List.drop_zero, hlength, Nat.add_sub_cancel]

/-! ### The numbers of a row -/

/-- The numbers llama.cpp computes with, and what the formats of the wire make of them: the bits of
a number in 32 and 16 bits, and the scale of a row of eight-bit codes. -/
structure Numbers (F : Type*) where
  single : F → UInt32
  ofSingle : UInt32 → F
  half : F → UInt16
  ofHalf : UInt16 → F
  scale : List F → UInt32
  toCode : UInt32 → F → UInt8
  ofCode : UInt32 → UInt8 → F

structure Format where
  dtype : DType
  sent : dtype ≠ .none

variable {F : Type*} (x : Numbers F)

/-- One row as `put_hidden` writes it; what is copied from memory has its lowest byte first. -/
def packRow (wire : Format) (row : List F) : List UInt8 :=
  match wire.dtype with
  | .f16le => row.flatMap fun value => (put 2 (x.half value).toNat).reverse
  | .fp8e4m3 => put 4 (x.scale row).toNat ++ row.map (x.toCode (x.scale row))
  | _ => row.flatMap fun value => (put 4 (x.single value).toNat).reverse

/-- `put_hidden`, with the time of the computation in the eight bytes it keeps free; `states` are
the rows as `llama_get_embeddings_ith` gives them. -/
def putHidden (wire : Format) (rows width : Nat) (states : Nat → Nat → F) (compute : UInt64) :
    List UInt8 :=
  put 8 compute.toNat ++
    (List.range rows).flatMap fun index => packRow x wire ((List.range width).map (states index))

/-- The number whose bytes are at `offset`, the lowest first. -/
def low (bytes : List UInt8) (offset width : Nat) : Nat :=
  get ((bytes.drop offset).take width).reverse

/-- `unpack_fp8_row`. -/
def unpackRow (bytes : List UInt8) (offset cols : Nat) : List F :=
  (List.range cols).map fun index =>
    x.ofCode (.ofNat (field bytes offset 4)) (.ofNat (field bytes (offset + 4 + index) 1))

def getHidden (f : WireFrame) (values : Nat) : List F :=
  if f.dtype = DType.fp8e4m3.code then
    (List.range f.rows.toNat).flatMap fun row =>
      unpackRow x f.payload (8 + row * rowBytes f.dtype f.cols.toNat) f.cols.toNat
  else if f.dtype = DType.f16le.code then
    (List.range values).map fun index => x.ofHalf (.ofNat (low f.payload (8 + index * 2) 2))
  else
    (List.range values).map fun index => x.ofSingle (.ofNat (low f.payload (8 + index * 4) 4))

lemma length_packRow (wire : Format) (row : List F) :
    (packRow x wire row).length = rowBytes wire.dtype.code row.length := by
  have hflat : ∀ (width : Nat) (value : F → Nat),
      (row.flatMap fun number => (put width (value number)).reverse).length =
          row.length * width := by
    intro width value
    induction row with
    | nil => rw [List.length_nil, Nat.zero_mul]; rfl
    | cons number row ih =>
      rw [List.flatMap_cons, List.length_append, ih, List.length_reverse, length_put,
        List.length_cons, Nat.succ_mul, Nat.add_comm]
  rw [packRow, rowBytes]
  cases hdtype : wire.dtype with
  | none => exact absurd hdtype wire.sent
  | f32le => exact hflat 4 _
  | f16le => exact hflat 2 _
  | fp8e4m3 =>
    rw [List.length_append, length_put, List.length_map, Nat.add_comm]
    rfl

lemma length_putHidden (wire : Format) (rows width : Nat) (states : Nat → Nat → F)
    (compute : UInt64) :
    (putHidden x wire rows width states compute).length =
      8 + rows * rowBytes wire.dtype.code width := by
  rw [putHidden, List.length_append, length_put]
  congr 1
  induction rows with
  | zero => rw [Nat.zero_mul]; rfl
  | succ rows ih =>
    rw [List.range_succ, List.flatMap_append, List.length_append, ih, List.flatMap_singleton,
      length_packRow, List.length_map, List.length_range, Nat.succ_mul]

/-- Reading inside the first bytes does not see what comes behind them. -/
lemma take_drop_append {bytes : List UInt8} (rest : List UInt8) {offset width : Nat}
    (h : offset + width ≤ bytes.length) :
    ((bytes ++ rest).drop offset).take width = (bytes.drop offset).take width := by
  rw [List.drop_append_of_le_length (by omega), List.take_append_of_le_length]
  rw [List.length_drop]
  omega

/-- A stage reads the activations alone. -/
lemma getHidden_append (hbare : Bare f) (hdtype : activationDtype f.dtype) (guesses : List UInt32) :
    getHidden x (appendGuesses f guesses) (f.rows.toNat * f.cols.toNat) =
      getHidden x f (f.rows.toNat * f.cols.toNat) := by
  rw [Bare, rowBytes] at hbare
  rw [getHidden, getHidden, appendGuesses_dtype, appendGuesses_rows, appendGuesses_cols,
    appendGuesses_payload]
  by_cases hfp8 : f.dtype = DType.fp8e4m3.code
  · have hfirst : ¬ f.dtype = DType.f32le.code := by rw [hfp8]; decide
    have hsecond : ¬ f.dtype = DType.f16le.code := by rw [hfp8]; decide
    rw [if_neg hfirst, if_neg hsecond, if_pos hfp8] at hbare
    rw [if_pos hfp8, if_pos hfp8, rowBytes, if_neg hfirst, if_neg hsecond, if_pos hfp8]
    refine List.flatMap_congr fun row hrow => ?_
    have hlast : (row + 1) * (f.cols.toNat + 4) ≤ f.rows.toNat * (f.cols.toNat + 4) :=
      Nat.mul_le_mul_right _ (List.mem_range.mp hrow)
    rw [Nat.succ_mul] at hlast
    rw [unpackRow, unpackRow]
    refine List.map_congr_left fun index hindex => ?_
    have hindex := List.mem_range.mp hindex
    rw [field, field, take_drop_append _ (by omega), take_drop_append _ (by omega)]
    rfl
  rw [if_neg hfp8, if_neg hfp8]
  by_cases hhalf : f.dtype = DType.f16le.code
  · have hfirst : ¬ f.dtype = DType.f32le.code := by rw [hhalf]; decide
    rw [if_neg hfirst, if_pos hhalf, ← Nat.mul_assoc] at hbare
    rw [if_pos hhalf, if_pos hhalf]
    refine List.map_congr_left fun index hindex => ?_
    have hindex := List.mem_range.mp hindex
    rw [low, low, take_drop_append _ (by omega)]
  · have hsingle : f.dtype = DType.f32le.code := by
      simpa [activationDtype, hfp8, hhalf] using hdtype
    rw [if_pos hsingle, ← Nat.mul_assoc] at hbare
    rw [if_neg hhalf, if_neg hhalf]
    refine List.map_congr_left fun index hindex => ?_
    have hindex := List.mem_range.mp hindex
    rw [low, low, take_drop_append _ (by omega)]

/-! ### The stages -/

/-- A stage before the ring's last one, as it is when a frame comes: where the session is, how much
room it has left, and what llama.cpp makes of a batch. -/
structure Hop (F : Type*) where
  hidden : UInt32
  wire : Format
  position : UInt32
  room : Nat
  hasPrompt : Bool
  decode : List F → Except String (Nat → Nat → F)
  compute : UInt64

/-- `run_middle`, as far as the frame goes. -/
def runMiddle (s : Hop F) (f : WireFrame) : Except String WireFrame :=
  if !f.type.isActivation ∨ !activationDtype f.dtype ∨ f.rows = 0 ∨ f.cols ≠ s.hidden ∨
    f.position ≠ s.position then
    .error "bad middle-stage activation metadata"
  else if f.type = .commitActivation ∧ !s.hasPrompt then .error "commit received before activation"
  else if (maxPayload - 8) / 4 < f.rows.toNat * f.cols.toNat ∨
      UInt64.ofNat f.payload.length ≠
        8 + activationBytes f.dtype f.rows.toUInt64 f.cols.toUInt64 + UInt64.ofNat (guessBytes f) ∨
      s.room < f.rows.toNat then .error "activation payload/shape mismatch"
  else match s.decode (getHidden x f (f.rows.toNat * f.cols.toNat)) with
    | .error e => .error e
    | .ok states => .ok
      { frameHeader f with
        dtype := s.wire.dtype.code
        payload := putHidden x s.wire f.rows.toNat s.hidden.toNat states s.compute ++
          f.payload.drop (f.payload.length - guessBytes f) }

def runMiddles : List (Hop F) → WireFrame → Except String WireFrame
  | [], f => .ok f
  | s :: rest, f =>
    match runMiddle x s f with
    | .error e => .error e
    | .ok out => runMiddles rest out

/-- What `run_first` sends on for a `token_frame` with this many tokens. -/
def firstFrame (s : Hop F) (like : WireFrame) (tokens : Nat) (states : Nat → Nat → F) : WireFrame :=
  { type := if 1 < tokens then .speculativeActivation else .activation
    session := like.session, request := like.request, position := s.position
    rows := .ofNat tokens, cols := s.hidden, dtype := s.wire.dtype.code
    payload := putHidden x s.wire tokens s.hidden.toNat states s.compute }

/-- `draft_round`, with the guesses it got and the rows llama.cpp computed for the token and
them. -/
def draftRound (s : Hop F) (like : WireFrame) (guesses : List UInt32) (states : Nat → Nat → F) :
    WireFrame :=
  let output := firstFrame x s like (guesses.length + 1) states
  if output.type = .speculativeActivation then appendGuesses output guesses else output

lemma batch_firstFrame (s : Hop F) (like : WireFrame) {n : Nat} (hwidth : n < maxSpeculativeWidth)
    (states : Nat → Nat → F) : Batch n (firstFrame x s like (n + 1) states) := by
  have hrows : (UInt32.ofNat (n + 1)).toNat = n + 1 := by
    rw [maxSpeculativeWidth] at hwidth
    rw [UInt32.toNat_ofNat']
    exact Nat.mod_eq_of_lt (by omega)
  refine ⟨?_, hrows, hwidth, ?_⟩
  · rw [firstFrame]
    by_cases hnone : n = 0
    · rw [if_pos hnone, hnone]
      rfl
    · rw [if_neg hnone]
      exact if_pos (by omega)
  · rw [Bare, firstFrame, length_putHidden, hrows]

lemma draftRound_eq (s : Hop F) (like : WireFrame) (guesses : List UInt32)
    (states : Nat → Nat → F) :
    draftRound x s like guesses states =
      appendGuesses (firstFrame x s like (guesses.length + 1) states) guesses := by
  rw [draftRound]
  split_ifs with htype
  · rfl
  · cases guesses with
    | nil =>
      rw [appendGuesses, List.flatMap_nil, List.append_nil]
    | cons guess guesses =>
      have hmany : 1 < (guess :: guesses).length + 1 := by
        rw [List.length_cons]
        omega
      rw [firstFrame, if_pos hmany] at htype
      exact absurd rfl htype

/-- With or without its guesses, a batch has the size that `run_middle` expects. -/
lemma Batch.size (h : Batch guesses.length f) :
    UInt64.ofNat f.payload.length =
        8 + activationBytes f.dtype f.rows.toUInt64 f.cols.toUInt64 + UInt64.ofNat (guessBytes f) ∧
      UInt64.ofNat (appendGuesses f guesses).payload.length =
        8 + activationBytes f.dtype f.rows.toUInt64 f.cols.toUInt64 +
          UInt64.ofNat (guessBytes (appendGuesses f guesses)) := by
  have hbare := h.bare
  have hsmall := h.small
  have hact := activationBytes_toNat f.dtype f.rows f.cols (by omega)
  have height : (8 : UInt64).toNat = 8 := rfl
  rw [Bare] at hbare
  rw [h.guessBytes_eq, h.guessBytes_append, appendGuesses_payload, List.length_append, length_words,
    hbare]
  rw [← UInt64.toNat_inj, ← UInt64.toNat_inj]
  simp only [UInt64.toNat_add, UInt64.toNat_ofNat', hact, height]
  omega

lemma Batch.drop (h : Batch guesses.length f) :
    f.payload.drop (f.payload.length - guessBytes f) = [] ∧
      (appendGuesses f guesses).payload.drop
          ((appendGuesses f guesses).payload.length - guessBytes (appendGuesses f guesses)) =
        guesses.flatMap fun guess => put 4 guess.toNat := by
  rw [h.guessBytes_eq, h.guessBytes_append, appendGuesses_payload, List.length_append, length_words,
    Nat.add_sub_cancel, List.drop_left, Nat.sub_zero, List.drop_length]
  exact ⟨rfl, rfl⟩

/-- A middle stage does with a batch what it does without the guesses, and sends them on behind its
own rows. -/
lemma runMiddle_appendGuesses (s : Hop F) (h : Batch guesses.length f) :
    runMiddle x s (appendGuesses f guesses) = (runMiddle x s f).map (appendGuesses · guesses) := by
  obtain ⟨hsize, hsize'⟩ := h.size
  obtain ⟨hdrop, hdrop'⟩ := h.drop
  rw [runMiddle, runMiddle, appendGuesses_type, appendGuesses_dtype, appendGuesses_rows,
    appendGuesses_cols, appendGuesses_position]
  by_cases hmeta : !f.type.isActivation ∨ !activationDtype f.dtype ∨ f.rows = 0 ∨
      f.cols ≠ s.hidden ∨
      f.position ≠ s.position
  · rw [if_pos hmeta, if_pos hmeta]
    rfl
  rw [if_neg hmeta, if_neg hmeta]
  by_cases hcommit : f.type = .commitActivation ∧ !s.hasPrompt
  · rw [if_pos hcommit, if_pos hcommit]
    rfl
  rw [if_neg hcommit, if_neg hcommit, hsize, hsize']
  by_cases hlarge : (maxPayload - 8) / 4 < f.rows.toNat * f.cols.toNat ∨ s.room < f.rows.toNat
  · rw [if_pos (hlarge.imp_right .inr), if_pos (hlarge.imp_right .inr)]
    rfl
  · rw [not_or] at hlarge
    have hnot : ∀ size : UInt64, ¬ ((maxPayload - 8) / 4 < f.rows.toNat * f.cols.toNat ∨
        size ≠ size ∨
        s.room < f.rows.toNat) := by
      intro size hor
      rcases hor with hor | hor | hor
      · exact hlarge.1 hor
      · exact hor rfl
      · exact hlarge.2 hor
    have hdtype : activationDtype f.dtype := by
      rw [not_or, not_or] at hmeta
      simpa using hmeta.2.1
    rw [if_neg (hnot _), if_neg (hnot _), getHidden_append x h.bare hdtype]
    cases s.decode (getHidden x f (f.rows.toNat * f.cols.toNat)) with
    | error e => rfl
    | ok states =>
      dsimp only
      rw [hdrop, hdrop', List.append_nil]
      rfl

lemma Batch.runMiddle {n : Nat} (h : Batch n f) {s : Hop F} {out : WireFrame}
    (hout : runMiddle x s f = .ok out) :
    Batch n out := by
  have hdrop : f.payload.drop (f.payload.length - guessBytes f) = [] := by
    rw [h.guessBytes_eq, Nat.sub_zero, List.drop_length]
  rw [Wire.runMiddle] at hout
  split_ifs at hout with hmeta hcommit hlarge
  cases hdecode : s.decode (getHidden x f (f.rows.toNat * f.cols.toNat)) with
  | error e =>
    rw [hdecode] at hout
    cases hout
  | ok states =>
    rw [hdecode] at hout
    cases hout
    rw [not_or, not_or, not_or, not_or] at hmeta
    refine ⟨h.type, h.rows, h.width, ?_⟩
    rw [Bare, hdrop, List.append_nil, length_putHidden, ← not_not.mp hmeta.2.2.2.1]
    rfl

lemma runMiddles_appendGuesses (middles : List (Hop F)) (h : Batch guesses.length f) :
    runMiddles x middles (appendGuesses f guesses) =
      (runMiddles x middles f).map (appendGuesses · guesses) ∧
      ∀ out, runMiddles x middles f = .ok out → Batch guesses.length out := by
  induction middles generalizing f with
  | nil =>
    refine ⟨rfl, fun out hout => ?_⟩
    cases hout
    exact h
  | cons s middles ih =>
    rw [runMiddles, runMiddles, runMiddle_appendGuesses x s h]
    cases hrun : runMiddle x s f with
    | error e =>
      refine ⟨rfl, fun out hout => ?_⟩
      cases hout
    | ok out => exact ih (h.runMiddle x hrun)

/-- The guesses that `draft_round` appends ride the ring unchanged. Every middle stage answers as it
would without them, with the guesses behind what it sends, so that the last stage finds them as they
were; without them it finds none, as in no other frame that is sent without guesses. -/
theorem guesses_ride (head : Hop F) (like : WireFrame) (guesses : List UInt32)
    (hwidth : guesses.length < maxSpeculativeWidth) (states : Nat → Nat → F)
    (middles : List (Hop F)) :
    runMiddles x middles (draftRound x head like guesses states) =
        (runMiddles x middles (firstFrame x head like (guesses.length + 1) states)).map
          (appendGuesses · guesses) ∧
      (∀ out, runMiddles x middles (draftRound x head like guesses states) = .ok out →
        carriedGuesses out = guesses) ∧
      (∀ out, runMiddles x middles (firstFrame x head like (guesses.length + 1) states) = .ok out →
        carriedGuesses out = []) ∧
      ∀ f : WireFrame, (f.type = .speculativeActivation → Bare f) → f.payload.length ≤ maxPayload →
        carriedGuesses f = [] := by
  obtain ⟨hrun, hbatch⟩ :=
    runMiddles_appendGuesses x middles (batch_firstFrame x head like hwidth states)
  have hnone : ∀ f : WireFrame, guessBytes f = 0 → carriedGuesses f = [] := by
    intro f hf
    rw [carriedGuesses, hf, Nat.sub_zero, List.drop_length]
    rfl
  rw [draftRound_eq]
  refine ⟨hrun, fun out hout => ?_, fun out hout => hnone out (hbatch out hout).guessBytes_eq,
    fun f hbare hsize => hnone f (guessBytes_of_bare hbare hsize)⟩
  rw [hrun] at hout
  cases hplain : runMiddles x middles (firstFrame x head like (guesses.length + 1) states) with
  | error e =>
    rw [hplain] at hout
    cases hout
  | ok plain =>
    rw [hplain] at hout
    cases hout
    exact (hbatch plain hplain).carriedGuesses_append

def bits : Numbers UInt32 where
  single := id
  ofSingle := id
  half := UInt32.toUInt16
  ofHalf := UInt16.toUInt32
  scale := fun _ => 1
  toCode := fun _ value => value.toUInt8
  ofCode := fun _ code => code.toUInt32

/-- A stage of one column that computes what it is given. -/
def echo (wire : Format) : Hop UInt32 where
  hidden := 1
  wire := wire
  position := 3
  room := 8
  hasPrompt := true
  decode := fun batch => .ok fun row _ => batch.getD row 0
  compute := 0

/-- What arrives behind an 8-bit and a 32-bit stage of a round with two guesses at a 16-bit head. -/
def arrived : Except String WireFrame :=
  runMiddles bits [echo ⟨.fp8e4m3, by decide⟩, echo ⟨.f32le, by decide⟩]
    (draftRound bits (echo ⟨.f16le, by decide⟩) { session := 1, request := 1 } [5, 6]
      fun row _ => .ofNat row)

theorem guesses_ride_two : arrived.toBool = true ∧ ∀ out, arrived = .ok out →
    carriedGuesses out = [5, 6] :=
  ⟨by decide +kernel,
    (guesses_ride bits (echo ⟨.f16le, by decide⟩) { session := 1, request := 1 } [5, 6] (by decide)
    (fun row _ => .ofNat row) [echo ⟨.fp8e4m3, by decide⟩, echo ⟨.f32le, by decide⟩]).2.1⟩

end Wire

end ProviderOwned
