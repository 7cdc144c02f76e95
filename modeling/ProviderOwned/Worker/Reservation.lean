import Mathlib.Tactic.Ring
import ProviderOwned.Lib.Text
import ProviderOwned.Planner.Model
import ProviderOwned.Stage.CatchUp
import ProviderOwned.Stage.FrameSize
import ProviderOwned.Worker.Lease

/-!
# Reservations and the frames they lead to

`reservation_problem` of a worker that serves: which reservations it takes. One of its checks is
about the frames that the reserved stage will send: as a route's first stage it fixes the rows of
every frame, and the largest one has to fit on the wire. The check counts the rows as numbers of
four bytes. It leaves out the guesses behind the rows of a round, and the scale that a row of
eight-bit codes has (`framesFit_iff`).
-/

namespace ProviderOwned

open Planner Text

/-- What `reservation_problem` reads of a `ServeContext`: the models it has, its limits, its memory
and its chunks. A model without hidden states is not read in (`fill_model_index`), and the context
is an `int`. -/
structure ServeContext where
  catalog : List Char → Option ModelIndex
  maxContext : Nat
  maxSessions : Nat
  offeredVramMib : UInt64
  holdsLayers : Bool := false
  gpuFreeMib : UInt64 := 0
  prefillChunk : Nat := 0
  hidden_ne_zero : ∀ {sha index}, catalog sha = some index → index.hidden ≠ 0
  maxContext_lt : maxContext < 2 ^ 31

namespace ServeContext

def availableMib (x : ServeContext) : UInt64 :=
  if x.holdsLayers then x.offeredVramMib
  else if x.gpuFreeMib = 0 then x.offeredVramMib
  else min x.offeredVramMib x.gpuFreeMib

def checkedRows (x : ServeContext) (r : StageRequest) : Nat :=
  if x.prefillChunk = 0 then r.context else min r.context (max x.prefillChunk maxSpeculativeWidth)

/-- Whether the worker is asked for all layers of the model. -/
def wholeModel (r : StageRequest) (index : ModelIndex) : Bool :=
  r.beginLayer = 0 && r.endLayer = index.layers.toInt32.toInt

def reservationProblem (x : ServeContext) (r : StageRequest) : String :=
  match x.catalog (lowercase r.modelSha256.toList) with
  | none => "unknown_model"
  | some index =>
    if index.layers.toInt32.toInt < r.endLayer then "invalid_range"
    else if r.leaseMs = 0 then "invalid_lease"
    else if x.maxContext < r.context ∨ x.maxSessions < r.sessions then "limits_exceeded"
    else if !wholeModel r index ∧ r.beginLayer = 0 ∧
        UInt64.ofNat (maxPayload - 8) <
          UInt64.ofNat (x.checkedRows r) * index.hidden.toUInt64 * 4 then
      "context_too_large"
    else if (stageFits index x.availableMib r.beginLayer.toNat r.endLayer.toNat (.ofNat r.context)
        (.ofNat r.sessions)).isNone then "insufficient_memory"
    else ""

/-- The worker takes a reservation of the first layers of a model, but not of all. -/
structure Accepts (x : ServeContext) (r : StageRequest) (index : ModelIndex) : Prop where
  known : x.catalog (lowercase r.modelSha256.toList) = some index
  accepted : x.reservationProblem r = ""
  first : r.beginLayer = 0
  split : wholeModel r index = false

variable {x : ServeContext} {r : StageRequest} {index : ModelIndex}

/-- What the checks of an accepted reservation say. -/
lemma Accepts.checks (h : x.Accepts r index) :
    r.context ≤ x.maxContext ∧
      UInt64.ofNat (x.checkedRows r) * index.hidden.toUInt64 * 4 ≤ UInt64.ofNat (maxPayload - 8) ∧
      (stageFits index x.availableMib r.beginLayer.toNat r.endLayer.toNat (.ofNat r.context)
        (.ofNat r.sessions)).isSome := by
  have haccepted := h.accepted
  rw [reservationProblem, h.known] at haccepted
  dsimp only at haccepted
  split_ifs at haccepted with hrange hlease hlimits hlarge hmemory
  iterate 5 exact absurd haccepted (by decide)
  rw [not_or] at hlimits
  refine ⟨Nat.not_lt.mp hlimits.1, ?_, ?_⟩
  · rw [h.split] at hlarge
    exact UInt64.not_lt.mp fun hlt => hlarge ⟨rfl, h.first, hlt⟩
  · rw [Option.isNone_iff_eq_none] at hmemory
    exact Option.isSome_iff_ne_none.mpr hmemory

lemma Accepts.sessions_pos (h : x.Accepts r index) : 0 < r.sessions := by
  obtain ⟨a, ha⟩ := Option.isSome_iff_exists.mp h.checks.2.2
  obtain ⟨-, -, hkv, -⟩ := stageFits_eq_some_iff.mp ha
  refine Nat.pos_of_ne_zero fun hzero => hkv ?_
  have hpositions : allocatedPositions (.ofNat r.context) (.ofNat r.sessions) = 0 := by
    rw [hzero]
    exact if_pos (.inr rfl)
  rw [kvBytes]
  split_ifs
  · rfl
  · dsimp only
    rw [hpositions]
    exact if_pos (.inr rfl)

/-- With a number of columns that is an `int` the check is made without a wrap. -/
lemma Accepts.bound (h : x.Accepts r index) (hint : index.hidden.toNat < 2 ^ 31) :
    x.checkedRows r * index.hidden.toNat * 4 ≤ maxPayload - 8 := by
  obtain ⟨hcontext, hbytes, -⟩ := h.checks
  have hmax := x.maxContext_lt
  have hrows : x.checkedRows r ≤ r.context := by
    rw [checkedRows]
    split_ifs
    · exact le_rfl
    · exact Nat.min_le_left _ _
  have hproduct : x.checkedRows r * index.hidden.toNat ≤ (2 ^ 31 - 1) * (2 ^ 31 - 1) :=
    Nat.mul_le_mul (by omega) (by omega)
  have hfour : (4 : UInt64).toNat = 4 := rfl
  have hlimit : (UInt64.ofNat (maxPayload - 8)).toNat = maxPayload - 8 := rfl
  rw [UInt64.le_iff_toNat_le, UInt64.toNat_mul, UInt64.toNat_mul, UInt64.toNat_ofNat',
    UInt32.toNat_toUInt64, hfour, hlimit, Nat.mod_eq_of_lt (a := x.checkedRows r) (by omega),
    Nat.mod_eq_of_lt (a := x.checkedRows r * index.hidden.toNat) (by omega),
    Nat.mod_eq_of_lt (by omega)] at hbytes
  exact hbytes

/-! ### What the stage sends -/

/-- A first stage that is loaded for the reservation, in any state its frames may take it to. -/
structure Serves {H : Type*} (r : StageRequest) (index : ModelIndex) (st : Stage H) : Prop where
  reachable : st.Reachable
  first : st.model.first = true
  last : st.model.last = false
  context : st.model.contextSize = r.context
  sessions : st.model.maxSessions = r.sessions
  hidden : st.model.hidden = index.hidden.toNat
  int : st.model.hidden < 2 ^ 31
  wire : st.model.wire = r.activations

/-- The frames that go on to the next stage: those of a prompt, in chunks, of tokens and commits,
and of rounds up to this width. A round starts at a token that was sampled behind another one. -/
inductive Sends {H : Type*} (chunk width : Nat) (st : Stage H) : Frame H → Prop
  | handled {input f : Frame H} (hruns : input.type.runs) (ok : Nat → Bool)
      (hf : f ∈ (st.handle input chunk ok).2.1 ∨ (st.handle input chunk ok).2.2 = .ok f) :
        Sends chunk width st f
  | round {r : RingHead H} (hstage : r.stage = st) {input f : Frame H}
      (hbehind : 0 < input.position)
      (ngramDraft : Bool) {c : Chance} (hwidth : c.width ≤ width)
      (hf : (r.draftRound ngramDraft input c).2 = .ok f) : Sends chunk width st f

/-- Every frame that the reserved stage sends fits on the wire. -/
def FramesFit (H : Type*) (x : ServeContext) (r : StageRequest) (index : ModelIndex) (width : Nat) :
    Prop :=
  ∀ st : Stage H, Serves r index st → ∀ f, Sends x.prefillChunk width st f →
    f.activationSize ≤ maxPayload

/-- A round of the full width is sent behind rows of numbers that leave no room for its guesses. -/
structure GuessesOverflow (x : ServeContext) (r : StageRequest) (index : ModelIndex) (width : Nat) :
    Prop where
  activations : r.activations = .f32le
  hidden : index.hidden.toNat = 524287
  chunked : 0 < x.prefillChunk
  chunk : x.prefillChunk ≤ maxSpeculativeWidth
  context : maxSpeculativeWidth < r.context
  width : maxSpeculativeWidth ≤ width

/-- The rows are a code and its scale, and so many that the scales do not fit. -/
structure ScalesOverflow (x : ServeContext) (r : StageRequest) (index : ModelIndex) : Prop where
  activations : r.activations = .fp8e4m3
  hidden : index.hidden.toNat = 1
  rows : 13421772 ≤ promptRows r.context x.prefillChunk

lemma rowBytes_f32le (cols : Nat) : Wire.rowBytes DType.f32le.code cols = cols * 4 := if_pos rfl

lemma rowBytes_fp8e4m3 (cols : Nat) : Wire.rowBytes DType.fp8e4m3.code cols = cols + 4 := rfl

/-- Two bytes for each number are enough, where the numbers are shorter and a row is not. -/
lemma rowBytes_short {dtype : DType} (hdtype : dtype ≠ .f32le) {cols : Nat} (hcols : 4 ≤ cols) :
    Wire.rowBytes dtype.code cols ≤ cols * 2 := by
  cases dtype with
  | none => exact Nat.zero_le _
  | f32le => exact absurd rfl hdtype
  | f16le => exact le_rfl
  | fp8e4m3 =>
    rw [rowBytes_fp8e4m3]
    omega

/-- The check counts enough for a row without guesses, but for a single code with its scale. -/
lemma rowBytes_le_four {dtype : DType} {cols : Nat} (hcols : 0 < cols)
    (hscale : ¬ (dtype = .fp8e4m3 ∧ cols = 1)) :
    Wire.rowBytes dtype.code cols ≤ cols * 4 := by
  cases dtype with
  | none => exact Nat.zero_le _
  | f32le => exact (rowBytes_f32le cols).le
  | f16le => exact Nat.mul_le_mul_left cols (by decide)
  | fp8e4m3 =>
    have hcols : cols ≠ 1 := fun hone => hscale ⟨rfl, hone⟩
    rw [rowBytes_fp8e4m3]
    omega

section bounds

variable {dtype : DType} {checked rows cols : Nat}

/-- Rows that were counted fit, as long as a row is not longer than it is counted. -/
lemma rows_fit (hcheck : checked * cols * 4 ≤ maxPayload - 8) (hrows : rows ≤ checked)
    (hcols : 0 < cols)
    (hscale : ¬ (dtype = .fp8e4m3 ∧ cols = 1)) : 8 + rows * Wire.rowBytes dtype.code cols ≤
      maxPayload := by
  have hbytes : rows * Wire.rowBytes dtype.code cols ≤ maxPayload - 8 :=
    calc rows * Wire.rowBytes dtype.code cols ≤ checked * (cols * 4) :=
          Nat.mul_le_mul hrows (rowBytes_le_four hcols hscale)
      _ = checked * cols * 4 := (Nat.mul_assoc ..).symm
      _ ≤ maxPayload - 8 := hcheck
  rw [maxPayload] at hbytes ⊢
  omega

/-- A round of a model with few columns is far below the limit. -/
lemma round_fits_small {n : Nat} (hn : n + 1 ≤ maxSpeculativeWidth)
    (hcols : cols ≤ maxSpeculativeWidth) :
    8 + (n + 1) * Wire.rowBytes dtype.code cols + n * 4 ≤ maxPayload := by
  have hrow := Wire.rowBytes_le dtype.code cols
  rw [maxSpeculativeWidth] at hn hcols
  have hbytes : (n + 1) * Wire.rowBytes dtype.code cols ≤ 32 * 132 := Nat.mul_le_mul hn (by omega)
  rw [maxPayload]
  omega

/-- A round with a row less than was counted has room for its guesses. -/
lemma round_fits_f32le {n : Nat} (hcheck : checked * cols * 4 ≤ maxPayload - 8)
    (hn : n + 1 ≤ maxSpeculativeWidth)
    (hrows : n + 1 < checked) : 8 + (n + 1) * Wire.rowBytes DType.f32le.code cols + n * 4 ≤
      maxPayload := by
  by_cases hcols : cols ≤ maxSpeculativeWidth
  · exact round_fits_small hn hcols
  have hnext : (n + 1) * (cols * 4) + cols * 4 ≤ maxPayload - 8 :=
    calc (n + 1) * (cols * 4) + cols * 4 = (n + 1 + 1) * (cols * 4) := (Nat.succ_mul ..).symm
      _ ≤ checked * (cols * 4) := Nat.mul_le_mul_right _ hrows
      _ = checked * cols * 4 := (Nat.mul_assoc ..).symm
      _ ≤ maxPayload - 8 := hcheck
  rw [rowBytes_f32le]
  rw [maxSpeculativeWidth] at hn hcols
  rw [maxPayload] at hnext ⊢
  omega

/-- Shorter numbers leave room for the guesses. -/
lemma round_fits_short {n : Nat} (hcheck : checked * cols * 4 ≤ maxPayload - 8)
    (hn : n + 1 ≤ maxSpeculativeWidth) (hrows : n + 1 ≤ checked) (hdtype : dtype ≠ .f32le) :
    8 + (n + 1) * Wire.rowBytes dtype.code cols + n * 4 ≤ maxPayload := by
  by_cases hcols : cols ≤ maxSpeculativeWidth
  · exact round_fits_small hn hcols
  rw [maxSpeculativeWidth] at hcols
  have hbytes : (n + 1) * Wire.rowBytes dtype.code cols + (n + 1) * (cols * 2) ≤ maxPayload - 8 :=
    calc (n + 1) * Wire.rowBytes dtype.code cols + (n + 1) * (cols * 2)
        ≤ (n + 1) * (cols * 2) + (n + 1) * (cols * 2) :=
          Nat.add_le_add_right (Nat.mul_le_mul_left _ (rowBytes_short hdtype (by omega))) _
      _ = (n + 1) * (cols * 4) := by ring
      _ ≤ checked * (cols * 4) := Nat.mul_le_mul_right _ hrows
      _ = checked * cols * 4 := (Nat.mul_assoc ..).symm
      _ ≤ maxPayload - 8 := hcheck
  have hguesses : (n + 1) * 4 ≤ (n + 1) * (cols * 2) := Nat.mul_le_mul_left _ (by omega)
  rw [maxPayload] at hbytes ⊢
  omega

end bounds

/-- The rows of tokens are counted. -/
lemma le_checkedRows {n : Nat} (hwidth : n ≤ maxSpeculativeWidth) (hcontext : n ≤ r.context) :
    n ≤ x.checkedRows r := by
  rw [checkedRows]
  split_ifs
  · exact hcontext
  · exact le_min hcontext (hwidth.trans (Nat.le_max_right _ _))

lemma promptRows_le : promptRows r.context x.prefillChunk ≤ x.checkedRows r := by
  rw [promptRows, checkedRows]
  split_ifs
  · exact le_rfl
  · exact min_le_min_left _ (Nat.le_max_left _ _)

/-- A frame without guesses fits, whether it is of a prompt or of tokens. -/
lemma Accepts.rows_fit (h : x.Accepts r index) (hint : index.hidden.toNat < 2 ^ 31)
    (hscales : ¬ ScalesOverflow x r index) {n : Nat}
    (hn : n ≤ promptRows r.context x.prefillChunk ∨ n ≤ maxSpeculativeWidth ∧ n ≤ r.context) :
    8 + n * Wire.rowBytes r.activations.code index.hidden.toNat ≤ maxPayload := by
  by_cases hscale : r.activations = .fp8e4m3 ∧ index.hidden.toNat = 1
  · have hrows : ¬ 13421772 ≤ promptRows r.context x.prefillChunk :=
      fun hrows => hscales ⟨hscale.1, hscale.2, hrows⟩
    rw [hscale.1, hscale.2, rowBytes_fp8e4m3]
    rw [maxSpeculativeWidth] at hn
    rw [maxPayload]
    omega
  · refine ServeContext.rows_fit (h.bound hint) ?_ ?_ hscale
    · rcases hn with hn | hn
      · exact hn.trans promptRows_le
      · exact le_checkedRows hn.1 hn.2
    · exact Nat.pos_of_ne_zero fun hzero => x.hidden_ne_zero h.known (UInt32.toNat_inj.mp hzero)

/-- A round fits. Only one as wide as the rows that were counted is tight. -/
lemma Accepts.round_fits (h : x.Accepts r index) (hint : index.hidden.toNat < 2 ^ 31) {width : Nat}
    (hguesses : ¬ GuessesOverflow x r index width) {n : Nat} (hwidth : n + 1 ≤ maxSpeculativeWidth)
    (hlimit : n ≤ width - 1) (hcontext : n + 1 < r.context) :
    8 + (n + 1) * Wire.rowBytes r.activations.code index.hidden.toNat + n * 4 ≤ maxPayload := by
  have hcounted : n + 1 ≤ x.checkedRows r := le_checkedRows hwidth hcontext.le
  by_cases hdtype : r.activations = .f32le
  · rw [hdtype]
    by_cases hroom : n + 1 < x.checkedRows r
    · exact round_fits_f32le (h.bound hint) hwidth hroom
    · have hrows : x.checkedRows r = n + 1 := by omega
      have hbound := h.bound hint
      rw [hrows] at hbound
      rw [checkedRows] at hrows
      split_ifs at hrows with hchunk
      · omega
      · rw [maxSpeculativeWidth] at hwidth hrows
        have htight : n = 31 ∧ x.prefillChunk ≤ 32 := by omega
        have hcols : index.hidden.toNat ≠ 524287 := fun hcols =>
          hguesses ⟨hdtype, hcols, Nat.pos_of_ne_zero hchunk, htight.2,
            by rw [maxSpeculativeWidth]; omega, by rw [maxSpeculativeWidth]; omega⟩
        rw [htight.1] at hbound ⊢
        rw [rowBytes_f32le]
        rw [maxPayload] at hbound ⊢
        omega
  · exact round_fits_short (h.bound hint) hwidth hcounted hdtype

/-- The frames fit, but for two kinds of reservations. -/
lemma Accepts.framesFit {H : Type*} (h : x.Accepts r index) {width : Nat}
    (hguesses : ¬ GuessesOverflow x r index width)
    (hscales : ¬ ScalesOverflow x r index) : FramesFit H x r index width := by
  intro st hst f hsent
  have hint : index.hidden.toNat < 2 ^ 31 := hst.hidden ▸ hst.int
  cases hsent with
  | @handled input _ hruns ok hf =>
    by_cases htype : input.type = .prompt
    · obtain ⟨hof, hrows⟩ := Stage.prompt_rows hst.first hst.last htype hf
      rw [hst.context] at hrows
      rw [hof.size, hst.wire, hst.hidden]
      exact h.rows_fit hint hscales (.inl hrows)
    · have hverified := Stage.token_rows hst.first hst.last hruns htype hf
      have hroom := hverified.room
      rw [hst.context] at hroom
      rw [hverified.of.size, hst.wire, hst.hidden]
      exact h.rows_fit hint hscales (.inr ⟨hverified.width, hroom.trans (Nat.sub_le _ _)⟩)
  | @round ring hstage input _ hbehind ngramDraft c hwidth hf =>
    obtain ⟨n, hn, hwide, hroom, hsize⟩ :=
      RingHead.draftRound_size (by rw [hstage]; exact hst.first) (by rw [hstage]; exact hst.last) hf
    rw [hstage] at hroom hsize
    rw [hst.context] at hroom
    rw [hsize, hst.wire, hst.hidden]
    exact h.round_fits hint hguesses hwide (hn.trans (Nat.sub_le_sub_right hwidth 1)) (by omega)

end ServeContext

/-! ### Which reservations are too large -/

namespace ServeContext

variable {H : Type*} {x : ServeContext} {r : StageRequest} {index : ModelIndex} {width : Nat}

/-- A stage for the reservation, whose tokenizer reads every text as so many tokens. -/
def zeros (H : Type*) [Inhabited H] (r : StageRequest) (index : ModelIndex) (count : Nat) :
    StageModel H where
  first := true
  last := false
  contextSize := r.context
  maxSessions := r.sessions
  hidden := index.hidden.toNat
  wire := r.activations
  tokenize _ := List.replicate count 0
  embed _ := default
  greedy _ := 0
  chat _ _ := 0
  template _ := none
  piece _ := ""
  isEog _ := false

variable [Inhabited H]

lemma serves_zeros (hint : index.hidden.toNat < 2 ^ 31) {count : Nat} {st : Stage H}
    (hst : st.Reachable) (hmodel : st.model = zeros H r index count) : Serves r index st where
  reachable := hst
  first := by rw [hmodel]; rfl
  last := by rw [hmodel]; rfl
  context := by rw [hmodel]; rfl
  sessions := by rw [hmodel]; rfl
  hidden := by rw [hmodel]; rfl
  int := by rw [hmodel]; exact hint
  wire := by rw [hmodel]; rfl

/-- A round of the full width behind a prompt of one token does not fit. -/
lemma GuessesOverflow.not_framesFit (hover : GuessesOverflow x r index width)
    (h : x.Accepts r index) :
    ¬ FramesFit H x r index width := by
  intro hfit
  have hcontext := hover.context
  rw [maxSpeculativeWidth] at hcontext
  have hroom : [0].length ≤ r.context := by
    rw [List.length_singleton]
    omega
  obtain ⟨sequence, -, -, -, -, hlookup⟩ :=
    Stage.begun_prompt (m := zeros H r index 1) rfl rfl h.sessions_pos
    [0] rfl (List.cons_ne_nil _ _) hroom 0 (.inl rfl)
  have hreachable : ((Stage.begun (zeros H r index 1)).handle (promptFrame 1 1 0 "a") 0
      fun _ => true).1.Reachable :=
    .handle _ _ _ (.handle _ _ _ (.load _))
  have hmodel := (Stage.handle_model (Stage.begun (zeros H r index 1)) (promptFrame 1 1 0 "a") 0
    fun _ => true).trans
    (Stage.begun_model _)
  generalize ((Stage.begun (zeros H r index 1)).handle (promptFrame 1 1 0 "a") 0 fun _ => true).1 =
    st at *
  have hserves : Serves r index st := serves_zeros (by rw [hover.hidden]; decide) hreachable hmodel
  obtain ⟨f, hf, hsize⟩ := RingHead.draftRound_widest hlookup hserves.first hserves.last
    (hserves.context ▸ hover.context)
  have hfits := hfit st hserves f (.round rfl Nat.one_pos true hover.width hf)
  rw [hsize, hserves.wire, hserves.hidden, hover.activations, hover.hidden] at hfits
  exact absurd hfits (by decide)

/-- A prompt that fills the first chunk does not fit. -/
lemma ScalesOverflow.not_framesFit (hover : ScalesOverflow x r index) (h : x.Accepts r index) :
    ¬ FramesFit H x r index width := by
  intro hfit
  have hrows := hover.rows
  have hroom : promptRows r.context x.prefillChunk ≤ r.context := by
    rw [promptRows]
    split_ifs
    · exact le_rfl
    · exact Nat.min_le_left _ _
  have hchunk : x.prefillChunk = 0 ∨ promptRows r.context x.prefillChunk ≤ x.prefillChunk := by
    rw [promptRows]
    split_ifs with hnone
    · exact .inl hnone
    · exact .inr (Nat.min_le_right _ _)
  generalize promptRows r.context x.prefillChunk = count at *
  have hlength : (List.replicate count 0).length = count := List.length_replicate
  have hsome : List.replicate count 0 ≠ [] := by
    rw [Ne, List.replicate_eq_nil_iff]
    omega
  obtain ⟨-, f, hf, hof, hcount, -⟩ :=
    Stage.begun_prompt (m := zeros H r index count) rfl rfl h.sessions_pos
    (List.replicate count 0) rfl hsome (hlength.trans_le hroom) x.prefillChunk
      (by rw [hlength]; exact hchunk)
  have hserves : Serves r index (Stage.begun (zeros H r index count)) :=
    serves_zeros (by rw [hover.hidden]; decide) (.handle _ _ _ (.load _)) (Stage.begun_model _)
  have hfits := hfit _ hserves f (.handled rfl _ (.inr hf))
  have hwire : (zeros H r index count).wire = .fp8e4m3 := hover.activations
  have hhidden : (zeros H r index count).hidden = 1 := hover.hidden
  rw [hof.size, hwire, hhidden, rowBytes_fp8e4m3, hcount, hlength, maxPayload] at hfits
  omega

/-- The frames that the first stage of an accepted reservation sends fit on the wire exactly if it
is of neither of two kinds: that a full round's guesses have no room behind its rows, or that the
scales of a prompt's rows have none. -/
theorem framesFit_iff (h : x.Accepts r index) :
    FramesFit H x r index width ↔ ¬ GuessesOverflow x r index width ∧
      ¬ ScalesOverflow x r index := by
  constructor
  · intro hfit
    exact ⟨fun hover => hover.not_framesFit h hfit, fun hover => hover.not_framesFit h hfit⟩
  · rintro ⟨hguesses, hscales⟩
    exact h.framesFit hguesses hscales

/-- A model of two layers with heads of 128 numbers. -/
def twoLayers (hidden : UInt32) : ModelIndex where
  architecture := "qwen2"
  layers := 2
  hidden
  heads := 1
  kvHeads := 1
  headDimK := 128
  headDimV := 128
  headerBytes := 1000
  tensors := [⟨"token_embd.weight".toList, 500, [], 0⟩, ⟨"blk.0.attn_q.weight".toList, 300, [], 0⟩,
    ⟨"blk.1.attn_q.weight".toList, 300, [], 0⟩, ⟨"output_norm.weight".toList, 10, [], 0⟩]

def oneLayer : StageRequest :=
  { routeId := "0123456789abcdef0123456789abcdef"
    modelSha256 := "0123456789abcdef0123456789abcdef0123456789abcdef0123456789abcdef"
    endLayer := 1, context := 64, sessions := 1, leaseMs := 1000 }

/-- A worker that offers 4 GiB and sends prompts in chunks of 32 tokens. -/
def offering (index : ModelIndex) (h : index.hidden ≠ 0) : ServeContext where
  catalog sha := if sha = oneLayer.modelSha256.toList then some index else none
  maxContext := 4096
  maxSessions := 4
  offeredVramMib := 4096
  prefillChunk := 32
  hidden_ne_zero := by
    intro sha known hknown
    rw [Option.ite_none_right_eq_some, Option.some.injEq] at hknown
    rw [← hknown.2]
    exact h
  maxContext_lt := by decide

lemma accepts_oneLayer {index : ModelIndex} (h : index.hidden ≠ 0)
    (hknown : (offering index h).catalog (lowercase oneLayer.modelSha256.toList) = some index)
    (haccepted : (offering index h).reservationProblem oneLayer = "") (hlayers : index.layers = 2) :
    (offering index h).Accepts oneLayer index where
  known := hknown
  accepted := haccepted
  first := rfl
  split := by
    rw [wholeModel, hlayers]
    rfl

theorem framesFit_twoLayers :
    FramesFit Nat (offering (twoLayers 4096) (by decide)) oneLayer (twoLayers 4096) 32 := by
  refine (framesFit_iff ?_).mpr ⟨fun h => absurd h.hidden (by decide),
    fun h => absurd h.activations (by decide)⟩
  exact accepts_oneLayer (by decide) (by decide +kernel) (by decide +kernel) rfl

/-- A reservation whose frames do not all fit is accepted: of a model with 524287 columns, at 32
rows a frame. -/
theorem accepted_not_framesFit :
    ¬ ∀ (x : ServeContext) (r : StageRequest) (index : ModelIndex) (width : Nat),
      width ≤ maxSpeculativeWidth →
      x.Accepts r index → FramesFit Nat x r index width := by
  intro h
  have haccepts : (offering (twoLayers 524287) (by decide)).Accepts oneLayer (twoLayers 524287) :=
    accepts_oneLayer (by decide) (by decide +kernel) (by decide +kernel) rfl
  have hover :
      (offering (twoLayers 524287) (by decide)).GuessesOverflow oneLayer (twoLayers 524287) 32 :=
    ⟨rfl, rfl, by decide, by decide, by decide, by decide⟩
  exact hover.not_framesFit haccepts (h _ _ _ 32 le_rfl haccepts)

end ServeContext

end ProviderOwned
