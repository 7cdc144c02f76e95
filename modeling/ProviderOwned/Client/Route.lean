import ProviderOwned.Client.Basic
import ProviderOwned.Stage.Batch

/-!
# A batch along a route

The stages of a route decode the same text: each later stage holds the image of what the stage
before it holds (`Along`). A batch that every stage has room for therefore keeps them together
(`relay_rows`, `relay_tokens`, `relay_prompt`), and what comes back from the last stage is sampled
from the composition of all stages (`next`).
-/

namespace ProviderOwned

variable {H : Type*}

structure StageModel.Sized (context hidden : Nat) (m : StageModel H) : Prop where
  context : m.contextSize = context
  hidden : m.hidden = hidden
  wire : activationDtype m.wire = true

/-- The models of a route in order: the first is the first stage exactly when `first` says so, and
the last one samples. -/
def Wired (context hidden : Nat) : Bool → List (StageModel H) → Prop
  | _, [] => False
  | first, [m] => m.Sized context hidden ∧ m.first = first ∧ m.last = true
  | first, m :: rest =>
    m.Sized context hidden ∧ m.first = first ∧ m.last = false ∧ Wired context hidden false rest

/-- The token the route samples after `cells` have gone in at its first stage. -/
def next : List (StageModel H) → List (Cell H) → Token
  | [], _ => 0
  | [m], cells => m.greedy cells
  | m :: rest, cells => next rest (image m cells)

/-- Every stage of the route has the session in a state `P` allows, given what went in at the first
of them; the links stay up. -/
def Along (P : List (Cell H) → Session H → Prop) (session : Nat) :
    List (Cell H) → List (Connection H) → Prop
  | _, [] => True
  | cells, c :: rest =>
    (c.link = none ∧ ∃ s, c.stage.sessions.lookup session = some s ∧ P cells s) ∧
      Along P session (image c.stage.model cells) rest

def modelsOf (stages : List (Connection H)) : List (StageModel H) :=
  stages.map (·.stage.model)

/-- A session in the middle of `request`. -/
def Session.Running (request : Nat) (cells : List (Cell H)) (s : Session H) : Prop :=
  s.At request cells ∧ s.hasPrompt = true

/-- A session that has taken no part in `request` yet and has no other. -/
def Session.Waiting (request : Nat) (cells : List (Cell H)) (s : Session H) : Prop :=
  s.Ready request cells ∧ s.hasPrompt = false ∧ s.chatPending = false

@[simp] lemma modelsOf_cons (c : Connection H) (rest : List (Connection H)) :
    modelsOf (c :: rest) = c.stage.model :: modelsOf rest := rfl

lemma Along.mono {P Q : List (Cell H) → Session H → Prop} {session : Nat}
    (himp : ∀ cells s, P cells s → Q cells s) {cells : List (Cell H)}
    {stages : List (Connection H)} (h : Along P session cells stages) :
    Along Q session cells stages := by
  induction stages generalizing cells with
  | nil => trivial
  | cons c rest ih =>
    obtain ⟨⟨hup, s, hs, hP⟩, hrest⟩ := h
    exact ⟨⟨hup, s, hs, himp cells s hP⟩, ih hrest⟩

section Wired

variable {context hidden : Nat} {first : Bool} {m : StageModel H} {rest : List (StageModel H)}

lemma Wired.sized (h : Wired context hidden first (m :: rest)) : m.Sized context hidden := by
  cases rest with
  | nil => exact h.1
  | cons m' rest => exact h.1

lemma Wired.first_eq (h : Wired context hidden first (m :: rest)) : m.first = first := by
  cases rest with
  | nil => exact h.2.1
  | cons m' rest => exact h.2.1

/-- The samples after each row of a batch are those of the route behind the stage on its rows. -/
lemma next_prefixMap (m m' : StageModel H) (rest : List (StageModel H))
    (kv batch : List (Cell H)) :
    batch.prefixMap (fun b => next (m :: m' :: rest) (kv ++ b)) =
      ((Session.rowsOf m kv batch).map Cell.hidden).prefixMap
        fun b => next (m' :: rest) (image m kv ++ b) := by
  rw [Session.rowsOf_eq, List.map_prefixMap, List.prefixMap_prefixMap]
  congr 1
  funext b
  change next (m' :: rest) (image m (kv ++ b)) = _
  rw [Session.image_append, Session.rowsOf_eq, List.map_prefixMap]

end Wired

/-! ### One exchange -/

/-- The frame types `Stage::execute` runs. -/
def FrameType.executed : FrameType → Prop
  | .prompt | .token | .commitToken | .activation | .speculativeActivation | .commitActivation
  | .promptChunk => True
  | _ => False

namespace Connection

variable {c : Connection H} {f : Frame H} {s : Session H}

/-- A frame for a session the far stage has, over a link that stays up. -/
lemma exchange_up (hup : c.link = none) :
    c.exchange f = (c.after f 2, (c.stage.handle f 0 fun _ => true).2.2) := by
  simp [exchange, carries, hup]

lemma after_link (hup : c.link = none) : (c.after f 2).link = none := by
  simp [after, hup]

@[simp] lemma after_model : (c.after f 2).stage.model = c.stage.model :=
  Stage.handle_model ..

lemma handle_executed {st : Stage H} (htype : f.type.executed) (hrequest : f.request ≠ 0)
    (hsession : f.session ≠ 0) (hs : st.sessions.lookup f.session = some s) (chunk : Nat)
    (ok : Nat → Bool) :
    st.handle f chunk ok =
      ({ st with sessions := st.sessions.insert f.session (s.execute st.model f chunk ok).session },
       (s.execute st.model f chunk ok).emitted, (s.execute st.model f chunk ok).reply) := by
  have hon := Stage.onSession_of_lookup hsession hs (·.execute st.model f chunk ok)
  rw [Stage.handle]
  cases h : f.type <;> first
    | exact ((by rw [h] at htype; exact htype) : False).elim
    | exact (if_neg hrequest).trans hon

/-- An executed frame, seen from the client. -/
lemma exchange_executed (hup : c.link = none) (htype : f.type.executed) (hrequest : f.request ≠ 0)
    (hsession : f.session ≠ 0) (hs : c.stage.sessions.lookup f.session = some s) :
    c.exchange f = (c.after f 2, (s.execute c.stage.model f 0 fun _ => true).reply) ∧
      (c.after f 2).stage.sessions.lookup f.session =
        some (s.execute c.stage.model f 0 fun _ => true).session := by
  have hhandle := handle_executed htype hrequest hsession hs 0 fun _ => true
  rw [exchange_up hup, after, hhandle]
  exact ⟨rfl, AList.lookup_insert _⟩

end Connection

/-! ### A batch over the whole route -/

section relay

variable {context hidden session request p : Nat} {cells : List (Cell H)} {type : FrameType}

/-- A reply that carries a batch on passes the client's check. -/
lemma requireActivation_batchFrame (type : FrameType) {f : Frame H} {rows : List H} {dtype : DType}
    (hsession : f.session = session) (hrequest : f.request = request) (hposition : f.position = p)
    (hrows : rows ≠ []) (hdtype : activationDtype dtype = true)
    (hsize : rows.length * hidden ≤ (maxPayload - 8) / 4) :
    requireActivation (batchFrame type session request p rows hidden dtype) f hidden type =
      .ok (batchFrame type session request p rows hidden dtype) := by
  have hlength : rows.length ≠ 0 := by simpa using hrows
  rw [requireActivation,
    if_neg (by simp [batchFrame, hsession, hrequest, hposition, hrows, hdtype])]
  exact if_neg (by simp [batchFrame, hsize])

/-- The far stage decodes the batch of `f` onto `kv` and answers. -/
structure Connection.Decodes (c : Connection H) (f : Frame H) (type : FrameType)
    (session request p : Nat) (kv batch : List (Cell H)) : Prop where
  reply : (c.exchange f).2 = .ok (batchReply c.stage.model type session request p kv batch)
  up : (c.exchange f).1.link = none
  model : (c.exchange f).1.stage.model = c.stage.model
  held : ∃ t, (c.exchange f).1.stage.sessions.lookup session = some t ∧
    t.Running request (kv ++ batch)

lemma Connection.Decodes.of_execute {c : Connection H} {f : Frame H} {s t : Session H}
    {kv batch : List (Cell H)} (hup : c.link = none) (htype : f.type.executed)
    (hrequest : f.request ≠ 0) (hsession : f.session ≠ 0)
    (hs : c.stage.sessions.lookup f.session = some s) (hrunning : t.Running request (kv ++ batch))
    (hexecute : s.execute c.stage.model f 0 (fun _ => true) =
      t.answer (batchReply c.stage.model type f.session request p kv batch)) :
    c.Decodes f type f.session request p kv batch := by
  obtain ⟨hexchange, hlookup⟩ := Connection.exchange_executed hup htype hrequest hsession hs
  rw [hexecute] at hexchange hlookup
  constructor
  · rw [hexchange]
    rfl
  · rw [hexchange]
    exact Connection.after_link hup
  · rw [hexchange]
    exact Connection.after_model
  · rw [hexchange]
    exact ⟨t, hlookup, hrunning⟩

/-- The state a later stage has to be in for a batch of this type. -/
def Session.Open (type : FrameType) (request : Nat) (cells : List (Cell H)) (s : Session H) :
    Prop :=
  s.Ready request cells ∧ (type = .commitActivation → s.hasPrompt = true)

/-- The checks on a batch that do not depend on the stage it is at. -/
structure BatchFits (context hidden : Nat) (type : FrameType) (p rows : Nat) : Prop where
  isBatch : type.isBatch
  nonempty : rows ≠ 0
  room : p + rows ≤ context
  size : context * hidden ≤ (maxPayload - 8) / 4
  width : type = .speculativeActivation → rows ≤ maxSpeculativeWidth

lemma BatchFits.payload {rows : Nat} (h : BatchFits context hidden type p rows) :
    rows * hidden ≤ (maxPayload - 8) / 4 := by
  have hrows : rows * hidden ≤ context * hidden :=
    Nat.mul_le_mul_right _ (by have hroom := h.room; omega)
  exact hrows.trans h.size

lemma Connection.decodes_rows {c : Connection H} (rows : List H) {dtype : DType}
    (hsession : session ≠ 0) (hrequest : request ≠ 0)
    (hsized : c.stage.model.Sized context hidden) (hfirst : c.stage.model.first = false)
    (hfits : BatchFits context hidden type p rows.length) (hdtype : activationDtype dtype = true)
    (hup : c.link = none) {s : Session H} (hs : c.stage.sessions.lookup session = some s)
    (hopen : s.Open type request cells) (hp : p ≤ cells.length) :
    c.Decodes (batchFrame type session request p rows hidden dtype) type session request p
      (cells.take p) (rows.map .hidden) := by
  have hstage : Session.FitsBatch c.stage.model type dtype p rows.length := by
    constructor
    · exact hfits.isBatch
    · exact hdtype
    · exact hfits.nonempty
    · rw [hsized.context]
      exact hfits.room
    · rw [hsized.hidden]
      exact hfits.payload
    · exact hfits.width
  obtain ⟨t, hat, hprompt, hexecute⟩ := Session.execute_rows session hopen.1 hrequest
    hp hfirst hstage hopen.2
  rw [hsized.hidden] at hexecute
  have hexecuted : (batchFrame type session request p rows hidden dtype).type.executed := by
    rw [batchFrame_type]
    have hbatch := hfits.isBatch
    cases type <;> trivial
  exact Connection.Decodes.of_execute (f := batchFrame type session request p rows hidden dtype)
    hup hexecuted hrequest hsession hs ⟨hat, hprompt⟩ hexecute

/-- A batch that a stage has decoded is decoded by the next one as well. -/
lemma Connection.Decodes.onward {c c' : Connection H} {rest : List (Connection H)} {f : Frame H}
    {batch : List (Cell H)} {first : Bool} (hsession : session ≠ 0) (hrequest : request ≠ 0)
    (hwired : Wired context hidden first (modelsOf (c :: c' :: rest)))
    (hdecodes : c.Decodes f type session request p (cells.take p) batch)
    (hrest : Along (Session.Open type request) session (image c.stage.model cells) (c' :: rest))
    (hfits : BatchFits context hidden type p batch.length) (hp : p ≤ cells.length) :
    (c.exchange f).2 = .ok (batchFrame type session request p
        (Session.rowsOf c.stage.model (cells.take p) batch) hidden c.stage.model.wire) ∧
      c'.Decodes (batchFrame type session request p
          (Session.rowsOf c.stage.model (cells.take p) batch) hidden c.stage.model.wire)
        type session request p ((image c.stage.model cells).take p)
        ((Session.rowsOf c.stage.model (cells.take p) batch).map .hidden) := by
  obtain ⟨hsized, -, hlast, hwired'⟩ := hwired
  obtain ⟨⟨hup', s', hs', hopen'⟩, -⟩ := hrest
  have hreply := hdecodes.reply
  rw [batchReply, if_neg (by simp [hlast]), hsized.hidden] at hreply
  refine ⟨hreply, ?_⟩
  exact Connection.decodes_rows _ hsession hrequest hwired'.sized hwired'.first_eq
    (by simpa using hfits) hsized.wire hup' hs' hopen' (by simpa using hp)

/-- What a batch leaves behind on a route, and what the client reads from its last stage. `input`
is the frame the last stage was sent. -/
structure Relayed {α : Type*} (finish : Frame H → Frame H → Except String α)
    (stages : List (Connection H)) (cells : List (Cell H)) (session request : Nat)
    (reply input : Frame H) (done : List (Connection H) × Except String α) : Prop where
  result : done.2 = finish reply input
  models : modelsOf done.1 = modelsOf stages
  along : Along (Session.Running request) session cells done.1

/-- A batch the first stage of the route decodes goes through all of it. -/
lemma relay_batch {α : Type*} (finish : Frame H → Frame H → Except String α) (none : String)
    (hsession : session ≠ 0) (hrequest : request ≠ 0) {c : Connection H}
    {rest : List (Connection H)} {f : Frame H} {batch : List (Cell H)} {first : Bool}
    (hwired : Wired context hidden first (modelsOf (c :: rest)))
    (hdecodes : c.Decodes f type session request p (cells.take p) batch)
    (hrest : Along (Session.Open type request) session (image c.stage.model cells) rest)
    (hfits : BatchFits context hidden type p batch.length) (hp : p ≤ cells.length)
    (hf : f.session = session ∧ f.request = request ∧ f.position = p) :
    ∃ input, (input = f ∨ ∃ rows dtype, rows.length = batch.length ∧
        input = batchFrame type session request p rows hidden dtype) ∧
      Relayed finish (c :: rest) (cells.take p ++ batch) session request
        (tailReply ((modelsOf rest).getLastD c.stage.model) type session request (p + batch.length)
          (batch.prefixMap fun b => next (modelsOf (c :: rest)) (cells.take p ++ b)))
        input (relay hidden type none finish (c :: rest) f) := by
  induction rest generalizing c cells f batch first with
  | nil =>
    have hlast : c.stage.model.last = true := hwired.2.2
    have hreply := hdecodes.reply
    rw [batchReply, if_pos hlast] at hreply
    refine ⟨f, .inl rfl, ?_⟩
    rw [relay]
    constructor
    · rw [hreply]
      rfl
    · rw [hreply]
      simp [modelsOf, hdecodes.model]
    · rw [hreply]
      exact ⟨⟨hdecodes.up, hdecodes.held⟩, trivial⟩
  | cons c' rest ih =>
    obtain ⟨hreply, hdecodes'⟩ := hdecodes.onward hsession hrequest hwired hrest hfits hp
    obtain ⟨hsized, -, -, hwired'⟩ := hwired
    have hlength : ((Session.rowsOf c.stage.model (cells.take p) batch).map
        (Cell.hidden (H := H))).length = batch.length := by simp
    have hrows : Session.rowsOf c.stage.model (cells.take p) batch ≠ [] := by
      simpa [← List.length_eq_zero_iff] using hfits.nonempty
    have hpass := requireActivation_batchFrame type hf.1 hf.2.1 hf.2.2
      hrows hsized.wire
      (by simpa using hfits.payload)
    have himage : (image c.stage.model cells).take p = image c.stage.model (cells.take p) :=
      (Session.image_take cells p).symm
    obtain ⟨input, hinput, hdone⟩ := ih hwired' hdecodes' hrest.2 (by rwa [hlength])
      (by simpa using hp) ⟨rfl, rfl, rfl⟩
    refine ⟨input, ?_, ?_⟩
    · right
      rcases hinput with rfl | ⟨rows, dtype, hrows, rfl⟩
      · exact ⟨_, _, Session.length_rowsOf .., rfl⟩
      · exact ⟨rows, dtype, hrows.trans hlength, rfl⟩
    · rw [relay, hreply]
      simp only [hpass]
      constructor
      · rw [hdone.result, modelsOf_cons, modelsOf_cons, modelsOf_cons, next_prefixMap, hlength,
          himage, List.getLastD_cons]
      · rw [modelsOf_cons, hdone.models, hdecodes.model, ← modelsOf_cons]
      · refine ⟨⟨hdecodes.up, hdecodes.held⟩, ?_⟩
        rw [hdecodes.model, Session.image_append, ← himage]
        exact hdone.along
      · exact List.cons_ne_nil _ _

end relay

/-! ### The text of a route -/

/-- The stages of a route in `request`, which have all decoded `text`. -/
structure OnText (context hidden session request : Nat) (text : List Token)
    (stages : List (Connection H)) : Prop where
  wired : Wired context hidden true (modelsOf stages)
  along : Along (Session.Running request) session (text.map .token) stages

/-- The token a route of these models samples after a text. -/
def nextToken (models : List (StageModel H)) (text : List Token) : Token :=
  next models (text.map .token)

/-- The text of a token in the vocabulary of the last stage. -/
def tailPiece (models : List (StageModel H)) (token : Token) : String :=
  (models.getLast?.map (·.piece token)).getD ""

/-- Whether a token ends the text for the last stage. -/
def tailEog (models : List (StageModel H)) (token : Token) : Bool :=
  (models.getLast?.map (·.isEog token)).getD false

/-- The session and request ids a client uses, and the size of the batches it sends. -/
structure Sendable (context hidden session request : Nat) : Prop where
  session : session ≠ 0
  request : request ≠ 0
  size : context * hidden ≤ (maxPayload - 8) / 4

section OnText

variable {context hidden session request p : Nat} {text ids : List Token}
  {stages : List (Connection H)}

lemma Along.opened (type : FrameType) {cells : List (Cell H)}
    (h : Along (Session.Running request) session cells stages) :
    Along (Session.Open type request) session cells stages :=
  h.mono fun _ _ hrunning => ⟨hrunning.1.ready, fun _ => hrunning.2⟩

lemma samples_tokens (models : List (StageModel H)) (text ids : List Token) :
    (ids.map Cell.token).prefixMap (fun b => next models (text.map .token ++ b)) =
      ids.prefixMap fun b => nextToken models (text ++ b) := by
  rw [List.prefixMap_map]
  simp only [nextToken, List.map_append]

lemma executed_tokensFrame {type : FrameType} {rows : Nat}
    (hfits : Session.FitsTokens type rows ids) :
    (tokensFrame (H := H) type session request p rows ids).type.executed := by
  rcases hfits with ⟨rfl | rfl, -⟩ | ⟨rfl, -⟩ <;> trivial

/-- Tokens the first stage has room for are decoded by it, as a batch for the stages behind it. -/
lemma OnText.decodes {c : Connection H} {rest : List (Connection H)} {type : FrameType} {rows : Nat}
    (hsend : Sendable context hidden session request)
    (h : OnText context hidden session request text (c :: rest)) (hp : p ≤ text.length)
    (hfits : Session.FitsTokens type rows ids) (hroom : p + ids.length ≤ context) {f : Frame H}
    (hf : f = tokensFrame type session request p rows ids) :
    c.Decodes f (carriedType f) session request p ((text.map .token).take p) (ids.map .token) ∧
      BatchFits context hidden (carriedType f) p (ids.map (Cell.token (H := H))).length := by
  obtain ⟨⟨hup, s, hs, hrunning⟩, -⟩ := h.along
  have hsized := h.wired.sized
  subst hf
  constructor
  · rcases Session.execute_tokens (m := c.stage.model) session hrunning.1.ready
        hsend.request (p := p) (by simpa using hp) h.wired.first_eq hrunning.2 hfits with
      ⟨-, t, hat, hprompt, hexecute⟩ | ⟨hfull, -⟩
    · exact Connection.Decodes.of_execute (f := tokensFrame type session request p rows ids) hup
        (executed_tokensFrame hfits) hsend.request hsend.session hs ⟨hat, hprompt⟩ hexecute
    · rw [hsized.context] at hfull
      omega
  · rw [List.length_map]
    refine ⟨?_, ?_, hroom, hsend.size, ?_⟩
    · rw [carriedType]
      split_ifs <;> trivial
    · rcases hfits with ⟨-, -, hone⟩ | ⟨-, -, hids, -⟩
      · omega
      · simpa using hids
    · intro hspec
      rcases hfits with ⟨rfl | rfl, rfl, hone⟩ | ⟨rfl, rfl, -, hwidth⟩
      · simp [carriedType, tokensFrame, Session.isSpeculative] at hspec
      · simp [carriedType, tokensFrame] at hspec
      · exact hwidth

/-- Tokens sent into a route: all stages decode them, or the first has no room. -/
lemma relay_tokens {α : Type*} (finish : Frame H → Frame H → Except String α) (none : String)
    {c : Connection H} {rest : List (Connection H)} {type : FrameType} {rows : Nat}
    (hsend : Sendable context hidden session request)
    (h : OnText context hidden session request text (c :: rest)) (hp : p ≤ text.length)
    (hfits : Session.FitsTokens type rows ids) {f : Frame H}
    (hf : f = tokensFrame type session request p rows ids) :
    (p + ids.length ≤ context ∧
      ∃ input, (input = f ∨ ∃ rows dtype, rows.length = ids.length ∧
          input = batchFrame (carriedType f) session request p rows hidden dtype) ∧
        Relayed finish (c :: rest) ((text.take p ++ ids).map .token) session request
          (tailReply ((modelsOf rest).getLastD c.stage.model) (carriedType f) session request
            (p + ids.length)
            (ids.prefixMap fun b => nextToken (modelsOf (c :: rest)) (text.take p ++ b)))
          input (relay hidden (carriedType f) none finish (c :: rest) f)) ∨
    (context < p + ids.length ∧
      (relay hidden (carriedType f) none finish (c :: rest) f).2 =
        .error "session context exhausted") := by
  obtain ⟨⟨hup, s, hs, hrunning⟩, hrest⟩ := h.along
  by_cases hroom : p + ids.length ≤ context
  · refine .inl ⟨hroom, ?_⟩
    obtain ⟨hdecodes, hbatch⟩ := h.decodes hsend hp hfits hroom hf
    obtain ⟨input, hinput, hdone⟩ := relay_batch finish none hsend.session
      hsend.request h.wired hdecodes (hrest.opened _) hbatch (by simpa using hp)
      (by subst hf; exact ⟨rfl, rfl, rfl⟩)
    rw [← List.map_take, ← List.map_append, samples_tokens, List.length_map] at hdone
    exact ⟨input, by simpa using hinput, hdone⟩
  · right
    have hfull : context < p + ids.length := by omega
    have hexecuted : f.type.executed := by
      rw [hf]
      exact executed_tokensFrame hfits
    obtain ⟨hexchange, -⟩ := Connection.exchange_executed (f := f) hup hexecuted
      (by rw [hf]; exact hsend.request) (by rw [hf]; exact hsend.session) (by rw [hf]; exact hs)
    have hreply : (c.exchange f).2 = .error "session context exhausted" := by
      rcases Session.execute_tokens (m := c.stage.model) session hrunning.1.ready
          hsend.request (p := p) (by simpa using hp) h.wired.first_eq hrunning.2 hfits with
        ⟨hfit, -⟩ | ⟨-, hexecute⟩
      · rw [h.wired.sized.context] at hfit
        exact absurd hfit hroom
      · rw [hexchange, hf]
        exact hexecute
    refine ⟨hfull, ?_⟩
    cases rest with
    | nil => rw [relay, hreply]
    | cons c' rest =>
      rw [relay, hreply]
      exact List.cons_ne_nil _ _

lemma tailPiece_cons (m : StageModel H) (rest : List (StageModel H)) (token : Token) :
    tailPiece (m :: rest) token = (rest.getLastD m).piece token := by
  rw [tailPiece, List.getLast?_cons, List.getLastD_eq_getLast?]
  rfl

lemma tailEog_cons (m : StageModel H) (rest : List (StageModel H)) (token : Token) :
    tailEog (m :: rest) token = (rest.getLastD m).isEog token := by
  rw [tailEog, List.getLast?_cons, List.getLastD_eq_getLast?]
  rfl

/-- The result of a step that ends at `position` with the token `token`. -/
def resultOf (models : List (StageModel H)) (token : Token) (position : Nat) : Result :=
  { token, eog := tailEog models token, text := tailPiece models token, position }

/-- The client accepts a single sample whose position its frame leads to. -/
lemma requireResult_tailReply {m : StageModel H} {rest : List (StageModel H)} {input : Frame H}
    {position : Nat} {samples : List Token} (hsession : input.session = session)
    (hrequest : input.request = request) (hposition : resultPosition position input = true) :
    requireResult (tailReply (rest.getLastD m) .activation session request position samples)
        input =
      .ok (resultOf (m :: rest) (samples.getLastD 0) position) := by
  rw [requireResult, if_neg (by simp [tailReply, hsession, hrequest, hposition])]
  rw [resultOf, tailPiece_cons, tailEog_cons]
  rfl

/-- A single token on a route that has decoded the text before it. -/
lemma routeStep_token (token : Token) (hsend : Sendable context hidden session request)
    (h : OnText context hidden session request text stages) (hp : p ≤ text.length) :
    (p + 1 ≤ context ∧ ∃ done, routeStep stages (tokensFrame .token session request p 0 [token])
        hidden = (done, .ok (resultOf (modelsOf stages)
          (nextToken (modelsOf stages) (text.take p ++ [token])) (p + 1))) ∧
      modelsOf done = modelsOf stages ∧
      OnText context hidden session request (text.take p ++ [token]) done) ∨
    (context < p + 1 ∧
      (routeStep stages (tokensFrame .token session request p 0 [token]) hidden).2 =
        .error "session context exhausted") := by
  cases stages with
  | nil => exact h.wired.elim
  | cons c rest =>
    have htype : carriedType (tokensFrame (H := H) .token session request p 0 [token]) =
        .activation := by
      simp [carriedType, tokensFrame, Session.isSpeculative]
    rcases relay_tokens requireResult "replica has no stages" hsend h hp
        (.inl ⟨.inl rfl, rfl, rfl⟩)
        (rfl : tokensFrame .token session request p 0 [token] = _) with
      ⟨hroom, input, hinput, hdone⟩ | ⟨hfull, herror⟩
    · rw [htype] at hinput hdone
      refine .inl ⟨hroom, _, ?_, hdone.models, ⟨?_, hdone.along⟩⟩
      · refine Prod.ext rfl ?_
        refine hdone.result.trans ?_
        rcases hinput with rfl | ⟨rows, dtype, hrows, rfl⟩
        · exact requireResult_tailReply rfl rfl (by simp [resultPosition, tokensFrame])
        · exact requireResult_tailReply rfl rfl (by simp [resultPosition, hrows])
      · rw [hdone.models]
        exact h.wired
    · rw [htype] at herror
      exact .inr ⟨hfull, herror⟩

/-- A verify batch on a route that has decoded the text before it. -/
lemma routeSpeculative_tokens (ids : List Token) (hsend : Sendable context hidden session request)
    (h : OnText context hidden session request text stages) (hp : p ≤ text.length)
    (hids : ids ≠ []) (hwidth : ids.length ≤ maxSpeculativeWidth) :
    (p + ids.length ≤ context ∧
      ∃ done, routeSpeculative stages (tokensFrame .token session request p ids.length ids) hidden =
        (done, .ok (ids.prefixMap fun b => nextToken (modelsOf stages) (text.take p ++ b))) ∧
      modelsOf done = modelsOf stages ∧
      OnText context hidden session request (text.take p ++ ids) done) ∨
    (context < p + ids.length ∧
      (routeSpeculative stages (tokensFrame .token session request p ids.length ids) hidden).2 =
        .error "session context exhausted") := by
  cases stages with
  | nil => exact h.wired.elim
  | cons c rest =>
    have hzero : ids.length ≠ 0 := by simpa using hids
    have htype : carriedType (tokensFrame (H := H) .token session request p ids.length ids) =
        .speculativeActivation := by
      simp [carriedType, tokensFrame, Session.isSpeculative, hids]
    rcases relay_tokens requireVerified "speculative routing failed" hsend h
        hp (.inr ⟨rfl, rfl, hids, hwidth⟩)
        (rfl : tokensFrame .token session request p ids.length ids = _) with
      ⟨hroom, input, hinput, hdone⟩ | ⟨hfull, herror⟩
    · rw [htype] at hinput hdone
      refine .inl ⟨hroom, _, ?_, hdone.models, ⟨?_, hdone.along⟩⟩
      · refine Prod.ext rfl ?_
        refine hdone.result.trans ?_
        rcases hinput with rfl | ⟨rows, dtype, hrows, rfl⟩
        · simp [requireVerified, tailReply, tokensFrame]
        · simp [requireVerified, tailReply, hrows]
      · rw [hdone.models]
        exact h.wired
    · rw [htype] at herror
      exact .inr ⟨hfull, herror⟩

/-- The commit of a token on a route that has decoded the text before it. -/
lemma commitFinalToken_token (token : Token) (hsend : Sendable context hidden session request)
    (h : OnText context hidden session request text stages) (hp : p ≤ text.length) :
    (p + 1 ≤ context ∧ ∃ done, commitFinalToken stages session request p token hidden =
        (done, .ok ()) ∧
      OnText context hidden session request (text.take p ++ [token]) done) ∨
    (context < p + 1 ∧ (commitFinalToken stages session request p token hidden).2 =
        .error "session context exhausted") := by
  cases stages with
  | nil => exact h.wired.elim
  | cons c rest =>
    rw [commitFinalToken, if_neg (List.cons_ne_nil _ _)]
    rcases relay_tokens (requireCommitted p) "" hsend h hp
        (.inl ⟨.inr rfl, rfl, rfl⟩)
        (rfl : tokensFrame .commitToken session request p 0 [token] = _) with
      ⟨hroom, input, hinput, hdone⟩ | ⟨hfull, herror⟩
    · refine .inl ⟨hroom, _, ?_, ⟨?_, hdone.along⟩⟩
      · refine Prod.ext rfl ?_
        refine hdone.result.trans ?_
        rcases hinput with rfl | ⟨rows, dtype, hrows, rfl⟩
        · simp [requireCommitted, requireAck, tailReply, carriedType, tokensFrame]
        · simp [requireCommitted, requireAck, tailReply, carriedType, tokensFrame]
      · rw [hdone.models]
        exact h.wired
    · exact .inr ⟨hfull, herror⟩

/-! ### The start and the end of a request -/

/-- The stages of a route whose session is at position 0 and in no request. -/
structure Fresh (context hidden session request : Nat) (stages : List (Connection H)) : Prop where
  wired : Wired context hidden true (modelsOf stages)
  along : Along (Session.Waiting request) session [] stages

/-- The tokens of a prompt at the first stage. -/
def promptTokens (models : List (StageModel H)) (prompt : String) : List Token :=
  (models.head?.map (·.tokenize prompt)).getD []

/-- Whether the first stage takes a prompt at position 0. -/
def PromptFits (context : Nat) (models : List (StageModel H)) (prompt : String) : Prop :=
  prompt ≠ "" ∧ promptTokens models prompt ≠ [] ∧ (promptTokens models prompt).length ≤ context

lemma Along.waiting_opened {cells : List (Cell H)}
    (h : Along (Session.Waiting request) session cells stages) :
    Along (Session.Open .activation request) session cells stages :=
  h.mono fun _ _ hwaiting => ⟨hwaiting.1, fun hcommit => by cases hcommit⟩

/-- A prompt on a fresh route: every stage decodes it, or the first refuses it. -/
lemma routeStep_prompt (prompt : String) (hsend : Sendable context hidden session request)
    (h : Fresh context hidden session request stages) :
    (PromptFits context (modelsOf stages) prompt ∧
      ∃ done, routeStep stages (promptFrame session request 0 prompt) hidden =
        (done, .ok (resultOf (modelsOf stages)
          (nextToken (modelsOf stages) (promptTokens (modelsOf stages) prompt))
          (promptTokens (modelsOf stages) prompt).length)) ∧
      modelsOf done = modelsOf stages ∧
      OnText context hidden session request (promptTokens (modelsOf stages) prompt) done) ∨
    (¬ PromptFits context (modelsOf stages) prompt ∧
      ∃ e, (routeStep stages (promptFrame session request 0 prompt) hidden).2 = .error e) := by
  cases stages with
  | nil => exact h.wired.elim
  | cons c rest =>
    obtain ⟨⟨hup, s, hs, hready, hprompt, hchat⟩, hrest⟩ := h.along
    have hsized := h.wired.sized
    have hfirst := h.wired.first_eq
    have htokens : promptTokens (modelsOf (c :: rest)) prompt = c.stage.model.tokenize prompt := rfl
    have hexecuted : (promptFrame (H := H) session request 0 prompt).type.executed := trivial
    by_cases hfits : PromptFits context (modelsOf (c :: rest)) prompt
    · refine .inl ⟨hfits, ?_⟩
      obtain ⟨htext, hnil, hroom⟩ := hfits
      rw [htokens] at hnil hroom
      obtain ⟨t, hat, hflag, hexecute⟩ := Session.execute_prompt session hready
        hsend.request hfirst hprompt hchat htext hnil (by simpa [hsized.context] using hroom)
      have hdecodes : c.Decodes (promptFrame session request 0 prompt) .activation session request
          0 (([] : List (Cell H)).take 0) ((c.stage.model.tokenize prompt).map .token) :=
        Connection.Decodes.of_execute (f := promptFrame session request 0 prompt) hup hexecuted
          hsend.request hsend.session hs ⟨hat, hflag⟩ hexecute
      have hlength : (c.stage.model.tokenize prompt).length ≠ 0 := by simpa using hnil
      have hbatch : BatchFits context hidden .activation 0
          ((c.stage.model.tokenize prompt).map (Cell.token (H := H))).length := by
        rw [List.length_map]
        exact ⟨trivial, hlength, by simpa using hroom, hsend.size, fun hspec => by cases hspec⟩
      obtain ⟨input, hinput, hdone⟩ := relay_batch requireResult
        "replica has no stages" hsend.session hsend.request h.wired hdecodes
        hrest.waiting_opened hbatch le_rfl ⟨rfl, rfl, rfl⟩
      have hsamples := samples_tokens (modelsOf (c :: rest)) [] (c.stage.model.tokenize prompt)
      have hlast : ((c.stage.model.tokenize prompt).prefixMap fun b =>
          nextToken (modelsOf (c :: rest)) ([] ++ b)).getLastD 0 =
            nextToken (modelsOf (c :: rest)) (c.stage.model.tokenize prompt) := by
        obtain ⟨init, a, hconcat⟩ := List.eq_nil_or_concat _ |>.resolve_left hnil
        rw [List.concat_eq_append] at hconcat
        rw [hconcat, List.getLastD_eq_getLast?, List.getLast?_prefixMap]
        rfl
      refine ⟨_, ?_, hdone.models, ⟨?_, hdone.along⟩⟩
      · refine Prod.ext rfl ?_
        refine hdone.result.trans ?_
        rw [List.take_nil, ← List.map_nil (f := Cell.token), hsamples, List.length_map, htokens,
          ← hlast, Nat.zero_add]
        rcases hinput with rfl | ⟨rows, dtype, hrows, rfl⟩
        · exact requireResult_tailReply rfl rfl
            (by simpa [resultPosition, promptFrame, List.length_pos_iff] using hnil)
        · rw [List.length_map] at hrows
          exact requireResult_tailReply rfl rfl (by simp [resultPosition, hrows, hlength])
      · rw [hdone.models]
        exact h.wired
    · refine .inr ⟨hfits, ?_⟩
      have hbad : prompt = "" ∨ c.stage.model.tokenize prompt = [] ∨
          c.stage.model.contextSize < ([] : List (Cell H)).length +
            (c.stage.model.tokenize prompt).length := by
        by_contra hnone
        simp only [not_or, not_lt, List.length_nil, Nat.zero_add, hsized.context] at hnone
        exact hfits ⟨hnone.1, hnone.2.1, hnone.2.2⟩
      obtain ⟨e, he⟩ := Session.execute_prompt_refused session hready hsend.request
        hfirst hprompt hchat hbad
      obtain ⟨hexchange, -⟩ := Connection.exchange_executed
        (f := promptFrame session request 0 prompt) hup hexecuted hsend.request hsend.session hs
      have hreply : (c.exchange (promptFrame session request 0 prompt)).2 = .error e := by
        rw [hexchange]
        exact he
      refine ⟨e, ?_⟩
      cases rest with
      | nil => rw [routeStep, relay, hreply]
      | cons c' rest =>
        rw [routeStep, relay, hreply]
        exact List.cons_ne_nil _ _

/-- `rollback_all` on a route takes every stage back to the text up to the position. -/
lemma rollbackAll_along {cells : List (Cell H)} (hsession : session ≠ 0) (hrequest : request ≠ 0)
    (h : Along (Session.Running request) session cells stages) (hp : p ≤ cells.length) :
    (rollbackAll session request p stages).2 = .ok () ∧
      modelsOf (rollbackAll session request p stages).1 = modelsOf stages ∧
      Along (Session.Running request) session (cells.take p)
        (rollbackAll session request p stages).1 := by
  induction stages generalizing cells with
  | nil => exact ⟨rfl, rfl, trivial⟩
  | cons c rest ih =>
    obtain ⟨⟨hup, s, hs, hat, hprompt⟩, hrest⟩ := h
    obtain ⟨hok, hmodels, halong⟩ := ih hrest (by simpa using hp)
    have hsame : s.rollback c.stage.model (rollbackFrame session request p) =
        (s.truncate c.stage.model p).answer (ack (rollbackFrame session request p) p) := by
      have hposition := hat.position
      exact if_neg (by simp [rollbackFrame, Payload.isEmpty, hrequest, hat.active]; omega)
    have hhandle : c.stage.handle (rollbackFrame session request p) 0 (fun _ => true) =
        ({ c.stage with sessions := c.stage.sessions.insert session (s.truncate c.stage.model p) },
         [], .ok (ack (rollbackFrame session request p) p)) := by
      refine (Stage.onSession_of_lookup (f := rollbackFrame session request p) hsession hs
        (·.rollback c.stage.model (rollbackFrame session request p))).trans ?_
      rw [hsame]
      rfl
    have hexchange : c.exchange (rollbackFrame session request p) =
        (c.after (rollbackFrame session request p) 2,
          .ok (ack (rollbackFrame session request p) p)) := by
      rw [Connection.exchange_up hup, hhandle]
    have hack : requireAck (ack (rollbackFrame (H := H) session request p) p)
        (rollbackFrame session request p) = true := by
      simp [requireAck, ack, Payload.isEmpty]
    have hstep : rollbackAll session request p (c :: rest) =
        (c.after (rollbackFrame session request p) 2 :: (rollbackAll session request p rest).1,
          (rollbackAll session request p rest).2) := by
      rw [rollbackAll, hexchange]
      simp only [hack, Bool.not_true, Bool.false_eq_true, if_false]
      exact if_neg (by simp [ack])
    rw [hstep]
    refine ⟨hok, ?_, ⟨Connection.after_link hup, s.truncate c.stage.model p, ?_, ?_⟩, ?_⟩
    · rw [modelsOf_cons, modelsOf_cons, hmodels, Connection.after_model]
    · rw [Connection.after, hhandle]
      exact AList.lookup_insert _
    · exact ⟨hat.truncate hp, hprompt⟩
    · rw [Connection.after_model, Session.image_take]
      exact halong

/-- The stages of a route are all at the same position, so its end is acknowledged. -/
lemma controlFrom_endRequest {cells : List (Cell H)} (hsession : session ≠ 0)
    (hrequest : request ≠ 0) (h : Along (Session.Running request) session cells stages)
    {position : Option Nat} (hposition : ∀ n ∈ position, n = cells.length) :
    (controlFrom (controlFrame .endRequest session request) position stages).2 = .ok () := by
  induction stages generalizing cells position with
  | nil => rfl
  | cons c rest ih =>
    obtain ⟨⟨hup, s, hs, hat, hprompt⟩, hrest⟩ := h
    have hsame : (s.endRequest (controlFrame .endRequest session request)).reply =
        .ok (ack (controlFrame .endRequest session request) cells.length) := by
      simp [Session.endRequest, requireControl, emptyControl, controlFrame, Payload.isEmpty,
        hsession, hrequest, hat.active, hprompt, hat.position]
    have hhandle : (c.stage.handle (controlFrame .endRequest session request) 0
        (fun _ => true)).2.2 =
            .ok (ack (controlFrame .endRequest session request) cells.length) := by
      have hcontrol : ¬ (!requireControl (controlFrame (H := H) .endRequest session request) true)
          = true := by
        simp [requireControl, emptyControl, controlFrame, Payload.isEmpty, hsession, hrequest]
      have hon := Stage.onSession_of_lookup (f := controlFrame .endRequest session request) hsession
        hs (·.endRequest (controlFrame .endRequest session request))
      refine (congrArg (·.2.2) ((if_neg hcontrol).trans hon)).trans ?_
      exact hsame
    have hdiverged : ¬ ((controlFrame (H := H) .endRequest session request).type = .endRequest ∧
        position.any ((ack (controlFrame (H := H) .endRequest session request)
          cells.length).position ≠ ·) = true) := by
      rintro ⟨-, hany⟩
      cases position with
      | none => cases hany
      | some n => simp [ack, hposition n rfl] at hany
    have hack : requireAck (ack (controlFrame (H := H) .endRequest session request) cells.length)
        (controlFrame .endRequest session request) = true := by
      simp [requireAck, ack, Payload.isEmpty]
    rw [controlFrom, Connection.exchange_up hup, hhandle]
    simp only [hack, Bool.not_true, Bool.false_eq_true, if_false]
    rw [if_neg hdiverged]
    refine ih hrest ?_
    intro n hn
    rw [Session.length_image]
    simpa [ack] using hn.symm

end OnText

end ProviderOwned
