import Mathlib.Data.List.Perm.Basic
import Mathlib.Data.Prod.Basic
import Mathlib.Logic.Function.Basic
import ProviderOwned.Stage.Properties

/-!
# Continuous batching

`Stage::decode_batch` runs the ready frames of several sessions in one call of llama.cpp, with
checks and bookkeeping of its own. `decodes` says which rows llama.cpp decodes: the sequences of one
batch are independent, so a batch is decoded if each of its frames is. A token outside the
vocabulary is not.
-/

namespace ProviderOwned

variable {H : Type*}

/-- The one row of an activation payload that carries nothing else. -/
def Payload.row : Payload H → Option H
  | .hidden [row] [] => some row
  | _ => none

lemma Payload.row_eq_some {payload : Payload H} {row : H} (h : payload.row = some row) :
    payload = .hidden [row] [] := by
  cases payload with
  | hidden rows guesses =>
    rcases rows with _ | ⟨found, _ | ⟨other, rows⟩⟩
    · cases h
    · cases guesses with
      | nil => exact Option.some.inj h ▸ rfl
      | cons guess guesses => cases h
    · cases h
  | _ => cases h

namespace Session

/-- `Stage::batchable`, on the session a frame names. -/
def batchable (m : StageModel H) (s : Session H) (f : Frame H) : Bool :=
  f.request ≠ 0 && s.activeRequest = f.request && s.hasPrompt && f.position = s.position &&
    f.position < m.contextSize &&
    if m.first then
      f.type = .token && f.rows = 0 && f.cols = 0 && f.dtype =
        .none && (f.payload.tokenIds 1).isSome
    else
      f.type = .activation && f.rows = 1 && f.cols = m.hidden && activationDtype f.dtype &&
        f.payload.row.isSome

/-- What a batch decodes for a frame: its token or its row. -/
def batchCell (m : StageModel H) (f : Frame H) : Option (Cell H) :=
  if m.first then ((f.payload.tokenIds 1).bind List.head?).map .token else f.payload.row.map .hidden

/-- The bookkeeping of a decoded batch for one of its frames, and the frame's output. -/
def afterBatch (m : StageModel H) (s : Session H) (f : Frame H) (cell : Cell H) :
    Session H × Frame H :=
  let before := s.kv
  let s := { s with
    position := s.position + 1
    kv := s.kv ++ [cell]
    history := match cell with
      | .token id => s.history ++ [id]
      | .hidden _ => s.history }
  let output : Frame H := { f with rows := 0, cols := 0, dtype := .none, payload := .empty }
  if m.last then
    let token := (s.sample m).1
    ((s.sample m).2, { output with
      type := .result
      position := s.position
      payload := .sampled token (m.isEog token) (m.piece token) })
  else
    (s, { output with
      type := .activation
      rows := 1
      cols := m.hidden
      dtype := m.wire
      payload := .hidden [m.embed (before ++ [cell])] [] })

end Session

namespace Stage

def batchable (st : Stage H) (f : Frame H) : Bool :=
  match st.sessions.lookup f.session with
  | none => false
  | some s => s.batchable st.model f

/-- The checks of `decode_batch` on one frame, and what it has to decode. -/
def batchRow (st : Stage H) (vocabulary : Nat) (f : Frame H) : Except String (Cell H) :=
  if !st.batchable f then .error "invalid decode batch"
  else
    match st.requireSession f, Session.batchCell st.model f with
    | .error message, _ => .error message
    | .ok _, some (.token id) => if vocabulary ≤ id then .error "invalid token in decode batch"
      else .ok (.token id)
    | .ok _, some cell => .ok cell
    | .ok _, none => .error "invalid decode batch"

/-- The loop of `decode_batch` over the frames it decoded. -/
def finishBatch : Stage H → List (Frame H × Cell H) → Stage H × Except String (List (Frame H))
  | st, [] => (st, .ok [])
  | st, (f, cell) :: rest =>
    match st.requireSession f with
    | .error message => (st, .error message)
    | .ok s =>
      let after := s.afterBatch st.model f cell
      let finished := finishBatch { st with sessions := st.sessions.insert f.session after.1 } rest
      (finished.1, finished.2.map (after.2 :: ·))

def decodeBatch (st : Stage H) (vocabulary : Nat) (decodes : Frame H → Bool)
    (inputs : List (Frame H)) :
    Stage H × Except String (List (Frame H)) :=
  match inputs.mapM (st.batchRow vocabulary) with
  | .error message => (st, .error message)
  | .ok cells =>
    if inputs.all decodes then st.finishBatch (inputs.zip cells)
      else (st, .error "batched decode failed")

/-- Calls `handle` on one frame after the other, as long as it answers. -/
def handleAll (decodes : Frame H → Bool) : Stage H → List (Frame H) →
    Stage H × Except String (List (Frame H))
  | st, [] => (st, .ok [])
  | st, f :: rest =>
    match st.handle f 0 fun _ => decodes f with
    | (st, _, .error message) => (st, .error message)
    | (st, _, .ok reply) =>
      let handled := handleAll decodes st rest
      (handled.1, handled.2.map (reply :: ·))

end Stage

/-! ### One frame -/

namespace Session

variable {m : StageModel H} {s : Session H} {f : Frame H} {ok : Nat → Bool}

/-- What `batchable` finds of a frame and its session, whatever the stage's place. -/
structure Batchable (m : StageModel H) (s : Session H) (f : Frame H) : Prop where
  request : f.request ≠ 0
  active : s.activeRequest = f.request
  hasPrompt : s.hasPrompt = true
  position : f.position = s.position
  room : f.position < m.contextSize

lemma batchable_fields (h : s.batchable m f) : Batchable m s f := by
  simp only [batchable, Bool.and_eq_true, decide_eq_true_eq] at h
  exact ⟨h.1.1.1.1.1, h.1.1.1.1.2, h.1.1.1.2, h.1.1.2, h.1.2⟩

/-- A frame of a first stage holds one token. -/
lemma token_of_batchable (h : s.batchable m f) (hfirst : m.first) :
    f.type = .token ∧ f.rows = 0 ∧ f.cols = 0 ∧ f.dtype = .none ∧ ∃ id, f.payload.tokenIds 1 =
      some [id] := by
  simp only [batchable, hfirst, if_true, Bool.and_eq_true, decide_eq_true_eq] at h
  obtain ⟨-, ⟨⟨⟨htype, hrows⟩, hcols⟩, hdtype⟩, hsome⟩ := h
  refine ⟨htype, hrows, hcols, hdtype, ?_⟩
  obtain ⟨ids, hids⟩ := Option.isSome_iff_exists.mp hsome
  have hlength : ids.length = 1 := by
    cases hpayload : f.payload <;> rw [hpayload] at hids <;> simp only [Payload.tokenIds] at hids
    all_goals first | cases hids | skip
    split_ifs at hids with hone
    exact Option.some.inj hids ▸ hone
  obtain ⟨id, rfl⟩ := List.length_eq_one_iff.mp hlength
  exact ⟨id, hids⟩

/-- A frame of a later stage holds one row. -/
lemma row_of_batchable (h : s.batchable m f) (hfirst : ¬ m.first) :
    f.type = .activation ∧ f.rows = 1 ∧ f.cols = m.hidden ∧ activationDtype f.dtype ∧
      ∃ row, f.payload = .hidden [row] [] := by
  rw [Bool.not_eq_true] at hfirst
  simp only [batchable, hfirst, Bool.false_eq_true, if_false, Bool.and_eq_true, decide_eq_true_eq]
    at h
  obtain ⟨-, ⟨⟨⟨htype, hrows⟩, hcols⟩, hdtype⟩, hsome⟩ := h
  refine ⟨htype, hrows, hcols, hdtype, ?_⟩
  obtain ⟨row, hrow⟩ := Option.isSome_iff_exists.mp hsome
  exact ⟨row, Payload.row_eq_some hrow⟩

lemma enter_batchable (h : s.batchable m f) : s.enter m f = .ok s := by
  have hready := batchable_fields h
  have hplain : ¬ (f.type = .speculativeActivation ∨ (f.type = .token ∧ f.rows ≠ 0)) := by
    by_cases hfirst : m.first
    · obtain ⟨htype, hrows, -⟩ := token_of_batchable h hfirst
      simp [htype, hrows]
    · obtain ⟨htype, -⟩ := row_of_batchable h hfirst
      simp [htype]
  have hactive : s.activeRequest ≠ 0 := hready.active ▸ hready.request
  have hsame : { s with activeRequest := f.request } = s := by rw [← hready.active]
  have hrewind : s.rewind m f.position = s :=
    if_neg (by rw [hready.position]; exact Nat.lt_irrefl _)
  rw [enter, if_neg hready.request, if_neg (fun hor => hplain hor.2.2),
    if_neg (fun hor => hactive hor.1), if_neg (fun hor => hor.2 hready.active), hsame, hrewind]

lemma rowsOf_singleton (m : StageModel H) (kv : List (Cell H)) (cell : Cell H) :
    rowsOf m kv [cell] = [m.embed (kv ++ [cell])] := rfl

/-- A batchable token on the single path. -/
lemma runFirst_batchable (h : s.batchable m f) (hfirst : m.first) {reply : Frame H}
    (hreply : (s.runFirst m f 0 ok).reply = .ok reply) :
    ∃ id, f.payload.tokenIds 1 = some [id] ∧ ok 0 ∧ s.runFirst m f 0 ok =
      (s.afterBatch m f (.token id)).1.answer (s.afterBatch m f (.token id)).2 := by
  have hready := batchable_fields h
  obtain ⟨htype, hrows, hcols, hdtype, id, hid⟩ := token_of_batchable h hfirst
  have hsingle : isSpeculative f = false := by simp [isSpeculative, hrows]
  have hroom : ¬ m.contextSize - s.position < 1 := by
    have := hready.room
    have := hready.position
    omega
  have hrun : s.runFirst m f 0 ok = s.finalBatch m f [id] (ok 0) [] := by
    simp [runFirst, runToken, runTokens, prefill, hsingle, htype, hid, hrows, hcols, hdtype,
      hready.position, hready.hasPrompt, hroom]
  have hok : ok 0 := by
    by_contra hfail
    rw [hrun, finalBatch, if_pos (by simpa using hfail)] at hreply
    cases hreply
  refine ⟨id, hid, hok, ?_⟩
  rw [hrun, hok, finalBatch, afterBatch]
  simp only [Bool.not_true, Bool.false_eq_true, if_false, htype, hsingle, reduceCtorEq]
  split_ifs
  · rfl
  · have houtput : s.firstActivation m f .activation [id] =
        { f with type := .activation, rows := 1, cols := m.hidden, dtype := m.wire,
                 payload := .hidden [m.embed (s.kv ++ [.token id])] [] } := by
      rw [firstActivation, ← hready.position]
      rfl
    rw [houtput]
    rfl

/-- The checks that the later stages make hold of a batchable row, if it fits a payload. -/
lemma takeRows_batchable (h : s.batchable m f) (hfirst : ¬ m.first) {bad : String} {rows : List H}
    (hrows : s.takeRows m f bad = .ok rows) : ∃ row, f.payload = .hidden [row] [] ∧
      rows = [row] := by
  obtain ⟨htype, hone, -, -, row, hpayload⟩ := row_of_batchable h hfirst
  refine ⟨row, hpayload, ?_⟩
  have hpayloadRows : payloadRows f = some [row] := by
    simp [payloadRows, guessCount, hpayload, hone, htype]
  rw [takeRows, hpayloadRows] at hrows
  split_ifs at hrows
  exact (Except.ok.inj hrows).symm

lemma notePrompt_batchable (h : s.batchable m f) (type : FrameType) : s.notePrompt type = s := by
  have hprompt := (batchable_fields h).hasPrompt
  have hsame : { s with hasPrompt := true } = s := by rw [← hprompt]
  rw [notePrompt, hprompt, Bool.true_or, Bool.true_or]
  exact hsame

/-- A batchable row on the single path of the last stage. -/
lemma runLast_batchable (h : s.batchable m f) (hfirst : ¬ m.first) (hlast : m.last)
    {reply : Frame H} (hreply : (s.runLast m f ok).reply = .ok reply) :
    ∃ row, f.payload = .hidden [row] [] ∧ ok 0 ∧ s.runLast m f ok =
      (s.afterBatch m f (.hidden row)).1.answer (s.afterBatch m f (.hidden row)).2 := by
  obtain ⟨htype, -⟩ := row_of_batchable h hfirst
  rw [runLast, htype] at hreply ⊢
  simp only [reduceCtorEq, false_and, if_false] at hreply ⊢
  cases hrows : s.takeRows m f "bad activation metadata" with
  | error e =>
    rw [hrows] at hreply
    cases hreply
  | ok rows =>
    obtain ⟨row, hpayload, rfl⟩ := takeRows_batchable h hfirst hrows
    rw [hrows, notePrompt_batchable h] at hreply
    by_cases hok : ok 0
    · refine ⟨row, hpayload, hok, ?_⟩
      simp only [notePrompt_batchable h, hok, Bool.not_true, Bool.false_eq_true, if_false]
      rw [lastReply, htype, afterBatch]
      simp only [reduceCtorEq, or_self, if_false, hlast, if_true]
      rfl
    · simp only [hok, Bool.not_false, if_true] at hreply
      cases hreply

/-- A batchable row on the single path of a middle stage. -/
lemma runMiddle_batchable (h : s.batchable m f) (hfirst : ¬ m.first) (hlast : ¬ m.last)
    {reply : Frame H} (hreply : (s.runMiddle m f ok).reply = .ok reply) :
    ∃ row, f.payload = .hidden [row] [] ∧ ok 0 ∧ s.runMiddle m f ok =
      (s.afterBatch m f (.hidden row)).1.answer (s.afterBatch m f (.hidden row)).2 := by
  obtain ⟨htype, hone, hcols, -⟩ := row_of_batchable h hfirst
  rw [runMiddle] at hreply ⊢
  cases hrows : s.takeRows m f "bad middle-stage activation metadata" with
  | error e =>
    rw [hrows] at hreply
    cases hreply
  | ok rows =>
    obtain ⟨row, hpayload, rfl⟩ := takeRows_batchable h hfirst hrows
    rw [hrows, notePrompt_batchable h] at hreply
    by_cases hok : ok 0
    · refine ⟨row, hpayload, hok, ?_⟩
      have hguesses : carriedGuesses f = [] := by simp [carriedGuesses, hpayload]
      have houtput :
          ({ f with dtype := m.wire, payload := .hidden [m.embed (s.kv ++ [.hidden row])] [] } :
            Frame H) =
          { f with type := .activation, rows := 1, cols := m.hidden, dtype := m.wire,
                   payload := .hidden [m.embed (s.kv ++ [.hidden row])] [] } := by
        rw [← htype, ← hone, ← hcols]
      simp only [notePrompt_batchable h, hok, Bool.not_true, Bool.false_eq_true, if_false, hguesses,
        List.map_singleton, rowsOf_singleton, houtput, afterBatch, hlast]
      rfl
    · simp only [hok, Bool.not_false, if_true] at hreply
      cases hreply

/-- A batchable frame that the single path accepts is handled there as in a batch. -/
lemma execute_batchable (h : s.batchable m f) {reply : Frame H}
    (hreply : (s.execute m f 0 ok).reply = .ok reply) :
    ok 0 ∧ ∃ cell, batchCell m f = some cell ∧
      s.execute m f 0 ok = (s.afterBatch m f cell).1.answer (s.afterBatch m f cell).2 := by
  rw [execute, enter_batchable h] at hreply ⊢
  dsimp only at hreply ⊢
  split_ifs at hreply ⊢ with hfirst hlast
  · obtain ⟨id, hid, hok, hrun⟩ := runFirst_batchable h hfirst hreply
    refine ⟨hok, .token id, ?_, hrun⟩
    rw [batchCell, if_pos hfirst, hid]
    rfl
  · obtain ⟨row, hpayload, hok, hrun⟩ := runLast_batchable h hfirst hlast hreply
    refine ⟨hok, .hidden row, ?_, hrun⟩
    rw [batchCell, if_neg hfirst, hpayload]
    rfl
  · obtain ⟨row, hpayload, hok, hrun⟩ := runMiddle_batchable h hfirst hlast hreply
    refine ⟨hok, .hidden row, ?_, hrun⟩
    rw [batchCell, if_neg hfirst, hpayload]
    rfl

lemma tokenIds_of_batchCell (h : s.batchable m f) {id : Token}
    (hcell : batchCell m f = some (.token id)) :
    f.payload.tokenIds 1 = some [id] := by
  rw [batchCell] at hcell
  split_ifs at hcell with hfirst
  · obtain ⟨-, -, -, -, found, hfound⟩ := token_of_batchable h hfirst
    rw [hfound] at hcell ⊢
    obtain rfl : found = id := by simpa using hcell
    rfl
  · obtain ⟨row, -, hrow⟩ := Option.map_eq_some_iff.mp hcell
    cases hrow

end Session

/-! ### Several frames -/

namespace Stage

variable {st st' : Stage H} {f : Frame H} {fs : List (Frame H)} {outputs : List (Frame H)}
  {decodes : Frame H → Bool}

/-- The session and the output of a frame whose token or row was decoded. -/
def after (st : Stage H) (f : Frame H) : Option (Session H × Frame H) :=
  (st.sessions.lookup f.session).bind fun s =>
    (Session.batchCell st.model f).map fun cell => s.afterBatch st.model f cell

/-- Every frame has its output and its session after it, and no other session changed. -/
structure Advances (st : Stage H) (fs : List (Frame H)) (st' : Stage H) (outputs : List (Frame H)) :
    Prop where
  outputs : outputs.map some = fs.map fun f => (st.after f).map (·.2)
  sessions : ∀ f ∈ fs, st'.sessions.lookup f.session = (st.after f).map (·.1)
  others : ∀ id, id ∉ fs.map (·.session) → st'.sessions.lookup id = st.sessions.lookup id
  model : st'.model = st.model
  sequenceUsed : st'.sequenceUsed = st.sequenceUsed

lemma Advances.nil (st : Stage H) : Advances st [] st [] :=
  ⟨rfl, by simp, fun _ _ => rfl, rfl, rfl⟩

lemma after_insert (t : Session H) {id : Nat} (hne : f.session ≠ id) :
    after { st with sessions := st.sessions.insert id t } f = st.after f := by
  rw [after, after, AList.lookup_insert_ne hne]

/-- One frame, then the others. -/
lemma Advances.cons {a : Session H × Frame H} (hafter : st.after f = some a)
    (hnew : f.session ∉ fs.map (·.session))
    (h : Advances { st with sessions := st.sessions.insert f.session a.1 } fs st' outputs) :
    Advances st (f :: fs) st' (a.2 :: outputs) := by
  have hsame : ∀ g ∈ fs, after { st with sessions := st.sessions.insert f.session a.1 } g =
    st.after g :=
    fun g hg => after_insert _ fun heq => hnew (List.mem_map.mpr ⟨g, hg, heq⟩)
  refine ⟨?_, fun g hg => ?_, fun id hid => ?_, h.model, h.sequenceUsed⟩
  · rw [List.map_cons, List.map_cons, hafter, h.outputs, List.map_congr_left
      fun g hg => by rw [hsame g hg]]
    rfl
  · rcases List.mem_cons.mp hg with rfl | hg
    · rw [h.others _ hnew, hafter]
      exact AList.lookup_insert _
    · rw [h.sessions g hg, hsame g hg]
  · rw [List.map_cons, List.mem_cons, not_or] at hid
    rw [h.others id hid.2]
    exact AList.lookup_insert_ne hid.1

/-- A batchable frame that `handle` accepts. -/
structure Fits (st : Stage H) (decodes : Frame H → Bool) (f : Frame H) (s : Session H) : Prop where
  session : f.session ≠ 0
  lookup : st.sessions.lookup f.session = some s
  batchable : s.batchable st.model f
  accepted : ∃ reply, (s.execute st.model f 0 fun _ => decodes f).reply = .ok reply

/-- On a batchable frame `handle` runs `execute`. -/
lemma handle_batchable {s : Session H} (hbatchable : s.batchable st.model f) (chunk : Nat)
    (ok : Nat → Bool) :
    st.handle f chunk ok = st.onSession f (·.execute st.model f chunk ok) := by
  have hrequest := (Session.batchable_fields hbatchable).request
  have htype : f.type = .token ∨ f.type = .activation := by
    by_cases hfirst : st.model.first
    · exact .inl (Session.token_of_batchable hbatchable hfirst).1
    · exact .inr (Session.row_of_batchable hbatchable hfirst).1
  rcases htype with htype | htype
  · rw [handle, htype]
    exact if_neg hrequest
  · rw [handle, htype]
    exact if_neg hrequest

lemma fits (hbatchable : st.batchable f) {reply : Frame H}
    (haccepted : (st.handle f 0 fun _ => decodes f).2.2 = .ok reply) :
    ∃ s, Fits st decodes f s := by
  rw [batchable] at hbatchable
  cases hs : st.sessions.lookup f.session with
  | none =>
    rw [hs] at hbatchable
    cases hbatchable
  | some s =>
    rw [hs] at hbatchable
    rw [handle_batchable hbatchable] at haccepted
    by_cases hsession : f.session = 0
    · rw [onSession, requireSession, if_pos hsession] at haccepted
      cases haccepted
    · rw [onSession_of_lookup hsession hs] at haccepted
      exact ⟨s, hsession, hs, hbatchable, reply, haccepted⟩

lemma Fits.insert {s : Session H} (h : Fits st decodes f s) (t : Session H) {id : Nat}
    (hne : f.session ≠ id) :
    Fits { st with sessions := st.sessions.insert id t } decodes f s :=
  ⟨h.session, (AList.lookup_insert_ne hne).trans h.lookup, h.batchable, h.accepted⟩

/-- What `handle` does with such a frame. -/
lemma Fits.handle {s : Session H} (h : Fits st decodes f s) :
    ∃ cell, Session.batchCell st.model f = some cell ∧ decodes f ∧
      st.after f = some (s.afterBatch st.model f cell) ∧
      st.handle f 0 (fun _ => decodes f) =
        ({ st with sessions := st.sessions.insert f.session (s.afterBatch st.model f cell).1 }, [],
          .ok (s.afterBatch st.model f cell).2) := by
  obtain ⟨reply, hreply⟩ := h.accepted
  obtain ⟨hok, cell, hcell, hrun⟩ := Session.execute_batchable h.batchable hreply
  refine ⟨cell, hcell, hok, ?_, ?_⟩
  · rw [after, h.lookup, hcell]
    rfl
  · rw [handle_batchable h.batchable, onSession_of_lookup h.session h.lookup, hrun]
    rfl

/-- One call of `handle` after the other. -/
lemma handleAll_advances (hfits : ∀ f ∈ fs, ∃ s, Fits st decodes f s)
    (hnodup : (fs.map (·.session)).Nodup) :
    ∃ st' outputs, handleAll decodes st fs = (st', .ok outputs) ∧ Advances st fs st' outputs := by
  induction fs generalizing st with
  | nil => exact ⟨st, [], rfl, Advances.nil st⟩
  | cons f fs ih =>
    obtain ⟨hnew, hnodup⟩ := List.nodup_cons.mp hnodup
    obtain ⟨s, hs⟩ := hfits f List.mem_cons_self
    obtain ⟨cell, -, -, hafter, hhandle⟩ := hs.handle
    have hrest : ∀ g ∈ fs, ∃ s',
        Fits { st with sessions := st.sessions.insert f.session (s.afterBatch st.model f cell).1 }
            decodes g s' := by
      intro g hg
      obtain ⟨s', hs'⟩ := hfits g (List.mem_cons_of_mem _ hg)
      exact ⟨s', hs'.insert _ fun heq => hnew (List.mem_map.mpr ⟨g, hg, heq⟩)⟩
    obtain ⟨st', outputs, hall, hadvances⟩ := ih hrest hnodup
    refine ⟨st', (s.afterBatch st.model f cell).2 :: outputs, ?_, hadvances.cons hafter hnew⟩
    rw [handleAll, hhandle]
    dsimp only
    rw [hall]
    rfl

/-- The loop of `decode_batch` after the call of llama.cpp. -/
lemma finishBatch_advances {cells : List (Cell H)} (hfits : ∀ f ∈ fs, ∃ s, Fits st decodes f s)
    (hnodup : (fs.map (·.session)).Nodup)
    (hcells : cells.map some = fs.map (Session.batchCell st.model)) :
    ∃ st' outputs, st.finishBatch (fs.zip cells) = (st', .ok outputs) ∧
      Advances st fs st' outputs := by
  induction fs generalizing st cells with
  | nil => exact ⟨st, [], by rw [List.zip_nil_left, finishBatch], Advances.nil st⟩
  | cons f fs ih =>
    obtain ⟨hnew, hnodup⟩ := List.nodup_cons.mp hnodup
    obtain ⟨s, hs⟩ := hfits f List.mem_cons_self
    obtain ⟨cell, hcell, -, hafter, -⟩ := hs.handle
    cases cells with
    | nil => cases hcells
    | cons found cells =>
      rw [List.map_cons, List.map_cons, List.cons.injEq, hcell] at hcells
      obtain ⟨hfound, hcells⟩ := hcells
      obtain rfl := Option.some.inj hfound
      have hrest : ∀ g ∈ fs, ∃ s',
          Fits { st with sessions := st.sessions.insert f.session
                           (s.afterBatch st.model f found).1 } decodes g s' := by
        intro g hg
        obtain ⟨s', hs'⟩ := hfits g (List.mem_cons_of_mem _ hg)
        exact ⟨s', hs'.insert _ fun heq => hnew (List.mem_map.mpr ⟨g, hg, heq⟩)⟩
      obtain ⟨st', outputs, hfinish, hadvances⟩ := ih hrest hnodup hcells
      refine ⟨st', (s.afterBatch st.model f found).2 :: outputs, ?_, hadvances.cons hafter hnew⟩
      have hrequire : st.requireSession f = .ok s := by
        rw [requireSession, if_neg hs.session, hs.lookup]
      rw [List.zip_cons_cons, finishBatch, hrequire]
      dsimp only
      rw [hfinish]
      rfl

/-- The checks of `decode_batch` pass. -/
lemma mapM_batchRow {vocabulary : Nat}
    (hvocabulary : ∀ f id, decodes f → f.payload.tokenIds 1 = some [id] → id < vocabulary)
    (hfits : ∀ f ∈ fs, ∃ s, Fits st decodes f s) :
    ∃ cells, fs.mapM (st.batchRow vocabulary) = .ok cells ∧
      cells.map some = fs.map (Session.batchCell st.model) := by
  induction fs with
  | nil => exact ⟨[], rfl, rfl⟩
  | cons f fs ih =>
    obtain ⟨s, hs⟩ := hfits f List.mem_cons_self
    obtain ⟨cell, hcell, hok, -, -⟩ := hs.handle
    obtain ⟨cells, hrows, hcells⟩ := ih fun g hg => hfits g (List.mem_cons_of_mem _ hg)
    have hbatchable : st.batchable f := by
      rw [batchable, hs.lookup]
      exact hs.batchable
    have hrow : st.batchRow vocabulary f = .ok cell := by
      rw [batchRow, hbatchable, requireSession, if_neg hs.session, hs.lookup, hcell]
      cases cell with
      | token id =>
        have hid := hvocabulary f id hok (Session.tokenIds_of_batchCell hs.batchable hcell)
        exact if_neg (Nat.not_le.mpr hid)
      | hidden row => rfl
    refine ⟨cell :: cells, ?_, ?_⟩
    · rw [List.mapM_cons, hrow, hrows]
      rfl
    · rw [List.map_cons, List.map_cons, hcells, hcell]

/-! ### A batch is its frames, one by one -/

lemma Advances.zip_eq (h : Advances st fs st' outputs) :
    (fs.zip outputs).map (Prod.map id some) = fs.map fun f => (f, (st.after f).map (·.2)) := by
  have hzip := List.zip_map' (l := fs) (f := id) (g := fun f => (st.after f).map (·.2))
  rw [List.map_id] at hzip
  rw [← List.zip_map, h.outputs, List.map_id, hzip]
  rfl

lemma Advances.length_eq (h : Advances st fs st' outputs) : outputs.length = fs.length := by
  simpa using congrArg List.length h.outputs

/-- The order of the frames does not matter. -/
lemma Advances.perm {fs' : List (Frame H)} {st'' : Stage H} {outputs' : List (Frame H)}
    (h : Advances st fs st' outputs) (h' : Advances st fs' st'' outputs') (hperm : fs'.Perm fs) :
    (fs'.zip outputs').Perm (fs.zip outputs) ∧ ∀ id, st''.sessions.lookup id =
      st'.sessions.lookup id := by
  constructor
  · have hinj : Function.Injective (Prod.map id some : Frame H × Frame H →
        Frame H × Option (Frame H)) :=
      Function.Injective.prodMap Function.injective_id fun _ _ => Option.some.inj
    rw [← List.map_perm_map_iff hinj, h.zip_eq, h'.zip_eq]
    exact hperm.map _
  · intro id
    by_cases hid : id ∈ fs.map (·.session)
    · obtain ⟨f, hf, rfl⟩ := List.mem_map.mp hid
      rw [h.sessions f hf, h'.sessions f (hperm.mem_iff.mpr hf)]
    · have hid' : id ∉ fs'.map (·.session) := fun hmem => hid ((hperm.map _).mem_iff.mp hmem)
      rw [h.others id hid, h'.others id hid']

/-- A batch of frames of different sessions that `handle` accepts, each by itself, gives each of
them the output and the session that `handle` gives, in whatever order `handle` is called on
them. -/
theorem decodeBatch_eq_handle (st : Stage H) (inputs : List (Frame H)) {vocabulary : Nat}
    {decodes : Frame H → Bool}
    (hvocabulary : ∀ f id, decodes f → f.payload.tokenIds 1 = some [id] → id < vocabulary)
    (hsessions : (inputs.map (·.session)).Nodup) (hbatchable : ∀ f ∈ inputs, st.batchable f)
    (haccepted : ∀ f ∈ inputs, ∃ reply, (st.handle f 0 fun _ => decodes f).2.2 = .ok reply) :
    ∃ st₁ outputs, st.decodeBatch vocabulary decodes inputs = (st₁, .ok outputs) ∧
      outputs.length = inputs.length ∧
      ∀ order : List (Frame H), order.Perm inputs →
        ∃ st₂ replies, handleAll decodes st order = (st₂, .ok replies) ∧
          replies.length = order.length ∧
          (order.zip replies).Perm (inputs.zip outputs) ∧
          ∀ id, st₂.sessions.lookup id = st₁.sessions.lookup id := by
  have hfits : ∀ f ∈ inputs, ∃ s, Fits st decodes f s := by
    intro f hf
    obtain ⟨reply, hreply⟩ := haccepted f hf
    exact fits (hbatchable f hf) hreply
  have hall : inputs.all decodes := by
    refine List.all_eq_true.mpr fun f hf => ?_
    obtain ⟨s, hs⟩ := hfits f hf
    obtain ⟨cell, -, hok, -, -⟩ := hs.handle
    exact hok
  obtain ⟨cells, hrows, hcells⟩ := mapM_batchRow hvocabulary hfits
  obtain ⟨st₁, outputs, hfinish, hbatch⟩ := finishBatch_advances hfits hsessions hcells
  refine ⟨st₁, outputs, ?_, hbatch.length_eq, fun order horder => ?_⟩
  · rw [decodeBatch, hrows]
    dsimp only
    rw [if_pos hall, hfinish]
  · obtain ⟨st₂, replies, hhandle, hsingle⟩ := handleAll_advances
      (fun f hf => hfits f (horder.mem_iff.mp hf)) ((horder.map _).nodup_iff.mpr hsessions)
    obtain ⟨hzip, hlookup⟩ := hbatch.perm hsingle horder
    exact ⟨st₂, replies, hhandle, hsingle.length_eq, hzip, hlookup⟩

def tenTokens : StageModel Unit where
  first := true
  last := false
  contextSize := 8
  maxSessions := 2
  hidden := 1
  wire := .f32le
  tokenize := fun _ => [7]
  embed := fun _ => ()
  greedy := fun _ => 0
  chat := fun _ _ => 0
  template := fun _ => none
  piece := fun _ => "a"
  isEog := fun _ => false

def promptedSession (sequence : Nat) : Session Unit :=
  { sequence, position := 1, activeRequest := 1, hasPrompt := true, history := [7],
    kv := [.token 7] }

def promptedStage : Stage Unit where
  model := tenTokens
  sessions := ((∅ : AList fun _ : Nat => Session Unit).insert 1 (promptedSession 0)).insert 2
    (promptedSession 1)
  sequenceUsed := [true, true]

def nextToken (session : Nat) (id : Token) : Frame Unit :=
  { type := .token, session, request := 1, position := 1, payload := .tokens [id] }

/-- What llama.cpp decodes: tokens of the vocabulary. -/
def known (f : Frame Unit) : Bool := (f.payload.tokenIds 1).all fun ids => ids.all (· < 10)

theorem decodeBatch_eq_handle_two :
    ∃ st₁ outputs, promptedStage.decodeBatch 10 known [nextToken 1 3, nextToken 2 4] =
      (st₁, .ok outputs) ∧
      ∃ st₂ replies, handleAll known promptedStage [nextToken 2 4, nextToken 1 3] =
        (st₂, .ok replies) ∧
        ∀ id, st₂.sessions.lookup id = st₁.sessions.lookup id := by
  have hknown : ∀ f id, known f → f.payload.tokenIds 1 = some [id] → id < 10 := by
    intro f id hf hid
    simpa [known, hid] using hf
  obtain ⟨st₁, outputs, hbatch, -, horders⟩ := decodeBatch_eq_handle promptedStage
    [nextToken 1 3, nextToken 2 4] hknown (by decide) (by simp; decide)
      (by simp; exact ⟨⟨_, rfl⟩, ⟨_, rfl⟩⟩)
  obtain ⟨st₂, replies, hhandle, -, -, hlookup⟩ := horders _ (List.Perm.swap _ _ [])
  exact ⟨st₁, outputs, hbatch, st₂, replies, hhandle, hlookup⟩

end Stage

end ProviderOwned
