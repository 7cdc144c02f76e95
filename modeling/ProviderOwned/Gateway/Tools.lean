import ProviderOwned.Lib.Markers
import ProviderOwned.Gateway.Conversation

/-!
# Tool calls in a model's output

`toolTextStream` and `parseToolOutput` of `tools.go`: what of the output is text and what is a tool
call. The first one gets the output in pieces and passes the text on at once; the second one reads
the whole output at its end.
-/

namespace ProviderOwned.Gateway

open Markers

def toolMarks : Marks UInt8 where
  opening := ascii "<tool_call>"
  closing := ascii "</tool_call>"
  opening_ne_nil := by decide
  closing_ne_nil := by decide

/-! ### The text of a streamed output -/

structure ToolTextStream where
  pending : Text := []
  inCall : Bool := false
  deriving DecidableEq, Repr

namespace ToolTextStream

/-- The loop of `push`: what becomes visible, and the stream after it. -/
def scan (final : Bool) (s : ToolTextStream) : Text × ToolTextStream :=
  match _h : cut (toolMarks.marker s.inCall) s.pending with
  | some (before, after) =>
    let (visible, next) := scan final { pending := after, inCall := !s.inCall }
    ((if s.inCall then [] else before) ++ visible, next)
  | none =>
    if s.inCall then ([], s)
    else
      let keep := if final then 0 else overlap toolMarks.opening s.pending
      (s.pending.take (s.pending.length - keep),
        { s with pending := s.pending.drop (s.pending.length - keep) })
termination_by s.pending.length
decreasing_by exact length_lt_of_cut (toolMarks.marker_ne_nil _) _h

/-- `toolTextStream.push`. -/
def push (s : ToolTextStream) (text : Text) (final : Bool) : Text × ToolTextStream :=
  scan final { s with pending := s.pending ++ text }

/-- The pushes of several pieces that are not the last one. -/
def pushes (s : ToolTextStream) : List Text → Text × ToolTextStream
  | [] => ([], s)
  | piece :: pieces =>
    let (visible, next) := s.push piece false
    let (more, last) := next.pushes pieces
    (visible ++ more, last)

/-- What a stream shows of all pieces, with the final push behind them. -/
def streamed (pieces : List Text) : Text :=
  let (visible, last) := ({} : ToolTextStream).pushes pieces
  visible ++ (last.push [] true).1

variable {s : ToolTextStream} {final : Bool} {before after piece : Text} {pieces : List Text}

lemma scan_of_cut_some (h : cut (toolMarks.marker s.inCall) s.pending = some (before, after)) :
    scan final s =
      ((if s.inCall then [] else before) ++
        (scan final { pending := after, inCall := !s.inCall }).1,
        (scan final { pending := after, inCall := !s.inCall }).2) := by
  rw [scan]
  split
  · next heq =>
    rw [h] at heq
    cases heq
    rfl
  · next heq =>
    rw [h] at heq
    cases heq

lemma scan_of_cut_none (h : cut (toolMarks.marker s.inCall) s.pending = none) :
    scan final s =
      if s.inCall then ([], s)
      else
        let keep := if final then 0 else overlap toolMarks.opening s.pending
        (s.pending.take (s.pending.length - keep),
          { s with pending := s.pending.drop (s.pending.length - keep) }) := by
  rw [scan]
  split
  · next heq =>
    rw [h] at heq
    cases heq
  · rfl

/-- What a stream may hold between two pushes: outside of a call only a proper start of the opening
marker, in a call nothing that ends it. -/
def Held (s : ToolTextStream) : Prop :=
  if s.inCall then cut toolMarks.closing s.pending = none
  else s.pending <+: toolMarks.opening ∧ s.pending ≠ toolMarks.opening

lemma held_empty : Held {} := ⟨List.nil_prefix, toolMarks.opening_ne_nil.symm⟩

/-- What was shown and what the stream holds make up the text outside of the calls, whatever
follows. -/
structure Shows (s : ToolTextStream) (shown : Text) (next : ToolTextStream) : Prop where
  strip : ∀ v, shown ++ toolMarks.strip next.inCall (next.pending ++ v) =
    toolMarks.strip s.inCall (s.pending ++ v)
  held : next.Held
  pending : next.pending <:+ s.pending

lemma shows_call (h : cut (toolMarks.marker s.inCall) s.pending = none) (hcall : s.inCall = true) :
    Shows s [] s := by
  rw [hcall] at h
  refine ⟨fun _ => rfl, ?_, List.suffix_refl _⟩
  rw [Held, if_pos hcall]
  exact h

lemma shows_text (h : cut (toolMarks.marker s.inCall) s.pending = none) (hcall : s.inCall = false) :
    Shows s (s.pending.take (s.pending.length - overlap toolMarks.opening s.pending))
      { s with
        pending := s.pending.drop (s.pending.length - overlap toolMarks.opening s.pending) } := by
  rw [hcall] at h
  have hne := toolMarks.opening_ne_nil
  obtain ⟨hsplit, hclear⟩ := clear_of_overlap (cut_eq_none h) hne
  have hdrop : s.pending.drop (s.pending.length - overlap toolMarks.opening s.pending) =
      toolMarks.opening.take (overlap toolMarks.opening s.pending) := by
    apply List.append_cancel_left
    rw [List.take_append_drop]
    exact hsplit
  refine ⟨fun v => ?_, ?_, List.drop_suffix _ _⟩
  · have := Marks.strip_append false (hclear v)
    rw [hcall, hdrop]
    conv_rhs => rw [hsplit, List.append_assoc]
    exact this.symm
  · rw [Held, hcall, if_neg Bool.false_ne_true, hdrop]
    refine ⟨List.take_prefix _ _, fun heq => ?_⟩
    have hlt := overlap_lt hne s.pending
    have := congrArg List.length heq
    rw [List.length_take] at this
    omega

/-- One run of the loop that is not the last one. -/
lemma scan_shows (s : ToolTextStream) : Shows s (scan false s).1 (scan false s).2 := by
  induction hn : s.pending.length using Nat.strong_induction_on generalizing s with
  | _ n ih =>
    subst hn
    cases hcut : cut (toolMarks.marker s.inCall) s.pending with
    | some split =>
      obtain ⟨before, after⟩ := split
      have hlt := length_lt_of_cut (toolMarks.marker_ne_nil _) hcut
      obtain ⟨hstrip, hheld, hpending⟩ := ih _ hlt { pending := after, inCall := !s.inCall } rfl
      obtain ⟨htext, hclear⟩ := cut_eq_some (toolMarks.marker_ne_nil _) hcut
      rw [scan_of_cut_some hcut]
      refine ⟨fun v => ?_, hheld, hpending.trans ?_⟩
      · rw [List.append_assoc, hstrip, htext, List.append_assoc, List.append_assoc,
          Marks.strip_append _ (clear_append hclear), Marks.strip_marker]
      · rw [htext, ← List.append_assoc]
        exact List.suffix_append _ after
    | none =>
      rw [scan_of_cut_none hcut]
      cases hcall : s.inCall with
      | true =>
        rw [if_pos rfl]
        exact shows_call hcut hcall
      | false =>
        rw [if_neg Bool.false_ne_true]
        have := shows_text hcut hcall
        rwa [hcall] at this

/-- The last run shows what is outside of the calls. -/
lemma scan_final (s : ToolTextStream) : (scan true s).1 = toolMarks.strip s.inCall s.pending := by
  induction hn : s.pending.length using Nat.strong_induction_on generalizing s with
  | _ n ih =>
    subst hn
    cases hcut : cut (toolMarks.marker s.inCall) s.pending with
    | some split =>
      obtain ⟨before, after⟩ := split
      have hlt := length_lt_of_cut (toolMarks.marker_ne_nil _) hcut
      rw [scan_of_cut_some hcut, ih _ hlt _ rfl, Marks.strip_of_cut_some hcut]
    | none =>
      rw [scan_of_cut_none hcut, Marks.strip_of_cut_none hcut]
      cases s.inCall with
      | true => rfl
      | false => simp

lemma pushes_shows (s : ToolTextStream) (pieces : List Text) :
    (∀ v, (s.pushes pieces).1 ++
        toolMarks.strip (s.pushes pieces).2.inCall ((s.pushes pieces).2.pending ++ v) =
      toolMarks.strip s.inCall (s.pending ++ (pieces.flatten ++ v))) ∧
      (s.pushes pieces).2.pending <:+ s.pending ++ pieces.flatten := by
  induction pieces generalizing s with
  | nil => simp [pushes]
  | cons piece pieces ih =>
    obtain ⟨hstrip, -, hpending⟩ := scan_shows { s with pending := s.pending ++ piece }
    obtain ⟨hmore, hsuffix⟩ := ih (s.push piece false).2
    simp only [pushes, List.flatten_cons]
    constructor
    · intro v
      rw [List.append_assoc, hmore]
      exact (hstrip _).trans (by simp only [List.append_assoc])
    · obtain ⟨r, hr⟩ := hpending
      refine hsuffix.trans ⟨r, ?_⟩
      rw [← List.append_assoc, ← List.append_assoc]
      exact congrArg (· ++ pieces.flatten) hr

lemma pushes_concat (s : ToolTextStream) (pieces : List Text) (piece : Text) :
    s.pushes (pieces ++ [piece]) =
      ((s.pushes pieces).1 ++ ((s.pushes pieces).2.push piece false).1,
        ((s.pushes pieces).2.push piece false).2) := by
  induction pieces generalizing s with
  | nil => simp [pushes]
  | cons first pieces ih => simp [pushes, ih, List.append_assoc]

/-- A push leaves only what may be held. -/
lemma pushes_held (s : ToolTextStream) (hs : s.Held) (pieces : List Text) :
    (s.pushes pieces).2.Held := by
  induction pieces generalizing s with
  | nil => exact hs
  | cons piece pieces ih => exact ih _ (scan_shows _).held

/-- The pieces' text outside of the calls, whatever the pieces are. -/
lemma streamed_eq (pieces : List Text) :
    streamed pieces = toolMarks.strip false pieces.flatten := by
  obtain ⟨hstrip, -⟩ := pushes_shows {} pieces
  have := hstrip []
  rw [List.append_nil, List.append_nil, List.nil_append] at this
  have hlast := scan_final (({} : ToolTextStream).pushes pieces).2
  rw [← this, ← hlast]
  simp [streamed, push]

/-- **Tool-call filtering does not depend on the pieces.** However the output is cut, what is shown
is the text outside of the calls, as if it were pushed at once. After any pushes what was shown is
the start of it, all but an end of the pushed text that may still begin the opening marker. -/
theorem streamed_of_pieces (pieces : List Text) :
    streamed pieces = toolMarks.strip false pieces.flatten ∧
      streamed pieces = streamed [pieces.flatten] ∧
      streamed pieces = (({} : ToolTextStream).push pieces.flatten true).1 ∧
      ∀ first rest, pieces = first ++ rest →
        (({} : ToolTextStream).pushes first).1 <+: streamed pieces ∧
        ∃ held, toolMarks.strip false first.flatten =
          (({} : ToolTextStream).pushes first).1 ++ held ∧
          held <:+ first.flatten ∧ held <+: toolMarks.opening ∧ held ≠ toolMarks.opening := by
  refine ⟨streamed_eq pieces, ?_, ?_, ?_⟩
  · rw [streamed_eq, streamed_eq]
    simp
  · rw [streamed_eq, push, scan_final]
    rfl
  · rintro first rest rfl
    obtain ⟨hstrip, hsuffix⟩ := pushes_shows {} first
    have hheld := pushes_held {} held_empty first
    constructor
    · rw [streamed_eq, List.flatten_append]
      have := hstrip rest.flatten
      rw [List.nil_append] at this
      rw [← this]
      exact List.prefix_append _ _
    · have := hstrip []
      rw [List.append_nil, List.append_nil, List.nil_append] at this
      refine ⟨_, this.symm, ?_⟩
      cases hcall : (({} : ToolTextStream).pushes first).2.inCall with
      | true =>
        rw [Held, hcall, if_pos rfl] at hheld
        rw [Marks.strip_of_cut_none (show cut (toolMarks.marker true) _ = none from hheld),
          if_pos rfl]
        exact ⟨List.nil_suffix, List.nil_prefix, toolMarks.opening_ne_nil.symm⟩
      | false =>
        rw [Held, hcall, if_neg Bool.false_ne_true] at hheld
        rw [Marks.strip_of_short hheld.1 hheld.2]
        exact ⟨hsuffix, hheld⟩

end ToolTextStream

/-! ### The tool calls of a whole output -/

structure ToolCall where
  id : Text
  type : Text
  name : Text
  arguments : Text
  deriving DecidableEq, Repr

/-- What `decoder.Decode` reads into `payload`, and its `InputOffset` behind it. -/
structure CallPayload where
  name : Text
  arguments : Text
  offset : Nat
  deriving DecidableEq, Repr

/-- The JSON package: the first value of a text as a payload, and whether a text is an object. -/
structure JsonReader where
  decode : Text → Option CallPayload
  isObject : Text → Bool

def jsonArguments (json : JsonReader) (arguments : Text) : Except String Text :=
  if json.isObject arguments then .ok arguments else .error "tool arguments must be a JSON object"

/-- The encodings of the characters `unicode.IsSpace` is true of. -/
def spaceRunes : List Text :=
  [[0x09], [0x0A], [0x0B], [0x0C], [0x0D], [0x20], [0xC2, 0x85], [0xC2, 0xA0], [0xE1, 0x9A, 0x80],
    [0xE2, 0x80, 0x80], [0xE2, 0x80, 0x81], [0xE2, 0x80, 0x82], [0xE2, 0x80, 0x83],
    [0xE2, 0x80, 0x84], [0xE2, 0x80, 0x85], [0xE2, 0x80, 0x86], [0xE2, 0x80, 0x87],
    [0xE2, 0x80, 0x88], [0xE2, 0x80, 0x89], [0xE2, 0x80, 0x8A], [0xE2, 0x80, 0xA8],
    [0xE2, 0x80, 0xA9], [0xE2, 0x80, 0xAF], [0xE2, 0x81, 0x9F], [0xE3, 0x80, 0x80]]

/-- The text without the `runes` at its start, after `skip` more bytes of one. -/
def trimStart (runes : List Text) : Nat → Text → Text
  | _, [] => []
  | skip + 1, _ :: text => trimStart runes skip text
  | 0, c :: text =>
    match runes.find? fun rune => rune.isPrefixOf (c :: text) with
    | some rune => trimStart runes (rune.length - 1) text
    | none => c :: text

/-- `strings.TrimSpace`. -/
def trimSpace (text : Text) : Text :=
  (trimStart (spaceRunes.map List.reverse) 0 (trimStart spaceRunes 0 text).reverse).reverse

/-- `strings.TrimLeft(text, " \r\n\t")`. -/
def trimBlank (text : Text) : Text := text.dropWhile fun c => (ascii " \r\n\t").contains c

/-- A tool call of an output: the text before it, what stands between its markers, and the call. -/
structure CallSpan where
  before : Text
  inner : Text
  call : ToolCall
  deriving DecidableEq, Repr

section ToolOutput

variable (json : JsonReader) (names : Text → Bool) (id : Text)

/-- One round of `parseToolOutput` behind an opening marker; `n` calls were read before it. With the
call come what stands before the closing marker and what follows it. -/
def readCall (n : Nat) (after : Text) : Except String (ToolCall × Text × Text) :=
  match json.decode after with
  | none => .error "invalid model tool call"
  | some payload =>
    if !names payload.name then .error "invalid model tool call"
    else
      let rest := trimBlank (after.drop payload.offset)
      if ¬ toolMarks.closing <+: rest then .error "incomplete model tool call"
      else do
        let args ← jsonArguments json payload.arguments
        let call : ToolCall :=
          { id := ascii "call_" ++ id ++ ascii "_" ++ ascii (toString n), type := ascii "function"
            name := payload.name, arguments := args }
        return (call, after.take (after.length - rest.length), rest.drop toolMarks.closing.length)

variable {json names id}

lemma readCall_ok {n : Nat} {after inner rest : Text} {call : ToolCall}
    (h : readCall json names id n after = .ok (call, inner, rest)) :
    after = inner ++ (toolMarks.closing ++ rest) := by
  unfold readCall at h
  cases hdecode : json.decode after with
  | none =>
    rw [hdecode] at h
    cases h
  | some payload =>
    simp only [hdecode] at h
    split_ifs at h with hname hclosing
    cases hargs : jsonArguments json payload.arguments with
    | error e =>
      rw [hargs] at h
      cases h
    | ok args =>
      rw [hargs] at h
      cases h
      have hsuffix : trimBlank (after.drop payload.offset) <:+ after :=
        (List.dropWhile_suffix _).trans (List.drop_suffix _ _)
      obtain ⟨e, he⟩ := hsuffix
      obtain ⟨rest, hrest⟩ := hclosing
      rw [← hrest, List.drop_left, hrest]
      have hlen : after.length - (trimBlank (after.drop payload.offset)).length = e.length := by
        have := congrArg List.length he
        rw [List.length_append] at this
        omega
      have htake : after.take e.length = e := by
        conv_lhs => rw [← he]
        exact List.take_left
      rw [hlen, htake]
      exact he.symm

lemma length_lt_of_readCall {n : Nat} {output before after inner rest : Text} {call : ToolCall}
    (hcut : cut toolMarks.opening output = some (before, after))
    (h : readCall json names id n after = .ok (call, inner, rest)) : rest.length <
      output.length := by
  have hlt := length_lt_of_cut toolMarks.opening_ne_nil hcut
  rw [readCall_ok h] at hlt
  simp only [List.length_append] at hlt
  omega

variable (json names id)

/-- The calls of an output with the text before each, and the text behind the last one: the loop of
`parseToolOutput`, after `n` calls. -/
def callSpans (n : Nat) (output : Text) : Except String (List CallSpan × Text) :=
  match _hcut : cut toolMarks.opening output with
  | none => .ok ([], output)
  | some (before, after) =>
    match _hread : readCall json names id n after with
    | .error e => .error e
    | .ok (call, inner, rest) =>
      (callSpans (n + 1) rest).map fun read => ({ before, inner, call } :: read.1, read.2)
termination_by output.length
decreasing_by exact length_lt_of_readCall _hcut _hread

def outsideText (spans : List CallSpan) (last : Text) : Text :=
  spans.flatMap CallSpan.before ++ last

def parseToolOutput (output : Text) : Except String (Text × List ToolCall) := do
  let (spans, last) ← callSpans json names id 0 output
  let content := outsideText spans last
  if toolMarks.closing <:+: content then .error "invalid model tool call"
  else if spans = [] then return (content, [])
  else return (trimSpace content, spans.map CallSpan.call)

variable {json names id}

lemma callSpans_of_cut_none {n : Nat} {output : Text} (h : cut toolMarks.opening output = none) :
    callSpans json names id n output = .ok ([], output) := by
  rw [callSpans]
  split
  · rfl
  · next heq =>
    rw [h] at heq
    cases heq

lemma callSpans_of_read {n : Nat} {output before after inner rest : Text} {call : ToolCall}
    (h : cut toolMarks.opening output = some (before, after))
    (hread : readCall json names id n after = .ok (call, inner, rest)) :
    callSpans json names id n output =
      (callSpans json names id (n + 1) rest).map
        fun read => ({ before, inner, call } :: read.1, read.2) := by
  rw [callSpans]
  split
  · next heq =>
    rw [h] at heq
    cases heq
  · next heq =>
    rw [h] at heq
    cases heq
    split
    · next heq =>
      rw [hread] at heq
      cases heq
    · next heq =>
      rw [hread] at heq
      cases heq
      rfl

lemma callSpans_of_error {n : Nat} {output before after : Text} {e : String}
    (h : cut toolMarks.opening output = some (before, after))
    (hread : readCall json names id n after = .error e) :
    callSpans json names id n output = .error e := by
  rw [callSpans]
  split
  · next heq =>
    rw [h] at heq
    cases heq
  · next heq =>
    rw [h] at heq
    cases heq
    split
    · next heq =>
      rw [hread] at heq
      cases heq
      rfl
    · next heq =>
      rw [hread] at heq
      cases heq

/-! ### Text and calls agree -/

lemma toolMarks_apart : toolMarks.Apart 60 where
  opening := ⟨ascii "tool_call>", by decide, by decide⟩
  closing := ⟨ascii "/tool_call>", by decide, by decide⟩
  opening_closing := by decide
  closing_opening := by decide

/-- What a stream shows of the calls of an output. -/
lemma strip_of_callSpans {n : Nat} {output last : Text} {spans : List CallSpan}
    (h : callSpans json names id n output = .ok (spans, last)) :
    toolMarks.strip false output =
      (spans.flatMap fun span =>
        span.before ++ toolMarks.strip true (span.inner ++ toolMarks.closing)) ++ last := by
  induction hn : output.length using Nat.strong_induction_on generalizing n output spans with
  | _ len ih =>
    subst hn
    cases hcut : cut toolMarks.opening output with
    | none =>
      rw [callSpans_of_cut_none hcut] at h
      cases h
      exact Marks.strip_of_cut_none hcut
    | some split =>
      obtain ⟨before, after⟩ := split
      cases hread : readCall json names id n after with
      | error e =>
        rw [callSpans_of_error hcut hread] at h
        cases h
      | ok read =>
        obtain ⟨call, inner, rest⟩ := read
        rw [callSpans_of_read hcut hread] at h
        cases hspans : callSpans json names id (n + 1) rest with
        | error e =>
          rw [hspans] at h
          cases h
        | ok more =>
          rw [hspans] at h
          cases h
          have hmore := ih _ (length_lt_of_readCall hcut hread) hspans rfl
          have hcall := Marks.strip_of_cut_some (show cut (toolMarks.marker false) _ = _ from hcut)
          rw [readCall_ok hread, Bool.not_false, Marks.strip_append_closing toolMarks_apart, hmore]
            at hcall
          rw [hcall, if_neg Bool.false_ne_true, List.flatMap_cons]
          simp only [List.append_assoc]

lemma length_flatMap_before (shown : CallSpan → Text) (spans : List CallSpan) :
    (spans.flatMap fun span => span.before ++ shown span).length =
      (spans.flatMap CallSpan.before).length + (spans.flatMap shown).length := by
  induction spans with
  | nil => rfl
  | cons span spans ih =>
    simp only [List.flatMap_cons, List.length_append, ih]
    omega

/-- What is shown is what stands outside of the calls just if nothing of a call is shown. -/
lemma flatMap_eq_outsideText_iff (shown : CallSpan → Text) (spans : List CallSpan) (last : Text) :
    (spans.flatMap fun span => span.before ++ shown span) ++ last = outsideText spans last ↔
      ∀ span ∈ spans, shown span = [] := by
  rw [outsideText, List.append_left_inj]
  constructor
  · intro h
    have hlen := congrArg List.length h
    rw [length_flatMap_before] at hlen
    apply List.flatMap_eq_nil_iff.mp
    apply List.length_eq_zero_iff.mp
    omega
  · intro h
    apply List.flatMap_congr
    intro span hspan
    rw [h span hspan, List.append_nil]

/-- The streamed text is the content that is returned, up to white space where there are calls, and
nothing of a call is in it. -/
def StreamAgrees (shown content : Text) (calls : List ToolCall) (outside : Text) : Prop :=
  (if calls = [] then shown = content else trimSpace shown = content) ∧ shown = outside

/-- Every closing marker between the markers of a call is directly followed by an opening marker. -/
def CallSpan.Reopens (span : CallSpan) : Prop :=
  ∀ y, toolMarks.closing ++ y <:+ span.inner → toolMarks.opening <+: y

/-- **A streamed output agrees with its parsed calls** just if every closing marker that stands in a
call is directly followed by an opening marker. -/
theorem streamed_agrees_iff {pieces : List Text} {content : Text} {calls : List ToolCall}
    (h : parseToolOutput json names id pieces.flatten = .ok (content, calls)) :
    ∃ spans last, callSpans json names id 0 pieces.flatten = .ok (spans, last) ∧
      (StreamAgrees (ToolTextStream.streamed pieces) content calls (outsideText spans last) ↔
        ∀ span ∈ spans, span.Reopens) := by
  unfold parseToolOutput at h
  cases hspans : callSpans json names id 0 pieces.flatten with
  | error e =>
    rw [hspans] at h
    cases h
  | ok read =>
    obtain ⟨spans, last⟩ := read
    refine ⟨spans, last, rfl, ?_⟩
    have hshown : ToolTextStream.streamed pieces = outsideText spans last ↔
        ∀ span ∈ spans, span.Reopens := by
      rw [ToolTextStream.streamed_eq, strip_of_callSpans hspans, flatMap_eq_outsideText_iff]
      simp only [Marks.strip_true_eq_nil_iff toolMarks_apart, CallSpan.Reopens]
    rw [← hshown]
    apply and_iff_right_of_imp
    intro heq
    rw [heq]
    rw [hspans] at h
    change (if toolMarks.closing <:+: outsideText spans last then _
      else if spans = [] then _ else _) = _ at h
    split_ifs at h with hclosing hnil
    · cases h
      rw [if_pos rfl]
    · cases h
      rw [if_neg]
      exact fun hcalls => hnil (List.map_eq_nil_iff.mp hcalls)

end ToolOutput

/-! ### A call of one tool -/

def callJson (arguments : Text) : Text :=
  ascii "\x7b\"name\":\"lookup\",\"arguments\":" ++ arguments ++ ascii "\x7d"

/-- The JSON package on texts that begin with this call. -/
def callReader (arguments : Text) : JsonReader where
  decode text :=
    if callJson arguments <+: text then
      some { name := ascii "lookup", arguments, offset := (callJson arguments).length }
    else none
  isObject text := text = arguments

def callOutput (arguments : Text) : Text :=
  toolMarks.opening ++ callJson arguments ++ toolMarks.closing

/-- The call as `parseToolOutput` returns it. -/
def lookupCall (arguments : Text) : ToolCall where
  id := ascii "call_1_0"
  type := ascii "function"
  name := ascii "lookup"
  arguments := arguments

lemma parseToolOutput_callOutput {arguments : Text}
    (hcut : cut toolMarks.opening (callOutput arguments) =
      some ([], callJson arguments ++ toolMarks.closing))
    (hread : readCall (callReader arguments) (· = ascii "lookup") (ascii "1") 0
        (callJson arguments ++ toolMarks.closing) =
      .ok (lookupCall arguments, callJson arguments, [])) :
    parseToolOutput (callReader arguments) (· = ascii "lookup") (ascii "1") (callOutput arguments) =
      .ok ([], [lookupCall arguments]) := by
  rw [parseToolOutput, callSpans_of_read hcut hread, callSpans_of_cut_none (by decide)]
  rfl

/-- The argument `x` is a closing marker. -/
def markerArguments : Text := ascii "\x7b\"x\":\"</tool_call>\"\x7d"

/-- The call is parsed and leaves no text, and a part of it is shown. -/
theorem streamed_markerArguments :
    parseToolOutput (callReader markerArguments) (· = ascii "lookup") (ascii "1")
        (callOutput markerArguments) = .ok ([], [lookupCall markerArguments]) ∧
      trimSpace (ToolTextStream.streamed [callOutput markerArguments]) =
        ascii "\"\x7d\x7d</tool_call>" ∧
      trimSpace (ToolTextStream.streamed [callOutput markerArguments]) ≠ [] := by
  refine ⟨parseToolOutput_callOutput (by decide +kernel) (by decide +kernel), ?_⟩
  rw [ToolTextStream.streamed_eq]
  decide +kernel

/-- A call without arguments, cut in its opening marker. -/
theorem streamed_agrees_lookup :
    ∃ spans last,
      callSpans (callReader (ascii "\x7b\x7d")) (· = ascii "lookup") (ascii "1") 0
          [ascii "<tool", (callOutput (ascii "\x7b\x7d")).drop 5].flatten = .ok (spans, last) ∧
        StreamAgrees
          (ToolTextStream.streamed [ascii "<tool", (callOutput (ascii "\x7b\x7d")).drop 5]) []
          [lookupCall (ascii "\x7b\x7d")] (outsideText spans last) := by
  have hcut : cut toolMarks.opening (callOutput (ascii "\x7b\x7d")) =
      some ([], callJson (ascii "\x7b\x7d") ++ toolMarks.closing) := by
    decide +kernel
  have hread : readCall (callReader (ascii "\x7b\x7d")) (· = ascii "lookup") (ascii "1") 0
      (callJson (ascii "\x7b\x7d") ++ toolMarks.closing) =
        .ok (lookupCall (ascii "\x7b\x7d"), callJson (ascii "\x7b\x7d"), []) := by
    decide +kernel
  have hclosing : ¬ toolMarks.closing <:+: callJson (ascii "\x7b\x7d") := by decide +kernel
  have hparse : parseToolOutput (callReader (ascii "\x7b\x7d")) (· = ascii "lookup") (ascii "1")
      [ascii "<tool", (callOutput (ascii "\x7b\x7d")).drop 5].flatten =
        .ok ([], [lookupCall (ascii "\x7b\x7d")]) := parseToolOutput_callOutput hcut hread
  obtain ⟨spans, last, hspans, hagrees⟩ := streamed_agrees_iff hparse
  refine ⟨spans, last, hspans, hagrees.mpr fun span hspan y hy => ?_⟩
  have hrest : callSpans (callReader (ascii "\x7b\x7d")) (· = ascii "lookup") (ascii "1") 1 [] =
      .ok ([], []) := callSpans_of_cut_none (by decide)
  have hcall := callSpans_of_read hcut hread
  rw [hrest] at hcall
  obtain ⟨rfl, rfl⟩ := Prod.mk.inj (Except.ok.inj (hspans.symm.trans hcall))
  obtain rfl := List.mem_singleton.mp hspan
  exact absurd ((List.prefix_append _ y).isInfix.trans hy.isInfix) hclosing

end ProviderOwned.Gateway
