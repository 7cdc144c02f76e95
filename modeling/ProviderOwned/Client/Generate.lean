import ProviderOwned.Client.Basic
import ProviderOwned.Stage.Batch

/-!
# A request, stage by stage

`generate` of `client.cpp`: the prompt, then one token at a time, or, with a drafter, one verify
batch at a time, and the end of the request. The measurements it collects and the ring's direct
return are left out.

A sink is asked about every piece in turn and may remember what it was asked before, so it is a
function of all pieces up to this one.
-/

namespace ProviderOwned

variable {H σ : Type*}

/-- `TokenSink`: whether to go on after these pieces. No sink is one that always says yes. -/
abbrev TokenSink := List String → Bool

/-- `struct RequestResult`, with the pieces the sink was offered. -/
structure RequestResult where
  output : String := ""
  tokenIds : List Token := []
  offered : List String := []
  position : Nat := 0
  finalToken : Token := 0
  eog : Bool := false
  cancelled : Bool := false
  deriving DecidableEq, Repr

def RequestResult.appendToken (sink : TokenSink) (out : RequestResult) (token : Token)
    (piece : String) : RequestResult :=
  { out with
    output := out.output ++ piece
    tokenIds := out.tokenIds ++ [token]
    offered := out.offered ++ [piece]
    cancelled := !sink (out.offered ++ [piece]) }

/-- `append_token` and the assignments that go with it everywhere. -/
def RequestResult.record (sink : TokenSink) (out : RequestResult) (token : Token) (piece : String)
    (eog : Bool) : RequestResult :=
  { out.appendToken sink token piece with finalToken := token, eog }

/-- `class Drafter`, with the state it keeps. -/
structure Drafter (σ : Type*) where
  start : σ → String → σ × Nat
  propose : σ → Token → Nat → σ × List Token
  rollback : σ → Nat → σ
  piece : Token → String
  isEog : Token → Bool

/-- A drafter in use: its state and the number of tokens it is asked for (`draft_tokens`). -/
structure Speculation (σ : Type*) where
  drafter : Drafter σ
  state : σ
  draftTokens : Nat

/-- What a call needs to know about its request. -/
structure Call where
  hidden : Nat
  session : Nat
  request : Nat
  limit : Nat
  sink : TokenSink

/-- The loop over the guesses of a round: the result after the accepted ones, how many there are,
and whether one of them ended the request. -/
def acceptGuesses (d : Drafter σ) (sink : TokenSink) :
    List Token → List Token → RequestResult → RequestResult × Nat × Bool
  | guess :: guesses, token :: tokens, out =>
    if guess = token then
      if (out.record sink guess (d.piece guess) (d.isEog guess)).cancelled ∨
          (out.record sink guess (d.piece guess) (d.isEog guess)).eog then
        (out.record sink guess (d.piece guess) (d.isEog guess), 1, true)
      else
        ((acceptGuesses d sink guesses tokens
            (out.record sink guess (d.piece guess) (d.isEog guess))).1,
         (acceptGuesses d sink guesses tokens
            (out.record sink guess (d.piece guess) (d.isEog guess))).2.1 + 1,
         (acceptGuesses d sink guesses tokens
            (out.record sink guess (d.piece guess) (d.isEog guess))).2.2)
    else (out, 0, false)
  | _, _, out => (out, 0, false)

/-- The rest of a round once its batch came back as `tokens`: the correction after the accepted
guesses, and the position to go on from. -/
def settleRound (c : Call) (spec : Speculation σ) (out : RequestResult) (count : Nat)
    (guesses tokens : List Token) : Except String (Speculation σ × RequestResult) :=
  let (taken, accepted, stopped) := acceptGuesses spec.drafter c.sink guesses tokens out
  let corrected :=
    if !stopped ∧ accepted < guesses.length then
      taken.record c.sink (tokens.getD accepted 0) (spec.drafter.piece (tokens.getD accepted 0))
        (spec.drafter.isEog (tokens.getD accepted 0))
    else taken
  let keepPosition := out.position + if stopped then accepted else min count (accepted + 1)
  let produced :=
    if stopped then accepted else if accepted < guesses.length then accepted + 1 else accepted
  if produced = 0 then .error "speculative round produced no token"
  else .ok ({ spec with state := spec.drafter.rollback spec.state keepPosition },
    { corrected with position := keepPosition })

def draftRound (c : Call) (spec : Speculation σ) (stages : List (Connection H))
    (out : RequestResult) :
    List (Connection H) × Except String (Speculation σ × RequestResult) :=
  let count := min spec.draftTokens (c.limit - out.tokenIds.length)
  let (state, guesses) := spec.drafter.propose spec.state out.finalToken count
  let block := tokensFrame .token c.session c.request out.position count
    (out.finalToken :: guesses.take (count - 1))
  match routeSpeculative stages block c.hidden with
  | (stages, .error e) => (stages, .error e)
  | (stages, .ok tokens) => (stages, settleRound c { spec with state } out count guesses tokens)

def plainRound (c : Call) (stages : List (Connection H)) (out : RequestResult) :
    List (Connection H) × Except String RequestResult :=
  match routeStep stages (tokensFrame .token c.session c.request out.position 0 [out.finalToken])
      c.hidden with
  | (stages, .error e) => (stages, .error e)
  | (stages, .ok result) =>
    (stages, .ok { out.record c.sink result.token result.text result.eog with
      position := result.position })

/-- The condition of the loop of `generate`. -/
def Call.goesOn (c : Call) (out : RequestResult) : Bool :=
  out.tokenIds.length < c.limit && !out.eog && !out.cancelled

/-- The loop of `generate`. Every round adds a token, so `c.limit` rounds are enough. -/
def decodeLoop (c : Call) :
    Nat → Option (Speculation σ) → List (Connection H) → RequestResult →
      List (Connection H) × Except String RequestResult
  | 0, _, stages, _ => (stages, .error "the loop of generate did not end")
  | fuel + 1, draft, stages, out =>
    if c.goesOn out then
      match draft with
      | none =>
        match plainRound c stages out with
        | (stages, .error e) => (stages, .error e)
        | (stages, .ok out) => decodeLoop c fuel none stages out
      | some spec =>
        match draftRound c spec stages out with
        | (stages, .error e) => (stages, .error e)
        | (stages, .ok (spec, out)) => decodeLoop c fuel (some spec) stages out
    else (stages, .ok out)

/-- The end of a request on the stages: undone if it was cancelled, else committed. -/
def settleRequest (c : Call) (position : Nat) (preserve : Bool) (stages : List (Connection H))
    (out : RequestResult) : List (Connection H) × Except String RequestResult :=
  if out.cancelled then
    match rollbackAll c.session c.request position stages with
    | (stages, .error e) => (stages, .error e)
    | (stages, .ok ()) => (stages, .ok out)
  else if preserve then
    match commitFinalToken stages c.session c.request out.position out.finalToken c.hidden with
    | (stages, .error e) => (stages, .error e)
    | (stages, .ok ()) => (stages, .ok { out with position := out.position + 1 })
  else (stages, .ok out)

/-- `settleRequest` and the `end_request` after it. -/
def closeRequest (c : Call) (position : Nat) (preserve : Bool) (stages : List (Connection H))
    (out : RequestResult) : List (Connection H) × Except String RequestResult :=
  match settleRequest c position preserve stages out with
  | (stages, .error e) => (stages, .error e)
  | (stages, .ok out) =>
    match controlAll stages .endRequest c.session c.request with
    | (stages, .error e) => (stages, .error e)
    | (stages, .ok ()) => (stages, .ok out)

/-- The drafter reads the prompt, which has to give it as many tokens as the target. -/
def startDraft (position : Nat) (prompt : String) (result : Result) :
    Option (Speculation σ) → Except String (Option (Speculation σ))
  | none => .ok none
  | some spec =>
    let (state, count) := spec.drafter.start spec.state prompt
    if position ≠ 0 ∨ count ≠ result.position ∨ spec.drafter.piece result.token ≠ result.text then
      .error "draft and target tokenizers do not match"
    else .ok (some { spec with state })

/-- `generate` up to the end of its loop: the prompt, and the tokens after it. A limit below one
acts as zero: the prompt's own token is always taken. -/
def decodeAnswer (c : Call) (stages : List (Connection H)) (position : Nat) (prompt : String)
    (draft : Option (Speculation σ)) : List (Connection H) × Except String RequestResult :=
  match routeStep stages (promptFrame c.session c.request position prompt) c.hidden with
  | (stages, .error e) => (stages, .error e)
  | (stages, .ok result) =>
    match startDraft position prompt result draft with
    | .error e => (stages, .error e)
    | .ok draft =>
      decodeLoop c (c.limit + 1) draft stages
        { RequestResult.record c.sink {} result.token result.text result.eog with
          position := result.position }

def generate (c : Call) (stages : List (Connection H)) (position : Nat) (prompt : String)
    (preserve : Bool) (draft : Option (Speculation σ)) :
    List (Connection H) × Except String RequestResult :=
  match decodeAnswer c stages position prompt draft with
  | (stages, .error e) => (stages, .error e)
  | (stages, .ok out) => closeRequest c position preserve stages out

end ProviderOwned
