import Mathlib.Algebra.Group.Nat.Defs
import Mathlib.Tactic.Common
import Mathlib.Tactic.TypeStar

/-!
# Frames of the provider-owned protocol

The frames of `protocol.hpp`. A payload is kept decoded: the byte layout of a token list, of an
activation block or of a sampled token is fixed by the frame type, so the model holds the decoded
value and the sizes the code compares are sizes of that value. The compute time that replies carry
is a measurement and is left out; a reply that consists of nothing else has the payload `timing`.
-/

namespace ProviderOwned

abbrev Token := Nat

/-- `protocol.hpp`: `enum class Type`. -/
inductive FrameType
  | error | createSession | resetSession | destroySession | prompt | token | activation | result
  | endRequest | ack | metrics | shutdown | commitToken | commitActivation | cancelRequest
  | clientResult | providerAvailable | assignStage | stageReady | unloadStage
  | speculativeActivation | rollback | promptChunk | streamPrompt | clientChunk | reserve
  | releaseRoute | prepareChat
  deriving DecidableEq, Repr

/-- `protocol.hpp`: `enum class DType`. -/
inductive DType
  | none | f32le | f16le | fp8e4m3
  deriving DecidableEq, Repr

def activationDtype (dtype : DType) : Bool :=
  dtype = .f32le || dtype = .f16le || dtype = .fp8e4m3

def maxPayload : Nat := 64 * 1024 * 1024

/-- `speculation.hpp`: the widest verify batch, the current token included. -/
def maxSpeculativeWidth : Nat := 32

/-- A decoded payload; `H` is one row of a boundary activation as the next stage reads it. -/
inductive Payload (H : Type*)
  | empty
  | text (message : String)
  | tokens (ids : List Token)
  | hidden (rows : List H) (guesses : List Token)
  | sampled (token : Token) (eog : Bool) (piece : String)
  | verified (samples : List Token)
  | timing
  deriving DecidableEq, Repr

/-- `protocol.hpp`: `struct Frame`, with its defaults. -/
structure Frame (H : Type*) where
  type : FrameType := .error
  session : Nat := 0
  request : Nat := 0
  position : Nat := 0
  rows : Nat := 0
  cols : Nat := 0
  dtype : DType := .none
  payload : Payload H := .empty
  deriving DecidableEq, Repr

variable {H : Type*}

def Payload.isEmpty : Payload H → Bool
  | .empty => true
  | .text message => message.isEmpty
  | .tokens ids => ids.isEmpty
  | .hidden _ _ | .sampled _ _ _ | .verified _ | .timing => false

/-- The token ids of a `token` or `commit_token` payload of exactly `count` ids. -/
def Payload.tokenIds (count : Nat) : Payload H → Option (List Token)
  | .tokens ids => if ids.length = count then some ids else none
  | _ => none

/-- The text of a prompt, a chat request or an error. -/
def Payload.message : Payload H → String
  | .text message => message
  | _ => ""

/-- `what()` of an exception with this text: C++ reads it up to its first zero byte. -/
def what (text : String) : String := String.ofList (text.toList.takeWhile (· ≠ '\x00'))

/-- The id, end flag and text of a sampled token: a result payload of 13 bytes and more. -/
def Payload.sample : Payload H → Option (Token × Bool × String)
  | .sampled token eog piece => some (token, eog, piece)
  | _ => none

def errorFrame (source : Frame H) (message : String) : Frame H :=
  { type := .error, session := source.session, request := source.request, payload := .text message }

def emptyControl (frame : Frame H) : Bool :=
  frame.position = 0 && frame.rows = 0 && frame.cols = 0 && frame.dtype = .none &&
    frame.payload.isEmpty

@[simp] lemma errorFrame_type (f : Frame H) (e : String) : (errorFrame f e).type = .error := rfl

@[simp] lemma errorFrame_session (f : Frame H) (e : String) :
    (errorFrame f e).session = f.session := rfl

@[simp] lemma errorFrame_request (f : Frame H) (e : String) :
    (errorFrame f e).request = f.request := rfl

@[simp] lemma errorFrame_message (f : Frame H) (e : String) :
    (errorFrame f e).payload.message = e := rfl

@[simp] lemma what_empty : what "" = "" := rfl

@[simp] lemma activationDtype_f32le : activationDtype .f32le = true := rfl

end ProviderOwned
