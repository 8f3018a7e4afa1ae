import TypeAtlas.Wire.Connection
import TypeAtlas.Wire.Lines
/-!
# Endpoints

A connection at work. Bytes arrive and are cut into lines; a request is given to the handler of its
key, which may change the state that the handlers share, and its result is sent; an answer finishes
a call. What happens is told in order: first what needs no handler, then the results of the
handlers.
-/

namespace TypeAtlas

/-- What a handler makes of a request and of the state of the handlers. -/
abbrev Handler (σ : Type) := Json → σ → Except Failure Json × σ

/-- Something that happens at an endpoint. -/
inductive Occasion (κ : Type) where
  | sent (envelope : Envelope)
  | finished (call : κ) (answer : Except WireError Payload)

/-- The envelope that is sent. -/
def Occasion.envelope? {κ : Type} : Occasion κ → Option Envelope
  | sent envelope => some envelope
  | finished .. => none

/-- A connection with its input and its handlers. -/
structure Endpoint (σ κ : Type) where
  connection : Connection κ
  handlers : List (String × Handler σ) := []
  /-- What the handlers work on. -/
  state : σ
  stream : LineStream := {}

namespace Endpoint

variable {σ κ : Type}

/-- A new endpoint. -/
def new (side : Side) (state : σ) : Endpoint σ κ where
  connection := .new side
  state

/-- Sets the handler of a key. -/
def setHandler (e : Endpoint σ κ) (key : String) (handler : Handler σ) : Endpoint σ κ :=
  { e with
    connection := e.connection.addKey key
    handlers := (key, handler) :: e.handlers.filter (·.1 != key) }

/-- Removes the handler of a key; also whether there was one. -/
def removeHandler (e : Endpoint σ κ) (key : String) : Bool × Endpoint σ κ :=
  let (removed, connection) := e.connection.removeKey key
  (removed, { e with connection, handlers := e.handlers.filter (·.1 != key) })

/-- Makes a call. -/
def call (e : Endpoint σ κ) (tag : κ) (key : String) (data : Json) :
    List (Occasion κ) × Endpoint σ κ :=
  let (envelope, connection) := e.connection.call tag key data
  let e := { e with connection }
  match envelope with
  | some envelope => ([.sent envelope], e)
  | none => ([.finished tag (.error .connectionClosed)], e)

/-- What the effect of a line makes happen at once. -/
def immediate : Effect κ → List (Occasion κ)
  | .reply envelope => [.sent envelope]
  | .deliver tag payload => [.finished tag (.ok payload)]
  | .handle .. | .ignored => []

/-- What the effect of a line leaves to a handler. -/
def handle (e : Endpoint σ κ) : Effect κ → List (Occasion κ) × Endpoint σ κ
  | .handle mid key data =>
    match e.handlers.lookup key with
    | none => ([], e)
    | some handler =>
      let (result, state) := handler data e.state
      ([.sent (Connection.reply mid key result)], { e with state })
  | .reply _ | .deliver .. | .ignored => ([], e)

/-- Lines go through the connection. -/
def effects (c : Connection κ) : List String → List (Effect κ) × Connection κ
  | [] => ([], c)
  | line :: lines =>
    let (effect, c) := c.receive line
    let (others, c) := effects c lines
    (effect :: others, c)

/-- The handlers do their work, in order. -/
def handleAll (e : Endpoint σ κ) : List (Effect κ) → List (Occasion κ) × Endpoint σ κ
  | [] => ([], e)
  | effect :: effects =>
    let (first, e) := e.handle effect
    let (others, e) := e.handleAll effects
    (first ++ others, e)

/-- Lines arrive together. The handlers do their work when all of them have been read. -/
def receive (e : Endpoint σ κ) (lines : List String) : List (Occasion κ) × Endpoint σ κ :=
  let (effects, connection) := effects e.connection lines
  let (replies, e) := { e with connection }.handleAll effects
  (effects.flatMap immediate ++ replies, e)

/-- No more lines arrive: the calls that wait are finished. -/
def shut (e : Endpoint σ κ) : List (Occasion κ) × Endpoint σ κ :=
  let (calls, connection) := e.connection.close
  (calls.map fun tag => .finished tag (.error .connectionClosed), { e with connection })

/-- Bytes arrive. Bytes that are no text end the input. -/
def push (e : Endpoint σ κ) (bytes : List UInt8) : List (Occasion κ) × Endpoint σ κ :=
  let (lines, stream) := e.stream.push bytes
  let (occasions, e) := { e with stream }.receive lines
  if stream.ended then
    let (last, e) := e.shut
    (occasions ++ last, e)
  else (occasions, e)

/-- The input ends. -/
def close (e : Endpoint σ κ) : List (Occasion κ) × Endpoint σ κ :=
  let (lines, stream) := e.stream.close
  let (occasions, e) := { e with stream }.receive lines
  let (last, e) := e.shut
  (occasions ++ last, e)

end Endpoint

end TypeAtlas
