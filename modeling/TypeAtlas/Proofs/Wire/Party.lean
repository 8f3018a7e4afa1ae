import TypeAtlas.Proofs.Wire.Link
import TypeAtlas.Wire.Endpoint
/-!
# One end of a connection

A `Party` is one end of a connection whose peer may send anything. What happens to it is an `Event`:
a handler is registered or removed, a call is made, a line arrives, a handler returns, the input
ends. Handlers return whenever they like, with whatever result. A log tells what was sent and which
calls are finished; calls are known by their place among all calls.

`requests` and `fate?` say what the events ask for, without a party: which requests are to be
replied to, and how a call comes out.
-/

namespace TypeAtlas

/-- Something that happens to one end of a connection. -/
inductive Event where
  | addKey (key : String)
  | removeKey (key : String)
  | call (key : String) (data : Json)
  | line (text : String)
  /-- The handler of a task returns. -/
  | returned (task : ℕ) (result : Except Failure Json)
  | ended

/-- One end of a connection. -/
structure Party where
  connection : Connection ℕ
  /-- How many calls were made. -/
  calls : ℕ := 0
  /-- Requests that handlers work on. -/
  tasks : List Request := []
  /-- What was sent and which calls are finished, in order. -/
  log : List (Occasion ℕ) := []

namespace Party

/-- A new end. -/
def new (side : Side) : Party where
  connection := .new side

/-- Makes a call. -/
def call (p : Party) (key : String) (data : Json) : Party :=
  let (envelope, connection) := p.connection.call p.calls key data
  { p with
    connection
    calls := p.calls + 1
    log := p.log ++ [match envelope with
      | some envelope => .sent envelope
      | none => .finished p.calls (.error .connectionClosed)] }

/-- What an effect gives to a handler. -/
def taskOf? : Effect ℕ → Option Request
  | .handle mid key data => some ⟨mid, key, data⟩
  | .ignored | .reply _ | .deliver .. => none

/-- Reads a line. After the end of the input nothing is read. -/
def receive (p : Party) (text : String) : Party :=
  if p.connection.closed then p
  else
    let (effect, connection) := p.connection.receive text
    { p with
      connection
      tasks := p.tasks ++ (taskOf? effect).toList
      log := p.log ++ Endpoint.immediate effect }

/-- Sends the result of a task. -/
def complete (p : Party) (task : ℕ) (result : Except Failure Json) : Party :=
  match p.tasks[task]? with
  | none => p
  | some request =>
    { p with
      tasks := p.tasks.eraseIdx task
      log := p.log ++ [.sent (Connection.reply request.mid request.key result)] }

/-- Ends the input. -/
def close (p : Party) : Party :=
  let (calls, connection) := p.connection.close
  { p with
    connection
    log := p.log ++ calls.map fun call => .finished call (.error .connectionClosed) }

/-- What an event makes of an end. -/
def step (p : Party) : Event → Party
  | .addKey key => { p with connection := p.connection.addKey key }
  | .removeKey key => { p with connection := (p.connection.removeKey key).2 }
  | .call key data => p.call key data
  | .line text => p.receive text
  | .returned task result => p.complete task result
  | .ended => p.close

/-- What events make of an end, one after the other. -/
def runFrom (p : Party) (events : List Event) : Party :=
  events.foldl step p

/-- What events make of a new end. -/
def run (side : Side) (events : List Event) : Party :=
  (new side).runFrom events

/-! ## What is told of an end -/

/-- The number and the key of a request. -/
def label (r : Request) : Int64 × String :=
  (r.mid, r.key)

/-- How a call came out, if this is told of it. -/
def outcomeOf? (place : ℕ) : Occasion ℕ → Option (Except WireError Payload)
  | .finished call outcome => if call = place then some outcome else none
  | .sent _ => none

/-- How a call came out, each time that the log says so. -/
def outcomes (p : Party) (place : ℕ) : List (Except WireError Payload) :=
  p.log.filterMap (outcomeOf? place)

/-- The calls that wait for an answer. -/
def waiting (p : Party) : List ℕ :=
  p.connection.pending.map Prod.snd

end Party

namespace Event

/-- The requests that can be read before the input ends. -/
def requests : List Event → Multiset (Int64 × String)
  | [] => 0
  | .ended :: _ => 0
  | .line text :: events => (Request.ofLine? text).toList.map Party.label + requests events
  | _ :: events => requests events

/-- The answer on a line under a number. -/
def answerOn? (mid : Int64) (text : String) : Option Payload :=
  (Envelope.ofLine? text).bind fun envelope =>
    if envelope.mid = mid ∧ envelope.payload.isRequest = false then some envelope.payload else none

/-- How a call that waits under a number comes out: with the first answer under the number, or with
an error if the input ends before. -/
def fate? (mid : Int64) : List Event → Option (Except WireError Payload)
  | [] => none
  | .ended :: _ => some (.error .connectionClosed)
  | .line text :: events =>
    match answerOn? mid text with
    | some payload => some (.ok payload)
    | none => fate? mid events
  | _ :: events => fate? mid events

end Event

/-- No call that is among the events takes the number while a call waits under it. -/
def Party.Reserved (p : Party) (mid : Int64) (events : List Event) : Prop :=
  ∀ before key data after, events = before ++ .call key data :: after →
    Event.fate? mid before = none → (p.runFrom before).connection.nextMid ≠ mid

end TypeAtlas
