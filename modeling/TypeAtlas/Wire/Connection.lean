import TypeAtlas.Wire.Envelope
/-!
# Connections

One end of a connection, as a state that changes with each event: a call made, a line received, the
end of the input. An end numbers its calls from its own side of zero, so the two ends never use the
same number, and it keeps the calls that wait for an answer. What happens outside the connection is
the answer of each event: the line to be sent, the handler to be run, the call that is finished.

Calls are known to their caller by tags of a type `κ`.
-/

namespace TypeAtlas

/-- Which end of a connection this is. -/
inductive Side where
  /-- Calls are numbered 0, 1, 2, … -/
  | client
  /-- Calls are numbered -1, -2, -3, … -/
  | server
  deriving DecidableEq, Inhabited, Repr

namespace Side

/-- The number of the first call. -/
def first : Side → Int64
  | client => 0
  | server => -1

/-- From the number of a call to that of the next. -/
def step : Side → Int64
  | client => 1
  | server => -1

/-- The side in one word. -/
def name : Side → String
  | client => "client"
  | server => "server"

end Side

/-- Why a call has no answer. A handler that fails on the other end is an answer. -/
inductive WireError where
  | connectionClosed
  | json
  | remote (data : ErrorData)
  | unexpectedPayload (key : String)
  deriving DecidableEq, Inhabited, Repr

namespace WireError

/-- The sort of error. -/
def name : WireError → String
  | connectionClosed => "ConnectionClosed"
  | json => "Json"
  | remote _ => "Remote"
  | unexpectedPayload _ => "UnexpectedPayload"

/-- The error in words. -/
def message : WireError → String
  | connectionClosed => "connection closed before a response arrived"
  | json => "failed to encode or decode a message"
  | remote data => "remote error: " ++ data.msg
  | unexpectedPayload key => "peer answered `" ++ key ++ "` with a request payload"

/-- What is said about a value that does not decode. -/
def jsonCause : String := "the value does not have the expected form"

/-- The error with its causes. -/
def failure : WireError → Failure
  | json => ⟨json.message, [jsonCause]⟩
  | error => ⟨error.message, []⟩

end WireError

/-- What a line leads to. -/
inductive Effect (κ : Type) where
  /-- Nothing: the line is blank, no envelope, or an answer that nothing waits for. -/
  | ignored
  /-- A reply is sent at once. -/
  | reply (envelope : Envelope)
  /-- The handler of the key is run, and its result sent under the number. -/
  | handle (mid : Int64) (key : String) (data : Json)
  /-- A call has its answer. -/
  | deliver (call : κ) (payload : Payload)

/-- One end of a connection. -/
structure Connection (κ : Type) where
  side : Side
  nextMid : Int64
  /-- The calls that wait for an answer, by number. -/
  pending : List (Int64 × κ) := []
  /-- The keys that have handlers. -/
  keys : List String := []
  closed : Bool := false
  deriving Inhabited

namespace Connection

variable {κ : Type}

/-- A new connection. -/
def new (side : Side) : Connection κ where
  side
  nextMid := side.first

/-- Registers a handler. -/
def addKey (c : Connection κ) (key : String) : Connection κ :=
  { c with keys := key :: c.keys.filter (· != key) }

/-- Removes a handler; also whether there was one. -/
def removeKey (c : Connection κ) (key : String) : Bool × Connection κ :=
  (c.keys.contains key, { c with keys := c.keys.filter (· != key) })

/-- Makes a call: the line to be sent, unless the connection is closed. -/
def call (c : Connection κ) (tag : κ) (key : String) (data : Json) :
    Option Envelope × Connection κ :=
  let mid := c.nextMid
  let c := { c with nextMid := mid + c.side.step }
  if c.closed then (none, c)
  else
    (some (.current mid key (.request data)), { c with pending := (mid, tag) :: c.pending })

/-- What a request is refused with when its version is another one. -/
def versionError (version : UInt32) : ErrorData :=
  ⟨"unsupported protocol version " ++ toString version.toNat ++ ", expected " ++
    toString protocolVersion.toNat, none⟩

/-- What a request is refused with when its key has no handler. -/
def unimplemented (key : String) : ErrorData :=
  ⟨key ++ ": method unimplemented", none⟩

/-- A request that arrives. -/
def request (c : Connection κ) (mid : Int64) (key : String) (data : Json)
    (version : Option UInt32) : Effect κ :=
  match version.filter (· != protocolVersion) with
  | some version => .reply (.current mid key (.error (versionError version)))
  | none =>
    if c.keys.contains key then .handle mid key data
    else .reply (.current mid key (.error (unimplemented key)))

/-- An answer that arrives: it finishes the call with its number. -/
def answer (c : Connection κ) (mid : Int64) (payload : Payload) : Effect κ × Connection κ :=
  match c.pending.lookup mid with
  | some tag => (.deliver tag payload, { c with pending := c.pending.filter (·.1 != mid) })
  | none => (.ignored, c)

/-- A line that arrives. -/
def receive (c : Connection κ) (line : String) : Effect κ × Connection κ :=
  match Envelope.ofLine? line with
  | none => (.ignored, c)
  | some envelope =>
    match envelope.payload with
    | .request data => (c.request envelope.mid envelope.key data envelope.version, c)
    | .response data => c.answer envelope.mid (.response data)
    | .error data => c.answer envelope.mid (.error data)

/-- The reply with the result of a handler. -/
def reply (mid : Int64) (key : String) (result : Except Failure Json) : Envelope :=
  match result with
  | .ok data => .current mid key (.response data)
  | .error failure => .current mid key (.error (.ofFailure failure))

/-- The end of the input. The answer holds the calls that will never be answered. -/
def close (c : Connection κ) : List κ × Connection κ :=
  (c.pending.map (·.2), { c with pending := [], closed := true })

end Connection

/-- The value that a typed call asked for. -/
def Payload.value? (key : String) (decode : Json → Option α) : Payload → Except WireError α
  | .response data =>
    match decode data with
    | some a => .ok a
    | none => .error .json
  | .error data => .error (.remote data)
  | .request _ => .error (.unexpectedPayload key)

end TypeAtlas
