import Mathlib.Data.Multiset.Filter
import Mathlib.Logic.Function.Basic
import Mathlib.Logic.Relation
import TypeAtlas.Proofs.Wire.Envelope
import TypeAtlas.Wire.Connection
/-!
# Two connections joined by lines

A `Link` is a client and a server, each with what is under way at it: lines that are written but not
yet sent, lines that are on their way to it, requests that its handlers work on. `Link.Step` lets
any of these move next, so a run is any interleaving of calls, deliveries and handlers. The lines
towards an end arrive in the order in which they were sent, and lines that are no envelopes may come
between them.

An end also keeps a log: the calls it made, the requests it answered with the replies, and the
payloads that its calls received. The log takes no part in a step.
-/

namespace TypeAtlas

/-- The side of the peer. -/
def Side.other : Side → Side
  | client => server
  | server => client

@[simp]
theorem Side.other_other (side : Side) : side.other.other = side := by
  cases side <;> rfl

theorem Side.other_ne (side : Side) : side.other ≠ side := by
  cases side <;> decide

/-- What a call asks for, under its number. -/
structure Request where
  mid : Int64
  key : String
  data : Json

namespace Request

/-- The envelope of a call. -/
def envelope (r : Request) : Envelope :=
  .current r.mid r.key (.request r.data)

/-- The request in an envelope, if it carries one. -/
def ofEnvelope? (e : Envelope) : Option Request :=
  match e.payload with
  | .request data => some ⟨e.mid, e.key, data⟩
  | _ => none

/-- The request on a line. -/
def ofLine? (line : String) : Option Request :=
  (Envelope.ofLine? line).bind ofEnvelope?

/-- The request as the peer reads it. -/
def arrived? (r : Request) : Option Request :=
  (r.data.through .text).value?.map fun data => { r with data }

theorem ofLine?_line (r : Request) : ofLine? r.envelope.line = r.arrived? := by
  rw [ofLine?, Envelope.ofLine?_line, arrived?]
  change (Option.map _ (Option.map _ _)).bind _ = _
  cases (r.data.through .text).value? <;> rfl

theorem mid_of_arrived? {r s : Request} (h : r.arrived? = some s) : s.mid = r.mid := by
  obtain ⟨data, -, rfl⟩ := Option.map_eq_some_iff.1 h
  rfl

theorem ofEnvelope?_eq_none {e : Envelope} (h : e.payload.isRequest = false) :
    ofEnvelope? e = none := by
  rw [ofEnvelope?]
  split
  · next heq => rw [heq] at h; cases h
  · rfl

end Request

/-- A request with the reply to it. -/
structure Exchange where
  request : Request
  reply : Envelope

/-- One end of a link. Its calls are known to it by their place among all its calls. -/
structure LinkEnd where
  connection : Connection ℕ
  /-- Lines written and not yet sent. -/
  outbox : List String := []
  /-- Lines on their way to this end, the first to arrive first. -/
  inbox : List String := []
  /-- Requests that handlers work on. -/
  tasks : List Request := []
  /-- All calls made, the first one first. -/
  calls : List Request := []
  /-- All requests answered. -/
  answered : List Exchange := []
  /-- All payloads received, each with the place of the call that received it. -/
  received : List (ℕ × Payload) := []

namespace LinkEnd

/-- Makes a call. Its line is not written when the connection is closed. -/
def call (e : LinkEnd) (key : String) (data : Json) : LinkEnd :=
  let (envelope, connection) := e.connection.call e.calls.length key data
  { e with
    connection
    outbox := e.outbox ++ envelope.toList.map Envelope.line
    calls := e.calls ++ [⟨e.connection.nextMid, key, data⟩] }

/-- Answers a request. -/
def answer (e : LinkEnd) (request : Request) (reply : Envelope) : LinkEnd :=
  { e with
    outbox := e.outbox ++ [reply.line]
    answered := e.answered ++ [⟨request, reply⟩] }

/-- Reads a line. -/
def receive (e : LinkEnd) (line : String) : LinkEnd :=
  let (effect, connection) := e.connection.receive line
  match effect, Request.ofLine? line with
  | .reply reply, some request => { e with connection }.answer request reply
  | .handle mid key data, _ => { e with connection, tasks := e.tasks ++ [⟨mid, key, data⟩] }
  | .deliver call payload, _ => { e with connection, received := e.received ++ [(call, payload)] }
  | _, _ => { e with connection }

end LinkEnd

/-- A client and a server. -/
abbrev Link := Side → LinkEnd

namespace Link

/-- A new link. -/
def new : Link :=
  fun side => { connection := .new side }

/-- Something happens at one end of a link. -/
inductive Step (l : Link) : Link → Prop
  /-- A handler is set. -/
  | addKey (side : Side) (key : String) :
    Step l (Function.update l side
      { l side with connection := (l side).connection.addKey key })
  /-- A handler is removed. Requests that it works on stay with it. -/
  | removeKey (side : Side) (key : String) :
    Step l (Function.update l side
      { l side with connection := ((l side).connection.removeKey key).2 })
  /-- A call is made. -/
  | call (side : Side) (key : String) (data : Json) :
    Step l (Function.update l side ((l side).call key data))
  /-- A line is sent. -/
  | send (side : Side) (before after : List String) (line : String)
    (h : (l side).outbox = before ++ line :: after) :
    Step l (Function.update
      (Function.update l side { l side with outbox := before ++ after }) side.other
      { l side.other with inbox := (l side.other).inbox ++ [line] })
  /-- A line that is no envelope comes between the lines towards an end. -/
  | inject (side : Side) (before after : List String) (line : String)
    (hline : Envelope.ofLine? line = none) (h : (l side).inbox = before ++ after) :
    Step l (Function.update l side { l side with inbox := before ++ line :: after })
  /-- The next line arrives. -/
  | deliver (side : Side) (line : String) (rest : List String)
    (hopen : (l side).connection.closed = false) (h : (l side).inbox = line :: rest) :
    Step l (Function.update l side ({ l side with inbox := rest }.receive line))
  /-- A handler finishes, with any result. -/
  | complete (side : Side) (before after : List Request) (request : Request)
    (result : Except Failure Json) (h : (l side).tasks = before ++ request :: after) :
    Step l (Function.update l side ({ l side with tasks := before ++ after }.answer request
      (Connection.reply request.mid request.key result)))
  /-- The input ends. -/
  | close (side : Side) :
    Step l (Function.update l side { l side with connection := (l side).connection.close.2 })

/-- A link after some run. -/
def Reachable (l : Link) : Prop :=
  Relation.ReflTransGen Step new l

end Link

end TypeAtlas
