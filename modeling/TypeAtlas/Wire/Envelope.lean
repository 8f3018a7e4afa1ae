import TypeAtlas.Json.Decode
import TypeAtlas.Json.Reader
import TypeAtlas.Json.Writer
import TypeAtlas.View.Error
/-!
# Envelopes

What two connected programs send each other, one JSON value on each line: a request, the response to
one, or the error in place of a response. Requests and answers belong together by number.
-/

namespace TypeAtlas

/-- The version written on every envelope that is sent. -/
def protocolVersion : UInt32 := 1

/-- What a peer is told when a request fails. -/
structure ErrorData where
  msg : String
  stack : Option String := none
  deriving DecidableEq, Inhabited, Repr

namespace ErrorData

/-- The outermost message, with the causes on lines of their own. -/
def ofFailure (failure : Failure) : ErrorData :=
  ⟨failure.message,
    if failure.causes.isEmpty then none else some ("\n".intercalate failure.causes)⟩

def toJson (e : ErrorData) : Json :=
  .obj (Json.field "msg" (.str e.msg) ++ Json.fieldIfSome "stack" Json.str e.stack)

def ofJson? (json : Json) : Option ErrorData := do
  let members ← json.members?
  let msg ← members.required? "msg" Json.string?
  some ⟨msg, ← members.optional? "stack" Json.string?⟩

end ErrorData

/-- What an envelope carries. -/
inductive Payload where
  | request (data : Json)
  | response (data : Json)
  | error (data : ErrorData)
  deriving Inhabited

namespace Payload

/-- The name of the sort of payload. -/
def kindName : Payload → String
  | request _ => "request"
  | response _ => "response"
  | error _ => "error"

def toJson : Payload → Json
  | request data => .obj [("type", .str "request"), ("data", data)]
  | response data => .obj [("type", .str "response"), ("data", data)]
  | error data => .obj [("type", .str "error"), ("data", data.toJson)]

/-- The readers of the three sorts of payload, by name. -/
def readers : List (String × (Json → Option Payload)) :=
  [("request", fun json => json.value?.map request),
    ("response", fun json => json.value?.map response),
    ("error", fun json => (ErrorData.ofJson? json).map error)]

/-- Data before the type that says how to read it has to be readable. -/
def ofJson? (json : Json) : Option Payload := do
  let members ← json.members?
  let read ← members.required? "type" (Json.name? readers)
  let typeIsFirst := (members.takeWhile (·.1 != "data")).any (·.1 == "type")
  members.required? "data" fun data => do
    guard (typeIsFirst || data.isReadable)
    read data

end Payload

/-- One line on the wire. -/
structure Envelope where
  /-- The number that an answer shares with its request. -/
  mid : Int64
  key : String
  payload : Payload
  /-- The version; older peers send none. -/
  version : Option UInt32
  deriving Inhabited

namespace Envelope

/-- An envelope of the present version. -/
def current (mid : Int64) (key : String) (payload : Payload) : Envelope :=
  ⟨mid, key, payload, some protocolVersion⟩

def toJson (e : Envelope) : Json :=
  .obj (Json.field "mid" (.int e.mid.toInt) ++ Json.field "key" (.str e.key) ++
    Json.field "payload" e.payload.toJson ++
    Json.fieldIfSome "v" (fun v : UInt32 => .ofNat v.toNat) e.version)

def ofJson? (json : Json) : Option Envelope := do
  let members ← json.members?
  let mid ← members.required? "mid" Json.int64?
  let key ← members.required? "key" Json.string?
  let payload ← members.required? "payload" Payload.ofJson?
  some ⟨mid, key, payload, ← members.optional? "v" Json.uint32?⟩

/-- The line of an envelope, without the line break. -/
def line (e : Envelope) : String :=
  e.toJson.text

/-- The envelope on a line. -/
def ofLine? (line : String) : Option Envelope := do
  ofJson? (← Json.ofText? line)

end Envelope

end TypeAtlas
