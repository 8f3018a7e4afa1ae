import TypeAtlas.Program
import TypeAtlas.Tree.Codec
import TypeAtlas.Wire.Endpoint
/-!
# Programs at the other end of a connection

A served program answers two keys, both with a location as their request: `getTypeTree` with the
tree at the location and `getExpandedType` with the text of the merged type; `null` where the
location names nothing. `Remote` asks a served program, through the lines that two connections
exchange.
-/

namespace TypeAtlas

namespace Program

/-- The key that asks for a tree. -/
def treeKey : String := "getTypeTree"

/-- The key that asks for the text of a merged type. -/
def expandedKey : String := "getExpandedType"

/-- The request for a location. -/
def locationRequest (location : Location) : Json :=
  .obj [("location", location.toJson)]

/-- The location that a request asks for. -/
def requestedLocation (key : String) (data : Json) : Except Failure Location :=
  match data.members?.bind fun members => members.required? "location" Location.ofJson? with
  | some location => .ok location
  | none => .error ⟨"invalid " ++ key ++ " request", [WireError.jsonCause]⟩

/-- The keys that a served program answers. -/
def servedKeys : List String := [treeKey, expandedKey]

/-- The result of a request to a served program, and the program after it. -/
def serve (program : Program) (key : String) (data : Json) :
    Except Failure Json × Program :=
  match requestedLocation key data with
  | .error failure => (.error failure, program)
  | .ok location =>
    if key = treeKey then
      (.ok (Json.ofOption TypeTree.toJson (program.treeAt? location)), program)
    else
      let (text, program) := program.expandedAt location
      (.ok (Json.ofOption Json.str text), program)

/-- The handlers of a served program. -/
def handlers : List (String × Handler Program) :=
  servedKeys.map fun key => (key, fun data program => program.serve key data)

/-- The end of a connection at which a program is served. -/
def endpoint (program : Program) : Endpoint Program Unit :=
  handlers.foldl (fun e (key, handler) => e.setHandler key handler) (.new .server program)

/-- A served program as a peer. Every request meets the program as it is now. -/
def peer (program : Program) (line : String) : Option String :=
  ((program.endpoint.receive [line]).1.findSome? Occasion.envelope?).map Envelope.line

end Program

namespace Remote

/-- Asks for a value through a connection. The line of the call goes to the peer, and the line of
the reply comes back. -/
def ask (peer : String → Option String) (key : String) (data : Json)
    (decode : Json → Option α) : Except WireError α :=
  let (envelope, connection) := (Connection.new .client : Connection Unit).call () key data
  match (envelope.map Envelope.line).bind peer with
  | none => .error .connectionClosed
  | some line =>
    match (connection.receive line).1 with
    | .deliver _ payload => payload.value? key decode
    | _ => .error .connectionClosed

/-- What a caller is told when asking about a location fails. -/
def failure (key : String) (location : Location) (error : WireError) : Failure :=
  error.failure.context (key ++ " failed for " ++ location.display)

/-- The tree at a location. -/
def treeAt? (peer : String → Option String) (location : Location) :
    Except Failure (Option TypeTree) :=
  (ask peer Program.treeKey (Program.locationRequest location)
    (Json.nullable? TypeTree.ofJson?)).mapError (failure Program.treeKey location)

/-- The text of the merged type at a location. -/
def expandedAt? (peer : String → Option String) (location : Location) :
    Except Failure (Option String) :=
  (ask peer Program.expandedKey (Program.locationRequest location)
    (Json.nullable? Json.string?)).mapError (failure Program.expandedKey location)

/-- Finds trees by asking. -/
def retriever (peer : String → Option String) : Retriever :=
  treeAt? peer

end Remote

end TypeAtlas
