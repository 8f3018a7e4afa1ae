import TypeAtlas.Proofs.Tree.RoundTrip
import TypeAtlas.Proofs.Wire.Envelope
import TypeAtlas.Wire.Service
/-!
# Asking a served program

A request for a tree goes to a served program as the text of an envelope, and the tree comes back in
the text of another one. The request always arrives as it was sent. The tree arrives if the numbers
in it do, and only then (`Remote.retriever_eq_iff`): nothing else on the way makes a difference, not
even how many requests went through the connection before (`Remote.fetch_eq`).
-/

namespace TypeAtlas

/-! ## Values that arrive -/

namespace Json

theorem value?_eq_some_self {json : Json} :
    json.value? = some json ↔ json.isReadable = true ∧ json.lastWins = json := by
  rw [value?]
  split
  · next h => rw [Option.some.injEq, h, and_iff_right rfl]
  · next h => exact ⟨fun heq => (nomatch heq), fun heq => absurd heq.1 h⟩

/-- That a value is read as it is is handed up. -/
theorem hereditary_value? : Hereditary fun json => json.value? = some json where
  null := rfl
  bool := fun _ => rfl
  int := fun _ _ _ => rfl
  str := fun _ => rfl
  arr := fun items h => value?_eq_some_self.2
    ⟨hereditary_isReadable.arr items fun item hitem => (value?_eq_some_self.1 (h item hitem)).1,
      hereditary_lastWins.arr items fun item hitem => (value?_eq_some_self.1 (h item hitem)).2⟩
  obj := fun members h hnames => value?_eq_some_self.2
    ⟨hereditary_isReadable.obj members
      (fun member hmember => (value?_eq_some_self.1 (h member hmember)).1) hnames,
      hereditary_lastWins.obj members
        (fun member hmember => (value?_eq_some_self.1 (h member hmember)).2) hnames⟩

end Json

namespace TypeTree

variable (m : Medium)

/-- What arrives of a tree repeats no member, whatever becomes of its numbers. -/
theorem lastWins_through_toJson (t : TypeTree) :
    (t.toJson.through m).lastWins = t.toJson.through m := by
  refine hereditary_toJson (Json.hereditary_lastWins.through m) t fun d _ => ?_
  rw [Json.ofDouble]
  split
  · exact Json.lastWins_through_double m d
  · rw [Json.through_null]
    rfl

/-- What arrives of a tree can be read if all numbers of the tree arrive. -/
theorem isReadable_through_toJson {t : TypeTree} (h : m.Carries t) :
    (t.toJson.through m).isReadable = true :=
  hereditary_toJson (Json.hereditary_isReadable.through m) t fun d hd =>
    Json.isReadable_ofDouble (Option.isSome_iff_exists.2 ⟨d, h d hd⟩)

/-- A tree or `null` arrives exactly when all numbers of the tree do. -/
theorem nullable?_through_eq_some_self {tree : Option TypeTree} :
    ((Json.ofOption toJson tree).through m).value?.bind (Json.nullable? ofJson?) = some tree ↔
      ∀ t ∈ tree, m.Carries t := by
  cases tree with
  | none =>
    rw [Json.ofOption, Json.through_null]
    exact iff_of_true rfl fun _ ht => absurd ht (Option.not_mem_none _)
  | some t =>
    have hdecode : Json.nullable? ofJson? (t.toJson.through m) =
        (ofJson? (t.toJson.through m)).map some := by
      cases h : t.toJson.through m with
      | null => exact absurd h (through_toJson_ne_null m t)
      | _ => rfl
    have harrives : (t.toJson.through m).value?.bind (Json.nullable? ofJson?) = some (some t) ↔
        m.Carries t := by
      rw [Json.value?, lastWins_through_toJson]
      by_cases hread : (t.toJson.through m).isReadable = true
      · rw [if_pos hread, Option.bind_some, hdecode, Option.map_eq_some_iff]
        simp only [Option.some.injEq, exists_eq_right, ofJson?_through_eq_some_self]
      · rw [if_neg hread, Option.bind_none]
        exact iff_of_false (Option.some_ne_none _).symm fun h =>
          hread (isReadable_through_toJson m h)
    rw [Json.ofOption, harrives]
    simp only [Option.mem_some_iff, forall_eq']

end TypeTree

/-! ## Requests and replies -/

namespace Connection

variable {κ : Type}

/-- A connection that can be used and whose calls have all been answered. -/
structure Idle (c : Connection κ) : Prop where
  isOpen : c.closed = false
  pending : c.pending = []

theorem idle_new (side : Side) : (new side : Connection κ).Idle :=
  ⟨rfl, rfl⟩

/-- A response whose data cannot be read is passed over. -/
theorem receive_response (c : Connection κ) (mid : Int64) (key : String) (data : Json) :
    c.receive (reply mid key (.ok data)).line =
      match (data.through .text).value? with
      | some arrived => c.answer mid (.response arrived)
      | none => (.ignored, c) := by
  have hpayload : (reply mid key (.ok data)).payload.arrived? =
      (data.through .text).value?.map Payload.response := rfl
  rw [receive, Envelope.ofLine?_line, hpayload]
  cases (data.through .text).value? <;> rfl

end Connection

/-- A request that arrives at an endpoint is answered by the handler of its key. -/
theorem Endpoint.receive_request {σ κ : Type} (e : Endpoint σ κ) {mid : Int64} {key : String}
    {data arrived : Json} {handler : Handler σ} (hkey : e.connection.keys.contains key = true)
    (hhandler : e.handlers.lookup key = some handler)
    (hdata : (data.through .text).value? = some arrived) :
    e.receive [(Envelope.current mid key (.request data)).line] =
      ([.sent (Connection.reply mid key (handler arrived e.state).1)],
        { e with state := (handler arrived e.state).2 }) := by
  have hline : Envelope.ofLine? (Envelope.current mid key (.request data)).line =
      some (.current mid key (.request arrived)) := by
    rw [Envelope.ofLine?_line]
    change Option.map _ ((data.through .text).value?.map Payload.request) = _
    rw [hdata]
    rfl
  have heffect : e.connection.receive (Envelope.current mid key (.request data)).line =
      (.handle mid key arrived, e.connection) := by
    rw [Connection.receive, hline]
    change (e.connection.request mid key arrived (some protocolVersion), _) = _
    rw [Connection.request]
    change (if e.connection.keys.contains key = true then _ else _, _) = _
    rw [if_pos hkey]
  simp only [receive, effects, heffect, handleAll, handle, hhandler]
  rfl

namespace Program

variable (program : Program)

theorem contains_keys_endpoint {key : String} (hkey : key ∈ servedKeys) :
    program.endpoint.connection.keys.contains key = true := by
  rw [servedKeys, List.mem_pair] at hkey
  rcases hkey with rfl | rfl <;> rfl

theorem lookup_handlers_endpoint {key : String} (hkey : key ∈ servedKeys) :
    program.endpoint.handlers.lookup key = some fun data program => program.serve key data := by
  rw [servedKeys, List.mem_pair] at hkey
  rcases hkey with rfl | rfl <;> rfl

/-- A served program answers a request that arrives. -/
theorem receive_request {key : String} (hkey : key ∈ servedKeys) (mid : Int64)
    {data arrived : Json} (hdata : (data.through .text).value? = some arrived) :
    program.endpoint.receive [(Envelope.current mid key (.request data)).line] =
      ([.sent (Connection.reply mid key (program.serve key arrived).1)],
        (program.serve key arrived).2.endpoint) :=
  Endpoint.receive_request _ (program.contains_keys_endpoint hkey)
    (program.lookup_handlers_endpoint hkey) hdata

/-- A request for a location arrives as it was sent. -/
theorem value?_locationRequest (location : Location) :
    ((locationRequest location).through .text).value? = some (locationRequest location) := by
  have hthrough : (locationRequest location).through .text = locationRequest location := by
    simp [locationRequest]
  have hlocation := location.hereditary_toJson Json.hereditary_value?
  rw [hthrough]
  exact Json.hereditary_value?.obj [("location", location.toJson)]
    (List.forall_mem_singleton.2 hlocation) (List.nodup_singleton _)

theorem requestedLocation_locationRequest (key : String) (location : Location) :
    requestedLocation key (locationRequest location) = .ok location := by
  have hlocation : ((locationRequest location).members?.bind fun members =>
      members.required? "location" Location.ofJson?) = some location := by
    simp -implicitDefEqProofs [locationRequest]
  rw [requestedLocation, hlocation]

theorem serve_treeKey (location : Location) :
    program.serve treeKey (locationRequest location) =
      (.ok (Json.ofOption TypeTree.toJson (program.treeAt? location)), program) := by
  rw [serve, requestedLocation_locationRequest]
  rfl

theorem serve_expandedKey (location : Location) :
    (program.serve expandedKey (locationRequest location)).1 =
      .ok (Json.ofOption Json.str (program.expandedAt location).1) := by
  rw [serve, requestedLocation_locationRequest]
  rfl

end Program

/-! ## Asking -/

/-- A client and a program that is served to it. -/
structure Conversation where
  client : Connection Unit
  server : Endpoint Program Unit

/-- All calls of the client have been answered, and the program is as it was. -/
structure Conversation.Ready (program : Program) (s : Conversation) : Prop where
  client : s.client.Idle
  server : s.server = program.endpoint

/-- The start of a conversation. -/
def Program.conversation (program : Program) : Conversation :=
  ⟨.new .client, program.endpoint⟩

theorem Program.ready_conversation (program : Program) : program.conversation.Ready program :=
  ⟨Connection.idle_new .client, rfl⟩

namespace Remote

variable {α : Type}

/-- Asks for a value in a conversation that goes on. -/
def askIn (key : String) (data : Json) (decode : Json → Option α) :
    StateM Conversation (Except WireError α) := fun s =>
  let (envelope, client) := s.client.call () key data
  let (occasions, server) := s.server.receive (envelope.map Envelope.line).toList
  match (occasions.findSome? Occasion.envelope?).map Envelope.line with
  | none => (.error .connectionClosed, ⟨client, server⟩)
  | some line =>
    match client.receive line with
    | (.deliver _ payload, client) => (payload.value? key decode, ⟨client, server⟩)
    | (_, client) => (.error .connectionClosed, ⟨client, server⟩)

/-- The tree at a location, asked for in a conversation that goes on. -/
def treeIn (location : Location) : StateM Conversation (Except Failure (Option TypeTree)) := do
  let answer ← askIn Program.treeKey (Program.locationRequest location)
    (Json.nullable? TypeTree.ofJson?)
  return answer.mapError (failure Program.treeKey location)

/-- The trees at several locations, asked for one after the other. -/
def fetch (locations : List Location) :
    StateM Conversation (List (Except Failure (Option TypeTree))) :=
  locations.mapM treeIn

theorem ask_eq (program : Program) (key : String) (data : Json) (decode : Json → Option α) :
    ask program.peer key data decode = (askIn key data decode program.conversation).1 := by
  unfold ask askIn Program.conversation Program.peer
  generalize (Connection.new .client : Connection Unit).call () key data = called
  obtain ⟨envelope, client⟩ := called
  cases envelope with
  | none => rfl
  | some envelope =>
    dsimp only
    rw [Option.map_some, Option.bind_some, Option.toList_some]
    generalize program.endpoint.receive [envelope.line] = answered
    obtain ⟨occasions, server⟩ := answered
    dsimp only
    cases (occasions.findSome? Occasion.envelope?).map Envelope.line with
    | none => rfl
    | some line =>
      dsimp only
      generalize client.receive line = received
      obtain ⟨effect, client⟩ := received
      cases effect <;> rfl

theorem treeAt?_eq (program : Program) (location : Location) :
    treeAt? program.peer location = (treeIn location program.conversation).1 := by
  rw [treeAt?, ask_eq, treeIn]
  generalize askIn Program.treeKey _ _ = asked
  rfl

/-- What a call gets when a served program gives an answer: what arrives of it, decoded. -/
def received (key : String) (decode : Json → Option α) (answer : Json) : Except WireError α :=
  match (answer.through .text).value? with
  | some value => (Payload.response value).value? key decode
  | none => .error .connectionClosed

theorem received_eq_ok_iff {key : String} {decode : Json → Option α} {answer : Json} {a : α} :
    received key decode answer = .ok a ↔ (answer.through .text).value?.bind decode = some a := by
  rw [received]
  cases (answer.through .text).value? with
  | none => exact iff_of_false (fun h => nomatch h) fun h => nomatch h
  | some value =>
    rw [Option.bind_some]
    dsimp only
    rw [Payload.value?]
    cases decode value with
    | none => exact iff_of_false (fun h => nomatch h) fun h => nomatch h
    | some b => rw [Except.ok.injEq, Option.some.injEq]

theorem mapError_eq_ok_iff {ε ε' : Type} {f : ε → ε'} {x : Except ε α} {a : α} :
    x.mapError f = .ok a ↔ x = .ok a := by
  cases x <;> simp [Except.mapError]

section

variable {program : Program} {key : String} {data arrived answer : Json} {s : Conversation}
  (hkey : key ∈ Program.servedKeys) (hdata : (data.through .text).value? = some arrived)
  (hanswer : (program.serve key arrived).1 = .ok answer) (hs : s.Ready program)

include hkey hdata hanswer hs

/-- A call gets what arrives of the answer, and goes on to wait if nothing does. -/
theorem askIn_eq (decode : Json → Option α) :
    askIn key data decode s =
      (received key decode answer,
        ⟨{ s.client with
            nextMid := s.client.nextMid + s.client.side.step
            pending :=
              if (answer.through .text).value?.isSome then [] else [(s.client.nextMid, ())] },
          (program.serve key arrived).2.endpoint⟩) := by
  obtain ⟨c, server⟩ := s
  obtain ⟨⟨hopen, hpending⟩, rfl⟩ := hs
  dsimp only at hopen hpending
  have hcall : c.call () key data = (some (.current c.nextMid key (.request data)),
      { c with nextMid := c.nextMid + c.side.step, pending := [(c.nextMid, ())] }) := by
    simp only [Connection.call, hopen, hpending, Bool.false_eq_true, if_false]
  have hserver := program.receive_request hkey c.nextMid hdata
  rw [hanswer] at hserver
  unfold askIn
  rw [hcall]
  dsimp only
  rw [Option.map_some, Option.toList_some, hserver]
  dsimp only [List.findSome?_cons, Occasion.envelope?, Option.map_some]
  rw [Connection.receive_response, received]
  cases (answer.through .text).value? with
  | none => rfl
  | some value => simp [Connection.answer]

/-- The conversation can go on after a call with an answer, with the program that the handler
leaves. -/
theorem ready_askIn {decode : Json → Option α} {a : α} (h : received key decode answer = .ok a) :
    (askIn key data decode s).2.Ready (program.serve key arrived).2 := by
  rw [askIn_eq hkey hdata hanswer hs]
  refine ⟨⟨hs.client.isOpen, ?_⟩, rfl⟩
  cases hvalue : (answer.through .text).value? with
  | none => rw [received, hvalue] at h; cases h
  | some value => rfl

end

/-- What is received of the tree of a program. -/
def receivedTree (program : Program) (location : Location) : Except Failure (Option TypeTree) :=
  (received Program.treeKey (Json.nullable? TypeTree.ofJson?)
    (Json.ofOption TypeTree.toJson (program.treeAt? location))).mapError
    (failure Program.treeKey location)

/-- The tree of a program is received exactly when all numbers of the tree arrive. -/
theorem receivedTree_eq_ok_iff (program : Program) (location : Location) :
    receivedTree program location = .ok (program.treeAt? location) ↔
      ∀ t ∈ program.treeAt? location, Medium.text.Carries t := by
  rw [receivedTree, mapError_eq_ok_iff, received_eq_ok_iff,
    TypeTree.nullable?_through_eq_some_self]

section

variable (program : Program) {s : Conversation} (hs : s.Ready program) (location : Location)

include hs

theorem treeIn_fst : (treeIn location s).1 = receivedTree program location := by
  have hreceived : (askIn Program.treeKey (Program.locationRequest location)
      (Json.nullable? TypeTree.ofJson?) s).1 =
        received Program.treeKey (Json.nullable? TypeTree.ofJson?)
          (Json.ofOption TypeTree.toJson (program.treeAt? location)) := by
    rw [askIn_eq (by decide) (Program.value?_locationRequest location)
      (congrArg Prod.fst (program.serve_treeKey location)) hs]
  rw [treeIn, receivedTree, ← hreceived]
  generalize askIn Program.treeKey _ _ = asked
  rfl

/-- The program has not changed when it has been asked for a tree. -/
theorem ready_treeIn (h : ∀ t ∈ program.treeAt? location, Medium.text.Carries t) :
    (treeIn location s).2.Ready program := by
  have hreceived := mapError_eq_ok_iff.1 ((receivedTree_eq_ok_iff program location).2 h)
  have hready := ready_askIn (by decide) (Program.value?_locationRequest location)
    (congrArg Prod.fst (program.serve_treeKey location)) hs hreceived
  rw [program.serve_treeKey location] at hready
  exact hready

end

theorem retriever_eq (program : Program) : retriever program.peer = receivedTree program := by
  funext location
  rw [retriever, treeAt?_eq]
  exact treeIn_fst program program.ready_conversation location

/-- A served program gives the tree of the program itself exactly when all numbers of the tree are
read back. -/
theorem retriever_eq_iff (program : Program) (location : Location) :
    retriever program.peer location = program.retriever location ↔
      ∀ t ∈ program.treeAt? location, Medium.text.Carries t := by
  rw [retriever_eq]
  exact receivedTree_eq_ok_iff program location

/-- So it is with all trees that are asked for in one conversation. -/
theorem fetch_eq (program : Program) {locations : List Location} {s : Conversation}
    (hs : s.Ready program)
    (h : ∀ location ∈ locations, ∀ t ∈ program.treeAt? location, Medium.text.Carries t) :
    (fetch locations s).1 = locations.map program.retriever := by
  induction locations generalizing s with
  | nil => rfl
  | cons location locations ih =>
    rw [List.forall_mem_cons] at h
    have hfirst := (treeIn_fst program hs location).trans
      ((receivedTree_eq_ok_iff program location).2 h.1)
    have hrest := ih (ready_treeIn program hs location h.1) h.2
    rw [fetch, List.mapM_cons]
    exact congrArg₂ List.cons hfirst hrest

/-- The text of a merged type always arrives. -/
theorem expandedAt?_eq (program : Program) (location : Location) :
    expandedAt? program.peer location = .ok (program.expandedAt location).1 := by
  have htext : ∀ text : Option String,
      ((Json.ofOption Json.str text).through .text).value?.bind (Json.nullable? Json.string?) =
        some text := by
    intro text
    rw [Json.through_ofOption]
    cases text with
    | none => rfl
    | some text =>
      rw [Json.ofOption, Json.through_str]
      rfl
  have hanswer := askIn_eq (by decide) (Program.value?_locationRequest location)
    (program.serve_expandedKey location) program.ready_conversation
    (Json.nullable? Json.string?)
  rw [expandedAt?, ask_eq, hanswer]
  exact mapError_eq_ok_iff.2 (received_eq_ok_iff.2 (htext _))

end Remote

end TypeAtlas
