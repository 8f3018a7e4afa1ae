import TypeAtlas.Proofs.Json.Text
import TypeAtlas.Proofs.Json.Records
import TypeAtlas.Wire.Envelope
/-!
# Envelopes are read back

The number, the key and the version of an envelope are the same on the other end of a line. What the
payload carries is read from its text, and a line whose payload cannot be read is no envelope
(`Envelope.ofLine?_line`).
-/

namespace TypeAtlas

variable (m : Medium)

namespace ErrorData

@[simp]
theorem through_toJson (e : ErrorData) : e.toJson.through m = e.toJson := by
  simp [toJson]

@[simp]
theorem ofJson?_toJson (e : ErrorData) : ofJson? e.toJson = some e := by
  simp [ofJson?, toJson]

end ErrorData

namespace Payload

/-- The payload that the other end reads. -/
def arrived? : Payload → Option Payload
  | request data => (data.through .text).value?.map request
  | response data => (data.through .text).value?.map response
  | error data => some (error data)

theorem ofJson?_toJson (p : Payload) : ofJson? (p.toJson.through .text) = p.arrived? := by
  cases p <;> simp [toJson, arrived?, ofJson?, Json.name?, readers, List.lookup_cons]

/-- Whether the payload asks for something. -/
def isRequest : Payload → Bool
  | request _ => true
  | _ => false

/-- A payload arrives as one of its sort. -/
theorem isRequest_of_arrived? {p q : Payload} (h : p.arrived? = some q) :
    q.isRequest = p.isRequest := by
  cases p with
  | request data | response data =>
    obtain ⟨value, -, rfl⟩ := Option.map_eq_some_iff.1 h
    rfl
  | error data =>
    obtain rfl := Option.some.inj h
    rfl

end Payload

namespace Envelope

@[simp]
theorem int64?_toInt (n : Int64) : (Json.int n.toInt).int64? = some n := by
  rw [Json.int64?, if_pos ⟨Int64.minValue_le_toInt n, Int64.toInt_le n⟩, Int64.ofInt_toInt]

@[simp]
theorem through_mid (n : Int64) : (Json.int n.toInt).through m = .int n.toInt :=
  Json.through_int m (Int64.le_toInt n) (lt_trans (Int64.toInt_lt n) (by decide))

/-- The line of an envelope is read as the envelope with the payload that arrives. -/
theorem ofLine?_line (e : Envelope) :
    ofLine? e.line = e.payload.arrived?.map fun payload => { e with payload } := by
  rw [ofLine?, line, Json.ofText?_text, Option.bind_eq_bind, Option.bind_some, ofJson?, toJson]
  simp -implicitDefEqProofs [Payload.ofJson?_toJson]
  cases e.payload.arrived? <;> rfl

end Envelope

end TypeAtlas
