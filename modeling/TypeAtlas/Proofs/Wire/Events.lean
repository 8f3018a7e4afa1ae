import TypeAtlas.Proofs.Wire.Correlation
import TypeAtlas.Proofs.Wire.Party
/-!
# What events make of an end

A line that is no envelope, such as a blank one, changes nothing. Any other line is a request for a
handler, a request that is refused, an answer for a call that waits or an answer for none
(`Party.receives`). An end is closed by the end of the input and by nothing else, and then no call
waits any more (`Party.quiet_run`).
-/

namespace TypeAtlas

/-! ## Lines -/

namespace Text

end Text

namespace Json.Reader

end Json.Reader

namespace Event

variable {mid : Int64} {text : String} {payload : Payload}

theorem answerOn?_eq_some_iff : answerOn? mid text = some payload ↔
    ∃ envelope, Envelope.ofLine? text = some envelope ∧ envelope.mid = mid ∧
      envelope.payload.isRequest = false ∧ envelope.payload = payload := by
  simp only [answerOn?, Option.bind_eq_some_iff, Option.ite_none_right_eq_some, Option.some.injEq,
    and_assoc]

/-- A line has an answer under one number only. -/
theorem answerOn?_unique {other : Int64} (h : answerOn? mid text = some payload)
    (hne : other ≠ mid) : answerOn? other text = none := by
  obtain ⟨envelope, henvelope, hmid, -, -⟩ := answerOn?_eq_some_iff.1 h
  rw [answerOn?, henvelope, Option.bind_some, if_neg]
  exact fun hother => hne (hother.1.symm.trans hmid)

theorem answerOn?_eq_none_of_request {request : Request} (h : Request.ofLine? text = some request)
    (mid : Int64) : answerOn? mid text = none := by
  obtain ⟨envelope, henvelope, hrequest⟩ := Option.bind_eq_some_iff.1 h
  rw [answerOn?, henvelope, Option.bind_some, if_neg]
  intro hanswer
  rw [Request.ofEnvelope?_eq_none hanswer.2] at hrequest
  cases hrequest

theorem answerOn?_eq_none_of_ofLine? (h : Envelope.ofLine? text = none) (mid : Int64) :
    answerOn? mid text = none := by
  rw [answerOn?, h, Option.bind_none]

theorem fate?_line (mid : Int64) (text : String) :
    fate? mid [.line text] = (answerOn? mid text).map .ok := by
  rw [fate?]
  cases answerOn? mid text <;> rfl

/-- The first event that decides about a call decides. -/
theorem fate?_cons (mid : Int64) (e : Event) (events : List Event) :
    fate? mid (e :: events) = (fate? mid [e]).or (fate? mid events) := by
  cases e with
  | line text =>
    rw [fate?_line, fate?]
    cases answerOn? mid text <;> rfl
  | ended | addKey | removeKey | call | returned => rfl

end Event

namespace Party

open Event

variable {p q : Party} {side : Side} {place : ℕ}

/-- What reading a line makes of an end: all that can happen. -/
inductive Receives (p : Party) (text : String) : Party → Prop
  | ignored (hrequest : Request.ofLine? text = none)
    (hanswer : ∀ mid ∈ p.connection.pending.map Prod.fst, answerOn? mid text = none) :
    Receives p text p
  | handled (request : Request) (hrequest : Request.ofLine? text = some request) :
    Receives p text { p with tasks := p.tasks ++ [request] }
  | refused (request : Request) (error : ErrorData)
    (hrequest : Request.ofLine? text = some request) :
    Receives p text
      { p with log := p.log ++ [.sent (.current request.mid request.key (.error error))] }
  | delivered (mid : Int64) (call : ℕ) (payload : Payload)
    (hanswer : answerOn? mid text = some payload)
    (hlookup : p.connection.pending.lookup mid = some call) :
    Receives p text
      { p with
        connection := { p.connection with pending := p.connection.pending.filter (·.1 != mid) }
        log := p.log ++ [.finished call (.ok payload)] }

/-- A payload that is no request goes to the call with its number, if one waits. -/
theorem receives_answer (hopen : p.connection.closed = false) {text : String} {envelope : Envelope}
    (h : Envelope.ofLine? text = some envelope) (hreply : envelope.payload.isRequest = false)
    (hconnection : p.connection.receive text =
      p.connection.answer envelope.mid envelope.payload) :
    p.Receives text (p.receive text) := by
  have hanswer : answerOn? envelope.mid text = some envelope.payload :=
    answerOn?_eq_some_iff.2 ⟨envelope, h, rfl, hreply, rfl⟩
  rw [receive, if_neg (Bool.eq_false_iff.1 hopen), hconnection, Connection.answer]
  cases hlookup : p.connection.pending.lookup envelope.mid with
  | none =>
    have hnone : Request.ofLine? text = none := by
      rw [Request.ofLine?, h, Option.bind_some, Request.ofEnvelope?_eq_none hreply]
    dsimp only
    rw [taskOf?, Endpoint.immediate, Option.toList_none, List.append_nil, List.append_nil]
    refine .ignored hnone fun mid hmid => answerOn?_unique hanswer ?_
    obtain ⟨entry, hentry, rfl⟩ := List.mem_map.1 hmid
    exact fun heq => by simpa [heq] using List.lookup_eq_none_iff.1 hlookup entry hentry
  | some call =>
    dsimp only
    rw [taskOf?, Endpoint.immediate, Option.toList_none, List.append_nil]
    exact .delivered _ call _ hanswer hlookup

theorem receives (hopen : p.connection.closed = false) (text : String) :
    p.Receives text (p.receive text) := by
  cases h : Envelope.ofLine? text with
  | none =>
    have hnone : Request.ofLine? text = none := by rw [Request.ofLine?, h, Option.bind_none]
    have hconnection : p.connection.receive text = (.ignored, p.connection) := by
      rw [Connection.receive, h]
    rw [receive, if_neg (Bool.eq_false_iff.1 hopen), hconnection]
    dsimp only
    rw [taskOf?, Endpoint.immediate, Option.toList_none, List.append_nil, List.append_nil]
    exact .ignored hnone fun mid _ => answerOn?_eq_none_of_ofLine? h mid
  | some envelope =>
    cases hpayload : envelope.payload with
    | request data =>
      have hsome : Request.ofLine? text = some ⟨envelope.mid, envelope.key, data⟩ := by
        rw [Request.ofLine?, h, Option.bind_some, Request.ofEnvelope?, hpayload]
      have hconnection : p.connection.receive text =
          (p.connection.request envelope.mid envelope.key data envelope.version, p.connection) := by
        simp only [Connection.receive, h, hpayload]
      rw [receive, if_neg (Bool.eq_false_iff.1 hopen), hconnection]
      dsimp only
      rcases p.connection.request_cases envelope.mid envelope.key data envelope.version with
        heffect | ⟨error, heffect⟩
      · rw [heffect, taskOf?, Endpoint.immediate, Option.toList_some, List.append_nil]
        exact .handled _ hsome
      · rw [heffect, taskOf?, Endpoint.immediate, Option.toList_none, List.append_nil]
        exact .refused _ error hsome
    | response data | error data =>
      refine receives_answer hopen h (by rw [hpayload]; rfl) ?_
      simp only [Connection.receive, h, hpayload]

theorem receive_of_closed (hclosed : p.connection.closed = true) (text : String) :
    p.receive text = p :=
  if_pos hclosed

/-- A call takes the next number. It waits for an answer unless the connection is closed. -/
theorem call_of_closed (hclosed : p.connection.closed = true) (key : String) (data : Json) :
    p.call key data =
      { p with
        connection := { p.connection with
          nextMid := p.connection.nextMid + p.connection.side.step }
        calls := p.calls + 1
        log := p.log ++ [.finished p.calls (.error .connectionClosed)] } := by
  rw [call, Connection.call]
  simp only [hclosed, if_true]

theorem call_of_open (hopen : p.connection.closed = false) (key : String) (data : Json) :
    p.call key data =
      { p with
        connection := { p.connection with
          nextMid := p.connection.nextMid + p.connection.side.step
          pending := (p.connection.nextMid, p.calls) :: p.connection.pending }
        calls := p.calls + 1
        log := p.log ++ [.sent (.current p.connection.nextMid key (.request data))] } := by
  rw [call, Connection.call]
  simp only [hopen, Bool.false_eq_true, if_false]

/-- A task that returns leaves the tasks. -/
theorem complete_cases (p : Party) (task : ℕ) (result : Except Failure Json) :
    p.complete task result = p ∨
      ∃ before request after, p.tasks = before ++ request :: after ∧
        p.complete task result =
          { p with
            tasks := before ++ after
            log := p.log ++ [.sent (Connection.reply request.mid request.key result)] } := by
  unfold complete
  cases htask : p.tasks[task]? with
  | none => exact Or.inl rfl
  | some request =>
    obtain ⟨hlt, hget⟩ := List.getElem?_eq_some_iff.1 htask
    refine Or.inr ⟨p.tasks.take task, request, p.tasks.drop (task + 1), ?_, ?_⟩
    · rw [← hget, List.getElem_cons_drop, List.take_append_drop]
    · rw [List.eraseIdx_eq_take_drop_succ]

/-! ## The end of the input -/

theorem closed_receive (p : Party) (text : String) :
    (p.receive text).connection.closed = p.connection.closed := by
  cases hclosed : p.connection.closed with
  | true => rw [receive_of_closed hclosed, hclosed]
  | false =>
    have hreceives := receives hclosed text
    generalize p.receive text = q at hreceives
    cases hreceives <;> exact hclosed

theorem closed_call (p : Party) (key : String) (data : Json) :
    (p.call key data).connection.closed = p.connection.closed := by
  cases hclosed : p.connection.closed with
  | true => rw [call_of_closed hclosed, ← hclosed]
  | false => rw [call_of_open hclosed, ← hclosed]

theorem connection_complete (p : Party) (task : ℕ) (result : Except Failure Json) :
    (p.complete task result).connection = p.connection := by
  rcases p.complete_cases task result with h | ⟨before, request, after, -, h⟩ <;> rw [h]

/-- An end is closed by the end of the input and by nothing else. -/
theorem closed_step_iff (e : Event) :
    (p.step e).connection.closed = true ↔ p.connection.closed = true ∨ e = .ended := by
  cases e with
  | ended => exact iff_of_true rfl (Or.inr rfl)
  | line text =>
    rw [step, closed_receive, or_iff_left]
    exact Event.noConfusion
  | call key data =>
    rw [step, closed_call, or_iff_left]
    exact Event.noConfusion
  | returned task result =>
    rw [step, connection_complete, or_iff_left]
    exact Event.noConfusion
  | addKey | removeKey =>
    rw [or_iff_left (by exact Event.noConfusion)]
    rfl

/-- No call waits after the end of the input. -/
def Quiet (p : Party) : Prop :=
  p.connection.closed = true → p.connection.pending = []

theorem Quiet.step (h : p.Quiet) (e : Event) : (p.step e).Quiet := by
  intro hafter
  rcases (closed_step_iff e).1 hafter with hclosed | rfl
  · cases e with
    | ended => rfl
    | line text => rw [Party.step, receive_of_closed hclosed, h hclosed]
    | call key data => rw [Party.step, call_of_closed hclosed, h hclosed]
    | returned task result => rw [Party.step, connection_complete, h hclosed]
    | addKey | removeKey => exact h hclosed
  · rfl

theorem Quiet.runFrom (h : p.Quiet) (events : List Event) : (p.runFrom events).Quiet := by
  induction events generalizing p with
  | nil => exact h
  | cons e events ih => exact ih (h.step e)

end Party

end TypeAtlas
