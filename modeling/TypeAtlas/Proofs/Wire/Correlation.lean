import Mathlib.Algebra.Order.Group.Multiset
import Mathlib.Tactic.Abel
import TypeAtlas.Proofs.Wire.Link
/-!
# Calls and replies belong together

Whatever the order in which calls are made, lines arrive and handlers finish: the ends of a link
never use a number twice, no call receives two payloads, and the payload that a call receives is the
reply to the request on the line of that very call (`Link.correlated`).

What carries the proof is said for an end and its peer (`Tied`): the requests that the peer has in
hand are among those that the end made, each at most once, and every reply on its way to the end is
one that the peer has logged. Numbers come in only at the end, to tell the calls of an end apart.
-/

namespace TypeAtlas

/-! ## Numbers -/

namespace Side

/-- The number of a call, by its place among the calls of an end. -/
def mid : Side → ℕ → Int64
  | client, place => Int64.ofInt place
  | server, place => Int64.ofInt (-1 - place)

theorem mid_zero (side : Side) : side.mid 0 = side.first := by
  cases side <;> decide

theorem mid_succ (side : Side) (place : ℕ) : side.mid (place + 1) = side.mid place + side.step := by
  cases side with
  | client =>
    rw [mid, mid, Nat.cast_succ, Int64.ofInt_add]
    rfl
  | server =>
    have hplace : -1 - ((place + 1 : ℕ) : ℤ) = -1 - place + -1 := by omega
    rw [mid, mid, hplace, Int64.ofInt_add]
    rfl

theorem toInt_mid_client {place : ℕ} (h : place < 2 ^ 63) : (client.mid place).toInt = place :=
  Int64.toInt_ofInt_of_le (by omega) (by omega)

theorem toInt_mid_server {place : ℕ} (h : place < 2 ^ 63) :
    (server.mid place).toInt = -1 - place :=
  Int64.toInt_ofInt_of_le (by omega) (by omega)

theorem mid_injective {side : Side} {a b : ℕ} (ha : a < 2 ^ 63) (hb : b < 2 ^ 63)
    (h : side.mid a = side.mid b) : a = b := by
  have hint := congrArg Int64.toInt h
  cases side with
  | client =>
    rw [toInt_mid_client ha, toInt_mid_client hb] at hint
    omega
  | server =>
    rw [toInt_mid_server ha, toInt_mid_server hb] at hint
    omega

theorem mid_client_ne_server {a b : ℕ} (ha : a < 2 ^ 63) (hb : b < 2 ^ 63) :
    client.mid a ≠ server.mid b := by
  intro h
  have hint := congrArg Int64.toInt h
  rw [toInt_mid_client ha, toInt_mid_server hb] at hint
  omega

end Side

/-! ## What a line leads to -/

/-- A request is given to a handler or refused under its number. -/
theorem Connection.request_cases {κ : Type} (c : Connection κ) (mid : Int64)
    (key : String) (data : Json) (version : Option UInt32) :
    c.request mid key data version = .handle mid key data ∨
      ∃ error, c.request mid key data version = .reply (.current mid key (.error error)) := by
  unfold Connection.request
  split
  · exact Or.inr ⟨_, rfl⟩
  · split
    · exact Or.inl rfl
    · exact Or.inr ⟨_, rfl⟩

namespace LinkEnd

/-- What reading a line makes of an end: all that can happen. -/
inductive Receives (e : LinkEnd) (line : String) : LinkEnd → Prop
  | ignored (h : Request.ofLine? line = none) : Receives e line e
  | handled (request : Request) (h : Request.ofLine? line = some request) :
    Receives e line { e with tasks := e.tasks ++ [request] }
  | refused (request : Request) (reply : Envelope) (h : Request.ofLine? line = some request)
    (hmid : reply.mid = request.mid) (hkey : reply.key = request.key)
    (hreply : reply.payload.isRequest = false) : Receives e line (e.answer request reply)
  | delivered (envelope : Envelope) (tag : ℕ) (h : Envelope.ofLine? line = some envelope)
    (hreply : envelope.payload.isRequest = false)
    (hpending : (envelope.mid, tag) ∈ e.connection.pending) :
    Receives e line
      { e with
        connection := { e.connection with
          pending := e.connection.pending.filter (·.1 != envelope.mid) }
        received := e.received ++ [(tag, envelope.payload)] }

/-- A payload that is no request goes to the call with its number, if one waits. -/
theorem receives_answer (e : LinkEnd) {line : String} {envelope : Envelope}
    (h : Envelope.ofLine? line = some envelope) (hreply : envelope.payload.isRequest = false)
    (hconnection : e.connection.receive line =
      e.connection.answer envelope.mid envelope.payload) :
    e.Receives line (e.receive line) := by
  have hnone : Request.ofLine? line = none := by
    rw [Request.ofLine?, h, Option.bind_some, Request.ofEnvelope?_eq_none hreply]
  rw [receive, hconnection, Connection.answer]
  cases hlookup : e.connection.pending.lookup envelope.mid with
  | none => exact .ignored hnone
  | some tag =>
    obtain ⟨before, after, hsplit, -⟩ := List.lookup_eq_some_iff.1 hlookup
    have hpending : (envelope.mid, tag) ∈ e.connection.pending :=
      hsplit ▸ List.mem_append_right _ List.mem_cons_self
    exact .delivered envelope tag h hreply hpending

theorem receives (e : LinkEnd) (line : String) : e.Receives line (e.receive line) := by
  cases h : Envelope.ofLine? line with
  | none =>
    have hnone : Request.ofLine? line = none := by rw [Request.ofLine?, h, Option.bind_none]
    have hconnection : e.connection.receive line = (.ignored, e.connection) := by
      rw [Connection.receive, h]
    rw [receive, hconnection]
    exact .ignored hnone
  | some envelope =>
    cases hpayload : envelope.payload with
    | request data =>
      have hsome : Request.ofLine? line = some ⟨envelope.mid, envelope.key, data⟩ := by
        rw [Request.ofLine?, h, Option.bind_some, Request.ofEnvelope?, hpayload]
      have hconnection : e.connection.receive line =
          (e.connection.request envelope.mid envelope.key data envelope.version, e.connection) := by
        simp only [Connection.receive, h, hpayload]
      rw [receive, hconnection]
      rcases e.connection.request_cases envelope.mid envelope.key data envelope.version with
        heffect | ⟨error, heffect⟩
      · rw [heffect]
        exact .handled _ hsome
      · rw [heffect, hsome]
        exact .refused _ _ hsome rfl rfl rfl
    | response data | error data =>
      refine receives_answer e h (by rw [hpayload]; rfl) ?_
      simp only [Connection.receive, h, hpayload]

/-! ## An end by itself -/

/-- What holds of an end by itself: the numbers of its calls, where they wait, and the form of its
replies. -/
structure Sound (side : Side) (e : LinkEnd) : Prop where
  side_eq : e.connection.side = side
  nextMid_eq : e.connection.nextMid = side.mid e.calls.length
  mid_eq : ∀ (place : ℕ) (call : Request), e.calls[place]? = some call → call.mid = side.mid place
  pending : ∀ p ∈ e.connection.pending, ∃ call, e.calls[p.2]? = some call ∧ call.mid = p.1
  once : (e.connection.pending.map Prod.snd ++ e.received.map Prod.fst).Nodup
  received : ∀ p ∈ e.received, p.1 < e.calls.length
  replies : ∀ a ∈ e.answered, a.reply.mid = a.request.mid ∧ a.reply.key = a.request.key ∧
    a.reply.payload.isRequest = false

variable {side : Side} {e : LinkEnd}

theorem sound_new (side : Side) : Sound side { connection := .new side } where
  side_eq := rfl
  nextMid_eq := side.mid_zero.symm
  mid_eq := fun place call h => by cases h
  pending := List.forall_mem_nil _
  once := List.nodup_nil
  received := List.forall_mem_nil _
  replies := List.forall_mem_nil _

/-- A call takes the next number. It waits for an answer, and its line is written, unless the
connection is closed. -/
theorem call_eq (e : LinkEnd) (key : String) (data : Json) :
    e.call key data =
      let request : Request := ⟨e.connection.nextMid, key, data⟩
      let nextMid := e.connection.nextMid + e.connection.side.step
      let calls := e.calls ++ [request]
      if e.connection.closed then { e with connection := { e.connection with nextMid }, calls }
      else
        { e with
          connection := { e.connection with
            nextMid, pending := (request.mid, e.calls.length) :: e.connection.pending }
          outbox := e.outbox ++ [request.envelope.line]
          calls } := by
  simp only [call, Connection.call]
  split
  · simp only [Option.toList_none, List.map_nil, List.append_nil]
  · rfl

/-- A call already made keeps its place when another is made. -/
theorem getElem?_calls_append {calls : List Request} {place : ℕ} {call : Request}
    (h : calls[place]? = some call) (more : List Request) :
    (calls ++ more)[place]? = some call := by
  rw [List.getElem?_append_left (List.getElem?_eq_some_iff.1 h).1, h]

theorem Sound.call (h : e.Sound side) (key : String) (data : Json) :
    (e.call key data).Sound side := by
  have hpending : ∀ p ∈ e.connection.pending,
      ∃ call, (e.calls ++ [⟨e.connection.nextMid, key, data⟩])[p.2]? = some call ∧
        call.mid = p.1 := by
    intro p hp
    obtain ⟨call, hcall, hmid⟩ := h.pending p hp
    exact ⟨call, getElem?_calls_append hcall _, hmid⟩
  have hnew : (e.calls ++ [⟨e.connection.nextMid, key, data⟩])[e.calls.length]? =
      some (⟨e.connection.nextMid, key, data⟩ : Request) := List.getElem?_concat_length
  have hsound (pending : List (Int64 × ℕ)) (outbox : List String)
      (hpending : ∀ p ∈ pending, ∃ call, (e.calls ++ [⟨e.connection.nextMid, key, data⟩])[p.2]? =
        some call ∧ call.mid = p.1)
      (honce : (pending.map Prod.snd ++ e.received.map Prod.fst).Nodup) :
      Sound side
        { e with
          connection := { e.connection with
            nextMid := e.connection.nextMid + e.connection.side.step, pending }
          outbox
          calls := e.calls ++ [⟨e.connection.nextMid, key, data⟩] } :=
    { side_eq := h.side_eq
      nextMid_eq := by
        rw [List.length_append, List.length_singleton, Side.mid_succ, ← h.nextMid_eq, h.side_eq]
      mid_eq := by
        intro place call hcall
        rw [List.getElem?_append] at hcall
        split at hcall
        · exact h.mid_eq place call hcall
        · rw [List.getElem?_singleton, Option.ite_none_right_eq_some] at hcall
          obtain rfl : place = e.calls.length := by omega
          rw [← Option.some.inj hcall.2]
          exact h.nextMid_eq
      pending := hpending
      once := honce
      received := fun p hp =>
        (h.received p hp).trans_le (by rw [List.length_append]; exact Nat.le_add_right _ _)
      replies := h.replies }
  rw [call_eq]
  split
  · exact hsound _ _ hpending h.once
  · refine hsound _ _ (List.forall_mem_cons.2 ⟨⟨_, hnew, rfl⟩, hpending⟩) ?_
    rw [List.map_cons, List.cons_append, List.nodup_cons, List.mem_append, not_or, List.mem_map,
      List.mem_map]
    refine ⟨⟨?_, ?_⟩, h.once⟩
    · rintro ⟨p, hp, hplace⟩
      obtain ⟨call, hcall, -⟩ := h.pending p hp
      exact absurd (List.getElem?_eq_some_iff.1 hcall).1 (by omega)
    · rintro ⟨p, hp, hplace⟩
      exact absurd (h.received p hp) (by omega)

theorem Sound.answer (h : e.Sound side) {request : Request} {reply : Envelope}
    (hmid : reply.mid = request.mid) (hkey : reply.key = request.key)
    (hreply : reply.payload.isRequest = false) : (e.answer request reply).Sound side :=
  { h with
    replies := List.forall_mem_append.2
      ⟨h.replies, List.forall_mem_singleton.2 ⟨hmid, hkey, hreply⟩⟩ }

/-- A call that receives its payload waits no longer, and had received none. -/
theorem Sound.once_deliver (h : e.Sound side) {mid : Int64} {tag : ℕ} {payload : Payload}
    (hpending : (mid, tag) ∈ e.connection.pending) :
    ((e.connection.pending.filter (·.1 != mid)).map Prod.snd ++
      (e.received ++ [(tag, payload)]).map Prod.fst).Nodup := by
  obtain ⟨hwaiting, hreceived, hdisjoint⟩ := List.nodup_append.1 h.once
  have htag : tag ∈ e.connection.pending.map Prod.snd := List.mem_map_of_mem hpending
  rw [List.map_append, List.map_singleton]
  refine List.nodup_append.2 ⟨hwaiting.sublist (List.filter_sublist.map _), ?_, ?_⟩
  · refine List.nodup_append.2 ⟨hreceived, List.nodup_singleton tag, fun a ha b hb => ?_⟩
    rw [List.mem_singleton.1 hb]
    exact (hdisjoint tag htag a ha).symm
  · intro a ha b hb
    obtain ⟨p, hp, rfl⟩ := List.mem_map.1 ha
    obtain ⟨hp, hmid⟩ := List.mem_filter.1 hp
    rcases List.mem_append.1 hb with hb | hb
    · exact hdisjoint _ (List.mem_map_of_mem hp) b hb
    · rintro rfl
      have heq := List.inj_on_of_nodup_map hwaiting hp hpending (List.mem_singleton.1 hb)
      rw [heq, bne_self_eq_false] at hmid
      cases hmid

theorem Sound.receive (h : e.Sound side) (line : String) : (e.receive line).Sound side := by
  have hreceives := e.receives line
  generalize e.receive line = after at hreceives
  cases hreceives with
  | ignored => exact h
  | handled => exact { h with }
  | refused request reply _ hmid hkey hreply => exact h.answer hmid hkey hreply
  | delivered envelope tag _ _ hpending =>
    obtain ⟨call, hcall, -⟩ := h.pending _ hpending
    exact { h with
      pending := fun p hp => h.pending p (List.mem_of_mem_filter hp)
      once := h.once_deliver hpending
      received := List.forall_mem_append.2 ⟨h.received,
        List.forall_mem_singleton.2 (List.getElem?_eq_some_iff.1 hcall).1⟩ }

/-! ## An end and its peer -/

/-- The requests of an end that are on their way to the peer or in its hands. -/
def underway (e peer : LinkEnd) : Multiset Request :=
  e.outbox.filterMap Request.ofLine? + peer.inbox.filterMap Request.ofLine? +
    peer.tasks + peer.answered.map Exchange.request

/-- The requests that an end made, as the peer reads them. -/
def made (e : LinkEnd) : Multiset Request :=
  e.calls.filterMap Request.arrived?

/-- What ties the calls of an end to the answers of its peer. -/
structure Tied (e peer : LinkEnd) : Prop where
  requests : e.underway peer ≤ e.made
  replies : ∀ line ∈ peer.outbox ++ e.inbox, ∀ reply, Envelope.ofLine? line = some reply →
    reply.payload.isRequest = false → ∃ a ∈ peer.answered, a.reply.line = line
  received : ∀ p ∈ e.received, ∃ call, e.calls[p.1]? = some call ∧ ∃ a ∈ peer.answered,
    a.request.mid = call.mid ∧ Envelope.ofLine? a.reply.line = some { a.reply with payload := p.2 }

variable {peer : LinkEnd}

theorem ofLine?_reply {reply : Envelope} (h : reply.payload.isRequest = false) :
    Request.ofLine? reply.line = none := by
  rw [Request.ofLine?, Envelope.ofLine?_line]
  cases hpayload : reply.payload.arrived? with
  | none => rfl
  | some payload =>
    exact Request.ofEnvelope?_eq_none ((Payload.isRequest_of_arrived? hpayload).trans h)

theorem filterMap_ofLine?_singleton (line : String) :
    [line].filterMap Request.ofLine? = (Request.ofLine? line).toList := by
  rw [List.filterMap_cons, List.filterMap_nil]
  cases Request.ofLine? line <;> rfl

theorem made_call (e : LinkEnd) (key : String) (data : Json) :
    (e.call key data).made =
      e.made + (Request.arrived? ⟨e.connection.nextMid, key, data⟩).toList := by
  have hcalls : (e.call key data).calls = e.calls ++ [⟨e.connection.nextMid, key, data⟩] := by
    rw [call_eq]
    split <;> rfl
  rw [made, made, hcalls, List.filterMap_append, Multiset.coe_add]
  cases h : Request.arrived? ⟨e.connection.nextMid, key, data⟩ <;> simp [h]

theorem Tied.call_self (h : e.Tied peer) (key : String) (data : Json) :
    (e.call key data).Tied peer := by
  have hreceived : ∀ p ∈ e.received, ∃ call,
      (e.calls ++ [⟨e.connection.nextMid, key, data⟩])[p.1]? = some call ∧
        ∃ a ∈ peer.answered, a.request.mid = call.mid ∧
          Envelope.ofLine? a.reply.line = some { a.reply with payload := p.2 } := by
    intro p hp
    obtain ⟨call, hcall, ha⟩ := h.received p hp
    exact ⟨call, getElem?_calls_append hcall _, ha⟩
  have hmade := made_call e key data
  rw [call_eq] at hmade ⊢
  split at hmade
  · next hclosed =>
    rw [if_pos hclosed]
    refine ⟨?_, h.replies, hreceived⟩
    rw [hmade]
    exact h.requests.trans (Multiset.le_add_right _ _)
  · next hopen =>
    rw [if_neg hopen]
    refine ⟨?_, h.replies, hreceived⟩
    rw [hmade]
    refine le_trans (le_of_eq ?_) (add_le_add_left h.requests _)
    simp only [underway, List.filterMap_append, filterMap_ofLine?_singleton, Request.ofLine?_line,
      ← Multiset.coe_add]
    abel

theorem Tied.call_peer (h : e.Tied peer) (key : String) (data : Json) :
    e.Tied (peer.call key data) := by
  rw [call_eq]
  split
  · exact { h with }
  · refine { h with replies := ?_ }
    intro line hline reply hreply hanswer
    simp only [List.mem_append, List.mem_singleton] at hline
    rcases hline with (hline | rfl) | hline
    · exact h.replies line (List.mem_append_left _ hline) reply hreply hanswer
    · rw [Envelope.ofLine?_line] at hreply
      obtain ⟨payload, hpayload, rfl⟩ := Option.map_eq_some_iff.1 hreply
      rw [Payload.isRequest_of_arrived? hpayload] at hanswer
      cases hanswer
    · exact h.replies line (List.mem_append_right _ hline) reply hreply hanswer

theorem Tied.answer_self (h : e.Tied peer) {request : Request} {reply : Envelope}
    (hreply : reply.payload.isRequest = false) : (e.answer request reply).Tied peer := by
  refine { h with requests := ?_ }
  rw [underway, answer, List.filterMap_append, List.filterMap_cons, ofLine?_reply hreply,
    List.filterMap_nil, List.append_nil]
  exact h.requests

/-- A request that is taken in hand is answered. -/
theorem Tied.answer_peer (h : e.Tied peer) {request : Request} (reply : Envelope)
    (hrequest : e.underway peer + {request} ≤ e.made) : e.Tied (peer.answer request reply) where
  requests := by
    refine le_trans (le_of_eq ?_) hrequest
    simp only [underway, answer, List.map_append, ← Multiset.coe_add, List.map_singleton,
      Multiset.coe_singleton]
    abel
  replies := by
    intro line hline envelope henvelope hanswer
    simp only [answer, List.mem_append, List.mem_singleton] at hline
    rcases hline with (hline | rfl) | hline
    · obtain ⟨a, ha, hreply⟩ :=
        h.replies line (List.mem_append_left _ hline) envelope henvelope hanswer
      exact ⟨a, List.mem_append_left _ ha, hreply⟩
    · exact ⟨⟨request, reply⟩, List.mem_append_right _ (List.mem_singleton_self _), rfl⟩
    · obtain ⟨a, ha, hreply⟩ :=
        h.replies line (List.mem_append_right _ hline) envelope henvelope hanswer
      exact ⟨a, List.mem_append_left _ ha, hreply⟩
  received := by
    intro p hp
    obtain ⟨call, hcall, a, ha, hanswer⟩ := h.received p hp
    exact ⟨call, hcall, a, List.mem_append_left _ ha, hanswer⟩

theorem Tied.handle_peer (h : e.Tied peer) {request : Request}
    (hrequest : e.underway peer + {request} ≤ e.made) :
    e.Tied { peer with tasks := peer.tasks ++ [request] } := by
  refine { h with requests := le_trans (le_of_eq ?_) hrequest }
  simp only [underway, ← Multiset.coe_add, Multiset.coe_singleton]
  abel

/-! ### Lines on their way -/

theorem Tied.send_self (h : e.Tied peer) {before after : List String} {line : String}
    (houtbox : e.outbox = before ++ line :: after) :
    Tied { e with outbox := before ++ after } { peer with inbox := peer.inbox ++ [line] } := by
  refine { h with requests := le_trans (le_of_eq ?_) h.requests }
  rw [underway, underway, houtbox, List.append_cons before line after]
  simp only [List.filterMap_append, ← Multiset.coe_add]
  abel

theorem Tied.send_peer (h : e.Tied peer) {before after : List String} {line : String}
    (houtbox : peer.outbox = before ++ line :: after) :
    Tied { e with inbox := e.inbox ++ [line] } { peer with outbox := before ++ after } := by
  refine { h with replies := fun other hother => h.replies other ?_ }
  rw [houtbox]
  simp only [List.mem_append, List.mem_cons, List.not_mem_nil] at hother ⊢
  tauto

theorem Tied.inject_self (h : e.Tied peer) {before after : List String} {line : String}
    (hline : Envelope.ofLine? line = none) (hinbox : e.inbox = before ++ after) :
    Tied { e with inbox := before ++ line :: after } peer := by
  refine { h with replies := fun other hother reply hreply => h.replies other ?_ reply hreply }
  rw [hinbox]
  simp only [List.mem_append, List.mem_cons] at hother ⊢
  have hne : other ≠ line := by
    rintro rfl
    rw [hline] at hreply
    cases hreply
  tauto

theorem Tied.inject_peer (h : e.Tied peer) {before after : List String} {line : String}
    (hline : Envelope.ofLine? line = none) (hinbox : peer.inbox = before ++ after) :
    e.Tied { peer with inbox := before ++ line :: after } := by
  refine { h with requests := le_trans (le_of_eq ?_) h.requests }
  have hnone : Request.ofLine? line = none := by rw [Request.ofLine?, hline, Option.bind_none]
  rw [underway, underway, hinbox, List.filterMap_append, List.filterMap_append,
    List.filterMap_cons, hnone]

/-! ### Lines that arrive -/

theorem Tied.receive_self (h : e.Tied peer) (he : e.Sound side) (hpeer : peer.Sound side.other)
    {line : String} {rest : List String} (hinbox : e.inbox = line :: rest) :
    Tied ({ e with inbox := rest }.receive line) peer := by
  have hrest : Tied { e with inbox := rest } peer := by
    refine { h with replies := fun other hother => h.replies other ?_ }
    rw [hinbox]
    simp only [List.mem_append, List.mem_cons] at hother ⊢
    tauto
  have hreceives := LinkEnd.receives { e with inbox := rest } line
  generalize LinkEnd.receive { e with inbox := rest } line = after at hreceives
  cases hreceives with
  | ignored => exact hrest
  | handled => exact { hrest with }
  | refused request reply _ _ _ hreply => exact hrest.answer_self hreply
  | delivered envelope tag henvelope hreply hpending =>
    refine { hrest with received := List.forall_mem_append.2 ⟨h.received,
      List.forall_mem_singleton.2 ?_⟩ }
    have hmem : line ∈ peer.outbox ++ e.inbox := by
      rw [hinbox]
      exact List.mem_append_right _ List.mem_cons_self
    obtain ⟨a, ha, rfl⟩ := h.replies line hmem envelope henvelope hreply
    obtain ⟨call, hcall, hmid⟩ := he.pending _ hpending
    have hread := henvelope
    rw [Envelope.ofLine?_line] at hread
    obtain ⟨payload, -, rfl⟩ := Option.map_eq_some_iff.1 hread
    exact ⟨call, hcall, a, ha, (hpeer.replies a ha).1.symm.trans hmid.symm, henvelope⟩

theorem Tied.receive_peer (h : e.Tied peer) {line : String} {rest : List String}
    (hinbox : peer.inbox = line :: rest) :
    e.Tied ({ peer with inbox := rest }.receive line) := by
  have hunderway : e.underway peer =
      e.underway { peer with inbox := rest } + (Request.ofLine? line).toList := by
    have hline := filterMap_ofLine?_singleton line
    rw [underway, underway, hinbox, ← List.singleton_append, List.filterMap_append, hline]
    simp only [← Multiset.coe_add]
    abel
  have hrequests := h.requests
  rw [hunderway] at hrequests
  have hrest : e.Tied { peer with inbox := rest } :=
    { h with requests := (Multiset.le_add_right _ _).trans hrequests }
  have hreceives := LinkEnd.receives { peer with inbox := rest } line
  generalize LinkEnd.receive { peer with inbox := rest } line = after at hreceives
  cases hreceives with
  | ignored => exact hrest
  | handled request hline =>
    rw [hline] at hrequests
    exact hrest.handle_peer hrequests
  | refused request reply hline =>
    rw [hline] at hrequests
    exact hrest.answer_peer reply hrequests
  | delivered => exact { hrest with }

/-- A handler that finishes has its request in hand. -/
theorem Tied.complete_peer (h : e.Tied peer) {before after : List Request} {request : Request}
    (htasks : peer.tasks = before ++ request :: after) (reply : Envelope) :
    e.Tied ({ peer with tasks := before ++ after }.answer request reply) := by
  have hunderway : e.underway peer =
      e.underway { peer with tasks := before ++ after } + {request} := by
    rw [underway, underway, htasks, List.append_cons before request after]
    simp only [← Multiset.coe_add, Multiset.coe_singleton]
    abel
  have hrequests := h.requests
  rw [hunderway] at hrequests
  have hrest : e.Tied { peer with tasks := before ++ after } :=
    { h with requests := (Multiset.le_add_right _ _).trans hrequests }
  exact hrest.answer_peer reply hrequests

end LinkEnd

/-! ## Runs -/

theorem Connection.isRequest_reply (mid : Int64) (key : String) (result : Except Failure Json) :
    (reply mid key result).mid = mid ∧ (reply mid key result).key = key ∧
      (reply mid key result).payload.isRequest = false := by
  cases result <;> exact ⟨rfl, rfl, rfl⟩

namespace Link

/-- What every step of a link preserves. -/
def Invariant (l : Link) : Prop :=
  ∀ side : Side, (l side).Sound side ∧ (l side).Tied (l side.other)

theorem Invariant.of_ends {l : Link} (side : Side) (hself : (l side).Sound side)
    (hpeer : (l side.other).Sound side.other) (hcalls : (l side).Tied (l side.other))
    (hanswers : (l side.other).Tied (l side)) : l.Invariant := by
  intro other
  by_cases h : other = side
  · subst h
    exact ⟨hself, hcalls⟩
  · obtain rfl : other = side.other := by
      cases other <;> cases side <;> first | rfl | exact absurd rfl h
    rw [Side.other_other]
    exact ⟨hpeer, hanswers⟩

theorem Invariant.update {l : Link} (h : l.Invariant) {side : Side} {e : LinkEnd}
    (hself : e.Sound side) (hcalls : e.Tied (l side.other)) (hanswers : (l side.other).Tied e) :
    Invariant (Function.update l side e) := by
  apply of_ends side
  all_goals
    simp only [Function.update_self, Function.update_of_ne (Side.other_ne side)]
  · exact hself
  · exact (h side.other).1
  · exact hcalls
  · exact hanswers

theorem invariant_new : new.Invariant := by
  intro side
  refine ⟨LinkEnd.sound_new side, ?_, ?_, ?_⟩
  · exact Multiset.zero_le _
  · exact List.forall_mem_nil _
  · exact List.forall_mem_nil _

/-- Every step preserves the invariant. -/
theorem Step.invariant {l l' : Link} (hstep : Step l l') (h : l.Invariant) : l'.Invariant := by
  have hanswers (side : Side) : (l side.other).Tied (l side) := by
    have := (h side.other).2
    rwa [Side.other_other] at this
  cases hstep with
  | addKey side key | removeKey side key =>
    exact h.update { (h side).1 with } { (h side).2 with } { hanswers side with }
  | call side key data =>
    exact h.update ((h side).1.call key data) ((h side).2.call_self key data)
      ((hanswers side).call_peer key data)
  | send side before after line houtbox =>
    have hne := Side.other_ne side
    apply Invariant.of_ends side
    all_goals simp only [Function.update_self, Function.update_of_ne hne.symm]
    · exact { (h side).1 with }
    · exact { (h side.other).1 with }
    · exact (h side).2.send_self houtbox
    · exact (hanswers side).send_peer houtbox
  | inject side before after line hline hinbox =>
    exact h.update { (h side).1 with } ((h side).2.inject_self hline hinbox)
      ((hanswers side).inject_peer hline hinbox)
  | deliver side line rest _ hinbox =>
    have hsound : LinkEnd.Sound side { l side with inbox := rest } := { (h side).1 with }
    exact h.update (hsound.receive line)
      ((h side).2.receive_self (h side).1 (h side.other).1 hinbox)
      ((hanswers side).receive_peer hinbox)
  | complete side before after request result htasks =>
    obtain ⟨hmid, hkey, hreply⟩ := Connection.isRequest_reply request.mid request.key result
    have hsound : LinkEnd.Sound side { l side with tasks := before ++ after } :=
      { (h side).1 with }
    have htied : LinkEnd.Tied { l side with tasks := before ++ after } (l side.other) :=
      { (h side).2 with }
    exact h.update (hsound.answer hmid hkey hreply) (htied.answer_self hreply)
      ((hanswers side).complete_peer htasks _)
  | close side =>
    refine h.update ?_ { (h side).2 with } { hanswers side with }
    exact { (h side).1 with
      pending := List.forall_mem_nil _
      once := (List.nodup_append.1 (h side).1.once).2.1 }

/-- So every run does. -/
theorem Reachable.invariant {l : Link} (h : l.Reachable) : l.Invariant := by
  induction h with
  | refl => exact invariant_new
  | tail _ hstep ih => exact hstep.invariant ih

/-! ## Correlation -/

/-- Calls and replies belong together. -/
structure Correlated (l : Link) : Prop where
  /-- No number is given out twice, by one end or by both. -/
  mids_nodup : (((l .client).calls ++ (l .server).calls).map Request.mid).Nodup
  /-- A request is answered at most once. -/
  answered_nodup : ∀ side, ((l side).answered.map fun a => a.request.mid).Nodup
  /-- What a call receives is what its end reads on the line of the reply to the request that the
  peer read on the line of this call and of no other. -/
  reply_of_received : ∀ side, ∀ p ∈ (l side).received, ∃ call, (l side).calls[p.1]? = some call ∧
    ∃ a ∈ (l side.other).answered,
      Request.ofLine? call.envelope.line = some a.request ∧
      (∀ (place : ℕ) (other : Request), (l side).calls[place]? = some other →
        Request.ofLine? other.envelope.line = some a.request → place = p.1) ∧
      a.reply.mid = call.mid ∧ a.reply.key = call.key ∧
      Envelope.ofLine? a.reply.line = some { a.reply with payload := p.2 }

variable {l : Link}

theorem Invariant.map_mid_calls (h : l.Invariant) (side : Side) :
    (l side).calls.map Request.mid = (List.range (l side).calls.length).map side.mid := by
  refine List.ext_getElem? fun place => ?_
  rw [List.getElem?_map, List.getElem?_map]
  cases hcall : (l side).calls[place]? with
  | none =>
    rw [List.getElem?_eq_none_iff] at hcall
    rw [List.getElem?_eq_none (by rwa [List.length_range])]
    rfl
  | some call =>
    rw [List.getElem?_range (List.getElem?_eq_some_iff.1 hcall).1]
    exact congrArg some ((h side).1.mid_eq place call hcall)

theorem Invariant.mid_nodup (h : l.Invariant) (hcalls : ∀ side, (l side).calls.length ≤ 2 ^ 63)
    (side : Side) : ((l side).calls.map Request.mid).Nodup := by
  have hlt {place : ℕ} (hplace : place ∈ List.range (l side).calls.length) : place < 2 ^ 63 :=
    (List.mem_range.1 hplace).trans_le (hcalls side)
  rw [h.map_mid_calls]
  exact List.nodup_range.map_on fun a ha b hb => Side.mid_injective (hlt ha) (hlt hb)

theorem Invariant.mids_nodup (h : l.Invariant) (hcalls : ∀ side, (l side).calls.length ≤ 2 ^ 63) :
    (((l .client).calls ++ (l .server).calls).map Request.mid).Nodup := by
  have hlt {side : Side} {place : ℕ} (hplace : place ∈ List.range (l side).calls.length) :
      place < 2 ^ 63 := (List.mem_range.1 hplace).trans_le (hcalls side)
  rw [List.map_append]
  refine List.nodup_append.2 ⟨h.mid_nodup hcalls .client, h.mid_nodup hcalls .server, ?_⟩
  rw [h.map_mid_calls, h.map_mid_calls]
  intro m hm n hn
  obtain ⟨a, ha, rfl⟩ := List.mem_map.1 hm
  obtain ⟨b, hb, rfl⟩ := List.mem_map.1 hn
  exact Side.mid_client_ne_server (hlt ha) (hlt hb)

/-- Two calls of one end have two numbers. -/
theorem Invariant.place_eq (h : l.Invariant) (hcalls : ∀ side, (l side).calls.length ≤ 2 ^ 63)
    {side : Side} {a b : ℕ} {call other : Request} (ha : (l side).calls[a]? = some call)
    (hb : (l side).calls[b]? = some other) (hmid : call.mid = other.mid) : a = b := by
  have hlt {place : ℕ} {r : Request} (hr : (l side).calls[place]? = some r) : place < 2 ^ 63 :=
    (List.getElem?_eq_some_iff.1 hr).1.trans_le (hcalls side)
  rw [(h side).1.mid_eq a call ha, (h side).1.mid_eq b other hb] at hmid
  exact Side.mid_injective (hlt ha) (hlt hb) hmid

/-- A request that the peer answers was on the line of a call. -/
theorem Invariant.exists_call (h : l.Invariant) {side : Side} {a : Exchange}
    (ha : a ∈ (l side.other).answered) : ∃ (place : ℕ) (call : Request),
      (l side).calls[place]? = some call ∧ call.arrived? = some a.request := by
  have hunderway : a.request ∈ (l side).underway (l side.other) :=
    Multiset.mem_add.2 (Or.inr (List.mem_map_of_mem ha))
  have hmade := Multiset.mem_of_le (h side).2.requests hunderway
  obtain ⟨call, hcall, harrived⟩ := List.mem_filterMap.1 (Multiset.mem_coe.1 hmade)
  obtain ⟨place, hplace⟩ := List.mem_iff_getElem?.1 hcall
  exact ⟨place, call, hplace, harrived⟩

theorem map_mid_filterMap_arrived? (calls : List Request) :
    ((calls.filterMap Request.arrived?).map Request.mid).Sublist (calls.map Request.mid) := by
  induction calls with
  | nil => exact List.Sublist.refl _
  | cons call calls ih =>
    rw [List.filterMap_cons, List.map_cons]
    split
    · exact ih.cons _
    · next request harrived =>
      rw [List.map_cons, Request.mid_of_arrived? harrived]
      exact ih.cons_cons _

theorem Invariant.answered_nodup (h : l.Invariant)
    (hcalls : ∀ side, (l side).calls.length ≤ 2 ^ 63) (side : Side) :
    ((l side.other).answered.map fun a => a.request.mid).Nodup := by
  have hanswered :
      (((l side.other).answered.map Exchange.request : List Request) : Multiset Request) ≤
        (l side).made :=
    (Multiset.le_add_left _ _).trans (h side).2.requests
  have hmids := Multiset.map_le_map (f := Request.mid) hanswered
  have hnodup : Multiset.Nodup ((l side).made.map Request.mid) :=
    Multiset.coe_nodup.2 ((h.mid_nodup hcalls side).sublist (map_mid_filterMap_arrived? _))
  have hlist := Multiset.coe_nodup.1 (Multiset.nodup_of_le hmids hnodup)
  rwa [List.map_map] at hlist

theorem correlated_of_invariant (h : l.Invariant)
    (hcalls : ∀ side, (l side).calls.length ≤ 2 ^ 63) : l.Correlated where
  mids_nodup := h.mids_nodup hcalls
  answered_nodup := fun side => by
    have := h.answered_nodup hcalls side.other
    rwa [Side.other_other] at this
  reply_of_received := by
    intro side p hp
    obtain ⟨call, hcall, a, ha, hmid, hread⟩ := (h side).2.received p hp
    obtain ⟨place, maker, hmaker, harrived⟩ := h.exists_call ha
    have hmakerMid : maker.mid = call.mid := (Request.mid_of_arrived? harrived).symm.trans hmid
    obtain rfl := h.place_eq hcalls hmaker hcall hmakerMid
    obtain rfl : maker = call := Option.some.inj (hmaker.symm.trans hcall)
    obtain ⟨hreplyMid, hreplyKey, -⟩ := (h side.other).1.replies a ha
    have hkey : a.request.key = maker.key := by
      obtain ⟨data, -, hrequest⟩ := Option.map_eq_some_iff.1 harrived
      rw [← hrequest]
    refine ⟨maker, hcall, a, ha, (Request.ofLine?_line maker).trans harrived, ?_,
      hreplyMid.trans hmid, hreplyKey.trans hkey, hread⟩
    intro other request hother hrequest
    rw [Request.ofLine?_line] at hrequest
    exact h.place_eq hcalls hother hcall
      ((Request.mid_of_arrived? hrequest).symm.trans (Request.mid_of_arrived? harrived))

/-- **Correlation.** After every run no call has received two payloads, and if no end has made more
than `2 ^ 63` calls, calls and replies belong together. -/
theorem correlated (h : l.Reachable) :
    (∀ side, ((l side).received.map Prod.fst).Nodup) ∧
      ((∀ side, (l side).calls.length ≤ 2 ^ 63) → l.Correlated) :=
  ⟨fun side => (List.nodup_append.1 (h.invariant side).1.once).2.1,
    correlated_of_invariant h.invariant⟩

/-! ### A call and its reply -/

/-- A link with the given ends. -/
def ofEnds (client server : LinkEnd) : Link
  | .client => client
  | .server => server

theorem update_client (client server e : LinkEnd) :
    Function.update (ofEnds client server) .client e = ofEnds e server := by
  funext side
  cases side <;> rfl

theorem update_server (client server e : LinkEnd) :
    Function.update (ofEnds client server) .server e = ofEnds client e := by
  funext side
  cases side <;> rfl

/-- The first call of a client. -/
def ping : Request :=
  ⟨0, "ping", .null⟩

/-- The reply of a server to it. -/
def pong : Envelope :=
  .current 0 "ping" (.response (.bool true))

/-- The client when its call is answered. -/
def pinged : LinkEnd where
  connection := { side := .client, nextMid := 1 }
  calls := [ping]
  received := [(0, .response (.bool true))]

/-- The server when it has answered. -/
def ponged : LinkEnd where
  connection := { side := .server, nextMid := -1, keys := ["ping"] }
  answered := [⟨ping, pong⟩]

theorem ofLine?_ping : Envelope.ofLine? ping.envelope.line = some ping.envelope := by
  rw [Envelope.ofLine?_line]
  change Option.map _ ((Json.null.through .text).value?.map Payload.request) = _
  rw [Json.through_null]
  rfl

theorem ofLine?_pong : Envelope.ofLine? pong.line = some pong := by
  rw [Envelope.ofLine?_line]
  change Option.map _ (((Json.bool true).through .text).value?.map Payload.response) = _
  rw [Json.through_bool]
  rfl

theorem receive_ping : LinkEnd.receive
    { connection := { side := .server, nextMid := -1, keys := ["ping"] } } ping.envelope.line =
      { connection := { side := .server, nextMid := -1, keys := ["ping"] }, tasks := [ping] } := by
  rw [LinkEnd.receive, Connection.receive, ofLine?_ping]
  rfl

theorem receive_pong : LinkEnd.receive
    { connection := { side := .client, nextMid := 1, pending := [(0, 0)] }, calls := [ping] }
    pong.line = pinged := by
  rw [LinkEnd.receive, Connection.receive, ofLine?_pong]
  rfl

theorem reachable_ping : (ofEnds pinged ponged).Reachable := by
  have h₀ : new.Reachable := Relation.ReflTransGen.refl
  have hnew : new = ofEnds (new .client) (new .server) := by
    funext side
    cases side <;> rfl
  rw [hnew] at h₀
  have h₁ := h₀.tail (.addKey .server "ping")
  rw [update_server] at h₁
  have h₂ := h₁.tail (.call .client "ping" .null)
  rw [update_client] at h₂
  have h₃ := h₂.tail (.send .client [] [] ping.envelope.line rfl)
  rw [update_client, Side.other, update_server] at h₃
  have h₄ := h₃.tail (.deliver .server ping.envelope.line [] rfl rfl)
  rw [update_server] at h₄
  have h₅ : Reachable (ofEnds
      { connection := { side := .client, nextMid := 1, pending := [(0, 0)] }, calls := [ping] }
      { connection := { side := .server, nextMid := -1, keys := ["ping"] }, tasks := [ping] }) := by
    rw [← receive_ping]
    exact h₄
  have h₆ := h₅.tail (.complete .server [] [] ping (.ok (.bool true)) rfl)
  rw [update_server] at h₆
  have h₇ := h₆.tail (.send .server [] [] pong.line rfl)
  rw [update_server, Side.other, update_client] at h₇
  have h₈ := h₇.tail (.deliver .client pong.line [] rfl rfl)
  rw [update_client] at h₈
  rw [← receive_pong]
  exact h₈

/-- The client's call has the reply of the server. -/
theorem ping_correlated :
    (ofEnds pinged ponged).Reachable ∧ (ofEnds pinged ponged .client).received ≠ [] ∧
      (ofEnds pinged ponged).Correlated :=
  ⟨reachable_ping, List.cons_ne_nil _ _,
    (correlated reachable_ping).2 fun side => by cases side <;> decide⟩

end Link

end TypeAtlas
