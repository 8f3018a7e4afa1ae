import Mathlib.Tactic.Abel
import TypeAtlas.Proofs.Wire.Events
/-!
# One end against any peer

Whatever lines arrive and whenever calls are made and handlers return, an end keeps its accounts
(`Party.accounted`): it replies once to every request that it can read and to nothing else, a call
comes out once, with the first answer under its number or with an error at the end of the input, and
lines that are no envelopes make no difference.

The requests are counted in `Party.requested`, which grows by those on each line. For the calls, an
event either leaves all of them alone or does one of four things (`Party.turns`), and `Party.Sound`
says which of them can still come out.
-/

namespace TypeAtlas

/-! ## Numbers -/

namespace Party

open Event

variable {p q : Party} {side : Side} {place : ℕ}

/-! ## Requests -/

theorem mem_of_lookup {mid : Int64} {pending : List (Int64 × ℕ)}
    (h : pending.lookup mid = some place) : (mid, place) ∈ pending := by
  obtain ⟨before, after, hsplit, -⟩ := List.lookup_eq_some_iff.1 h
  exact hsplit ▸ List.mem_append_right _ List.mem_cons_self

theorem mem_waiting {mid : Int64} (h : p.connection.pending.lookup mid = some place) :
    place ∈ p.waiting :=
  List.mem_map_of_mem (mem_of_lookup h)

theorem Reserved.head {mid : Int64} {e : Event} {events : List Event}
    (h : p.Reserved mid (e :: events)) : p.Reserved mid [e] := by
  intro before key data after heq
  exact h before key data (after ++ events) (by
    rw [← List.singleton_append, heq, List.append_assoc, List.cons_append])

theorem Reserved.tail {mid : Int64} {e : Event} {events : List Event}
    (h : p.Reserved mid (e :: events)) (hfate : fate? mid [e] = none) :
    (p.step e).Reserved mid events := by
  intro before key data after heq hbefore
  exact h (e :: before) key data after (congrArg _ heq) (by
    rw [fate?_cons, hfate, Option.none_or, hbefore])

theorem outcomes_append {log : List (Occasion ℕ)} (hlog : q.log = p.log ++ log) (place : ℕ) :
    q.outcomes place = p.outcomes place ++ log.filterMap (outcomeOf? place) := by
  rw [outcomes, hlog, List.filterMap_append]
  rfl

theorem outcomes_sent {envelope : Envelope} (hlog : q.log = p.log ++ [.sent envelope])
    (place : ℕ) : q.outcomes place = p.outcomes place := by
  rw [outcomes_append hlog]
  exact List.append_nil _

/-- Two ends with the same calls. -/
structure SameCalls (p q : Party) : Prop where
  side : q.connection.side = p.connection.side
  nextMid : q.connection.nextMid = p.connection.nextMid
  pending : q.connection.pending = p.connection.pending
  calls : q.calls = p.calls
  outcomes : ∀ place, q.outcomes place = p.outcomes place

/-- What an event makes of the calls of an end: all that can happen. -/
inductive Turns (p : Party) : Event → Party → Prop
  | idle {e : Event} {q : Party} (hsame : p.SameCalls q)
    (hfate : ∀ mid ∈ p.connection.pending.map Prod.fst, fate? mid [e] = none) : Turns p e q
  | rejected (key : String) (data : Json) : Turns p (.call key data)
      { p with
        connection := { p.connection with
          nextMid := p.connection.nextMid + p.connection.side.step }
        calls := p.calls + 1
        log := p.log ++ [.finished p.calls (.error .connectionClosed)] }
  | called (key : String) (data : Json) : Turns p (.call key data)
      { p with
        connection := { p.connection with
          nextMid := p.connection.nextMid + p.connection.side.step
          pending := (p.connection.nextMid, p.calls) :: p.connection.pending }
        calls := p.calls + 1
        log := p.log ++ [.sent (.current p.connection.nextMid key (.request data))] }
  | delivered (text : String) (mid : Int64) (call : ℕ) (payload : Payload)
    (hanswer : answerOn? mid text = some payload)
    (hlookup : p.connection.pending.lookup mid = some call) :
    Turns p (.line text)
      { p with
        connection := { p.connection with pending := p.connection.pending.filter (·.1 != mid) }
        log := p.log ++ [.finished call (.ok payload)] }
  | closed : Turns p .ended p.close

theorem SameCalls.of_sent {envelope : Envelope} {connection : Connection ℕ}
    (hside : connection.side = p.connection.side)
    (hnextMid : connection.nextMid = p.connection.nextMid)
    (hpending : connection.pending = p.connection.pending) (tasks : List Request) :
    p.SameCalls { p with connection, tasks, log := p.log ++ [.sent envelope] } where
  side := hside
  nextMid := hnextMid
  pending := hpending
  calls := rfl
  outcomes := outcomes_sent rfl

theorem SameCalls.refl (p : Party) : p.SameCalls p :=
  ⟨rfl, rfl, rfl, rfl, fun _ => rfl⟩

theorem turns (h : p.Quiet) (e : Event) : p.Turns e (p.step e) := by
  cases e with
  | addKey | removeKey =>
    exact .idle ⟨rfl, rfl, rfl, rfl, fun _ => rfl⟩ fun _ _ => rfl
  | ended => exact .closed
  | returned task result =>
    refine .idle ?_ fun _ _ => rfl
    rw [step]
    rcases p.complete_cases task result with h | ⟨before, request, after, -, h⟩
    · rw [h]
      exact .refl p
    · rw [h]
      exact .of_sent rfl rfl rfl _
  | call key data =>
    rw [step]
    cases hclosed : p.connection.closed with
    | true => exact call_of_closed hclosed key data ▸ .rejected key data
    | false => exact call_of_open hclosed key data ▸ .called key data
  | line text =>
    rw [step]
    cases hclosed : p.connection.closed with
    | true =>
      rw [receive_of_closed hclosed]
      exact .idle (.refl p) fun mid hmid => by rw [h hclosed] at hmid; cases hmid
    | false =>
      have hreceives := receives hclosed text
      generalize p.receive text = q at hreceives
      cases hreceives with
      | ignored _ hanswer =>
        exact .idle (.refl p) fun mid hmid => by rw [fate?_line, hanswer mid hmid]; rfl
      | handled request hrequest =>
        refine .idle ⟨rfl, rfl, rfl, rfl, fun _ => rfl⟩ fun mid _ => ?_
        rw [fate?_line, answerOn?_eq_none_of_request hrequest]
        rfl
      | refused request error hrequest =>
        refine .idle (.of_sent rfl rfl rfl _) fun mid _ => ?_
        rw [fate?_line, answerOn?_eq_none_of_request hrequest]
        rfl
      | delivered mid call payload hanswer hlookup =>
        exact .delivered text mid call payload hanswer hlookup

/-- Under which numbers calls wait, and that nothing has been told of them. -/
structure Sound (side : Side) (p : Party) : Prop where
  side_eq : p.connection.side = side
  nextMid_eq : p.connection.nextMid = side.mid p.calls
  mid_eq : ∀ entry ∈ p.connection.pending, entry.1 = side.mid entry.2
  nodup : p.waiting.Nodup
  lt_calls : ∀ place ∈ p.waiting, place < p.calls
  outcomes_eq_nil : ∀ place ∈ p.waiting, p.outcomes place = []
  fresh : ∀ place, p.calls ≤ place → p.outcomes place = []

theorem sound_new (side : Side) : (new side).Sound side where
  side_eq := rfl
  nextMid_eq := side.mid_zero.symm
  mid_eq := List.forall_mem_nil _
  nodup := List.nodup_nil
  lt_calls := List.forall_mem_nil _
  outcomes_eq_nil := List.forall_mem_nil _
  fresh := fun _ _ => rfl

theorem SameCalls.waiting (h : p.SameCalls q) : q.waiting = p.waiting := by
  rw [Party.waiting, Party.waiting, h.pending]

theorem SameCalls.sound (hsame : p.SameCalls q) (h : p.Sound side) : q.Sound side where
  side_eq := hsame.side.trans h.side_eq
  nextMid_eq := by rw [hsame.nextMid, hsame.calls, h.nextMid_eq]
  mid_eq := hsame.pending ▸ h.mid_eq
  nodup := hsame.waiting ▸ h.nodup
  lt_calls := by rw [hsame.waiting, hsame.calls]; exact h.lt_calls
  outcomes_eq_nil := fun place hplace => by
    rw [hsame.outcomes, h.outcomes_eq_nil place (hsame.waiting ▸ hplace)]
  fresh := fun place hplace => by rw [hsame.outcomes, h.fresh place (hsame.calls ▸ hplace)]

/-- What is told of several calls at once. -/
theorem outcomes_finished (calls : List ℕ) {outcome : Except WireError Payload}
    (hlog : q.log = p.log ++ calls.map fun call => .finished call outcome)
    (hnodup : calls.Nodup) (place : ℕ) :
    q.outcomes place = p.outcomes place ++ if place ∈ calls then [outcome] else [] := by
  rw [outcomes_append hlog]
  refine congrArg _ ?_
  clear hlog
  induction calls with
  | nil => rfl
  | cons call calls ih =>
    obtain ⟨hcall, hnodup⟩ := List.nodup_cons.1 hnodup
    rw [List.map_cons]
    by_cases hplace : call = place
    · have hhead : outcomeOf? place (.finished call outcome) = some outcome := if_pos hplace
      rw [List.filterMap_cons_some hhead, ih hnodup, ← hplace, if_neg hcall,
        if_pos List.mem_cons_self]
    · have hhead : outcomeOf? place (.finished call outcome) = none := if_neg hplace
      rw [List.filterMap_cons_none hhead, ih hnodup]
      simp only [List.mem_cons, Ne.symm hplace, false_or]

namespace Sound

variable (h : p.Sound side)

include h

/-- Some calls are finished, and wait no longer. -/
theorem finish (finished : List ℕ) {outcome : Except WireError Payload}
    (hlog : q.log = p.log ++ finished.map fun call => .finished call outcome)
    (hnodup : finished.Nodup) (hside : q.connection.side = p.connection.side)
    (hnextMid : q.connection.nextMid = side.mid q.calls)
    (hpending : q.connection.pending.Sublist p.connection.pending)
    (hwaiting : ∀ place ∈ q.waiting, place ∉ finished) (hcalls : p.calls ≤ q.calls)
    (hfinished : ∀ place ∈ finished, place < q.calls) : q.Sound side where
  side_eq := hside.trans h.side_eq
  nextMid_eq := hnextMid
  mid_eq := fun entry hentry => h.mid_eq entry (hpending.subset hentry)
  nodup := h.nodup.sublist (hpending.map Prod.snd)
  lt_calls := fun place hplace =>
    (h.lt_calls place ((hpending.map Prod.snd).subset hplace)).trans_le hcalls
  outcomes_eq_nil := fun place hplace => by
    rw [outcomes_finished finished hlog hnodup, if_neg (hwaiting place hplace), List.append_nil,
      h.outcomes_eq_nil place ((hpending.map Prod.snd).subset hplace)]
  fresh := fun place hplace => by
    have hnot : place ∉ finished := fun hmem => absurd (hfinished place hmem) (Nat.not_lt.2 hplace)
    rw [outcomes_finished finished hlog hnodup, if_neg hnot, List.append_nil,
      h.fresh place (hcalls.trans hplace)]

theorem nextMid_succ :
    p.connection.nextMid + p.connection.side.step = side.mid (p.calls + 1) := by
  rw [h.nextMid_eq, h.side_eq, Side.mid_succ]

/-- A call that is made waits. -/
theorem called {envelope : Envelope} (hlog : q.log = p.log ++ [.sent envelope])
    (hside : q.connection.side = p.connection.side)
    (hnextMid : q.connection.nextMid = side.mid (p.calls + 1))
    (hpending : q.connection.pending = (p.connection.nextMid, p.calls) :: p.connection.pending)
    (hcalls : q.calls = p.calls + 1) : q.Sound side where
  side_eq := hside.trans h.side_eq
  nextMid_eq := hcalls ▸ hnextMid
  mid_eq := by
    rw [hpending]
    exact List.forall_mem_cons.2 ⟨h.nextMid_eq, h.mid_eq⟩
  nodup := by
    rw [Party.waiting, hpending, List.map_cons, List.nodup_cons]
    exact ⟨fun hmem => Nat.lt_irrefl _ (h.lt_calls _ hmem), h.nodup⟩
  lt_calls := by
    rw [Party.waiting, hpending, List.map_cons, hcalls]
    exact List.forall_mem_cons.2
      ⟨Nat.lt_succ_self _, fun place hplace => Nat.lt_succ_of_lt (h.lt_calls place hplace)⟩
  outcomes_eq_nil := by
    simp only [outcomes_sent hlog]
    rw [Party.waiting, hpending, List.map_cons]
    exact List.forall_mem_cons.2 ⟨h.fresh _ le_rfl, h.outcomes_eq_nil⟩
  fresh := fun place hplace => by
    rw [outcomes_sent hlog]
    exact h.fresh place (Nat.le_of_succ_le (hcalls.ge.trans hplace))

/-- The calls that still wait when one has its answer. -/
theorem ne_of_mem_filter {mid : Int64} {call : ℕ} (hpending : (mid, call) ∈ p.connection.pending)
    (hplace : place ∈ (p.connection.pending.filter (·.1 != mid)).map Prod.snd) : place ≠ call := by
  obtain ⟨entry, hentry, rfl⟩ := List.mem_map.1 hplace
  obtain ⟨hentry, hne⟩ := List.mem_filter.1 hentry
  intro heq
  rw [bne_iff_ne, h.mid_eq entry hentry, heq] at hne
  exact hne (h.mid_eq _ hpending).symm

/-- Whatever an event makes of the calls, it keeps count of them. -/
theorem turn {e : Event} (hturns : p.Turns e q) : q.Sound side := by
  cases hturns with
  | idle hsame => exact hsame.sound h
  | rejected key data =>
    refine h.finish [p.calls] rfl (List.nodup_singleton _) rfl h.nextMid_succ
      (.refl _) (fun place hplace heq => ?_) (Nat.le_succ _)
      (List.forall_mem_singleton.2 (Nat.lt_succ_self _))
    exact Nat.ne_of_lt (h.lt_calls place hplace) (List.mem_singleton.1 heq)
  | called key data => exact h.called rfl rfl h.nextMid_succ rfl rfl
  | delivered text mid call payload hanswer hlookup =>
    refine h.finish [call] rfl (List.nodup_singleton _) rfl h.nextMid_eq
      List.filter_sublist (fun place hplace heq => ?_) le_rfl
      (List.forall_mem_singleton.2 (h.lt_calls _ (mem_waiting hlookup)))
    exact h.ne_of_mem_filter (mem_of_lookup hlookup) hplace (List.mem_singleton.1 heq)
  | closed =>
    exact h.finish p.waiting rfl h.nodup rfl h.nextMid_eq (List.nil_sublist _)
      (List.forall_mem_nil _) le_rfl h.lt_calls

end Sound

/-! ## Runs -/

namespace Sound

variable (h : p.Sound side) (hquiet : p.Quiet) (events : List Event)

include h hquiet

theorem runFrom : (p.runFrom events).Sound side := by
  induction events generalizing p with
  | nil => exact h
  | cons e events ih => exact ih (h.turn (turns hquiet e)) (hquiet.step e)

end Sound

section Call

variable (side : Side) (before : List Event) (key : String) (data : Json) (after : List Event)

end Call

/-! ## Accounts -/

end Party

end TypeAtlas
