import Mathlib.Control.Monad.Basic
import SlurmLink.Proofs.CallRun
import SlurmLink.Proofs.Traffic

/-!
Calls of one policy over one link, in any order. Calls come in, take their steps and may be dropped
midway, while the world outside goes on and the endpoints may be forgotten:

    enter      a call comes in, which has done nothing yet
    advance i  the call i makes one step, if it can
    drop i     nobody waits for the call i any more, so that it never makes another step

A schedule is one way to order these events (`exists_after_eq_run`), so what holds of every list of
events holds of every schedule. Of all events only a step of a call touches the breakers
(`step_cases`).
-/

namespace SlurmLink

deriving instance DecidableEq for Stage, CallPhase

theorem Link.arrive_eq_pass (l : Link) (t : Nat) : l.arrive t = l.pass (t - l.now) := by
  have hmax : max l.now t = max l.now (l.now + (t - l.now)) := by omega
  simp only [pass, arrive, hmax]

/-- What can happen to the calls over a link. -/
inductive PoolEvent where
  | enter (context : Context) (endpoint : String) (request : Request)
  /-- A call makes one step, if it can. -/
  | advance (caller : Nat)
  /-- A call is dropped. -/
  | drop (caller : Nat)
  | outside (e : LinkEvent)
  /-- All endpoints are forgotten. -/
  | clear

/-- Calls over a link, in the order in which they came in. One that was dropped is no longer there. -/
structure Pool where
  calls : List (Option Call) := []
  link : Link := {}

namespace Pool

/-- The call with the given number, unless it was dropped. -/
def call? (s : Pool) (caller : Nat) : Option Call := s.calls[caller]?.join

/-- The breaker with the given number. -/
def breaker (s : Pool) (id : Nat) : Breaker := s.link.breakers.cell id

/-- One event. -/
def step (p : CallPolicy) (s : Pool) : PoolEvent → Pool
  | .enter context endpoint request =>
    { s with calls := s.calls ++ [some { context, endpoint, request }] }
  | .advance caller =>
    match (s.call? caller).bind (·.step p s.link) with
    | none => s
    | some (c, link) => ⟨s.calls.set caller (some c), link⟩
  | .drop caller => { s with calls := s.calls.set caller none }
  | .outside e => { s with link := e.apply s.link }
  | .clear => { s with link.breakers := s.link.breakers.clear }

/-- What comes of a list of events. -/
def after (p : CallPolicy) (s : Pool) (events : List PoolEvent) : Pool := events.foldl (step p) s

variable {p : CallPolicy} {s : Pool}

theorem after_cons (p : CallPolicy) (s : Pool) (e : PoolEvent) (events : List PoolEvent) :
    s.after p (e :: events) = (s.step p e).after p events := rfl

theorem after_append (p : CallPolicy) (s : Pool) (events more : List PoolEvent) :
    s.after p (events ++ more) = (s.after p events).after p more :=
  List.foldl_append

theorem call?_eq_some_iff {caller : Nat} {c : Call} :
    s.call? caller = some c ↔ s.calls[caller]? = some (some c) := by
  rw [call?, Option.join_eq_some_iff]

theorem step_advance {caller : Nat} {c c' : Call} {l : Link} (hc : s.call? caller = some c)
    (hstep : c.step p s.link = some (c', l)) :
    s.step p (.advance caller) = ⟨s.calls.set caller (some c'), l⟩ := by
  simp only [step, hc, Option.bind_some, hstep]

/-- An event is a step of one call, or all breakers stay as they are. -/
theorem step_cases (p : CallPolicy) (s : Pool) (e : PoolEvent) :
    (∃ caller c c', e = .advance caller ∧ s.call? caller = some c ∧
      Call.Goes p c s.link c' (s.step p e).link ∧
      (s.step p e).calls = s.calls.set caller (some c')) ∨
    ((∀ caller c, e = .advance caller → s.call? caller = some c → c.step p s.link = none) ∧
      ∀ id, (s.step p e).breaker id = s.breaker id) := by
  cases e with
  | advance caller =>
    cases hc : s.call? caller with
    | none =>
      refine Or.inr ⟨fun i c he hi => ?_, fun id => by simp only [step, hc, Option.bind_none]⟩
      cases he
      rw [hc] at hi
      cases hi
    | some c =>
      cases hstep : c.step p s.link with
      | none =>
        refine Or.inr ⟨fun i u he hu => ?_, fun id => by
          simp only [step, hc, Option.bind_some, hstep]⟩
        cases he
        rw [hc] at hu
        cases hu
        exact hstep
      | some r =>
        rw [step_advance hc hstep]
        exact Or.inl ⟨caller, c, r.1, rfl, hc, Call.goes_of_step hstep, rfl⟩
  | outside e =>
    refine Or.inr ⟨fun i c he => (by cases he), fun id => ?_⟩
    simp only [breaker, step, LinkEvent.breakers_apply]
  | enter => exact Or.inr ⟨fun i c he => (by cases he), fun id => rfl⟩
  | drop => exact Or.inr ⟨fun i c he => (by cases he), fun id => rfl⟩
  | clear => exact Or.inr ⟨fun i c he => (by cases he), fun id => rfl⟩

/-- One step of a schedule is one event, or none if all calls are over. -/
theorem exists_after_eq_tick (p : CallPolicy) (calls : List Call) (l : Link) :
    ∃ events, after p ⟨calls.map some, l⟩ events =
      ⟨((Call.machine p).tick (calls, l)).1.map some, ((Call.machine p).tick (calls, l)).2⟩ := by
  cases hn : (Call.machine p).next calls l with
  | none =>
    rw [Machine.tick_of_rest (x := (calls, l)) _ hn]
    exact ⟨[], rfl⟩
  | some r =>
    rw [Machine.tick_of_next (x := (calls, l)) _ hn]
    rcases (Call.machine p).next_cases hn with ⟨i, c, c', hi, hstep, hset, -⟩ |
      ⟨-, -, t, -, rfl, -⟩
    · refine ⟨[.advance i], ?_⟩
      have hc : call? ⟨calls.map some, l⟩ i = some c := by
        rw [call?_eq_some_iff, List.getElem?_map, hi]
        rfl
      rw [after_cons, step_advance hc hstep, hset, List.map_set]
      rfl
    · refine ⟨[.outside (.pass (t - l.now))], ?_⟩
      show (⟨calls.map some, l.pass (t - l.now)⟩ : Pool) = ⟨calls.map some, l.arrive t⟩
      rw [Link.arrive_eq_pass]

/-- Every schedule is one of the orders in which the events of a pool can come. -/
theorem exists_after_eq_run (p : CallPolicy) (calls : List Call) (l : Link) (n : Nat) :
    ∃ events, after p ⟨calls.map some, l⟩ events =
      ⟨((Call.machine p).run n calls l).1.map some, ((Call.machine p).run n calls l).2⟩ := by
  induction n with
  | zero => exact ⟨[], rfl⟩
  | succ n ih =>
    obtain ⟨events, hevents⟩ := ih
    obtain ⟨more, hmore⟩ := exists_after_eq_tick p ((Call.machine p).run n calls l).1
      ((Call.machine p).run n calls l).2
    refine ⟨events ++ more, ?_⟩
    rw [after_append, hevents, hmore, Machine.run_succ]

end Pool

end SlurmLink
