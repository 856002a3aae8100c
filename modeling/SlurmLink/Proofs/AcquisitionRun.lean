import SlurmLink.Proofs.Lobby
import SlurmLink.Proofs.Negotiation

/-!
Acquisitions side by side on one clock. Such a schedule is one of the orders in which callers can take
their steps (`Lobby.exists_after_eq_run`), and every one of them comes to an end (`run_ends`): each step
lowers the number of steps that remain, and while some caller waits in line, the first in that line
negotiates, so that the schedule does not rest. This is so unless a negotiation panics, which never
happens if there is a wait after each attempt (`hasPanicked_run`).
-/

namespace SlurmLink

namespace Acquisition

variable {p : SessionPolicy} {a a' : Acquisition} {h h' : Hub}

theorem Goes.sameTime (hg : Goes p a h a' h') : h.link.SameTime h'.link := by
  cases hg with
  | negotiates _ hn => exact (Negotiation.goes_of_step hn).sameTime
  | _ => exact ⟨rfl, rfl, rfl⟩

/-- An acquisition never changes what it is wanted for. -/
theorem Goes.eq_with_phase (hg : Goes p a h a' h') : a' = { a with phase := a'.phase } := by
  cases hg <;> rfl

/-- An upper bound of the steps that an acquisition still makes. -/
def remaining (p : SessionPolicy) (a : Acquisition) : Nat :=
  match a.phase with
  | .entering => 3 * p.calls.retry.maxAttempts + 9
  | .waiting .. => 3 * p.calls.retry.maxAttempts + 8
  | .negotiating _ _ n => n.remaining p + 1
  | .finished _ => 0

theorem Goes.remaining_lt (hg : Goes p a h a' h') : a'.remaining p < a.remaining p := by
  cases hg with
  | finds hp => simp [remaining, hp]
  | linesUp hp => simp [remaining, hp]
  | takes hp => simp [remaining, hp]
  | begins hp => simp [remaining, hp, Negotiation.remaining]
  | negotiates hp hn =>
    simp only [remaining, hp]
    exact Nat.succ_lt_succ (Negotiation.goes_of_step hn).remaining_lt
  | fills hp => simp [remaining, hp]
  | fails hp => simp [remaining, hp]

/-- Whoever negotiates but cannot go on waits for the call. -/
theorem step_eq_none_of_negotiating {c u : Nat} {n : Negotiation} (hp : a.phase = .negotiating c u n)
    (hs : a.step p h = none) : n.outcome? = none ∧ n.step p h.link = none := by
  rw [step, hp] at hs
  simp only at hs
  cases ho : n.outcome? with
  | some outcome => rw [ho] at hs; cases hs
  | none =>
    rw [ho] at hs
    exact ⟨rfl, Option.map_eq_none_iff.mp hs⟩

theorem step_ne_none_of_wake {t : Nat} (hw : a.wake = some t) (ht : t ≤ h.link.now) :
    a.step p h ≠ none := by
  intro hn
  rw [wake] at hw
  split at hw
  · next hp => exact Negotiation.step_ne_none_of_wake hw ht (step_eq_none_of_negotiating hp hn).2
  · cases hw

/-- Whoever waits for a session takes it once it is there. -/
theorem step_of_filled {c u : Nat} {y : Session} (hp : a.phase = .waiting c u)
    (hs : (h.table.cell c).session = some y) :
    a.step p h = some ({ a with phase := .finished (.ok y) }, h) := by
  rw [step, hp]
  simp only [wait]
  rw [SessionTable.cell] at hs
  cases hc : h.table.cells[c]? with
  | none => rw [hc] at hs; cases hs
  | some x =>
    obtain ⟨session, line⟩ := x
    rw [hc] at hs
    simp only [Option.getD_some] at hs
    subst hs
    rfl

theorem winds (p : SessionPolicy) : (machine p).Winds (remaining p) where
  link_onLink _ _ := rfl
  rank_lt hstep := (goes_of_step hstep).remaining_lt
  step_ne_none := step_ne_none_of_wake

end Acquisition

/-- An event with which nobody comes and nobody gives up. -/
def LobbyEvent.IsMove : LobbyEvent → Prop
  | .advance _ | .meanwhile _ => True
  | .want .. | .giveUp _ => False

namespace Lobby

variable {p : SessionPolicy} {s : Lobby} {i : Nat} {a : Acquisition}

/-- Callers who are there from the start. -/
def ofCallers (callers : List Acquisition) (h : Hub) : Lobby :=
  { hub := h, callers := callers.map some }

theorem caller?_of_callers {callers : List Acquisition} (hs : s.callers = callers.map some) (i : Nat) :
    s.caller? i = callers[i]? := by
  rw [caller?, hs, List.getElem?_map]
  cases callers[i]? <;> rfl

/-- The order is kept from the start, when nobody has come in yet. -/
theorem orderly_ofCallers {callers : List Acquisition} (link : Link)
    (hp : ∀ a ∈ callers, a.phase = .entering) : (ofCallers callers { link }).Orderly := by
  have hplace : ∀ i a, (ofCallers callers { link }).caller? i = some a → a.place? = none := by
    intro i a ha
    rw [caller?_of_callers rfl] at ha
    rw [Acquisition.place?, hp a (List.mem_of_getElem? ha)]
  refine ⟨(orderly_new link).lines, ?_, ?_, ?_⟩
  · intro c u hmem
    cases hmem
  · intro i j c d u hi
    obtain ⟨a, ha, hq⟩ := place?_eq_some_iff.mp hi
    rw [hplace i a ha] at hq
    cases hq
  · intro i a c u ha hq
    rw [hplace i a ha] at hq
    cases hq

/-- One step of a schedule is one event, or none if the schedule rests. -/
theorem exists_after_eq_tick (p : SessionPolicy) (callers : List Acquisition)
    (hs : s.callers = callers.map some) : ∃ events, (∀ e ∈ events, e.IsMove) ∧
      (s.after p events).hub = ((Acquisition.machine p).tick (callers, s.hub)).2 ∧
      (s.after p events).callers = ((Acquisition.machine p).tick (callers, s.hub)).1.map some := by
  cases hn : (Acquisition.machine p).next callers s.hub with
  | none =>
    rw [Machine.tick_of_rest (x := (callers, s.hub)) _ hn]
    exact ⟨[], nofun, rfl, hs⟩
  | some r =>
    rw [Machine.tick_of_next (x := (callers, s.hub)) _ hn]
    rcases (Acquisition.machine p).next_cases hn with ⟨i, b, b', hi, hstep, hset, -⟩ |
      ⟨-, -, t, -, rfl, -⟩
    · refine ⟨[.advance i], fun e he => by rw [List.mem_singleton.mp he]; trivial, ?_⟩
      have hb : s.caller? i = some b := (caller?_of_callers hs i).trans hi
      have hnext : s.after p [.advance i] = _ := step_advance hb hstep
      rw [hnext, hset, List.map_set, hs]
      exact ⟨rfl, rfl⟩
    · refine ⟨[.meanwhile (s.hub.link.arrive t)],
        fun e he => by rw [List.mem_singleton.mp he]; trivial, ?_, hs⟩
      have hmax : max s.hub.link.sessions (s.hub.link.arrive t).sessions =
          (s.hub.link.arrive t).sessions := Nat.max_self _
      show ({ s.hub with link := { s.hub.link.arrive t with sessions := max _ _ } } : Hub) =
        { s.hub with link := s.hub.link.arrive t }
      rw [hmax]

/-- Every schedule is one of the orders in which callers can take their steps. -/
theorem exists_after_eq_run (p : SessionPolicy) (callers : List Acquisition) (h : Hub) (n : Nat) :
    ∃ events, (∀ e ∈ events, e.IsMove) ∧ ((ofCallers callers h).after p events).hub =
        ((Acquisition.machine p).run n callers h).2 ∧
      ((ofCallers callers h).after p events).callers =
        ((Acquisition.machine p).run n callers h).1.map some := by
  induction n with
  | zero => exact ⟨[], nofun, rfl, rfl⟩
  | succ n ih =>
    obtain ⟨events, hevents, hhub, hcallers⟩ := ih
    obtain ⟨more, hmoves, hmore⟩ := exists_after_eq_tick p _ hcallers
    refine ⟨events ++ more, fun e he => (List.mem_append.mp he).elim (hevents e) (hmoves e), ?_⟩
    rw [after_append, Machine.run_succ]
    rw [hhub] at hmore
    exact hmore

/-- If nobody can go on, nobody waits for an instant and no negotiation has panicked, all are through. -/
theorem Orderly.outcome?_of_rest (ho : s.Orderly)
    (hwhole : ∀ i a, s.caller? i = some a → a.hasPanicked = false)
    (hstep : ∀ i a, s.caller? i = some a → a.step p s.hub = none)
    (hwake : ∀ i a, s.caller? i = some a → a.wake = none) (ha : s.caller? i = some a) :
    a.outcome? ≠ none := by
  -- whoever negotiates waits for an instant
  have hnobody : ∀ j b c u n, s.caller? j = some b → b.phase ≠ .negotiating c u n := by
    intro j b c u n hb hp
    obtain ⟨hrun, hn⟩ := Acquisition.step_eq_none_of_negotiating hp (hstep j b hb)
    obtain ⟨call, hq, hrun', hcall⟩ := Negotiation.waits_of_step_eq_none hn hrun
    have hcallWhole := hwhole j b hb
    simp only [Acquisition.hasPanicked, hp, Negotiation.hasPanicked, hq] at hcallWhole
    obtain ⟨t, ht, -⟩ :=
      Call.wake_of_step_eq_none hcall (Call.isOver_eq_false_iff.mpr ⟨hrun', hcallWhole⟩)
    have hw := hwake j b hb
    simp only [Acquisition.wake, hp, Negotiation.wake, hq, ht] at hw
    cases hw
  cases hp : a.phase with
  | finished outcome =>
    rw [Acquisition.outcome?, hp]
    exact Option.some_ne_none _
  | entering =>
    have hs := hstep i a ha
    rw [Acquisition.step, hp] at hs
    cases hs
  | negotiating c u n => exact absurd hp (hnobody i a c u n ha)
  | waiting c u =>
    have hs := hstep i a ha
    cases hsession : (s.table.cell c).session with
    | some y =>
      rw [Acquisition.step_of_filled hp hsession] at hs
      cases hs
    | none =>
      -- and so the first in the line in which this one is can begin to negotiate
      have hseat := ho.seated i a c u ha (Acquisition.place?_of_waiting hp)
      obtain ⟨v, hv⟩ : ∃ v, (s.table.cell c).line.head? = some v := by
        rw [← Option.isSome_iff_exists, List.isSome_head?]
        exact List.ne_nil_of_mem (hseat.lined hsession).1
      obtain ⟨j, hj⟩ := ho.held c v (List.mem_of_head? hv)
      obtain ⟨b, hb, hplace⟩ := place?_eq_some_iff.mp hj
      have hsb := hstep j b hb
      cases hq : b.phase with
      | entering => rw [Acquisition.place?, hq] at hplace; cases hplace
      | finished outcome => rw [Acquisition.place?, hq] at hplace; cases hplace
      | negotiating d w n => exact absurd hq (hnobody j b d w n hb)
      | waiting d w =>
        rw [Acquisition.place?_of_waiting hq] at hplace
        cases hplace
        rw [Acquisition.step_of_first hq hsession hv] at hsb
        cases hsb

end Lobby

namespace Acquisition

variable {p : SessionPolicy} {callers : List Acquisition} {h : Hub}

/-- Schedules keep the order of the lines. -/
theorem orderly_run (ho : (Lobby.ofCallers callers h).Orderly) (n : Nat) :
    (Lobby.ofCallers ((machine p).run n callers h).1 ((machine p).run n callers h).2).Orderly := by
  obtain ⟨events, -, hhub, hcallers⟩ := Lobby.exists_after_eq_run p callers h n
  exact (ho.after events).congr hcallers.symm (congrArg Hub.table hhub.symm)

/-- What can happen in one step of acquisitions side by side: nothing, when the schedule rests; a step of
    one of them; or a move of the clock while all of them wait, up to where the first one wakes or the
    first cancellation is planned. -/
theorem tick_cases (p : SessionPolicy) (callers : List Acquisition) (h : Hub) :
    (machine p).tick (callers, h) = (callers, h) ∨
    (∃ j b b', callers[j]? = some b ∧ Goes p b h b' ((machine p).tick (callers, h)).2 ∧
      ((machine p).tick (callers, h)).1 = callers.set j b') ∨
    (∃ t, (machine p).tick (callers, h) = (callers, { h with link := h.link.arrive t }) ∧
      (∀ b ∈ callers, b.step p h = none) ∧ (∀ b ∈ callers, ∀ w, b.wake = some w → t ≤ w) ∧
      ∀ u, h.link.nextCancellation = some u → t ≤ u) := by
  cases hn : (machine p).next callers h with
  | none => exact Or.inl ((machine p).tick_of_rest hn)
  | some r =>
    rw [(machine p).tick_of_next (x := (callers, h)) hn]
    rcases (machine p).next_cases hn with ⟨j, b, b', hj, hstep, hset, -⟩ |
      ⟨hstep, wake, t, hw, hr, hle, hplan, -⟩
    · exact Or.inr (Or.inl ⟨j, b, b', hj, goes_of_step hstep, hset⟩)
    · refine Or.inr (Or.inr ⟨t, hr, hstep, fun b hb w hbw => ?_, hplan⟩)
      exact Nat.le_trans hle
        ((List.min?_eq_some_iff.mp hw).2 _ (List.mem_filterMap.mpr ⟨b, hb, hbw⟩))

/-- No step of a caller makes a negotiation panic if there is a wait after each attempt. -/
theorem Goes.hasPanicked_eq_false {a a' : Acquisition} {h h' : Hub}
    (hrest : ∀ pause k, p.calls.rest? pause k ≠ none) (hg : Goes p a h a' h') :
    a'.hasPanicked = false := by
  cases hg with
  | negotiates _ hn => exact (Negotiation.goes_of_step hn).hasPanicked_eq_false hrest
  | _ => rfl

theorem hasPanicked_run (hrest : ∀ pause k, p.calls.rest? pause k ≠ none)
    (hwhole : ∀ a ∈ callers, a.hasPanicked = false) (n : Nat) :
    ∀ a ∈ ((machine p).run n callers h).1, a.hasPanicked = false := by
  induction n with
  | zero => exact hwhole
  | succ n ih =>
    rw [Machine.run_succ]
    rcases tick_cases p ((machine p).run n callers h).1 ((machine p).run n callers h).2 with
      he | ⟨j, b, b', -, hg, hset⟩ | ⟨t, he, -⟩
    · rw [he]; exact ih
    · rw [hset]
      intro a ha
      rcases List.mem_or_eq_of_mem_set ha with ha | rfl
      · exact ih a ha
      · exact hg.hasPanicked_eq_false hrest
    · rw [he]; exact ih

/-- All acquisitions come to an end, unless a negotiation panics. -/
theorem run_ends (ho : (Lobby.ofCallers callers h).Orderly)
    (hwhole : ∀ n, ∀ a ∈ ((machine p).run n callers h).1, a.hasPanicked = false) :
    ∃ n, ∀ a ∈ ((machine p).run n callers h).1, a.outcome? ≠ none := by
  obtain ⟨n, hn⟩ := (winds p).exists_rest callers h
  obtain ⟨hstep, hwake⟩ := (machine p).next_eq_none.mp hn
  refine ⟨n, fun a ha => ?_⟩
  obtain ⟨i, hi⟩ := List.getElem?_of_mem ha
  have hcaller := Lobby.caller?_of_callers
    (s := Lobby.ofCallers ((machine p).run n callers h).1 ((machine p).run n callers h).2) rfl
  refine (orderly_run ho n).outcome?_of_rest (p := p) (fun j b hb => ?_) (fun j b hb => ?_)
    (fun j b hb => ?_) ((hcaller i).trans hi)
  · exact hwhole n b (List.mem_of_getElem? ((hcaller j).symm.trans hb))
  · exact hstep b (List.mem_of_getElem? ((hcaller j).symm.trans hb))
  · exact hwake b (List.mem_of_getElem? ((hcaller j).symm.trans hb))

end Acquisition

end SlurmLink
