import SlurmLink.Proofs.Call
import SlurmLink.Proofs.Schedule

/-!
Calls side by side on one clock. A step of the schedule is a step of one call or a move of the clock
that passes neither the deadline of a call under way nor a planned cancellation (`tick_cases`). Every
such run comes to an end (`run_ends`), since each step of a call lowers the number of steps that remain.
-/

namespace SlurmLink

namespace Call

variable {p : CallPolicy}

/-- A call goes on at the latest when the instant has come up to which it waits. -/
theorem step_ne_none_of_wake {c : Call} {t : Nat} {l : Link} (h : c.wake = some t)
    (ht : t ≤ l.now) : c.step p l ≠ none := by
  intro hn
  have hrun : c.isOver = false := by
    rw [wake] at h
    rw [isOver, outcome?, hasPanicked]
    split at h
    · next hp => rw [hp]; rfl
    · cases h
  obtain ⟨a, k, stage, hp, hc, hd⟩ := waits_of_step_eq_none hn hrun
  have hline := ((Link.check_eq_none_iff ..).mp hc).2
  rw [wake, hp] at h
  cases hdl : c.context.deadline with
  | none => simp only [hdl, earlier, Option.some.injEq] at h; omega
  | some d =>
    have := hline d hdl
    simp only [hdl, earlier, Option.some.injEq] at h
    omega

/-- A call under way that cannot go on waits for an instant no later than its deadline. -/
theorem wake_of_step_eq_none {c : Call} {l : Link} (h : c.step p l = none) (hrun : c.isOver = false) :
    ∃ t, c.wake = some t ∧ ∀ d, c.context.deadline = some d → t ≤ d := by
  obtain ⟨a, k, stage, hp, -, -⟩ := waits_of_step_eq_none h hrun
  cases hdl : c.context.deadline with
  | none => exact ⟨stage.due, by rw [wake, hp, hdl]; rfl, fun d hd => by cases hd⟩
  | some d =>
    refine ⟨min stage.due d, by rw [wake, hp, hdl]; rfl, fun d' hd => ?_⟩
    cases hd
    exact Nat.min_le_right _ _

theorem next_of_isOver {c : Call} {l : Link} (h : c.isOver = true) : (machine p).next [c] l = none :=
  Machine.next_alone (step_of_isOver h) (wake_of_isOver h)

/-- What can happen in one step of calls side by side: nothing, when all are over; a step of the first
    call that can go on; or a move of the clock while all of them wait. -/
theorem tick_cases (p : CallPolicy) (calls : List Call) (l : Link) :
    ((machine p).tick (calls, l) = (calls, l) ∧ ∀ c ∈ calls, c.isOver = true) ∨
    (∃ j c c', calls[j]? = some c ∧ Goes p c l c' ((machine p).tick (calls, l)).2 ∧
      ((machine p).tick (calls, l)).1 = calls.set j c') ∨
    (∃ t, (machine p).tick (calls, l) = (calls, l.arrive t) ∧ (∀ c ∈ calls, c.step p l = none) ∧
      (∀ c ∈ calls, c.isOver = false → ∀ d, c.context.deadline = some d → t ≤ d) ∧
      (∀ u, l.nextCancellation = some u → t ≤ u) ∧
      (l.nextCancellation = some t ∨ ∃ c ∈ calls, c.step p (l.arrive t) ≠ none)) := by
  cases hn : (machine p).next calls l with
  | none =>
    obtain ⟨hstep, hwake⟩ := (machine p).next_eq_none.mp hn
    refine Or.inl ⟨(machine p).tick_of_rest hn, fun c hc => Bool.of_not_eq_false fun hrun => ?_⟩
    obtain ⟨t, ht, -⟩ := wake_of_step_eq_none (hstep c hc) hrun
    have hw := hwake c hc
    simp only [machine, ht] at hw
    cases hw
  | some r =>
    have htick := (machine p).tick_of_next (x := (calls, l)) hn
    rw [htick]
    rcases (machine p).next_cases hn with ⟨j, c, c', hj, hstep, hset, -⟩ |
      ⟨hstep, wake, t, hw, hr, hle, hplan, hwhy⟩
    · exact Or.inr (Or.inl ⟨j, c, c', hj, goes_of_step hstep, hset⟩)
    · have hwake : ∀ c ∈ calls, ∀ u, c.wake = some u → wake ≤ u := by
        intro c hc u hu
        exact (List.min?_eq_some_iff.mp hw).2 _ (List.mem_filterMap.mpr ⟨c, hc, hu⟩)
      refine Or.inr (Or.inr ⟨t, hr, hstep, fun c hc hrun d hd => ?_, hplan, ?_⟩)
      · obtain ⟨u, hu, hline⟩ := wake_of_step_eq_none (hstep c hc) hrun
        exact Nat.le_trans hle (Nat.le_trans (hwake c hc u hu) (hline d hd))
      · rcases hwhy with rfl | hcancel
        · obtain ⟨c, hc, hcw⟩ := List.mem_filterMap.mp (List.min?_mem hw)
          exact Or.inr ⟨c, hc, step_ne_none_of_wake hcw (Nat.le_max_right _ _)⟩
        · exact Or.inl hcancel

/-! ### Every run ends -/

theorem winds (p : CallPolicy) : (machine p).Winds (remaining p) where
  link_onLink _ _ := rfl
  rank_lt hstep := (goes_of_step hstep).remaining_lt
  step_ne_none := step_ne_none_of_wake

/-- All calls come to an end. -/
theorem run_ends (p : CallPolicy) (calls : List Call) (l : Link) :
    ∃ n, ∀ c ∈ ((machine p).run n calls l).1, c.isOver = true := by
  obtain ⟨n, hn⟩ := (winds p).exists_rest calls l
  obtain ⟨hstep, hwake⟩ := (machine p).next_eq_none.mp hn
  refine ⟨n, fun c hc => Bool.of_not_eq_false fun hrun => ?_⟩
  obtain ⟨t, ht, -⟩ := wake_of_step_eq_none (hstep c hc) hrun
  have hw := hwake c hc
  simp only [machine, ht] at hw
  cases hw

end Call

end SlurmLink
