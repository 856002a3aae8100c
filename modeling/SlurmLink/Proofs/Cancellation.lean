import SlurmLink.Proofs.CallRun

/-!
Cancelling a call. A call enters among others that share its link, and its context becomes done at some
instant while it is under way. `cancellation_exact` follows the call from its entry to its end: it
stops at that very instant whatever it waits for, sends nothing any more, and gives its permit back
without a word about the endpoint, so that its breaker is as it was before the call.
-/

namespace SlurmLink

namespace Breaker

/-- A breaker that granted a permit as `b` and has got it back as `b'` is none the wiser: it counts the
    same failures since the same instant, and if the permit was for a trial, the next call is on
    trial. -/
structure Unmoved (config : BreakerConfig) (permit : Permit) (b b' : Breaker) : Prop where
  failures : b'.failures = b.failures
  openedAt : b'.openedAt = b.openedAt
  normal : permit = .normal → b' = b
  trial : permit = .trial → b'.state = .halfOpen ∧ b'.trialInFlight = false ∧
    ∀ later, (b'.acquire config later).1 = some .trial

theorem unmoved_release {config : BreakerConfig} {now : Nat} {b : Breaker} {permit : Permit}
    (h : (b.acquire config now).1 = some permit) :
    Unmoved config permit b ((b.acquire config now).2.release permit) := by
  rcases acquire_cases config now b with ⟨_, he⟩ | ⟨_, he⟩ | ⟨_, he⟩
  · rw [he] at h ⊢; cases h
    exact ⟨rfl, rfl, fun _ => rfl, fun ht => (by cases ht)⟩
  · rw [he] at h ⊢; cases h
    exact ⟨rfl, rfl, fun hn => (by cases hn), fun _ => ⟨rfl, rfl, fun _ => rfl⟩⟩
  · rw [he] at h; cases h

end Breaker

theorem Breakers.cell_release (bs : Breakers) (id : Nat) (permit : Permit) :
    (bs.modify id (Breaker.release permit)).cell id = (bs.cell id).release permit := by
  rw [cell_modify]
  by_cases hlt : id < bs.cells.length
  · simp [hlt]
  · rw [cell, List.getElem?_eq_none (Nat.le_of_not_lt hlt)]
    cases permit <;> simp [hlt, Breaker.release]

namespace Call

variable {p : CallPolicy} {c c' : Call} {l l' : Link}

/-- A call whose context is done makes one step more, with which it returns. -/
theorem Goes.of_done {reason : CancelReason} (h : Goes p c l c' l')
    (hc : c.context.check l.tokens l.now = some reason) (hp : c.phase ≠ .entering) :
    ∃ a, c.admission? = some a ∧ c' = { c with phase := .finished (.error (.cancelled reason)) } ∧
      l' = { l with breakers := l.breakers.modify a.breaker (Breaker.release a.permit) } := by
  cases h with
  | turnedAway hp' => exact absurd hp' hp
  | refused hp' => exact absurd hp' hp
  | admitted hp' => exact absurd hp' hp
  | stopped hp' hc' =>
    rw [hc] at hc'; cases hc'
    exact ⟨_, by rw [admission?, hp'], rfl, rfl⟩
  | sends _ hc' => rw [hc] at hc'; cases hc'
  | ends _ hc' => rw [hc] at hc'; cases hc'
  | rests _ hc' => rw [hc] at hc'; cases hc'
  | panics _ hc' => rw [hc] at hc'; cases hc'
  | retries _ hc' => rw [hc] at hc'; cases hc'

/-- A call that goes on without coming to an end keeps its permit, or is granted one as it enters. -/
theorem Goes.admission?_eq (h : Goes p c l c' l') (hrun : c'.isOver = false) :
    (c.admission? ≠ none ∧ c'.admission? = c.admission?) ∨
    (c.phase = .entering ∧ ∃ a, c'.admission? = some a ∧
      l.breakers.acquire p.breaker l.now c.endpoint = (some (a.breaker, a.permit), l'.breakers)) := by
  cases h with
  | turnedAway => cases hrun
  | refused => cases hrun
  | admitted hp hc ha => exact Or.inr ⟨hp, _, rfl, ha⟩
  | stopped => cases hrun
  | sends hp => exact Or.inl (by simp [admission?, hp, send])
  | ends => cases hrun
  | rests hp => exact Or.inl (by simp [admission?, hp])
  | panics => cases hrun
  | retries hp => exact Or.inl (by simp [admission?, hp, attempt])

/-- The state of calls side by side after `n` steps. -/
def after (p : CallPolicy) (calls : List Call) (l : Link) (n : Nat) : List Call × Link :=
  (machine p).run n calls l

theorem after_succ (p : CallPolicy) (calls : List Call) (l : Link) (n : Nat) :
    after p calls l (n + 1) = (machine p).tick (after p calls l n) :=
  (machine p).run_succ n calls l

/-- With step `k` the call `i` enters and is granted the permit `a`. -/
def AdmittedAt (p : CallPolicy) (calls : List Call) (l : Link) (i : Nat) (c : Call) (a : Admission)
    (k : Nat) : Prop :=
  (after p calls l k).1[i]? = some c ∧
    (after p calls l k).2.breakers.acquire p.breaker (after p calls l k).2.now c.endpoint =
      (some (a.breaker, a.permit), (after p calls l (k + 1)).2.breakers)

/-- The call `i`, which was `c` when it entered, is under way as `u` after `n` steps, and its context
    will be done, or is done, at `time`. -/
structure UnderWay (p : CallPolicy) (calls : List Call) (l : Link) (i : Nat) (c : Call) (time : Nat)
    (reason : CancelReason) (n : Nat) (u : Call) : Prop where
  here : (after p calls l n).1[i]? = some u
  running : u.isOver = false
  same : u = { c with phase := u.phase }
  foretold : (after p calls l n).2.Foretells c.context time reason
  /-- A context is done only once the clock has moved, and then the call is past its entry. -/
  entered : (after p calls l n).2.IsDone c.context → u.phase ≠ .entering
  /-- Since its context is done the call has made no step. -/
  still : ∀ k, k ≤ n → (after p calls l k).2.IsDone c.context →
    (after p calls l k).2.now = time ∧ (after p calls l k).1[i]? = some u ∧
      (after p calls l n).2.IsDone c.context
  admitted : u = c ∨ ∃ a k, u.admission? = some a ∧ k < n ∧ AdmittedAt p calls l i c a k

variable {calls : List Call} {i : Nat} {time : Nat} {reason : CancelReason} {n : Nat} {u : Call}

/-- A step of the schedule with which the call goes on, but is not over. -/
theorem UnderWay.go (hc : c.phase = .entering) (h : UnderWay p calls l i c time reason n u)
    (hgoes : Goes p u (after p calls l n).2 c' (after p calls l (n + 1)).2)
    (hhere : (after p calls l (n + 1)).1[i]? = some c') (hrun : c'.isOver = false) :
    UnderWay p calls l i c time reason (n + 1) c' := by
  have hnot : ¬ (after p calls l n).2.IsDone c.context := by
    intro hd
    obtain ⟨hcheck, -⟩ := h.foretold.of_isDone hd
    have hctx : u.context = c.context := by rw [h.same]
    obtain ⟨a, -, rfl, -⟩ := hgoes.of_done (by rw [hctx]; exact hcheck) (h.entered hd)
    cases hrun
  have hnext : ¬ (after p calls l (n + 1)).2.IsDone c.context := by
    rw [hgoes.sameTime.isDone_iff]; exact hnot
  refine ⟨hhere, hrun, ?_, hgoes.sameTime.foretells h.foretold, fun hd => absurd hd hnext,
    fun k hk hd => ?_, ?_⟩
  · rw [hgoes.eq_with_phase, h.same]
  · rcases Nat.lt_or_eq_of_le hk with hlt | rfl
    · exact absurd (h.still k (Nat.le_of_lt_succ hlt) hd).2.2 hnot
    · exact absurd hd hnext
  · rcases hgoes.admission?_eq hrun with ⟨hh, heq⟩ | ⟨hp, a, ha, hat⟩
    · rcases h.admitted with rfl | ⟨a, k, ha, hk, hat⟩
      · exact absurd (by rw [admission?, hc]) hh
      · exact Or.inr ⟨a, k, by rw [heq, ha], Nat.lt_succ_of_lt hk, hat⟩
    · rcases h.admitted with rfl | ⟨b, k, hb, -, -⟩
      · exact Or.inr ⟨a, n, ha, Nat.lt_succ_self n, h.here, hat⟩
      · rw [admission?, hp] at hb; cases hb

/-- A step of the schedule in which the call itself does nothing. -/
theorem UnderWay.stay (h : UnderWay p calls l i c time reason n u)
    (hhere : (after p calls l (n + 1)).1[i]? = some u)
    (hf : (after p calls l (n + 1)).2.Foretells c.context time reason)
    (hdone : (after p calls l n).2.IsDone c.context → (after p calls l (n + 1)).2.IsDone c.context)
    (henter : (after p calls l (n + 1)).2.IsDone c.context → u.phase ≠ .entering) :
    UnderWay p calls l i c time reason (n + 1) u := by
  refine ⟨hhere, h.running, h.same, hf, henter, fun k hk hd => ?_, ?_⟩
  · rcases Nat.lt_or_eq_of_le hk with hlt | rfl
    · obtain ⟨hnow, hsame, hd'⟩ := h.still k (Nat.le_of_lt_succ hlt) hd
      exact ⟨hnow, hsame, hdone hd'⟩
    · exact ⟨(hf.of_isDone hd).2, hhere, hd⟩
  · rcases h.admitted with rfl | ⟨a, k, ha, hk, hat⟩
    · exact Or.inl rfl
    · exact Or.inr ⟨a, k, ha, Nat.lt_succ_of_lt hk, hat⟩

/-- Each step of the schedule leaves the call under way or is the step with which it is over. -/
theorem UnderWay.succ (hc : c.phase = .entering) (h : UnderWay p calls l i c time reason n u) :
    (∃ u', UnderWay p calls l i c time reason (n + 1) u') ∨
    (∃ u', Goes p u (after p calls l n).2 u' (after p calls l (n + 1)).2 ∧
      (after p calls l (n + 1)).1[i]? = some u' ∧ u'.isOver = true) := by
  have hmem : u ∈ (after p calls l n).1 := List.mem_of_getElem? h.here
  have htick := after_succ p calls l n
  rcases tick_cases p (after p calls l n).1 (after p calls l n).2 with
    ⟨-, hover⟩ | ⟨j, v, v', hj, hgoes, hset⟩ | ⟨t, hmove, hwait, hline, hplan, -⟩
  · exact absurd (hover u hmem) (Bool.eq_false_iff.mp h.running)
  · rw [← htick] at hgoes hset
    by_cases hij : j = i
    · subst hij
      have huv : u = v := by rw [h.here] at hj; cases hj; rfl
      subst huv
      have hhere : (after p calls l (n + 1)).1[j]? = some v' := by
        rw [hset, List.getElem?_set_self (List.getElem?_eq_some_iff.mp h.here).1]
      cases hrun : v'.isOver with
      | false => exact Or.inl ⟨v', h.go hc hgoes hhere hrun⟩
      | true => exact Or.inr ⟨v', hgoes, hhere, hrun⟩
    · have hhere : (after p calls l (n + 1)).1[i]? = some u := by
        rw [hset, List.getElem?_set_ne hij, h.here]
      have hsame := hgoes.sameTime
      exact Or.inl ⟨u, h.stay hhere (hsame.foretells h.foretold) hsame.isDone_iff.mpr
        fun hd => h.entered (hsame.isDone_iff.mp hd)⟩
  · rw [hmove] at htick
    -- the clock moves only while every call waits, and none waits whose context is done
    obtain ⟨a, k, stage, hphase, hcheck, -⟩ := waits_of_step_eq_none (hwait u hmem) h.running
    have hctx : u.context = c.context := by rw [h.same]
    have hnot : ¬ (after p calls l n).2.IsDone c.context := by
      rw [Link.IsDone, ← hctx, hcheck]; exact fun hn => hn rfl
    refine Or.inl ⟨u, h.stay (by rw [htick]; exact h.here) ?_ (fun hd => absurd hd hnot)
      fun _ he => (by rw [hphase] at he; cases he)⟩
    rw [htick]
    exact h.foretold.arrive hnot hplan fun d hd => hline u hmem h.running d (by rw [hctx, hd])

/-- The call is over at some step, and up to that step it was under way. -/
theorem exists_end (hc : c.phase = .entering) (h : UnderWay p calls l i c time reason 0 c) :
    ∃ n u u', UnderWay p calls l i c time reason n u ∧
      Goes p u (after p calls l n).2 u' (after p calls l (n + 1)).2 ∧
      (after p calls l (n + 1)).1[i]? = some u' ∧ u'.isOver = true := by
  have hstep : ∀ n, (∃ u, UnderWay p calls l i c time reason n u) ∨
      ∃ n u u', UnderWay p calls l i c time reason n u ∧
        Goes p u (after p calls l n).2 u' (after p calls l (n + 1)).2 ∧
        (after p calls l (n + 1)).1[i]? = some u' ∧ u'.isOver = true := by
    intro n
    induction n with
    | zero => exact Or.inl ⟨c, h⟩
    | succ n ih =>
      rcases ih with ⟨u, hu⟩ | hend
      · rcases hu.succ hc with hgo | ⟨u', hgoes, hhere, hover⟩
        · exact Or.inl hgo
        · exact Or.inr ⟨n, u, u', hu, hgoes, hhere, hover⟩
      · exact Or.inr hend
  obtain ⟨n, hn⟩ := run_ends p calls l
  rcases hstep n with ⟨u, hu⟩ | hend
  · exact absurd (hn u (List.mem_of_getElem? hu.here)) (Bool.eq_false_iff.mp hu.running)
  · exact hend

/-- A call that is over after a step has returned, or has panicked since there was no wait. -/
theorem Goes.phase_of_isOver (h : Goes p c l c' l') (hover : c'.isOver = true) :
    (∃ outcome, c'.phase = .finished outcome) ∨
      ∃ a k, c'.phase = .panicked a k ∧ p.rest? l.pauses k = none := by
  rcases Call.phase_of_isOver hover with hret | ⟨a, k, hp⟩
  · exact Or.inl hret
  · exact Or.inr (h.rest?_eq_none (by rw [hasPanicked, hp]))

/-- Cancellation is exact and neutral. A call that enters while its context is done sends nothing and
    leaves no trace. Any other call, of whose context it is foretold that it will be done at `time` for
    `reason`, is over no later than that: it returns, or panics where there is no wait. If the context is
    done before the call is over, then the call stands still from then on, and its one step more is to
    return at that very instant, with that reason, sending nothing and giving its permit back; and if its
    breaker was left alone meanwhile, it is as it was before the call. -/
theorem cancellation_exact (p : CallPolicy) (calls : List Call) (l : Link) (i : Nat) (c : Call)
    (hi : calls[i]? = some c) (hc : c.phase = .entering) :
    (∀ reason, c.context.check l.tokens l.now = some reason →
      c.step p l = some ({ c with phase := .finished (.error (.cancelled reason)) }, l)) ∧
    (∀ time reason, c.context.check l.tokens l.now = none → l.done c.context = some (time, reason) →
      ∃ n u phase, (after p calls l n).1[i]? = some u ∧ u.isOver = false ∧
        (after p calls l (n + 1)).1[i]? = some { c with phase } ∧
        ((∃ outcome, phase = .finished outcome) ∨
          ∃ a k, phase = .panicked a k ∧ p.rest? (after p calls l n).2.pauses k = none) ∧
        (after p calls l (n + 1)).2.now = (after p calls l n).2.now ∧
        (after p calls l n).2.now ≤ time ∧
        ∀ k, k ≤ n → (after p calls l k).2.IsDone c.context →
          (after p calls l k).2.now = time ∧ (after p calls l k).1[i]? = some u ∧
          phase = .finished (.error (.cancelled reason)) ∧
          (Failure.cancelled reason).kind = .cancelled ∧
          (Failure.cancelled reason).isRetryable = false ∧
          (reason = .cancelled ↔ (after p calls l n).2.tokens.isCancelled c.context.token = true) ∧
          (after p calls l n).2.now = time ∧
          ∃ a j, AdmittedAt p calls l i c a j ∧ j < n ∧
            (after p calls l (n + 1)).2 = { (after p calls l n).2 with
              breakers := (after p calls l n).2.breakers.modify a.breaker
                (Breaker.release a.permit) } ∧
            ((after p calls l n).2.breakers.cell a.breaker =
                (after p calls l (j + 1)).2.breakers.cell a.breaker →
              Breaker.Unmoved p.breaker a.permit ((after p calls l j).2.breakers.cell a.breaker)
                ((after p calls l (n + 1)).2.breakers.cell a.breaker))) := by
  refine ⟨fun reason hd => by rw [step, hc]; simp only [enter, hd], fun time reason hfree hdone => ?_⟩
  have hnot : ¬ (after p calls l 0).2.IsDone c.context := fun hd => hd hfree
  have hstart : UnderWay p calls l i c time reason 0 c := by
    have hrun : c.isOver = false := by rw [isOver, outcome?, hasPanicked, hc]; rfl
    refine ⟨hi, hrun, rfl, Or.inl ⟨hfree, hdone⟩, fun hd => absurd hd hnot, ?_, Or.inl rfl⟩
    intro k hk hd
    cases Nat.le_zero.mp hk
    exact absurd hd hnot
  obtain ⟨n, u, u', hu, hgoes, hhere, hover⟩ := exists_end hc hstart
  have hend : u' = { c with phase := u'.phase } := by
    rw [hgoes.eq_with_phase, hu.same]
  refine ⟨n, u, u'.phase, hu.here, hu.running, by rw [hhere, ← hend], hgoes.phase_of_isOver hover,
    hgoes.sameTime.now, hu.foretold.now_le, fun k hk hd => ?_⟩
  obtain ⟨hnow, hsame, hdone'⟩ := hu.still k hk hd
  obtain ⟨hcheck, hnow'⟩ := hu.foretold.of_isDone hdone'
  have hctx : u.context = c.context := by rw [hu.same]
  obtain ⟨a, ha, hu', hl'⟩ := hgoes.of_done (by rw [hctx]; exact hcheck) (hu.entered hdone')
  obtain ⟨j, hj, hat⟩ : ∃ j, j < n ∧ AdmittedAt p calls l i c a j := by
    rcases hu.admitted with rfl | ⟨b, j, hb, hj, hat⟩
    · rw [admission?, hc] at ha; cases ha
    · rw [ha] at hb; cases hb
      exact ⟨j, hj, hat⟩
  have hout : u'.phase = .finished (.error (.cancelled reason)) := by rw [hu']
  refine ⟨hnow, hsame, hout, rfl, rfl, ?_, hnow', a, j, hat, hj, hl', fun halone => ?_⟩
  · exact Link.reason_eq_cancelled_iff hcheck
  · obtain ⟨hgrant, hcell⟩ := Breakers.acquire_granted hat.2
    rw [hl', Breakers.cell_release, halone, hcell, if_pos rfl]
    exact Breaker.unmoved_release hgrant

/-- A call with half a second of patience. -/
def hasty : Call where
  context := { token := 0, deadline := some 500 }
  endpoint := "ping"
  request := { method := .get, url := "http://localhost/ping" }

/-- A link to a server that takes a whole second. -/
def slowLink : Link := { server := { latency := 1000 } }

/-- The call gives up while its answer is on the way. -/
theorem cancellation_exact_hasty :
    hasty.context.check slowLink.tokens slowLink.now = none ∧
    slowLink.done hasty.context = some (500, .deadlineExceeded) ∧
    ∃ n, (after {} [hasty] slowLink (n + 1)).1[0]? =
        some { hasty with phase := .finished (.error (.cancelled .deadlineExceeded)) } ∧
      (after {} [hasty] slowLink (n + 1)).2.now = 500 := by
  have hfree : hasty.context.check slowLink.tokens slowLink.now = none := by decide +kernel
  have hdone : slowLink.done hasty.context = some (500, .deadlineExceeded) := by decide +kernel
  obtain ⟨n, u, phase, -, -, hret, hend, hnow, -, hcancel⟩ :=
    (cancellation_exact {} [hasty] slowLink 0 hasty rfl rfl).2 500 .deadlineExceeded hfree hdone
  have hover : ({ hasty with phase } : Call).isOver = true := by
    rcases hend with ⟨outcome, rfl⟩ | ⟨a, k, rfl, -⟩ <;> rfl
  have hrunning : ∀ k, k < 4 →
      (after {} [hasty] slowLink k).1.head?.map isOver = some false := by decide +kernel
  have hlate : 3 ≤ n := by
    rcases Nat.lt_or_ge (n + 1) 4 with hlt | hge
    · have := hrunning (n + 1) hlt
      rw [List.head?_eq_getElem?, hret, Option.map_some, hover] at this
      cases this
    · omega
  have hdue : (after {} [hasty] slowLink 3).2.IsDone hasty.context := by
    rw [Link.IsDone]
    decide +kernel
  obtain ⟨-, -, rfl, -, -, -, htime, -⟩ := hcancel 3 hlate hdue
  exact ⟨hfree, hdone, n, hret, by rw [hnow, htime]⟩

end Call

end SlurmLink
