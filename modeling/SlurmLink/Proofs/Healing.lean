import SlurmLink.Proofs.Pool

/-!
What makes a breaker healthier. A breaker is told a success by every call whose last attempt failed in a
way that another try could not mend, and not all of these heard from the server:

    last attempt                            answered    breaker is told
    2xx                                     yes         success
    a status that is not worth a retry      yes         success
    the credentials are denied              no          success
    the request cannot be sent              no          success
    any other                               yes or no   failure
    given up                                no          nothing

`healing_exact` says that a breaker heals with the first four and never else, whatever calls there are
besides; `healed_unanswered` has a run for each of the two in which no answer came.
-/

namespace SlurmLink

namespace Breaker

variable {config : BreakerConfig} {now : Nat} {b b' b'' : Breaker} {permit : Permit}

/-- A breaker is healthier when it has fewer failures on record or has closed. -/
def Heals (b b' : Breaker) : Prop :=
  b'.failures < b.failures ∨ b.state ≠ .closed ∧ b'.state = .closed

instance (b b' : Breaker) : Decidable (b.Heals b') := inferInstanceAs (Decidable (_ ∨ _ ∧ _))

theorem not_heals_iff : ¬ b.Heals b' ↔
    b.failures ≤ b'.failures ∧ (b'.state = .closed → b.state = .closed) := by
  simp only [Heals, not_or, not_and, Nat.not_lt, ne_eq]
  refine and_congr_right fun _ => ⟨fun h hs => ?_, fun h hne hs => hne (h hs)⟩
  exact Classical.byContradiction fun hne => h hne hs

theorem not_heals_self (b : Breaker) : ¬ b.Heals b := not_heals_iff.mpr ⟨Nat.le_refl _, id⟩

theorem not_heals_trans (h : ¬ b.Heals b') (h' : ¬ b'.Heals b'') : ¬ b.Heals b'' := by
  rw [not_heals_iff] at *
  exact ⟨Nat.le_trans h.1 h'.1, fun hs => h.2 (h'.2 hs)⟩

theorem not_heals_acquire (config : BreakerConfig) (now : Nat) (b : Breaker) :
    ¬ b.Heals (b.acquire config now).2 := by
  rcases acquire_cases config now b with ⟨-, he⟩ | ⟨-, he⟩ | ⟨-, he⟩
  · rw [he]; exact not_heals_self b
  · rw [he]; exact not_heals_iff.mpr ⟨Nat.le_refl _, nofun⟩
  · rw [he]; exact not_heals_self b

theorem not_heals_fail (hb : b.failures ≤ maxFailures) : ¬ b.Heals (b.fail config now permit) := by
  have hcount := le_countFailure hb
  rw [not_heals_iff]
  cases permit with
  | trial => exact ⟨hcount, nofun⟩
  | normal =>
    simp only [fail]
    split
    · next hs => split <;> exact ⟨hcount, fun _ => hs⟩
    · exact ⟨Nat.le_refl _, id⟩

theorem not_heals_release (b : Breaker) (permit : Permit) : ¬ b.Heals (b.release permit) := by
  cases permit <;> exact not_heals_iff.mpr ⟨Nat.le_refl _, id⟩

/-- Of all outcomes only a success can make a breaker healthier. -/
theorem heals_settle_iff (hb : b.failures ≤ maxFailures) {outcome : Outcome} :
    b.Heals (b.settle config now permit outcome) ↔
      outcome = .success ∧ b.Heals (b.succeed permit) := by
  cases outcome with
  | success => exact ⟨fun h => ⟨rfl, h⟩, And.right⟩
  | failure => exact ⟨fun h => absurd h (not_heals_fail hb), nofun⟩
  | abandoned => exact ⟨fun h => absurd h (not_heals_release b permit), nofun⟩

theorem succeed_new (permit : Permit) : succeed permit {} = {} := by
  cases permit <;> rfl

theorem failures_acquire (config : BreakerConfig) (now : Nat) (b : Breaker) :
    (b.acquire config now).2.failures = b.failures := by
  rcases acquire_cases config now b with ⟨-, he⟩ | ⟨-, he⟩ | ⟨-, he⟩ <;> rw [he]

theorem failures_settle_le (hb : b.failures ≤ maxFailures) (outcome : Outcome) :
    (b.settle config now permit outcome).failures ≤ maxFailures := by
  cases permit with
  | normal =>
    rcases settle_normal_cases config now outcome b with he | ⟨-, he | ⟨-, he⟩ | ⟨-, he⟩⟩
    · rwa [he]
    · rw [he]; exact Nat.zero_le _
    · rw [he]; exact countFailure_le b
    · rw [he]; exact countFailure_le b
  | trial =>
    cases outcome with
    | success => exact Nat.zero_le _
    | failure => exact countFailure_le b
    | abandoned => exact hb

end Breaker

/-- No count of failures is beyond the greatest. -/
def Breakers.Bounded (bs : Breakers) : Prop := ∀ id, (bs.cell id).failures ≤ Breaker.maxFailures

namespace Call

variable {p : CallPolicy} {c c' : Call} {l l' : Link} {a : Admission} {k : Nat} {stage : Stage}
  {outcome : Except Failure Response}

/-- The next step of a call is its last one: attempt `k` is over, and there will be no other. -/
structure Ends (p : CallPolicy) (c : Call) (l : Link) (a : Admission) (k : Nat) (stage : Stage)
    (outcome : Except Failure Response) : Prop where
  phase : c.phase = .active a k stage
  live : c.context.check l.tokens l.now = none
  due : stage.due ≤ l.now
  result : stage.outcome? p = some outcome
  last : IsLast p k outcome

/-- What a last attempt can have come to that the breaker takes for a success. -/
inductive Heartens (p : CallPolicy) : Stage → Except Failure Response → Prop where
  | succeeded {r : Response} {due : Nat} (h : r.isSuccess = true) :
      Heartens p (.awaiting (.ok r) due) (.ok r)
  /-- The server has answered, with a status that is not worth another try. -/
  | rejected {r : Response} {due : Nat} (h : r.isSuccess = false)
      (hr : (ErrorKind.ofStatus r.status).isRetryable = false) :
      Heartens p (.awaiting (.ok r) due) (.error (.ofResponse r))
  /-- There were no credentials, and nothing was sent. -/
  | denied {query due : Nat} {e : AuthError} (h : p.credentials.answer query = .error e) :
      Heartens p (.authorizing query due) (.error (.auth e))
  /-- The request could not be sent at all. -/
  | unsendable {reason : String} {due : Nat} :
      Heartens p (.awaiting (.error (.invalidRequest reason)) due)
        (.error (.transport (.invalidRequest reason)))

/-- A response never means that the call was given up. -/
theorem kind_ofResponse_ne (r : Response) : (Failure.ofResponse r).kind ≠ .cancelled := by
  rw [Failure.ofResponse, Failure.kind, ErrorKind.ofStatus]
  repeat' split
  all_goals nofun

/-- The breaker is told a success just in these cases. -/
theorem verdict_eq_success_iff (ho : stage.outcome? p = some outcome) :
    verdict outcome = .success ↔ Heartens p stage outcome := by
  constructor
  · intro hv
    cases stage with
    | resting due => cases ho
    | authorizing query due =>
      rw [Stage.outcome?] at ho
      split at ho
      · cases ho
      · next e he => cases ho; exact .denied he
    | awaiting answer due =>
      cases ho
      cases answer with
      | error e =>
        cases e with
        | invalidRequest reason => exact .unsendable
        | connect reason => cases hv
        | timeout reason => cases hv
        | io reason => cases hv
      | ok r =>
        rw [judge] at hv ⊢
        split
        · next h => exact .succeeded h
        · next h =>
          refine .rejected (by simpa using h) ?_
          rw [if_neg h, verdict, if_neg (kind_ofResponse_ne r)] at hv
          split at hv
          · cases hv
          · next hr => exact Bool.eq_false_iff.mpr hr
  · intro h
    cases h with
    | succeeded h => rfl
    | denied h => rfl
    | unsendable => rfl
    | rejected h hr =>
      rw [verdict, if_neg (kind_ofResponse_ne _), if_neg]
      exact Bool.eq_false_iff.mp hr

theorem Ends.step_eq (h : Ends p c l a k stage outcome) :
    c.step p l = some (c.conclude p a outcome l) := by
  have hsettle : c.settle p a k outcome l = c.conclude p a outcome l := settle_of_isLast a h.last
  have hproceed : c.proceed p a k stage l = c.settle p a k outcome l := by
    have ho := h.result
    cases stage with
    | resting due => cases ho
    | awaiting answer due => cases ho; rfl
    | authorizing query due =>
      rw [Stage.outcome?] at ho
      rw [proceed]
      cases hh : p.credentials.answer query with
      | ok headers => rw [hh] at ho; cases ho
      | error e => rw [hh] at ho; cases ho; rfl
  simp only [step, h.phase, h.live, if_pos h.due, hproceed, hsettle]

/-- What the end of a call does to the breakers. -/
theorem cell_conclude (p : CallPolicy) (a : Admission) (outcome : Except Failure Response) (c : Call)
    (l : Link) (id : Nat) :
    (c.conclude p a outcome l).2.breakers.cell id =
      if id = a.breaker ∧ a.breaker < l.breakers.cells.length then
        (l.breakers.cell a.breaker).settle p.breaker l.now a.permit (verdict outcome)
      else l.breakers.cell id :=
  Breakers.cell_modify ..

/-- A call that ends well in the eyes of its breaker tells it a success. -/
theorem Heartens.cell_conclude (h : Heartens p stage outcome) (ho : stage.outcome? p = some outcome) :
    (c.conclude p a outcome l).2.breakers.cell a.breaker =
      (l.breakers.cell a.breaker).succeed a.permit := by
  rw [Call.cell_conclude, (verdict_eq_success_iff ho).mpr h]
  split
  · rfl
  · next hout =>
    have hnew : l.breakers.cell a.breaker = {} := by
      rw [Breakers.cell, List.getElem?_eq_none (by omega)]
      rfl
    rw [hnew, Breaker.succeed_new]

theorem Goes.bounded (h : Goes p c l c' l') (hb : l.breakers.Bounded) : l'.breakers.Bounded := by
  intro id
  cases h.permitUse with
  | keeps _ he => rw [he]; exact hb id
  | takes _ _ he =>
    rw [(Breakers.acquire_granted he).2]
    split
    · rw [Breaker.failures_acquire]; exact hb _
    · exact hb id
  | gives _ _ he =>
    rw [he, Breakers.cell_modify]
    split
    · exact Breaker.failures_settle_le (hb _) _
    · exact hb id

/-- The only step of a call that makes a breaker healthier is the end of one that the breaker takes for
    a success. -/
theorem Goes.ends_of_heals (h : Goes p c l c' l') (hb : l.breakers.Bounded) {id : Nat}
    (hheals : (l.breakers.cell id).Heals (l'.breakers.cell id)) :
    ∃ a k stage outcome, Ends p c l a k stage outcome ∧ a.breaker = id ∧
      Heartens p stage outcome ∧ (l.breakers.cell id).Heals ((l.breakers.cell id).succeed a.permit) := by
  have hconclude : ∀ (a : Admission) (outcome : Except Failure Response),
      (l.breakers.cell id).Heals ((c.conclude p a outcome l).2.breakers.cell id) →
        a.breaker = id ∧ verdict outcome = .success ∧
          (l.breakers.cell id).Heals ((l.breakers.cell id).succeed a.permit) := by
    intro a outcome hheals
    rw [cell_conclude] at hheals
    split at hheals
    · next hid =>
      obtain ⟨rfl, -⟩ := hid
      exact ⟨rfl, (Breaker.heals_settle_iff (hb _)).mp hheals⟩
    · exact absurd hheals (Breaker.not_heals_self _)
  cases h with
  | ends hp hc hd ho hl =>
    obtain ⟨hid, hv, hheals⟩ := hconclude _ _ hheals
    exact ⟨_, _, _, _, ⟨hp, hc, hd, ho, hl⟩, hid, (verdict_eq_success_iff ho).mp hv, hheals⟩
  | stopped hp hc => exact absurd (hconclude _ _ hheals).2.1 nofun
  | refused hp hc ha =>
    have hsame := Breakers.acquire_refused (congrArg Prod.fst ha)
    rw [ha] at hsame
    simp only at hsame
    rw [hsame] at hheals
    exact absurd hheals (Breaker.not_heals_self _)
  | admitted hp hc ha =>
    have hcell := (Breakers.acquire_granted ha).2 id
    simp only [attempt] at hheals
    rw [hcell] at hheals
    split at hheals
    · next hid => subst hid; exact absurd hheals (Breaker.not_heals_acquire _ _ _)
    · exact absurd hheals (Breaker.not_heals_self _)
  | turnedAway hp hc => exact absurd hheals (Breaker.not_heals_self _)
  | sends hp hc hd hh => exact absurd hheals (Breaker.not_heals_self _)
  | rests hp hc hd hl hk => exact absurd hheals (Breaker.not_heals_self _)
  | panics hp hc hd hl hk => exact absurd hheals (Breaker.not_heals_self _)
  | retries hp hc hd => exact absurd hheals (Breaker.not_heals_self _)

end Call

namespace Pool

variable {p : CallPolicy} {s : Pool}

/-- The event is the end of a call that its breaker, the one with the number `id`, takes for a success,
    and the breaker is healthier for it. -/
def Cures (p : CallPolicy) (s : Pool) (e : PoolEvent) (id : Nat) : Prop :=
  ∃ caller c a k stage outcome, e = .advance caller ∧ s.call? caller = some c ∧
    Call.Ends p c s.link a k stage outcome ∧ a.breaker = id ∧ Call.Heartens p stage outcome ∧
    (s.breaker id).Heals ((s.breaker id).succeed a.permit)

theorem bounded_step (hb : s.link.breakers.Bounded) (e : PoolEvent) :
    (s.step p e).link.breakers.Bounded := by
  rcases step_cases p s e with ⟨caller, c, c', -, -, hgoes, -⟩ | ⟨-, hsame⟩
  · exact hgoes.bounded hb
  · intro id
    have := hsame id
    simp only [breaker] at this
    rw [this]
    exact hb id

theorem bounded_after (hb : s.link.breakers.Bounded) (events : List PoolEvent) :
    (s.after p events).link.breakers.Bounded := by
  induction events generalizing s with
  | nil => exact hb
  | cons e events ih => exact ih (bounded_step hb e)

/-- The end of a call, as an event. -/
theorem step_of_ends {caller k : Nat} {c : Call} {a : Admission} {stage : Stage}
    {outcome : Except Failure Response} (hc : s.call? caller = some c)
    (h : Call.Ends p c s.link a k stage outcome) :
    s.step p (.advance caller) = ⟨s.calls.set caller (some { c with phase := .finished outcome }),
      (c.conclude p a outcome s.link).2⟩ :=
  step_advance hc h.step_eq

/-- A breaker heals with the events that cure it and with no others. -/
theorem heals_step_iff (hb : s.link.breakers.Bounded) (e : PoolEvent) (id : Nat) :
    (s.breaker id).Heals ((s.step p e).breaker id) ↔ s.Cures p e id := by
  constructor
  · intro hheals
    rcases step_cases p s e with ⟨caller, c, c', rfl, hc, hgoes, -⟩ | ⟨-, hsame⟩
    · obtain ⟨a, k, stage, outcome, hends, hid, hheartens, hheals⟩ := hgoes.ends_of_heals hb hheals
      exact ⟨caller, c, a, k, stage, outcome, rfl, hc, hends, hid, hheartens, hheals⟩
    · rw [hsame] at hheals
      exact absurd hheals (Breaker.not_heals_self _)
  · rintro ⟨caller, c, a, k, stage, outcome, rfl, hc, hends, rfl, hheartens, hheals⟩
    rw [step_of_ends hc hends, breaker, breaker, hheartens.cell_conclude hends.result]
    exact hheals

/-- Over a list of events a breaker heals only if one of them cures it. -/
theorem exists_cures_of_heals_after (hb : s.link.breakers.Bounded) (id : Nat)
    (events : List PoolEvent) (hheals : (s.breaker id).Heals ((s.after p events).breaker id)) :
    ∃ before e later, events = before ++ e :: later ∧ (s.after p before).Cures p e id := by
  induction events generalizing s with
  | nil => exact absurd hheals (Breaker.not_heals_self _)
  | cons e events ih =>
    by_cases hstep : (s.breaker id).Heals ((s.step p e).breaker id)
    · exact ⟨[], e, events, rfl, (heals_step_iff hb e id).mp hstep⟩
    · have hrest : ((s.step p e).breaker id).Heals (((s.step p e).after p events).breaker id) := by
        by_contra hnone
        exact Breaker.not_heals_trans hstep hnone hheals
      obtain ⟨before, e', later, rfl, hcures⟩ := ih (bounded_step hb e) hrest
      exact ⟨e :: before, e', later, rfl, hcures⟩

/-- What makes a breaker healthier, whatever calls there are, in whatever order they go on, and whatever
    becomes of them. An event does just if it is the end of a call whose last attempt was answered with
    success or with a status that is not worth another try, or came to nothing because the credentials
    were denied or the request could not be sent. Over any list of events a breaker is no healthier in
    the end unless there is such an event among them. And every such call tells its breaker a
    success. -/
theorem healing_exact (p : CallPolicy) (s₀ : Pool) (hb : s₀.link.breakers.Bounded)
    (events : List PoolEvent) :
    let s := s₀.after p events
    (∀ e id, (s.breaker id).Heals ((s.step p e).breaker id) ↔ s.Cures p e id) ∧
    (∀ later id, (s.breaker id).Heals ((s.after p later).breaker id) →
      ∃ before e rest, later = before ++ e :: rest ∧ (s.after p before).Cures p e id) ∧
    (∀ caller c a k stage outcome, s.call? caller = some c →
      Call.Ends p c s.link a k stage outcome → Call.Heartens p stage outcome →
        (s.step p (.advance caller)).call? caller = some { c with phase := .finished outcome } ∧
        (s.step p (.advance caller)).breaker a.breaker =
          (s.breaker a.breaker).succeed a.permit) := by
  intro s
  have hbounded : s.link.breakers.Bounded := bounded_after hb events
  refine ⟨heals_step_iff hbounded, fun later id => exists_cures_of_heals_after hbounded id later, ?_⟩
  intro caller c a k stage outcome hc hends hheartens
  rw [step_of_ends hc hends]
  refine ⟨?_, hheartens.cell_conclude (c := c) hends.result⟩
  have hlt := (List.getElem?_eq_some_iff.mp (call?_eq_some_iff.mp hc)).1
  rw [call?_eq_some_iff, List.getElem?_set_self hlt]

/-- Never tries again, with breakers that open at the third failure, for a second. -/
def patientPolicy : CallPolicy where
  retry := .noRetry
  breaker := { failureThreshold := 3, openTimeout := .ofSeconds 1 }

/-- A server that is busy first, and then a request that cannot be sent. -/
def clumsyPool : Pool where
  link := { server := { script := [⟨.ok ⟨503, []⟩, 0⟩, ⟨.error (.invalidRequest "no host"), 0⟩] } }

/-- Anybody calls. -/
def ping : PoolEvent := .enter { token := 0 } "ping" { method := .get, url := "http://localhost/ping" }

/-- A call to its end. -/
def firstCall : List PoolEvent := [ping, .advance 0, .advance 0, .advance 0]

/-- The second call has asked for a permit and sent its request. -/
def secondCall : List PoolEvent := firstCall ++ [ping, .advance 1, .advance 1]

/-- The second call cannot send its request. -/
theorem ends_clumsyPool : ∃ c, (clumsyPool.after patientPolicy secondCall).call? 1 = some c ∧
    Call.Ends patientPolicy c (clumsyPool.after patientPolicy secondCall).link ⟨0, .normal⟩ 0
      (.awaiting (.error (.invalidRequest "no host")) 0)
      (.error (.transport (.invalidRequest "no host"))) := by
  have hcall : ((clumsyPool.after patientPolicy secondCall).call? 1).map
      (fun c => (c.context, c.phase)) = some ({ token := 0 },
        .active ⟨0, .normal⟩ 0 (.awaiting (.error (.invalidRequest "no host")) 0)) := by
    decide +kernel
  obtain ⟨c, hc, he⟩ := Option.map_eq_some_iff.mp hcall
  rw [Prod.mk.injEq] at he
  have hlive : ({ token := 0 } : Context).check
      (clumsyPool.after patientPolicy secondCall).link.tokens
      (clumsyPool.after patientPolicy secondCall).link.now = none := by decide +kernel
  exact ⟨c, hc, he.2, he.1 ▸ hlive, Nat.zero_le _, rfl, fun f hf hr => (by cases hf; cases hr)⟩

/-- The failure of the first call is forgotten with the end of the second. -/
theorem healing_exact_clumsy :
    clumsyPool.link.breakers.Bounded ∧
    ∃ c, (clumsyPool.after patientPolicy secondCall).call? 1 = some c ∧
      ((clumsyPool.after patientPolicy secondCall).step patientPolicy (.advance 1)).call? 1 =
        some { c with phase := .finished (.error (.transport (.invalidRequest "no host"))) } ∧
      ((clumsyPool.after patientPolicy secondCall).breaker 0).Heals
        (((clumsyPool.after patientPolicy secondCall).step patientPolicy (.advance 1)).breaker 0) := by
  have hb : clumsyPool.link.breakers.Bounded := fun id => Nat.zero_le _
  obtain ⟨hheals, -, hends⟩ := healing_exact patientPolicy clumsyPool hb secondCall
  obtain ⟨c, hc, hlast⟩ := ends_clumsyPool
  refine ⟨hb, c, hc, (hends 1 c _ _ _ _ hc hlast .unsendable).1, (hheals (.advance 1) 0).mpr ?_⟩
  exact ⟨1, c, _, _, _, _, rfl, hc, hlast, rfl, .unsendable, by decide +kernel⟩

/-- Never tries again, with breakers that open at the first failure, for a second, and credentials that
    can be had only once. -/
def forgetfulPolicy : CallPolicy where
  retry := .noRetry
  breaker := { failureThreshold := 1, openTimeout := .ofSeconds 1 }
  credentials := ⟨fun query => if query = 0 then .ok [] else .error ⟨"expired"⟩, fun _ => 0⟩

/-- The breaker opens, and a second later a call is on trial. -/
def trialCall : List PoolEvent := firstCall ++ [.outside (.pass 1000), ping, .advance 1]

/-- The breaker gets healthier with calls that nothing was heard from. One whose request cannot be sent
    makes a closed breaker forget a failure. One that is on trial and is denied its credentials closes
    a breaker, although nothing was sent since it opened. -/
theorem healed_unanswered :
    (let s := clumsyPool.after patientPolicy firstCall
      let s' := clumsyPool.after patientPolicy (secondCall ++ [.advance 1])
      s.breaker 0 = ⟨.closed, 1, none, false⟩ ∧ s'.breaker 0 = ⟨.closed, 0, none, false⟩ ∧
      (s'.call? 1).bind Call.outcome? =
        some (.error (.transport (.invalidRequest "no host")))) ∧
    (let s := clumsyPool.after forgetfulPolicy firstCall
      let s' := clumsyPool.after forgetfulPolicy trialCall
      let s'' := clumsyPool.after forgetfulPolicy (trialCall ++ [.advance 1])
      s.breaker 0 = ⟨.opened, 1, some 0, false⟩ ∧ s'.breaker 0 = ⟨.halfOpen, 1, some 0, true⟩ ∧
      s''.breaker 0 = ⟨.closed, 0, none, false⟩ ∧
      (s''.call? 1).bind Call.outcome? = some (.error (.auth ⟨"expired"⟩)) ∧
      s''.link.sent.length = s.link.sent.length) := by
  decide +kernel

end Pool

end SlurmLink
