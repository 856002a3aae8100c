import SlurmLink.Call
import SlurmLink.Proofs.Breaker
import SlurmLink.Proofs.Context

/-!
What a step of a call can be. `Goes` lists the steps, each with the guard under which it is taken, and
`goes_of_step` says that there are no others; all that is proved about calls goes by cases on it:

    entering ──▶ authorizing ──▶ awaiting ──▶ resting ──▶ authorizing ...
                     │              │ │         │
                     │              │ └──▶ panicked
                     └──────────────┴───────────┴──▶ finished

A step takes no time (`Goes.sameTime`), brings the end nearer (`Goes.remaining_lt`), and deals with the
permit of the call in one of three ways (`Goes.permitUse`).
-/

namespace SlurmLink

/-- What an attempt has come to at the end of a stage, if it is over with it. -/
def Stage.outcome? (p : CallPolicy) : Stage → Option (Except Failure Response)
  | .authorizing query _ =>
    match p.credentials.answer query with
    | .ok _ => none
    | .error e => some (.error (.auth e))
  | .awaiting outcome _ => some (Call.judge outcome)
  | .resting _ => none

namespace Call

/-- An outcome after which the call is over, at attempt `k`: a success, a failure that another try
    could not mend, or any at all when no attempts are left. -/
def IsLast (p : CallPolicy) (k : Nat) (outcome : Except Failure Response) : Prop :=
  ∀ f, outcome = .error f → f.isRetryable = true → p.retry.maxAttempts ≤ k + 1

/-- The steps of a call. -/
inductive Goes (p : CallPolicy) (c : Call) (l : Link) : Call → Link → Prop where
  /-- The context was done before the call could enter. -/
  | turnedAway {reason : CancelReason} (hp : c.phase = .entering)
      (hc : c.context.check l.tokens l.now = some reason) :
      Goes p c l { c with phase := .finished (.error (.cancelled reason)) } l
  /-- The breaker refused a permit. -/
  | refused {bs : Breakers} (hp : c.phase = .entering)
      (hc : c.context.check l.tokens l.now = none)
      (ha : l.breakers.acquire p.breaker l.now c.endpoint = (none, bs)) :
      Goes p c l { c with phase := .finished (.error (.circuitOpen c.endpoint)) }
        { l with breakers := bs }
  /-- The breaker granted a permit, and the first attempt begins. -/
  | admitted {id : Nat} {permit : Permit} {bs : Breakers} (hp : c.phase = .entering)
      (hc : c.context.check l.tokens l.now = none)
      (ha : l.breakers.acquire p.breaker l.now c.endpoint = (some (id, permit), bs)) :
      Goes p c l (c.attempt p ⟨id, permit⟩ 0 { l with breakers := bs }).1
        (c.attempt p ⟨id, permit⟩ 0 { l with breakers := bs }).2
  /-- The context is done, whatever the call was waiting for. -/
  | stopped {a : Admission} {k : Nat} {stage : Stage} {reason : CancelReason}
      (hp : c.phase = .active a k stage) (hc : c.context.check l.tokens l.now = some reason) :
      Goes p c l (c.conclude p a (.error (.cancelled reason)) l).1
        (c.conclude p a (.error (.cancelled reason)) l).2
  /-- The credentials have come, and the request is sent. -/
  | sends {a : Admission} {k query due : Nat} {headers : List Header}
      (hp : c.phase = .active a k (.authorizing query due))
      (hc : c.context.check l.tokens l.now = none) (hd : due ≤ l.now)
      (hh : p.credentials.answer query = .ok headers) :
      Goes p c l (c.send a k headers l).1 (c.send a k headers l).2
  /-- The last attempt is over. -/
  | ends {a : Admission} {k : Nat} {stage : Stage} {outcome : Except Failure Response}
      (hp : c.phase = .active a k stage) (hc : c.context.check l.tokens l.now = none)
      (hd : stage.due ≤ l.now) (ho : stage.outcome? p = some outcome) (hl : IsLast p k outcome) :
      Goes p c l (c.conclude p a outcome l).1 (c.conclude p a outcome l).2
  /-- An attempt has failed, and the next one is put off. -/
  | rests {a : Admission} {k due rest : Nat} {answer : Except TransportError Response}
      (hp : c.phase = .active a k (.awaiting answer due))
      (hc : c.context.check l.tokens l.now = none) (hd : due ≤ l.now)
      (hl : ¬ IsLast p k (judge answer)) (hk : k + 1 < p.retry.maxAttempts)
      (hr : p.rest? l.pauses k = some rest) :
      Goes p c l { c with phase := .active a k (.resting (l.now + rest)) }
        { l with pauses := l.pauses + 1 }
  /-- An attempt has failed, and there is no wait until the next one. -/
  | panics {a : Admission} {k due : Nat} {answer : Except TransportError Response}
      (hp : c.phase = .active a k (.awaiting answer due))
      (hc : c.context.check l.tokens l.now = none) (hd : due ≤ l.now)
      (hl : ¬ IsLast p k (judge answer)) (hk : k + 1 < p.retry.maxAttempts)
      (hr : p.rest? l.pauses k = none) :
      Goes p c l { c with phase := .panicked a k } { l with pauses := l.pauses + 1 }
  /-- The next attempt begins. -/
  | retries {a : Admission} {k due : Nat} (hp : c.phase = .active a k (.resting due))
      (hc : c.context.check l.tokens l.now = none) (hd : due ≤ l.now) :
      Goes p c l (c.attempt p a (k + 1) l).1 (c.attempt p a (k + 1) l).2

variable {p : CallPolicy} {c c' : Call} {l l' : Link}

theorem isLast_ok (r : Response) (k : Nat) : IsLast p k (.ok r) := fun f h => by cases h

theorem isLast_error_iff {f : Failure} {k : Nat} :
    IsLast p k (.error f) ↔ ¬ (f.isRetryable && decide (k + 1 < p.retry.maxAttempts)) = true := by
  constructor
  · intro h hb
    simp only [Bool.and_eq_true, decide_eq_true_eq] at hb
    have := h f rfl hb.1
    omega
  · intro h g hg hr
    cases hg
    simp only [Bool.and_eq_true, decide_eq_true_eq, hr, true_and] at h
    omega

/-- A failure of the credentials is final. -/
theorem isLast_auth (e : AuthError) (k : Nat) : IsLast p k (.error (.auth e)) := by
  intro f hf hr
  cases hf
  cases hr

/-- After an outcome the call ends if it is the last one and pauses otherwise. -/
theorem settle_eq (a : Admission) (k : Nat) (outcome : Except Failure Response) :
    (IsLast p k outcome ∧ c.settle p a k outcome l = c.conclude p a outcome l) ∨
    (¬ IsLast p k outcome ∧ k + 1 < p.retry.maxAttempts ∧
      c.settle p a k outcome l = c.pause p a k l) := by
  cases outcome with
  | ok r => exact Or.inl ⟨isLast_ok r k, rfl⟩
  | error f =>
    by_cases hb : (f.isRetryable && decide (k + 1 < p.retry.maxAttempts)) = true
    · refine Or.inr ⟨fun h => isLast_error_iff.mp h hb, ?_, by rw [settle, if_pos hb]⟩
      simp only [Bool.and_eq_true, decide_eq_true_eq] at hb
      exact hb.2
    · exact Or.inl ⟨isLast_error_iff.mpr hb, by rw [settle, if_neg hb]⟩

theorem settle_of_isLast (a : Admission) {k : Nat} {outcome : Except Failure Response}
    (h : IsLast p k outcome) : c.settle p a k outcome l = c.conclude p a outcome l := by
  rcases settle_eq (p := p) (c := c) (l := l) a k outcome with ⟨-, he⟩ | ⟨hn, -⟩
  · exact he
  · exact absurd h hn

theorem settle_of_not_isLast (a : Admission) {k : Nat} {outcome : Except Failure Response}
    (h : ¬ IsLast p k outcome) : c.settle p a k outcome l = c.pause p a k l := by
  rcases settle_eq (p := p) (c := c) (l := l) a k outcome with ⟨hl, -⟩ | ⟨-, -, he⟩
  · exact absurd hl h
  · exact he

/-- With a wait the call rests. -/
theorem pause_of_some (a : Admission) {k rest : Nat} (h : p.rest? l.pauses k = some rest) :
    c.pause p a k l = ({ c with phase := .active a k (.resting (l.now + rest)) },
      { l with pauses := l.pauses + 1 }) := by
  simp only [pause, h]

theorem pause_of_none (a : Admission) {k : Nat} (h : p.rest? l.pauses k = none) :
    c.pause p a k l = ({ c with phase := .panicked a k }, { l with pauses := l.pauses + 1 }) := by
  simp only [pause, h]

/-- There are no other steps. -/
theorem goes_of_step (h : c.step p l = some (c', l')) : Goes p c l c' l' := by
  rw [step] at h
  cases hp : c.phase with
  | finished outcome => rw [hp] at h; cases h
  | panicked a k => rw [hp] at h; cases h
  | entering =>
    rw [hp] at h
    simp only [Option.some.injEq, enter] at h
    cases hc : c.context.check l.tokens l.now with
    | some reason => rw [hc] at h; cases h; exact .turnedAway hp hc
    | none =>
      rw [hc] at h
      cases ha : l.breakers.acquire p.breaker l.now c.endpoint with
      | mk granted bs =>
        rw [ha] at h
        cases granted with
        | none => cases h; exact .refused hp hc ha
        | some x =>
          obtain ⟨id, permit⟩ := x
          cases h; exact .admitted hp hc ha
  | active a k stage =>
    rw [hp] at h
    cases hc : c.context.check l.tokens l.now with
    | some reason => rw [hc] at h; cases h; exact .stopped hp hc
    | none =>
      rw [hc] at h
      simp only at h
      split at h
      · next hd =>
        simp only [Option.some.injEq] at h
        cases stage with
        | resting due => cases h; exact .retries hp hc hd
        | awaiting answer due =>
          rw [proceed] at h
          rcases settle_eq (p := p) (c := c) (l := l) a k (judge answer) with ⟨hl, he⟩ | ⟨hl, hk, he⟩
          · rw [he] at h; cases h; exact .ends hp hc hd rfl hl
          · rw [he] at h
            cases hr : p.rest? l.pauses k with
            | some rest => rw [pause_of_some a hr] at h; cases h; exact .rests hp hc hd hl hk hr
            | none => rw [pause_of_none a hr] at h; cases h; exact .panics hp hc hd hl hk hr
        | authorizing query due =>
          rw [proceed] at h
          cases hh : p.credentials.answer query with
          | ok headers => rw [hh] at h; cases h; exact .sends hp hc hd hh
          | error e =>
            have ho : Stage.outcome? p (.authorizing query due) = some (.error (.auth e)) := by
              simp only [Stage.outcome?, hh]
            rw [hh] at h
            simp only [settle_of_isLast a (isLast_auth e k)] at h
            cases h
            exact .ends hp hc hd ho (isLast_auth e k)
      · cases h

/-- A call never changes what it is a call for. -/
theorem Goes.eq_with_phase (h : Goes p c l c' l') : c' = { c with phase := c'.phase } := by
  cases h <;> rfl

/-! ### Time -/

theorem Goes.sameTime (h : Goes p c l c' l') : l.SameTime l' := by
  cases h <;> exact ⟨rfl, rfl, rfl⟩

theorem isOver_eq_false_iff : c.isOver = false ↔ c.outcome? = none ∧ c.hasPanicked = false := by
  rw [isOver, Bool.or_eq_false_iff, Option.isSome_eq_false_iff, Option.isNone_iff_eq_none]

/-- A call that can neither go on nor is over waits for an instant ahead, and its context is not
    done. -/
theorem waits_of_step_eq_none (h : c.step p l = none) (hrun : c.isOver = false) :
    ∃ a k stage, c.phase = .active a k stage ∧ c.context.check l.tokens l.now = none ∧
      l.now < stage.due := by
  obtain ⟨hnone, hwhole⟩ := isOver_eq_false_iff.mp hrun
  rw [step] at h
  cases hp : c.phase with
  | finished outcome => rw [outcome?, hp] at hnone; cases hnone
  | panicked a k => rw [hasPanicked, hp] at hwhole; cases hwhole
  | entering => rw [hp] at h; cases h
  | active a k stage =>
    rw [hp] at h
    cases hc : c.context.check l.tokens l.now with
    | some reason => rw [hc] at h; cases h
    | none =>
      rw [hc] at h
      simp only at h
      split at h
      · cases h
      · next hd => exact ⟨a, k, stage, rfl, rfl, by omega⟩

/-- What a call that is over has come to. -/
theorem phase_of_isOver (h : c.isOver = true) :
    (∃ outcome, c.phase = .finished outcome) ∨ ∃ a k, c.phase = .panicked a k := by
  rw [isOver, outcome?, hasPanicked] at h
  cases hp : c.phase with
  | finished outcome => exact Or.inl ⟨outcome, rfl⟩
  | panicked a k => exact Or.inr ⟨a, k, rfl⟩
  | entering => rw [hp] at h; cases h
  | active a k stage => rw [hp] at h; cases h

/-- A call that is over makes no step. -/
theorem step_of_isOver (h : c.isOver = true) : c.step p l = none := by
  rw [step]
  rcases phase_of_isOver h with ⟨outcome, hp⟩ | ⟨a, k, hp⟩ <;> rw [hp]

theorem wake_of_isOver (h : c.isOver = true) : c.wake = none := by
  rw [wake]
  rcases phase_of_isOver h with ⟨outcome, hp⟩ | ⟨a, k, hp⟩ <;> rw [hp]

/-- A call panics only where there is no wait. -/
theorem Goes.rest?_eq_none (h : Goes p c l c' l') (hp : c'.hasPanicked = true) :
    ∃ a k, c'.phase = .panicked a k ∧ p.rest? l.pauses k = none := by
  cases h with
  | panics _ _ _ _ _ hr => exact ⟨_, _, rfl, hr⟩
  | _ => cases hp

theorem Goes.hasPanicked_eq_false (hrest : ∀ pause k, p.rest? pause k ≠ none)
    (h : Goes p c l c' l') : c'.hasPanicked = false := by
  cases hp : c'.hasPanicked with
  | false => rfl
  | true =>
    obtain ⟨a, k, -, hnone⟩ := h.rest?_eq_none hp
    exact absurd hnone (hrest _ _)

/-- An upper bound of the steps that a call still makes. -/
def remaining (p : CallPolicy) (c : Call) : Nat :=
  match c.phase with
  | .entering => 3 * p.retry.maxAttempts + 4
  | .active _ k (.authorizing ..) => 3 * (p.retry.maxAttempts - k) + 3
  | .active _ k (.awaiting ..) => 3 * (p.retry.maxAttempts - k) + 2
  | .active _ k (.resting _) => 3 * (p.retry.maxAttempts - (k + 1)) + 4
  | .panicked .. | .finished _ => 0

theorem Goes.remaining_lt (h : Goes p c l c' l') : c'.remaining p < c.remaining p := by
  cases h with
  | turnedAway hp hc => simp [remaining, hp]
  | refused hp hc ha => simp [remaining, hp]
  | admitted hp hc ha => simp [remaining, hp, attempt]
  | stopped hp hc => simp only [remaining, hp, conclude]; split <;> simp_all
  | sends hp hc hd hh => simp [remaining, hp, send]
  | ends hp hc hd ho hl => simp only [remaining, hp, conclude]; split <;> simp_all
  | rests hp hc hd hl hk hr => simp only [remaining, hp]; omega
  | panics hp hc hd hl hk hr => simp only [remaining, hp]; omega
  | retries hp hc hd => simp [remaining, hp, attempt]

/-! ### The permit -/

/-- The permit that a call has and has not given back. -/
def admission? (c : Call) : Option Admission :=
  match c.phase with
  | .active a _ _ | .panicked a _ => some a
  | _ => none

/-- What a step does with the permit of a call. -/
inductive PermitUse (p : CallPolicy) (c : Call) (l : Link) (c' : Call) (l' : Link) : Prop where
  /-- The call keeps what it has, and no breaker changes. -/
  | keeps (hh : c'.admission? = c.admission?) (hb : l'.breakers = l.breakers)
  /-- The call is granted a permit. -/
  | takes {a : Admission} (hn : c.admission? = none) (hh : c'.admission? = some a)
      (hb : l.breakers.acquire p.breaker l.now c.endpoint = (some (a.breaker, a.permit), l'.breakers))
  /-- The call is over and gives its permit back. -/
  | gives {a : Admission} {outcome : Except Failure Response} (hh : c.admission? = some a)
      (ho : c'.phase = .finished outcome)
      (hb : l'.breakers = l.breakers.modify a.breaker
        (Breaker.settle p.breaker l.now a.permit (verdict outcome)))

theorem Goes.permitUse (h : Goes p c l c' l') : PermitUse p c l c' l' := by
  cases h with
  | turnedAway hp hc => exact .keeps (by simp [admission?, hp]) rfl
  | refused hp hc ha =>
    refine .keeps (by simp [admission?, hp]) ?_
    have := Breakers.acquire_refused (congrArg Prod.fst ha)
    rw [ha] at this
    exact this
  | admitted hp hc ha => exact .takes (by simp [admission?, hp]) rfl ha
  | stopped hp hc => exact .gives (by simp [admission?, hp]) rfl rfl
  | sends hp hc hd hh => exact .keeps (by simp [admission?, hp, send]) rfl
  | ends hp hc hd ho hl => exact .gives (by simp [admission?, hp]) rfl rfl
  | rests hp hc hd hl hk hr => exact .keeps (by simp [admission?, hp]) rfl
  | panics hp hc hd hl hk hr => exact .keeps (by simp [admission?, hp]) rfl
  | retries hp hc hd => exact .keeps (by simp [admission?, hp, attempt]) rfl

end Call

end SlurmLink
