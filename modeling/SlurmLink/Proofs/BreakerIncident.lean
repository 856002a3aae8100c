import SlurmLink.Proofs.Breaker

/-!
What happens at a breaker when it is asked for a permit or told an outcome. `Incident.Happens` lists all
that can happen, with the rule under which each of it does, and `happens_of_incident?` says that there
is nothing else:

    closed ──trips──▶ opened ──tries──▶ halfOpen ──closes──▶ closed
                         ▲                 │ ▲
                         └─────reopens─────┘ └── frees, tries

All that is proved about histories of breakers goes by cases on it, or on what is left of it in one of
the three states.
-/

namespace SlurmLink

/-- What is done to a breaker. -/
inductive Deed where
  /-- A permit is granted to the holder of a ticket. -/
  | granted (ticket : Nat) (permit : Permit)
  | refused
  /-- A permit comes back with an outcome. -/
  | told (ticket : Nat) (permit : Permit) (outcome : Outcome)
  deriving DecidableEq, Repr

namespace Deed

/-- The answer to somebody who asked for a permit. -/
def answer? : Deed → Option (Option Permit)
  | .granted _ permit => some (some permit)
  | .refused => some none
  | .told .. => none

/-- What the breaker is told: the kind of permit that comes back, and the outcome. -/
def news? : Deed → Option (Permit × Outcome)
  | .told _ permit outcome => some (permit, outcome)
  | _ => none

theorem answer?_eq_none_of_news? {d : Deed} {news : Permit × Outcome} (h : d.news? = some news) :
    d.answer? = none := by
  cases d with
  | told ticket permit outcome => rfl
  | granted ticket permit => cases h
  | refused => cases h

theorem news?_eq_none_of_answer? {d : Deed} {answer : Option Permit} (h : d.answer? = some answer) :
    d.news? = none := by
  cases d with
  | told ticket permit outcome => cases h
  | granted ticket permit => rfl
  | refused => rfl

end Deed

/-- Something that happened at a breaker, with the breaker before and after it. -/
structure Incident where
  time : Nat
  deed : Deed
  before : Breaker
  after : Breaker
  deriving DecidableEq, Repr

namespace Incident

/-- The breaker opens, for the first time or again. -/
def Opens (x : Incident) : Prop := x.before.state ≠ .opened ∧ x.after.state = .opened

instance : DecidablePred Opens := fun x =>
  inferInstanceAs (Decidable (x.before.state ≠ .opened ∧ x.after.state = .opened))

/-- A normal permit comes back with a failure. -/
def isFailure (x : Incident) : Bool := x.deed.news? = some (.normal, .failure)

/-- From here on failures are counted afresh: a normal permit comes back with a success while the
    breaker is closed, or the breaker closes. -/
def startsOver (x : Incident) : Bool :=
  (x.deed.news? = some (.normal, .success) && x.before.state = .closed) ||
    (x.before.state ≠ .closed && x.after.state = .closed)

/-- Somebody is granted a trial. -/
def beginsTrial (x : Incident) : Bool := x.deed.answer? = some (some .trial)

/-- A trial is over, whatever it came to. -/
def endsTrial (x : Incident) : Bool := x.deed.news?.map Prod.fst = some .trial

/-- Everything that can happen at a breaker. -/
inductive Happens (config : BreakerConfig) (x : Incident) : Prop where
  | admits (hd : x.deed.answer? = some (some .normal)) (hs : x.before.state = .closed)
      (he : x.after = x.before)
  | tries (hd : x.deed.answer? = some (some .trial))
      (hs : x.before.state = .opened ∧ Breaker.isDue config x.time x.before.openedAt = true ∨
        x.before.state = .halfOpen)
      (hfree : x.before.trialInFlight = false)
      (he : x.after = { x.before with state := .halfOpen, trialInFlight := true })
  | refuses (hd : x.deed.answer? = some none)
      (hs : x.before.state = .opened ∧ Breaker.isDue config x.time x.before.openedAt = false ∨
        x.before.state = .halfOpen ∧ x.before.trialInFlight = true)
      (he : x.after = x.before)
  | ignores {outcome : Outcome} (hd : x.deed.news? = some (.normal, outcome))
      (hs : x.before.state ≠ .closed ∨ outcome = .abandoned) (he : x.after = x.before)
  | forgives (hd : x.deed.news? = some (.normal, .success)) (hs : x.before.state = .closed)
      (he : x.after = { x.before with failures := 0 })
  | counts (hd : x.deed.news? = some (.normal, .failure)) (hs : x.before.state = .closed)
      (hlt : x.before.failures + 1 < config.failureThreshold)
      (he : x.after = { x.before with failures := x.before.failures + 1 })
  | trips (hd : x.deed.news? = some (.normal, .failure)) (hs : x.before.state = .closed)
      (heq : x.before.failures + 1 = config.failureThreshold)
      (he : x.after = { x.before with
        state := .opened, failures := x.before.failures + 1, openedAt := some x.time })
  | closes (hd : x.deed.news? = some (.trial, .success)) (hs : x.before.state = .halfOpen)
      (ht : x.before.trialInFlight = true) (he : x.after = {})
  | reopens (hd : x.deed.news? = some (.trial, .failure)) (hs : x.before.state = .halfOpen)
      (ht : x.before.trialInFlight = true)
      (he : x.after = ⟨.opened, x.before.countFailure, some x.time, false⟩)
  | frees (hd : x.deed.news? = some (.trial, .abandoned)) (hs : x.before.state = .halfOpen)
      (ht : x.before.trialInFlight = true)
      (he : x.after = { x.before with trialInFlight := false })

end Incident

namespace Incident

variable {config : BreakerConfig} {x : Incident}

/-- Nothing that leaves the breaker alone is counted, unless the breaker is closed. -/
theorem Happens.failures_eq (h : x.Happens config) {count : Nat}
    (hb : x.before.state = .closed → x.before.failures = count) (hc : x.after.state = .closed) :
    x.after.failures = if x.startsOver then 0 else count + x.isFailure.toNat := by
  cases h with
  | admits hd hs he =>
    simp [startsOver, isFailure, Deed.news?_eq_none_of_answer? hd, he, hs, hb hs]
  | tries hd hs hfree he => rw [he] at hc; cases hc
  | refuses hd hs he =>
    rw [he] at hc
    simp [hc] at hs
  | ignores hd hs he =>
    rw [he] at hc
    rcases hs with hs | rfl
    · exact absurd hc hs
    · simp [startsOver, isFailure, hd, he, hc, hb hc]
  | forgives hd hs he => simp [startsOver, hd, hs, he]
  | counts hd hs hlt he => simp [startsOver, isFailure, hd, hs, he, hb hs]
  | trips hd hs heq he => rw [he] at hc; cases hc
  | closes hd hs ht he => simp [startsOver, hs, he]
  | reopens hd hs ht he => rw [he] at hc; cases hc
  | frees hd hs ht he =>
    rw [he] at hc
    rw [hs] at hc
    cases hc

/-- Everything that can happen while the breaker is closed. -/
theorem Happens.of_closed (h : x.Happens config) (hs : x.before.state = .closed) :
    (x.after = x.before ∧ ∀ outcome, x.deed.news? = some (.normal, outcome) → outcome = .abandoned) ∨
    (x.deed.news? = some (.normal, .success) ∧ x.after = { x.before with failures := 0 }) ∨
    (x.deed.news? = some (.normal, .failure) ∧ x.before.failures + 1 < config.failureThreshold ∧
      x.after = { x.before with failures := x.before.failures + 1 }) ∨
    (x.deed.news? = some (.normal, .failure) ∧ x.before.failures + 1 = config.failureThreshold ∧
      x.after = { x.before with
        state := .opened, failures := x.before.failures + 1, openedAt := some x.time }) := by
  cases h with
  | admits hd _ he =>
    refine Or.inl ⟨he, fun outcome hn => ?_⟩
    rw [Deed.news?_eq_none_of_answer? hd] at hn
    cases hn
  | tries _ hs' => simp [hs] at hs'
  | refuses _ hs' => simp [hs] at hs'
  | ignores hd hs' he =>
    refine Or.inl ⟨he, fun outcome hn => ?_⟩
    rw [hd] at hn
    cases hn
    exact hs'.resolve_left fun hne => hne hs
  | forgives hd _ he => exact Or.inr (Or.inl ⟨hd, he⟩)
  | counts hd _ hlt he => exact Or.inr (Or.inr (Or.inl ⟨hd, hlt, he⟩))
  | trips hd _ heq he => exact Or.inr (Or.inr (Or.inr ⟨hd, heq, he⟩))
  | closes _ hs' => rw [hs] at hs'; cases hs'
  | reopens _ hs' => rw [hs] at hs'; cases hs'
  | frees _ hs' => rw [hs] at hs'; cases hs'

/-- The breaker leaves its closed state just with the failure that reaches the threshold. -/
theorem Happens.leaves_closed_iff (h : x.Happens config) (hs : x.before.state = .closed) :
    x.after.state ≠ .closed ↔
      x.deed.news? = some (.normal, .failure) ∧ x.before.failures + 1 = config.failureThreshold := by
  rcases h.of_closed hs with ⟨he, hnone⟩ | ⟨hd, he⟩ | ⟨hd, hlt, he⟩ | ⟨hd, heq, he⟩
  · refine ⟨fun hleft => absurd (he ▸ hs) hleft, fun ⟨hd, _⟩ => ?_⟩
    cases hnone _ hd
  · simp [he, hs, hd]
  · simp [he, hs, hd]
    omega
  · simp [he, hd, heq]

theorem Happens.opens_of_leaves_closed (h : x.Happens config) (hs : x.before.state = .closed)
    (hleft : x.after.state ≠ .closed) : x.Opens := by
  refine ⟨by simp [hs], ?_⟩
  rcases h.of_closed hs with ⟨he, -⟩ | ⟨-, he⟩ | ⟨-, -, he⟩ | ⟨-, -, he⟩
  · exact absurd (he ▸ hs) hleft
  · exact absurd (by rw [he]; exact hs) hleft
  · exact absurd (by rw [he]; exact hs) hleft
  · rw [he]

/-- A normal permit that comes back changes nothing unless the breaker is closed. -/
theorem Happens.after_eq_of_normal (h : x.Happens config) {outcome : Outcome}
    (hd : x.deed.news? = some (.normal, outcome)) (hs : x.before.state ≠ .closed) :
    x.after = x.before := by
  cases h with
  | admits _ hs' => exact absurd hs' hs
  | tries hd' => rw [Deed.news?_eq_none_of_answer? hd'] at hd; cases hd
  | refuses _ _ he => exact he
  | ignores _ _ he => exact he
  | forgives _ hs' => exact absurd hs' hs
  | counts _ hs' => exact absurd hs' hs
  | trips _ hs' => exact absurd hs' hs
  | closes hd' => rw [hd] at hd'; cases hd'
  | reopens hd' => rw [hd] at hd'; cases hd'
  | frees hd' => rw [hd] at hd'; cases hd'

/-- A breaker that opens notes the instant. -/
theorem Happens.openedAt_of_opens (h : x.Happens config) (ho : x.Opens) :
    x.after.openedAt = some x.time := by
  obtain ⟨hb, ha⟩ := ho
  cases h with
  | admits _ _ he => rw [he] at ha; exact absurd ha hb
  | tries _ _ _ he => rw [he] at ha; cases ha
  | refuses _ _ he => rw [he] at ha; exact absurd ha hb
  | ignores _ _ he => rw [he] at ha; exact absurd ha hb
  | forgives _ hs he => rw [he] at ha; exact absurd ha hb
  | counts _ hs _ he => rw [he] at ha; exact absurd ha hb
  | trips _ _ _ he => rw [he]
  | closes _ _ _ he => rw [he] at ha; cases ha
  | reopens _ _ _ he => rw [he]
  | frees _ hs _ he => rw [he] at ha; exact absurd ha hb

/-! ### While the breaker is open -/

/-- An open breaker changes only when somebody asks who comes late enough, and is let through on trial. -/
theorem Happens.of_opened (h : x.Happens config) (hs : x.before.state = .opened) :
    (x.after = x.before ∧ (x.deed.answer? = none ∨ x.deed.answer? = some none ∧
      Breaker.isDue config x.time x.before.openedAt = false)) ∨
    (x.deed.answer? = some (some .trial) ∧
      Breaker.isDue config x.time x.before.openedAt = true ∧
      x.after = { x.before with state := .halfOpen, trialInFlight := true }) := by
  cases h with
  | admits _ hs' => rw [hs] at hs'; cases hs'
  | tries hd hs' _ he =>
    rcases hs' with ⟨-, hdue⟩ | hs'
    · exact Or.inr ⟨hd, hdue, he⟩
    · rw [hs] at hs'; cases hs'
  | refuses hd hs' he =>
    rcases hs' with ⟨-, hdue⟩ | ⟨hs', -⟩
    · exact Or.inl ⟨he, Or.inr ⟨hd, hdue⟩⟩
    · rw [hs] at hs'; cases hs'
  | ignores hd _ he => exact Or.inl ⟨he, Or.inl (Deed.answer?_eq_none_of_news? hd)⟩
  | forgives _ hs' => rw [hs] at hs'; cases hs'
  | counts _ hs' => rw [hs] at hs'; cases hs'
  | trips _ hs' => rw [hs] at hs'; cases hs'
  | closes _ hs' => rw [hs] at hs'; cases hs'
  | reopens _ hs' => rw [hs] at hs'; cases hs'
  | frees _ hs' => rw [hs] at hs'; cases hs'

/-! ### While the breaker is half open -/

/-- Everything that can happen while the breaker is half open. -/
theorem Happens.of_halfOpen (h : x.Happens config) (hs : x.before.state = .halfOpen) :
    (x.after = x.before ∧ x.endsTrial = false ∧ (x.deed.answer? = none ∨
      x.deed.answer? = some none ∧ x.before.trialInFlight = true)) ∨
    (x.deed.answer? = some (some .trial) ∧ x.before.trialInFlight = false ∧
      x.after = { x.before with trialInFlight := true }) ∨
    (x.deed.news? = some (.trial, .success) ∧ x.after = {}) ∨
    (x.deed.news? = some (.trial, .failure) ∧
      x.after = ⟨.opened, x.before.countFailure, some x.time, false⟩) ∨
    (x.deed.news? = some (.trial, .abandoned) ∧
      x.after = { x.before with trialInFlight := false }) := by
  cases h with
  | admits _ hs' => rw [hs] at hs'; cases hs'
  | tries hd _ hfree he => exact Or.inr (Or.inl ⟨hd, hfree, by rw [he, ← hs]⟩)
  | refuses hd hs' he =>
    rcases hs' with ⟨hs', -⟩ | ⟨-, ht⟩
    · rw [hs] at hs'; cases hs'
    · exact Or.inl ⟨he, by simp [endsTrial, Deed.news?_eq_none_of_answer? hd], Or.inr ⟨hd, ht⟩⟩
  | ignores hd _ he =>
    exact Or.inl ⟨he, by simp [endsTrial, hd], Or.inl (Deed.answer?_eq_none_of_news? hd)⟩
  | forgives _ hs' => rw [hs] at hs'; cases hs'
  | counts _ hs' => rw [hs] at hs'; cases hs'
  | trips _ hs' => rw [hs] at hs'; cases hs'
  | closes hd _ _ he => exact Or.inr (Or.inr (Or.inl ⟨hd, he⟩))
  | reopens hd _ _ he => exact Or.inr (Or.inr (Or.inr (Or.inl ⟨hd, he⟩)))
  | frees hd _ _ he => exact Or.inr (Or.inr (Or.inr (Or.inr ⟨hd, he⟩)))

/-- Half open, the breaker closes just with the success of a trial, and is as good as new then. -/
theorem Happens.closes_iff (h : x.Happens config) (hs : x.before.state = .halfOpen) :
    (x.after.state = .closed ↔ x.deed.news? = some (.trial, .success)) ∧
      (x.after.state = .closed → x.after = {}) := by
  rcases h.of_halfOpen hs with ⟨he, hends, -⟩ | ⟨hd, -, he⟩ | ⟨hd, he⟩ | ⟨hd, he⟩ | ⟨hd, he⟩
  · have hnews : x.deed.news? ≠ some (.trial, .success) := by
      intro hn; simp [endsTrial, hn] at hends
    simp [he, hs, hnews]
  · simp [he, hs, Deed.news?_eq_none_of_answer? hd]
  · simp [he, hd]
  · simp [he, hd]
  · simp [he, hs, hd]

/-- Half open, the breaker opens again just with the failure of a trial. -/
theorem Happens.reopens_iff (h : x.Happens config) (hs : x.before.state = .halfOpen) :
    x.after.state = .opened ↔ x.deed.news? = some (.trial, .failure) := by
  rcases h.of_halfOpen hs with ⟨he, hends, -⟩ | ⟨hd, -, he⟩ | ⟨hd, he⟩ | ⟨hd, he⟩ | ⟨hd, he⟩
  · have hnews : x.deed.news? ≠ some (.trial, .failure) := by
      intro hn; simp [endsTrial, hn] at hends
    simp [he, hs, hnews]
  · simp [he, hs, Deed.news?_eq_none_of_answer? hd]
  · simp [he, hd]
  · simp [he, hd]
  · simp [he, hs, hd]

/-- The slot of a breaker is taken as a trial begins and freed as it ends. -/
theorem Happens.trials_eq (h : x.Happens config) :
    x.beginsTrial.toNat + x.before.trialInFlight.toNat =
      x.endsTrial.toNat + x.after.trialInFlight.toNat := by
  have hasks : ∀ {answer}, x.deed.answer? = some answer → x.endsTrial = false := fun hd => by
    simp [endsTrial, Deed.news?_eq_none_of_answer? hd]
  have htells : ∀ {news}, x.deed.news? = some news → x.beginsTrial = false := fun hd => by
    simp [beginsTrial, Deed.answer?_eq_none_of_news? hd]
  cases h with
  | admits hd _ he => simp [hasks hd, beginsTrial, hd, he]
  | tries hd _ hfree he => simp [hasks hd, beginsTrial, hd, he, hfree]
  | refuses hd _ he => simp [hasks hd, beginsTrial, hd, he]
  | ignores hd _ he => simp [htells hd, endsTrial, hd, he]
  | forgives hd _ he => simp [htells hd, endsTrial, hd, he]
  | counts hd _ _ he => simp [htells hd, endsTrial, hd, he]
  | trips hd _ _ he => simp [htells hd, endsTrial, hd, he]
  | closes hd _ ht he => simp [htells hd, endsTrial, hd, he, ht]
  | reopens hd _ ht he => simp [htells hd, endsTrial, hd, he, ht]
  | frees hd _ ht he => simp [htells hd, endsTrial, hd, he, ht]

end Incident

/-! ### Moves -/

namespace Turnstile

/-- What a move does to the breaker, if anything. -/
def deed? (config : BreakerConfig) (s : Turnstile) : TurnstileMove → Option Deed
  | .pass _ => none
  | .ask => some (match (s.breaker.acquire config s.now).1 with
    | some permit => .granted s.permits.length permit
    | none => .refused)
  | .settle ticket outcome =>
    match s.permits[ticket]? with
    | some (some permit) => some (.told ticket permit outcome)
    | _ => none

/-- What happens with a move, if anything. -/
def incident? (config : BreakerConfig) (s : Turnstile) (m : TurnstileMove) : Option Incident :=
  (s.deed? config m).map fun deed => ⟨s.now, deed, s.breaker, (s.step config m).breaker⟩

variable {config : BreakerConfig} {s : Turnstile} {x : Incident}

theorem happens_of_ask (hs : s.breaker.Sound config s.now s.trials)
    (h : s.incident? config .ask = some x) : x.Happens config := by
  rw [incident?] at h
  cases h
  rcases Breaker.acquire_cases config s.now s.breaker with ⟨hc, he⟩ | ⟨hfree, he⟩ | ⟨hno, he⟩
  · refine .admits ?_ hc ?_
    · simp only [Deed.answer?, he]
    · simp only [step, he]
  · refine .tries ?_ ?_ ?_ ?_
    · simp only [Deed.answer?, he]
    · exact hfree.imp id And.left
    · rcases hfree with ⟨ho, -⟩ | ⟨-, hf⟩
      · refine Bool.eq_false_iff.mpr fun ht => ?_
        have hhalf := hs.slot.halfOpen ht
        rw [ho] at hhalf
        cases hhalf
      · exact hf
    · simp only [step, he]
  · refine .refuses ?_ hno ?_
    · simp only [Deed.answer?, he]
    · simp only [step, he]

/-- A normal permit that comes back. No count is lost at the greatest, since a closed breaker counts
    less than the threshold. -/
theorem happens_of_told_normal (hmax : config.failureThreshold ≤ Breaker.maxFailures)
    (hs : s.breaker.Sound config s.now s.trials) {outcome : Outcome}
    (hd : x.deed.news? = some (.normal, outcome)) (ht : x.time = s.now) (hb : x.before = s.breaker)
    (ha : x.after = s.breaker.settle config s.now .normal outcome) : x.Happens config := by
  rw [← ht, ← hb] at ha
  by_cases hc : x.before.state = .closed
  · have hlt : x.before.failures < config.failureThreshold := (hs.closed (hb ▸ hc)).1 |> (hb ▸ ·)
    have hcount : x.before.countFailure = x.before.failures + 1 := by
      rw [Breaker.countFailure]; omega
    cases outcome with
    | abandoned => exact .ignores hd (Or.inr rfl) ha
    | success => exact .forgives hd hc (by rw [ha]; simp [Breaker.settle, Breaker.succeed, hc])
    | failure =>
      rw [Breaker.settle, Breaker.fail, if_pos hc, hcount] at ha
      by_cases heq : x.before.failures + 1 = config.failureThreshold
      · rw [if_pos (by omega)] at ha
        exact .trips hd hc heq ha
      · rw [if_neg (by omega)] at ha
        exact .counts hd hc (by omega) ha
  · refine .ignores hd (Or.inl hc) ?_
    rcases Breaker.settle_normal_cases config x.time outcome x.before with he | ⟨hc', -⟩
    · rw [ha, he]
    · exact absurd hc' hc

theorem happens_of_told_trial (hs : s.breaker.Sound config s.now s.trials) (hpos : 0 < s.trials)
    {outcome : Outcome} (hd : x.deed.news? = some (.trial, outcome)) (ht : x.time = s.now)
    (hb : x.before = s.breaker) (ha : x.after = s.breaker.settle config s.now .trial outcome) :
    x.Happens config := by
  have hslot : x.before.trialInFlight = true := by
    have := hs.slot.trials_eq
    rw [hb]
    cases hf : s.breaker.trialInFlight with
    | true => rfl
    | false => rw [hf, Bool.toNat_false] at this; omega
  have hhalf : x.before.state = .halfOpen := by
    rw [hb] at hslot ⊢
    exact hs.slot.halfOpen hslot
  rw [← ht, ← hb] at ha
  cases outcome with
  | success => exact .closes hd hhalf hslot ha
  | failure => exact .reopens hd hhalf hslot ha
  | abandoned => exact .frees hd hhalf hslot ha

/-- Nothing else can happen at a breaker that is sound. -/
theorem happens_of_incident? (hmax : config.failureThreshold ≤ Breaker.maxFailures)
    (hs : s.breaker.Sound config s.now s.trials) {m : TurnstileMove}
    (h : s.incident? config m = some x) : x.Happens config := by
  cases m with
  | pass duration => cases h
  | ask => exact happens_of_ask hs h
  | settle ticket outcome =>
    rw [incident?, deed?] at h
    split at h
    · next permit hp =>
      cases h
      have hafter : (s.step config (.settle ticket outcome)).breaker =
          s.breaker.settle config s.now permit outcome := by
        simp only [step, hp]
      cases permit with
      | normal => exact happens_of_told_normal hmax hs rfl rfl rfl hafter
      | trial =>
        have hpos : 0 < s.trials := List.count_pos_iff.mpr (List.mem_of_getElem? hp)
        exact happens_of_told_trial hs hpos rfl rfl rfl hafter
    · cases h

end Turnstile

end SlurmLink
