import SlurmLink.Breaker

/-!
What a breaker keeps to, whoever asks it for permits and in whatever order they come back.
`breaker_sound` says which states can be reached:

    closed     failures < threshold    opened never    slot free
    opened     threshold ≤ failures    opened at t     slot free
    halfOpen   threshold ≤ failures    opened at t     slot taken iff a trial permit is out

A normal permit may come back in any of them, so the invariant has to count the trial permits that
are out; nothing about the normal ones is needed.
-/

namespace SlurmLink

namespace Breaker

/-! ### What each operation can do -/

/-- Everything that asking for a permit can do. -/
theorem acquire_cases (config : BreakerConfig) (now : Nat) (b : Breaker) :
    (b.state = .closed ∧ b.acquire config now = (some .normal, b)) ∨
    ((b.state = .opened ∧ isDue config now b.openedAt = true ∨
        b.state = .halfOpen ∧ b.trialInFlight = false) ∧
      b.acquire config now = (some .trial, { b with state := .halfOpen, trialInFlight := true })) ∨
    ((b.state = .opened ∧ isDue config now b.openedAt = false ∨
        b.state = .halfOpen ∧ b.trialInFlight = true) ∧
      b.acquire config now = (none, b)) := by
  obtain ⟨state, failures, openedAt, trialInFlight⟩ := b
  cases state with
  | closed => exact Or.inl ⟨rfl, rfl⟩
  | opened =>
    cases hd : isDue config now openedAt with
    | true => exact Or.inr (Or.inl ⟨Or.inl ⟨rfl, rfl⟩, by simp [acquire, hd]⟩)
    | false => exact Or.inr (Or.inr ⟨Or.inl ⟨rfl, rfl⟩, by simp [acquire, hd]⟩)
  | halfOpen =>
    cases trialInFlight with
    | true => exact Or.inr (Or.inr ⟨Or.inr ⟨rfl, rfl⟩, rfl⟩)
    | false => exact Or.inr (Or.inl ⟨Or.inr ⟨rfl, rfl⟩, rfl⟩)

/-- Everything that a normal permit can do when it comes back: nothing unless the breaker is closed. -/
theorem settle_normal_cases (config : BreakerConfig) (now : Nat) (outcome : Outcome) (b : Breaker) :
    b.settle config now .normal outcome = b ∨
    b.state = .closed ∧
      (b.settle config now .normal outcome = { b with failures := 0 } ∨
      (b.countFailure < config.failureThreshold ∧
        b.settle config now .normal outcome = { b with failures := b.countFailure }) ∨
      (config.failureThreshold ≤ b.countFailure ∧
        b.settle config now .normal outcome =
          { b with state := .opened, failures := b.countFailure, openedAt := some now })) := by
  by_cases hc : b.state = .closed
  · cases outcome with
    | success => exact Or.inr ⟨hc, Or.inl (by simp [settle, succeed, hc])⟩
    | abandoned => exact Or.inl rfl
    | failure =>
      by_cases ht : config.failureThreshold ≤ b.countFailure
      · exact Or.inr ⟨hc, Or.inr (Or.inr ⟨ht, by simp [settle, fail, hc, ht]⟩)⟩
      · exact Or.inr ⟨hc, Or.inr (Or.inl ⟨by omega, by simp [settle, fail, hc, ht]⟩)⟩
  · cases outcome with
    | success => exact Or.inl (by simp [settle, succeed, hc])
    | abandoned => exact Or.inl rfl
    | failure => exact Or.inl (by simp [settle, fail, hc])

theorem settle_trial_failure (config : BreakerConfig) (now : Nat) (b : Breaker) :
    b.settle config now .trial .failure =
      { state := .opened, failures := b.countFailure, openedAt := some now,
        trialInFlight := false } := rfl

theorem settle_trial_abandoned (config : BreakerConfig) (now : Nat) (b : Breaker) :
    b.settle config now .trial .abandoned = { b with trialInFlight := false } := rfl

theorem le_countFailure {b : Breaker} (h : b.failures ≤ maxFailures) :
    b.failures ≤ b.countFailure := by
  simp only [countFailure]; omega

theorem countFailure_le (b : Breaker) : b.countFailure ≤ maxFailures := by
  simp only [countFailure]; omega

/-! ### The trial slot -/

/-- The slot is taken by the only trial permit that is out, and only while the breaker is half open. -/
structure SlotFits (b : Breaker) (trials : Nat) : Prop where
  trials_eq : trials = b.trialInFlight.toNat
  halfOpen : b.trialInFlight = true → b.state = .halfOpen

theorem slotFits_new : SlotFits {} 0 := ⟨rfl, by simp⟩

/-- Asking adds one to the trial permits that are out if it is granted a trial. -/
theorem SlotFits.acquire {b : Breaker} {trials : Nat} (h : b.SlotFits trials)
    (config : BreakerConfig) (now : Nat) :
    (b.acquire config now).2.SlotFits
      (trials + if (b.acquire config now).1 = some .trial then 1 else 0) := by
  rcases acquire_cases config now b with ⟨_, he⟩ | ⟨hfree, he⟩ | ⟨_, he⟩
  · rw [he]; simpa using h
  · have hslot : b.trialInFlight = false := by
      rcases hfree with ⟨ho, _⟩ | ⟨_, hf⟩
      · cases hs : b.trialInFlight with
        | false => rfl
        | true => rw [h.halfOpen hs] at ho; cases ho
      · exact hf
    rw [he]
    exact ⟨by simp [h.trials_eq, hslot], fun _ => rfl⟩
  · rw [he]; simpa using h

/-- A normal permit that comes back leaves the slot alone. -/
theorem SlotFits.settle_normal {b : Breaker} {trials : Nat} (h : b.SlotFits trials)
    (config : BreakerConfig) (now : Nat) (outcome : Outcome) :
    (b.settle config now .normal outcome).SlotFits trials := by
  rcases settle_normal_cases config now outcome b with he | ⟨hc, he | ⟨_, he⟩ | ⟨_, he⟩⟩
  · rw [he]; exact h
  · rw [he]; exact ⟨h.trials_eq, h.halfOpen⟩
  · rw [he]; exact ⟨h.trials_eq, h.halfOpen⟩
  · rw [he]
    refine ⟨h.trials_eq, fun hs => ?_⟩
    have := h.halfOpen hs
    rw [hc] at this; cases this

/-- A trial permit that comes back frees the slot. -/
theorem SlotFits.settle_trial {b : Breaker} {trials : Nat} (h : b.SlotFits (trials + 1))
    (config : BreakerConfig) (now : Nat) (outcome : Outcome) :
    (b.settle config now .trial outcome).SlotFits trials := by
  have hzero : trials = 0 := by
    have := h.trials_eq
    have := Bool.toNat_le b.trialInFlight
    omega
  subst hzero
  cases outcome with
  | success => exact slotFits_new
  | failure => exact ⟨rfl, by simp [settle_trial_failure]⟩
  | abandoned => exact ⟨rfl, by simp [settle_trial_abandoned]⟩

/-! ### The counter and the instant of opening -/

/-- What holds of a breaker at the instant `now` while `trials` of its trial permits are out. -/
structure Sound (config : BreakerConfig) (now : Nat) (b : Breaker) (trials : Nat) : Prop where
  closed : b.state = .closed → b.failures < config.failureThreshold ∧ b.openedAt = none
  tripped : b.state ≠ .closed →
    config.failureThreshold ≤ b.failures ∧ ∃ t, t ≤ now ∧ b.openedAt = some t
  bounded : b.failures ≤ maxFailures
  slot : b.SlotFits trials

variable {config : BreakerConfig} {now : Nat} {b : Breaker} {trials : Nat}

theorem sound_new (h : 1 ≤ config.failureThreshold) (now : Nat) : Sound config now {} 0 :=
  ⟨fun _ => ⟨h, rfl⟩, fun hne => absurd rfl hne, Nat.zero_le _, slotFits_new⟩

theorem Sound.later (h : Sound config now b trials) {later : Nat} (hle : now ≤ later) :
    Sound config later b trials := by
  refine ⟨h.closed, fun hne => ?_, h.bounded, h.slot⟩
  obtain ⟨hf, t, ht, hat⟩ := h.tripped hne
  exact ⟨hf, t, Nat.le_trans ht hle, hat⟩

theorem Sound.acquire (h : Sound config now b trials) :
    Sound config now (b.acquire config now).2
      (trials + if (b.acquire config now).1 = some .trial then 1 else 0) := by
  have hslot := h.slot.acquire config now
  rcases acquire_cases config now b with ⟨_, he⟩ | ⟨hfree, he⟩ | ⟨_, he⟩
  · rw [he] at hslot ⊢; exact ⟨h.closed, h.tripped, h.bounded, hslot⟩
  · have hne : b.state ≠ .closed := by
      rcases hfree with ⟨ho, _⟩ | ⟨ho, _⟩ <;> simp [ho]
    rw [he] at hslot ⊢
    exact ⟨by simp, fun _ => h.tripped hne, h.bounded, hslot⟩
  · rw [he] at hslot ⊢; exact ⟨h.closed, h.tripped, h.bounded, hslot⟩

theorem Sound.settle_normal (h : Sound config now b trials) (hthr : 1 ≤ config.failureThreshold)
    (outcome : Outcome) : Sound config now (b.settle config now .normal outcome) trials := by
  have hslot := h.slot.settle_normal config now outcome
  rcases settle_normal_cases config now outcome b with he | ⟨hc, he | ⟨hlt, he⟩ | ⟨hle, he⟩⟩
  · rw [he]; exact h
  · rw [he] at hslot ⊢
    exact ⟨fun _ => ⟨hthr, (h.closed hc).2⟩, fun hne => absurd hc hne, Nat.zero_le _, hslot⟩
  · rw [he] at hslot ⊢
    exact ⟨fun _ => ⟨hlt, (h.closed hc).2⟩, fun hne => absurd hc hne, countFailure_le b, hslot⟩
  · rw [he] at hslot ⊢
    exact ⟨by simp, fun _ => ⟨hle, now, Nat.le_refl _, rfl⟩, countFailure_le b, hslot⟩

/-- A trial that fails opens the breaker again. The count it adds to has passed the threshold, since a
    trial is out only while the breaker is half open. -/
theorem Sound.settle_trial (h : Sound config now b (trials + 1))
    (hthr : 1 ≤ config.failureThreshold) (outcome : Outcome) :
    Sound config now (b.settle config now .trial outcome) trials := by
  have hslot := h.slot.settle_trial config now outcome
  have hhalf : b.state = .halfOpen := by
    refine h.slot.halfOpen ?_
    have := h.slot.trials_eq
    cases hs : b.trialInFlight with
    | true => rfl
    | false => simp [hs] at this
  obtain ⟨hf, t, ht, hat⟩ := h.tripped (by simp [hhalf])
  cases outcome with
  | success =>
    exact ⟨fun _ => ⟨hthr, rfl⟩, fun hne => absurd rfl hne, Nat.zero_le _, hslot⟩
  | failure =>
    refine ⟨by simp [settle_trial_failure], fun _ => ⟨?_, now, Nat.le_refl _, rfl⟩,
      countFailure_le b, hslot⟩
    exact Nat.le_trans hf (le_countFailure h.bounded)
  | abandoned =>
    exact ⟨by simp [settle_trial_abandoned, hhalf], fun _ => ⟨hf, t, ht, hat⟩, h.bounded, hslot⟩

end Breaker

/-! ### Runs -/

/-- What can happen at a breaker. -/
inductive TurnstileMove where
  /-- Time passes. -/
  | pass (duration : Nat)
  /-- Somebody asks for a permit. -/
  | ask
  /-- Whoever holds the permit with this ticket gives it back. -/
  | settle (ticket : Nat) (outcome : Outcome)
  deriving DecidableEq, Repr

/-- A breaker with its clock and the permits that it has granted. -/
structure Turnstile where
  breaker : Breaker := {}
  now : Nat := 0
  /-- The permits by ticket, in the order in which they were granted; one that has been given back is
      no longer there. -/
  permits : List (Option Permit) := []
  deriving DecidableEq, Repr

namespace Turnstile

/-- One move. A ticket whose permit is not out moves nothing, so no permit is used twice. -/
def step (config : BreakerConfig) (s : Turnstile) : TurnstileMove → Turnstile
  | .pass duration => { s with now := s.now + duration }
  | .ask =>
    let (permit, breaker) := s.breaker.acquire config s.now
    { s with breaker, permits := s.permits ++ permit.toList.map some }
  | .settle ticket outcome =>
    match s.permits[ticket]? with
    | some (some permit) =>
      { s with
        breaker := s.breaker.settle config s.now permit outcome
        permits := s.permits.set ticket none }
    | _ => s

/-- A new breaker after a list of moves. -/
def run (config : BreakerConfig) (moves : List TurnstileMove) : Turnstile :=
  moves.foldl (step config) {}

/-- How many trial permits are out. -/
def trials (s : Turnstile) : Nat := s.permits.count (some .trial)

/-- Every move keeps the breaker sound for the trial permits that are out. -/
theorem sound_step {config : BreakerConfig} (hthr : 1 ≤ config.failureThreshold) (s : Turnstile)
    (m : TurnstileMove) (h : s.breaker.Sound config s.now s.trials) :
    (s.step config m).breaker.Sound config (s.step config m).now (s.step config m).trials := by
  cases m with
  | pass duration => exact h.later (Nat.le_add_right _ _)
  | ask =>
    have hcount : (s.step config .ask).trials =
        s.trials + if (s.breaker.acquire config s.now).1 = some .trial then 1 else 0 := by
      simp only [step, trials, List.count_append]
      rcases (s.breaker.acquire config s.now).1 with _ | _ | _ <;> rfl
    rw [hcount]
    exact h.acquire
  | settle ticket outcome =>
    simp only [step]
    split
    · next permit hp =>
      obtain ⟨hlt, hget⟩ := List.getElem?_eq_some_iff.mp hp
      have hcount : s.trials = (s.permits.set ticket none).count (some .trial) +
          if permit = .trial then 1 else 0 := by
        have hpos : permit = .trial → 0 < s.permits.count (some .trial) := by
          rintro rfl
          exact List.count_pos_iff.mpr (hget ▸ List.getElem_mem hlt)
        rw [List.count_set hlt, hget, trials]
        cases permit with
        | normal => simp
        | trial => have := hpos rfl; simp; omega
      rw [hcount] at h
      cases permit with
      | normal => exact h.settle_normal hthr outcome
      | trial => exact h.settle_trial hthr outcome
    · exact h

theorem sound_foldl {config : BreakerConfig} (hthr : 1 ≤ config.failureThreshold) :
    ∀ (moves : List TurnstileMove) (s : Turnstile), s.breaker.Sound config s.now s.trials →
      (moves.foldl (step config) s).breaker.Sound config (moves.foldl (step config) s).now
        (moves.foldl (step config) s).trials
  | [], _, h => h
  | m :: moves, s, h => sound_foldl hthr moves (s.step config m) (sound_step hthr s m h)

/-- Whatever happens at a breaker, it is closed below its threshold and otherwise at or above it with
    the instant of its opening on record, and its slot is taken exactly while a trial permit, the only
    one, is out. -/
theorem breaker_sound (config : BreakerConfig) (hthr : 1 ≤ config.failureThreshold)
    (moves : List TurnstileMove) :
    let s := run config moves
    (s.breaker.state = .closed → s.breaker.failures < config.failureThreshold ∧
      s.breaker.openedAt = none ∧ s.breaker.trialInFlight = false) ∧
    (s.breaker.state = .opened → config.failureThreshold ≤ s.breaker.failures ∧
      (∃ t, t ≤ s.now ∧ s.breaker.openedAt = some t) ∧ s.breaker.trialInFlight = false) ∧
    (s.breaker.state = .halfOpen → config.failureThreshold ≤ s.breaker.failures ∧
      ∃ t, t ≤ s.now ∧ s.breaker.openedAt = some t) ∧
    (s.breaker.trialInFlight = true ↔ s.trials = 1) ∧ s.trials ≤ 1 ∧
    s.breaker.failures ≤ Breaker.maxFailures := by
  intro s
  have h : s.breaker.Sound config s.now s.trials :=
    sound_foldl hthr moves {} (Breaker.sound_new hthr 0)
  have hfree : s.breaker.state ≠ .halfOpen → s.breaker.trialInFlight = false := by
    intro hne
    exact Bool.eq_false_iff.mpr fun ht => hne (h.slot.halfOpen ht)
  refine ⟨fun hc => ?_, fun ho => ?_, fun hh => h.tripped (by simp [hh]), ?_, ?_, h.bounded⟩
  · exact ⟨(h.closed hc).1, (h.closed hc).2, hfree (by simp [hc])⟩
  · obtain ⟨hf, hat⟩ := h.tripped (by simp [ho])
    exact ⟨hf, hat, hfree (by simp [ho])⟩
  · rw [h.slot.trials_eq]; cases s.breaker.trialInFlight <;> simp
  · rw [h.slot.trials_eq]; exact Bool.toNat_le _

/-- A breaker that opens at the first failure, lets a trial through after two milliseconds and refuses
    another, and opens again when the trial fails: the failures count on beyond the threshold. -/
theorem breaker_sound_reopened :
    let config : BreakerConfig := { failureThreshold := 1, openTimeout := .ofMillis 2 }
    let s := run config
      [.ask, .ask, .settle 0 .failure, .pass 2, .ask, .ask, .settle 1 .success, .settle 2 .failure]
    1 ≤ config.failureThreshold ∧ s.breaker.state = .opened ∧ s.breaker.failures = 2 ∧
      config.failureThreshold ≤ s.breaker.failures ∧
      (∃ t, t ≤ s.now ∧ s.breaker.openedAt = some t) ∧ s.breaker.trialInFlight = false :=
  ⟨by decide, by decide, by decide, (breaker_sound _ (by decide) _).2.1 (by decide)⟩

end Turnstile

/-! ### Breakers of many endpoints -/

namespace Breakers

/-- The breaker with the given number; one that has not been made yet is as good as new. -/
def cell (bs : Breakers) (id : Nat) : Breaker := bs.cells[id]?.getD {}

theorem cell_obtain (bs : Breakers) (endpoint : String) (id : Nat) :
    (bs.obtain endpoint).2.cell id = bs.cell id := by
  rw [obtain]
  split
  · rfl
  · simp only [cell, List.getElem?_append]
    split
    · rfl
    · next h =>
      have hnone : bs.cells[id]? = none := by simp; omega
      rw [hnone]
      cases h0 : id - bs.cells.length <;> simp

theorem cell_modify (bs : Breakers) (id : Nat) (f : Breaker → Breaker) (j : Nat) :
    (bs.modify id f).cell j =
      if j = id ∧ id < bs.cells.length then f (bs.cell id) else bs.cell j := by
  simp only [cell, modify, List.getElem?_modify]
  by_cases hj : id = j
  · subst hj
    by_cases hlt : id < bs.cells.length
    · simp [hlt]
    · simp [hlt]
  · have : ¬ j = id := fun h => hj h.symm
    simp [hj, this]

/-- Asking for an endpoint asks its breaker and leaves all others as they are. -/
theorem acquire_spec (config : BreakerConfig) (now : Nat) (endpoint : String) (bs : Breakers) :
    (bs.acquire config now endpoint).1 =
      ((bs.cell (bs.obtain endpoint).1).acquire config now).1.map ((bs.obtain endpoint).1, ·) ∧
    ∀ j, (bs.acquire config now endpoint).2.cell j =
      if j = (bs.obtain endpoint).1 then ((bs.cell (bs.obtain endpoint).1).acquire config now).2
      else bs.cell j := by
  have hcell : (bs.obtain endpoint).2.cells[(bs.obtain endpoint).1]?.getD {} =
      bs.cell (bs.obtain endpoint).1 := cell_obtain bs endpoint _
  refine ⟨by simp only [acquire, hcell], fun j => ?_⟩
  simp only [acquire, hcell]
  rw [cell_modify]
  by_cases hj : j = (bs.obtain endpoint).1
  · subst hj
    by_cases hlt : (bs.obtain endpoint).1 < (bs.obtain endpoint).2.cells.length
    · simp [hlt]
    · have hnew : bs.cell (bs.obtain endpoint).1 = {} := by
        rw [← cell_obtain bs endpoint, cell, List.getElem?_eq_none (Nat.le_of_not_lt hlt)]; rfl
      simp [hlt, cell_obtain, hnew, Breaker.acquire]
  · simp [hj, cell_obtain]

/-- A refusal changes nothing. It does not even make a breaker, since a new one would grant. -/
theorem acquire_refused {config : BreakerConfig} {now : Nat} {endpoint : String} {bs : Breakers}
    (h : (bs.acquire config now endpoint).1 = none) : (bs.acquire config now endpoint).2 = bs := by
  have hnone : ((bs.cell (bs.obtain endpoint).1).acquire config now).1 = none := by
    simpa [acquire_spec] using h
  have hsame : ((bs.cell (bs.obtain endpoint).1).acquire config now).2 =
      bs.cell (bs.obtain endpoint).1 := by
    rcases Breaker.acquire_cases config now (bs.cell (bs.obtain endpoint).1) with
      ⟨_, he⟩ | ⟨_, he⟩ | ⟨_, he⟩
    · rw [he] at hnone; cases hnone
    · rw [he] at hnone; cases hnone
    · rw [he]
  have hfound : ∃ id b, bs.find? endpoint = some id ∧ bs.cells[id]? = some b := by
    cases hf : bs.find? endpoint with
    | none =>
      have hnew : bs.cell (bs.obtain endpoint).1 = {} := by
        simp [obtain, hf, cell]
      rw [hnew] at hnone; cases hnone
    | some id =>
      cases hb : bs.cells[id]? with
      | some b => exact ⟨id, b, rfl, hb⟩
      | none =>
        have hnew : bs.cell (bs.obtain endpoint).1 = {} := by simp [obtain, hf, cell, hb]
        rw [hnew] at hnone; cases hnone
  obtain ⟨id, b, hid, hb⟩ := hfound
  have hobtain : bs.obtain endpoint = (id, bs) := by rw [obtain, hid]
  rw [hobtain, cell, hb] at hsame
  simp only [Option.getD_some] at hsame
  have hlist : bs.cells.modify id (fun _ => b) = bs.cells := by
    obtain ⟨hlt, hget⟩ := List.getElem?_eq_some_iff.mp hb
    refine List.ext_getElem? fun j => ?_
    rw [List.getElem?_modify]
    by_cases hj : id = j
    · subst hj; simp [hb]
    · simp [hj]
  simp only [acquire, hobtain, hb, Option.getD_some, hsame, modify, hlist]

/-- A permit comes from the breaker of its endpoint. -/
theorem acquire_granted {config : BreakerConfig} {now : Nat} {endpoint : String} {bs bs' : Breakers}
    {id : Nat} {permit : Permit} (h : bs.acquire config now endpoint = (some (id, permit), bs')) :
    ((bs.cell id).acquire config now).1 = some permit ∧
    ∀ j, bs'.cell j = if j = id then ((bs.cell id).acquire config now).2 else bs.cell j := by
  obtain ⟨hfst, hcell⟩ := acquire_spec config now endpoint bs
  rw [h] at hfst hcell
  obtain ⟨q, hq, he⟩ := Option.map_eq_some_iff.mp hfst.symm
  simp only [Prod.mk.injEq] at he
  obtain ⟨hid, rfl⟩ := he
  rw [hid] at hq hcell
  exact ⟨hq, hcell⟩

end Breakers

end SlurmLink
