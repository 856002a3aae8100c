import SlurmLink.Proofs.BreakerHistory

/-!
Permits that were granted before the breaker opened. While the breaker is open or half open their
outcomes change nothing, and it stays so for a breaker that opens and opens again. Once a trial has
closed it they count like the outcomes of any other normal permit, since a permit carries no trace of
the time when it was granted:

    granted      opens          tries     closes        told
    ───┴───────────┴──────────────┴─────────┴─────────────┴───▶
    normal         │   nothing changes      │  counts, or starts over

`stale_outcome_exact` says when such an outcome changes the breaker, and how; `stale_failure_counts` is
a run in which it opens a breaker that has recovered.
-/

namespace SlurmLink

namespace Incident

variable {config : BreakerConfig} {x : Incident}

/-- A breaker that is not closed closes just with the success of a trial. -/
theorem Happens.closes_iff_of_ne (h : x.Happens config) (hs : x.before.state ≠ .closed) :
    x.after.state = .closed ↔ x.deed.news? = some (.trial, .success) := by
  cases hb : x.before.state with
  | closed => exact absurd hb hs
  | halfOpen => exact (h.closes_iff hb).1
  | opened =>
    have hsilent : x.deed.news? ≠ some (.trial, .success) := by
      intro hn
      cases h with
      | closes _ hs' => rw [hb] at hs'; cases hs'
      | admits hd => rw [Deed.news?_eq_none_of_answer? hd] at hn; cases hn
      | tries hd => rw [Deed.news?_eq_none_of_answer? hd] at hn; cases hn
      | refuses hd => rw [Deed.news?_eq_none_of_answer? hd] at hn; cases hn
      | ignores hd => rw [hd] at hn; cases hn
      | forgives hd => rw [hd] at hn; cases hn
      | counts hd => rw [hd] at hn; cases hn
      | trips hd => rw [hd] at hn; cases hn
      | reopens hd => rw [hd] at hn; cases hn
      | frees hd => rw [hd] at hn; cases hn
    rcases h.of_opened hb with ⟨he, -⟩ | ⟨-, -, he⟩
    · simp [he, hb, hsilent]
    · simp [he, hsilent]

/-- What a normal permit does that comes back while the breaker is closed. -/
theorem Happens.of_normal_of_closed (h : x.Happens config) {outcome : Outcome}
    (hd : x.deed.news? = some (.normal, outcome)) (hs : x.before.state = .closed) :
    (outcome = .abandoned ∧ x.after = x.before) ∨
    (outcome = .success ∧ x.after = { x.before with failures := 0 }) ∨
    (outcome = .failure ∧ x.after.failures = x.before.failures + 1 ∧
      (x.Opens ↔ x.before.failures + 1 = config.failureThreshold)) := by
  rcases h.of_closed hs with ⟨he, habandoned⟩ | ⟨hn, he⟩ | ⟨hn, hlt, he⟩ | ⟨hn, heq, he⟩
  · exact Or.inl ⟨habandoned outcome hd, he⟩
  · rw [hd] at hn
    cases hn
    exact Or.inr (Or.inl ⟨rfl, he⟩)
  · rw [hd] at hn
    cases hn
    refine Or.inr (Or.inr ⟨rfl, by rw [he], fun ho => ?_, fun heq => by omega⟩)
    have := ho.2
    rw [he, hs] at this
    cases this
  · rw [hd] at hn
    cases hn
    exact Or.inr (Or.inr ⟨rfl, by rw [he], fun _ => heq, fun _ => ⟨by simp [hs], by rw [he]⟩⟩)

end Incident

namespace Chronicle

variable {config : BreakerConfig}

/-- As long as it does not open, a closed breaker stays closed. -/
theorem stays_closed {time : Nat} {b' : Breaker} : ∀ {h : List Incident} {now : Nat} {b : Breaker},
    Chronicle config now b h time b' → b.state = .closed → (∀ x ∈ h, ¬ x.Opens) →
      b'.state = .closed
  | [], _, _, ⟨_, he⟩, hs, _ => he ▸ hs
  | x :: h, _, _, ⟨_, rfl, hx, hrest⟩, hs, hquiet => by
    have hafter : x.after.state = .closed := by
      by_contra hleft
      exact hquiet x List.mem_cons_self (hx.opens_of_leaves_closed hs hleft)
    exact hrest.stays_closed hafter fun y hy => hquiet y (List.mem_cons_of_mem _ hy)

/-- As long as it does not open again, a breaker that was not closed is closed just if a trial has
    succeeded since. -/
theorem closed_iff {time : Nat} {b' : Breaker} : ∀ {h : List Incident} {now : Nat} {b : Breaker},
    Chronicle config now b h time b' → b.state ≠ .closed → (∀ x ∈ h, ¬ x.Opens) →
      (b'.state = .closed ↔ ∃ x ∈ h, x.deed.news? = some (.trial, .success))
  | [], _, _, ⟨_, he⟩, hs, _ => by simp [he, hs]
  | x :: h, _, _, ⟨_, rfl, hx, hrest⟩, hs, hquiet => by
    have hcloses := hx.closes_iff_of_ne hs
    have hquiet' : ∀ y ∈ h, ¬ y.Opens := fun y hy => hquiet y (List.mem_cons_of_mem _ hy)
    by_cases hafter : x.after.state = .closed
    · have hsuccess := hcloses.mp hafter
      exact ⟨fun _ => ⟨x, List.mem_cons_self, hsuccess⟩, fun _ => hrest.stays_closed hafter hquiet'⟩
    · have hsilent : x.deed.news? ≠ some (.trial, .success) := fun hn => hafter (hcloses.mpr hn)
      rw [hrest.closed_iff hafter hquiet']
      simp [hsilent]

end Chronicle

namespace Turnstile

/-- What the outcome of a normal permit does that was granted before the breaker opened last. The
    breaker is closed again just if a trial has succeeded since. Unless it is, the outcome changes
    nothing. If it is, a success starts the count of failures over, and a failure adds to it and opens
    the breaker at the threshold: that the permit is from before does not matter then. -/
theorem stale_outcome_exact (config : BreakerConfig) (hthr : 1 ≤ config.failureThreshold)
    (hmax : config.failureThreshold ≤ Breaker.maxFailures) (moves : List TurnstileMove)
    (earlier since later : List Incident) (o x : Incident)
    (hsplit : history config moves = earlier ++ o :: (since ++ x :: later)) (ho : o.Opens)
    (hlast : ∀ y ∈ since, ¬ y.Opens) :
    ∀ ticket outcome, (∃ g ∈ earlier, g.deed = .granted ticket .normal) →
      x.deed = .told ticket .normal outcome →
      (x.before.state = .closed ↔ ∃ y ∈ since, y.deed.news? = some (.trial, .success)) ∧
      (x.after = x.before ↔
        (∀ y ∈ since, y.deed.news? ≠ some (.trial, .success)) ∨ outcome = .abandoned ∨
          outcome = .success ∧ x.before.failures = 0) ∧
      ((∃ y ∈ since, y.deed.news? = some (.trial, .success)) →
        (outcome = .success → x.after = { x.before with failures := 0 }) ∧
        (outcome = .failure → x.after.failures = x.before.failures + 1 ∧
          (x.Opens ↔ x.before.failures + 1 = config.failureThreshold))) := by
  intro ticket outcome _ htold
  have hc := chronicle_history hthr hmax moves
  rw [hsplit] at hc
  obtain ⟨hsince, hx, -⟩ := hc.cut.2.2.cut
  have hclosed := hsince.closed_iff (by simp [ho.2]) hlast
  have hd : x.deed.news? = some (.normal, outcome) := by rw [htold]; rfl
  by_cases hs : x.before.state = .closed
  · obtain ⟨y, hy, hsuccess⟩ := hclosed.mp hs
    have hrecovered : ¬ ∀ y ∈ since, y.deed.news? ≠ some (.trial, .success) :=
      fun hnone => hnone y hy hsuccess
    rcases hx.of_normal_of_closed hd hs with ⟨rfl, he⟩ | ⟨rfl, he⟩ | ⟨rfl, hfailures, hopens⟩
    · exact ⟨hclosed, by simp [he], fun _ => ⟨nofun, nofun⟩⟩
    · have hsame : x.after = x.before ↔ x.before.failures = 0 := by
        rw [he]
        exact ⟨fun h => (congrArg Breaker.failures h).symm, fun h => by rw [← h]⟩
      exact ⟨hclosed, by simp [hsame, hrecovered], fun _ => ⟨fun _ => he, nofun⟩⟩
    · have hchanged : x.after ≠ x.before := fun h => by
        rw [h] at hfailures
        omega
      exact ⟨hclosed, by simp [hchanged, hrecovered],
        fun _ => ⟨nofun, fun _ => ⟨hfailures, hopens⟩⟩⟩
  · have hnone : ∀ y ∈ since, y.deed.news? ≠ some (.trial, .success) := fun y hy hn =>
      hs (hclosed.mpr ⟨y, hy, hn⟩)
    have hsame : x.after = x.before := hx.after_eq_of_normal hd hs
    exact ⟨hclosed, ⟨fun _ => Or.inl hnone, fun _ => hsame⟩,
      fun hrecovered => absurd (hclosed.mpr hrecovered) hs⟩

/-- Opens at the first failure, for a second. -/
def hastyConfig : BreakerConfig := { failureThreshold := 1, openTimeout := .ofSeconds 1 }

/-- Two calls are admitted. The second one fails, and a second later a trial succeeds; then the first
    one fails as well. -/
def slowMoves : List TurnstileMove :=
  [.ask, .ask, .settle 1 .failure, .pass 1000, .ask, .settle 2 .success, .settle 0 .failure]

/-- The breaker has recovered, so that the failure from before counts. -/
theorem stale_outcome_exact_slow :
    1 ≤ hastyConfig.failureThreshold ∧ hastyConfig.failureThreshold ≤ Breaker.maxFailures ∧
    ∃ earlier o since x, history hastyConfig slowMoves = earlier ++ o :: (since ++ [x]) ∧ o.Opens ∧
      (∀ y ∈ since, ¬ y.Opens) ∧ (∃ g ∈ earlier, g.deed = .granted 0 .normal) ∧
      x.deed = .told 0 .normal .failure ∧ x.after.failures = x.before.failures + 1 := by
  have hthr : 1 ≤ hastyConfig.failureThreshold := by decide
  have hmax : hastyConfig.failureThreshold ≤ Breaker.maxFailures := by decide
  let o : Incident := ⟨0, .told 1 .normal .failure, {}, ⟨.opened, 1, some 0, false⟩⟩
  let x : Incident := ⟨1000, .told 0 .normal .failure, {}, ⟨.opened, 1, some 1000, false⟩⟩
  have hsplit : history hastyConfig slowMoves = (history hastyConfig slowMoves).take 2 ++
      o :: (((history hastyConfig slowMoves).drop 3).take 2 ++ [x]) := by decide
  have ho : o.Opens := by decide
  have hlast : ∀ y ∈ ((history hastyConfig slowMoves).drop 3).take 2, ¬ y.Opens := by decide
  have hgranted : ∃ g ∈ (history hastyConfig slowMoves).take 2, g.deed = .granted 0 .normal := by
    decide
  have hrecovered : ∃ y ∈ ((history hastyConfig slowMoves).drop 3).take 2,
      y.deed.news? = some (.trial, .success) := by decide
  have hexact := stale_outcome_exact hastyConfig hthr hmax slowMoves _ _ [] o x hsplit ho hlast 0
    .failure hgranted rfl
  exact ⟨hthr, hmax, _, o, _, x, hsplit, ho, hlast, hgranted, rfl,
    ((hexact.2.2 hrecovered).2 rfl).1⟩

/-- A call that was admitted before the breaker opened fails after it has closed again. That opens the
    breaker, although it has recovered since and no other call has failed. -/
theorem stale_failure_counts :
    ∃ earlier o since x, history hastyConfig slowMoves = earlier ++ o :: (since ++ [x]) ∧ o.Opens ∧
      (∀ y ∈ since, ¬ y.Opens) ∧ (∃ g ∈ earlier, g.deed = .granted 0 .normal) ∧
      x.deed = .told 0 .normal .failure ∧ x.before = ({} : Breaker) ∧
      x.after = ⟨.opened, 1, some 1000, false⟩ ∧ x.after ≠ x.before :=
  ⟨(history hastyConfig slowMoves).take 2, ⟨0, .told 1 .normal .failure, {}, ⟨.opened, 1, some 0, false⟩⟩,
    ((history hastyConfig slowMoves).drop 3).take 2,
    ⟨1000, .told 0 .normal .failure, {}, ⟨.opened, 1, some 1000, false⟩⟩,
    by decide, by decide, by decide, by decide, rfl, rfl, rfl, by decide⟩

end Turnstile

end SlurmLink
