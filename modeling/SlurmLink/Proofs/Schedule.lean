import SlurmLink.Schedule

/-!
Laws of the scheduler, whatever the activities are. One step either lets the first activity that can
go on do so or, if there is none, moves the clock (`next_cases`); and a run of `m + n` steps is a run of
`m` steps and then one of `n` (`run_add`), so that what one step keeps, every run keeps. If each step
lowers a rank, every run comes to rest (`Winds.exists_rest`): between two steps the clock moves no more
often than there are cancellations ahead, plus once.
-/

namespace SlurmLink

/-- Moving the clock to a planned cancellation leaves fewer of them ahead. -/
theorem Link.agenda_arrive_lt {l : Link} {t : Nat} (h : l.nextCancellation = some t) :
    (l.arrive t).agenda.length < l.agenda.length := by
  obtain ⟨c, hc, rfl⟩ := List.mem_map.mp (List.min?_mem h)
  refine List.length_filter_lt_length_iff_exists.mpr ⟨c, hc, ?_⟩
  simp only [decide_eq_true_eq]
  omega

namespace Machine

variable {σ τ : Type} (m : Machine σ τ)

/-- The activity that goes on is the first one that can; nothing else changes but the state. -/
theorem stepFirst_eq_some : ∀ {ts : List τ} {s : σ} {r : List τ × σ}, m.stepFirst ts s = some r →
    ∃ i t t', ts[i]? = some t ∧ m.step t s = some (t', r.2) ∧ r.1 = ts.set i t' ∧
      ∀ j u, j < i → ts[j]? = some u → m.step u s = none
  | [], _, _, h => by simp [stepFirst] at h
  | t :: ts, s, r, h => by
    rw [stepFirst] at h
    cases ht : m.step t s with
    | some x =>
      rw [ht] at h; cases h
      exact ⟨0, t, x.1, rfl, ht, rfl, fun j _ hj => absurd hj (Nat.not_lt_zero j)⟩
    | none =>
      rw [ht] at h
      obtain ⟨q, hq, rfl⟩ := Option.map_eq_some_iff.mp h
      obtain ⟨i, u, u', hi, hstep, hset, hfirst⟩ := stepFirst_eq_some hq
      refine ⟨i + 1, u, u', hi, hstep, by rw [hset, List.set_cons_succ], ?_⟩
      rintro (_ | j) v hj hv
      · cases hv; exact ht
      · exact hfirst j v (by omega) hv

theorem stepFirst_eq_none (s : σ) : ∀ ts : List τ,
    m.stepFirst ts s = none ↔ ∀ t ∈ ts, m.step t s = none
  | [] => by simp [stepFirst]
  | t :: ts => by
    cases ht : m.step t s with
    | some x => simp [stepFirst, ht]
    | none => simp [stepFirst, ht, stepFirst_eq_none s ts]

variable [HasLink σ]

/-- One step, or none if the machine has come to rest. -/
def tick (x : List τ × σ) : List τ × σ := (m.next x.1 x.2).getD x

theorem tick_of_next {x y : List τ × σ} (h : m.next x.1 x.2 = some y) : m.tick x = y := by
  rw [tick, h]; rfl

theorem tick_of_rest {x : List τ × σ} (h : m.next x.1 x.2 = none) : m.tick x = x := by
  rw [tick, h]; rfl

theorem run_of_next_eq_none {ts : List τ} {s : σ} (h : m.next ts s = none) : ∀ n, m.run n ts s = (ts, s)
  | 0 => rfl
  | n + 1 => by rw [run, h]

/-- A run begins with a step and goes on from there. -/
theorem run_succ' (n : Nat) (ts : List τ) (s : σ) :
    m.run (n + 1) ts s = m.run n (m.tick (ts, s)).1 (m.tick (ts, s)).2 := by
  rw [run]
  cases h : m.next ts s with
  | some y => rw [m.tick_of_next (x := (ts, s)) h]
  | none => rw [m.tick_of_rest (x := (ts, s)) h, m.run_of_next_eq_none h]

theorem run_add (n k : Nat) (ts : List τ) (s : σ) :
    m.run (n + k) ts s = m.run k (m.run n ts s).1 (m.run n ts s).2 := by
  induction n generalizing ts s with
  | zero => rw [Nat.zero_add]; rfl
  | succ n ih => rw [Nat.add_right_comm, run_succ', run_succ', ih]

/-- A run of one step more ends with that step. -/
theorem run_succ (n : Nat) (ts : List τ) (s : σ) :
    m.run (n + 1) ts s = m.tick (m.run n ts s) := by
  rw [run_add, run_succ']; rfl

/-- Everything that a step can be: one of an activity, while the clock stands still, or a move of the
    clock to where the first activity wakes or the first cancellation is planned. -/
theorem next_cases {ts : List τ} {s : σ} {r : List τ × σ} (h : m.next ts s = some r) :
    (∃ i t t', ts[i]? = some t ∧ m.step t s = some (t', r.2) ∧ r.1 = ts.set i t' ∧
      ∀ j u, j < i → ts[j]? = some u → m.step u s = none) ∨
    ((∀ t ∈ ts, m.step t s = none) ∧ ∃ wake time, m.nextWake ts s = some wake ∧
      r = (ts, HasLink.onLink (·.arrive time) s) ∧ time ≤ wake ∧
      (∀ u, (HasLink.link s).nextCancellation = some u → time ≤ u) ∧
      (time = wake ∨ (HasLink.link s).nextCancellation = some time)) := by
  rw [next] at h
  cases hf : m.stepFirst ts s with
  | some x =>
    rw [hf] at h; cases h
    exact Or.inl (m.stepFirst_eq_some hf)
  | none =>
    rw [hf] at h
    obtain ⟨wake, hw, rfl⟩ := Option.map_eq_some_iff.mp h
    refine Or.inr ⟨(m.stepFirst_eq_none s ts).mp hf, wake, _, hw, rfl, ?_⟩
    cases hc : (HasLink.link s).nextCancellation with
    | none => exact ⟨Nat.le_refl _, fun u hu => (by cases hu), Or.inl rfl⟩
    | some c =>
      refine ⟨Nat.min_le_left _ _, fun u hu => ?_, ?_⟩
      · cases hu; exact Nat.min_le_right _ _
      · simp only [Option.some.injEq]; omega

/-- The machine rests only when no activity can go on and none waits for an instant. -/
theorem next_eq_none {ts : List τ} {s : σ} :
    m.next ts s = none ↔ (∀ t ∈ ts, m.step t s = none) ∧ ∀ t ∈ ts, m.wake t s = none := by
  rw [next]
  cases hf : m.stepFirst ts s with
  | some x =>
    refine ⟨fun h => by simp at h, fun ⟨h, _⟩ => ?_⟩
    rw [(m.stepFirst_eq_none s ts).mpr h] at hf; cases hf
  | none =>
    have := (m.stepFirst_eq_none s ts).mp hf
    simp only [Option.map_eq_none_iff, nextWake, List.min?_eq_none_iff, List.filterMap_eq_nil_iff]
    exact ⟨fun h => ⟨this, h⟩, fun h => h.2⟩

/-! ### An activity alone -/

variable {m} {t t' : τ} {s s' : σ}

theorem next_alone (hstep : m.step t s = none) (hwake : m.wake t s = none) : m.next [t] s = none := by
  refine m.next_eq_none.mpr ⟨fun u hu => ?_, fun u hu => ?_⟩
  · rw [List.mem_singleton.mp hu]
    exact hstep
  · rw [List.mem_singleton.mp hu]
    exact hwake

theorem run_alone (hstep : m.step t s = some (t', s')) (k : Nat) :
    m.run (k + 1) [t] s = m.run k [t'] s' := by
  have hnext : m.next [t] s = some ([t'], s') := by simp only [next, stepFirst, hstep]
  rw [run, hnext]

/-- It stays alone. -/
theorem eq_of_next_alone {r : List τ × σ} (h : m.next [t] s = some r) : ∃ t', r.1 = [t'] := by
  rcases m.next_cases h with ⟨i, u, u', hi, -, hset, -⟩ | ⟨-, _, _, -, hr, -⟩
  · cases i with
    | zero => exact ⟨u', hset⟩
    | succ i => cases hi
  · exact ⟨t, by rw [hr]⟩

theorem run_eq_runOne (n : Nat) (t : τ) (s : σ) :
    m.run n [t] s = ([(m.runOne n t s).1], (m.runOne n t s).2) := by
  have hone : ∀ n t s, ∃ t', (m.run n [t] s).1 = [t'] := by
    intro n
    induction n with
    | zero => exact fun t s => ⟨t, rfl⟩
    | succ n ih =>
      intro t s
      rw [run]
      cases hn : m.next [t] s with
      | none => exact ⟨t, rfl⟩
      | some r =>
        obtain ⟨t', ht'⟩ := eq_of_next_alone hn
        obtain ⟨ts, s'⟩ := r
        subst ht'
        exact ih t' s'
  obtain ⟨t', ht'⟩ := hone n t s
  cases hr : m.run n [t] s with
  | mk ts s' =>
    rw [hr] at ht'
    subst ht'
    simp only [runOne, hr]

/-- What every step of an activity alone and every move of the clock keeps, its runs keep. -/
theorem runOne_keeps {P : τ → σ → Prop}
    (hstep : ∀ t t' s s', P t s → m.step t s = some (t', s') → P t' s')
    (hclock : ∀ t s time, P t s → P t (HasLink.onLink (·.arrive time) s)) :
    ∀ (n : Nat) (t : τ) (s : σ), P t s → P (m.runOne n t s).1 (m.runOne n t s).2
  | 0, _, _, h => h
  | n + 1, t, s, h => by
    have hrun := m.run_eq_runOne (n + 1) t s
    rw [run] at hrun
    cases hn : m.next [t] s with
    | none =>
      rw [hn] at hrun
      simp only [Prod.mk.injEq, List.cons.injEq, and_true] at hrun
      rw [← hrun.1, ← hrun.2]
      exact h
    | some r =>
      obtain ⟨ts, s'⟩ := r
      obtain ⟨t', rfl⟩ : ∃ t', ts = [t'] := eq_of_next_alone hn
      have hkept : P t' s' := by
        rcases m.next_cases hn with ⟨i, u, u', hi, hu, hset, -⟩ | ⟨-, _, time, -, hr, -⟩
        · cases i with
          | zero => cases hi; cases hset; exact hstep t t' s s' h hu
          | succ i => cases hi
        · cases hr
          exact hclock t s time h
      rw [hn] at hrun
      simp only [m.run_eq_runOne n t' s', Prod.mk.injEq, List.cons.injEq, and_true] at hrun
      rw [← hrun.1, ← hrun.2]
      exact runOne_keeps hstep hclock n t' s' hkept

/-! ### Coming to rest -/

/-- A machine whose steps lower the rank of the activity that makes them, and whose activities go on at
    the latest when the instant has come up to which they wait. -/
structure Winds (m : Machine σ τ) (rank : τ → Nat) : Prop where
  link_onLink : ∀ f (s : σ), HasLink.link (HasLink.onLink f s) = f (HasLink.link s)
  rank_lt : ∀ {t t' s s'}, m.step t s = some (t', s') → rank t' < rank t
  step_ne_none : ∀ {t s s' wake}, m.wake t s = some wake → wake ≤ (HasLink.link s').now →
    m.step t s' ≠ none

/-- The ranks of all activities together. -/
def total (rank : τ → Nat) : List τ → Nat
  | [] => 0
  | t :: ts => rank t + total rank ts

variable {rank : τ → Nat}

theorem total_set_lt {t t' : τ} (hlt : rank t' < rank t) : ∀ {ts : List τ} {i : Nat},
    ts[i]? = some t → total rank (ts.set i t') < total rank ts
  | [], _, h => by cases h
  | _ :: _, 0, h => by
    cases h
    simp only [List.set_cons_zero, total]
    omega
  | _ :: _, i + 1, h => by
    have ih := total_set_lt hlt (i := i) h
    simp only [List.set_cons_succ, total]
    omega

/-- A step of the schedule with which an activity can go on is a step of an activity. -/
theorem Winds.total_tick_lt (h : m.Winds rank) {ts : List τ} {s : σ} {t : τ} (ht : t ∈ ts)
    (hgo : m.step t s ≠ none) : total rank (m.tick (ts, s)).1 < total rank ts := by
  cases hn : m.next ts s with
  | none => exact absurd ((m.next_eq_none.mp hn).1 t ht) hgo
  | some r =>
    rw [m.tick_of_next (x := (ts, s)) hn]
    rcases m.next_cases hn with ⟨i, u, u', hi, hstep, hset, -⟩ | ⟨hwait, -⟩
    · rw [hset]
      exact total_set_lt (h.rank_lt hstep) hi
    · exact absurd (hwait t ht) hgo

/-- As long as it is not at rest, it makes a step before long. The induction is on the cancellations
    ahead, since the clock may have to stop at each of them first. -/
theorem Winds.exists_total_run_lt (h : m.Winds rank) (ts : List τ) (s : σ) (hn : m.next ts s ≠ none) :
    ∃ n, m.next (m.run n ts s).1 (m.run n ts s).2 = none ∨
      total rank (m.run n ts s).1 < total rank ts := by
  induction hlen : (HasLink.link s).agenda.length using Nat.strongRecOn generalizing s with
  | _ len ih =>
    obtain ⟨r, hr⟩ := Option.ne_none_iff_exists'.mp hn
    have htick := m.tick_of_next (x := (ts, s)) hr
    rcases m.next_cases hr with ⟨i, t, t', hi, hstep, -⟩ | ⟨-, wake, time, hw, hmove, -, -, hwhy⟩
    · refine ⟨1, Or.inr ?_⟩
      rw [run_succ, run]
      exact h.total_tick_lt (List.mem_of_getElem? hi) (by rw [hstep]; nofun)
    · rw [hmove] at htick
      rcases hwhy with rfl | hcancel
      · obtain ⟨t, ht, htw⟩ := List.mem_filterMap.mp (List.min?_mem hw)
        have hgo : m.step t (HasLink.onLink (·.arrive time) s) ≠ none :=
          h.step_ne_none htw (by rw [h.link_onLink]; exact Nat.le_max_right ..)
        refine ⟨2, Or.inr ?_⟩
        rw [run_succ', htick, run_succ, run]
        exact h.total_tick_lt ht hgo
      · by_cases hrest : m.next ts (HasLink.onLink (·.arrive time) s) = none
        · refine ⟨1, Or.inl ?_⟩
          rw [run_succ, run, htick]
          exact hrest
        · have hfewer : (HasLink.link (HasLink.onLink (·.arrive time) s)).agenda.length < len := by
            rw [h.link_onLink, ← hlen]
            exact Link.agenda_arrive_lt hcancel
          obtain ⟨n, hn⟩ := ih _ hfewer _ hrest rfl
          refine ⟨n + 1, ?_⟩
          rw [run_succ', htick]
          exact hn

/-- Every run comes to rest. -/
theorem Winds.exists_rest (h : m.Winds rank) (ts : List τ) (s : σ) :
    ∃ n, m.next (m.run n ts s).1 (m.run n ts s).2 = none := by
  induction hsum : total rank ts using Nat.strongRecOn generalizing ts s with
  | _ sum ih =>
    by_cases hn : m.next ts s = none
    · exact ⟨0, hn⟩
    · obtain ⟨n, hrest | hlt⟩ := h.exists_total_run_lt ts s hn
      · exact ⟨n, hrest⟩
      · obtain ⟨k, hk⟩ := ih _ (hsum ▸ hlt) _ _ rfl
        refine ⟨n + k, ?_⟩
        rw [run_add]
        exact hk

end Machine

end SlurmLink
