import SlurmLink.Proofs.Context

/-!
`check` and `done` of a context, side by side. `check` looks at the present instant, and `done` tells when and
why the context will be done; what `check` is going to say is told by letting the clock arrive at an instant:

    now        u         t
     │         │         │
     check     none      reason      reported
     └───────done───────▶(t, reason)

`done` gives the first instant at which `check` reports a reason, and this reason, and it gives nothing just
if `check` never will (`done_eq_some_iff`, `done_eq_none_iff`). So whatever leaves the reports of `check` as
they are leaves `done` as it is.
-/

namespace SlurmLink.Link

variable {l l' : Link} {c : Context} {id t u : Nat} {reason : CancelReason}

/-! ### Reports to come -/

/-- What `check` reports at an instant to come, once what is due by then has been cancelled. -/
def reported (l : Link) (c : Context) (t : Nat) : Option CancelReason :=
  c.check (l.arrive t).tokens (l.arrive t).now

/-- A token has been cancelled, or will have been at an instant. -/
def Reached (l : Link) (id t : Nat) : Prop :=
  l.tokens.isCancelled id = true ∨ ∃ x ∈ l.agenda, x.time ≤ max l.now t ∧ l.tokens.Above x.token id

theorem reached_iff : l.Reached id t ↔ (l.arrive t).tokens.isCancelled id = true :=
  (isCancelled_arrive l t id).symm

theorem reported_of_reached (h : l.Reached c.token t) : l.reported c t = some .cancelled := by
  rw [reported, Context.check, if_pos (reached_iff.mp h)]

theorem reported_eq_none_iff :
    l.reported c t = none ↔ ¬ l.Reached c.token t ∧ ∀ d, c.deadline = some d → max l.now t < d := by
  rw [reported, check_eq_none_iff, reached_iff, Bool.not_eq_true]
  exact Iff.rfl

theorem reported_of_deadline {d : Nat} (h : ¬ l.Reached c.token t) (hd : c.deadline = some d)
    (ht : d ≤ max l.now t) : l.reported c t = some .deadlineExceeded := by
  rw [reached_iff] at h
  have hnow : (l.arrive t).now = max l.now t := rfl
  rw [reported, Context.check, if_neg h, hd, hnow]
  exact if_pos ht

theorem reported_congr (hnow : l'.now = l.now) (h : l'.Reached c.token t ↔ l.Reached c.token t) :
    l'.reported c t = l.reported c t := by
  rw [reached_iff, reached_iff, ← Bool.eq_iff_iff] at h
  have harrive : (l'.arrive t).now = (l.arrive t).now := congrArg (max · t) hnow
  rw [reported, Context.check, h, harrive]
  rfl

/-- A context that is cancelled and past its deadline counts as cancelled. -/
theorem reported_eq_cancelled_iff : l.reported c t = some .cancelled ↔ l.Reached c.token t := by
  refine ⟨fun h => ?_, reported_of_reached⟩
  rw [reached_iff]
  exact (reason_eq_cancelled_iff h).mp rfl

/-- Where nothing is due, the present is as it will be reported. -/
theorem reported_now (h : ∀ x ∈ l.agenda, l.now < x.time) :
    l.reported c l.now = c.check l.tokens l.now := by
  have hdue : l.agenda.filter (fun x => x.time ≤ l.now) = [] :=
    List.filter_eq_nil_iff.mpr fun x hx => by simpa using h x hx
  simp [reported, arrive, hdue]

/-! ### The first report -/

/-- The first instant, from now on, at which `check` reports anything. -/
structure First (l : Link) (c : Context) (t : Nat) (reason : CancelReason) : Prop where
  now_le : l.now ≤ t
  reported : l.reported c t = some reason
  before : ∀ u, l.now ≤ u → u < t → l.reported c u = none

theorem First.unique {t' : Nat} {reason' : CancelReason} (h : l.First c t reason)
    (h' : l.First c t' reason') : t' = t ∧ reason' = reason := by
  have hle : ¬ t < t' := fun hlt => by
    have hnone := h'.before t h.now_le hlt
    rw [h.reported] at hnone
    cases hnone
  have hge : ¬ t' < t := fun hlt => by
    have hnone := h.before t' h'.now_le hlt
    rw [h'.reported] at hnone
    cases hnone
  obtain rfl : t' = t := by omega
  exact ⟨rfl, Option.some.inj (h'.reported.symm.trans h.reported)⟩

/-- A token that has not been cancelled is reached at the first instant of its cancellation, and not before. -/
theorem reached_iff_of_cancelledAt (hfree : l.tokens.isCancelled id = false)
    (h : l.cancelledAt id = some t) : l.now ≤ t ∧ ∀ u, l.now ≤ u → (l.Reached id u ↔ t ≤ u) := by
  obtain ⟨hwhen, hfirst⟩ := cancelledAt_spec hfree
  obtain ⟨x, hx, habove, hmax⟩ := hwhen t h
  refine ⟨by omega, fun u hu => ⟨?_, fun htu => ?_⟩⟩
  · rintro (hold | ⟨y, hy, htime, hy'⟩)
    · rw [hfree] at hold
      cases hold
    · obtain ⟨w, hw, hle⟩ := hfirst y hy hy'
      rw [h] at hw
      cases hw
      omega
  · exact Or.inr ⟨x, hx, by omega, habove⟩

theorem not_reached_of_cancelledAt_eq_none (hfree : l.tokens.isCancelled id = false)
    (h : l.cancelledAt id = none) (u : Nat) : ¬ l.Reached id u := by
  rintro (hold | ⟨x, hx, -, habove⟩)
  · rw [hfree] at hold
    cases hold
  · obtain ⟨w, hw, -⟩ := (cancelledAt_spec hfree).2 x hx habove
    rw [h] at hw
    cases hw

/-- The deadline comes while the token is not reached. -/
theorem first_deadline {d : Nat} (hd : c.deadline = some d)
    (h : ∀ u, l.now ≤ u → u ≤ max l.now d → ¬ l.Reached c.token u) :
    l.First c (max l.now d) .deadlineExceeded where
  now_le := Nat.le_max_left ..
  reported := reported_of_deadline (h _ (Nat.le_max_left ..) (Nat.le_refl _)) hd (by omega)
  before u hu hlt := reported_eq_none_iff.mpr
    ⟨h u hu (by omega), fun d' hd' => by cases hd.symm.trans hd'; omega⟩

/-- The token is reached when the deadline has not come yet, or just comes. -/
theorem first_cancelled (hnow : l.now ≤ t) (h : ∀ u, l.now ≤ u → (l.Reached c.token u ↔ t ≤ u))
    (hd : ∀ d, c.deadline = some d → t ≤ max l.now d) : l.First c t .cancelled where
  now_le := hnow
  reported := reported_of_reached ((h t hnow).mpr (Nat.le_refl t))
  before u hu hlt := by
    refine reported_eq_none_iff.mpr ⟨fun hr => ?_, fun d hd' => ?_⟩
    · have := (h u hu).mp hr
      omega
    · have := hd d hd'
      omega

/-- What `done` gives is the first report, and where it gives nothing, nothing will be reported. -/
theorem done_tells (l : Link) (c : Context) :
    (∀ t reason, l.done c = some (t, reason) → l.First c t reason) ∧
      (l.done c = none → ∀ t, l.reported c t = none) := by
  rw [done]
  split
  · next hold =>
    refine ⟨fun t reason h => ?_, fun h => by cases h⟩
    cases h
    exact ⟨Nat.le_refl _, reported_of_reached (Or.inl hold), fun u hu hlt => by omega⟩
  next hfree =>
  rw [Bool.not_eq_true] at hfree
  -- whether it is going to be cancelled, and whether it has a deadline
  cases hat : l.cancelledAt c.token with
  | none =>
    have hnever := not_reached_of_cancelledAt_eq_none hfree hat
    cases hd : c.deadline with
    | none =>
      refine ⟨fun t reason h => (by cases h), fun _ t => reported_eq_none_iff.mpr ⟨hnever t, fun d hd' => ?_⟩⟩
      cases hd.symm.trans hd'
    | some d =>
      refine ⟨fun t reason h => ?_, fun h => by cases h⟩
      cases h
      exact first_deadline hd fun u _ _ => hnever u
  | some a =>
    obtain ⟨hnow, hreach⟩ := reached_iff_of_cancelledAt hfree hat
    cases hd : c.deadline with
    | none =>
      refine ⟨fun t reason h => ?_, fun h => by cases h⟩
      cases h
      exact first_cancelled hnow hreach fun d hd' => by cases hd.symm.trans hd'
    | some d =>
      simp only [Option.map_some]
      split
      · next hle =>
        refine ⟨fun t reason h => ?_, fun h => by cases h⟩
        cases h
        exact first_cancelled hnow hreach fun d' hd' => by
          cases hd.symm.trans hd'
          exact hle
      · next hlate =>
        refine ⟨fun t reason h => ?_, fun h => by cases h⟩
        cases h
        exact first_deadline hd fun u hu hle hr => hlate (Nat.le_trans ((hreach u hu).mp hr) hle)

/-- `done` gives an instant and a reason just if `check` reports this reason at that instant and nothing
    before. -/
theorem done_eq_some_iff : l.done c = some (t, reason) ↔ l.First c t reason := by
  obtain ⟨hfirst, hnever⟩ := done_tells l c
  refine ⟨hfirst t reason, fun h => ?_⟩
  cases hdone : l.done c with
  | none =>
    have hnone := hnever hdone t
    rw [h.reported] at hnone
    cases hnone
  | some r =>
    obtain ⟨t', reason'⟩ := r
    obtain ⟨rfl, rfl⟩ := h.unique (hfirst t' reason' hdone)
    rfl

/-- `done` gives nothing just if `check` never reports anything. -/
theorem done_eq_none_iff : l.done c = none ↔ ∀ t, l.reported c t = none := by
  refine ⟨(done_tells l c).2, fun h => ?_⟩
  cases hdone : l.done c with
  | none => rfl
  | some r =>
    have hreported := (done_eq_some_iff.mp hdone).reported
    rw [h] at hreported
    cases hreported

theorem done_congr (hnow : l'.now = l.now) (h : ∀ t, l'.reported c t = l.reported c t) :
    l'.done c = l.done c := by
  cases hdone : l.done c with
  | none => exact done_eq_none_iff.mpr fun t => (h t).trans (done_eq_none_iff.mp hdone t)
  | some r =>
    obtain ⟨hle, hreported, hbefore⟩ := done_eq_some_iff.mp hdone
    exact done_eq_some_iff.mpr ⟨hnow ▸ hle, (h _).trans hreported,
      fun u hu hlt => (h u).trans (hbefore u (hnow ▸ hu) hlt)⟩

/-! ### One context and another -/

/-- A context that is cancelled with another one, and whose deadline is no later, is done no later. -/
theorem check_ne_none_of {b : Context} {ts : Tokens} {now : Nat}
    (htoken : ts.isCancelled c.token = true → ts.isCancelled b.token = true)
    (hdeadline : ∀ d, c.deadline = some d → ∃ e, b.deadline = some e ∧ e ≤ d)
    (h : c.check ts now ≠ none) : b.check ts now ≠ none := by
  intro hb
  obtain ⟨hfree, hahead⟩ := (check_eq_none_iff ..).mp hb
  refine h ((check_eq_none_iff ..).mpr ⟨Bool.eq_false_iff.mpr fun hc => ?_, fun d hd => ?_⟩)
  · rw [htoken hc] at hfree
    cases hfree
  · obtain ⟨e, he, hle⟩ := hdeadline d hd
    exact Nat.lt_of_lt_of_le (hahead e he) hle

theorem exists_done_le {b : Context} (h : ∀ t, l.reported c t ≠ none → l.reported b t ≠ none)
    (hdone : l.done c = some (t, reason)) : ∃ t' reason', l.done b = some (t', reason') ∧ t' ≤ t := by
  obtain ⟨hle, hreported, -⟩ := done_eq_some_iff.mp hdone
  have hb : l.reported b t ≠ none := h t (by simp [hreported])
  cases hother : l.done b with
  | none => exact absurd (done_eq_none_iff.mp hother t) hb
  | some r =>
    obtain ⟨t', reason'⟩ := r
    refine ⟨t', reason', rfl, Nat.le_of_not_lt fun hlt => hb ?_⟩
    exact (done_eq_some_iff.mp hother).before t hle hlt

/-! ### Cancelling -/

theorem reached_cancel_iff {a : Context} :
    (l.cancel a).Reached id t ↔ l.Reached id t ∨ l.tokens.Above a.token id := by
  simp only [Reached, cancel, Tokens.isCancelled_cancel, Tokens.above_cancel_iff]
  exact or_right_comm

/-- Cancelling a context makes no difference to one whose token is not below the other's. -/
theorem cancel_of_not_above {a : Context} (h : ¬ l.tokens.Above a.token c.token) :
    (∀ t, (l.cancel a).reported c t = l.reported c t) ∧ (l.cancel a).done c = l.done c ∧
      c.check (l.cancel a).tokens (l.cancel a).now = c.check l.tokens l.now := by
  have hreported : ∀ t, (l.cancel a).reported c t = l.reported c t := fun t =>
    reported_congr rfl (reached_cancel_iff.trans (or_iff_left h))
  have htoken : (l.cancel a).tokens.isCancelled c.token = l.tokens.isCancelled c.token := by
    rw [Bool.eq_iff_iff, cancel, Tokens.isCancelled_cancel]
    exact or_iff_left h
  refine ⟨hreported, done_congr rfl hreported, ?_⟩
  rw [Context.check, htoken]
  rfl

/-- Cancelling a context cancels those whose tokens are below its own, at once. -/
theorem cancel_of_above {a : Context} (h : l.tokens.Above a.token c.token) :
    c.check (l.cancel a).tokens (l.cancel a).now = some .cancelled ∧
      (l.cancel a).done c = some (l.now, .cancelled) := by
  have htoken : (l.cancel a).tokens.isCancelled c.token = true :=
    (Tokens.isCancelled_cancel ..).mpr (Or.inr h)
  rw [Context.check, done, htoken]
  exact ⟨rfl, rfl⟩

/-- A cancellation that is planned comes true as one at its instant. -/
theorem pass_cancelAfter (l : Link) (c : Context) (duration : Nat) :
    (l.cancelAfter c duration).pass duration = (l.pass duration).cancel c := by
  simp [pass, arrive, cancelAfter, cancel]

end SlurmLink.Link
