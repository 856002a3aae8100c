import SlurmLink.Link

/-!
When a context is done. A token counts as cancelled when one of the tokens above it has been
cancelled, so cancelling changes nothing for the tokens that are not below (`isCancelled_cancel`). What
`Link.done` foretells comes true as the clock moves: up to that instant the context is not done, and at
that instant it is, for the reason foretold (`check_arrive`).
-/

namespace SlurmLink

namespace Tokens

/-- The token `a` is the token `id` itself, or one that it is derived from. -/
inductive Above (ts : Tokens) (a : Nat) : Nat → Prop where
  | self {t : Token} (h : ts.cells[a]? = some t) : Above ts a a
  | derived {id parent : Nat} {t : Token} (h : ts.cells[id]? = some t) (hp : t.parent = some parent)
      (hlt : parent < id) (above : Above ts a parent) : Above ts a id

theorem Above.exists_cell {ts : Tokens} {a id : Nat} (h : ts.Above a id) :
    ∃ t, ts.cells[a]? = some t := by
  induction h with
  | self h => exact ⟨_, h⟩
  | derived _ _ _ _ ih => exact ih

/-- A token counts as cancelled iff one above it has been cancelled itself. -/
theorem isCancelled_iff (ts : Tokens) (id : Nat) :
    ts.isCancelled id = true ↔
      ∃ a t, ts.Above a id ∧ ts.cells[a]? = some t ∧ t.cancelled = true := by
  induction id using Nat.strongRecOn with
  | _ id ih =>
    rw [isCancelled]
    cases hid : ts.cells[id]? with
    | none =>
      refine ⟨fun h => by simp at h, ?_⟩
      rintro ⟨a, t, habove, -, -⟩
      cases habove with
      | self h => rw [hid] at h; cases h
      | derived h => rw [hid] at h; cases h
    | some t =>
      simp only [Bool.or_eq_true]
      constructor
      · rintro (hc | hp)
        · exact ⟨id, t, .self hid, hid, hc⟩
        · split at hp
          · next parent hpar =>
            split at hp
            · next hlt =>
              obtain ⟨a, u, habove, hu, hc⟩ := (ih parent hlt).mp hp
              exact ⟨a, u, .derived hid hpar hlt habove, hu, hc⟩
            · cases hp
          · cases hp
      · rintro ⟨a, u, habove, hu, hc⟩
        cases habove with
        | self h =>
          rw [hid] at hu; cases hu
          exact Or.inl hc
        | derived h hpar hlt habove =>
          rw [hid] at h; cases h
          refine Or.inr ?_
          rw [hpar]
          simpa [hlt] using (ih _ hlt).mpr ⟨a, u, habove, hu, hc⟩

theorem getElem?_cancel (ts : Tokens) (a id : Nat) :
    (ts.cancel a).cells[id]? =
      ts.cells[id]?.map fun t => if a = id then { t with cancelled := true } else t := by
  simp only [cancel, List.getElem?_modify]
  cases ts.cells[id]? with
  | none => rfl
  | some t => by_cases h : a = id <;> simp [h]

/-- Cancelling leaves it as it was which token is derived from which. -/
theorem above_cancel_iff (ts : Tokens) (b a id : Nat) :
    (ts.cancel b).Above a id ↔ ts.Above a id := by
  constructor
  · intro h
    induction h with
    | self h =>
      rw [getElem?_cancel] at h
      obtain ⟨t, ht, -⟩ := Option.map_eq_some_iff.mp h
      exact .self ht
    | derived h hp hlt _ ih =>
      rw [getElem?_cancel] at h
      obtain ⟨t, ht, rfl⟩ := Option.map_eq_some_iff.mp h
      refine .derived ht ?_ hlt ih
      split at hp <;> exact hp
  · intro h
    induction h with
    | self h => exact .self (by rw [getElem?_cancel, h]; rfl)
    | derived h hp hlt _ ih =>
      refine .derived (by rw [getElem?_cancel, h]; rfl) ?_ hlt ih
      split <;> exact hp

/-- After a token is cancelled, those below it count as cancelled, and no others do but for those that
    did before. -/
theorem isCancelled_cancel (ts : Tokens) (b id : Nat) :
    (ts.cancel b).isCancelled id = true ↔ ts.isCancelled id = true ∨ ts.Above b id := by
  rw [isCancelled_iff, isCancelled_iff]
  constructor
  · rintro ⟨a, t, habove, ht, hc⟩
    rw [above_cancel_iff] at habove
    rw [getElem?_cancel] at ht
    obtain ⟨u, hu, rfl⟩ := Option.map_eq_some_iff.mp ht
    by_cases hba : b = a
    · exact Or.inr (hba ▸ habove)
    · exact Or.inl ⟨a, u, habove, hu, by simpa [hba] using hc⟩
  · rintro (⟨a, t, habove, ht, hc⟩ | habove)
    · refine ⟨a, _, (above_cancel_iff ..).mpr habove, by rw [getElem?_cancel, ht]; rfl, ?_⟩
      split
      · rfl
      · exact hc
    · obtain ⟨t, ht⟩ := habove.exists_cell
      exact ⟨b, _, (above_cancel_iff ..).mpr habove, by rw [getElem?_cancel, ht]; rfl, by simp⟩

theorem above_foldl_cancel_iff (a id : Nat) : ∀ (cs : List Cancellation) (ts : Tokens),
    (cs.foldl (fun ts c => ts.cancel c.token) ts).Above a id ↔ ts.Above a id
  | [], _ => Iff.rfl
  | c :: cs, ts => by
    rw [List.foldl_cons, above_foldl_cancel_iff a id cs, above_cancel_iff]

theorem isCancelled_foldl_cancel (id : Nat) : ∀ (cs : List Cancellation) (ts : Tokens),
    (cs.foldl (fun ts c => ts.cancel c.token) ts).isCancelled id = true ↔
      ts.isCancelled id = true ∨ ∃ c ∈ cs, ts.Above c.token id
  | [], _ => by simp
  | c :: cs, ts => by
    rw [List.foldl_cons, isCancelled_foldl_cancel id cs, isCancelled_cancel, or_assoc]
    simp [above_cancel_iff]

end Tokens

namespace Link

/-- Two links at the same instant, with the same tokens and the same cancellations ahead. -/
structure SameTime (l l' : Link) : Prop where
  now : l'.now = l.now
  tokens : l'.tokens = l.tokens
  agenda : l'.agenda = l.agenda

theorem SameTime.done {l l' : Link} (h : SameTime l l') (c : Context) : l'.done c = l.done c := by
  simp only [Link.done, cancelledAt, h.now, h.tokens, h.agenda]

theorem SameTime.check {l l' : Link} (h : SameTime l l') (c : Context) :
    c.check l'.tokens l'.now = c.check l.tokens l.now := by
  rw [h.now, h.tokens]

theorem isCancelled_arrive (l : Link) (t id : Nat) :
    (l.arrive t).tokens.isCancelled id = true ↔ l.tokens.isCancelled id = true ∨
      ∃ c ∈ l.agenda, c.time ≤ max l.now t ∧ l.tokens.Above c.token id := by
  simp only [arrive, Tokens.isCancelled_foldl_cancel, List.mem_filter, decide_eq_true_eq, and_assoc]

theorem above_arrive_iff (l : Link) (t a id : Nat) :
    (l.arrive t).tokens.Above a id ↔ l.tokens.Above a id :=
  Tokens.above_foldl_cancel_iff a id _ _

/-- The planned cancellations that reach a token which has not been cancelled. -/
theorem reaches_iff {l : Link} {id : Nat} (h : l.tokens.isCancelled id = false) (c : Cancellation) :
    (l.tokens.cancel c.token).isCancelled id = true ↔ l.tokens.Above c.token id := by
  rw [Tokens.isCancelled_cancel, h]; simp

/-- The instant of a token's cancellation is the first at which a planned one reaches it. -/
theorem cancelledAt_spec {l : Link} {id : Nat} (h : l.tokens.isCancelled id = false) :
    (∀ t, l.cancelledAt id = some t → ∃ c ∈ l.agenda, l.tokens.Above c.token id ∧
        max l.now c.time = t) ∧
    (∀ c ∈ l.agenda, l.tokens.Above c.token id →
      ∃ t, l.cancelledAt id = some t ∧ t ≤ max l.now c.time) := by
  have hmem : ∀ t, t ∈ (l.agenda.filter fun c =>
      (l.tokens.cancel c.token).isCancelled id).map (fun c => max l.now c.time) ↔
      ∃ c ∈ l.agenda, l.tokens.Above c.token id ∧ max l.now c.time = t := by
    intro t
    simp only [List.mem_map, List.mem_filter, reaches_iff h, and_assoc]
  constructor
  · intro t ht
    exact (hmem t).mp (List.min?_mem ht)
  · intro c hc habove
    have hin := (hmem _).mpr ⟨c, hc, habove, rfl⟩
    obtain ⟨t, ht⟩ := Option.isSome_iff_exists.mp (List.isSome_min?_of_mem hin)
    exact ⟨t, ht, (List.min?_eq_some_iff.mp ht).2 _ hin⟩

/-- While the clock has not come to a cancellation of the token, the instant of its cancellation stays
    the same. -/
theorem cancelledAt_arrive {l : Link} {id : Nat} (t : Nat) (h : l.tokens.isCancelled id = false)
    (hlate : ∀ c ∈ l.agenda, l.tokens.Above c.token id → max l.now t < c.time) :
    (l.arrive t).tokens.isCancelled id = false ∧
      (l.arrive t).cancelledAt id = l.cancelledAt id := by
  have hfree : (l.arrive t).tokens.isCancelled id = false := by
    refine Bool.eq_false_iff.mpr fun hc => ?_
    rcases (isCancelled_arrive l t id).mp hc with hold | ⟨c, hc, hle, habove⟩
    · rw [h] at hold; cases hold
    · exact absurd (hlate c hc habove) (by omega)
  refine ⟨hfree, ?_⟩
  have hagenda : (l.arrive t).agenda.filter
      (fun c => ((l.arrive t).tokens.cancel c.token).isCancelled id) =
      l.agenda.filter fun c => (l.tokens.cancel c.token).isCancelled id := by
    simp only [arrive, List.filter_filter]
    refine List.filter_congr fun c hc => ?_
    rw [Bool.eq_iff_iff, Bool.and_eq_true, decide_eq_true_eq]
    have hreach := (reaches_iff hfree c).trans (above_arrive_iff l t c.token id)
    rw [arrive] at hreach
    rw [hreach, reaches_iff h]
    exact ⟨fun hb => hb.1, fun habove => ⟨habove, hlate c hc habove⟩⟩
  rw [cancelledAt, cancelledAt, hagenda]
  refine congrArg List.min? (List.map_congr_left fun c hc => ?_)
  obtain ⟨hc, hreach⟩ := List.mem_filter.mp hc
  have := hlate c hc ((reaches_iff h c).mp hreach)
  have hnow : (l.arrive t).now = max l.now t := rfl
  omega

/-- A context that is not done has a token that is not cancelled and a deadline ahead. -/
theorem check_eq_none_iff (c : Context) (ts : Tokens) (now : Nat) :
    c.check ts now = none ↔ ts.isCancelled c.token = false ∧ ∀ d, c.deadline = some d → now < d := by
  simp only [Context.check]
  cases ts.isCancelled c.token with
  | true => simp
  | false =>
    cases c.deadline with
    | none => simp
    | some d =>
      by_cases hd : d ≤ now
      · simp [hd]
      · simp [hd]
        omega

/-- A context that is cancelled and past its deadline counts as cancelled. -/
theorem reason_eq_cancelled_iff {c : Context} {ts : Tokens} {now : Nat} {reason : CancelReason}
    (h : c.check ts now = some reason) : reason = .cancelled ↔ ts.isCancelled c.token = true := by
  rw [Context.check] at h
  split at h
  · next hc => cases h; simp [hc]
  · next hc =>
    split at h
    · split at h
      · cases h; simp [hc]
      · cases h
    · cases h

/-- What `done` foretells of a context that is not done yet. -/
theorem done_eq {l : Link} {c : Context} (h : c.check l.tokens l.now = none) :
    l.done c = match l.cancelledAt c.token, c.deadline with
      | some t, some d => if t ≤ d then some (t, .cancelled) else some (d, .deadlineExceeded)
      | some t, none => some (t, .cancelled)
      | none, some d => some (d, .deadlineExceeded)
      | none, none => none := by
  obtain ⟨hfree, hdead⟩ := (check_eq_none_iff ..).mp h
  rw [done, hfree]
  cases hd : c.deadline with
  | none => cases l.cancelledAt c.token <;> rfl
  | some d =>
    have := hdead d hd
    have hmax : max l.now d = d := by omega
    simp only [Option.map_some, hmax]
    cases l.cancelledAt c.token <;> rfl

/-- The instant that `done` foretells is the first at which a planned cancellation reaches the token or
    the deadline has come; when both come at once, the context counts as cancelled. -/
theorem done_spec {l : Link} {c : Context} {time : Nat} {reason : CancelReason}
    (h : c.check l.tokens l.now = none) (hdone : l.done c = some (time, reason)) :
    (∀ x ∈ l.agenda, l.tokens.Above x.token c.token → time ≤ max l.now x.time) ∧
    (∀ d, c.deadline = some d → time ≤ d) ∧
    (reason = .cancelled ∧ (∃ x ∈ l.agenda, l.tokens.Above x.token c.token ∧
        max l.now x.time = time) ∨
      reason = .deadlineExceeded ∧ c.deadline = some time ∧
        ∀ x ∈ l.agenda, l.tokens.Above x.token c.token → time < max l.now x.time) := by
  obtain ⟨hfree, hdead⟩ := (check_eq_none_iff ..).mp h
  obtain ⟨hwhen, hfirst⟩ := cancelledAt_spec hfree
  rw [done_eq h] at hdone
  cases hat : l.cancelledAt c.token with
  | none =>
    have hnone : ∀ x ∈ l.agenda, ¬ l.tokens.Above x.token c.token := by
      intro x hx habove
      obtain ⟨t, ht, -⟩ := hfirst x hx habove
      rw [hat] at ht; cases ht
    cases hd : c.deadline with
    | none => rw [hat, hd] at hdone; cases hdone
    | some d =>
      rw [hat, hd] at hdone; cases hdone
      exact ⟨fun x hx ha => absurd ha (hnone x hx), fun d hd => by cases hd; omega,
        Or.inr ⟨rfl, rfl, fun x hx ha => absurd ha (hnone x hx)⟩⟩
  | some t =>
    have hle : ∀ x ∈ l.agenda, l.tokens.Above x.token c.token → t ≤ max l.now x.time := by
      intro x hx habove
      obtain ⟨u, hu, hle⟩ := hfirst x hx habove
      rw [hat] at hu; cases hu
      exact hle
    cases hd : c.deadline with
    | none =>
      rw [hat, hd] at hdone; cases hdone
      exact ⟨hle, fun _ hd => (by cases hd), Or.inl ⟨rfl, hwhen _ hat⟩⟩
    | some d =>
      rw [hat, hd] at hdone
      by_cases htd : t ≤ d
      · simp only [htd, if_true, Option.some.injEq, Prod.mk.injEq] at hdone
        obtain ⟨rfl, rfl⟩ := hdone
        exact ⟨hle, fun d hd => by cases hd; exact htd, Or.inl ⟨rfl, hwhen _ hat⟩⟩
      · simp only [htd, if_false, Option.some.injEq, Prod.mk.injEq] at hdone
        obtain ⟨rfl, rfl⟩ := hdone
        refine ⟨fun x hx ha => ?_, fun d hd => by cases hd; omega,
          Or.inr ⟨rfl, rfl, fun x hx ha => ?_⟩⟩
        · have := hle x hx ha; omega
        · have := hle x hx ha; omega

theorem done_eq_none_spec {l : Link} {c : Context} (h : c.check l.tokens l.now = none)
    (hdone : l.done c = none) :
    c.deadline = none ∧ ∀ x ∈ l.agenda, ¬ l.tokens.Above x.token c.token := by
  rw [done_eq h] at hdone
  obtain ⟨-, hfirst⟩ := cancelledAt_spec ((check_eq_none_iff ..).mp h).1
  cases hat : l.cancelledAt c.token with
  | none =>
    refine ⟨?_, fun x hx ha => ?_⟩
    · cases hd : c.deadline with
      | none => rfl
      | some d => rw [hat, hd] at hdone; cases hdone
    · obtain ⟨t, ht, -⟩ := hfirst x hx ha
      rw [hat] at ht; cases ht
  | some t =>
    rw [hat] at hdone
    cases hd : c.deadline with
    | none => rw [hd] at hdone; cases hdone
    | some d => rw [hd] at hdone; simp only at hdone; split at hdone <;> cases hdone

/-- A context that will never be done is not done wherever the clock goes. -/
theorem check_arrive_of_done_eq_none {l : Link} {c : Context}
    (h : c.check l.tokens l.now = none) (hdone : l.done c = none) (t : Nat) :
    c.check (l.arrive t).tokens (l.arrive t).now = none ∧ (l.arrive t).done c = none := by
  obtain ⟨hd, hnone⟩ := done_eq_none_spec h hdone
  obtain ⟨hfree, hat⟩ := cancelledAt_arrive t ((check_eq_none_iff ..).mp h).1
    fun x hx ha => absurd ha (hnone x hx)
  have hcheck : c.check (l.arrive t).tokens (l.arrive t).now = none :=
    (check_eq_none_iff ..).mpr ⟨hfree, fun d hd' => by rw [hd] at hd'; cases hd'⟩
  refine ⟨hcheck, ?_⟩
  rw [done_eq hcheck, hat, ← done_eq h, hdone]

/-- What `done` foretells comes true: before that instant the context is not done and the same is
    foretold, and at that instant it is done for the reason foretold. -/
theorem check_arrive {l : Link} {c : Context} {time : Nat} {reason : CancelReason}
    (h : c.check l.tokens l.now = none) (hdone : l.done c = some (time, reason)) (t : Nat) :
    (max l.now t < time → c.check (l.arrive t).tokens (l.arrive t).now = none ∧
      (l.arrive t).done c = some (time, reason)) ∧
    (max l.now t = time → c.check (l.arrive t).tokens (l.arrive t).now = some reason) := by
  obtain ⟨hfree, hdead⟩ := (check_eq_none_iff ..).mp h
  obtain ⟨hplan, hline, hreason⟩ := done_spec h hdone
  have hnow : (l.arrive t).now = max l.now t := rfl
  constructor
  · intro hlt
    obtain ⟨hfree', hat⟩ := cancelledAt_arrive t hfree fun x hx ha => by
      have := hplan x hx ha; omega
    have hcheck : c.check (l.arrive t).tokens (l.arrive t).now = none :=
      (check_eq_none_iff ..).mpr ⟨hfree', fun d hd => by have := hline d hd; omega⟩
    refine ⟨hcheck, ?_⟩
    rw [done_eq hcheck, hat, ← done_eq h, hdone]
  · intro heq
    rcases hreason with ⟨rfl, x, hx, ha, hmax⟩ | ⟨rfl, hd, hlate⟩
    · have hc := (isCancelled_arrive l t c.token).mpr (Or.inr ⟨x, hx, by omega, ha⟩)
      simp [Context.check, hc]
    · obtain ⟨hfree', -⟩ := cancelledAt_arrive t hfree fun x hx ha => by
        have := hlate x hx ha; omega
      simp [Context.check, hfree', hd, hnow, heq]

/-- The context is done at the present instant. -/
def IsDone (l : Link) (c : Context) : Prop := c.check l.tokens l.now ≠ none

instance (l : Link) (c : Context) : Decidable (l.IsDone c) :=
  inferInstanceAs (Decidable (_ ≠ none))

/-- The context is not done yet and will be at `time` for `reason`, or it is done and `time` is now. -/
def Foretells (l : Link) (c : Context) (time : Nat) (reason : CancelReason) : Prop :=
  (c.check l.tokens l.now = none ∧ l.done c = some (time, reason)) ∨
    (c.check l.tokens l.now = some reason ∧ l.now = time)

variable {l l' : Link} {c : Context} {time : Nat} {reason : CancelReason}

theorem SameTime.isDone_iff (h : SameTime l l') : l'.IsDone c ↔ l.IsDone c := by
  rw [IsDone, IsDone, h.check]

theorem SameTime.foretells (h : SameTime l l') (hf : l.Foretells c time reason) :
    l'.Foretells c time reason := by
  rw [Foretells, h.check, h.done, h.now]
  exact hf

theorem Foretells.of_isDone (h : l.Foretells c time reason) (hd : l.IsDone c) :
    c.check l.tokens l.now = some reason ∧ l.now = time := by
  rcases h with ⟨hnone, -⟩ | hdone
  · exact absurd hnone hd
  · exact hdone

theorem Foretells.now_le (h : l.Foretells c time reason) : l.now ≤ time := by
  rcases h with ⟨hnone, hdone⟩ | ⟨-, hnow⟩
  · obtain ⟨-, hdead⟩ := (check_eq_none_iff ..).mp hnone
    rcases (done_spec hnone hdone).2.2 with ⟨-, x, -, -, hmax⟩ | ⟨-, hd, -⟩
    · omega
    · exact Nat.le_of_lt (hdead _ hd)
  · exact Nat.le_of_eq hnow

/-- The clock does not pass the instant foretold if it stops at planned cancellations and at the
    deadline. -/
theorem Foretells.arrive (h : l.Foretells c time reason) (hd : ¬ l.IsDone c) {t : Nat}
    (hplan : ∀ u, l.nextCancellation = some u → t ≤ u) (hline : ∀ d, c.deadline = some d → t ≤ d) :
    (l.arrive t).Foretells c time reason := by
  rcases h with ⟨hnone, hdone⟩ | ⟨hsome, -⟩
  · have hle : max l.now t ≤ time := by
      obtain ⟨-, hdead⟩ := (check_eq_none_iff ..).mp hnone
      rcases (done_spec hnone hdone).2.2 with ⟨-, x, hx, -, hmax⟩ | ⟨-, hd, -⟩
      · have hin : x.time ∈ l.agenda.map Cancellation.time := List.mem_map.mpr ⟨x, hx, rfl⟩
        obtain ⟨u, hu⟩ := Option.isSome_iff_exists.mp (List.isSome_min?_of_mem hin)
        have := hplan u hu
        have := (List.min?_eq_some_iff.mp hu).2 _ hin
        omega
      · have := hdead _ hd
        have := hline _ hd
        omega
    obtain ⟨hbefore, hthen⟩ := check_arrive hnone hdone t
    rcases Nat.lt_or_eq_of_le hle with hlt | heq
    · exact Or.inl (hbefore hlt)
    · exact Or.inr ⟨hthen heq, heq⟩
  · exact absurd (show l.IsDone c by simp [IsDone, hsome]) hd

end Link

end SlurmLink
