import SlurmLink.Proofs.ContextTree

/-!
Contexts of a tree that goes on changing. Somebody waits for a context to be done, and meanwhile contexts are
made and cancelled, and the clock moves on:

    child ─── pass ─── cancel ─── pass ─── cancel
               │          │         ▲
             none       none     (t, reason)          the first instant at which there is a reason

The wait is over at the first instant of the run at which `check` reports a reason, and with this reason
(`wait_eq_some_iff`). Cancelling a context and going on leads where going on and cancelling it then leads
(`stop_after`), so it is enough to know which contexts see it at once.
-/

namespace SlurmLink

namespace Tokens

variable {ts : Tokens} {a : Nat}

theorem length_cancel (ts : Tokens) (a : Nat) : (ts.cancel a).cells.length = ts.cells.length :=
  List.length_modify ..

theorem cancel_append (h : a < ts.cells.length) (t : Token) :
    Tokens.cancel ⟨ts.cells ++ [t]⟩ a = ⟨(ts.cancel a).cells ++ [t]⟩ := by
  rw [cancel, cancel, List.modify_eq_take_cons_drop h, List.modify_eq_take_cons_drop (by simp; omega)]
  simp [List.take_append_of_le_length (Nat.le_of_lt h), List.getElem_append_left h,
    List.drop_append_of_le_length (Nat.succ_le_of_lt h)]

theorem cancel_cancel (ts : Tokens) (a b : Nat) : (ts.cancel a).cancel b = (ts.cancel b).cancel a := by
  by_cases h : a = b
  · rw [h]
  · rw [cancel, cancel, cancel, cancel, List.modify_modify_ne _ _ _ h]

theorem cancel_foldl (a : Nat) : ∀ (cs : List Cancellation) (ts : Tokens),
    cs.foldl (fun ts c => ts.cancel c.token) (ts.cancel a) =
      (cs.foldl (fun ts c => ts.cancel c.token) ts).cancel a
  | [], _ => rfl
  | c :: cs, ts => by
    rw [List.foldl_cons, List.foldl_cons, cancel_cancel, cancel_foldl a cs]

end Tokens

namespace Link

variable {l : Link} {c b : Context} {u t : Nat} {reason : CancelReason}

/-- What `done` gives, if it is over by an instant. -/
def doneBy (l : Link) (c : Context) (u : Nat) : Option (Nat × CancelReason) :=
  (l.done c).filter fun r => r.1 ≤ u

theorem doneBy_eq_some_iff : l.doneBy c u = some (t, reason) ↔ l.First c t reason ∧ t ≤ u := by
  rw [doneBy, Option.filter_eq_some_iff, done_eq_some_iff]
  simp

theorem doneBy_eq_none_iff : l.doneBy c u = none ↔ ∀ v, l.now ≤ v → v ≤ u → l.reported c v = none := by
  constructor
  · intro h v hv hvu
    cases hdone : l.done c with
    | none => exact done_eq_none_iff.mp hdone v
    | some r =>
      obtain ⟨t, reason⟩ := r
      have hlate : ¬ t ≤ u := fun hle => by
        rw [doneBy_eq_some_iff.mpr ⟨done_eq_some_iff.mp hdone, hle⟩] at h
        cases h
      exact (done_eq_some_iff.mp hdone).before v hv (by omega)
  · intro h
    cases hdone : l.doneBy c u with
    | none => rfl
    | some r =>
      obtain ⟨t, reason⟩ := r
      obtain ⟨hfirst, hle⟩ := doneBy_eq_some_iff.mp hdone
      have hnone := h t hfirst.now_le hle
      rw [hfirst.reported] at hnone
      cases hnone

/-- What is done no later than another context, is done by an instant if the other one is. -/
theorem exists_doneBy (h : ∀ t, l.reported c t ≠ none → l.reported b t ≠ none)
    (hdone : l.doneBy c u = some (t, reason)) :
    ∃ t' reason', l.doneBy b u = some (t', reason') ∧ t' ≤ t := by
  obtain ⟨hfirst, hle⟩ := doneBy_eq_some_iff.mp hdone
  obtain ⟨t', reason', hb, hle'⟩ := exists_done_le h (done_eq_some_iff.mpr hfirst)
  exact ⟨t', reason', doneBy_eq_some_iff.mpr ⟨done_eq_some_iff.mp hb, by omega⟩, hle'⟩

end Link

namespace Grove

variable {g g' : Grove} {c : Context} {e : GroveEvent} {events : List GroveEvent} {i j k n p t u : Nat}
  {m s : Member} {reason : CancelReason}

/-! ### Waiting while things happen -/

theorem now_le_step (g : Grove) (e : GroveEvent) : g.link.now ≤ (g.step e).link.now := by
  cases e with
  | root => exact Nat.le_refl _
  | pass d => exact Nat.le_max_left ..
  | _ i =>
    simp only [step, on]
    cases g.members[i]? <;> exact Nat.le_refl _

/-- What a wait for a context to be done comes to while events happen, if it is over by the end of them. -/
def wait (c : Context) : Grove → List GroveEvent → Option (Nat × CancelReason)
  | g, [] => g.link.doneBy c g.link.now
  | g, e :: events => (g.link.doneBy c (g.step e).link.now).or (wait c (g.step e) events)

/-- The clock comes by an instant when `n` of the events have happened and the next one has not yet. -/
structure Passes (g : Grove) (events : List GroveEvent) (n u : Nat) : Prop where
  le_length : n ≤ events.length
  from_now : (g.after (events.take n)).link.now ≤ u
  to_next : u ≤ (g.after (events.take (n + 1))).link.now

/-- What `check` reports when the clock comes by an instant. -/
def reportedAt (g : Grove) (events : List GroveEvent) (c : Context) (n u : Nat) : Option CancelReason :=
  (g.after (events.take n)).link.reported c u

/-- The first time in the course of events that `check` reports anything. -/
structure FirstIn (g : Grove) (events : List GroveEvent) (c : Context) (n t : Nat) (reason : CancelReason) :
    Prop where
  passes : g.Passes events n t
  reported : g.reportedAt events c n t = some reason
  before : ∀ k u, g.Passes events k u → k < n ∨ k = n ∧ u < t → g.reportedAt events c k u = none

theorem passes_nil_iff : g.Passes [] n u ↔ n = 0 ∧ u = g.link.now := by
  constructor
  · rintro ⟨hlength, hfrom, hto⟩
    rw [List.take_nil] at hfrom hto
    exact ⟨Nat.le_zero.mp hlength, Nat.le_antisymm hto hfrom⟩
  · rintro ⟨rfl, rfl⟩
    exact ⟨Nat.le_refl _, Nat.le_refl _, Nat.le_refl _⟩

theorem passes_cons_zero_iff :
    g.Passes (e :: events) 0 u ↔ g.link.now ≤ u ∧ u ≤ (g.step e).link.now :=
  ⟨fun h => ⟨h.from_now, h.to_next⟩, fun h => ⟨Nat.zero_le _, h.1, h.2⟩⟩

theorem passes_cons_succ_iff : g.Passes (e :: events) (n + 1) u ↔ (g.step e).Passes events n u :=
  ⟨fun h => ⟨Nat.le_of_succ_le_succ h.le_length, h.from_now, h.to_next⟩,
    fun h => ⟨Nat.succ_le_succ h.le_length, h.from_now, h.to_next⟩⟩

theorem firstIn_nil_iff :
    g.FirstIn [] c n t reason ↔ n = 0 ∧ g.link.First c t reason ∧ t ≤ g.link.now := by
  constructor
  · rintro ⟨hpasses, hreported, -⟩
    obtain ⟨rfl, rfl⟩ := passes_nil_iff.mp hpasses
    exact ⟨rfl, ⟨Nat.le_refl _, hreported, fun u hu hlt => by omega⟩, Nat.le_refl _⟩
  · rintro ⟨rfl, hfirst, hle⟩
    obtain rfl : t = g.link.now := Nat.le_antisymm hle hfirst.now_le
    refine ⟨passes_nil_iff.mpr ⟨rfl, rfl⟩, hfirst.reported, fun k u hpasses hbefore => ?_⟩
    obtain ⟨rfl, rfl⟩ := passes_nil_iff.mp hpasses
    omega

theorem firstIn_cons_zero_iff :
    g.FirstIn (e :: events) c 0 t reason ↔ g.link.First c t reason ∧ t ≤ (g.step e).link.now := by
  constructor
  · rintro ⟨hpasses, hreported, hbefore⟩
    obtain ⟨hfrom, hto⟩ := passes_cons_zero_iff.mp hpasses
    refine ⟨⟨hfrom, hreported, fun u hu hlt => ?_⟩, hto⟩
    exact hbefore 0 u (passes_cons_zero_iff.mpr ⟨hu, by omega⟩) (Or.inr ⟨rfl, hlt⟩)
  · rintro ⟨hfirst, hle⟩
    refine ⟨passes_cons_zero_iff.mpr ⟨hfirst.now_le, hle⟩, hfirst.reported, fun k u hpasses hbefore => ?_⟩
    obtain ⟨rfl, hlt⟩ : k = 0 ∧ u < t := by omega
    exact hfirst.before u hpasses.from_now hlt

theorem firstIn_cons_succ_iff :
    g.FirstIn (e :: events) c (n + 1) t reason ↔
      (∀ u, g.link.now ≤ u → u ≤ (g.step e).link.now → g.link.reported c u = none) ∧
        (g.step e).FirstIn events c n t reason := by
  constructor
  · rintro ⟨hpasses, hreported, hbefore⟩
    refine ⟨fun u hu hle => ?_, passes_cons_succ_iff.mp hpasses, hreported, fun k u hk hlt => ?_⟩
    · exact hbefore 0 u (passes_cons_zero_iff.mpr ⟨hu, hle⟩) (by omega)
    · exact hbefore (k + 1) u (passes_cons_succ_iff.mpr hk) (by omega)
  · rintro ⟨hnone, hpasses, hreported, hbefore⟩
    refine ⟨passes_cons_succ_iff.mpr hpasses, hreported, fun k u hk hlt => ?_⟩
    cases k with
    | zero => exact hnone u hk.from_now hk.to_next
    | succ k => exact hbefore k u (passes_cons_succ_iff.mp hk) (by omega)

/-- A wait for a context to be done is over at the first instant at which `check` reports a reason, and with
    this reason. -/
theorem wait_eq_some_iff :
    wait c g events = some (t, reason) ↔ ∃ n, g.FirstIn events c n t reason := by
  induction events generalizing g with
  | nil =>
    rw [wait, Link.doneBy_eq_some_iff]
    simp only [firstIn_nil_iff, exists_eq_left]
  | cons e events ih =>
    rw [wait, Option.or_eq_some_iff, Link.doneBy_eq_some_iff, Link.doneBy_eq_none_iff, ih]
    constructor
    · rintro (hfirst | ⟨hnone, n, hfirst⟩)
      · exact ⟨0, firstIn_cons_zero_iff.mpr hfirst⟩
      · exact ⟨n + 1, firstIn_cons_succ_iff.mpr ⟨hnone, hfirst⟩⟩
    · rintro ⟨n, hfirst⟩
      cases n with
      | zero => exact Or.inl (firstIn_cons_zero_iff.mp hfirst)
      | succ n =>
        obtain ⟨hnone, hfirst⟩ := firstIn_cons_succ_iff.mp hfirst
        exact Or.inr ⟨hnone, n, hfirst⟩

/-- A wait goes on just if `check` reports nothing all the while. -/
theorem wait_eq_none_iff :
    wait c g events = none ↔ ∀ n u, g.Passes events n u → g.reportedAt events c n u = none := by
  induction events generalizing g with
  | nil =>
    rw [wait, Link.doneBy_eq_none_iff]
    constructor
    · intro h n u hpasses
      obtain ⟨rfl, rfl⟩ := passes_nil_iff.mp hpasses
      exact h _ (Nat.le_refl _) (Nat.le_refl _)
    · intro h u hu hle
      exact h 0 u (passes_nil_iff.mpr ⟨rfl, Nat.le_antisymm hle hu⟩)
  | cons e events ih =>
    rw [wait, Option.or_eq_none_iff, Link.doneBy_eq_none_iff, ih]
    constructor
    · rintro ⟨hnow, hlater⟩ n u hpasses
      cases n with
      | zero => exact hnow u hpasses.from_now hpasses.to_next
      | succ n => exact hlater n u (passes_cons_succ_iff.mp hpasses)
    · intro h
      exact ⟨fun u hu hle => h 0 u (passes_cons_zero_iff.mpr ⟨hu, hle⟩),
        fun n u hpasses => h (n + 1) u (passes_cons_succ_iff.mpr hpasses)⟩

theorem now_le_of_wait (h : wait c g events = some (t, reason)) : g.link.now ≤ t := by
  induction events generalizing g with
  | nil => exact (Link.doneBy_eq_some_iff.mp h).1.now_le
  | cons e events ih =>
    rw [wait, Option.or_eq_some_iff] at h
    rcases h with h | ⟨-, h⟩
    · exact (Link.doneBy_eq_some_iff.mp h).1.now_le
    · exact Nat.le_trans (now_le_step g e) (ih h)

/-! ### Members stay -/

theorem members_step (g : Grove) (e : GroveEvent) : g.members <+: (g.step e).members := by
  cases e with
  | root => exact List.prefix_append ..
  | pass d => exact List.prefix_refl _
  | _ i =>
    simp only [step, on]
    cases g.members[i]? with
    | none => exact List.prefix_refl _
    | some m => first | exact List.prefix_refl _ | exact List.prefix_append ..

theorem members_after : ∀ (events : List GroveEvent) (g : Grove), g.members <+: (g.after events).members
  | [], _ => List.prefix_refl _
  | e :: events, g => (members_step g e).trans (members_after events (g.step e))

theorem getElem?_step (hm : g.members[i]? = some m) (e : GroveEvent) : (g.step e).members[i]? = some m :=
  getElem?_of_extends (members_step g e) hm

/-- Members that are there already do not come to be derived from one another. -/
theorem Sound.descends_of_extends (h : g.Sound) (hpre : g.members <+: g'.members) (hm : g.members[j]? = some m)
    (hd : g'.Descends i j) : g.Descends i j := by
  induction hd generalizing m with
  | self => exact .self
  | made hm' hp _ ih =>
    cases (getElem?_of_extends hpre hm).symm.trans hm'
    obtain ⟨s, hs, -⟩ := h.source hm hp
    exact .made hm hp (ih hs)

theorem Sound.keeps_of_extends (h : g.Sound) (hpre : g.members <+: g'.members) (hm : g.members[j]? = some m)
    (hk : g'.Keeps i j) : g.Keeps i j := by
  induction hk generalizing m with
  | self => exact .self
  | made hm' hp hown _ ih =>
    cases (getElem?_of_extends hpre hm).symm.trans hm'
    obtain ⟨s, hs, -⟩ := h.source hm hp
    exact .made hm hp hown (ih hs)

theorem Sound.affects_of_extends (h : g.Sound) (hpre : g.members <+: g'.members) (hm : g.members[i]? = some m)
    (hs : g.members[j]? = some s) (ha : g'.Affects i j) : g.Affects i j := by
  obtain ⟨k, ⟨q, hi, hk⟩, hd⟩ := ha
  have hd := h.descends_of_extends hpre hs hd
  obtain ⟨n, hn⟩ := h.exists_member hd hs
  exact ⟨k, ⟨q, h.keeps_of_extends hpre hm hi, h.keeps_of_extends hpre hn hk⟩, hd⟩

/-! ### Cancelling and going on -/

/-- Cancels a context of a tree. -/
def stop (g : Grove) (c : Context) : Grove := { g with link := g.link.cancel c }

theorem step_cancel (hm : g.members[i]? = some m) : g.step (.cancel i) = g.stop m.context := by
  rw [step, on, hm]
  rfl

theorem stop_on {f f' : Context → Grove} (h : ∀ b, f b = (f' b).stop c) :
    (g.stop c).on i f = (g.on i f').stop c := by
  have hmembers : (g.stop c).members = g.members := rfl
  rw [on, on, hmembers]
  cases g.members[i]? with
  | none => rfl
  | some m => exact h m.context

/-- Cancelling a context and then something else come to the same in either order. -/
theorem stop_step (hc : c.token < g.parents.length) (e : GroveEvent) :
    (g.stop c).step e = (g.step e).stop c := by
  rw [parents, List.length_map] at hc
  cases e with
  | root =>
    simp only [step, add, stop, Link.newContext, Link.cancel, Tokens.fresh, Tokens.length_cancel,
      Tokens.cancel_append hc]
  | child i =>
    rw [step, step]
    refine stop_on fun b => ?_
    simp only [add, stop, Link.childContext, Context.child, Link.cancel, Tokens.derive, Tokens.length_cancel,
      Tokens.cancel_append hc]
  | cancel i =>
    rw [step, step]
    refine stop_on fun b => ?_
    simp only [stop, Link.cancel, Tokens.cancel_cancel g.link.tokens c.token]
  | pass d =>
    exact congrArg (fun ts => ({ g with link := { g.link.pass d with tokens := ts } } : Grove))
      (Tokens.cancel_foldl c.token _ g.link.tokens)
  | _ i =>
    rw [step, step]
    exact stop_on fun b => rfl

theorem Sound.stop_after (hm : g.members[i]? = some m) (events : List GroveEvent) (h : g.Sound) :
    (g.stop m.context).after events = (g.after events).stop m.context := by
  induction events generalizing g with
  | nil => rfl
  | cons e events ih =>
    show ((g.stop m.context).step e).after events = _
    rw [stop_step (h.token_lt hm)]
    exact ih (getElem?_step hm e) (h.step e)

/-! ### What is derived from a context -/

/-- A context is cancelled with another one and done no later, also for those who wait. -/
structure Follows (g : Grove) (c b : Context) : Prop where
  cancelled : g.link.tokens.isCancelled c.token = true → g.link.tokens.isCancelled b.token = true
  check : c.check g.link.tokens g.link.now ≠ none → b.check g.link.tokens g.link.now ≠ none
  reported : ∀ t, g.link.reported c t ≠ none → g.link.reported b t ≠ none
  done : ∀ t reason, g.link.done c = some (t, reason) →
    ∃ t' reason', g.link.done b = some (t', reason') ∧ t' ≤ t
  wait : ∀ more t reason, g.wait c more = some (t, reason) →
    ∃ t' reason', g.wait b more = some (t', reason') ∧ t' ≤ t

theorem Sound.cancelled_of_descends (h : g.Sound) (hm : g.members[i]? = some m) (hs : g.members[j]? = some s)
    (hd : g.Descends i j) (hc : g.link.tokens.isCancelled m.context.token = true) :
    g.link.tokens.isCancelled s.context.token = true := by
  rw [Tokens.isCancelled_iff] at hc ⊢
  obtain ⟨a, t, ha, ht, hc⟩ := hc
  exact ⟨a, t, h.above_of_descends hm hs hd ha, ht, hc⟩

theorem Sound.reported_of_descends (h : g.Sound) (hm : g.members[i]? = some m) (hs : g.members[j]? = some s)
    (hd : g.Descends i j) (t : Nat) (hreported : g.link.reported m.context t ≠ none) :
    g.link.reported s.context t ≠ none := by
  refine Link.check_ne_none_of ?_ (fun d => h.deadline_of_descends hm hs hd) hreported
  rw [← Link.reached_iff, ← Link.reached_iff]
  rintro (hold | ⟨x, hx, htime, ha⟩)
  · exact Or.inl (h.cancelled_of_descends hm hs hd hold)
  · exact Or.inr ⟨x, hx, htime, h.above_of_descends hm hs hd ha⟩

theorem Sound.wait_of_descends (h : g.Sound) (hm : g.members[i]? = some m) (hs : g.members[j]? = some s)
    (hd : g.Descends i j) (hwait : g.wait m.context events = some (t, reason)) :
    ∃ t' reason', g.wait s.context events = some (t', reason') ∧ t' ≤ t := by
  induction events generalizing g with
  | nil => exact Link.exists_doneBy (h.reported_of_descends hm hs hd) hwait
  | cons e events ih =>
    simp only [wait] at hwait ⊢
    cases hother : g.link.doneBy s.context (g.step e).link.now with
    | some r =>
      obtain ⟨t', reason'⟩ := r
      refine ⟨t', reason', rfl, ?_⟩
      rcases Option.or_eq_some_iff.mp hwait with hnow | ⟨-, hlater⟩
      · obtain ⟨t'', reason'', heq, hle⟩ := Link.exists_doneBy (h.reported_of_descends hm hs hd) hnow
        cases hother.symm.trans heq
        exact hle
      · exact Nat.le_trans (Link.doneBy_eq_some_iff.mp hother).2 (now_le_of_wait hlater)
    | none =>
      rcases Option.or_eq_some_iff.mp hwait with hnow | ⟨-, hlater⟩
      · obtain ⟨t'', reason'', heq, -⟩ := Link.exists_doneBy (h.reported_of_descends hm hs hd) hnow
        cases hother.symm.trans heq
      · exact ih (h.step e) (getElem?_step hm e) (getElem?_step hs e) (hd.mono (members_step g e)) hlater

theorem Sound.follows (h : g.Sound) (hm : g.members[i]? = some m) (hs : g.members[j]? = some s)
    (hd : g.Descends i j) : g.Follows m.context s.context where
  cancelled := h.cancelled_of_descends hm hs hd
  check := Link.check_ne_none_of (h.cancelled_of_descends hm hs hd) fun _ => h.deadline_of_descends hm hs hd
  reported := h.reported_of_descends hm hs hd
  done _ _ := Link.exists_done_le (h.reported_of_descends hm hs hd)
  wait _ _ _ := h.wait_of_descends hm hs hd

/-! ### Who sees a cancellation -/

/-- A context counts as cancelled, and whoever asks for it to be done is told so at once. -/
structure Stopped (l : Link) (c : Context) : Prop where
  check : c.check l.tokens l.now = some .cancelled
  done : l.done c = some (l.now, .cancelled)

/-- What a context reports on one link, now and later, is what it reports on another one. -/
structure Unmoved (l l' : Link) (c : Context) : Prop where
  check : c.check l'.tokens l'.now = c.check l.tokens l.now
  reported : ∀ t, l'.reported c t = l.reported c t
  done : l'.done c = l.done c

theorem Sound.stopped (h : g.Sound) (hm : g.members[i]? = some m) (hs : g.members[j]? = some s)
    (ha : g.Affects i j) : Stopped (g.stop m.context).link s.context := by
  obtain ⟨hcheck, hdone⟩ := Link.cancel_of_above ((h.above_token_iff hm hs).mpr ha)
  exact ⟨hcheck, hdone⟩

theorem Sound.unmoved (h : g.Sound) (hm : g.members[i]? = some m) (hs : g.members[j]? = some s)
    (ha : ¬ g.Affects i j) : Unmoved g.link (g.stop m.context).link s.context := by
  obtain ⟨hreported, hdone, hcheck⟩ := Link.cancel_of_not_above (mt (h.above_token_iff hm hs).mp ha)
  exact ⟨hcheck, hreported, hdone⟩

/-- Who waits for a context that a cancellation does not reach, waits as if there had been none. -/
theorem Sound.wait_stop (h : g.Sound) (hm : g.members[i]? = some m) (hs : g.members[j]? = some s)
    (ha : ¬ g.Affects i j) : (g.stop m.context).wait s.context events = g.wait s.context events := by
  have hby : ∀ u, (g.stop m.context).link.doneBy s.context u = g.link.doneBy s.context u := fun u => by
    rw [Link.doneBy, Link.doneBy, (h.unmoved hm hs ha).done]
  induction events generalizing g with
  | nil => exact hby _
  | cons e events ih =>
    have hlater : ¬ (g.step e).Affects i j := mt (h.affects_of_extends (members_step g e) hm hs) ha
    simp only [wait, stop_step (h.token_lt hm)]
    rw [ih (h.step e) (getElem?_step hm e) (getElem?_step hs e) hlater]
    · exact congrArg (Option.or · _) (hby _)
    · intro u
      rw [Link.doneBy, Link.doneBy, ((h.step e).unmoved (getElem?_step hm e) (getElem?_step hs e) hlater).done]

/-- A cancellation of the member `i` is seen by those that share its token and by what was derived from them,
    and by no others, whatever happens afterwards. -/
structure Confined (g : Grove) (i : Nat) (more : List GroveEvent) : Prop where
  members : ((g.step (.cancel i)).after more).members = (g.after more).members
  stopped : ∀ (j : Nat) (s : Member), (g.after more).members[j]? = some s → (g.after more).Affects i j →
    Stopped ((g.step (.cancel i)).after more).link s.context
  unmoved : ∀ (j : Nat) (s : Member), (g.after more).members[j]? = some s → ¬ (g.after more).Affects i j →
    Unmoved (g.after more).link ((g.step (.cancel i)).after more).link s.context
  ended : ∀ (j : Nat) (s : Member), g.members[j]? = some s → g.Affects i j →
    (g.step (.cancel i)).wait s.context more = some (g.link.now, .cancelled)
  wait : ∀ (j : Nat) (s : Member), g.members[j]? = some s → ¬ g.Affects i j →
    (g.step (.cancel i)).wait s.context more = g.wait s.context more

theorem wait_of_stopped (h : Stopped g.link c) : g.wait c events = some (g.link.now, .cancelled) := by
  have hby : ∀ u, g.link.now ≤ u → g.link.doneBy c u = some (g.link.now, .cancelled) := fun u hu =>
    Link.doneBy_eq_some_iff.mpr ⟨Link.done_eq_some_iff.mp h.done, hu⟩
  cases events with
  | nil => exact hby _ (Nat.le_refl _)
  | cons e events => rw [wait, hby _ (now_le_step g e), Option.some_or]

theorem Sound.confined (h : g.Sound) (hm : g.members[i]? = some m) (more : List GroveEvent) :
    g.Confined i more := by
  have hafter : (g.after more).Sound := Sound.after more h
  have hstay : (g.after more).members[i]? = some m := getElem?_of_extends (members_after more g) hm
  have hstop : (g.step (.cancel i)).after more = (g.after more).stop m.context := by
    rw [step_cancel hm, Sound.stop_after hm more h]
  constructor
  · rw [hstop]
    rfl
  · intro j s hs ha
    rw [hstop]
    exact hafter.stopped hstay hs ha
  · intro j s hs ha
    rw [hstop]
    exact hafter.unmoved hstay hs ha
  · intro j s hs ha
    rw [step_cancel hm]
    exact wait_of_stopped (h.stopped hm hs ha)
  · intro j s hs ha
    rw [step_cancel hm]
    exact h.wait_stop hm hs ha

/-! ### The two views of a context -/

/-- `done` gives the first instant at which `check` reports a reason, with this reason, and nothing if there is
    none; at that instant a cancellation goes before the deadline. Where nothing is due, `done` is over just if
    `check` reports, now. And whoever waits while things happen is told the same. -/
structure Agree (g : Grove) (c : Context) : Prop where
  done : ∀ t reason, g.link.done c = some (t, reason) ↔ g.link.now ≤ t ∧ g.link.reported c t = some reason ∧
    ∀ u, g.link.now ≤ u → u < t → g.link.reported c u = none
  never : g.link.done c = none ↔ ∀ t, g.link.reported c t = none
  cancelled : ∀ t, g.link.reported c t = some .cancelled ↔ (g.link.arrive t).tokens.isCancelled c.token = true
  check : (∀ x ∈ g.link.agenda, g.link.now < x.time) →
    ∀ reason, g.link.done c = some (g.link.now, reason) ↔ c.check g.link.tokens g.link.now = some reason
  wait : ∀ more t reason, g.wait c more = some (t, reason) ↔ ∃ n, g.FirstIn more c n t reason
  waiting : ∀ more, g.wait c more = none ↔ ∀ n u, g.Passes more n u → g.reportedAt more c n u = none

theorem agree (g : Grove) (c : Context) : g.Agree c where
  done t reason := by
    rw [Link.done_eq_some_iff]
    exact ⟨fun h => ⟨h.now_le, h.reported, h.before⟩, fun h => ⟨h.1, h.2.1, h.2.2⟩⟩
  never := Link.done_eq_none_iff
  cancelled t := Link.reported_eq_cancelled_iff.trans Link.reached_iff
  check h reason := by
    rw [Link.done_eq_some_iff, ← Link.reported_now h]
    exact ⟨fun hf => hf.reported, fun hr => ⟨Nat.le_refl _, hr, fun u hu hlt => by omega⟩⟩
  wait _ _ _ := wait_eq_some_iff
  waiting _ := wait_eq_none_iff

/-- Contexts only tighten downwards, and their two views agree. Whatever tree of contexts is built, and
    whatever is cancelled and however the clock moves meanwhile: a context that is derived from another one
    is cancelled with it and done no later, and its deadline is the least of those set on the way to it.
    Cancelling a context is seen at once by those that share its token and by what is derived from them, and
    makes no difference to any other, now or after whatever else happens; so it makes none to what a child was
    made from, nor to another child of it. And `done` gives the first instant at which `check` reports a
    reason, with this reason. A cancellation that is planned comes true as one at its instant. -/
theorem tightens (now : Nat) (events : List GroveEvent) :
    let g := (start now).after events
    (∀ (i j : Nat) (m s : Member), g.members[i]? = some m → g.members[j]? = some s → g.Descends i j →
      g.Follows m.context s.context) ∧
    (∀ (j : Nat) (s : Member), g.members[j]? = some s →
      Earliest s.context.deadline (g.deadlinesOn j) ∧ g.Agree s.context) ∧
    (∀ (i : Nat) (m : Member) (more : List GroveEvent), g.members[i]? = some m → g.Confined i more) ∧
    (∀ (i : Nat) (m : Member) (p : Nat), g.members[i]? = some m → m.origin = .child p → ¬ g.Affects i p ∧
      ∀ (j : Nat) (s : Member), g.members[j]? = some s → s.origin = .child p → j ≠ i → ¬ g.Affects i j) ∧
    ∀ (j : Nat) (s : Member) (duration : Nat), g.members[j]? = some s →
      (g.link.cancelAfter s.context duration).pass duration = (g.link.pass duration).cancel s.context := by
  intro g
  have h : g.Sound := Sound.after events (sound_start now)
  exact ⟨fun i j m s hm hs hd => h.follows hm hs hd,
    fun j s hs => ⟨h.deadline_spec hs, agree g s.context⟩, fun i m more hm => h.confined hm more,
    fun i m p hm hc => h.child_spec hm hc, fun j s duration _ => Link.pass_cancelAfter ..⟩

/-- A context with a timeout, two children of it, and a deadline for the first of them; the first child is to
    be cancelled at that very deadline. -/
def planted : List GroveEvent :=
  [.root, .withTimeout 0 50, .child 1, .child 1, .withDeadline 2 130, .cancelAfter 2 30, .pass 10]

/-- The deadline of what was made from the first child is the earlier one; at that instant it counts as
    cancelled. If the child is cancelled before, this is over at once, and what the child was made from
    lasts until its deadline. -/
theorem tightens_planted :
    let g := (start 100).after planted
    let timed : Context := ⟨0, some 150⟩
    let first : Context := ⟨1, some 150⟩
    let second : Context := ⟨2, some 150⟩
    let hurried : Context := ⟨1, some 130⟩
    g.members.map Member.context = [⟨0, none⟩, timed, first, second, hurried] ∧
    g.Follows timed hurried ∧ Earliest hurried.deadline (g.deadlinesOn 4) ∧
    g.Agree hurried ∧ g.wait hurried [.pass 5, .cancel 3, .pass 20] = some (130, .cancelled) ∧
    g.Confined 2 [.pass 45] ∧ (g.step (.cancel 2)).wait hurried [.pass 45] = some (110, .cancelled) ∧
    (g.step (.cancel 2)).wait timed [.pass 45] = some (150, .deadlineExceeded) ∧
    ¬ g.Affects 2 1 ∧ ¬ g.Affects 2 3 ∧
    (g.link.cancelAfter second 5).pass 5 = (g.link.pass 5).cancel second := by
  intro g timed first second hurried
  obtain ⟨hfollows, hboth, hcancel, hchild, hplanned⟩ := tightens 100 planted
  have htimed : g.members[1]? = some ⟨timed, .bounded 0 150⟩ := rfl
  have hfirst : g.members[2]? = some ⟨first, .child 1⟩ := rfl
  have hsecond : g.members[3]? = some ⟨second, .child 1⟩ := rfl
  have hhurried : g.members[4]? = some ⟨hurried, .bounded 2 130⟩ := rfl
  have hdescends : g.Descends 1 4 := .made hhurried rfl (.made hfirst rfl .self)
  have haffects : g.Affects 2 4 := ⟨2, ⟨2, .self, .self⟩, .made hhurried rfl .self⟩
  obtain ⟨hsource, hsibling⟩ := hchild 2 _ 1 hfirst rfl
  have hconfined : g.Confined 2 [.pass 45] := hcancel 2 _ _ hfirst
  have hlater : g.wait hurried [.pass 5, .cancel 3, .pass 20] = some (130, .cancelled) := by decide +kernel
  have huntil : g.wait timed [.pass 45] = some (150, .deadlineExceeded) := by decide +kernel
  exact ⟨rfl, hfollows 1 4 _ _ htimed hhurried hdescends, (hboth 4 _ hhurried).1, (hboth 4 _ hhurried).2, hlater,
    hconfined, hconfined.ended 4 _ hhurried haffects, (hconfined.wait 1 _ htimed hsource).trans huntil,
    hsource, hsibling 3 _ hsecond rfl (by decide), hplanned 3 _ 5 hsecond⟩

end Grove

end SlurmLink
