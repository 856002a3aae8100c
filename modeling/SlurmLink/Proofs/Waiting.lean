import SlurmLink.Proofs.AcquisitionRun
import SlurmLink.Proofs.Backoff
import SlurmLink.Proofs.SingleFlight

/-!
What becomes of those whose contexts are done while they want a session. Whoever negotiates stops as soon
as its context is done (`Negotiation.Heeds`). But whoever waits in line does not look at its context: it
goes on waiting until somebody has made the session, which it takes, or until it is its turn to negotiate,
and only then it stops:

    deadline of the second        ┆
    first     negotiating ────────┼──────▶ made
    second    waiting ────────────┼──────▶ takes the session
                                 50     100

`waiting_exact` says which of these happens, and when.
-/

namespace SlurmLink

namespace Link

variable {l l' : Link} {c : Context} {time t : Nat} {reason : CancelReason}

/-- It is foretold that the context will be done at `time`, or that instant has come. -/
def Due (l : Link) (c : Context) (time : Nat) (reason : CancelReason) : Prop :=
  (c.check l.tokens l.now = none ∧ l.done c = some (time, reason)) ∨ (time ≤ l.now ∧ l.IsDone c)

theorem Foretells.due (h : l.Foretells c time reason) : l.Due c time reason := by
  rcases h with hahead | ⟨hcheck, hnow⟩
  · exact Or.inl hahead
  · exact Or.inr ⟨Nat.le_of_eq hnow.symm, by rw [IsDone, hcheck]; exact Option.some_ne_none _⟩

theorem SameTime.due (h : SameTime l l') (hd : l.Due c time reason) : l'.Due c time reason := by
  rw [Due, h.check, h.done, h.now, h.isDone_iff]
  exact hd

/-- What is done stays so. -/
theorem IsDone.arrive (h : l.IsDone c) (t : Nat) : (l.arrive t).IsDone c := by
  intro hn
  obtain ⟨hfree, hline⟩ := (check_eq_none_iff ..).mp hn
  refine h ((check_eq_none_iff ..).mpr ⟨?_, fun d hd => ?_⟩)
  · rw [Bool.eq_false_iff]
    intro hc
    rw [(isCancelled_arrive l t _).mpr (Or.inl hc)] at hfree
    cases hfree
  · exact Nat.lt_of_le_of_lt (Nat.le_max_left ..) (hline d hd)

/-- The clock may pass the deadline, but no planned cancellation. -/
theorem Due.arrive (h : l.Due c time reason)
    (hplan : ∀ u, l.nextCancellation = some u → t ≤ u) : (l.arrive t).Due c time reason := by
  rcases h with ⟨hfree, hdone⟩ | ⟨hle, hdone⟩
  · obtain ⟨hbefore, hthen⟩ := check_arrive hfree hdone t
    rcases Nat.lt_trichotomy (max l.now t) time with hlt | heq | hgt
    · exact Or.inl (hbefore hlt)
    · exact Or.inr ⟨Nat.le_of_eq heq.symm, by rw [IsDone, hthen heq]; exact Option.some_ne_none _⟩
    · refine Or.inr ⟨Nat.le_of_lt hgt, fun hn => ?_⟩
      have hline := ((check_eq_none_iff ..).mp hn).2
      have hnow : (l.arrive t).now = max l.now t := rfl
      rcases (done_spec hfree hdone).2.2 with ⟨-, x, hx, -, hmax⟩ | ⟨-, hd, -⟩
      · have hin : x.time ∈ l.agenda.map Cancellation.time := List.mem_map.mpr ⟨x, hx, rfl⟩
        obtain ⟨u, hu⟩ := Option.isSome_iff_exists.mp (List.isSome_min?_of_mem hin)
        have := hplan u hu
        have := (List.min?_eq_some_iff.mp hu).2 _ hin
        omega
      · have := hline _ hd
        omega
  · exact Or.inr ⟨Nat.le_trans hle (Nat.le_max_left ..), hdone.arrive t⟩

theorem Due.le_now (h : l.Due c time reason) (hd : l.IsDone c) : time ≤ l.now := by
  rcases h with ⟨hfree, -⟩ | ⟨hle, -⟩
  · exact absurd hfree hd
  · exact hle

theorem Due.foretells (h : l.Due c time reason) (hd : ¬ l.IsDone c) : l.Foretells c time reason := by
  rcases h with hahead | ⟨-, hdone⟩
  · exact Or.inl hahead
  · exact absurd hdone hd

end Link

/-- A call whose context is done ends with that, if it ends. -/
theorem Call.Goes.outcome_of_done {p : CallPolicy} {c c' : Call} {l l' : Link}
    (h : Call.Goes p c l c' l') {r : CancelReason} (hr : c.context.check l.tokens l.now = some r)
    {o : Except Failure Response} (ho : c'.outcome? = some o) : o = .error (.cancelled r) := by
  cases h with
  | turnedAway _ hc =>
    rw [hr] at hc
    cases hc
    cases ho
    rfl
  | stopped _ hc =>
    rw [hr] at hc
    cases hc
    cases ho
    rfl
  | refused _ hc => rw [hr] at hc; cases hc
  | admitted _ hc => rw [hr] at hc; cases hc
  | sends _ hc => rw [hr] at hc; cases hc
  | ends _ hc => rw [hr] at hc; cases hc
  | rests _ hc => rw [hr] at hc; cases hc
  | panics _ hc => rw [hr] at hc; cases hc
  | retries _ hc => rw [hr] at hc; cases hc

namespace Negotiation

variable {p : SessionPolicy} {context : Context} {endpoint : String} {n n' : Negotiation} {l l' : Link}

/-- A negotiation that looks at its context: if the context is done and there is an outcome, it is that.
    One for which a version is named does not wait for anything, and never looks. -/
inductive Heeds (p : SessionPolicy) (context : Context) (endpoint : String) (l : Link) :
    Negotiation → Prop where
  | starting : Heeds p context endpoint l { context, endpoint }
  | asking {c : Call} (he : p.explicit = none) (hc : c.context = context)
      (ho : ∀ o r, c.outcome? = some o → context.check l.tokens l.now = some r →
        o = .error (.cancelled r)) :
      Heeds p context endpoint l { context, endpoint, phase := .discovering c }
  | ended {o : Except Error Session} (he : p.explicit = none)
      (ho : ∀ r, context.check l.tokens l.now = some r → o = .error (.api endpoint none (.cancelled r))) :
      Heeds p context endpoint l { context, endpoint, phase := .finished o }
  | named {o : Except Error Session} (he : p.explicit ≠ none)
      (ho : ∀ r, o ≠ .error (.api endpoint none (.cancelled r))) :
      Heeds p context endpoint l { context, endpoint, phase := .finished o }

theorem Heeds.congr (h : Heeds p context endpoint l n) (hl : l.SameTime l') :
    Heeds p context endpoint l' n := by
  cases h with
  | starting => exact .starting
  | asking he hc ho => exact .asking he hc (by rw [hl.check]; exact ho)
  | ended he ho => exact .ended he (by rw [hl.check]; exact ho)
  | named he ho => exact .named he ho

theorem Heeds.goes (h : Heeds p context endpoint l n) (hg : Goes p n l n' l') :
    Heeds p context endpoint l' n' := by
  have hl := hg.sameTime
  cases h with
  | ended => cases hg <;> (rename_i hp _; cases hp)
  | named => cases hg <;> (rename_i hp _; cases hp)
  | starting =>
    cases hg with
    | calls hp => cases hp
    | chooses hp => cases hp
    | asks _ he => exact .asking he rfl fun o r ho => by cases ho
    | @named v _ he =>
      have hexplicit : p.explicit ≠ none := by rw [he]; nofun
      cases hv : explicitRevision v with
      | ok r => exact .named hexplicit nofun
      | error e =>
        refine .named hexplicit fun r hr => ?_
        cases hr
        rw [explicitRevision] at hv
        split at hv <;> cases hv
  | asking he hc ho =>
    cases hg with
    | named hp => cases hp
    | asks hp => cases hp
    | calls hp hgoes =>
      cases hp
      refine .asking he (by rw [hgoes.eq_with_phase, hc]) fun o r ho' hr => ?_
      rw [hl.check] at hr
      exact hgoes.outcome_of_done (hc ▸ hr) ho'
    | @chooses c o hp hout =>
      cases hp
      have hstopped : ∀ r, context.check l.tokens l.now = some r →
          choose p endpoint o = .error (.api endpoint none (.cancelled r)) := by
        intro r hr
        rw [ho o r hout hr]
        rfl
      cases hchoice : choose p endpoint o with
      | error e =>
        refine .ended he fun r hr => ?_
        rw [hstopped r hr] at hchoice
        cases hchoice
        rfl
      | ok choice =>
        refine .ended he fun r hr => ?_
        rw [hstopped r hr] at hchoice
        cases hchoice

/-- While it waits for its call, nothing that happens to the clock can make it miss its context. -/
theorem Heeds.waits (h : Heeds p context endpoint l n) (hrun : n.outcome? = none)
    (hs : n.step p l = none) : ∃ c, n.phase = .discovering c ∧ c.context = context ∧
      c.outcome? = none ∧ c.step p.calls l = none ∧ ∀ l', Heeds p context endpoint l' n := by
  obtain ⟨c, hp, hcall, hstep⟩ := waits_of_step_eq_none hs hrun
  cases h with
  | starting => cases hp
  | ended => cases hp
  | named => cases hp
  | asking he hc ho =>
    cases hp
    refine ⟨c, rfl, hc, hcall, hstep, fun l' => .asking he hc fun o r hout => ?_⟩
    rw [hcall] at hout
    cases hout

/-- What comes of it if the context is done. -/
theorem Heeds.outcome_of_done (h : Heeds p context endpoint l n) {o : Except Error Session}
    (ho : n.outcome? = some o) (hd : l.IsDone context) :
    (p.explicit = none ∧ ∃ r, o = .error (.api endpoint none (.cancelled r))) ∨
    (p.explicit ≠ none ∧ ∀ r, o ≠ .error (.api endpoint none (.cancelled r))) := by
  cases h with
  | starting => cases ho
  | asking => cases ho
  | named he hnot =>
    cases ho
    exact Or.inr ⟨he, hnot⟩
  | ended he hstop =>
    cases ho
    obtain ⟨r, hr⟩ := Option.ne_none_iff_exists'.mp hd
    exact Or.inl ⟨he, r, hstop r hr⟩

end Negotiation

namespace Acquisition

/-- The state of acquisitions side by side after `n` steps. -/
def after (p : SessionPolicy) (callers : List Acquisition) (h : Hub) (n : Nat) :
    List Acquisition × Hub :=
  (machine p).run n callers h

theorem after_succ (p : SessionPolicy) (callers : List Acquisition) (h : Hub) (n : Nat) :
    after p callers h (n + 1) = (machine p).tick (after p callers h n) :=
  (machine p).run_succ n callers h

/-- Whoever is through stays so. -/
theorem finished_after {p : SessionPolicy} {callers : List Acquisition} {h : Hub} {i n : Nat}
    {u : Acquisition} (hu : (after p callers h n).1[i]? = some u) (ho : u.outcome? ≠ none) (d : Nat) :
    (after p callers h (n + d)).1[i]? = some u := by
  induction d with
  | zero => exact hu
  | succ d ih =>
    have htick := after_succ p callers h (n + d)
    rw [← Nat.add_assoc, htick]
    rcases tick_cases p (after p callers h (n + d)).1 (after p callers h (n + d)).2 with
      hrest | ⟨j, v, v', hj, hg, hset⟩ | ⟨t, hmove, -⟩
    · rw [hrest]
      exact ih
    · rw [hset, List.getElem?_set_ne, ih]
      rintro rfl
      rw [ih] at hj
      cases hj
      exact ho hg.outcome?_eq_none
    · rw [hmove]
      exact ih

/-- The caller `i` negotiates after `k` steps. -/
def NegotiatesAt (p : SessionPolicy) (callers : List Acquisition) (h : Hub) (i k : Nat) : Prop :=
  ∃ u c v m, (after p callers h k).1[i]? = some u ∧ u.phase = .negotiating c v m

/-- The caller `i`, which was `a` when it entered, is under way as `u` after `n` steps. -/
structure UnderWay (p : SessionPolicy) (callers : List Acquisition) (h : Hub) (i : Nat)
    (a : Acquisition) (time : Nat) (reason : CancelReason) (n : Nat) (u : Acquisition) : Prop where
  here : (after p callers h n).1[i]? = some u
  running : u.outcome? = none
  same : u = { a with phase := u.phase }
  due : (after p callers h n).2.link.Due a.context time reason
  heeds : ∀ c v m, u.phase = .negotiating c v m →
    m.Heeds p a.context a.wish.endpoint (after p callers h n).2.link
  /-- Once it negotiates it does so until it is through, and the clock does not pass `time`. -/
  stays : ∀ k, k ≤ n → NegotiatesAt p callers h i k → NegotiatesAt p callers h i n ∧
    ((after p callers h k).2.link.now ≤ time → (after p callers h n).2.link.now ≤ time)

variable {p : SessionPolicy} {callers : List Acquisition} {h : Hub} {i : Nat} {a u u' : Acquisition}
  {time : Nat} {reason : CancelReason} {n : Nat}

/-- Whoever negotiates goes on with it, or is through. -/
theorem Goes.still_negotiating {h h' : Hub} (hg : Goes p u h u' h') (hrun : u'.outcome? = none)
    (hneg : ∃ c v m, u.phase = .negotiating c v m) : ∃ c v m, u'.phase = .negotiating c v m := by
  obtain ⟨c, v, m, hq⟩ := hneg
  cases hg with
  | finds => cases hrun
  | takes => cases hrun
  | fills => cases hrun
  | fails => cases hrun
  | linesUp hp => rw [hp] at hq; cases hq
  | begins => exact ⟨_, _, _, rfl⟩
  | negotiates => exact ⟨_, _, _, rfl⟩

/-- Whoever negotiates looks at its context, from the first step on. -/
theorem Goes.heeds {h h' : Hub} (hg : Goes p u h u' h')
    (hu : ∀ c v m, u.phase = .negotiating c v m → m.Heeds p u.context u.wish.endpoint h.link) :
    ∀ c v m, u'.phase = .negotiating c v m → m.Heeds p u.context u.wish.endpoint h'.link := by
  intro c v m hq
  cases hg with
  | finds => cases hq
  | linesUp => cases hq
  | takes => cases hq
  | fills => cases hq
  | fails => cases hq
  | begins =>
    cases hq
    exact .starting
  | negotiates hp hn =>
    cases hq
    exact (hu _ _ _ hp).goes (Negotiation.goes_of_step hn)

theorem UnderWay.negotiatesAt_iff (hu : UnderWay p callers h i a time reason n u) :
    NegotiatesAt p callers h i n ↔ ∃ c v m, u.phase = .negotiating c v m := by
  refine ⟨fun ⟨w, c, v, m, hw, hp⟩ => ?_, fun ⟨c, v, m, hp⟩ => ⟨u, c, v, m, hu.here, hp⟩⟩
  rw [hu.here] at hw
  cases hw
  exact ⟨c, v, m, hp⟩

/-- What a step of the schedule has to keep for the caller to be under way. -/
theorem UnderWay.next (hu : UnderWay p callers h i a time reason n u)
    (hhere : (after p callers h (n + 1)).1[i]? = some u') (hrun : u'.outcome? = none)
    (hsame : u' = { u with phase := u'.phase })
    (hdue : (after p callers h (n + 1)).2.link.Due a.context time reason)
    (hheeds : ∀ c v m, u'.phase = .negotiating c v m →
      m.Heeds p a.context a.wish.endpoint (after p callers h (n + 1)).2.link)
    (hstill : (∃ c v m, u.phase = .negotiating c v m) → (∃ c v m, u'.phase = .negotiating c v m) ∧
      ((after p callers h n).2.link.now ≤ time → (after p callers h (n + 1)).2.link.now ≤ time)) :
    UnderWay p callers h i a time reason (n + 1) u' := by
  refine ⟨hhere, hrun, hsame.trans (by rw [hu.same]), hdue, hheeds, fun k hk hneg => ?_⟩
  rcases Nat.lt_or_eq_of_le hk with hlt | rfl
  · obtain ⟨hneg', hprompt⟩ := hu.stays k (Nat.le_of_lt_succ hlt) hneg
    obtain ⟨⟨c, v, m, hp⟩, hnow⟩ := hstill (hu.negotiatesAt_iff.mp hneg')
    exact ⟨⟨u', c, v, m, hhere, hp⟩, hnow ∘ hprompt⟩
  · exact ⟨hneg, id⟩

/-- A step of the schedule with which the caller goes on, but is not through. -/
theorem UnderWay.go (hu : UnderWay p callers h i a time reason n u)
    (hg : Goes p u (after p callers h n).2 u' (after p callers h (n + 1)).2)
    (hhere : (after p callers h (n + 1)).1[i]? = some u') (hrun : u'.outcome? = none) :
    UnderWay p callers h i a time reason (n + 1) u' := by
  have hsame := hg.sameTime
  have hheeds := hg.heeds (by rw [hu.same]; exact hu.heeds)
  rw [hu.same] at hheeds
  exact hu.next hhere hrun hg.eq_with_phase (hsame.due hu.due) hheeds fun hneg =>
    ⟨hg.still_negotiating hrun hneg, fun hle => by rw [hsame.now]; exact hle⟩

/-- A step of another caller. -/
theorem UnderWay.other (hu : UnderWay p callers h i a time reason n u)
    (hhere : (after p callers h (n + 1)).1[i]? = some u)
    (hsame : Link.SameTime (after p callers h n).2.link (after p callers h (n + 1)).2.link) :
    UnderWay p callers h i a time reason (n + 1) u :=
  hu.next hhere hu.running rfl (hsame.due hu.due) (fun c v m hp => (hu.heeds c v m hp).congr hsame)
    fun hneg => ⟨hneg, fun hle => by rw [hsame.now]; exact hle⟩

/-- A move of the clock, while all wait. It stops where the context is done of a caller that negotiates,
    since the call that is under way looks at it. -/
theorem UnderWay.clock (hu : UnderWay p callers h i a time reason n u) {t : Nat}
    (hmove : after p callers h (n + 1) = ((after p callers h n).1,
      { (after p callers h n).2 with link := (after p callers h n).2.link.arrive t }))
    (hwait : u.step p (after p callers h n).2 = none) (hwake : ∀ w, u.wake = some w → t ≤ w)
    (hplan : ∀ d, (after p callers h n).2.link.nextCancellation = some d → t ≤ d)
    (hwhole : u.hasPanicked = false) : UnderWay p callers h i a time reason (n + 1) u := by
  have hlink : (after p callers h (n + 1)).2.link = (after p callers h n).2.link.arrive t := by
    rw [hmove]
  refine hu.next (by rw [hmove]; exact hu.here) hu.running rfl (hlink ▸ hu.due.arrive hplan)
    (fun c v m hp => ?_) fun ⟨c, v, m, hp⟩ => ⟨⟨c, v, m, hp⟩, fun hle => ?_⟩
  · obtain ⟨hrun, hs⟩ := step_eq_none_of_negotiating hp hwait
    obtain ⟨-, -, -, -, -, hheeds⟩ := (hu.heeds c v m hp).waits hrun hs
    exact hheeds _
  · obtain ⟨hrun, hs⟩ := step_eq_none_of_negotiating hp hwait
    obtain ⟨call, hq, hctx, hout, hcs, -⟩ := (hu.heeds c v m hp).waits hrun hs
    simp only [hasPanicked, hp, Negotiation.hasPanicked, hq] at hwhole
    have hcall := Call.isOver_eq_false_iff.mpr ⟨hout, hwhole⟩
    obtain ⟨-, -, -, -, hcheck, -⟩ := Call.waits_of_step_eq_none hcs hcall
    have hahead : ¬ (after p callers h n).2.link.IsDone a.context := fun hd => hd (hctx ▸ hcheck)
    obtain ⟨wake, hwk, hline⟩ := Call.wake_of_step_eq_none hcs hcall
    have huw : u.wake = some wake := by
      simp only [Acquisition.wake, hp, Negotiation.wake, hq, hwk]
    rw [hlink]
    exact ((hu.due.foretells hahead).arrive hahead hplan fun d hd =>
      Nat.le_trans (hwake wake huw) (hline d (hctx ▸ hd))).now_le

/-- Each step of the schedule leaves the caller under way or is the step with which it is through. -/
theorem UnderWay.succ (hu : UnderWay p callers h i a time reason n u)
    (hwhole : u.hasPanicked = false) :
    (∃ u', UnderWay p callers h i a time reason (n + 1) u') ∨
    (∃ u' outcome, Goes p u (after p callers h n).2 u' (after p callers h (n + 1)).2 ∧
      (after p callers h (n + 1)).1[i]? = some u' ∧ u'.phase = .finished outcome) := by
  have hmem : u ∈ (after p callers h n).1 := List.mem_of_getElem? hu.here
  have htick := after_succ p callers h n
  rcases tick_cases p (after p callers h n).1 (after p callers h n).2 with
    hrest | ⟨j, v, v', hj, hg, hset⟩ | ⟨t, hmove, hwait, hwake, hplan⟩
  · have hsame : after p callers h (n + 1) = after p callers h n := htick.trans hrest
    exact Or.inl ⟨u, hu.other (by rw [hsame]; exact hu.here) (by rw [hsame]; exact ⟨rfl, rfl, rfl⟩)⟩
  · rw [← htick] at hg hset
    by_cases hij : j = i
    · subst hij
      rw [hu.here] at hj
      cases hj
      have hhere : (after p callers h (n + 1)).1[j]? = some v' := by
        rw [hset, List.getElem?_set_self (List.getElem?_eq_some_iff.mp hu.here).1]
      cases hrun : v'.outcome? with
      | none => exact Or.inl ⟨v', hu.go hg hhere hrun⟩
      | some outcome =>
        refine Or.inr ⟨v', outcome, hg, hhere, ?_⟩
        rw [outcome?] at hrun
        split at hrun
        · cases hrun; assumption
        · cases hrun
    · have hhere : (after p callers h (n + 1)).1[i]? = some u := by
        rw [hset, List.getElem?_set_ne hij, hu.here]
      exact Or.inl ⟨u, hu.other hhere hg.sameTime⟩
  · exact Or.inl ⟨u, hu.clock (htick.trans hmove) (hwait u hmem) (hwake u hmem) hplan hwhole⟩

/-- The caller is through at some step, and up to it was under way. -/
theorem exists_through (ho : (Lobby.ofCallers callers h).Orderly)
    (hwhole : ∀ n, ∀ b ∈ (after p callers h n).1, b.hasPanicked = false)
    (hu : UnderWay p callers h i a time reason 0 a) :
    ∃ n u u' outcome, UnderWay p callers h i a time reason n u ∧
      Goes p u (after p callers h n).2 u' (after p callers h (n + 1)).2 ∧
      (after p callers h (n + 1)).1[i]? = some u' ∧ u'.phase = .finished outcome := by
  have hstep : ∀ n, (∃ u, UnderWay p callers h i a time reason n u) ∨
      ∃ n u u' outcome, UnderWay p callers h i a time reason n u ∧
        Goes p u (after p callers h n).2 u' (after p callers h (n + 1)).2 ∧
        (after p callers h (n + 1)).1[i]? = some u' ∧ u'.phase = .finished outcome := by
    intro n
    induction n with
    | zero => exact Or.inl ⟨a, hu⟩
    | succ n ih =>
      rcases ih with ⟨u, hu⟩ | hthrough
      · rcases hu.succ (hwhole n u (List.mem_of_getElem? hu.here)) with
          hgo | ⟨u', outcome, hg, hhere, hover⟩
        · exact Or.inl hgo
        · exact Or.inr ⟨n, u, u', outcome, hu, hg, hhere, hover⟩
      · exact Or.inr hthrough
  obtain ⟨n, hn⟩ := run_ends ho hwhole
  rcases hstep n with ⟨u, hu⟩ | hthrough
  · exact absurd hu.running (hn u (List.mem_of_getElem? hu.here))
  · exact hthrough

/-- Whoever is through with a step has found a session, or has negotiated. -/
theorem Goes.of_finished {h' : Hub} (hg : Goes p u h u' h') {outcome : Except Error Session}
    (ho : u'.phase = .finished outcome) :
    ((∀ c v m, u.phase ≠ .negotiating c v m) ∧ ∃ s, outcome = .ok s) ∨
    ∃ c v m, u.phase = .negotiating c v m ∧ m.outcome? = some outcome := by
  cases hg with
  | finds hp =>
    cases ho
    refine Or.inl ⟨fun c v m hq => ?_, _, rfl⟩
    rw [hp] at hq
    cases hq
  | takes hp =>
    cases ho
    refine Or.inl ⟨fun c v m hq => ?_, _, rfl⟩
    rw [hp] at hq
    cases hq
  | linesUp => cases ho
  | begins => cases ho
  | negotiates => cases ho
  | fills hp hm =>
    cases ho
    exact Or.inr ⟨_, _, _, hp, hm⟩
  | fails hp hm =>
    cases ho
    exact Or.inr ⟨_, _, _, hp, hm⟩

/-- How long a caller waits whose context is done before it is through, among callers none of whose
    negotiations panics. It is always through at some step. It is so at the very instant at which its
    context is done, with an error that says so, just if no version is named and its turn to negotiate
    has come no later than that. If its turn comes later, it has waited past that instant and fails then;
    and if its turn never comes, it is given the session that somebody else has made, whenever that
    is. -/
theorem waiting_exact (p : SessionPolicy) (callers : List Acquisition) (h : Hub)
    (ho : (Lobby.ofCallers callers h).Orderly)
    (hwhole : ∀ k, ∀ b ∈ (after p callers h k).1, b.hasPanicked = false)
    (i : Nat) (a : Acquisition) (time : Nat)
    (reason : CancelReason) (hi : callers[i]? = some a) (ha : a.phase = .entering)
    (hf : h.link.Foretells a.context time reason) :
    ∃ n u outcome, (after p callers h n).1[i]? = some u ∧ u.outcome? = none ∧
      (after p callers h (n + 1)).1[i]? = some { a with phase := .finished outcome } ∧
      (after p callers h (n + 1)).2.link.now = (after p callers h n).2.link.now ∧
      ((after p callers h n).2.link.IsDone a.context →
        time ≤ (after p callers h n).2.link.now ∧
        (((after p callers h n).2.link.now = time ∧
            ∃ r, outcome = .error (.api a.wish.endpoint none (.cancelled r))) ↔
          p.explicit = none ∧ ∃ k, k ≤ n ∧ NegotiatesAt p callers h i k ∧
            (after p callers h k).2.link.now ≤ time) ∧
        (p.explicit = none → (∃ k, k ≤ n ∧ NegotiatesAt p callers h i k) →
          (∀ k, k ≤ n → NegotiatesAt p callers h i k → time < (after p callers h k).2.link.now) →
          time < (after p callers h n).2.link.now ∧
            ∃ r, outcome = .error (.api a.wish.endpoint none (.cancelled r))) ∧
        ((∀ k, k ≤ n → ¬ NegotiatesAt p callers h i k) → ∃ s, outcome = .ok s)) := by
  have hstart : UnderWay p callers h i a time reason 0 a := by
    refine ⟨hi, by rw [outcome?, ha], rfl, hf.due, fun c v m hp => ?_, fun k hk hneg => ?_⟩
    · rw [ha] at hp
      cases hp
    · obtain rfl := Nat.le_zero.mp hk
      exact ⟨hneg, id⟩
  obtain ⟨n, u, u', outcome, hu, hg, hhere, hover⟩ := exists_through ho hwhole hstart
  have hthrough : u' = { a with phase := .finished outcome } := by
    rw [hg.eq_with_phase, hu.same, hover]
  refine ⟨n, u, outcome, hu.here, hu.running, by rw [hhere, hthrough], hg.sameTime.now, fun hd => ?_⟩
  have hle := hu.due.le_now hd
  -- whoever negotiates in the end has looked at its context
  have hnegotiated : NegotiatesAt p callers h i n →
      (p.explicit = none ∧ ∃ r, outcome = .error (.api a.wish.endpoint none (.cancelled r))) ∨
      (p.explicit ≠ none ∧ ∀ r, outcome ≠ .error (.api a.wish.endpoint none (.cancelled r))) := by
    intro hneg
    obtain ⟨c, v, m, hp⟩ := hu.negotiatesAt_iff.mp hneg
    rcases hg.of_finished hover with ⟨hnot, -⟩ | ⟨c', v', m', hp', hm⟩
    · exact absurd hp (hnot c v m)
    · exact (hu.heeds c' v' m' hp').outcome_of_done hm hd
  have hother : ¬ NegotiatesAt p callers h i n → ∃ s, outcome = .ok s := by
    intro hnot
    rcases hg.of_finished hover with ⟨-, hs⟩ | ⟨c, v, m, hp, -⟩
    · exact hs
    · exact absurd (hu.negotiatesAt_iff.mpr ⟨c, v, m, hp⟩) hnot
  refine ⟨hle, ⟨?_, ?_⟩, ?_, fun hnever => hother (hnever n (Nat.le_refl n))⟩
  · rintro ⟨hnow, r, rfl⟩
    by_cases hneg : NegotiatesAt p callers h i n
    · rcases hnegotiated hneg with ⟨he, -⟩ | ⟨-, hnot⟩
      · exact ⟨he, n, Nat.le_refl n, hneg, Nat.le_of_eq hnow⟩
      · exact absurd rfl (hnot r)
    · obtain ⟨s, hs⟩ := hother hneg
      cases hs
  · rintro ⟨he, k, hk, hneg, hkle⟩
    obtain ⟨hstill, hprompt⟩ := hu.stays k hk hneg
    refine ⟨Nat.le_antisymm (hprompt hkle) hle, ?_⟩
    rcases hnegotiated hstill with ⟨-, hr⟩ | ⟨hnamed, -⟩
    · exact hr
    · exact absurd he hnamed
  · rintro he ⟨k, hk, hneg⟩ hlate
    obtain ⟨hstill, -⟩ := hu.stays k hk hneg
    refine ⟨hlate n (Nat.le_refl n) hstill, ?_⟩
    rcases hnegotiated hstill with ⟨-, hr⟩ | ⟨hnamed, -⟩
    · exact hr
    · exact absurd he hnamed

/-- A server that takes a while to say what it runs. -/
def slowHub : Hub :=
  { link := { server := { Lobby.openServer with
      discovery := Lobby.openServer.discovery.map fun d => { d with latency := 100 } } } }

/-- Somebody who wants a session, and somebody who wants it soon. -/
def calm : Acquisition := { context := { token := 0 }, wish := .any "http://slurm.test" }

def hurried : Acquisition :=
  { context := { token := 0, deadline := some 50 }, wish := .any "http://slurm.test" }

theorem orderly_slowHub {callers : List Acquisition} (hp : ∀ a ∈ callers, a.phase = .entering) :
    (Lobby.ofCallers callers slowHub).Orderly :=
  Lobby.orderly_ofCallers _ hp

theorem foretells_hurried : slowHub.link.Foretells hurried.context 50 .deadlineExceeded :=
  Or.inl ⟨by decide +kernel, by decide +kernel⟩

theorem entering_hurried_calm : ∀ a ∈ [hurried, calm], a.phase = .entering := by
  intro a ha
  simp only [List.mem_cons, List.not_mem_nil, or_false] at ha
  rcases ha with rfl | rfl <;> rfl

/-- The one that is in a hurry comes first. It negotiates, and is through at its deadline. -/
theorem waiting_exact_hurried :
    (Lobby.ofCallers [hurried, calm] slowHub).Orderly ∧
    (∀ k, ∀ b ∈ (after {} [hurried, calm] slowHub k).1, b.hasPanicked = false) ∧
    [hurried, calm][0]? = some hurried ∧ hurried.phase = .entering ∧
    slowHub.link.Foretells hurried.context 50 .deadlineExceeded ∧
    ∃ r, (after {} [hurried, calm] slowHub 10).1[0]? = some { hurried with
        phase := .finished (.error (.api "http://slurm.test" none (.cancelled r))) } ∧
      (after {} [hurried, calm] slowHub 10).2.link.now = 50 := by
  have ho := orderly_slowHub entering_hurried_calm
  have hwhole : ∀ k, ∀ b ∈ (after {} [hurried, calm] slowHub k).1, b.hasPanicked = false := by
    have hdraw : ({} : RetryPolicy).draws .one = true := by decide +kernel
    refine hasPanicked_run (CallPolicy.rest?_ne_none (by decide +kernel) (Or.inr fun _ => hdraw)) ?_
    intro b hb
    rw [hasPanicked, entering_hurried_calm b hb]
  refine ⟨ho, hwhole, rfl, rfl, foretells_hurried, ?_⟩
  obtain ⟨n, u, outcome, hhere, hrun, hthrough, hnow, hexact⟩ :=
    waiting_exact {} [hurried, calm] slowHub ho hwhole 0 hurried 50 .deadlineExceeded rfl rfl
      foretells_hurried
  -- it is through with the tenth step
  have hnine : ((after {} [hurried, calm] slowHub 9).1[0]?.bind outcome?).isNone = true := by
    decide +kernel
  have hten : ((after {} [hurried, calm] slowHub 10).1[0]?.bind outcome?).isSome = true := by
    decide +kernel
  obtain rfl : n = 9 := by
    rcases Nat.lt_trichotomy n 9 with hlt | heq | hgt
    · have hover := finished_after hthrough nofun (9 - (n + 1))
      rw [Nat.add_sub_cancel' hlt] at hover
      rw [hover] at hnine
      cases hnine
    · exact heq
    · obtain ⟨w, hw⟩ : ∃ w, (after {} [hurried, calm] slowHub 10).1[0]? = some w :=
        Option.isSome_iff_exists.mp (Option.isSome_of_isSome_bind hten)
      rw [hw] at hten
      have hsome : w.outcome? ≠ none := fun hn => by rw [Option.bind_some, hn] at hten; cases hten
      have hover := finished_after hw hsome (n - 10)
      rw [Nat.add_sub_cancel' hgt, hhere] at hover
      cases hover
      exact absurd hrun hsome
  have hturn : NegotiatesAt {} [hurried, calm] slowHub 0 2 := ⟨_, _, _, _, rfl, rfl⟩
  have hdone : (after {} [hurried, calm] slowHub 9).2.link.IsDone hurried.context := by decide +kernel
  obtain ⟨hfifty, r, rfl⟩ := (hexact hdone).2.1.mpr
    ⟨rfl, 2, by decide, hturn, by decide +kernel⟩
  exact ⟨r, hthrough, hnow.trans hfifty⟩

/-- The one that is in a hurry comes second. It waits past its deadline for the session that the first
    one makes, and takes it. -/
theorem waits_past_deadline :
    let late := after {} [calm, hurried] slowHub 9
    let through := after {} [calm, hurried] slowHub 11
    slowHub.link.Foretells hurried.context 50 .deadlineExceeded ∧
    late.2.link.now = 100 ∧ late.2.link.IsDone hurried.context ∧
    late.2.table.get? "http://slurm.test" = none ∧ (late.1[1]?.bind outcome?).isNone = true ∧
    through.2.link.now = 100 ∧
    (through.1[1]?.bind outcome?).bind Except.toOption = some Lobby.sharedSession := by
  refine ⟨foretells_hurried, ?_, ?_, ?_, ?_, ?_, ?_⟩ <;> decide +kernel

end Acquisition

end SlurmLink
