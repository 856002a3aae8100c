import SlurmLink.Proofs.Docket
import SlurmLink.Proofs.Healing

/-!
Calls that share the breakers of their endpoints. Pipelines with retries and credentials of their own
send calls over one link, in any order, and the endpoints may be forgotten at any time. A run keeps a
ledger of the permits, and what is in it can be posted (`Pool.posts_afterWith`):

    enter             joined
    advance i         granted i … for the call's endpoint, or returned i … to the breaker it came from
    drop i            lost i …, if the call holds a permit
    clear             cleared

So a breaker is told of nothing but the calls to its endpoint that were admitted since the endpoints were
last forgotten (`Pool.breakers_isolated`): what else the pipelines do cannot be seen from it.
-/

namespace SlurmLink

namespace Pool

variable {config : BreakerConfig} {s : Pool} {x : CallPolicy × PoolEvent}

/-- One event at one of the pipelines, which all have the same breakers. -/
def stepWith (config : BreakerConfig) (s : Pool) (x : CallPolicy × PoolEvent) : Pool :=
  s.step { x.1 with breaker := config } x.2

/-- What comes of a list of events. -/
def afterWith (config : BreakerConfig) (s : Pool) (events : List (CallPolicy × PoolEvent)) : Pool :=
  events.foldl (stepWith config) s

/-- What an event means for the ledger. -/
def entries (config : BreakerConfig) (s : Pool) (x : CallPolicy × PoolEvent) : List PermitEntry :=
  match x.2 with
  | .enter .. => [.joined]
  | .advance i =>
    match s.call? i, (s.stepWith config x).call? i with
    | some c, some c' => c.note i s.link c'
    | _, _ => []
  | .drop i =>
    match (s.call? i).bind Call.admission? with
    | some a => [.lost i a]
    | none => []
  | .outside _ => []
  | .clear => [.cleared]

/-- The ledger of a run. -/
def ledger (config : BreakerConfig) : Pool → List (CallPolicy × PoolEvent) → List PermitEntry
  | _, [] => []
  | s, x :: events => s.entries config x ++ ledger config (s.stepWith config x) events

/-- What the books have to say. -/
def books (s : Pool) (lost : List Admission) : PermitBooks where
  breakers := s.link.breakers
  held := s.calls.map (·.bind Call.admission?)
  lost := lost

theorem held_books_eq_some_iff {lost : List Admission} {i : Nat} {a : Admission} :
    (s.books lost).held[i]? = some (some a) ↔
      ∃ c, s.call? i = some c ∧ c.admission? = some a := by
  simp only [books, List.getElem?_map, Option.map_eq_some_iff, call?_eq_some_iff]
  constructor
  · rintro ⟨y, hy, ha⟩
    obtain ⟨c, rfl, hc⟩ := Option.bind_eq_some_iff.mp ha
    exact ⟨c, hy, hc⟩
  · rintro ⟨c, hc, ha⟩
    exact ⟨some c, hc, ha⟩

/-- Whoever is to go on takes a step, or nothing happens at all. -/
theorem advance_cases (config : BreakerConfig) (s : Pool) (p : CallPolicy) (i : Nat) :
    (∃ c c', s.call? i = some c ∧ (s.stepWith config (p, .advance i)).call? i = some c' ∧
      Call.Goes { p with breaker := config } c s.link c' (s.stepWith config (p, .advance i)).link ∧
      (s.stepWith config (p, .advance i)).calls = s.calls.set i (some c')) ∨
    s.stepWith config (p, .advance i) = s := by
  rcases step_cases { p with breaker := config } s (.advance i) with
    ⟨j, c, c', he, hc, hg, hcalls⟩ | ⟨hnone, -⟩
  · cases he
    have hlt := (List.getElem?_eq_some_iff.mp (call?_eq_some_iff.mp hc)).1
    refine Or.inl ⟨c, c', hc, ?_, hg, hcalls⟩
    rw [call?_eq_some_iff, stepWith, hcalls, List.getElem?_set_self hlt]
  · refine Or.inr ?_
    rw [stepWith, step]
    cases hc : s.call? i with
    | none => rfl
    | some c => simp only [Option.bind_some, hnone i c rfl hc]

/-- Whoever makes no step is as it was. -/
theorem note_self (i : Nat) (l : Link) (c : Call) : c.note i l c = [] := by
  rw [Call.note]
  cases c.admission? <;> rfl

theorem posts_advance (p : CallPolicy) (i : Nat) (lost : List Admission) :
    (s.entries config (p, .advance i)).foldlM (PermitBooks.post config) (s.books lost) =
      some ((s.stepWith config (p, .advance i)).books lost) := by
  rcases advance_cases config s p i with ⟨c, c', hc, hc', hg, hcalls⟩ | hsame
  · have hheld : (s.books lost).held[i]? = some c.admission? := by
      rw [books, List.getElem?_map, call?_eq_some_iff.mp hc]
      rfl
    have hpost := (hg.posted_note (b := s.books lost) rfl hheld).1
    simp only [entries, hc, hc']
    refine hpost.trans ?_
    rw [books, books, hcalls, List.map_set]
    rfl
  · have hempty : s.entries config (p, .advance i) = [] := by
      simp only [entries, hsame]
      cases s.call? i with
      | none => rfl
      | some c => exact note_self i s.link c
    rw [hempty, hsame]
    rfl

/-- Whoever is dropped loses its permit. -/
theorem posts_drop (p : CallPolicy) (i : Nat) (lost : List Admission) :
    ∃ lost', (s.entries config (p, .drop i)).foldlM (PermitBooks.post config) (s.books lost) =
      some ((s.stepWith config (p, .drop i)).books lost') := by
  have hafter : ∀ lost', (s.stepWith config (p, .drop i)).books lost' =
      { s.books lost' with held := (s.books lost').held.set i none } := by
    intro lost'
    rw [books, books, stepWith, step, List.map_set]
    rfl
  simp only [entries]
  cases ha : (s.call? i).bind Call.admission? with
  | some a =>
    have hheld : (s.books lost).held[i]? = some (some a) :=
      held_books_eq_some_iff.mpr (Option.bind_eq_some_iff.mp ha)
    refine ⟨lost ++ [a], ?_⟩
    simp only [List.foldlM_cons, List.foldlM_nil, PermitBooks.post, hheld, if_true, hafter]
    rfl
  | none =>
    refine ⟨lost, ?_⟩
    have hkeep : (s.books lost).held.set i none = (s.books lost).held := by
      refine List.ext_getElem? fun j => ?_
      rw [List.getElem?_set]
      by_cases hj : i = j
      · subst hj
        rw [if_pos rfl]
        split
        · next hlt =>
          have hnone : (s.books lost).held[i] = none := by
            refine Option.eq_none_iff_forall_ne_some.mpr fun a he => ?_
            have := held_books_eq_some_iff.mp ((List.getElem?_eq_getElem hlt).trans (congrArg some he))
            obtain ⟨c, hc, hca⟩ := this
            rw [hc, Option.bind_some, hca] at ha
            cases ha
          rw [List.getElem?_eq_getElem hlt, hnone]
        · next hlt => rw [List.getElem?_eq_none (Nat.le_of_not_lt hlt)]
      · rw [if_neg hj]
    rw [hafter, hkeep]
    rfl

/-- What an event means for the ledger can be posted. -/
theorem posts_stepWith (config : BreakerConfig) (s : Pool) (x : CallPolicy × PoolEvent)
    (lost : List Admission) :
    ∃ lost', (s.entries config x).foldlM (PermitBooks.post config) (s.books lost) =
      some ((s.stepWith config x).books lost') := by
  obtain ⟨p, e⟩ := x
  cases e with
  | advance i => exact ⟨lost, posts_advance p i lost⟩
  | drop i => exact posts_drop p i lost
  | clear => exact ⟨lost, rfl⟩
  | outside e =>
    have hsame : (s.stepWith config (p, .outside e)).books lost = s.books lost := by
      simp only [books, stepWith, step, LinkEvent.breakers_apply]
    exact ⟨lost, congrArg some hsame.symm⟩
  | enter context endpoint request =>
    refine ⟨lost, ?_⟩
    simp only [entries, List.foldlM_cons, List.foldlM_nil, PermitBooks.post, books, stepWith, step,
      List.map_append, List.map_cons, List.map_nil]
    rfl

theorem posts_afterWith (config : BreakerConfig) : ∀ (events : List (CallPolicy × PoolEvent))
    (s : Pool) (lost : List Admission), ∃ lost',
      (ledger config s events).foldlM (PermitBooks.post config) (s.books lost) =
        some ((s.afterWith config events).books lost')
  | [], s, lost => ⟨lost, rfl⟩
  | x :: events, s, lost => by
    obtain ⟨lost₁, hstep⟩ := posts_stepWith config s x lost
    obtain ⟨lost₂, hrest⟩ := posts_afterWith config events (s.stepWith config x) lost₁
    refine ⟨lost₂, ?_⟩
    rw [ledger, List.foldlM_append, hstep]
    exact hrest

/-! ### Who has which permit -/

/-- The entry with which a call was granted its permit. -/
def Granted (log : List PermitEntry) (i : Nat) (c : Call) (a : Admission) : Prop :=
  ∃ time, .granted i time c.endpoint a ∈ log

/-- A call has had its permit before an event, or is granted it with the event. -/
theorem admission?_stepWith {i : Nat} {c' : Call} {a : Admission}
    (hc' : (s.stepWith config x).call? i = some c') (ha : c'.admission? = some a) :
    (∃ c, s.call? i = some c ∧ c.endpoint = c'.endpoint ∧ c.admission? = some a) ∨
      Granted (s.entries config x) i c' a := by
  obtain ⟨p, e⟩ := x
  cases e with
  | outside e => exact Or.inl ⟨c', hc', rfl, ha⟩
  | clear => exact Or.inl ⟨c', hc', rfl, ha⟩
  | drop j =>
    refine Or.inl ⟨c', ?_, rfl, ha⟩
    rw [call?_eq_some_iff] at hc' ⊢
    simp only [stepWith, step, List.getElem?_set] at hc'
    split at hc'
    · split at hc' <;> cases hc'
    · exact hc'
  | enter context endpoint request =>
    refine Or.inl ⟨c', ?_, rfl, ha⟩
    rw [call?_eq_some_iff] at hc' ⊢
    simp only [stepWith, step, List.getElem?_append] at hc'
    split at hc'
    · exact hc'
    · rw [List.getElem?_singleton] at hc'
      split at hc'
      · cases hc'
        cases ha
      · cases hc'
  | advance j =>
    rcases advance_cases config s p j with ⟨c, c₁, hc, hc₁, hg, hcalls⟩ | hsame
    · by_cases hj : j = i
      · subst hj
        obtain rfl : c' = c₁ := Option.some.inj (hc'.symm.trans hc₁)
        have hend : c.endpoint = c'.endpoint := by rw [hg.eq_with_phase]
        cases hca : c.admission? with
        | none =>
          refine Or.inr ⟨s.link.now, ?_⟩
          simp only [entries, hc, hc', Call.note, hca, ha]
          exact List.mem_singleton.mpr rfl
        | some b =>
          refine Or.inl ⟨c, hc, hend, ?_⟩
          cases hg.permitUse with
          | keeps hh => rw [← hh, ha]
          | takes hn => rw [hca] at hn; cases hn
          | gives _ ho => rw [Call.admission?, ho] at ha; cases ha
      · refine Or.inl ⟨c', ?_, rfl, ha⟩
        rwa [call?, hcalls, List.getElem?_set_ne hj] at hc'
    · exact Or.inl ⟨c', by rw [← hc', hsame], rfl, ha⟩

theorem granted_afterWith : ∀ (events : List (CallPolicy × PoolEvent)) (s : Pool) {i : Nat}
    {c' : Call} {a : Admission}, (s.afterWith config events).call? i = some c' →
      c'.admission? = some a →
        (∃ c, s.call? i = some c ∧ c.endpoint = c'.endpoint ∧ c.admission? = some a) ∨
          Granted (ledger config s events) i c' a
  | [], s, i, c', a, hc', ha => Or.inl ⟨c', hc', rfl, ha⟩
  | x :: events, s, i, c', a, hc', ha => by
    rcases granted_afterWith events (s.stepWith config x) hc' ha with
      ⟨c₁, hc₁, he₁, ha₁⟩ | ⟨time, hmem⟩
    · rcases admission?_stepWith hc₁ ha₁ with ⟨c, hc, he, hca⟩ | ⟨time, hmem⟩
      · exact Or.inl ⟨c, hc, he.trans he₁, hca⟩
      · exact Or.inr ⟨time, List.mem_append_left _ (he₁ ▸ hmem)⟩
    · exact Or.inr ⟨time, List.mem_append_right _ hmem⟩

/-- A breaker changes only when a call gives it back the permit that it has from it, or is granted one
    by it. -/
theorem breaker_stepWith_cases {id : Nat} (h : (s.stepWith config x).breaker id ≠ s.breaker id) :
    ∃ i c a, x.2 = .advance i ∧ s.call? i = some c ∧ a.breaker = id ∧
      (c.admission? = some a ∨
        c.admission? = none ∧ s.entries config x = [.granted i s.link.now c.endpoint a]) := by
  obtain ⟨p, e⟩ := x
  rcases step_cases { p with breaker := config } s e with ⟨i, c, c', rfl, hc, hg, hcalls⟩ | ⟨-, hsame⟩
  · have hlt := (List.getElem?_eq_some_iff.mp (call?_eq_some_iff.mp hc)).1
    have hc' : (s.stepWith config (p, .advance i)).call? i = some c' := by
      rw [call?_eq_some_iff, stepWith, hcalls, List.getElem?_set_self hlt]
    cases hg.permitUse with
    | keeps _ hb => exact absurd (congrArg (Breakers.cell · id) hb) h
    | @gives a outcome hh ho hb =>
      refine ⟨i, c, a, rfl, hc, ?_, Or.inl hh⟩
      by_contra hne
      refine h (Eq.trans (congrArg (Breakers.cell · id) hb) ?_)
      rw [Breakers.cell_modify, if_neg fun he => hne he.1.symm]
      rfl
    | @takes a hn hh hb =>
      refine ⟨i, c, a, rfl, hc, ?_, Or.inr ⟨hn, ?_⟩⟩
      · by_contra hne
        refine h (((Breakers.acquire_granted hb).2 id).trans ?_)
        rw [if_neg fun he => hne he.symm]
        rfl
      · have hend : c'.endpoint = c.endpoint := by rw [hg.eq_with_phase]
        simp only [entries, hc, hc', Call.note, hn, hh, hend]
  · exact absurd (hsame id) h

/-- The breaker of an endpoint changes only when the endpoints are forgotten, or with a step of a call to
    it that has no permit yet or has one from just that breaker. -/
theorem get?_stepWith_cases (hi : s.link.breakers.Indexed) {endpoint : String}
    (h : (s.stepWith config x).link.breakers.get? endpoint ≠ s.link.breakers.get? endpoint) :
    x.2 = .clear ∨ ∃ i c, x.2 = .advance i ∧ s.call? i = some c ∧
      (c.endpoint = endpoint ∧ c.admission? = none ∨
        ∃ a, c.admission? = some a ∧ s.link.breakers.find? endpoint = some a.breaker) := by
  obtain ⟨p, e⟩ := x
  cases e with
  | clear => exact Or.inl rfl
  | enter => exact absurd rfl h
  | drop => exact absurd rfl h
  | outside e => exact absurd (congrArg (Breakers.get? · endpoint) (e.breakers_apply s.link)) h
  | advance i =>
    rcases advance_cases config s p i with ⟨c, c', hc, -, hg, -⟩ | hsame
    · refine Or.inr ⟨i, c, rfl, hc, ?_⟩
      cases hg.permitUse with
      | keeps _ hb => exact absurd (congrArg (Breakers.get? · endpoint) hb) h
      | takes hn _ hb =>
        refine Or.inl ⟨?_, hn⟩
        by_contra hne
        refine h (Eq.trans ?_ (hi.get?_acquire_of_ne config s.link.now hne))
        exact congrArg (Breakers.get? · endpoint) (congrArg Prod.snd hb).symm
      | @gives a _ hh _ hb =>
        refine Or.inr ⟨a, hh, ?_⟩
        by_contra hne
        exact h ((congrArg (Breakers.get? · endpoint) hb).trans (hi.get?_modify_of_ne _ hne))
    · exact absurd (by rw [hsame]) h

/-- Breakers are kept apart, whatever pipelines send calls to whatever endpoints, in whatever order these
    go on, are dropped, and the endpoints are forgotten. The breaker of an endpoint is what the docket of
    the endpoint makes of a new one: the permits granted for it since the endpoints were last forgotten,
    and what came back of just these. Two permits come from one breaker exactly if they are for one
    endpoint and nothing was forgotten in between. So the breaker of an endpoint changes only when it is
    forgotten, or with a step of a call to that endpoint that has yet to be admitted or was admitted since
    the endpoints were last forgotten; and no breaker there is, or has been, changes but with a step of a
    call that it has admitted or admits with that step. -/
theorem breakers_isolated (config : BreakerConfig) (link : Link)
    (events : List (CallPolicy × PoolEvent)) :
    let s₀ : Pool := { link := { link with breakers := {} } }
    let s := s₀.afterWith config events
    let log := s₀.ledger config events
    (∀ endpoint, s.link.breakers.get? endpoint =
      Breaker.ofNotices config (Docket.ofLedger endpoint log).notices) ∧
    (∀ before i t e a between j t' e' b rest,
      log = before ++ .granted i t e a :: (between ++ .granted j t' e' b :: rest) →
        (a.breaker = b.breaker ↔ e = e' ∧ .cleared ∉ between)) ∧
    (∀ x endpoint,
      (s.stepWith config x).link.breakers.get? endpoint ≠ s.link.breakers.get? endpoint →
        x.2 = .clear ∨ ∃ i c, x.2 = .advance i ∧ s.call? i = some c ∧ c.endpoint = endpoint ∧
          (c.admission? = none ∨ ∃ before t a rest, c.admission? = some a ∧
            log = before ++ .granted i t endpoint a :: rest ∧ .cleared ∉ rest)) ∧
    ∀ x id, (s.stepWith config x).breaker id ≠ s.breaker id →
      ∃ i c a, x.2 = .advance i ∧ s.call? i = some c ∧ a.breaker = id ∧
        (c.admission? = some a ∧ Granted log i c a ∨
          c.admission? = none ∧ s.entries config x = [.granted i s.link.now c.endpoint a]) := by
  intro s₀ s log
  obtain ⟨lost, hpost⟩ := posts_afterWith config events s₀ []
  have hnew : (s₀.books []).breakers.Indexed := Breakers.indexed_of_index rfl
  have hindexed : s.link.breakers.Indexed := PermitBooks.indexed_foldlM hnew hpost
  have hgranted : ∀ i c a, s.call? i = some c → c.admission? = some a → Granted log i c a := by
    intro i c a hc ha
    rcases granted_afterWith events s₀ hc ha with ⟨c₀, hc₀, -⟩ | hlog
    · cases hc₀
    · exact hlog
  refine ⟨fun endpoint => ?_, fun before i t e a between j t' e' b rest hlog => ?_,
    fun x endpoint hx => ?_, fun x id hx => ?_⟩
  · exact ((PermitBooks.matches_new config endpoint []).foldlM hpost).get?_eq
  · rw [show s₀.ledger config events = _ from hlog] at hpost
    exact PermitBooks.breaker_eq_iff hnew hpost
  · rcases get?_stepWith_cases hindexed hx with hclear | ⟨i, c, he, hc, ⟨hend, hn⟩ | ⟨a, ha, hf⟩⟩
    · exact Or.inl hclear
    · exact Or.inr ⟨i, c, he, hc, hend, Or.inl hn⟩
    · obtain ⟨t, hmem⟩ := hgranted i c a hc ha
      obtain ⟨before, rest, hlog⟩ := List.append_of_mem hmem
      rw [show s₀.ledger config events = _ from hlog] at hpost
      have howns : s.link.breakers.Owns a.breaker _ := PermitBooks.owns_granted hnew hpost
      have howner := (howns.find?_iff endpoint).mp hf
      split at howner
      · cases howner
      · next hkept =>
        obtain rfl := Option.some.inj howner
        exact Or.inr ⟨i, c, he, hc, rfl, Or.inr ⟨before, t, a, rest, ha, hlog, hkept⟩⟩
  · obtain ⟨i, c, a, he, hc, hid, ha | hadmits⟩ := breaker_stepWith_cases hx
    · exact ⟨i, c, a, he, hc, hid, Or.inl ⟨ha, hgranted i c a hc ha⟩⟩
    · exact ⟨i, c, a, he, hc, hid, Or.inr hadmits⟩

/-- A call is admitted, the endpoints are forgotten, and a call of another pipeline to the same endpoint
    is admitted before the first one has got its answer. -/
def straddlingCalls : List (CallPolicy × PoolEvent) :=
  [(patientPolicy, ping), (patientPolicy, .advance 0), (patientPolicy, .advance 0),
    (patientPolicy, .clear), (forgetfulPolicy, ping), (forgetfulPolicy, .advance 1)]

/-- The failure of the first call is noted by the breaker that has admitted it. The endpoint has another
    one by then, which knows of nothing but the second call. -/
theorem breakers_isolated_straddling :
    let config := patientPolicy.breaker
    let s := clumsyPool.afterWith config straddlingCalls
    let s' := s.stepWith config (patientPolicy, .advance 0)
    (s'.breaker 0 ≠ s.breaker 0 ∧ ∃ c a, s.call? 0 = some c ∧ a.breaker = 0 ∧
      c.admission? = some a ∧ Granted (clumsyPool.ledger config straddlingCalls) 0 c a) ∧
    s.link.breakers.get? "ping" = Breaker.ofNotices config [.admitted 0 .normal] := by
  intro config s s'
  obtain ⟨hdocket, -, -, hframe⟩ := breakers_isolated config clumsyPool.link straddlingCalls
  have hnotices : (Docket.ofLedger "ping" (clumsyPool.ledger config straddlingCalls)).notices =
      [.admitted 0 .normal] := by decide +kernel
  have hchanges : s'.breaker 0 ≠ s.breaker 0 := by decide +kernel
  have hheld : ((s.call? 0).bind Call.admission?).isSome = true := by decide +kernel
  refine ⟨⟨hchanges, ?_⟩, hnotices ▸ hdocket "ping"⟩
  obtain ⟨i, c, a, he, hc, hid, ⟨ha, hlog⟩ | ⟨hn, -⟩⟩ := hframe (patientPolicy, .advance 0) 0 hchanges
  · cases he
    exact ⟨c, a, hc, hid, ha, hlog⟩
  · cases he
    rw [show s.call? 0 = some c from hc, Option.bind_some, hn] at hheld
    cases hheld

end Pool

end SlurmLink
