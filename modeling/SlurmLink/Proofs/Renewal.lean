import SlurmLink.Client
import SlurmLink.Proofs.Succession

/-!
Renewals of the session of one client, which take their steps in any order. Each starts from the session
that is current then, gets a newer one, and makes that the current one when it returns. Those that start
from one session share the one that replaces it, but they need not return together:

    first     from 0 ──────▶ 1 returned
    second    from 0 ─────────────────────────────────▶ 1 returned
    third                         from 1 ──▶ 2 returned
    current   0              1               2          1

So the second one has put back the session that the third one has replaced. `current_eq_newest_iff` says
that this is the only way in which the current session can be another one than the cached one.
-/

namespace SlurmLink

/-- An entry of the record of renewals. -/
inductive RenewalEntry where
  | started (renewal : Nat) (stale : Session)
  | returned (renewal : Nat) (s : Session)
  deriving DecidableEq, Repr

namespace Renewal

variable {p : SessionPolicy} {r r' : Renewal} {c c' : Client}

/-- What the next step of a renewal means for the record. -/
def note (i : Nat) (r : Renewal) (c : Client) : List RenewalEntry :=
  match r.phase with
  | .starting => [.started i c.current]
  | .acquiring a =>
    match a.outcome? with
    | some (.ok s) => [.returned i s]
    | _ => []
  | .finished _ => []

/-- The renewal has returned with a new session. -/
def Succeeded (r : Renewal) : Prop := ∃ v, r.phase = .finished (.ok v)

instance (r : Renewal) : Decidable r.Succeeded :=
  match h : r.phase with
  | .finished (.ok v) => isTrue ⟨v, h⟩
  | .finished (.error _) => isFalse fun ⟨_, hv⟩ => by rw [h] at hv; cases hv
  | .starting => isFalse fun ⟨_, hv⟩ => by rw [h] at hv; cases hv
  | .acquiring _ => isFalse fun ⟨_, hv⟩ => by rw [h] at hv; cases hv

/-- The steps of a renewal. -/
inductive Goes (p : SessionPolicy) (r : Renewal) (c : Client) : Renewal → Client → Prop where
  | starts (hp : r.phase = .starting) : Goes p r c
      { r with phase := .acquiring { context := r.context, wish := .other c.current } } c
  | acquires {a a' : Acquisition} {hub : Hub} (hp : r.phase = .acquiring a)
      (hs : a.step p c.hub = some (a', hub)) :
      Goes p r c { r with phase := .acquiring a' } { c with hub }
  | returns {a : Acquisition} {s : Session} (hp : r.phase = .acquiring a)
      (ho : a.outcome? = some (.ok s)) :
      Goes p r c { r with phase := .finished (.ok s.apiVersion) } { c with current := s }
  | fails {a : Acquisition} {e : Error} (hp : r.phase = .acquiring a)
      (ho : a.outcome? = some (.error e)) :
      Goes p r c { r with phase := .finished (.error e) } c

theorem goes_of_step (hs : r.step p c = some (r', c')) : Goes p r c r' c' := by
  rw [step] at hs
  cases hp : r.phase with
  | starting =>
    rw [hp] at hs
    cases hs
    exact .starts hp
  | finished outcome =>
    rw [hp] at hs
    cases hs
  | acquiring a =>
    rw [hp] at hs
    simp only at hs
    cases ho : a.outcome? with
    | none =>
      rw [ho] at hs
      obtain ⟨x, hx, he⟩ := Option.map_eq_some_iff.mp hs
      cases he
      exact .acquires hp hx
    | some outcome =>
      rw [ho] at hs
      cases outcome with
      | ok s =>
        cases hs
        exact .returns hp ho
      | error e =>
        cases hs
        exact .fails hp ho

end Renewal

/-- What can happen while the session of a client is renewed. -/
inductive RenewalEvent where
  /-- Somebody starts to renew the session that is current. -/
  | start (context : Context)
  /-- A renewal makes one step, if it can. -/
  | advance (renewal : Nat)
  /-- Anything else happens at the link, where sessions may be made but are never unmade. -/
  | meanwhile (link : Link)

/-- A client and the renewals of its session, in the order in which they have started. -/
structure Renewals where
  client : Client
  renewals : List Renewal := []
  record : List RenewalEntry := []

namespace Renewals

/-- A renewal makes one step, if it can. -/
def advance (p : SessionPolicy) (s : Renewals) (i : Nat) (r : Renewal) : Renewals :=
  match r.step p s.client with
  | none => s
  | some (r', client) =>
    { client, renewals := s.renewals.set i r', record := s.record ++ r.note i s.client }

/-- One event. -/
def step (p : SessionPolicy) (s : Renewals) : RenewalEvent → Renewals
  | .start context =>
    advance p { s with renewals := s.renewals ++ [({ context } : Renewal)] } s.renewals.length
      { context }
  | .advance i =>
    match s.renewals[i]? with
    | none => s
    | some r => s.advance p i r
  | .meanwhile link =>
    { s with client.hub.link :=
      { link with sessions := max s.client.hub.link.sessions link.sessions } }

/-- What comes of a list of events. -/
def after (p : SessionPolicy) (s : Renewals) (events : List RenewalEvent) : Renewals :=
  events.foldl (step p) s

end Renewals

/-- A renewal that has come as far as an acquisition. -/
inductive Renewal.Serves (record : List RenewalEntry) (i : Nat) (a : Acquisition) : Renewal → Prop where
  | under {r : Renewal} (hp : r.phase = .acquiring a) : Serves record i a r
  | succeeded {r : Renewal} {y : Session} (ho : a.outcome? = some (.ok y))
      (hp : r.phase = .finished (.ok y.apiVersion)) (hr : .returned i y ∈ record) : Serves record i a r
  | failed {r : Renewal} {e : Error} (ho : a.outcome? = some (.error e))
      (hp : r.phase = .finished (.error e)) : Serves record i a r

theorem Renewal.Serves.mono {record more : List RenewalEntry} {i : Nat} {a : Acquisition} {r : Renewal}
    (h : r.Serves record i a) : r.Serves (record ++ more) i a := by
  cases h with
  | under hp => exact .under hp
  | succeeded ho hp hr => exact .succeeded ho hp (List.mem_append_left _ hr)
  | failed ho hp => exact .failed ho hp

namespace Renewals

variable {p : SessionPolicy} {s : Renewals} {l : Lobby} {first : Session} {i : Nat} {r : Renewal}

/-- The renewals as callers of a lobby to which the one has come first with which the client was
    connected. -/
structure Follows (first : Session) (s : Renewals) (l : Lobby) : Prop where
  tidy : l.Tidy
  hub_eq : l.hub = s.client.hub
  length_eq : l.callers.length = s.renewals.length + 1
  opened : ∃ a, l.caller? 0 = some a ∧ a.outcome? = some (.ok first) ∧ ∀ stale, a.wish ≠ .other stale
  serves : ∀ i r, s.renewals[i]? = some r →
    ∃ a, l.caller? (i + 1) = some a ∧ r.Serves s.record i a
  started : ∀ i stale, .started i stale ∈ s.record →
    ∃ a, l.caller? (i + 1) = some a ∧ a.wish = .other stale
  wishes : ∀ i a, l.caller? (i + 1) = some a →
    ∃ stale, a.wish = .other stale ∧ .started i stale ∈ s.record
  returned : ∀ i y, .returned i y ∈ s.record →
    ∃ a, l.caller? (i + 1) = some a ∧ a.outcome? = some (.ok y)
  /-- All sessions are of one endpoint. -/
  home : ∀ i a, l.caller? i = some a → a.wish.endpoint = first.endpoint
  current : (s.client.current = first ∧ ∀ i y, .returned i y ∉ s.record) ∨
    ∃ i, .returned i s.client.current ∈ s.record

/-- The current session is one that somebody has been given. -/
theorem Follows.exists_caller (h : Follows first s l) :
    ∃ i a, l.caller? i = some a ∧ a.outcome? = some (.ok s.client.current) := by
  rcases h.current with ⟨hfirst, -⟩ | ⟨i, hi⟩
  · obtain ⟨a, ha, ho, -⟩ := h.opened
    exact ⟨0, a, ha, hfirst ▸ ho⟩
  · obtain ⟨a, ha, ho⟩ := h.returned i _ hi
    exact ⟨i + 1, a, ha, ho⟩

theorem Follows.endpoint_eq (h : Follows first s l) {a : Acquisition} {y : Session}
    (ha : l.caller? i = some a) (ho : a.outcome? = some (.ok y)) : y.endpoint = first.endpoint :=
  (h.tidy.traced.answered i a y ha ho).1.trans (h.home i a ha)

theorem step_start (p : SessionPolicy) (s : Renewals) (context : Context) :
    s.step p (.start context) =
      { s with
        renewals := s.renewals ++
          [{ context, phase := .acquiring { context, wish := .other s.client.current } }]
        record := s.record ++ [.started s.renewals.length s.client.current] } := by
  simp only [step, advance, Renewal.step, Renewal.note, List.set_append_right _ _ (Nat.le_refl _),
    Nat.sub_self, List.set_cons_zero]

/-- Whoever starts comes to the lobby, and wants another session than the current one. -/
theorem Follows.start (h : Follows first s l) (context : Context) :
    Follows first (s.step p (.start context))
      (l.step p (.want context (.other s.client.current))) := by
  let a : Acquisition := { context, wish := .other s.client.current }
  have hx : l.Alters l.callers.length (some a) (l.step p (.want context (.other s.client.current))) :=
    Lobby.alters_want l a rfl
  rw [h.length_eq] at hx
  obtain ⟨j, b, hb, hob⟩ := h.exists_caller
  have hold : ∀ i x, l.caller? i = some x →
      (l.step p (.want context (.other s.client.current))).caller? i = some x := by
    intro i x hi
    rw [hx i, if_neg, hi]
    have := Lobby.lt_length hi
    have := h.length_eq
    omega
  rw [step_start]
  refine ⟨h.tidy.step (fun i => nofun) ?_, h.hub_eq, ?_, ?_, fun i r hi => ?_, fun i stale hs => ?_,
    fun i x hi => ?_, fun i y hy => ?_, fun i x hi => ?_, ?_⟩
  · rintro context' stale ⟨⟩
    exact (h.tidy.traced.answered j b _ hb hob).2
  · simp only [Lobby.step, List.length_append, List.length_singleton, h.length_eq]
  · obtain ⟨x, hi, ho, hw⟩ := h.opened
    exact ⟨x, hold 0 x hi, ho, hw⟩
  · rcases Nat.lt_or_ge i s.renewals.length with hlt | hge
    · rw [List.getElem?_append_left hlt] at hi
      obtain ⟨x, hx, hserves⟩ := h.serves i r hi
      exact ⟨x, hold _ x hx, hserves.mono⟩
    · rw [List.getElem?_append_right hge, List.getElem?_singleton] at hi
      split at hi
      · cases hi
        exact ⟨a, by rw [hx, if_pos (by omega)], .under rfl⟩
      · cases hi
  · rcases List.mem_append.mp hs with hs | hs
    · obtain ⟨x, hi, hw⟩ := h.started i stale hs
      exact ⟨x, hold _ x hi, hw⟩
    · cases List.mem_singleton.mp hs
      exact ⟨a, by rw [hx, if_pos rfl], rfl⟩
  · rw [hx] at hi
    split at hi
    · next he =>
      cases hi
      refine ⟨_, rfl, List.mem_append_right _ ?_⟩
      rw [Nat.succ.inj he]
      exact List.mem_singleton.mpr rfl
    · obtain ⟨stale, hw, hs⟩ := h.wishes i x hi
      exact ⟨stale, hw, List.mem_append_left _ hs⟩
  · rcases List.mem_append.mp hy with hy | hy
    · obtain ⟨x, hi, ho⟩ := h.returned i y hy
      exact ⟨x, hold _ x hi, ho⟩
    · cases List.mem_singleton.mp hy
  · rw [hx i] at hi
    split at hi
    · cases hi
      exact h.endpoint_eq hb hob
    · exact h.home i x hi
  · rcases h.current with ⟨hfirst, hnobody⟩ | ⟨i, hi⟩
    · refine Or.inl ⟨hfirst, fun i y hy => ?_⟩
      rcases List.mem_append.mp hy with hy | hy
      · exact hnobody i y hy
      · cases List.mem_singleton.mp hy
    · exact Or.inr ⟨i, List.mem_append_left _ hi⟩

/-- Whoever is there has started. -/
theorem Follows.ne_starting (h : Follows first s l) (hi : s.renewals[i]? = some r) :
    r.phase ≠ .starting := by
  obtain ⟨a, -, hserves⟩ := h.serves i r hi
  cases hserves with
  | under hp => rw [hp]; nofun
  | succeeded _ hp => rw [hp]; nofun
  | failed _ hp => rw [hp]; nofun

/-- A renewal that has not returned has come as far as its acquisition. -/
theorem Follows.caller?_eq (h : Follows first s l) (hi : s.renewals[i]? = some r) {a : Acquisition}
    (hp : r.phase = .acquiring a) : l.caller? (i + 1) = some a := by
  obtain ⟨b, hb, hserves⟩ := h.serves i r hi
  cases hserves with
  | under hq =>
    rw [hp] at hq
    cases hq
    exact hb
  | succeeded _ hq =>
    rw [hp] at hq
    cases hq
  | failed _ hq =>
    rw [hp] at hq
    cases hq

theorem eq_or_of_getElem?_set {renewals : List Renewal} {i j : Nat} {r x : Renewal}
    (h : (renewals.set i r)[j]? = some x) : (i = j ∧ r = x) ∨ (i ≠ j ∧ renewals[j]? = some x) := by
  rw [List.getElem?_set] at h
  split at h
  · next he =>
    split at h
    · exact Or.inl ⟨he, Option.some.inj h⟩
    · cases h
  · next he => exact Or.inr ⟨he, h⟩

/-- A renewal returns, which nobody in the lobby notices. -/
theorem Follows.ends (h : Follows first s l) {r' : Renewal} {new : List RenewalEntry}
    {client : Client} (hhub : client.hub = s.client.hub) {a : Acquisition} (ha : l.caller? (i + 1) = some a) (hserves : r'.Serves (s.record ++ new) i a)
    (hnew : ∀ x ∈ new, ∃ y, x = .returned i y ∧ a.outcome? = some (.ok y))
    (hcurrent : (client.current = s.client.current ∧ new = []) ∨
      .returned i client.current ∈ new) :
    Follows first { client, renewals := s.renewals.set i r', record := s.record ++ new } l := by
  refine ⟨h.tidy, h.hub_eq.trans hhub.symm, ?_, h.opened, fun j x hj => ?_, fun j stale hs => ?_,
    fun j b hb => ?_, fun j y hy => ?_, h.home, ?_⟩
  · rw [List.length_set, h.length_eq]
  · rcases eq_or_of_getElem?_set hj with ⟨rfl, rfl⟩ | ⟨-, hj⟩
    · exact ⟨a, ha, hserves⟩
    · obtain ⟨b, hb, hx⟩ := h.serves j x hj
      exact ⟨b, hb, hx.mono⟩
  · rcases List.mem_append.mp hs with hs | hs
    · exact h.started j stale hs
    · obtain ⟨y, hy, -⟩ := hnew _ hs
      cases hy
  · obtain ⟨stale, hw, hs⟩ := h.wishes j b hb
    exact ⟨stale, hw, List.mem_append_left _ hs⟩
  · rcases List.mem_append.mp hy with hy | hy
    · exact h.returned j y hy
    · obtain ⟨z, hz, ho⟩ := hnew _ hy
      cases hz
      exact ⟨a, ha, ho⟩
  · rcases hcurrent with ⟨hsame, rfl⟩ | hmem
    · rw [List.append_nil, hsame]
      exact h.current
    · exact Or.inr ⟨i, List.mem_append_right _ hmem⟩

/-- A renewal that goes on does so in the lobby. -/
theorem Follows.goes (h : Follows first s l) (hi : s.renewals[i]? = some r) {a a' : Acquisition}
    {hub : Hub} (hp : r.phase = .acquiring a) (hs : a.step p s.client.hub = some (a', hub)) :
    Follows first
      { s with
        client := { s.client with hub }
        renewals := s.renewals.set i { r with phase := .acquiring a' } }
      (l.step p (.advance (i + 1))) := by
  have ha := h.caller?_eq hi hp
  have hs' : a.step p l.hub = some (a', hub) := by rw [h.hub_eq, hs]
  have hg := Acquisition.goes_of_step hs
  have hwish : a'.wish = a.wish := by rw [hg.eq_with_phase]
  obtain ⟨hhub, hx, -⟩ := Lobby.goes_step ha hs'
  refine ⟨h.tidy.move trivial, hhub, ?_, ?_, fun j x hj => ?_, fun j stale hs => ?_,
    fun j x hj => ?_, fun j y hy => ?_, fun j x hj => ?_, h.current⟩
  · rw [Lobby.step_advance ha hs', List.length_set, List.length_set, h.length_eq]
  · obtain ⟨x, h0, ho, hw⟩ := h.opened
    exact ⟨x, by rw [hx, if_neg (Nat.succ_ne_zero i).symm, h0], ho, hw⟩
  · rcases eq_or_of_getElem?_set hj with ⟨rfl, rfl⟩ | ⟨he, hj⟩
    · exact ⟨a', by rw [hx, if_pos rfl], .under rfl⟩
    · obtain ⟨b, hb, hserves⟩ := h.serves j x hj
      exact ⟨b, by rw [hx, if_neg (by omega), hb], hserves⟩
  · obtain ⟨b, hb, hw⟩ := h.started j stale hs
    rw [hx]
    split
    · next he =>
      rw [he, ha] at hb
      cases hb
      exact ⟨a', rfl, hwish.trans hw⟩
    · exact ⟨b, hb, hw⟩
  · rw [hx] at hj
    split at hj
    · next he =>
      cases hj
      rw [Nat.succ.inj he, hwish]
      exact h.wishes i a ha
    · exact h.wishes j x hj
  · obtain ⟨b, hb, ho⟩ := h.returned j y hy
    refine ⟨b, ?_, ho⟩
    rw [hx, if_neg, hb]
    intro he
    rw [he, ha] at hb
    cases hb
    rw [hg.outcome?_eq_none] at ho
    cases ho
  · rw [hx] at hj
    split at hj
    · cases hj
      rw [hwish]
      exact h.home _ a ha
    · exact h.home j x hj

theorem Follows.advance (h : Follows first s l) (hi : s.renewals[i]? = some r) :
    ∃ l', Follows first (s.advance p i r) l' := by
  rw [Renewals.advance]
  cases hs : r.step p s.client with
  | none => exact ⟨l, h⟩
  | some x =>
    obtain ⟨r', client⟩ := x
    simp only
    cases Renewal.goes_of_step hs with
    | starts hp => exact absurd hp (h.ne_starting hi)
    | acquires hp hsa =>
      have hnote : r.note i s.client = [] := by
        simp only [Renewal.note, hp, (Acquisition.goes_of_step hsa).outcome?_eq_none]
      rw [hnote, List.append_nil]
      exact ⟨_, h.goes hi hp hsa⟩
    | @returns a y hp ho =>
      have hnote : r.note i s.client = [.returned i y] := by simp only [Renewal.note, hp, ho]
      rw [hnote]
      refine ⟨l, h.ends rfl (h.caller?_eq hi hp) (.succeeded ho rfl (by simp)) ?_
        (Or.inr (List.mem_singleton.mpr rfl))⟩
      intro x hx
      exact ⟨y, List.mem_singleton.mp hx, ho⟩
    | fails hp ho =>
      have hnote : r.note i s.client = [] := by simp only [Renewal.note, hp, ho]
      rw [hnote]
      exact ⟨l, h.ends rfl (h.caller?_eq hi hp) (.failed ho rfl) nofun (Or.inl ⟨rfl, rfl⟩)⟩

/-- Every event among renewals is one in the lobby, or none. -/
theorem Follows.step (h : Follows first s l) (e : RenewalEvent) :
    ∃ l', Follows first (s.step p e) l' := by
  cases e with
  | start context => exact ⟨_, h.start context⟩
  | advance i =>
    rw [Renewals.step]
    cases hi : s.renewals[i]? with
    | none => exact ⟨l, h⟩
    | some r => exact h.advance hi
  | meanwhile link =>
    refine ⟨l.step p (.meanwhile link), h.tidy.move trivial, ?_, h.length_eq, h.opened, h.serves,
      h.started, h.wishes, h.returned, h.home, h.current⟩
    rw [Lobby.step, Renewals.step, h.hub_eq]

theorem Follows.after (h : Follows first s l) (events : List RenewalEvent) :
    ∃ l', Follows first (s.after p events) l' := by
  induction events generalizing s l with
  | nil => exact ⟨l, h⟩
  | cons e events ih =>
    obtain ⟨l', h'⟩ := h.step (p := p) e
    exact ih h'

/-- A client that has just connected. -/
theorem exists_follows_connect (c : ClientSetup) (fuel : Nat) (context : Context) (link : Link)
    (hc : (c.connect fuel context { link }).1 = some (.ok first)) :
    first.endpoint = c.config.endpoint ∧ ∃ l, Follows first
      { client := { hub := (c.connect fuel context { link }).2, current := first } } l := by
  unfold ClientSetup.connect at hc ⊢
  cases hv : c.config.validate with
  | error e =>
    rw [hv] at hc
    cases hc
  | ok =>
    rw [hv] at hc
    obtain ⟨l, htidy, hhub, hcallers, hw⟩ :=
      Lobby.exists_tidy_runOne c.sessionPolicy context c.config.endpoint link fuel
    have hcaller := Lobby.caller?_of_callers hcallers
    have hnobody : ∀ i, l.caller? (i + 1) = none := fun i => hcaller (i + 1)
    have he : first.endpoint = c.config.endpoint :=
      (htidy.traced.answered 0 _ first (hcaller 0) hc).1.trans (by rw [hw]; rfl)
    refine ⟨he, l, htidy, hhub, ?_, ⟨_, hcaller 0, hc, fun stale => ?_⟩, fun i r hi => ?_,
      fun i stale hs => ?_, fun i b hb => ?_, fun i y hy => ?_, fun i b hb => ?_,
      Or.inl ⟨rfl, fun i y hy => ?_⟩⟩
    · rw [hcallers]
      rfl
    · rw [hw]
      nofun
    · cases hi
    · cases hs
    · rw [hnobody i] at hb
      cases hb
    · cases hy
    · cases i with
      | zero =>
        rw [hcaller 0] at hb
        cases hb
        rw [hw, he]
        rfl
      | succ i =>
        rw [hnobody i] at hb
        cases hb
    · cases hy

/-- Once all renewals have succeeded, all in the lobby are through with sessions. -/
theorem Follows.through (h : Follows first s l) (hall : ∀ r ∈ s.renewals, r.Succeeded) (i : Nat)
    (a : Acquisition) (ha : l.caller? i = some a) :
    ∃ y, a.outcome? = some (.ok y) ∧ (y = first ∧ i = 0 ∨ ∃ j, i = j + 1 ∧ .returned j y ∈ s.record) := by
  cases i with
  | zero =>
    obtain ⟨b, hb, ho, -⟩ := h.opened
    rw [ha] at hb
    cases hb
    exact ⟨first, ho, Or.inl ⟨rfl, rfl⟩⟩
  | succ j =>
    have hlt : j < s.renewals.length := by
      have := Lobby.lt_length ha
      have := h.length_eq
      omega
    obtain ⟨b, hb, hserves⟩ := h.serves j s.renewals[j] (List.getElem?_eq_getElem hlt)
    rw [ha] at hb
    cases hb
    obtain ⟨v, hv⟩ := hall _ (List.getElem_mem hlt)
    cases hserves with
    | under hp =>
      rw [hv] at hp
      cases hp
    | failed _ hp =>
      rw [hv] at hp
      cases hp
    | succeeded ho _ hr => exact ⟨_, ho, Or.inr ⟨j, rfl, hr⟩⟩

/-- Whoever has returned has done so with a newer session than it has started from. -/
theorem Follows.serial_lt (h : Follows first s l) {stale y : Session}
    (hs : .started i stale ∈ s.record) (hy : .returned i y ∈ s.record) : stale.serial < y.serial := by
  obtain ⟨a, ha, hw⟩ := h.started i stale hs
  obtain ⟨b, hb, ho⟩ := h.returned i y hy
  rw [ha] at hb
  cases hb
  obtain ⟨-, -, -, -, -, -, hlt⟩ := h.tidy.serial_lt ha hw ho
  exact hlt

/-- Once all have succeeded, the current session is the cached one just if nobody has started from it. -/
theorem Follows.get?_current_iff (h : Follows first s l)
    (hover : ∀ i a, l.caller? i = some a → ∃ y, a.outcome? = some (.ok y)) :
    l.table.get? first.endpoint = some s.client.current ↔
      ∀ i, .started i s.client.current ∉ s.record := by
  obtain ⟨k, b, hb, hcurrent⟩ := h.exists_caller
  obtain ⟨d, hd⟩ := (h.tidy.traced.answered k b _ hb hcurrent).2
  rw [← h.endpoint_eq hb hcurrent, h.tidy.get?_eq_iff hover hd]
  refine ⟨fun hnobody i hs => ?_, fun hnobody i a ha hw => ?_⟩
  · obtain ⟨a, ha, hw⟩ := h.started i _ hs
    exact hnobody (i + 1) a ha hw
  · cases i with
    | zero =>
      obtain ⟨a', ha', -, hany⟩ := h.opened
      rw [ha] at ha'
      cases ha'
      exact hany _ hw
    | succ i =>
      obtain ⟨stale, hw', hs⟩ := h.wishes i a ha
      rw [hw] at hw'
      cases hw'
      exact hnobody i hs

/-- If all have started from the first session, nobody has started from the current one. -/
theorem Follows.not_started_current (h : Follows first s l) (hall : ∀ r ∈ s.renewals, r.Succeeded)
    (hsame : ∀ i stale, .started i stale ∈ s.record → stale = first) (i : Nat) :
    .started i s.client.current ∉ s.record := by
  intro hs
  rcases h.current with ⟨-, hnobody⟩ | ⟨k, hk⟩
  · obtain ⟨a, ha, -⟩ := h.started i _ hs
    obtain ⟨y, -, ⟨-, hzero⟩ | ⟨m, -, hm⟩⟩ := h.through hall (i + 1) a ha
    · cases hzero
    · exact hnobody m y hm
  · -- the current session is one that somebody has returned with, and so newer than the first one
    obtain ⟨a, ha, -⟩ := h.returned k _ hk
    obtain ⟨stale, -, hstale⟩ := h.wishes k a ha
    have hlt := h.serial_lt hstale hk
    rw [hsame k stale hstale, hsame i _ hs] at hlt
    exact Nat.lt_irrefl _ hlt

/-- Renewals of the session of a client that has just connected, in any order, when all of them have
    succeeded. One of the sessions is the cached one, and it is the newest of all that they have
    returned with. It is also the current session of the client just if nobody has started to renew the
    session that is current now. So it is if all have started from the session with which the client was
    connected. But if somebody has, the current session is outdated, and somebody who was slow has put
    it back. -/
theorem current_eq_newest_iff (c : ClientSetup) (fuel : Nat) (context : Context) (link : Link)
    (first : Session) (events : List RenewalEvent) :
    let connected := c.connect fuel context { link }
    let s := after c.sessionPolicy { client := { hub := connected.2, current := first } } events
    connected.1 = some (.ok first) → (∀ r ∈ s.renewals, r.Succeeded) →
      ∃ newest, s.client.hub.table.get? c.config.endpoint = some newest ∧
        (newest = first ∨ ∃ i, .returned i newest ∈ s.record) ∧
        (∀ i y, .returned i y ∈ s.record → y.serial ≤ newest.serial) ∧
        (∀ i stale y, .started i stale ∈ s.record → .returned i y ∈ s.record →
          stale.serial < y.serial) ∧
        (s.client.current = newest ↔ ∀ i, .started i s.client.current ∉ s.record) ∧
        ((∀ i stale, .started i stale ∈ s.record → stale = first) → s.client.current = newest) := by
  intro connected s hc hall
  obtain ⟨he, l₀, h₀⟩ := exists_follows_connect c fuel context link hc
  obtain ⟨l, h⟩ : ∃ l, Follows first s l := h₀.after events
  have hthrough := h.through hall
  have hover : ∀ i a, l.caller? i = some a → ∃ y, a.outcome? = some (.ok y) := fun i a ha => by
    obtain ⟨y, hy, -⟩ := hthrough i a ha
    exact ⟨y, hy⟩
  obtain ⟨a, ha, hfirst, -⟩ := h.opened
  obtain ⟨newest, hget, ⟨j, b, hj, hnewest⟩, hmax⟩ := h.tidy.exists_newest hover ha hfirst
  have htable : l.table = s.client.hub.table := congrArg Hub.table h.hub_eq
  have hexact : s.client.current = newest ↔ ∀ i, .started i s.client.current ∉ s.record := by
    rw [← h.get?_current_iff hover, hget, Option.some.injEq, eq_comm]
  refine ⟨newest, by rw [← htable, ← he, hget], ?_, fun i y hy => ?_, fun i stale y => h.serial_lt,
    hexact, fun hsame => hexact.mpr (h.not_started_current hall hsame)⟩
  · obtain ⟨y, hy, hwho⟩ := hthrough j b hj
    rw [hnewest] at hy
    cases hy
    rcases hwho with ⟨hy, -⟩ | ⟨k, -, hk⟩
    · exact Or.inl hy
    · exact Or.inr ⟨k, hk⟩
  · obtain ⟨x, hx, ho⟩ := h.returned i y hy
    exact hmax (i + 1) x y hx ho (h.endpoint_eq hx ho)

/-- A client of a server that says at once what it runs. -/
def openSetup : ClientSetup := { config := { baseUrl := "http://slurm.test" } }

/-- That client as soon as it has connected. -/
def openClient : Renewals :=
  { client :=
    { hub := (openSetup.connect 20 { token := 0 } { link := { server := Lobby.openServer } }).2
      current := Lobby.sharedSession } }

theorem connect_openSetup :
    (openSetup.connect 20 { token := 0 } { link := { server := Lobby.openServer } }).1 =
      some (.ok Lobby.sharedSession) := by
  have hof : ∀ o : Option (Except Error Session), o.bind Except.toOption = some Lobby.sharedSession →
      o = some (.ok Lobby.sharedSession) := by
    rintro (_ | _ | s) h <;> cases h
    rfl
  exact hof _ (by decide +kernel)

/-- Two start at once, and the second one returns after the first. -/
def bothAtOnce : List RenewalEvent :=
  let start := RenewalEvent.start { token := 0 }
  [start, start, .advance 0, .advance 1] ++ List.replicate 9 (.advance 0) ++
    List.replicate 2 (.advance 1)

/-- So the current session is the one that they share. -/
theorem current_eq_newest_both :
    let s := openClient.after openSetup.sessionPolicy bothAtOnce
    (∀ r ∈ s.renewals, r.Succeeded) ∧ s.client.current = { Lobby.sharedSession with serial := 1 } ∧
    s.client.hub.table.get? openSetup.config.endpoint = some s.client.current := by
  intro s
  obtain ⟨hall, hcurrent, hrecord⟩ : (∀ r ∈ s.renewals, r.Succeeded) ∧
      s.client.current = { Lobby.sharedSession with serial := 1 } ∧
      s.record = [.started 0 Lobby.sharedSession, .started 1 Lobby.sharedSession,
        .returned 0 { Lobby.sharedSession with serial := 1 },
        .returned 1 { Lobby.sharedSession with serial := 1 }] := by decide +kernel
  have hstarted : ∀ i stale, .started i stale ∈ s.record → stale = Lobby.sharedSession := by
    intro i stale hs
    simp only [hrecord, List.mem_cons, RenewalEntry.started.injEq, reduceCtorEq, List.not_mem_nil,
      or_false] at hs
    rcases hs with ⟨-, h⟩ | ⟨-, h⟩ <;> exact h
  obtain ⟨newest, hget, -, -, -, -, hsame⟩ := current_eq_newest_iff openSetup 20 { token := 0 }
    { server := Lobby.openServer } Lobby.sharedSession bothAtOnce connect_openSetup hall
  exact ⟨hall, hcurrent, hget.trans (congrArg some (hsame hstarted).symm)⟩

/-- The second one is slow. Before it returns, a third one starts from the session that the first one
    has returned with, and returns with another one. -/
def oneIsSlow : List RenewalEvent :=
  let start := RenewalEvent.start { token := 0 }
  [start, start, .advance 0, .advance 1] ++ List.replicate 9 (.advance 0) ++
    start :: List.replicate 10 (.advance 2) ++ List.replicate 2 (.advance 1)

/-- Then the second one puts an outdated session back, although all have succeeded. -/
theorem outdated_session_back :
    let s := openClient.after openSetup.sessionPolicy oneIsSlow
    (∀ r ∈ s.renewals, r.Succeeded) ∧ s.renewals.length = 3 ∧
    s.client.hub.table.get? openSetup.config.endpoint =
      some { Lobby.sharedSession with serial := 2 } ∧
    s.client.current = { Lobby.sharedSession with serial := 1 } := by
  decide +kernel

end Renewals

end SlurmLink
