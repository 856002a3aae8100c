import SlurmLink.Proofs.AcquisitionRun
import SlurmLink.Proofs.Freshness

/-!
Which sessions come after which. As long as nobody gives up, every session of an endpoint but the cached
one has been replaced by somebody who wanted another one than it:

    first ───▶ y ───▶ z            z is cached
      other than first
             other than y

`Lobby.Tidy` collects what is so, whoever comes and whatever the order in which they take their steps.
Once all are through with success, the cached session is the newest of all that they have
(`Lobby.Tidy.exists_newest`), and a session is the cached one just if nobody wanted another than it
(`Lobby.Tidy.get?_eq_iff`).
-/

namespace SlurmLink

namespace Acquisition

variable {p : SessionPolicy} {a a' : Acquisition} {h h' : Hub}

/-- Whoever is through with a session has one of the endpoint that it asked for. -/
theorem Goes.endpoint_eq (hg : Goes p a h a' h') {made : Nat} (ht : h.table.Aged made)
    (hk : h.table.Known) (hr : a.Ready h.table made) {y : Session}
    (hy : a'.outcome? = some (.ok y)) : y.endpoint = a.wish.endpoint := by
  cases hg with
  | finds _ hc hs =>
    cases hy
    have hf := cellOf_spec hk a.wish
    have haged := aged_cellOf ht hk a.wish
    rw [hc] at hf haged
    exact haged.home _ _ y hf.found hs
  | takes hp hs =>
    cases hy
    exact hr.home _ _ y (place?_of_waiting hp) hs
  | fills hp ho =>
    cases hy
    exact (hr.makes _ _ _ y hp ho).2.1
  | linesUp => cases hy
  | begins => cases hy
  | negotiates => cases hy
  | fails => cases hy

/-- The session that somebody is through with is in a cell. -/
theorem Goes.exists_cell (hg : Goes p a h a' h')
    (hlt : ∀ c u, a.place? = some (c, u) → c < h.table.cells.length) {y : Session}
    (hy : a'.outcome? = some (.ok y)) : ∃ c, (h'.table.cell c).session = some y := by
  cases hg with
  | finds _ _ hs =>
    cases hy
    exact ⟨_, hs⟩
  | takes _ hs =>
    cases hy
    exact ⟨_, hs⟩
  | fills hp =>
    cases hy
    exact ⟨_, by rw [SessionTable.session_fill (hlt _ _ (place?_of_negotiating hp)), if_pos rfl]⟩
  | linesUp => cases hy
  | begins => cases hy
  | negotiates => cases hy
  | fails => cases hy

/-- A step puts a session into the cell of a negotiation, or into no cell at all. -/
theorem Goes.session_cases (hg : Goes p a h a' h') (hk : h.table.Known) :
    (∀ d, (h'.table.cell d).session = (h.table.cell d).session) ∨
    ∃ c u n y, a.phase = .negotiating c u n ∧ n.outcome? = some (.ok y) ∧
      h'.table = h.table.fill c y := by
  cases hg with
  | finds _ hc =>
    have hf := (cellOf_spec hk a.wish).steady
    rw [hc] at hf
    exact Or.inl fun d => congrArg SessionCell.session (hf.cell_eq d)
  | linesUp _ hc =>
    have hf := (cellOf_spec hk a.wish).steady
    rw [hc] at hf
    exact Or.inl fun d => (SessionTable.session_lineUp ..).trans
      (congrArg SessionCell.session (hf.cell_eq d))
  | takes => exact Or.inl fun d => rfl
  | begins => exact Or.inl fun d => rfl
  | negotiates => exact Or.inl fun d => rfl
  | fails => exact Or.inl fun d => SessionTable.session_leave ..
  | fills hp ho => exact Or.inr ⟨_, _, _, _, hp, ho, rfl⟩

end Acquisition

theorem LobbyEvent.IsMove.ne_giveUp {e : LobbyEvent} (h : e.IsMove) (i : Nat) : e ≠ .giveUp i := by
  rintro rfl
  cases h

namespace Lobby

variable {p : SessionPolicy} {s : Lobby} {i b : Nat} {a a' : Acquisition} {y : Session}
  {e : LobbyEvent}

/-- How sessions follow one another. -/
structure Traced (s : Lobby) : Prop where
  /-- Whoever is through with a session has one of the right endpoint, which is in a cell. -/
  answered : ∀ i a y, s.caller? i = some a → a.outcome? = some (.ok y) →
    y.endpoint = a.wish.endpoint ∧ ∃ c, (s.table.cell c).session = some y
  /-- Whoever wants another session than an outdated one comes to a later cell. -/
  beyond : ∀ i a stale, s.caller? i = some a → a.wish = .other stale →
    ∃ b, (s.table.cell b).session = some stale ∧
      (a.phase = .entering ∨ ∃ c, b < c ∧ a.BoundTo s.table c)
  /-- There is somebody for every cell that is in use. -/
  attended : ∀ endpoint c, s.table.find? endpoint = some c →
    ∃ i a, s.caller? i = some a ∧ a.BoundTo s.table c
  /-- A cell with a session goes out of use when somebody wants another one. -/
  replaced : ∀ b y, (s.table.cell b).session = some y →
    ∃ c, s.table.find? y.endpoint = some c ∧ (c = b ∨ ∃ i a stale, s.caller? i = some a ∧
      a.wish = .other stale ∧ stale.endpoint = y.endpoint ∧ stale.serial = y.serial)

/-- Where somebody has come from with a turn: it has just come, is as it was, or has taken a step. -/
theorem caller?_step_cases (ha' : (s.step p e).caller? i = some a') :
    (∃ context wish, e = .want context wish ∧ a' = { context, wish }) ∨
    ∃ a, s.caller? i = some a ∧ (a' = a ∨ Acquisition.Goes p a s.hub a' (s.step p e).hub) := by
  cases turn_step p s e with
  | joins he hx =>
    rw [hx i] at ha'
    split at ha'
    · cases ha'
      exact Or.inl ⟨_, _, he, rfl⟩
    · exact Or.inr ⟨a', ha', Or.inl rfl⟩
  | goes _ ha hg hx =>
    rw [hx i] at ha'
    split at ha'
    · next hi =>
      cases ha'
      exact Or.inr ⟨_, hi ▸ ha, Or.inr hg⟩
    · exact Or.inr ⟨a', ha', Or.inl rfl⟩
  | leaves _ _ _ _ hx =>
    rw [hx i] at ha'
    split at ha'
    · cases ha'
    · exact Or.inr ⟨a', ha', Or.inl rfl⟩
  | rests hc =>
    rw [caller?_congr hc] at ha'
    exact Or.inr ⟨a', ha', Or.inl rfl⟩

/-- If nobody gives up, all stay bound to the cells that they were bound to. -/
theorem exists_caller?_step (ho : s.Orderly) (hstay : ∀ i, e ≠ .giveUp i)
    (ha : s.caller? i = some a) : ∃ a', (s.step p e).caller? i = some a' ∧ a'.wish = a.wish ∧
      ∀ c, a.BoundTo s.table c → a'.BoundTo (s.step p e).table c := by
  have hsame : (s.step p e).caller? i = some a → ∃ a', (s.step p e).caller? i = some a' ∧
      a'.wish = a.wish ∧ ∀ c, a.BoundTo s.table c → a'.BoundTo (s.step p e).table c :=
    fun h => ⟨a, h, rfl, fun c hb => hb.mono fun y hy => session_step ho hy e⟩
  cases turn_step p s e with
  | joins _ hx => exact hsame (by rw [hx i, if_neg (Nat.ne_of_lt (lt_length ha)), ha])
  | rests hc => exact hsame (by rw [caller?_congr hc, ha])
  | leaves he => exact absurd he (hstay _)
  | @goes j b b' _ hb hg hx =>
    by_cases hi : i = j
    · subst hi
      rw [ha] at hb
      cases hb
      refine ⟨b', by rw [hx i, if_pos rfl], by rw [hg.eq_with_phase], fun c hbound => ?_⟩
      exact hg.boundTo hbound fun u hq => (ho.seated i a c u ha hq).cell_lt
    · exact hsame (by rw [hx i, if_neg hi, ha])

/-- A session that was in no cell before is in the current cell of its endpoint. -/
theorem session_step_cases (ho : s.Orderly) (ha : s.Aged)
    (hy : ((s.step p e).table.cell b).session = some y) : (s.table.cell b).session = some y ∨
      s.table.find? y.endpoint = some b ∧ (s.step p e).table.find? y.endpoint = some b := by
  cases turn_step p s e with
  | joins _ _ hh =>
    rw [table, hh] at hy
    exact Or.inl hy
  | rests _ ht =>
    rw [ht] at hy
    exact Or.inl hy
  | @leaves i x _ _ _ hh =>
    refine Or.inl ?_
    rw [show (s.step p e).table = _ from (congrArg Hub.table hh).trans (x.table_abandon s.hub)] at hy
    split at hy
    · rwa [SessionTable.session_leave] at hy
    · exact hy
  | @goes i x x' _ hx hg =>
    rcases hg.session_cases ho.lines.known with hsame | ⟨c, u, n, z, hp, hz, hfill⟩
    · rw [table, hsame] at hy
      exact Or.inl hy
    · have hfound := ho.find?_of_negotiating hx hp
      have hsession := SessionTable.session_fill (ho.lines.known _ c hfound) z b
      rw [table, hfill, ← table, hsession] at hy
      split at hy
      · next hb =>
        cases hy
        have he := ((ha.ready i x hx).makes c u n _ hp hz).2.1
        rw [← he, ← hb] at hfound
        exact Or.inr ⟨hfound, by rw [table, hfill]; exact hfound⟩
      · exact Or.inl hy

theorem traced_new (link : Link) : Traced { hub := { link } } := by
  refine ⟨?_, ?_, ?_, ?_⟩
  · intro i a y h
    cases h
  · intro i a stale h
    cases h
  · intro endpoint c h
    cases h
  · intro b y h
    cases h

/-- Somebody bound to the cell stays there, and so does whoever has come to a new one. -/
theorem Traced.attended_step (h : s.Traced) (ho : s.Orderly) (hstay : ∀ i, e ≠ .giveUp i)
    {endpoint : String} {c : Nat} (hf : (s.step p e).table.find? endpoint = some c) :
    ∃ i a, (s.step p e).caller? i = some a ∧ a.BoundTo (s.step p e).table c := by
  have hold : s.table.find? endpoint = some c →
      ∃ i a, (s.step p e).caller? i = some a ∧ a.BoundTo (s.step p e).table c := by
    intro hf
    obtain ⟨i, a, hi, hbound⟩ := h.attended endpoint c hf
    obtain ⟨a', hi', -, hkeep⟩ := exists_caller?_step (p := p) ho hstay hi
    exact ⟨i, a', hi', hkeep c hbound⟩
  rcases (turn_step p s e).find?_cases with hsame | ⟨i, a, he, hi, hp, hfind⟩
  · exact hold (hsame ▸ hf)
  · rcases Acquisition.cellOf_cases ho.lines.known a.wish with ⟨d, hd, -⟩ | ⟨hr, -⟩
    · rw [hfind, hd] at hf
      exact hold hf
    · rw [hfind, hr, SessionTable.find?_renew] at hf
      split at hf
      · -- the cell is new, and is that of the one who has just entered
        obtain ⟨a', hi', -⟩ := exists_caller?_step (p := p) ho hstay hi
        have hbound := (bound_of_entering (p := p) hi hp ho).1.bound a' (he ▸ hi')
        cases hf
        rw [hr, ← he] at hbound
        exact ⟨i, a', hi', hbound⟩
      · exact hold hf

/-- A session stays cached or has been replaced, and with the event that takes its cell out of use
    somebody comes who wants another one. -/
theorem Traced.replaced_step (h : s.Traced) (ho : s.Orderly) (ha : s.Aged)
    (hstay : ∀ i, e ≠ .giveUp i) (hy : ((s.step p e).table.cell b).session = some y) :
    ∃ c, (s.step p e).table.find? y.endpoint = some c ∧
      (c = b ∨ ∃ i a stale, (s.step p e).caller? i = some a ∧ a.wish = .other stale ∧
        stale.endpoint = y.endpoint ∧ stale.serial = y.serial) := by
  rcases session_step_cases ho ha hy with hy | ⟨-, hf⟩
  · obtain ⟨c, hf, hc⟩ := h.replaced b y hy
    have hgone : (∃ i a stale, s.caller? i = some a ∧ a.wish = .other stale ∧
        stale.endpoint = y.endpoint ∧ stale.serial = y.serial) →
        ∃ i a stale, (s.step p e).caller? i = some a ∧ a.wish = .other stale ∧
          stale.endpoint = y.endpoint ∧ stale.serial = y.serial := by
      rintro ⟨i, a, stale, hi, hw, hsame⟩
      obtain ⟨a', hi', hw', -⟩ := exists_caller?_step (p := p) ho hstay hi
      exact ⟨i, a', stale, hi', hw'.trans hw, hsame⟩
    rcases find?_step (p := p) ho hf e with hkept | ⟨z, ⟨i, a, d, he, hi, hp, hz⟩, hsession⟩
    · exact ⟨c, hkept, hc.imp id hgone⟩
    · obtain ⟨d', -, hd'⟩ := le_find?_after (p := p) ho hf [e]
      refine ⟨d', hd', Or.inr (hgone ?_)⟩
      rcases hc with rfl | hgone
      · rw [hy] at hsession
        cases hsession
        obtain ⟨stale, hw, hfound, hd, hserial⟩ := hz
        exact ⟨i, a, stale, hi, hw, (ha.numbered.home _ d y hfound hd).symm, hserial.symm⟩
      · exact hgone
  · exact ⟨b, hf, Or.inl rfl⟩

/-- Whatever happens, as long as nobody gives up and all who want another session than one have seen
    that one. -/
theorem Traced.step (h : s.Traced) (ho : s.Orderly) (ha : s.Aged) (hstay : ∀ i, e ≠ .giveUp i)
    (hwant : ∀ context stale, e = .want context (.other stale) →
      ∃ b, (s.table.cell b).session = some stale) : (s.step p e).Traced := by
  refine ⟨fun i a' y ha' hy => ?_, fun i a' stale ha' hw => ?_,
    fun endpoint c hf => h.attended_step ho hstay hf,
    fun b y hy => h.replaced_step ho ha hstay hy⟩
  · rcases caller?_step_cases ha' with ⟨context, wish, -, rfl⟩ | ⟨a, hi, rfl | hg⟩
    · cases hy
    · obtain ⟨he, c, hc⟩ := h.answered i a' y hi hy
      exact ⟨he, c, session_step ho hc e⟩
    · have hwish : a'.wish = a.wish := by rw [hg.eq_with_phase]
      exact ⟨hwish ▸ hg.endpoint_eq ha.numbered ho.lines.known (ha.ready i a hi) hy,
        hg.exists_cell (fun c u hq => (ho.seated i a c u hi hq).cell_lt) hy⟩
  · rcases caller?_step_cases ha' with ⟨context, wish, he, rfl⟩ | ⟨a, hi, rfl | hg⟩
    · cases hw
      obtain ⟨b, hb⟩ := hwant context stale he
      exact ⟨b, session_step ho hb e, Or.inl rfl⟩
    · obtain ⟨b, hb, hphase⟩ := h.beyond i a' stale hi hw
      refine ⟨b, session_step ho hb e, hphase.imp id ?_⟩
      rintro ⟨c, hlt, hbound⟩
      exact ⟨c, hlt, hbound.mono fun y hy => session_step ho hy e⟩
    · have hwish : a'.wish = a.wish := by rw [hg.eq_with_phase]
      obtain ⟨b, hb, hphase⟩ := h.beyond i a stale hi (hwish ▸ hw)
      refine ⟨b, session_step ho hb e, Or.inr ?_⟩
      rcases hphase with hp | ⟨c, hlt, hbound⟩
      · refine ⟨_, ?_, hg.boundTo_cellOf hp⟩
        rw [← hwish, hw]
        exact Acquisition.lt_cellOf ha.numbered ho.lines.known hb
      · exact ⟨c, hlt, hg.boundTo hbound fun u hq => (ho.seated i a c u hi hq).cell_lt⟩

/-- Those who want sessions, when nobody has given up. -/
structure Tidy (s : Lobby) : Prop where
  orderly : s.Orderly
  aged : s.Aged
  traced : s.Traced

theorem tidy_new (link : Link) : Tidy { hub := { link } } :=
  ⟨orderly_new link, aged_new link, traced_new link⟩

theorem Tidy.step (h : s.Tidy) (hstay : ∀ i, e ≠ .giveUp i)
    (hwant : ∀ context stale, e = .want context (.other stale) →
      ∃ b, (s.table.cell b).session = some stale) : (s.step p e).Tidy :=
  ⟨h.orderly.turn (turn_step p s e), h.aged.step h.orderly e,
    h.traced.step h.orderly h.aged hstay hwant⟩

theorem Tidy.move (h : s.Tidy) (he : e.IsMove) : (s.step p e).Tidy := by
  refine h.step he.ne_giveUp fun context stale hw => ?_
  rw [hw] at he
  cases he

/-- All stay, with what they wanted. -/
theorem Tidy.moves (h : s.Tidy) {events : List LobbyEvent} (hevents : ∀ e ∈ events, e.IsMove) :
    (s.after p events).Tidy ∧ ∀ i a, s.caller? i = some a →
      ∃ a', (s.after p events).caller? i = some a' ∧ a'.wish = a.wish := by
  induction events generalizing s with
  | nil => exact ⟨h, fun i a ha => ⟨a, ha, rfl⟩⟩
  | cons e events ih =>
    have he := hevents e (List.mem_cons_self ..)
    obtain ⟨hend, hkeep⟩ := ih (h.move (p := p) he) fun e' he' => hevents e' (List.mem_cons_of_mem _ he')
    refine ⟨hend, fun i a ha => ?_⟩
    obtain ⟨a', ha', hw, -⟩ := exists_caller?_step (p := p) h.orderly he.ne_giveUp ha
    obtain ⟨b, hb, hw'⟩ := hkeep i a' ha'
    exact ⟨b, hb, hw'.trans hw⟩

/-- Somebody alone, who has run for a while. -/
theorem exists_tidy_runOne (p : SessionPolicy) (context : Context) (endpoint : String) (link : Link)
    (n : Nat) : let r := (Acquisition.machine p).runOne n { context, wish := .any endpoint } { link }
      ∃ l : Lobby, l.Tidy ∧ l.hub = r.2 ∧ l.callers = [r.1].map some ∧ r.1.wish = .any endpoint := by
  intro r
  let a : Acquisition := { context, wish := .any endpoint }
  have hcame : (ofCallers [a] { link }).Tidy :=
    (tidy_new link).step (p := p) (e := .want context (.any endpoint)) (fun i => nofun)
      fun context' stale he => by cases he
  obtain ⟨events, hmoves, hhub, hcallers⟩ := exists_after_eq_run p [a] { link } n
  rw [Machine.run_eq_runOne] at hhub hcallers
  obtain ⟨hend, hkeep⟩ := hcame.moves (p := p) hmoves
  obtain ⟨a', ha', hw⟩ := hkeep 0 a rfl
  rw [caller?_of_callers hcallers] at ha'
  cases ha'
  exact ⟨_, hend, hhub, hcallers, hw⟩

/-- Whoever is through with success has a newer session than the one that it wanted another than. -/
theorem Tidy.serial_lt (h : s.Tidy) (ha : s.caller? i = some a) {stale : Session}
    (hw : a.wish = .other stale) (hy : a.outcome? = some (.ok y)) :
    y.endpoint = stale.endpoint ∧ ∃ b c, b < c ∧ (s.table.cell b).session = some stale ∧
      (s.table.cell c).session = some y ∧ stale.serial < y.serial := by
  have he : y.endpoint = stale.endpoint := by
    rw [(h.traced.answered i a y ha hy).1, hw]
    rfl
  obtain ⟨b, hb, hphase⟩ := h.traced.beyond i a stale ha hw
  obtain ⟨c, hlt, hbound⟩ : ∃ c, b < c ∧ a.BoundTo s.table c := by
    refine hphase.resolve_left fun hp => ?_
    rw [Acquisition.outcome?, hp] at hy
    cases hy
  have hc := hbound.session_eq hy
  exact ⟨he, b, c, hlt, hb, hc, h.aged.numbered.ordered b c stale y hlt hb hc he.symm⟩

/-- If all are through with success, the cached session is one that somebody has, and nobody has a newer
    one. -/
theorem Tidy.exists_newest (h : s.Tidy)
    (hover : ∀ i a, s.caller? i = some a → ∃ y, a.outcome? = some (.ok y)) {i : Nat} {a : Acquisition}
    {y : Session} (ha : s.caller? i = some a) (hy : a.outcome? = some (.ok y)) :
    ∃ newest, s.table.get? y.endpoint = some newest ∧
      (∃ j b, s.caller? j = some b ∧ b.outcome? = some (.ok newest)) ∧
      ∀ j b z, s.caller? j = some b → b.outcome? = some (.ok z) → z.endpoint = y.endpoint →
        z.serial ≤ newest.serial := by
  obtain ⟨-, b, hb⟩ := h.traced.answered i a y ha hy
  obtain ⟨c, hf, -⟩ := h.traced.replaced b y hb
  obtain ⟨j, x, hj, hbound⟩ := h.traced.attended _ c hf
  obtain ⟨newest, hnewest⟩ := hover j x hj
  have hc := hbound.session_eq hnewest
  refine ⟨newest, ?_, ⟨j, x, hj, hnewest⟩, fun k w z hk hz he => ?_⟩
  · rw [SessionTable.get?_eq h.orderly.lines.known, hf]
    exact hc
  · obtain ⟨-, d, hd⟩ := h.traced.answered k w z hk hz
    have hle := h.aged.numbered.le_current c d z (he ▸ hf) hd
    rcases Nat.lt_or_eq_of_le hle with hlt | rfl
    · have hhome := h.aged.numbered.home _ c newest hf hc
      exact Nat.le_of_lt (h.aged.numbered.ordered d c z newest hlt hd hc (he.trans hhome.symm))
    · rw [hc] at hd
      cases hd
      exact Nat.le_refl _

/-- If all are through with success, a session is the cached one just if nobody wanted another one. -/
theorem Tidy.get?_eq_iff (h : s.Tidy)
    (hover : ∀ i a, s.caller? i = some a → ∃ y, a.outcome? = some (.ok y))
    (hy : (s.table.cell b).session = some y) : s.table.get? y.endpoint = some y ↔
      ∀ i a, s.caller? i = some a → a.wish ≠ .other y := by
  obtain ⟨c, hf, hc⟩ := h.traced.replaced b y hy
  have hget : s.table.get? y.endpoint = (s.table.cell c).session := by
    rw [SessionTable.get?_eq h.orderly.lines.known, hf, Option.bind_some]
  rw [hget]
  refine ⟨fun hcached i a ha hw => ?_, fun hnobody => ?_⟩
  · obtain ⟨z, hz⟩ := hover i a ha
    obtain ⟨he, b', d, hlt, hb', hd, -⟩ := h.serial_lt ha hw hz
    have hle := h.aged.numbered.le_current c d z (he ▸ hf) hd
    have := h.aged.numbered.cell_inj hcached hb' rfl rfl
    omega
  · rcases hc with rfl | ⟨i, a, stale, ha, hw, he, hserial⟩
    · exact hy
    · obtain ⟨b', hb', -⟩ := h.traced.beyond i a stale ha hw
      have hbb := h.aged.numbered.cell_inj hb' hy he hserial
      rw [hbb, hy] at hb'
      cases hb'
      exact absurd hw (hnobody i a ha)

end Lobby

end SlurmLink
