import SlurmLink.Proofs.SessionAge
import SlurmLink.Proofs.SingleFlight

/-!
What comes of wanting another session than an outdated one. Whoever comes with that wish is bound to one
cell from then on: to the current one of the endpoint, or to a new one if that holds the outdated session
itself. So it is bound to a later cell than the one that holds the outdated session, and gets a newer one:

    cell      0       1       2
    session   stale   y       –
              ▲       ▲       ▲
              │       │       └── all who want another one than y
              │       └────────── all who want another one than stale
              └────────────────── all who want any one, as long as it is the current cell

A cell stays the current one until somebody wants another session than the one that is in it
(`find?_after`).
-/

namespace SlurmLink

/-- The caller that an entry is about. -/
def SessionEntry.caller : SessionEntry → Nat
  | .began i _ | .asked i _ | .made i _ _ | .failed i _ _ | .gaveUp i _ | .took i _ _ => i

namespace Acquisition

variable {a a' : Acquisition} {t : SessionTable} {made c : Nat} {p : SessionPolicy} {h h' : Hub}

theorem place?_of_outcome? {outcome : Except Error Session} (ho : a.outcome? = some outcome) :
    a.place? = none := by
  rw [outcome?] at ho
  rw [place?]
  split at ho
  · next hp => rw [hp]
  · cases ho

theorem Goes.phase_ne_entering (hg : Goes p a h a' h') : a'.phase ≠ .entering := by
  cases hg <;> nofun

/-- Whoever enters takes its step at once. -/
theorem step_of_entering (hp : a.phase = .entering) : a.step p h = some (a.enter h) := by
  rw [step, hp]

theorem caller_of_mem_note {i : Nat} {e : SessionEntry} (he : e ∈ a.note i h a') : e.caller = i := by
  rw [note] at he
  split at he
  case h_4 =>
    split at he
    · rw [List.mem_singleton.mp he]
      rfl
    · cases he
  case h_7 => cases he
  all_goals
    rw [List.mem_singleton.mp he]
    rfl

theorem caller_of_mem_farewell {i : Nat} {e : SessionEntry} (he : e ∈ a.farewell i) :
    e.caller = i := by
  rw [farewell] at he
  split at he
  · rw [List.mem_singleton.mp he]
    rfl
  · cases he

/-- The cell for another session than an outdated one comes after the one that holds that. -/
theorem lt_cellOf (ht : t.Aged made) (hk : t.Known) {stale : Session} {b : Nat}
    (hs : (t.cell b).session = some stale) : b < (cellOf (.other stale) t).1 := by
  rcases cellOf_cases hk (.other stale) with ⟨c, hc, hf, hnot⟩ | ⟨hr, -⟩
  · rw [hc]
    refine Nat.lt_of_le_of_ne (ht.le_current c b stale hf hs) ?_
    rintro rfl
    exact hnot stale ⟨stale, rfl, hf, hs, rfl⟩
  · rw [hr]
    exact SessionTable.lt_length_of_session hs

/-- The current cell of an endpoint stays so, unless its session is the outdated one. -/
theorem find?_cellOf (hk : t.Known) {endpoint : String} (wish : SessionWish)
    (hf : t.find? endpoint = some c) :
    (cellOf wish t).2.find? endpoint = some c ∨ ∃ y, Replaces wish t c y := by
  rcases cellOf_cases hk wish with ⟨d, hd, -⟩ | ⟨hr, hwhy⟩
  · rw [hd]
    exact Or.inl hf
  · rw [hr, SessionTable.find?_renew]
    split
    · next he =>
      subst he
      rcases hwhy with hnone | ⟨d, y, hy⟩
      · rw [hf] at hnone
        cases hnone
      · have hcd : c = d := by
          obtain ⟨stale, hwish, hfound, -⟩ := hy
          rw [hwish] at hf
          exact Option.some.inj (hf.symm.trans hfound)
        exact Or.inr ⟨y, hcd ▸ hy⟩
    · exact Or.inl hf

/-- The number of the current cell of an endpoint never goes down. -/
theorem le_find?_cellOf (hk : t.Known) {endpoint : String} (wish : SessionWish)
    (hf : t.find? endpoint = some c) :
    ∃ d, c ≤ d ∧ (cellOf wish t).2.find? endpoint = some d := by
  rcases cellOf_cases hk wish with ⟨d, hd, -⟩ | ⟨hr, -⟩
  · rw [hd]
    exact ⟨c, Nat.le_refl _, hf⟩
  · rw [hr, SessionTable.find?_renew]
    split
    · exact ⟨_, Nat.le_of_lt (hk _ c hf), rfl⟩
    · exact ⟨c, Nat.le_refl _, hf⟩

/-- It goes up with the wish for another session than is in the cell. -/
theorem lt_find?_cellOf (hk : t.Known) {wish : SessionWish} {y : Session} (h : Replaces wish t c y) :
    ∃ d, c < d ∧ (cellOf wish t).2.find? wish.endpoint = some d := by
  obtain ⟨stale, rfl, hf, hy, hs⟩ := h
  rcases cellOf_cases hk (.other stale) with ⟨d, -, hf', hnot⟩ | ⟨hr, -⟩
  · have hcd : c = d := Option.some.inj (hf.symm.trans hf')
    exact absurd ⟨stale, rfl, hf', hcd ▸ hy, hs⟩ (hnot y)
  · rw [hr, SessionTable.find?_renew, if_pos rfl]
    exact ⟨_, hk _ c hf, rfl⟩

/-- No step changes which cell is that of an endpoint, but for the first one. -/
theorem Goes.find?_cases (hg : Goes p a h a' h') :
    (a.phase ≠ .entering ∧ h'.table.find? = h.table.find?) ∨
    (a.phase = .entering ∧ h'.table.find? = (cellOf a.wish h.table).2.find?) := by
  cases hg with
  | finds hp hc =>
    rw [hc]
    exact Or.inr ⟨hp, rfl⟩
  | linesUp hp hc =>
    rw [hc]
    exact Or.inr ⟨hp, rfl⟩
  | takes hp => exact Or.inl ⟨by rw [hp]; nofun, rfl⟩
  | begins hp => exact Or.inl ⟨by rw [hp]; nofun, rfl⟩
  | negotiates hp => exact Or.inl ⟨by rw [hp]; nofun, rfl⟩
  | fills hp => exact Or.inl ⟨by rw [hp]; nofun, rfl⟩
  | fails hp => exact Or.inl ⟨by rw [hp]; nofun, rfl⟩

/-- Whoever wants another session than an outdated one is given the one that is cached, if it is another
    one, and changes nothing. -/
theorem step_of_cached (hk : h.table.Known) {stale y : Session} (hp : a.phase = .entering)
    (hwish : a.wish = .other stale) (hy : h.table.get? stale.endpoint = some y)
    (hs : y.serial ≠ stale.serial) :
    a.step p h = some ({ a with phase := .finished (.ok y) }, h) := by
  rw [SessionTable.get?_eq hk] at hy
  obtain ⟨c, hf, hy⟩ := Option.bind_eq_some_iff.mp hy
  have hkeep : cellOf a.wish h.table = (c, h.table) := by
    rw [hwish]
    rcases cellOf_cases hk (.other stale) with ⟨d, hd, hf', -⟩ | ⟨-, hnone | ⟨d, z, _, he, hf', hz, hzs⟩⟩
    · have hcd : c = d := Option.some.inj (hf.symm.trans hf')
      rw [hd, hcd]
    · have hsome : h.table.find? (SessionWish.other stale).endpoint = some c := hf
      rw [hnone] at hsome
      cases hsome
    · cases he
      rw [hf] at hf'
      cases hf'
      rw [hy] at hz
      cases hz
      exact absurd hzs hs
  rw [step_of_entering hp, enter, hkeep]
  have hsession : (h.table.cells[c]?.bind SessionCell.session) = some y := by
    rw [← hy, SessionTable.cell]
    cases h.table.cells[c]? <;> rfl
  simp only [hsession]

end Acquisition

namespace Lobby

variable {p : SessionPolicy} {s s' : Lobby} {i c : Nat} {a : Acquisition} {y : Session}

/-! ### What stays -/

/-- A session stays in its cell. -/
theorem session_after (ho : s.Orderly) (hy : (s.table.cell c).session = some y)
    (events : List LobbyEvent) : ((s.after p events).table.cell c).session = some y := by
  obtain ⟨new, -, hposts⟩ := posts_after (p := p) ho events
  obtain ⟨st, hrun, hst⟩ := hposts c (.filled y) hy
  obtain ⟨rfl, -⟩ := CellStanding.foldlM_filled hrun
  exact hst

theorem session_step (ho : s.Orderly) (hy : (s.table.cell c).session = some y) (e : LobbyEvent) :
    ((s.step p e).table.cell c).session = some y :=
  session_after ho hy [e]

/-- A session that was given to somebody is in its cell. -/
theorem session_of_gives {link : Link} {events : List LobbyEvent} {e : SessionEntry}
    (he : e ∈ (after p { hub := { link } } events).record) (hg : e.Gives i c y) :
    ((after p { hub := { link } } events).table.cell c).session = some y := by
  obtain ⟨new, hrecord, hposts⟩ := posts_after (p := p) (orderly_new link) events
  obtain ⟨st, hrun, hst⟩ := hposts c .idle ⟨rfl, fun i => rests_of_place? rfl⟩
  rw [hrecord] at he
  rw [CellStanding.foldlM_of_gives hg he hrun] at hst
  exact hst

theorem lt_length (ha : s.caller? i = some a) : i < s.callers.length :=
  (List.getElem?_eq_some_iff.mp (Option.join_eq_some_iff.mp ha)).1

theorem length_le_step (s : Lobby) (e : LobbyEvent) :
    s.callers.length ≤ (s.step p e).callers.length := by
  cases e with
  | want context wish =>
    rw [step, List.length_append]
    exact Nat.le_add_right ..
  | meanwhile link => exact Nat.le_refl _
  | advance i =>
    rw [step]
    split
    · exact Nat.le_refl _
    · split
      · exact Nat.le_refl _
      · exact Nat.le_of_eq (List.length_set ..).symm
  | giveUp i =>
    rw [step]
    split
    · exact Nat.le_refl _
    · split
      · exact Nat.le_refl _
      · exact Nat.le_of_eq (List.length_set ..).symm

/-- Whoever takes no step stays as it is or gives up. -/
theorem caller?_step_of_ne (hi : i < s.callers.length) {e : LobbyEvent} (he : e ≠ .advance i) :
    (s.step p e).caller? i = s.caller? i ∨ (s.step p e).caller? i = none := by
  cases turn_step p s e with
  | joins _ hx =>
    rw [hx i, if_neg (Nat.ne_of_lt hi)]
    exact Or.inl rfl
  | goes hj _ _ hx =>
    subst hj
    rw [hx i, if_neg fun hij => he (by rw [hij])]
    exact Or.inl rfl
  | leaves _ _ _ _ hx =>
    rw [hx i]
    split
    · exact Or.inr rfl
    · exact Or.inl rfl
  | rests hc => exact Or.inl (congrFun (caller?_congr hc) i)

/-- Nobody comes back. -/
theorem caller?_step_of_gone (hi : i < s.callers.length) (hn : s.caller? i = none) (e : LobbyEvent) :
    (s.step p e).caller? i = none := by
  cases turn_step p s e with
  | joins _ hx => rw [hx i, if_neg (Nat.ne_of_lt hi), hn]
  | goes _ ha _ hx =>
    rw [hx i]
    split
    · next hij =>
      rw [← hij, hn] at ha
      cases ha
    · exact hn
  | leaves _ _ _ _ hx =>
    rw [hx i]
    split
    · rfl
    · exact hn
  | rests hc => rw [caller?_congr hc, hn]

theorem caller?_after_of_gone (hi : i < s.callers.length) (hn : s.caller? i = none)
    (events : List LobbyEvent) : (s.after p events).caller? i = none := by
  induction events generalizing s with
  | nil => exact hn
  | cons e events ih =>
    exact ih (Nat.lt_of_lt_of_le hi (length_le_step s e)) (caller?_step_of_gone hi hn e)

/-- The entries that an event adds are about the one who takes its turn. -/
theorem Turn.exists_new {e : LobbyEvent} (ht : Turn p s e s') :
    ∃ new, s'.record = s.record ++ new ∧ ∀ x ∈ new, ∃ a, s.caller? x.caller = some a ∧
      a.outcome? = none ∧ ∀ a', s'.caller? x.caller = some a' → a'.phase ≠ .entering := by
  cases ht with
  | joins _ _ _ hr => exact ⟨[], by rw [hr, List.append_nil], fun x hx => by cases hx⟩
  | rests _ _ hr => exact ⟨[], by rw [hr, List.append_nil], fun x hx => by cases hx⟩
  | goes _ ha hg hx hr =>
    refine ⟨_, hr, fun x hmem => ?_⟩
    rw [Acquisition.caller_of_mem_note hmem]
    refine ⟨_, ha, hg.outcome?_eq_none, fun a' ha' => ?_⟩
    rw [hx, if_pos rfl] at ha'
    cases ha'
    exact hg.phase_ne_entering
  | leaves _ ha ho _ hx hr =>
    refine ⟨_, hr, fun x hmem => ?_⟩
    rw [Acquisition.caller_of_mem_farewell hmem]
    refine ⟨_, ha, ho, fun a' ha' => ?_⟩
    rw [hx, if_pos rfl] at ha'
    cases ha'

/-- Whoever is through stays so, and the record says no more about it. -/
theorem finished_after (ha : s.caller? i = some a) (ho : a.outcome? ≠ none)
    (events : List LobbyEvent) : (s.after p events).caller? i = some a ∧
      ∃ new, (s.after p events).record = s.record ++ new ∧ ∀ x ∈ new, x.caller ≠ i := by
  induction events generalizing s with
  | nil => exact ⟨ha, [], (List.append_nil _).symm, fun x hx => by cases hx⟩
  | cons e events ih =>
    have hturn := turn_step p s e
    have hstay : (s.step p e).caller? i = some a := by
      cases hturn with
      | joins _ hx => rw [hx i, if_neg (Nat.ne_of_lt (lt_length ha)), ha]
      | goes _ hb hg hx =>
        rw [hx i, if_neg, ha]
        rintro rfl
        rw [ha] at hb
        cases hb
        exact ho hg.outcome?_eq_none
      | leaves _ hb hrun _ hx =>
        rw [hx i, if_neg, ha]
        rintro rfl
        rw [ha] at hb
        cases hb
        exact ho hrun
      | rests hc => rw [caller?_congr hc, ha]
    obtain ⟨first, hfirst, hothers⟩ := hturn.exists_new
    obtain ⟨hend, more, hmore, hrest⟩ := ih hstay
    refine ⟨hend, first ++ more, ?_, fun x hx => ?_⟩
    · rw [after_cons, hmore, hfirst, List.append_assoc]
    · rcases List.mem_append.mp hx with hx | hx
      · obtain ⟨b, hb, hrun, -⟩ := hothers x hx
        rintro rfl
        rw [ha] at hb
        cases hb
        exact ho hrun
      · exact hrest x hx

/-- The record is about callers that have taken a step. -/
def Booked (s : Lobby) : Prop := ∀ x ∈ s.record, x.caller < s.callers.length ∧
  ∀ a, s.caller? x.caller = some a → a.phase ≠ .entering

theorem Booked.step (h : s.Booked) (e : LobbyEvent) : (s.step p e).Booked := by
  have hturn := turn_step p s e
  obtain ⟨new, hr, hnew⟩ := hturn.exists_new
  intro x hx
  rw [hr] at hx
  rcases List.mem_append.mp hx with hx | hx
  · obtain ⟨hlt, hphase⟩ := h x hx
    refine ⟨Nat.lt_of_lt_of_le hlt (length_le_step s e), fun a ha => ?_⟩
    cases hturn with
    | joins _ hx' =>
      rw [hx', if_neg (Nat.ne_of_lt hlt)] at ha
      exact hphase a ha
    | goes _ _ hg hx' =>
      rw [hx'] at ha
      split at ha
      · cases ha
        exact hg.phase_ne_entering
      · exact hphase a ha
    | leaves _ _ _ _ hx' =>
      rw [hx'] at ha
      split at ha
      · cases ha
      · exact hphase a ha
    | rests hc =>
      rw [caller?_congr hc] at ha
      exact hphase a ha
  · obtain ⟨a, ha, -, hphase⟩ := hnew x hx
    exact ⟨Nat.lt_of_lt_of_le (lt_length ha) (length_le_step s e), hphase⟩

theorem Booked.after (h : s.Booked) (events : List LobbyEvent) : (s.after p events).Booked := by
  induction events generalizing s with
  | nil => exact h
  | cons e events ih => exact ih (h.step e)

/-! ### The current cell -/

/-- With this event somebody comes who wants another session than the one that is in the current cell of
    its endpoint. -/
def Renews (s : Lobby) (e : LobbyEvent) (y : Session) : Prop :=
  ∃ i a c, e = .advance i ∧ s.caller? i = some a ∧ a.phase = .entering ∧
    Acquisition.Replaces a.wish s.table c y

/-- There is such an event among others. -/
def Renewed (p : SessionPolicy) (s : Lobby) (events : List LobbyEvent) (y : Session) : Prop :=
  ∃ before e rest, events = before ++ e :: rest ∧ (s.after p before).Renews e y

theorem Renewed.append_left {events : List LobbyEvent} (before : List LobbyEvent)
    (h : Renewed p (s.after p before) events y) : Renewed p s (before ++ events) y := by
  obtain ⟨first, e, rest, rfl, he⟩ := h
  exact ⟨before ++ first, e, rest, (List.append_assoc ..).symm, by rw [after_append]; exact he⟩

/-- What a caller changes with its step. -/
theorem goes_step {hub : Hub} {a' : Acquisition} (ha : s.caller? i = some a)
    (hs : a.step p s.hub = some (a', hub)) : (s.step p (.advance i)).hub = hub ∧
      s.Alters i (some a') (s.step p (.advance i)) ∧
      (s.step p (.advance i)).record = s.record ++ a.note i s.hub a' := by
  rw [step_advance ha hs]
  exact ⟨rfl, alters_set ha rfl, rfl⟩

/-- Which cell is that of an endpoint changes only when somebody comes. -/
theorem Turn.find?_cases {e : LobbyEvent} (ht : Turn p s e s') : s'.table.find? = s.table.find? ∨
    ∃ i a, e = .advance i ∧ s.caller? i = some a ∧ a.phase = .entering ∧
      s'.table.find? = (Acquisition.cellOf a.wish s.table).2.find? := by
  cases ht with
  | joins _ _ hh =>
    rw [table, hh]
    exact Or.inl rfl
  | rests _ ht =>
    rw [ht]
    exact Or.inl rfl
  | @leaves i a _ _ _ hh =>
    rw [show s'.table = _ from (congrArg Hub.table hh).trans (a.table_abandon s.hub)]
    split <;> exact Or.inl rfl
  | goes he ha hg =>
    rcases hg.find?_cases with ⟨-, hsame⟩ | ⟨hp, hfind⟩
    · exact Or.inl hsame
    · exact Or.inr ⟨_, _, he, ha, hp, hfind⟩

/-- The current cell of an endpoint stays so, unless somebody wants another session than is in it. -/
theorem find?_step (ho : s.Orderly) {endpoint : String} (hf : s.table.find? endpoint = some c)
    (e : LobbyEvent) : (s.step p e).table.find? endpoint = some c ∨ ∃ y, s.Renews e y ∧
      (s.table.cell c).session = some y := by
  rcases (turn_step p s e).find?_cases with hsame | ⟨i, a, he, ha, hp, hfind⟩
  · rw [hsame]
    exact Or.inl hf
  · rw [hfind]
    rcases Acquisition.find?_cellOf ho.lines.known a.wish hf with hkept | ⟨y, hy⟩
    · exact Or.inl hkept
    · obtain ⟨-, -, -, hsession, -⟩ := id hy
      exact Or.inr ⟨y, ⟨i, a, c, he, ha, hp, hy⟩, hsession⟩

theorem find?_after (ho : s.Orderly) (ha : s.Aged) {endpoint : String}
    (hf : s.table.find? endpoint = some c) (events : List LobbyEvent) :
    (s.after p events).table.find? endpoint = some c ∨ ∃ y, y.endpoint = endpoint ∧
      ((s.after p events).table.cell c).session = some y ∧ Renewed p s events y := by
  induction events generalizing s with
  | nil => exact Or.inl hf
  | cons e events ih =>
    rcases find?_step (p := p) ho hf e with hkept | ⟨y, hy, hsession⟩
    · rcases ih (ho.turn (turn_step p s e)) (ha.step ho e) hkept with hkept | ⟨y, he, hend, hy⟩
      · exact Or.inl hkept
      · exact Or.inr ⟨y, he, hend, hy.append_left [e]⟩
    · exact Or.inr ⟨y, ha.numbered.home endpoint c y hf hsession,
        session_after ho hsession (e :: events), [], e, events, rfl, hy⟩

/-- The number of the current cell of an endpoint never goes down. -/
theorem le_find?_after (ho : s.Orderly) {endpoint : String} (hf : s.table.find? endpoint = some c)
    (events : List LobbyEvent) :
    ∃ d, c ≤ d ∧ (s.after p events).table.find? endpoint = some d := by
  induction events generalizing s c with
  | nil => exact ⟨c, Nat.le_refl _, hf⟩
  | cons e events ih =>
    have hturn := turn_step p s e
    obtain ⟨d, hle, hd⟩ : ∃ d, c ≤ d ∧ (s.step p e).table.find? endpoint = some d := by
      rcases hturn.find?_cases with hsame | ⟨i, a, -, -, -, hfind⟩
      · exact ⟨c, Nat.le_refl _, hsame ▸ hf⟩
      · rw [hfind]
        exact Acquisition.le_find?_cellOf ho.lines.known a.wish hf
    obtain ⟨d', hle', hd'⟩ := ih (ho.turn hturn) hd
    exact ⟨d', Nat.le_trans hle hle', hd'⟩

/-- It goes up when somebody wants another session than is in that cell, and so that session is not
    cached any more. -/
theorem Renewed.get?_ne {events : List LobbyEvent} (h : Renewed p s events y) (ho : s.Orderly)
    (ha : s.Aged) : (s.after p events).table.get? y.endpoint ≠ some y := by
  obtain ⟨before, e, rest, rfl, i, a, c, rfl, hi, hp, hy⟩ := h
  have ho₁ : (s.after p before).Orderly := ho.after before
  have ha₁ : (s.after p before).Aged := ha.after ho before
  have hgoes := Acquisition.step_of_entering (p := p) (h := (s.after p before).hub) hp
  obtain ⟨hhub, -⟩ := goes_step hi hgoes
  obtain ⟨stale, hwish, hf, hsession, -⟩ := id hy
  have he : y.endpoint = a.wish.endpoint := by
    rw [hwish]
    exact ha₁.numbered.home _ c y hf hsession
  obtain ⟨d, hlt, hd⟩ := Acquisition.lt_find?_cellOf ho₁.lines.known hy
  have hnext : ((s.after p before).step p (.advance i)).table.find? a.wish.endpoint = some d := by
    rw [table, hhub]
    rcases (Acquisition.goes_of_step hgoes).find?_cases with ⟨hne, -⟩ | ⟨-, hfind⟩
    · exact absurd hp hne
    · rw [hfind]
      exact hd
  obtain ⟨d', hle, hd'⟩ := le_find?_after (p := p) (ho₁.turn (turn_step p _ _)) hnext rest
  rw [after_append, after_cons, he]
  intro hget
  rw [SessionTable.get?_eq (((ho₁.turn (turn_step p _ _)).after rest).lines.known), hd',
    Option.bind_some] at hget
  have hold := session_after (p := p) ho₁ hsession (.advance i :: rest)
  have hcd := (ha₁.after ho₁ (.advance i :: rest)).numbered.cell_inj hold hget rfl rfl
  omega

/-! ### Bound to a cell -/

end Lobby

namespace Acquisition

variable {a a' : Acquisition} {t t' : SessionTable} {c : Nat} {p : SessionPolicy} {h h' : Hub}

/-- In line at a cell, or through with its session, unless it has failed. -/
inductive BoundTo (a : Acquisition) (t : SessionTable) (c : Nat) : Prop where
  | inLine {u : Nat} (hq : a.place? = some (c, u))
  | failed {f : Error} (ho : a.outcome? = some (.error f))
  | given {y : Session} (ho : a.outcome? = some (.ok y)) (hs : (t.cell c).session = some y)

theorem BoundTo.mono (hb : a.BoundTo t c)
    (hs : ∀ y, (t.cell c).session = some y → (t'.cell c).session = some y) : a.BoundTo t' c := by
  cases hb with
  | inLine hq => exact .inLine hq
  | failed ho => exact .failed ho
  | given ho hy => exact .given ho (hs _ hy)

/-- Whoever is through with success has the session of the cell that it is bound to. -/
theorem BoundTo.session_eq (hb : a.BoundTo t c) {y : Session}
    (hy : a.outcome? = some (.ok y)) : (t.cell c).session = some y := by
  cases hb with
  | inLine hq =>
    rw [place?_of_outcome? hy] at hq
    cases hq
  | failed ho =>
    rw [hy] at ho
    cases ho
  | given ho hs =>
    rw [hy] at ho
    cases ho
    exact hs

theorem Goes.boundTo (hg : Goes p a h a' h') (hb : a.BoundTo h.table c)
    (hlt : ∀ u, a.place? = some (c, u) → c < h.table.cells.length) : a'.BoundTo h'.table c := by
  have hrun := hg.outcome?_eq_none
  cases hb with
  | failed ho =>
    rw [ho] at hrun
    cases hrun
  | given ho =>
    rw [ho] at hrun
    cases hrun
  | inLine hq =>
    have hmade := hlt _ hq
    cases hg with
    | finds hp =>
      rw [place?, hp] at hq
      cases hq
    | linesUp hp =>
      rw [place?, hp] at hq
      cases hq
    | takes hp hs =>
      rw [place?_of_waiting hp] at hq
      cases hq
      exact .given rfl hs
    | begins hp =>
      rw [place?_of_waiting hp] at hq
      cases hq
      exact .inLine rfl
    | negotiates hp =>
      rw [place?_of_negotiating hp] at hq
      cases hq
      exact .inLine rfl
    | @fills _ _ _ y hp =>
      rw [place?_of_negotiating hp] at hq
      cases hq
      refine .given (y := y) rfl ?_
      rw [SessionTable.session_fill hmade, if_pos rfl]
    | fails => exact .failed rfl

/-- Whoever enters is bound to the cell of its wish. -/
theorem Goes.boundTo_cellOf (hg : Goes p a h a' h') (hp : a.phase = .entering) :
    a'.BoundTo h'.table (cellOf a.wish h.table).1 := by
  cases hg with
  | finds _ hc hs =>
    rw [hc]
    exact .given rfl hs
  | linesUp _ hc =>
    rw [hc]
    exact .inLine rfl
  | takes hq => rw [hp] at hq; cases hq
  | begins hq => rw [hp] at hq; cases hq
  | negotiates hq => rw [hp] at hq; cases hq
  | fills hq => rw [hp] at hq; cases hq
  | fails hq => rw [hp] at hq; cases hq

end Acquisition

namespace Lobby

variable {p : SessionPolicy} {s s' : Lobby} {i c : Nat} {a : Acquisition} {y : Session}

/-- A caller that is bound to a cell, unless it has given up. -/
structure Bound (s : Lobby) (i c : Nat) : Prop where
  came : i < s.callers.length
  bound : ∀ a, s.caller? i = some a → a.BoundTo s.table c

theorem Bound.step (h : s.Bound i c) (ho : s.Orderly) (e : LobbyEvent) :
    (s.step p e).Bound i c := by
  have hkeep : ∀ y, (s.table.cell c).session = some y →
      ((s.step p e).table.cell c).session = some y := fun y hy => session_step ho hy e
  refine ⟨Nat.lt_of_lt_of_le h.came (length_le_step s e), fun b hb => ?_⟩
  cases turn_step p s e with
  | joins _ hx =>
    rw [hx i, if_neg (Nat.ne_of_lt h.came)] at hb
    exact (h.bound b hb).mono hkeep
  | goes _ ha hg hx =>
    rw [hx i] at hb
    split at hb
    · next hij =>
      subst hij
      cases hb
      exact hg.boundTo (h.bound _ ha) fun u hq => (ho.seated i _ c u ha hq).cell_lt
    · exact (h.bound b hb).mono hkeep
  | leaves _ _ _ _ hx =>
    rw [hx i] at hb
    split at hb
    · cases hb
    · exact (h.bound b hb).mono hkeep
  | rests hc =>
    rw [caller?_congr hc] at hb
    exact (h.bound b hb).mono hkeep

theorem Bound.after (h : s.Bound i c) (ho : s.Orderly) (events : List LobbyEvent) :
    (s.after p events).Bound i c := by
  induction events generalizing s with
  | nil => exact h
  | cons e events ih => exact ih (h.step ho e) (ho.turn (turn_step p s e))

/-- Whoever is through has entered at some event, in the meantime having been as it had come. -/
theorem exists_entering {events : List LobbyEvent} {b : Acquisition} (ha : s.caller? i = some a)
    (hp : a.phase = .entering) (hb : (s.after p events).caller? i = some b)
    (ho : b.outcome? ≠ none) : ∃ before rest, events = before ++ .advance i :: rest ∧
      (s.after p before).caller? i = some a := by
  induction events generalizing s with
  | nil =>
    rw [after, List.foldl_nil, ha] at hb
    cases hb
    rw [Acquisition.outcome?, hp] at ho
    exact absurd rfl ho
  | cons e events ih =>
    by_cases he : e = .advance i
    · subst he
      exact ⟨[], events, rfl, ha⟩
    · rcases caller?_step_of_ne (p := p) (lt_length ha) he with hsame | hgone
      · obtain ⟨before, rest, rfl, hstill⟩ := ih (hsame.trans ha) hb
        exact ⟨e :: before, rest, rfl, hstill⟩
      · have hlt := Nat.lt_of_lt_of_le (lt_length ha) (length_le_step (p := p) s e)
        rw [after_cons, caller?_after_of_gone hlt hgone] at hb
        cases hb

/-- Whoever enters is bound to what is then the current cell of its endpoint. -/
theorem bound_of_entering (ha : s.caller? i = some a) (hp : a.phase = .entering) (ho : s.Orderly) :
    (s.step p (.advance i)).Bound i (Acquisition.cellOf a.wish s.table).1 ∧
      (s.step p (.advance i)).table.find? a.wish.endpoint =
        some (Acquisition.cellOf a.wish s.table).1 := by
  have hgoes := Acquisition.step_of_entering (p := p) (h := s.hub) hp
  obtain ⟨hhub, hx, -⟩ := goes_step ha hgoes
  have hg := Acquisition.goes_of_step hgoes
  refine ⟨⟨Nat.lt_of_lt_of_le (lt_length ha) (length_le_step ..), fun b hb => ?_⟩, ?_⟩
  · rw [hx, if_pos rfl] at hb
    cases hb
    rw [table, hhub]
    exact hg.boundTo_cellOf hp
  · rw [table, hhub]
    rcases hg.find?_cases with ⟨hne, -⟩ | ⟨-, hfind⟩
    · exact absurd hp hne
    · rw [hfind]
      exact (Acquisition.cellOf_spec ho.lines.known a.wish).found

/-- What comes of an acquisition that succeeds: a session of the right endpoint, in a later cell than the
    session that it was to replace. That cell stays the current one until somebody wants another session
    than that. -/
theorem given_of_entering (ho : s.Orderly) (hs : s.Aged) (ha : s.caller? i = some a)
    (hp : a.phase = .entering) {more : List LobbyEvent} {b : Acquisition}
    (hb : (s.after p more).caller? i = some b) (hy : b.outcome? = some (.ok y)) :
    y.endpoint = a.wish.endpoint ∧ ∃ c, ((s.after p more).table.cell c).session = some y ∧
      (∀ d stale, a.wish = .other stale → (s.table.cell d).session = some stale → d < c) ∧
      ((s.after p more).table.find? a.wish.endpoint = some c ∨ Renewed p s more y) := by
  obtain ⟨before, rest, rfl, hentering⟩ := exists_entering ha hp hb (by rw [hy]; nofun)
  have hou : (s.after p before).Orderly := ho.after before
  have hau : (s.after p before).Aged := hs.after ho before
  have hturn := turn_step p (s.after p before) (.advance i)
  obtain ⟨hbound, hf⟩ := bound_of_entering (p := p) hentering hp hou
  have hlater : ∀ d stale, a.wish = .other stale → (s.table.cell d).session = some stale →
      d < (Acquisition.cellOf a.wish (s.after p before).table).1 := by
    intro d stale hw hd
    rw [hw]
    exact Acquisition.lt_cellOf hau.numbered hou.lines.known (session_after ho hd before)
  generalize (Acquisition.cellOf a.wish (s.after p before).table).1 = c at hbound hf hlater
  have hend : s.after p (before ++ .advance i :: rest) =
      ((s.after p before).step p (.advance i)).after p rest := after_append ..
  have hsession : ((s.after p (before ++ .advance i :: rest)).table.cell c).session = some y := by
    rw [hend] at hb ⊢
    exact ((hbound.after (hou.turn hturn) rest).bound b hb).session_eq hy
  rcases find?_after (p := p) (hou.turn hturn) (hau.step hou _) hf rest with
    hkept | ⟨z, hz, hsession', hrenewed⟩
  · rw [← hend] at hkept
    exact ⟨(hs.after ho _).numbered.home _ c y hkept hsession, c, hsession, hlater, Or.inl hkept⟩
  · rw [← hend, hsession] at hsession'
    cases hsession'
    exact ⟨hz, c, hsession, hlater,
      Or.inr (Renewed.append_left before (Renewed.append_left [.advance i] hrenewed))⟩

/-- If another session than one of the same endpoint is cached, it has another number. -/
theorem serial_ne_of_get? (ho : s.Orderly) (ha : s.Aged) {stale x : Session} {b : Nat}
    (hstale : (s.table.cell b).session = some stale)
    (hget : s.table.get? stale.endpoint = some x) (hne : x ≠ stale) : x.serial ≠ stale.serial := by
  intro hs
  obtain ⟨d, hf, hx⟩ := Option.bind_eq_some_iff.mp (SessionTable.get?_eq ho.lines.known _ ▸ hget)
  have hd := ha.numbered.cell_inj hx hstale (ha.numbered.home _ d x hf hx) hs
  rw [hd, hstale] at hx
  exact hne (Option.some.inj hx).symm

/-! ### The conclusions -/

/-- Wanting another session than an outdated one, which was given to somebody before, comes to a fresh
    one. Whoever is through with success has a session of the endpoint that was made after the outdated
    one, and that session is the one that is cached, from then on and just as long as nobody comes who
    wants another than it. And if another session than the outdated one is cached already when the
    caller enters, it is given that one at once, nothing changes in the table or at the link, and it
    never negotiates. -/
theorem renegotiation_fresh (p : SessionPolicy) (link : Link) (events more : List LobbyEvent)
    (context : Context) (stale : Session) :
    let s := after p { hub := { link } } events
    let i := s.callers.length
    let s' := s.step p (.want context (.other stale))
    let t := s'.after p more
    (∃ e ∈ s.record, ∃ j b, e.Gives j b stale) →
      (∀ a y, t.caller? i = some a → a.outcome? = some (.ok y) →
        y ≠ stale ∧ stale.serial < y.serial ∧ y.endpoint = stale.endpoint ∧
        (t.table.get? stale.endpoint = some y ↔ ¬ Renewed p s' more y)) ∧
      (∀ before rest x, more = before ++ .advance i :: rest →
        (s'.after p before).caller? i = some { context, wish := .other stale } →
        (s'.after p before).table.get? stale.endpoint = some x → x ≠ stale →
          ((s'.after p before).step p (.advance i)).hub = (s'.after p before).hub ∧
          t.caller? i = some { context, wish := .other stale, phase := .finished (.ok x) } ∧
          ∀ e ∈ t.record, e.caller = i → ∃ c, e = .took i c x) := by
  rintro s i s' t ⟨e, he, j, b, hg⟩
  have ho : s.Orderly := (orderly_new link).after events
  have ha : s.Aged := (aged_new link).after (orderly_new link) events
  have ho' : s'.Orderly := ho.turn (turn_step p s _)
  have ha' : s'.Aged := ha.step ho _
  have hcame : s'.caller? i = some { context, wish := .other stale } := by
    rw [alters_want s { context, wish := .other stale } rfl i, if_pos rfl]
  have hstale : (s'.table.cell b).session = some stale :=
    session_step ho (session_of_gives he hg) _
  refine ⟨fun a y hi hy => ?_, fun before rest x hmore hentering hget hne => ?_⟩
  · obtain ⟨hendpoint, c, hsession, hlater, hkept⟩ := given_of_entering ho' ha' hcame rfl hi hy
    have hat : t.Aged := ha'.after ho' more
    have hnewer : stale.serial < y.serial := hat.numbered.ordered b c stale y (hlater b stale rfl hstale)
      (session_after ho' hstale more) hsession hendpoint.symm
    refine ⟨?_, hnewer, hendpoint, fun hget hrenewed => ?_, fun hnot => ?_⟩
    · rintro rfl
      exact Nat.lt_irrefl _ hnewer
    · exact hrenewed.get?_ne ho' ha' (hendpoint ▸ hget)
    · have hf : t.table.find? stale.endpoint = some c := hkept.resolve_right hnot
      rw [SessionTable.get?_eq (ho'.after more).lines.known, hf]
      exact hsession
  · subst hmore
    have hou : (s'.after p before).Orderly := ho'.after before
    have hserial := serial_ne_of_get? hou (ha'.after ho' before)
      (session_after (p := p) ho' hstale before) hget hne
    obtain ⟨hhub, hx, hrecord⟩ :=
      goes_step hentering (Acquisition.step_of_cached (p := p) hou.lines.known rfl rfl hget hserial)
    have hover : ((s'.after p before).step p (.advance i)).caller? i =
        some { context, wish := .other stale, phase := .finished (.ok x) } := by
      rw [hx, if_pos rfl]
    obtain ⟨hend, new, hnew, hothers⟩ := finished_after (p := p) hover nofun rest
    have ht : t = ((s'.after p before).step p (.advance i)).after p rest := after_append ..
    refine ⟨hhub, ht ▸ hend, fun e he hei => ?_⟩
    rw [ht, hnew, hrecord, List.append_assoc] at he
    rcases List.mem_append.mp he with he | he
    · have hbooked : (s'.after p before).Booked := by
        have hnone : Booked { hub := { link } } := fun x hx => by cases hx
        exact ((hnone.after events).step _).after before
      exact absurd rfl ((hbooked e he).2 _ (hei ▸ hentering))
    · rcases List.mem_append.mp he with he | he
      · exact ⟨_, List.mem_singleton.mp he⟩
      · exact absurd hei (hothers e he)

/-- Somebody wants a session and goes on until it is there. -/
def firstSession : List LobbyEvent :=
  .want { token := 0 } (.any "http://slurm.test") :: List.replicate 10 (.advance 0)

/-- The session that is wanted next, in place of the first one, is the next one, and is cached. -/
theorem renegotiation_fresh_second :
    let s := after {} { hub := { link := { server := openServer } } } firstSession
    let s' := s.step {} (.want { token := 0 } (.other sharedSession))
    let t := s'.after {} (List.replicate 10 (.advance 1))
    (∃ e ∈ s.record, ∃ j b, e.Gives j b sharedSession) ∧
    ∃ a y, t.caller? 1 = some a ∧ a.outcome? = some (.ok y) ∧ y.serial = 1 ∧
      t.table.get? "http://slurm.test" = some y ∧
      ¬ Renewed {} s' (List.replicate 10 (.advance 1)) y := by
  intro s s' t
  have hgiven : .made 0 0 sharedSession ∈ s.record := by decide +kernel
  have hstale : ∃ e ∈ s.record, ∃ j b, e.Gives j b sharedSession := ⟨_, hgiven, 0, 0, Or.inl rfl⟩
  have hend : (t.caller? s.callers.length).bind (fun a => a.outcome?.bind Except.toOption) =
      some { sharedSession with serial := 1 } := by decide +kernel
  have hcached : t.table.get? "http://slurm.test" = some { sharedSession with serial := 1 } := by
    decide +kernel
  have hlength : s.callers.length = 1 := by decide +kernel
  obtain ⟨a, ha, hout⟩ := Option.bind_eq_some_iff.mp hend
  obtain ⟨outcome, houtcome, hok⟩ := Option.bind_eq_some_iff.mp hout
  cases outcome with
  | error f => cases hok
  | ok y =>
    cases hok
    have hfresh := (renegotiation_fresh {} { server := openServer } firstSession
      (List.replicate 10 (.advance 1)) { token := 0 } sharedSession hstale).1 a _ ha houtcome
    exact ⟨hstale, a, _, hlength ▸ ha, houtcome, rfl, hcached, hfresh.2.2.2.mp hcached⟩

end Lobby

end SlurmLink
