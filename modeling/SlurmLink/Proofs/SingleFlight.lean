import SlurmLink.Proofs.Lobby

/-!
One negotiation for all who want the same session. `Lobby.Stands` says how far a cell has really got, and
`posts_turn` that whatever happens at a lobby takes every cell from where it was to where it is, along
with its entries in the record:

    record      began 4   asked 4   failed 4   began 6   asked 6   made 6 s   took 7 s
    cell   idle       busy 4    busy 4     idle      busy 6    busy 6     filled s

`single_flight` draws the conclusions.
-/

namespace SlurmLink

namespace Negotiation

variable {p : SessionPolicy} {n n' : Negotiation} {l l' : Link} {d : Bool}

/-- Whether a negotiation has asked the server. One that is over has done so just if it had to. -/
def Asked (asks : Bool) (n : Negotiation) (d : Bool) : Prop :=
  match n.phase with
  | .starting => d = false
  | .discovering _ => asks = true ∧ d = true
  | .finished _ => d = asks

theorem asked_of_outcome? {asks : Bool} {outcome : Except Error Session}
    (h : n.Asked asks d) (ho : n.outcome? = some outcome) : d = asks := by
  rw [outcome?] at ho
  rw [Asked] at h
  split at ho
  · next hp => rw [hp] at h; exact h
  · cases ho

theorem phase_conclude (choice : Except Error (Revision × Option ProductVersion)) (n : Negotiation)
    (l : Link) : ∃ outcome, (n.conclude choice l).1.phase = .finished outcome := by
  cases choice <;> exact ⟨_, rfl⟩

/-- A step of a negotiation, as far as asking is concerned. -/
theorem asked_step (h : n.Asked p.explicit.isNone d) (hs : n.step p l = some (n', l')) :
    (n.asksNow n' = true ∧ d = false ∧ p.explicit.isNone = true ∧
      n'.Asked p.explicit.isNone true) ∨
    (n.asksNow n' = false ∧ n'.Asked p.explicit.isNone d) := by
  have hover : ∀ {choice : Except Error (Revision × Option ProductVersion)},
      n.conclude choice l = (n', l') → d = p.explicit.isNone →
        n.asksNow n' = false ∧ n'.Asked p.explicit.isNone d := by
    intro choice hc hd
    obtain ⟨outcome, hq⟩ := phase_conclude choice n l
    rw [hc] at hq
    refine ⟨?_, by rw [Asked, hq]; exact hd⟩
    rw [asksNow, hq]
    cases n.phase <;> rfl
  rw [step] at hs
  rw [Asked] at h
  cases hp : n.phase with
  | finished outcome => rw [hp] at hs; cases hs
  | starting =>
    rw [hp] at hs h
    simp only at hs h
    cases he : p.explicit with
    | some v =>
      rw [he] at hs
      rw [he] at hover
      exact Or.inr (hover (Option.some.inj hs) h)
    | none =>
      rw [he] at hs
      cases hs
      exact Or.inl ⟨by rw [asksNow, hp], h, rfl, rfl, rfl⟩
  | discovering call =>
    rw [hp] at hs h
    simp only at hs h
    cases ho : call.outcome? with
    | some outcome =>
      rw [ho] at hs
      exact Or.inr (hover (Option.some.inj hs) (h.2.trans h.1.symm))
    | none =>
      rw [ho] at hs
      obtain ⟨r, -, he⟩ := Option.map_eq_some_iff.mp hs
      cases he
      exact Or.inr ⟨by rw [asksNow, hp], h⟩

end Negotiation

namespace Lobby

variable {p : SessionPolicy} {s s' : Lobby} {i : Nat} {a a' : Acquisition} {x : Option Acquisition}
  {asks : Bool} {c : Nat} {st : CellStanding}

/-- Nobody negotiates at a cell, as far as one caller is concerned. -/
def Rests (x : Option Acquisition) (c : Nat) : Prop :=
  ∀ a u n, x = some a → a.phase ≠ .negotiating c u n

theorem rests_some {q : AcquisitionPhase} (hp : a.phase = q) (hq : ∀ u n, q ≠ .negotiating c u n) :
    Rests (some a) c := by
  intro b u n hb
  cases hb
  rw [hp]
  exact hq u n

theorem rests_of_place? (h : x.bind Acquisition.place? = none) : Rests x c := by
  intro a u n ha hp
  rw [ha, Option.bind_some, Acquisition.place?_of_negotiating hp] at h
  cases h

theorem rests_of_entering (hp : a.phase = .entering) : Rests (some a) c :=
  rests_some hp fun u n h => by cases h

theorem rests_of_waiting {d u : Nat} (hp : a.phase = .waiting d u) : Rests (some a) c :=
  rests_some hp fun v n h => by cases h

/-- How far a cell has really got. -/
def Stands (asks : Bool) (s : Lobby) (c : Nat) : CellStanding → Prop
  | .filled y => (s.table.cell c).session = some y
  | .busy i d => (s.table.cell c).session = none ∧ ∃ a u n, s.caller? i = some a ∧
      a.phase = .negotiating c u n ∧ n.Asked asks d
  | .idle => (s.table.cell c).session = none ∧ ∀ i, Rests (s.caller? i) c

theorem Stands.eq_filled (h : s.Stands asks c st) {y : Session}
    (hs : (s.table.cell c).session = some y) : st = .filled y := by
  cases st with
  | filled z => rw [Stands, hs] at h; cases h; rfl
  | busy i d => rw [h.1] at hs; cases hs
  | idle => rw [h.1] at hs; cases hs

/-- A cell is busy with the one that negotiates there. -/
theorem Stands.eq_busy (h : s.Stands asks c st) (ho : s.Orderly) {u : Nat} {n : Negotiation}
    (ha : s.caller? i = some a) (hp : a.phase = .negotiating c u n) :
    ∃ d, st = .busy i d ∧ n.Asked asks d := by
  have hnone := ((ho.seated i a c u ha (Acquisition.place?_of_negotiating hp)).first n hp).1
  cases st with
  | filled z => rw [Stands, hnone] at h; cases h
  | idle => exact absurd hp (h.2 i a u n ha)
  | busy j d =>
    obtain ⟨-, b, v, m, hb, hq, hd⟩ := h
    have hij := ho.eq_of_negotiating ha hp hb hq
    subst hij
    rw [ha] at hb
    cases hb
    rw [hp] at hq
    cases hq
    exact ⟨d, rfl, hd⟩

/-- A cell without a session is idle while the first in line has not begun. -/
theorem Stands.eq_idle (h : s.Stands asks c st) (ho : s.Orderly) {u : Nat}
    (ha : s.caller? i = some a) (hp : a.phase = .waiting c u)
    (hs : (s.table.cell c).session = none) (hl : (s.table.cell c).line.head? = some u) :
    st = .idle := by
  cases st with
  | filled z => rw [Stands, hs] at h; cases h
  | idle => rfl
  | busy j d =>
    obtain ⟨-, b, v, m, hb, hq, -⟩ := h
    have hqb := Acquisition.place?_of_negotiating hq
    have hhead := ((ho.seated j b c v hb hqb).first m hq).2
    rw [hl] at hhead
    cases hhead
    have hij := ho.alone i j c c u
      (place?_eq_some_iff.mpr ⟨a, ha, Acquisition.place?_of_waiting hp⟩)
      (place?_eq_some_iff.mpr ⟨b, hb, hqb⟩)
    subst hij
    rw [ha] at hb
    cases hb
    rw [hp] at hq
    cases hq

/-- A cell stands as before if its session does and nobody begins or ends a negotiation there. -/
theorem Stands.frame (h : s.Stands asks c st) (hx : s.Alters i x s')
    (hs : (s'.table.cell c).session = (s.table.cell c).session)
    (hbefore : Rests (s.caller? i) c) (hafter : Rests x c) : s'.Stands asks c st := by
  cases st with
  | filled z => rw [Stands, hs]; exact h
  | idle =>
    refine ⟨hs.trans h.1, fun j => ?_⟩
    rw [hx j]
    split
    · exact hafter
    · exact h.2 j
  | busy j d =>
    obtain ⟨hnone, b, u, n, hb, hq, hd⟩ := h
    refine ⟨hs.trans hnone, b, u, n, ?_, hq, hd⟩
    rw [hx j, if_neg, hb]
    rintro rfl
    exact hbefore b u n hb hq

/-- New entries take every cell from where it was to where it is. -/
def Posts (asks : Bool) (s : Lobby) (new : List SessionEntry) (s' : Lobby) : Prop :=
  ∀ c st, s.Stands asks c st →
    ∃ st', new.foldlM (CellStanding.post asks c) st = some st' ∧ s'.Stands asks c st'

theorem posts_nil (h : ∀ c st, s.Stands asks c st → s'.Stands asks c st) : s.Posts asks [] s' :=
  fun c st hst => ⟨st, rfl, h c st hst⟩

theorem posts_single {e : SessionEntry}
    (hother : ∀ c st, e.cell ≠ c → s.Stands asks c st → s'.Stands asks c st)
    (hthis : ∀ st, s.Stands asks e.cell st →
      ∃ st', CellStanding.Follows asks st e st' ∧ s'.Stands asks e.cell st') :
    s.Posts asks [e] s' := by
  intro c st hst
  by_cases hc : e.cell = c
  · subst hc
    obtain ⟨st', hf, hst'⟩ := hthis st hst
    refine ⟨st', ?_, hst'⟩
    rw [List.foldlM_cons, CellStanding.post_of_eq rfl, CellStanding.next_of_follows hf]
    rfl
  · refine ⟨st, ?_, hother c st hc hst⟩
    rw [List.foldlM_cons, CellStanding.post_of_ne hc]
    rfl

/-- Somebody takes the session of a cell, and nothing else changes. -/
theorem posts_took (hx : s.Alters i x s') (hcells : ∀ d, s'.table.cell d = s.table.cell d)
    (hbefore : ∀ d, Rests (s.caller? i) d) (hafter : ∀ d, Rests x d) {y : Session}
    (hs : (s.table.cell c).session = some y) : s.Posts asks [.took i c y] s' := by
  have hstay : ∀ d st, s.Stands asks d st → s'.Stands asks d st := fun d st hst =>
    hst.frame hx (by rw [hcells]) (hbefore d) (hafter d)
  refine posts_single (fun d st _ hst => hstay d st hst) fun st hst => ⟨st, ?_, hstay c st hst⟩
  rw [hst.eq_filled hs]
  exact .took i c y

/-- Somebody who negotiates leaves the line without a session. -/
theorem posts_left (ho : s.Orderly) (hx : s.Alters i x s') {u : Nat} {n : Negotiation}
    (ha : s.caller? i = some a) (hp : a.phase = .negotiating c u n)
    (ht : s'.table = s.table.leave c u) (hafter : ∀ d, Rests x d) {e : SessionEntry}
    (hc : e.cell = c)
    (hf : ∀ d, n.Asked asks d → CellStanding.Follows asks (.busy i d) e .idle) :
    s.Posts asks [e] s' := by
  have hsession : ∀ d, (s'.table.cell d).session = (s.table.cell d).session := by
    intro d
    rw [ht]
    exact SessionTable.session_leave ..
  refine posts_single (fun d st hd hst => ?_) fun st hst => ?_
  · refine hst.frame hx (hsession d) ?_ (hafter d)
    rw [ha]
    refine rests_some hp fun v m hq => hd ?_
    cases hq
    exact hc
  · rw [hc] at hst ⊢
    obtain ⟨d, rfl, hd⟩ := hst.eq_busy ho ha hp
    refine ⟨_, hf d hd, (hsession c).trans hst.1, fun j b v m hb hq => ?_⟩
    rw [hx j] at hb
    split at hb
    · exact hafter c b v m hb hq
    · next hj => exact hj (ho.eq_of_negotiating hb hq ha hp)

/-- A step of a caller takes the cells along. -/
theorem posts_goes (ho : s.Orderly) (ha : s.caller? i = some a)
    (hg : Acquisition.Goes p a s.hub a' s'.hub) (hx : s.Alters i (some a') s') :
    s.Posts p.explicit.isNone (a.note i s.hub a') s' := by
  generalize hhub : s'.hub = hub at hg
  have htable : s'.table = hub.table := by rw [table, hhub]
  cases hg with
  | @finds c table y hp hc hs =>
    have hf := Acquisition.cellOf_spec ho.lines.known a.wish
    rw [← Lobby.table] at hc
    rw [hc] at hf
    have hnote : a.note i s.hub { a with phase := .finished (.ok y) } = [.took i c y] := by
      rw [Acquisition.note, hp, ← Lobby.table, hc]
    rw [hnote]
    exact posts_took hx (htable ▸ hf.steady.cell_eq) (fun d => ha ▸ rests_of_entering hp)
      (fun d => rests_of_place? rfl) (hf.steady.cell_eq c ▸ hs)
  | @linesUp c table hp hc hs =>
    have hf := Acquisition.cellOf_spec ho.lines.known a.wish
    rw [← Lobby.table] at hc
    rw [hc] at hf
    have hnote : a.note i s.hub { a with phase := .waiting c table.tickets } = [] := by
      rw [Acquisition.note, hp]
    rw [hnote]
    refine posts_nil fun d st hst => ?_
    refine hst.frame hx ?_ (ha ▸ rests_of_entering hp) (rests_of_waiting rfl)
    rw [htable, ← hf.steady.cell_eq]
    exact SessionTable.session_lineUp ..
  | @takes c u y hp hs =>
    have hnote : a.note i s.hub { a with phase := .finished (.ok y) } = [.took i c y] := by
      rw [Acquisition.note, hp]
    rw [hnote]
    exact posts_took hx (fun d => by rw [htable]; rfl) (fun d => ha ▸ rests_of_waiting hp)
      (fun d => rests_of_place? rfl) hs
  | @begins c u hp hs hl =>
    have hnote : a.note i s.hub { a with
        phase := .negotiating c u { context := a.context, endpoint := a.wish.endpoint } } =
          [.began i c] := by
      rw [Acquisition.note, hp]
    rw [hnote]
    refine posts_single (fun d st hd hst => ?_) fun st hst => ?_
    · refine hst.frame hx (by rw [htable]; rfl) (ha ▸ rests_of_waiting hp)
        (rests_some rfl fun v n hq => hd ?_)
      cases hq
      rfl
    · rw [hst.eq_idle ho ha hp hs hl]
      exact ⟨_, .began i c, by rw [htable]; exact hs, _, u,
        { context := a.context, endpoint := a.wish.endpoint }, by rw [hx i, if_pos rfl], rfl, rfl⟩
  | @negotiates c u n n' l hp hn =>
    have hother : ∀ d st, c ≠ d → s.Stands p.explicit.isNone d st →
        s'.Stands p.explicit.isNone d st := by
      intro d st hd hst
      refine hst.frame hx (by rw [htable]; rfl) (ha ▸ rests_some hp fun v m hq => hd ?_)
        (rests_some rfl fun v m hq => hd ?_)
      · cases hq; rfl
      · cases hq; rfl
    have hbusy : ∀ d, (s.table.cell c).session = none → n'.Asked p.explicit.isNone d →
        s'.Stands p.explicit.isNone c (.busy i d) := fun d hnone hd =>
      ⟨by rw [htable]; exact hnone, _, u, n', by rw [hx i, if_pos rfl], rfl, hd⟩
    have hnote : a.note i s.hub { a with phase := .negotiating c u n' } =
        if n.asksNow n' then [.asked i c] else [] := by
      rw [Acquisition.note, hp]
    rw [hnote]
    cases hnow : n.asksNow n' with
    | true =>
      rw [if_pos rfl]
      refine posts_single hother fun st hst => ?_
      obtain ⟨d, rfl, hd⟩ := hst.eq_busy ho ha hp
      rcases Negotiation.asked_step hd hn with ⟨-, rfl, hasks, hd'⟩ | ⟨hnot, -⟩
      · exact ⟨_, .asked i c hasks, hbusy true hst.1 hd'⟩
      · rw [hnow] at hnot; cases hnot
    | false =>
      rw [if_neg Bool.false_ne_true]
      refine posts_nil fun d st hst => ?_
      by_cases hc : c = d
      · subst hc
        obtain ⟨d, rfl, hd⟩ := hst.eq_busy ho ha hp
        rcases Negotiation.asked_step hd hn with ⟨hyes, -⟩ | ⟨-, hd'⟩
        · rw [hnow] at hyes; cases hyes
        · exact hbusy d hst.1 hd'
      · exact hother d st hc hst
  | @fills c u n y hp hy =>
    have hnote : a.note i s.hub { a with phase := .finished (.ok y) } = [.made i c y] := by
      rw [Acquisition.note, hp]
    rw [hnote]
    have hlt := (ho.seated i a c u ha (Acquisition.place?_of_negotiating hp)).cell_lt
    have hsession : ∀ d, (s'.table.cell d).session =
        if d = c then some y else (s.table.cell d).session := by
      intro d
      rw [htable]
      exact SessionTable.session_fill hlt ..
    refine posts_single (fun d st hd hst => ?_) fun st hst => ?_
    · refine hst.frame hx ?_ (ha ▸ rests_some hp fun v m hq => hd ?_) (rests_of_place? rfl)
      · rw [hsession, if_neg fun h => hd h.symm]
      · cases hq; rfl
    · obtain ⟨d, rfl, hd⟩ := hst.eq_busy ho ha hp
      rw [Negotiation.asked_of_outcome? hd hy]
      refine ⟨_, .made i c y, ?_⟩
      show (s'.table.cell c).session = some y
      rw [hsession, if_pos rfl]
  | @fails c u n e hp hy =>
    have hnote : a.note i s.hub { a with phase := .finished (.error e) } = [.failed i c e] := by
      rw [Acquisition.note, hp]
    rw [hnote]
    refine posts_left ho hx ha hp htable (fun d => rests_of_place? rfl) rfl fun d hd => ?_
    rw [Negotiation.asked_of_outcome? hd hy]
    exact .failed i c e

theorem Posts.append {new more : List SessionEntry} {s'' : Lobby} (h : s.Posts asks new s')
    (h' : s'.Posts asks more s'') : s.Posts asks (new ++ more) s'' := by
  intro c st hst
  obtain ⟨st', hnew, hst'⟩ := h c st hst
  obtain ⟨st'', hmore, hst''⟩ := h' c st' hst'
  refine ⟨st'', ?_, hst''⟩
  rw [List.foldlM_append, hnew]
  exact hmore

/-- Whatever happens takes the cells along. -/
theorem posts_turn (ho : s.Orderly) {e : LobbyEvent} (ht : Turn p s e s') :
    ∃ new, s'.record = s.record ++ new ∧ s.Posts p.explicit.isNone new s' := by
  cases ht with
  | goes he ha hg hx hr => exact ⟨_, hr, posts_goes ho ha hg hx⟩
  | joins he hx hh hr =>
    refine ⟨[], by rw [hr, List.append_nil], posts_nil fun c st hst => ?_⟩
    refine hst.frame hx (by rw [table, hh]; rfl) (rests_of_place? ?_) (rests_of_place? rfl)
    rw [caller?, List.getElem?_eq_none (Nat.le_refl _)]
    rfl
  | rests hc ht hr =>
    have hcaller := caller?_congr hc
    refine ⟨[], by rw [hr, List.append_nil], posts_nil fun c st hst => ?_⟩
    cases st <;> simpa only [Stands, hcaller, ht] using hst
  | @leaves i a he ha ho' hh hx hr =>
    refine ⟨_, hr, ?_⟩
    have htable : s'.table = _ := (congrArg Hub.table hh).trans (a.table_abandon s.hub)
    have hsession : ∀ d, (s'.table.cell d).session = (s.table.cell d).session := by
      intro d
      rw [htable]
      cases a.place? with
      | none => rfl
      | some q => exact SessionTable.session_leave ..
    have hquiet : (∀ d, Rests (some a) d) → s.Posts p.explicit.isNone [] s' := fun hrests =>
      posts_nil fun d st hst => hst.frame hx (hsession d) (ha ▸ hrests d) (rests_of_place? rfl)
    rw [Acquisition.farewell]
    cases hp : a.phase with
    | finished outcome => rw [Acquisition.outcome?, hp] at ho'; cases ho'
    | entering => exact hquiet fun d => rests_of_entering hp
    | waiting c u => exact hquiet fun d => rests_of_waiting hp
    | negotiating c u n =>
      rw [Acquisition.place?_of_negotiating hp] at htable
      exact posts_left ho hx ha hp htable (fun d => rests_of_place? rfl) rfl
        fun d _ => .gaveUp i c d

/-- Every run takes the cells along. -/
theorem posts_after (ho : s.Orderly) (events : List LobbyEvent) :
    ∃ new, (s.after p events).record = s.record ++ new ∧
      s.Posts p.explicit.isNone new (s.after p events) := by
  induction events generalizing s with
  | nil => exact ⟨[], (List.append_nil _).symm, posts_nil fun c st hst => hst⟩
  | cons e events ih =>
    obtain ⟨new, hrecord, hposts⟩ := posts_turn ho (turn_step p s e)
    obtain ⟨more, hrecord', hposts'⟩ := ih (ho.turn (turn_step p s e))
    refine ⟨new ++ more, ?_, hposts.append hposts'⟩
    rw [after_cons, hrecord', hrecord, List.append_assoc]

/-! ### What callers are told -/

/-- The record accounts for what those who are through have been told. -/
structure Told (s : Lobby) : Prop where
  given : ∀ i a y, s.caller? i = some a → a.outcome? = some (.ok y) →
    ∃ c e, e ∈ s.record ∧ e.Gives i c y
  failed : ∀ i a f, s.caller? i = some a → a.outcome? = some (.error f) →
    ∃ c, .failed i c f ∈ s.record

theorem told_new (link : Link) : Told { hub := { link } } := by
  refine ⟨?_, ?_⟩
  · intro i a y h
    cases h
  · intro i a f h
    cases h

theorem mem_note_of_ok {h h' : Hub} {y : Session} (hg : Acquisition.Goes p a h a' h')
    (ho : a'.outcome? = some (.ok y)) : ∃ c e, e ∈ a.note i h a' ∧ e.Gives i c y := by
  cases hg with
  | finds hp hc hs =>
    cases ho
    exact ⟨_, _, by rw [Acquisition.note, hp]; exact List.mem_singleton.mpr rfl, Or.inr rfl⟩
  | takes hp hs =>
    cases ho
    exact ⟨_, _, by rw [Acquisition.note, hp]; exact List.mem_singleton.mpr rfl, Or.inr rfl⟩
  | fills hp hy =>
    cases ho
    exact ⟨_, _, by rw [Acquisition.note, hp]; exact List.mem_singleton.mpr rfl, Or.inl rfl⟩
  | linesUp => cases ho
  | begins => cases ho
  | negotiates => cases ho
  | fails => cases ho

theorem mem_note_of_error {h h' : Hub} {f : Error} (hg : Acquisition.Goes p a h a' h')
    (ho : a'.outcome? = some (.error f)) : ∃ c, .failed i c f ∈ a.note i h a' := by
  cases hg with
  | fails hp hy =>
    cases ho
    exact ⟨_, by rw [Acquisition.note, hp]; exact List.mem_singleton.mpr rfl⟩
  | finds => cases ho
  | takes => cases ho
  | fills => cases ho
  | linesUp => cases ho
  | begins => cases ho
  | negotiates => cases ho

/-- What was told stays told while one caller at most is told more. -/
theorem Told.alters (h : s.Told) (hx : s.Alters i x s') {new : List SessionEntry}
    (hr : s'.record = s.record ++ new)
    (hgiven : ∀ a y, x = some a → a.outcome? = some (.ok y) → ∃ c e, e ∈ new ∧ e.Gives i c y)
    (hfailed : ∀ a f, x = some a → a.outcome? = some (.error f) → ∃ c, .failed i c f ∈ new) :
    s'.Told := by
  refine ⟨?_, ?_⟩
  · intro j b y hb ho
    rw [hx j] at hb
    rw [hr]
    split at hb
    · next hj =>
      obtain ⟨c, e, he, hg⟩ := hgiven b y hb ho
      exact ⟨c, e, List.mem_append_right _ he, hj ▸ hg⟩
    · obtain ⟨c, e, he, hg⟩ := h.given j b y hb ho
      exact ⟨c, e, List.mem_append_left _ he, hg⟩
  · intro j b f hb ho
    rw [hx j] at hb
    rw [hr]
    split at hb
    · next hj =>
      obtain ⟨c, he⟩ := hfailed b f hb ho
      exact ⟨c, List.mem_append_right _ (hj ▸ he)⟩
    · obtain ⟨c, he⟩ := h.failed j b f hb ho
      exact ⟨c, List.mem_append_left _ he⟩

theorem Told.turn (h : s.Told) {e : LobbyEvent} (ht : Turn p s e s') : s'.Told := by
  cases ht with
  | goes he ha hg hx hr =>
    refine h.alters hx hr ?_ ?_
    · intro b y hb ho
      cases hb
      exact mem_note_of_ok hg ho
    · intro b f hb ho
      cases hb
      exact mem_note_of_error hg ho
  | joins he hx hh hr =>
    refine h.alters hx (by rw [hr, List.append_nil]) ?_ ?_
    · intro b y hb ho
      cases hb
      cases ho
    · intro b f hb ho
      cases hb
      cases ho
  | leaves he ha ho hh hx hr =>
    refine h.alters hx hr ?_ ?_
    · intro b y hb
      cases hb
    · intro b f hb
      cases hb
  | rests hc ht hr =>
    have hcaller := caller?_congr hc
    exact ⟨by rw [hcaller, hr]; exact h.given, by rw [hcaller, hr]; exact h.failed⟩

theorem Told.after (h : s.Told) (events : List LobbyEvent) : (s.after p events).Told := by
  induction events generalizing s with
  | nil => exact h
  | cons e events ih => exact ih (h.turn (turn_step p s e))

/-! ### One cell for all -/

/-- There is one cell at most, that of the endpoint. -/
def OneCell (t : SessionTable) (endpoint : String) : Prop :=
  t.index = [] ∧ t.cells = [] ∨ t.find? endpoint = some 0 ∧ t.cells.length = 1

theorem oneCell_obtain {t : SessionTable} {endpoint : String} (h : OneCell t endpoint) :
    (t.obtain endpoint).1 = 0 ∧ OneCell (t.obtain endpoint).2 endpoint := by
  rcases h with ⟨hindex, hcells⟩ | ⟨hfind, hlength⟩
  · have hnone : t.find? endpoint = none := by rw [SessionTable.find?, hindex]; rfl
    rw [SessionTable.obtain, hnone]
    refine ⟨by rw [SessionTable.renew, hcells]; rfl, Or.inr ⟨?_, ?_⟩⟩
    · rw [SessionTable.find?_renew, if_pos rfl, hcells]
      rfl
    · rw [SessionTable.renew, hcells]
      rfl
  · rw [SessionTable.obtain, hfind]
    exact ⟨rfl, Or.inr ⟨hfind, hlength⟩⟩

theorem oneCell_modify {t : SessionTable} {endpoint : String} (h : OneCell t endpoint) (c : Nat)
    (f : SessionCell → SessionCell) : OneCell (t.modify c f) endpoint := by
  rcases h with ⟨hindex, hcells⟩ | ⟨hfind, hlength⟩
  · refine Or.inl ⟨hindex, ?_⟩
    rw [SessionTable.modify, hcells]
    cases c <;> rfl
  · exact Or.inr ⟨hfind, (List.length_modify ..).trans hlength⟩

theorem eq_zero_of_lt {t : SessionTable} {endpoint : String} (h : OneCell t endpoint)
    (hc : c < t.cells.length) : c = 0 := by
  rcases h with ⟨-, hcells⟩ | ⟨-, hlength⟩
  · rw [hcells] at hc
    cases hc
  · omega

/-- All want any session of one endpoint, and so all meet at one cell. -/
structure Meets (endpoint : String) (s : Lobby) : Prop where
  wish : ∀ i a, s.caller? i = some a → a.wish = .any endpoint
  cells : OneCell s.table endpoint
  record : ∀ e ∈ s.record, e.cell = 0

variable {endpoint : String}

theorem meets_new (endpoint : String) (link : Link) : Meets endpoint { hub := { link } } := by
  refine ⟨?_, Or.inl ⟨rfl, rfl⟩, ?_⟩
  · intro i a h
    cases h
  · intro e h
    cases h

/-- They still meet there if a caller with that wish takes its turn at the cell. -/
theorem Meets.alters (h : s.Meets endpoint) (hx : s.Alters i x s') {new : List SessionEntry}
    (hr : s'.record = s.record ++ new) (hwish : ∀ a, x = some a → a.wish = .any endpoint)
    (hcells : OneCell s'.table endpoint) (hnew : ∀ e ∈ new, e.cell = 0) : s'.Meets endpoint := by
  refine ⟨?_, hcells, ?_⟩
  · intro j b hb
    rw [hx j] at hb
    split at hb
    · exact hwish b hb
    · exact h.wish j b hb
  · intro e he
    rw [hr] at he
    rcases List.mem_append.mp he with he | he
    · exact h.record e he
    · exact hnew e he

theorem Meets.goes (h : s.Meets endpoint) (ho : s.Orderly) (ha : s.caller? i = some a)
    (hg : Acquisition.Goes p a s.hub a' s'.hub) (hx : s.Alters i (some a') s')
    (hr : s'.record = s.record ++ a.note i s.hub a') : s'.Meets endpoint := by
  have hwish := h.wish i a ha
  have hplaced : ∀ {c u}, a.place? = some (c, u) → c = 0 := fun hq =>
    eq_zero_of_lt h.cells (ho.seated i a _ _ ha hq).cell_lt
  have hfound : ∀ {c table}, Acquisition.cellOf a.wish s.hub.table = (c, table) →
      c = 0 ∧ OneCell table endpoint := by
    intro c table hc
    rw [hwish] at hc
    have hobtain := oneCell_obtain h.cells
    rw [show s.table.obtain endpoint = (c, table) from hc] at hobtain
    exact hobtain
  have hone : ∀ {e : SessionEntry}, e.cell = 0 → ∀ e' ∈ [e], e'.cell = 0 := by
    intro e he e' he'
    rw [List.mem_singleton.mp he']
    exact he
  generalize hhub : s'.hub = hub at hg
  have htable : s'.table = hub.table := by rw [table, hhub]
  refine h.alters hx hr (fun b hb => ?_) ?_ ?_
  · cases hb
    cases hg <;> exact hwish
  · rw [htable]
    cases hg with
    | finds hp hc hs => exact (hfound hc).2
    | linesUp hp hc hs => exact oneCell_modify (hfound hc).2 ..
    | takes hp hs => exact h.cells
    | begins hp hs hl => exact h.cells
    | negotiates hp hn => exact h.cells
    | fills hp hy => exact oneCell_modify h.cells ..
    | fails hp hy => exact oneCell_modify h.cells ..
  · cases hg with
    | finds hp hc hs =>
      rw [Acquisition.note, hp, hc]
      exact hone (hfound hc).1
    | linesUp hp hc hs =>
      rw [Acquisition.note, hp]
      exact fun e he => by cases he
    | takes hp hs =>
      rw [Acquisition.note, hp]
      exact hone (hplaced (Acquisition.place?_of_waiting hp))
    | begins hp hs hl =>
      rw [Acquisition.note, hp]
      exact hone (hplaced (Acquisition.place?_of_waiting hp))
    | negotiates hp hn =>
      rw [Acquisition.note, hp]
      simp only
      split
      · exact hone (hplaced (Acquisition.place?_of_negotiating hp))
      · exact fun e he => by cases he
    | fills hp hy =>
      rw [Acquisition.note, hp]
      exact hone (hplaced (Acquisition.place?_of_negotiating hp))
    | fails hp hy =>
      rw [Acquisition.note, hp]
      exact hone (hplaced (Acquisition.place?_of_negotiating hp))

theorem Meets.turn (h : s.Meets endpoint) (ho : s.Orderly) {e : LobbyEvent}
    (he : ∀ context wish, e = .want context wish → wish = .any endpoint) (ht : Turn p s e s') :
    s'.Meets endpoint := by
  cases ht with
  | goes _ ha hg hx hr => exact h.goes ho ha hg hx hr
  | joins hwant hx hh hr =>
    refine h.alters hx (by rw [hr, List.append_nil]) ?_ ?_ ?_
    · intro b hb
      cases hb
      exact he _ _ hwant
    · rw [table, hh]
      exact h.cells
    · intro e' he'
      cases he'
  | @leaves i a _ ha _ hh hx hr =>
    refine h.alters hx hr ?_ ?_ ?_
    · intro b hb
      cases hb
    · rw [table, hh, Acquisition.abandon]
      split
      · exact oneCell_modify h.cells ..
      · exact oneCell_modify h.cells ..
      · exact h.cells
    · intro e' he'
      rw [Acquisition.farewell] at he'
      split at he'
      · next c u n hp =>
        rw [List.mem_singleton.mp he']
        exact eq_zero_of_lt h.cells
          (ho.seated i a _ _ ha (Acquisition.place?_of_negotiating hp)).cell_lt
      · cases he'
  | rests hc ht hr =>
    exact ⟨by rw [caller?_congr hc]; exact h.wish, by rw [ht]; exact h.cells,
      by rw [hr]; exact h.record⟩

theorem Meets.after (h : s.Meets endpoint) (ho : s.Orderly) (events : List LobbyEvent)
    (hwish : ∀ context wish, .want context wish ∈ events → wish = .any endpoint) :
    (s.after p events).Meets endpoint := by
  induction events generalizing s with
  | nil => exact h
  | cons e events ih =>
    have hturn := turn_step p s e
    have hfirst : ∀ context wish, e = .want context wish → wish = .any endpoint := by
      rintro context wish rfl
      exact hwish context wish List.mem_cons_self
    refine ih (h.turn ho hfirst hturn) (ho.turn hturn) ?_
    intro context wish hmem
    exact hwish context wish (List.mem_cons_of_mem _ hmem)

/-! ### The conclusions -/

/-- Whoever is first in line for a session that is not there negotiates or is about to begin. -/
theorem negotiates_or_begins (ho : s.Orderly) {u : Nat} (hs : (s.table.cell c).session = none)
    (hl : (s.table.cell c).line.head? = some u) :
    ∃ i a, s.caller? i = some a ∧ a.place? = some (c, u) ∧
      ((∃ n, a.phase = .negotiating c u n) ∨
        (s.step p (.advance i)).record = s.record ++ [.began i c]) := by
  obtain ⟨i, hi⟩ := ho.held c u (List.mem_of_head? hl)
  obtain ⟨a, ha, hplace⟩ := place?_eq_some_iff.mp hi
  refine ⟨i, a, ha, hplace, ?_⟩
  cases hp : a.phase with
  | entering => rw [Acquisition.place?, hp] at hplace; cases hplace
  | finished outcome => rw [Acquisition.place?, hp] at hplace; cases hplace
  | negotiating d v n =>
    rw [Acquisition.place?_of_negotiating hp] at hplace
    cases hplace
    exact Or.inl ⟨n, rfl⟩
  | waiting d v =>
    rw [Acquisition.place?_of_waiting hp] at hplace
    cases hplace
    refine Or.inr ?_
    have hstep := Acquisition.step_of_first (p := p) (h := s.hub) hp hs hl
    simp only [step, ha, hstep, Acquisition.note, hp]

/-- One negotiation for all who want the same session, whatever they do and in whatever order, whoever
    gives up, and whatever comes of the negotiations. At most one is under way for an endpoint. The
    record of every cell is a run of its machine and ends where the cell really is. Whoever is through
    with a session was given it by a cell, which still holds it, and whoever is through with a failure
    has had it in a negotiation of its own. One cell gives the same session to all. As long as there is
    none and somebody waits, the first in line negotiates or is about to begin. Once there is one it
    stays, and nobody begins to negotiate for that cell again. And if all want any session of one
    endpoint, and the first negotiation that ends is successful, it is the only one that ever begins, and
    asks the server once, unless a version was named. -/
theorem single_flight (p : SessionPolicy) (link : Link) (events : List LobbyEvent) :
    let s := after p { hub := { link } } events
    (∀ i j a b c d u v n m, s.caller? i = some a → s.caller? j = some b →
      a.phase = .negotiating c u n → b.phase = .negotiating d v m →
        a.wish.endpoint = b.wish.endpoint → i = j) ∧
    (∀ c, ∃ st, s.record.foldlM (CellStanding.post p.explicit.isNone c) .idle = some st ∧
      s.Stands p.explicit.isNone c st) ∧
    (∀ i a y, s.caller? i = some a → a.outcome? = some (.ok y) →
      ∃ c e, e ∈ s.record ∧ e.Gives i c y ∧ (s.table.cell c).session = some y) ∧
    (∀ i a f, s.caller? i = some a → a.outcome? = some (.error f) →
      ∃ c, .began i c ∈ s.record ∧ .failed i c f ∈ s.record) ∧
    (∀ i j c y z e e', e ∈ s.record → e.Gives i c y → e' ∈ s.record → e'.Gives j c z → y = z) ∧
    (∀ c u, (s.table.cell c).session = none → (s.table.cell c).line.head? = some u →
      ∃ i a, s.caller? i = some a ∧ a.place? = some (c, u) ∧
        ((∃ n, a.phase = .negotiating c u n) ∨
          (s.step p (.advance i)).record = s.record ++ [.began i c])) ∧
    (∀ c y later, (s.table.cell c).session = some y →
      ((s.after p later).table.cell c).session = some y ∧
      ∃ new, (s.after p later).record = s.record ++ new ∧
        ∀ e ∈ new, e.cell = c → ∃ i, e = .took i c y) ∧
    (∀ endpoint i c y, (∀ context wish, .want context wish ∈ events → wish = .any endpoint) →
      s.record.find? SessionEntry.ends = some (.made i c y) →
        s.record.countP SessionEntry.begins = 1 ∧
        s.record.countP SessionEntry.asks = p.explicit.isNone.toNat) := by
  intro s
  have ho : s.Orderly := (orderly_new link).after events
  obtain ⟨new, hrecord, hposts⟩ := posts_after (p := p) (orderly_new link) events
  have hlaw : ∀ c, ∃ st, s.record.foldlM (CellStanding.post p.explicit.isNone c) .idle = some st ∧
      s.Stands p.explicit.isNone c st := by
    intro c
    rw [show s.record = new from hrecord]
    exact hposts c .idle ⟨rfl, fun i => rests_of_place? rfl⟩
  have htold : s.Told := (told_new link).after events
  refine ⟨?_, hlaw, ?_, ?_, ?_, fun c u hs hl => negotiates_or_begins ho hs hl, ?_, ?_⟩
  · intro i j a b c d u v n m ha hb hp hq he
    have hseat := ho.seated i a c u ha (Acquisition.place?_of_negotiating hp)
    have hseat' := ho.seated j b d v hb (Acquisition.place?_of_negotiating hq)
    have hcell := (hseat.lined (hseat.first n hp).1).2
    rw [he, (hseat'.lined (hseat'.first m hq).1).2] at hcell
    cases hcell
    exact ho.eq_of_negotiating ha hp hb hq
  · intro i a y ha hy
    obtain ⟨c, e, he, hg⟩ := htold.given i a y ha hy
    obtain ⟨st, hrun, hst⟩ := hlaw c
    rw [CellStanding.foldlM_of_gives hg he hrun] at hst
    exact ⟨c, e, he, hg, hst⟩
  · intro i a f ha hf
    obtain ⟨c, hfailed⟩ := htold.failed i a f ha hf
    obtain ⟨st, hrun, -⟩ := hlaw c
    rcases CellStanding.began_of_failed hfailed hrun with hbegan | ⟨d, hbusy⟩
    · exact ⟨c, hbegan, hfailed⟩
    · cases hbusy
  · intro i j c y z e e' he hg he' hg'
    obtain ⟨st, hrun, -⟩ := hlaw c
    have hy := CellStanding.foldlM_of_gives hg he hrun
    have hz := CellStanding.foldlM_of_gives hg' he' hrun
    rw [hy] at hz
    cases hz
    rfl
  · intro c y later hy
    obtain ⟨more, hmore, hposts⟩ := posts_after (p := p) ho later
    obtain ⟨st, hrun, hst⟩ := hposts c (.filled y) hy
    obtain ⟨rfl, htook⟩ := CellStanding.foldlM_filled hrun
    exact ⟨hst, more, hmore, htook⟩
  · intro endpoint i c y hwish hmade
    have hmeets : s.Meets endpoint :=
      (meets_new endpoint link).after (orderly_new link) events hwish
    have hc : c = 0 := hmeets.record _ (List.mem_of_find?_eq_some hmade)
    subst hc
    obtain ⟨st, hrun, -⟩ := hlaw 0
    exact CellStanding.countP_of_made hmeets.record hmade hrun

/-- A server that says what it runs. -/
def openServer : Server where
  discovery := [⟨.ok ⟨200, Text.Utf8.encode
    "\x7b\"info\":\x7b\"x-slurm\":\x7b\"release\":\"24.05.1\"\x7d\x7d\x7d".toList⟩, 0⟩]

/-- Two want a session at the same time and line up. The first one negotiates. -/
def together : List LobbyEvent :=
  let want := LobbyEvent.want { token := 0 } (.any "http://slurm.test")
  [want, want, .advance 0, .advance 1] ++ List.replicate 7 (.advance 0) ++ [.advance 1]

def sharedSession : Session := ⟨0, .v41, "http://slurm.test", some ⟨24, 5, 1⟩⟩

theorem record_together :
    (after {} { hub := { link := { server := openServer } } } together).record =
      [.began 0 0, .asked 0 0, .made 0 0 sharedSession, .took 1 0 sharedSession] := by
  decide +kernel

/-- The second one waits for the first, and both have the same session after one discovery. -/
theorem single_flight_together :
    let s := after {} { hub := { link := { server := openServer } } } together
    (∀ context wish, .want context wish ∈ together → wish = .any "http://slurm.test") ∧
    s.record.find? SessionEntry.ends = some (.made 0 0 sharedSession) ∧
    s.record.countP SessionEntry.begins = 1 ∧ s.record.countP SessionEntry.asks = 1 := by
  intro s
  have hwish : ∀ context wish, .want context wish ∈ together → wish = .any "http://slurm.test" := by
    intro context wish hmem
    simp only [together, List.replicate, List.cons_append, List.nil_append, List.mem_cons,
      LobbyEvent.want.injEq, reduceCtorEq, List.not_mem_nil, or_false, or_self] at hmem
    exact hmem.2
  have hmade : s.record.find? SessionEntry.ends = some (.made 0 0 sharedSession) := by
    rw [show s.record = _ from record_together]
    decide +kernel
  have hcounts := (single_flight {} { server := openServer } together).2.2.2.2.2.2.2
    "http://slurm.test" 0 0 sharedSession hwish hmade
  exact ⟨hwish, hmade, hcounts.1, hcounts.2⟩

end Lobby

end SlurmLink
