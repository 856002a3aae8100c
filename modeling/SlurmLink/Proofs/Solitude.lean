import SlurmLink.Proofs.Activity
import SlurmLink.Proofs.Renewal

/-!
One renewal of a session that nobody else is at. It finds nothing cached for the endpoint but the session
that it is to replace, and nobody who waits there (`SessionTable.Settled`). So there is no session that it
could take: it gets a cell for itself (`SessionTable.Busy`), negotiates, and when it is over the table is
settled again, whether it has made a session or failed:

    table     settled s     busy, alone in line        settled y
    record                  began  asked  made y
                            began  asked  failed       settled s

`Acquisition.Alone` and `Renewal.Alone` say how far it has got with that, and `goes` that every step goes
this way.
-/

namespace SlurmLink

namespace SessionTable

variable {t : SessionTable} {s y : Session} {c u : Nat}

/-- At most the session itself is cached for its endpoint, and nobody waits for one there. -/
structure Settled (t : SessionTable) (s : Session) : Prop where
  known : t.Known
  own : ∀ c y, t.find? s.endpoint = some c → (t.cell c).session = some y → y = s
  quiet : ∀ c, t.find? s.endpoint = some c → (t.cell c).line = []

/-- The holder of the ticket `u` is alone at the cell `c`, and the endpoint has no other cell. -/
structure Busy (t : SessionTable) (s : Session) (c u : Nat) : Prop where
  known : t.Known
  made : c < t.cells.length
  cell_eq : t.cell c = { session := none, line := [u] }
  only : ∀ d, t.find? s.endpoint = some d → d = c

theorem find?_clear (t : SessionTable) (endpoint : String) : t.clear.find? endpoint = none := rfl

theorem settled_clear (t : SessionTable) (s : Session) : t.clear.Settled s := by
  refine ⟨fun endpoint c hf => ?_, fun c y hf => ?_, fun c hf => ?_⟩
  all_goals
    rw [find?_clear] at hf
    cases hf

theorem Busy.clear (h : t.Busy s c u) : t.clear.Busy s c u := by
  refine ⟨fun endpoint d hf => ?_, h.made, h.cell_eq, fun d hf => ?_⟩
  all_goals
    rw [find?_clear] at hf
    cases hf

theorem known_modify (hk : t.Known) (c : Nat) (f : SessionCell → SessionCell) :
    (t.modify c f).Known := by
  have hlength : (t.modify c f).cells.length = t.cells.length := List.length_modify ..
  exact fun endpoint d hf => hlength ▸ hk endpoint d hf

/-- Whoever lines up at an empty cell where nobody waits is alone there. -/
theorem busy_lineUp (hk : t.Known) (hlt : c < t.cells.length) (hcell : t.cell c = {})
    (honly : ∀ d, t.find? s.endpoint = some d → d = c) : (t.lineUp c).2.Busy s c t.tickets := by
  have hlength : (t.lineUp c).2.cells.length = t.cells.length := List.length_modify ..
  refine ⟨known_modify hk c _, hlength ▸ hlt, ?_, honly⟩
  refine (cell_modify t c _ c).trans ?_
  rw [if_pos ⟨rfl, hlt⟩, hcell]
  rfl

/-- Whoever wants another session than the settled one finds none, and gets a cell for itself. -/
theorem Settled.cellOf (h : t.Settled s) {t' : SessionTable}
    (hc : Acquisition.cellOf (.other s) t = (c, t')) :
    (t'.cell c).session = none ∧ (t'.lineUp c).2.Busy s c t'.tickets := by
  have hfinds := Acquisition.cellOf_spec h.known (.other s)
  rw [hc] at hfinds
  have hmade : c < t'.cells.length := hfinds.steady.known _ _ hfinds.found
  have honly : ∀ d, t'.find? s.endpoint = some d → d = c := by
    intro d hd
    have hfound : t'.find? s.endpoint = some c := hfinds.found
    rw [hfound] at hd
    cases hd
    rfl
  suffices hempty : t'.cell c = {} from
    ⟨by rw [hempty], busy_lineUp hfinds.steady.known hmade hempty honly⟩
  rw [hfinds.steady.cell_eq]
  rcases Acquisition.cellOf_cases h.known (.other s) with ⟨d, hd, hf, hnot⟩ | ⟨hr, -⟩
  · rw [hc] at hd
    cases hd
    -- a session in the cell would be the settled one, which is not wanted
    cases hs : (t.cell c).session with
    | some y =>
      obtain rfl := h.own c y hf hs
      exact absurd ⟨y, rfl, hf, hs, rfl⟩ (hnot y)
    | none =>
      rw [show t.cell c = ⟨(t.cell c).session, (t.cell c).line⟩ from rfl, hs, h.quiet c hf]
  · rw [hc] at hr
    exact cell_of_length_le (Nat.le_of_eq (congrArg Prod.fst hr).symm)

theorem Busy.fill (h : t.Busy s c u) (he : y.endpoint = s.endpoint) : (t.fill c y).Settled y := by
  have hcell : (t.fill c y).cell c = { session := some y, line := [] } := by
    refine (cell_modify t c _ c).trans ?_
    rw [if_pos ⟨rfl, h.made⟩]
  have honly : ∀ d, (t.fill c y).find? y.endpoint = some d → d = c := fun d hf => h.only d (he ▸ hf)
  refine ⟨known_modify h.known c _, fun d z hf hz => ?_, fun d hf => ?_⟩
  · rw [honly d hf, hcell] at hz
    cases hz
    rfl
  · rw [honly d hf, hcell]

theorem Busy.leave (h : t.Busy s c u) : (t.leave c u).Settled s := by
  have hcell : (t.leave c u).cell c = {} := by
    refine (cell_modify t c _ c).trans ?_
    rw [if_pos ⟨rfl, h.made⟩, h.cell_eq]
    simp
  refine ⟨known_modify h.known c _, fun d z hf hz => ?_, fun d hf => ?_⟩
  · rw [h.only d hf, hcell] at hz
    cases hz
  · rw [h.only d hf, hcell]

end SessionTable

/-! ### One renewal -/

/-- How somebody begins to negotiate, on the record. -/
def SessionEntry.opening (asks : Bool) (caller cell : Nat) : List SessionEntry :=
  .began caller cell :: if asks then [.asked caller cell] else []

namespace Acquisition

open SessionEntry (opening)

variable {p : SessionPolicy} {a a' : Acquisition} {h h' : Hub} {t : SessionTable} {s : Session}
  {asks : Bool} {i : Nat} {trail : List SessionEntry}

/-- How far somebody has got who alone wants another session than `s`, what the table is like then, and
    what is on the record. -/
inductive Alone (asks : Bool) (i : Nat) (t : SessionTable) (s : Session) (a : Acquisition) :
    List SessionEntry → Prop where
  | enters (hp : a.phase = .entering) (ht : t.Settled s) : Alone asks i t s a []
  | waits {c u : Nat} (hp : a.phase = .waiting c u) (ht : t.Busy s c u) : Alone asks i t s a []
  | negotiates {c u : Nat} {n : Negotiation} {asked : Bool} (hp : a.phase = .negotiating c u n)
      (ht : t.Busy s c u) (hn : n.Asked asks asked) (he : n.endpoint = s.endpoint)
      (hy : ∀ y, n.outcome? = some (.ok y) → y.endpoint = s.endpoint) :
      Alone asks i t s a (opening asked i c)
  | made {c : Nat} {y : Session} (hp : a.phase = .finished (.ok y)) (ht : t.Settled y) :
      Alone asks i t s a (opening asks i c ++ [.made i c y])
  | failed {c : Nat} {e : Error} (hp : a.phase = .finished (.error e)) (ht : t.Settled s) :
      Alone asks i t s a (opening asks i c ++ [.failed i c e])

theorem Alone.clear (ha : a.Alone asks i t s trail) : a.Alone asks i t.clear s trail := by
  cases ha with
  | enters hp ht => exact .enters hp (t.settled_clear s)
  | waits hp ht => exact .waits hp ht.clear
  | negotiates hp ht hn he hy => exact .negotiates hp ht.clear hn he hy
  | made hp ht => exact .made hp (t.settled_clear _)
  | failed hp ht => exact .failed hp (t.settled_clear s)

theorem Alone.goes (ha : a.Alone p.explicit.isNone i h.table s trail) (hw : a.wish = .other s)
    (hg : Goes p a h a' h') :
    a'.Alone p.explicit.isNone i h'.table s (trail ++ a.note i h a') := by
  cases ha with
  | enters hp ht =>
    cases hg with
    | finds hp' hc hs =>
      rw [hw] at hc
      rw [(ht.cellOf hc).1] at hs
      cases hs
    | linesUp hp' hc hs =>
      rw [show a.note i h _ = [] by rw [note, hp]]
      rw [hw] at hc
      exact .waits rfl (ht.cellOf hc).2
    | takes hp' | begins hp' | negotiates hp' | fills hp' | fails hp' => rw [hp] at hp'; cases hp'
  | waits hp ht =>
    cases hg with
    | takes hp' hs =>
      rw [hp] at hp'
      cases hp'
      rw [ht.cell_eq] at hs
      cases hs
    | begins hp' hs hl =>
      rw [hp] at hp'
      cases hp'
      rw [show [] ++ a.note i h _ = opening false i _ by rw [note, hp]; rfl]
      refine .negotiates rfl ht rfl ?_ fun y hy => (by cases hy)
      rw [hw]
      rfl
    | finds hp' | linesUp hp' | negotiates hp' | fills hp' | fails hp' => rw [hp] at hp'; cases hp'
  | @negotiates c u n asked hp ht hn he hy =>
    cases hg with
    | negotiates hp' hs =>
      rw [hp] at hp'
      cases hp'
      have hnum := (Negotiation.goes_of_step hs).numbers
      have he' := hnum.endpoint_eq.trans he
      have hy' := fun y hy => (hnum.makes y hy).2.2.trans he
      rcases Negotiation.asked_step hn hs with ⟨hnow, rfl, -, hn'⟩ | ⟨hnot, hn'⟩
      · rw [show opening false i c ++ a.note i h _ = opening true i c by
          simp only [note, hp, hnow, if_true]; rfl]
        exact .negotiates rfl ht hn' he' hy'
      · rw [show a.note i h _ = [] by simp only [note, hp, hnot, Bool.false_eq_true, if_false],
          List.append_nil]
        exact .negotiates rfl ht hn' he' hy'
    | fills hp' ho =>
      rw [hp] at hp'
      cases hp'
      rw [show a.note i h _ = [.made i c _] by rw [note, hp], Negotiation.asked_of_outcome? hn ho]
      exact .made rfl (ht.fill (hy _ ho))
    | fails hp' ho =>
      rw [hp] at hp'
      cases hp'
      rw [show a.note i h _ = [.failed i c _] by rw [note, hp], Negotiation.asked_of_outcome? hn ho]
      exact .failed rfl ht.leave
    | finds hp' | linesUp hp' | takes hp' | begins hp' => rw [hp] at hp'; cases hp'
  | made hp ht =>
    have ho := hg.outcome?_eq_none
    rw [outcome?, hp] at ho
    cases ho
  | failed hp ht =>
    have ho := hg.outcome?_eq_none
    rw [outcome?, hp] at ho
    cases ho

/-- Whoever is alone waits for nobody: what cannot go on is a call of its own. -/
theorem Alone.call_of_step_eq_none (ha : a.Alone asks i h.table s trail) (ho : a.outcome? = none)
    (hs : a.step p h = none) :
    ∃ c, a.call? = some c ∧ c.outcome? = none ∧ c.step p.calls h.link = none := by
  cases ha with
  | enters hp ht =>
    rw [step_of_entering hp] at hs
    cases hs
  | waits hp ht =>
    rw [step_of_first hp (by rw [ht.cell_eq]) (by rw [ht.cell_eq]; rfl)] at hs
    cases hs
  | @negotiates c u n asked hp ht hn he hy =>
    rw [step, hp] at hs
    simp only at hs
    cases hover : n.outcome? with
    | some outcome =>
      rw [hover] at hs
      cases hs
    | none =>
      rw [hover] at hs
      obtain ⟨call, hq, hrun, hstuck⟩ :=
        Negotiation.waits_of_step_eq_none (Option.map_eq_none_iff.mp hs) hover
      exact ⟨call, by rw [call?, hp]; simp only [Negotiation.call?, hq], hrun, hstuck⟩
  | made hp ht =>
    rw [outcome?, hp] at ho
    cases ho
  | failed hp ht =>
    rw [outcome?, hp] at ho
    cases ho

/-- Nothing is noted of what stays as it is. -/
theorem note_self (i : Nat) (h : Hub) (a : Acquisition) : a.note i h a = [] := by
  rw [note]
  cases hp : a.phase with
  | negotiating c u n =>
    have hnot : n.asksNow n = false := by
      rw [Negotiation.asksNow]
      cases n.phase <;> rfl
    simp only [hnot, Bool.false_eq_true, if_false]
  | finished outcome => cases outcome <;> rfl
  | _ => rfl

end Acquisition

namespace Renewal

open SessionEntry (opening)

variable {p : SessionPolicy} {r r' : Renewal} {c c' : Client} {t : SessionTable} {s : Session}
  {asks : Bool} {i : Nat} {trail : List SessionEntry}

/-- The outcome, once there is one. -/
def outcome? (r : Renewal) : Option (Except Error ApiVersion) :=
  match r.phase with
  | .finished outcome => some outcome
  | _ => none

/-- What a step means for the record, as seen from before and after it. -/
def trace (i : Nat) (h : Hub) (r r' : Renewal) : List SessionEntry :=
  match r.phase, r'.phase with
  | .acquiring a, .acquiring a' => a.note i h a'
  | _, _ => []

theorem trace_self (i : Nat) (h : Hub) (r : Renewal) : r.trace i h r = [] := by
  rw [trace]
  cases r.phase with
  | acquiring a => exact a.note_self i h
  | _ => rfl

/-- How far the only renewal under way has got. -/
inductive Alone (asks : Bool) (i : Nat) (t : SessionTable) (s : Session) (r : Renewal) :
    List SessionEntry → Prop where
  | starts (hp : r.phase = .starting) (ht : t.Settled s) : Alone asks i t s r []
  | acquires {a : Acquisition} {trail : List SessionEntry} (hp : r.phase = .acquiring a)
      (hw : a.wish = .other s) (ha : a.Alone asks i t s trail) : Alone asks i t s r trail

/-- What is on the record of a renewal that is over: it has negotiated for itself. -/
inductive Past (asks : Bool) (i : Nat) (r : Renewal) : List SessionEntry → Prop where
  | made {c : Nat} {y : Session} (hp : r.phase = .finished (.ok y.apiVersion)) :
      Past asks i r (opening asks i c ++ [.made i c y])
  | failed {c : Nat} {e : Error} (hp : r.phase = .finished (.error e)) :
      Past asks i r (opening asks i c ++ [.failed i c e])

theorem Alone.outcome?_eq_none (h : r.Alone asks i t s trail) : r.outcome? = none := by
  cases h with
  | starts hp => rw [outcome?, hp]
  | acquires hp => rw [outcome?, hp]

theorem Past.outcome?_ne_none (h : r.Past asks i trail) : r.outcome? ≠ none := by
  cases h with
  | made hp => rw [outcome?, hp]; nofun
  | failed hp => rw [outcome?, hp]; nofun

theorem Past.of_ok (h : r.Past asks i trail) {v : ApiVersion} (ho : r.outcome? = some (.ok v)) :
    ∃ c y, y.apiVersion = v ∧ trail = opening asks i c ++ [.made i c y] := by
  cases h with
  | made hp =>
    rw [outcome?, hp] at ho
    cases ho
    exact ⟨_, _, rfl, rfl⟩
  | failed hp =>
    rw [outcome?, hp] at ho
    cases ho

theorem Past.of_error (h : r.Past asks i trail) {f : Error} (ho : r.outcome? = some (.error f)) :
    ∃ c, trail = opening asks i c ++ [.failed i c f] := by
  cases h with
  | made hp =>
    rw [outcome?, hp] at ho
    cases ho
  | failed hp =>
    rw [outcome?, hp] at ho
    cases ho
    exact ⟨_, rfl⟩

theorem Goes.outcome?_eq_none (hg : Goes p r c r' c') : r.outcome? = none := by
  cases hg with
  | starts hp | acquires hp | returns hp | fails hp => rw [outcome?, hp]

theorem Alone.clear (h : r.Alone asks i t s trail) : r.Alone asks i t.clear s trail := by
  cases h with
  | starts hp ht => exact .starts hp (t.settled_clear s)
  | acquires hp hw ha => exact .acquires hp hw ha.clear

/-- The only renewal under way goes on, or it is over and leaves the table settled. -/
theorem Alone.goes (h : r.Alone p.explicit.isNone i c.hub.table c.current trail)
    (hg : Goes p r c r' c') :
    r'.Alone p.explicit.isNone i c'.hub.table c'.current (trail ++ r.trace i c.hub r') ∨
    r'.Past p.explicit.isNone i (trail ++ r.trace i c.hub r') ∧
      c'.hub.table.Settled c'.current := by
  cases h with
  | starts hp ht =>
    cases hg with
    | starts =>
      rw [show r.trace i c.hub _ = [] by rw [trace, hp]]
      exact Or.inl (.acquires rfl rfl (.enters rfl ht))
    | acquires hp' | returns hp' | fails hp' => rw [hp] at hp'; cases hp'
  | acquires hp hw ha =>
    cases hg with
    | starts hp' => rw [hp] at hp'; cases hp'
    | acquires hp' hs =>
      rw [hp] at hp'
      cases hp'
      have hgoes := Acquisition.goes_of_step hs
      rw [show r.trace i c.hub _ = _ by rw [trace, hp]]
      refine Or.inl (.acquires rfl ?_ (ha.goes hw hgoes))
      rw [hgoes.eq_with_phase]
      exact hw
    | returns hp' ho =>
      rw [hp] at hp'
      cases hp'
      rw [show r.trace i c.hub _ = [] by rw [trace, hp], List.append_nil]
      cases ha with
      | made hq ht =>
        rw [Acquisition.outcome?, hq] at ho
        cases ho
        exact Or.inr ⟨.made rfl, ht⟩
      | enters hq | waits hq | negotiates hq | failed hq =>
        rw [Acquisition.outcome?, hq] at ho
        cases ho
    | fails hp' ho =>
      rw [hp] at hp'
      cases hp'
      rw [show r.trace i c.hub _ = [] by rw [trace, hp], List.append_nil]
      cases ha with
      | failed hq ht =>
        rw [Acquisition.outcome?, hq] at ho
        cases ho
        exact Or.inr ⟨.failed rfl, ht⟩
      | enters hq | waits hq | negotiates hq | made hq =>
        rw [Acquisition.outcome?, hq] at ho
        cases ho

/-- What the only renewal under way returns with is the session that it has made. -/
theorem Alone.made_of_outcome? (h : r.Alone asks i t s trail) {a : Acquisition} {y : Session}
    (hp : r.phase = .acquiring a) (ho : a.outcome? = some (.ok y)) :
    ∃ c, trail = opening asks i c ++ [.made i c y] := by
  cases h with
  | starts hp' => rw [hp] at hp'; cases hp'
  | acquires hp' hw ha =>
    rw [hp] at hp'
    cases hp'
    cases ha with
    | made hq ht =>
      rw [Acquisition.outcome?, hq] at ho
      cases ho
      exact ⟨_, rfl⟩
    | enters hq | waits hq | negotiates hq | failed hq =>
      rw [Acquisition.outcome?, hq] at ho
      cases ho

theorem Alone.call_of_step_eq_none (h : r.Alone asks i c.hub.table c.current trail)
    (hs : r.step p c = none) :
    ∃ call, r.call? = some call ∧ call.outcome? = none ∧ call.step p.calls c.hub.link = none := by
  cases h with
  | starts hp =>
    rw [step, hp] at hs
    cases hs
  | acquires hp hw ha =>
    rename_i a
    rw [step, hp] at hs
    simp only at hs
    cases ho : a.outcome? with
    | some outcome => rw [ho] at hs; cases outcome <;> cases hs
    | none =>
      rw [ho] at hs
      obtain ⟨call, hcall, hrun, hstuck⟩ :=
        ha.call_of_step_eq_none ho (Option.map_eq_none_iff.mp hs)
      exact ⟨call, by rw [call?, hp]; exact hcall, hrun, hstuck⟩

end Renewal

end SlurmLink
