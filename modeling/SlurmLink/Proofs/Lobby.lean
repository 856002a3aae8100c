import SlurmLink.Proofs.Acquisition
import SlurmLink.Proofs.SessionRecord

/-!
Those who want sessions, and the table they all use. Callers come in, take their steps and may give up,
in any order, while all else goes on at the link. `Orderly.after` says in what order they are kept: the
line at a cell holds the tickets of those who wait for its session, each once, until the session is
there; and who negotiates is first in line.

    cell    session    line              who
    0       made       []                all have it, or take it when they go on
    1       none       [4, 6, 7]         4 negotiates or is about to, 6 and 7 wait

A cell without a session is never replaced (`SessionTable.Finds`), so that all who want a session of one
endpoint, and have to wait for it, wait at one cell.
-/

namespace SlurmLink

/-- Whether a negotiation begins to ask the server with this step. -/
def Negotiation.asksNow (n n' : Negotiation) : Bool :=
  match n.phase, n'.phase with
  | .starting, .discovering _ => true
  | _, _ => false

namespace Acquisition

/-- What a step means for the record, as seen from before and after it. -/
def note (caller : Nat) (h : Hub) (a a' : Acquisition) : List SessionEntry :=
  match a.phase, a'.phase with
  | .entering, .finished (.ok s) => [.took caller (cellOf a.wish h.table).1 s]
  | .waiting cell _, .finished (.ok s) => [.took caller cell s]
  | .waiting cell _, .negotiating .. => [.began caller cell]
  | .negotiating cell _ n, .negotiating _ _ n' =>
    if n.asksNow n' then [.asked caller cell] else []
  | .negotiating cell _ _, .finished (.ok s) => [.made caller cell s]
  | .negotiating cell _ _, .finished (.error e) => [.failed caller cell e]
  | _, _ => []

/-- What giving up means for the record. -/
def farewell (caller : Nat) (a : Acquisition) : List SessionEntry :=
  match a.phase with
  | .negotiating cell _ _ => [.gaveUp caller cell]
  | _ => []

end Acquisition

/-- What can happen among those who want sessions. -/
inductive LobbyEvent where
  | want (context : Context) (wish : SessionWish)
  /-- A caller makes one step, if it can. -/
  | advance (caller : Nat)
  /-- A caller gives up, unless it is through. -/
  | giveUp (caller : Nat)
  /-- Anything else happens at the link, where sessions may be made but are never unmade. -/
  | meanwhile (link : Link)

/-- Those who want sessions, in the order in which they came, and what has happened. One that has given
    up is no longer there. -/
structure Lobby where
  hub : Hub := {}
  callers : List (Option Acquisition) := []
  record : List SessionEntry := []

namespace Lobby

def table (s : Lobby) : SessionTable := s.hub.table

/-- The caller with the given number, unless it has given up. -/
def caller? (s : Lobby) (i : Nat) : Option Acquisition := s.callers[i]?.join

/-- One event. -/
def step (p : SessionPolicy) (s : Lobby) : LobbyEvent → Lobby
  | .want context wish => { s with callers := s.callers ++ [some { context, wish }] }
  | .advance i =>
    match s.caller? i with
    | none => s
    | some a =>
      match a.step p s.hub with
      | none => s
      | some (a', hub) =>
        { hub, callers := s.callers.set i (some a'), record := s.record ++ a.note i s.hub a' }
  | .giveUp i =>
    match s.caller? i with
    | none => s
    | some a =>
      if a.outcome?.isSome then s
      else
        { hub := a.abandon s.hub
          callers := s.callers.set i none
          record := s.record ++ a.farewell i }
  | .meanwhile link =>
    { s with hub.link := { link with sessions := max s.hub.link.sessions link.sessions } }

/-- What comes of a list of events. -/
def after (p : SessionPolicy) (s : Lobby) (events : List LobbyEvent) : Lobby :=
  events.foldl (step p) s

variable {p : SessionPolicy} {s s' : Lobby} {i : Nat} {a a' : Acquisition} {x : Option Acquisition}

theorem after_cons (p : SessionPolicy) (s : Lobby) (e : LobbyEvent) (events : List LobbyEvent) :
    s.after p (e :: events) = (s.step p e).after p events := rfl

theorem after_append (p : SessionPolicy) (s : Lobby) (events more : List LobbyEvent) :
    s.after p (events ++ more) = (s.after p events).after p more :=
  List.foldl_append

theorem caller?_congr (h : s'.callers = s.callers) : s'.caller? = s.caller? := by
  funext i
  rw [caller?, h]
  rfl

/-- The cell at which a caller has lined up, and its ticket. -/
def place? (s : Lobby) (i : Nat) : Option (Nat × Nat) := (s.caller? i).bind Acquisition.place?

theorem place?_eq_some_iff {c t : Nat} :
    s.place? i = some (c, t) ↔ ∃ a, s.caller? i = some a ∧ a.place? = some (c, t) :=
  Option.bind_eq_some_iff

/-- The callers are the same but for one. -/
def Alters (s : Lobby) (i : Nat) (x : Option Acquisition) (s' : Lobby) : Prop :=
  ∀ j, s'.caller? j = if j = i then x else s.caller? j

theorem alters_set (ha : s.caller? i = some a) (hcallers : s'.callers = s.callers.set i x) :
    s.Alters i x s' := by
  intro j
  have hlt : i < s.callers.length :=
    (List.getElem?_eq_some_iff.mp (Option.join_eq_some_iff.mp ha)).1
  rw [caller?, hcallers, List.getElem?_set]
  by_cases hj : j = i
  · subst hj
    simp [hlt]
  · rw [if_neg (fun h => hj h.symm), if_neg hj]
    rfl

/-- A caller who comes in alters nothing but the place that nobody had. -/
theorem alters_want (s : Lobby) (a : Acquisition) (hcallers : s'.callers = s.callers ++ [some a]) :
    s.Alters s.callers.length (some a) s' := by
  intro j
  rw [caller?, caller?, hcallers, List.getElem?_append]
  by_cases hj : j = s.callers.length
  · subst hj; simp
  · rw [if_neg hj]
    split
    · rfl
    · have hnone : s.callers[j]? = none := List.getElem?_eq_none (by omega)
      have hone : [some a][j - s.callers.length]? = none :=
        List.getElem?_eq_none (by rw [List.length_singleton]; omega)
      rw [hnone, hone]

theorem alters_self (ha : s.caller? i = some a) (hcallers : s'.callers = s.callers) :
    s.Alters i (some a) s' := by
  intro j
  rw [caller?, hcallers]
  split
  · next hj => rw [hj]; exact ha
  · rfl

/-- A caller takes its step when it is its turn. -/
theorem step_advance {hub : Hub} (ha : s.caller? i = some a) (hs : a.step p s.hub = some (a', hub)) :
    s.step p (.advance i) =
      { hub, callers := s.callers.set i (some a'), record := s.record ++ a.note i s.hub a' } := by
  simp only [step, ha, hs]

/-- What an event can come to. -/
inductive Turn (p : SessionPolicy) (s : Lobby) : LobbyEvent → Lobby → Prop where
  | joins {e : LobbyEvent} {s' : Lobby} {context : Context} {wish : SessionWish}
      (he : e = .want context wish)
      (hx : s.Alters s.callers.length (some { context, wish }) s') (hh : s'.hub = s.hub)
      (hr : s'.record = s.record) : Turn p s e s'
  | goes {e : LobbyEvent} {s' : Lobby} {i : Nat} {a a' : Acquisition} (he : e = .advance i)
      (ha : s.caller? i = some a) (hg : Acquisition.Goes p a s.hub a' s'.hub)
      (hx : s.Alters i (some a') s') (hr : s'.record = s.record ++ a.note i s.hub a') : Turn p s e s'
  | leaves {e : LobbyEvent} {s' : Lobby} {i : Nat} {a : Acquisition} (he : e = .giveUp i)
      (ha : s.caller? i = some a) (ho : a.outcome? = none) (hh : s'.hub = a.abandon s.hub)
      (hx : s.Alters i none s') (hr : s'.record = s.record ++ a.farewell i) : Turn p s e s'
  /-- Nothing changes for anybody. -/
  | rests {e : LobbyEvent} {s' : Lobby} (hc : s'.callers = s.callers) (ht : s'.table = s.table)
      (hr : s'.record = s.record) : Turn p s e s'

theorem turn_step (p : SessionPolicy) (s : Lobby) (e : LobbyEvent) : Turn p s e (s.step p e) := by
  cases e with
  | want context wish => exact .joins rfl (alters_want s _ rfl) rfl rfl
  | meanwhile link => exact .rests rfl rfl rfl
  | advance i =>
    rw [step]
    cases ha : s.caller? i with
    | none => exact .rests rfl rfl rfl
    | some a =>
      cases hs : a.step p s.hub with
      | none =>
        simp only [hs]
        exact .rests rfl rfl rfl
      | some r =>
        simp only [hs]
        exact .goes rfl ha (Acquisition.goes_of_step hs) (alters_set ha rfl) rfl
  | giveUp i =>
    rw [step]
    cases ha : s.caller? i with
    | none => exact .rests rfl rfl rfl
    | some a =>
      cases ho : a.outcome? with
      | some outcome =>
        simp only [ho, Option.isSome_some, if_true]
        exact .rests rfl rfl rfl
      | none =>
        simp only [ho, Option.isSome_none, Bool.false_eq_true, if_false]
        exact .leaves rfl ha ho rfl (alters_set ha rfl) rfl

end Lobby

/-! ### Places in line -/

namespace SessionCell

variable {x x' : SessionCell} {own own' : Option Nat}

/-- How the line at a cell is kept: nobody waits for a session that is there, and no ticket is in it
    twice. -/
structure Lined (x : SessionCell) : Prop where
  filled : ∀ y, x.session = some y → x.line = []
  nodup : x.line.Nodup

/-- What a change of a cell by one caller, whose ticket in its line was `own` and is `own'` now, does to
    all others in the line. -/
structure Moves (x : SessionCell) (own own' : Option Nat) (x' : SessionCell) : Prop where
  lined : x'.Lined
  unfilled : x'.session = none → x.session = none
  /-- The line has lost the old ticket and won the new one, at most. -/
  line : ∀ u ∈ x'.line, own' = some u ∨ u ∈ x.line ∧ own ≠ some u
  keeps : x'.session = none → ∀ u ∈ x.line, own ≠ some u → u ∈ x'.line
  head : x.session = none → ∀ u, x.line.head? = some u → own ≠ some u →
    x'.session = none ∧ x'.line.head? = some u

/-- Nothing changes. -/
theorem Lined.moves_self (h : x.Lined) (hown : ∀ u ∈ x.line, own = some u → own' = some u) :
    x.Moves own own' x := by
  refine ⟨h, id, ?_, ?_, ?_⟩
  · intro u hu
    by_cases he : own = some u
    · exact Or.inl (hown u hu he)
    · exact Or.inr ⟨hu, he⟩
  · intro _ u hu _
    exact hu
  · intro hnone u hu _
    exact ⟨hnone, hu⟩

/-- Somebody lines up with a new ticket. -/
theorem Lined.moves_append (h : x.Lined) {u : Nat} (hnone : x.session = none) (hu : u ∉ x.line) :
    x.Moves none (some u) { x with line := x.line ++ [u] } := by
  refine ⟨⟨?_, ?_⟩, id, ?_, ?_, ?_⟩
  · intro y hy
    rw [hnone] at hy
    cases hy
  · refine List.nodup_append.mpr ⟨h.nodup, List.pairwise_singleton _ _, ?_⟩
    rintro v hv w hw rfl
    rw [List.mem_singleton.mp hw] at hv
    exact hu hv
  · intro v hv
    rcases List.mem_append.mp hv with hv | hv
    · exact Or.inr ⟨hv, nofun⟩
    · exact Or.inl (by rw [List.mem_singleton.mp hv])
  · intro _ v hv _
    exact List.mem_append_left _ hv
  · intro _ v hv _
    refine ⟨hnone, ?_⟩
    rw [List.head?_append, hv]
    rfl

/-- Whoever is first in line fills the cell. -/
theorem moves_fill {u : Nat} (hhead : x.line.head? = some u) (y : Session) :
    x.Moves (some u) none { session := some y, line := [] } := by
  refine ⟨⟨?_, List.nodup_nil⟩, nofun, nofun, nofun, ?_⟩
  · intro _ _
    rfl
  · intro _ v hv hne
    rw [hhead] at hv
    exact absurd hv hne

/-- Somebody leaves the line. -/
theorem Lined.moves_erase (h : x.Lined) (u : Nat) :
    x.Moves (some u) none { x with line := x.line.erase u } := by
  refine ⟨⟨?_, h.nodup.erase u⟩, id, ?_, ?_, ?_⟩
  · intro y hy
    simp only [h.filled y hy, List.erase_nil]
  · intro v hv
    obtain ⟨hne, hmem⟩ := h.nodup.mem_erase_iff.mp hv
    refine Or.inr ⟨hmem, ?_⟩
    rintro ⟨⟩
    exact hne rfl
  · intro _ v hv hne
    refine (List.mem_erase_of_ne ?_).mpr hv
    rintro rfl
    exact hne rfl
  · intro hnone v hv hne
    refine ⟨hnone, ?_⟩
    obtain ⟨rest, hline⟩ := List.head?_eq_some_iff.mp hv
    have htail : ¬ (v == u) = true := by
      rw [beq_iff_eq]
      rintro rfl
      exact hne rfl
    simp only [hline, List.erase_cons_tail htail, List.head?_cons]

end SessionCell

namespace SessionTable

variable {t t' : SessionTable} {own own' : Option (Nat × Nat)} {c u : Nat}

/-- The ticket at a cell, for one with the given place. -/
def ticketAt (own : Option (Nat × Nat)) (c : Nat) : Option Nat :=
  own.bind fun q => if q.1 = c then some q.2 else none

theorem ticketAt_eq_some_iff : ticketAt own c = some u ↔ own = some (c, u) := by
  rcases own with _ | ⟨d, v⟩
  · exact ⟨nofun, nofun⟩
  · by_cases hd : d = c <;> simp [ticketAt, hd]

/-- What a table has for a caller with the ticket `u` at the cell `c`: a place in the line at the cell of
    its endpoint, as long as there is no session, and the first place if it negotiates. -/
structure Seats (t : SessionTable) (a : Acquisition) (c u : Nat) : Prop where
  cell_lt : c < t.cells.length
  ticket_lt : u < t.tickets
  lined : (t.cell c).session = none →
    u ∈ (t.cell c).line ∧ t.find? a.wish.endpoint = some c
  first : ∀ n, a.phase = .negotiating c u n →
    (t.cell c).session = none ∧ (t.cell c).line.head? = some u

/-- How the lines of a table are kept. -/
structure Lines (t : SessionTable) : Prop where
  known : t.Known
  lined : ∀ c, (t.cell c).Lined

/-- What a change of the table by one caller, who had the place `own` and has the place `own'` now, does
    to all others. -/
structure Moves (t : SessionTable) (own own' : Option (Nat × Nat)) (t' : SessionTable) : Prop where
  known : t'.Known
  length_le : t.cells.length ≤ t'.cells.length
  tickets_le : t.tickets ≤ t'.tickets
  stays : ∀ endpoint c, t.find? endpoint = some c → (t.cell c).session = none →
    t'.find? endpoint = some c
  cell : ∀ c, (t.cell c).Moves (ticketAt own c) (ticketAt own' c) (t'.cell c)

/-- All others have the places that they had. -/
theorem Moves.seats (h : t.Moves own own' t') {a : Acquisition} (hs : t.Seats a c u)
    (hown : own ≠ some (c, u)) : t'.Seats a c u := by
  have hne : ticketAt own c ≠ some u := fun he => hown (ticketAt_eq_some_iff.mp he)
  refine ⟨Nat.lt_of_lt_of_le hs.cell_lt h.length_le, Nat.lt_of_lt_of_le hs.ticket_lt h.tickets_le,
    ?_, ?_⟩
  · intro hnone
    have hnone' := (h.cell c).unfilled hnone
    obtain ⟨hmem, hfound⟩ := hs.lined hnone'
    exact ⟨(h.cell c).keeps hnone u hmem hne, h.stays _ c hfound hnone'⟩
  · intro n hn
    obtain ⟨hnone, hhead⟩ := hs.first n hn
    exact (h.cell c).head hnone u hhead hne

/-- No cell changes. -/
theorem Steady.moves (h : t.Steady t') (hl : t.Lines)
    (hown : ∀ c u, own = some (c, u) → u ∈ (t.cell c).line → own' = some (c, u)) :
    t.Moves own own' t' := by
  refine ⟨h.known, h.length_le, Nat.le_of_eq h.tickets_eq.symm, h.stays, ?_⟩
  intro c
  rw [h.cell_eq]
  refine (hl.lined c).moves_self ?_
  intro u hmem hu
  rw [ticketAt_eq_some_iff] at *
  exact hown c u hu hmem

/-- One cell changes. -/
theorem moves_modify (hl : t.Lines) (hlt : c < t.cells.length) (own own' : Option Nat)
    (f : SessionCell → SessionCell) (hf : (t.cell c).Moves own own' (f (t.cell c))) {tickets : Nat}
    (hle : t.tickets ≤ tickets) :
    t.Moves (own.map (c, ·)) (own'.map (c, ·)) { t.modify c f with tickets } := by
  have hlength : (t.modify c f).cells.length = t.cells.length := List.length_modify ..
  refine ⟨?_, Nat.le_of_eq hlength.symm, hle, fun _ _ hd _ => hd, ?_⟩
  · intro endpoint d hd
    exact hlength ▸ hl.known endpoint d hd
  · intro d
    have hcell : ({ t.modify c f with tickets } : SessionTable).cell d = (t.modify c f).cell d := rfl
    rw [hcell, cell_modify]
    by_cases hd : d = c
    · subst hd
      have hticket : ∀ own : Option Nat, ticketAt (own.map (d, ·)) d = own := by
        intro own
        cases own <;> simp [ticketAt]
      rw [if_pos ⟨rfl, hlt⟩, hticket, hticket]
      exact hf
    · rw [if_neg fun h => hd h.1]
      refine (hl.lined d).moves_self ?_
      intro u _ hu
      obtain ⟨v, -, he⟩ := Option.map_eq_some_iff.mp (ticketAt_eq_some_iff.mp hu)
      cases he
      exact absurd rfl hd

theorem moves_lineUp (hl : t.Lines) (hlt : c < t.cells.length) (hnone : (t.cell c).session = none)
    (hfresh : t.tickets ∉ (t.cell c).line) :
    t.Moves none (some (c, t.tickets)) (t.lineUp c).2 :=
  moves_modify hl hlt none (some t.tickets) (fun x => { x with line := x.line ++ [t.tickets] })
    ((hl.lined c).moves_append hnone hfresh) (Nat.le_succ _)

theorem moves_fill (hl : t.Lines) (hlt : c < t.cells.length)
    (hhead : (t.cell c).line.head? = some u) (y : Session) :
    t.Moves (some (c, u)) none (t.fill c y) :=
  moves_modify hl hlt (some u) none (fun _ => { session := some y, line := [] })
    (SessionCell.moves_fill hhead y) (Nat.le_refl _)

theorem moves_leave (hl : t.Lines) (hlt : c < t.cells.length) (u : Nat) :
    t.Moves (some (c, u)) none (t.leave c u) :=
  moves_modify hl hlt (some u) none (fun x => { x with line := x.line.erase u })
    ((hl.lined c).moves_erase u) (Nat.le_refl _)

theorem session_lineUp (t : SessionTable) (c d : Nat) :
    ((t.lineUp c).2.cell d).session = (t.cell d).session := by
  refine (congrArg SessionCell.session (cell_modify t c _ d)).trans ?_
  split
  · next hd => rw [hd.1]
  · rfl

theorem session_leave (t : SessionTable) (c u d : Nat) :
    ((t.leave c u).cell d).session = (t.cell d).session := by
  refine (congrArg SessionCell.session (cell_modify t c _ d)).trans ?_
  split
  · next hd => rw [hd.1]
  · rfl

theorem session_fill (hlt : c < t.cells.length) (y : Session) (d : Nat) :
    ((t.fill c y).cell d).session = if d = c then some y else (t.cell d).session := by
  refine (congrArg SessionCell.session (cell_modify t c _ d)).trans ?_
  by_cases hd : d = c
  · rw [if_pos hd, if_pos ⟨hd, hlt⟩]
  · rw [if_neg hd, if_neg fun h => hd h.1]

/-- Whoever lines up at the cell of its endpoint has a place there. -/
theorem seats_lineUp {a : Acquisition} (hk : t.Known)
    (hfound : t.find? a.wish.endpoint = some c) (hp : a.phase = .waiting c t.tickets) :
    (t.lineUp c).2.Seats a c t.tickets := by
  have hlt : c < t.cells.length := hk _ c hfound
  have hlength : (t.lineUp c).2.cells.length = t.cells.length := List.length_modify ..
  have hline : ((t.lineUp c).2.cell c).line = (t.cell c).line ++ [t.tickets] := by
    refine (congrArg SessionCell.line (cell_modify t c _ c)).trans ?_
    rw [if_pos ⟨rfl, hlt⟩]
  refine ⟨hlength ▸ hlt, Nat.lt_succ_self _, ?_, ?_⟩
  · intro _
    rw [hline]
    exact ⟨List.mem_append_right _ (List.mem_singleton.mpr rfl), hfound⟩
  · intro n hn
    rw [hp] at hn
    cases hn

end SessionTable

/-! ### The order that is kept -/

namespace Lobby

variable {p : SessionPolicy} {s s' : Lobby} {i : Nat} {a a' : Acquisition} {x : Option Acquisition}

/-- How the lines are kept. -/
structure Orderly (s : Lobby) : Prop where
  lines : s.table.Lines
  /-- A ticket in a line belongs to somebody. -/
  held : ∀ c u, u ∈ (s.table.cell c).line → ∃ i, s.place? i = some (c, u)
  /-- No two have the same ticket. -/
  alone : ∀ i j c d u, s.place? i = some (c, u) → s.place? j = some (d, u) → i = j
  seated : ∀ i a c u, s.caller? i = some a → a.place? = some (c, u) → s.table.Seats a c u

theorem orderly_new (link : Link) : Orderly { hub := { link } } := by
  refine ⟨⟨?_, ?_⟩, ?_, ?_, ?_⟩
  · intro endpoint c h
    cases h
  · intro c
    exact ⟨fun y h => (by cases h), List.nodup_nil⟩
  · intro c u h
    cases h
  · intro i j c d u h
    cases h
  · intro i a c u h
    cases h

/-- Who negotiates at a cell does so alone. -/
theorem Orderly.eq_of_negotiating (h : s.Orderly) {j c u v : Nat} {b : Acquisition}
    {n m : Negotiation} (ha : s.caller? i = some a) (hp : a.phase = .negotiating c u n)
    (hb : s.caller? j = some b) (hq : b.phase = .negotiating c v m) : i = j := by
  have hplace := Acquisition.place?_of_negotiating hp
  have hplace' := Acquisition.place?_of_negotiating hq
  have hhead := ((h.seated i a c u ha hplace).first n hp).2
  rw [((h.seated j b c v hb hplace').first m hq).2] at hhead
  cases hhead
  exact h.alone i j c c u (place?_eq_some_iff.mpr ⟨a, ha, hplace⟩)
    (place?_eq_some_iff.mpr ⟨b, hb, hplace'⟩)

theorem Alters.place? (h : s.Alters i x s') (j : Nat) :
    s'.place? j = if j = i then x.bind Acquisition.place? else s.place? j := by
  rw [Lobby.place?, Lobby.place?, h j]
  split <;> rfl

/-- The order is kept by a caller that changes the table and its own place in it, if the table has that
    place for it and the ticket is its old one or a new one. -/
theorem Orderly.moves (h : s.Orderly) (hx : s.Alters i x s')
    (hm : s.table.Moves (s.place? i) (x.bind Acquisition.place?) s'.table)
    (hown : ∀ a' c u, x = some a' → a'.place? = some (c, u) → s'.table.Seats a' c u ∧
      (s.place? i = some (c, u) ∨ s.table.tickets ≤ u)) : s'.Orderly := by
  have hold : ∀ j c u, s'.place? j = some (c, u) →
      (j = i ∧ (s.place? i = some (c, u) ∨ s.table.tickets ≤ u)) ∨
      (j ≠ i ∧ s.place? j = some (c, u)) := by
    intro j c u hj
    rw [hx.place?] at hj
    split at hj
    · next he =>
      obtain ⟨a', ha', hplace⟩ := Option.bind_eq_some_iff.mp hj
      exact Or.inl ⟨he, (hown a' c u ha' hplace).2⟩
    · next he => exact Or.inr ⟨he, hj⟩
  have hlt : ∀ j c u, s.place? j = some (c, u) → u < s.table.tickets := by
    intro j c u hj
    obtain ⟨a, ha, hplace⟩ := place?_eq_some_iff.mp hj
    exact (h.seated j a c u ha hplace).ticket_lt
  refine ⟨⟨hm.known, fun c => (hm.cell c).lined⟩, ?_, ?_, ?_⟩
  · intro c u hmem
    rcases (hm.cell c).line u hmem with hown' | ⟨hmem, hne⟩
    · refine ⟨i, ?_⟩
      rw [hx.place?, if_pos rfl, SessionTable.ticketAt_eq_some_iff.mp hown']
    · obtain ⟨j, hj⟩ := h.held c u hmem
      refine ⟨j, ?_⟩
      rw [hx.place?, if_neg, hj]
      rintro rfl
      exact hne (SessionTable.ticketAt_eq_some_iff.mpr hj)
  · intro j k c d u hj hk
    rcases hold j c u hj with ⟨rfl, hj | hnew⟩ | ⟨hne, hj⟩
    · rcases hold k d u hk with ⟨rfl, -⟩ | ⟨-, hk⟩
      · rfl
      · exact h.alone j k c d u hj hk
    · rcases hold k d u hk with ⟨rfl, -⟩ | ⟨-, hk⟩
      · rfl
      · exact absurd (hlt k d u hk) (Nat.not_lt.mpr hnew)
    · rcases hold k d u hk with ⟨rfl, hk | hnew⟩ | ⟨-, hk⟩
      · exact h.alone j k c d u hj hk
      · exact absurd (hlt j c u hj) (Nat.not_lt.mpr hnew)
      · exact h.alone j k c d u hj hk
  · intro j b c u hb hplace
    rw [hx j] at hb
    split at hb
    · exact (hown b c u hb hplace).1
    · next hj =>
      refine hm.seats (h.seated j b c u hb hplace) ?_
      intro hi
      exact hj (h.alone j i c c u (place?_eq_some_iff.mpr ⟨b, hb, hplace⟩) hi)

theorem place?_eq (ha : s.caller? i = some a) : s.place? i = a.place? := by
  rw [place?, ha, Option.bind_some]

/-- A step of a caller keeps the order. -/
theorem Orderly.goes (h : s.Orderly) (ha : s.caller? i = some a)
    (hg : Acquisition.Goes p a s.hub a' s'.hub) (hx : s.Alters i (some a') s') : s'.Orderly := by
  have hplace := place?_eq ha
  generalize hhub : s'.hub = hub at hg
  have htable : s'.table = hub.table := by rw [table, hhub]
  cases hg with
  | finds hp hc hs =>
    rename_i c table y
    have hf := Acquisition.cellOf_spec h.lines.known a.wish
    rw [← Lobby.table] at hc
    rw [hc] at hf
    refine h.moves hx (htable ▸ hf.steady.moves h.lines fun d u hd => ?_) fun a' d u he hd => ?_
    · rw [hplace, Acquisition.place?, hp] at hd
      cases hd
    · cases he
      cases hd
  | linesUp hp hc hs =>
    rename_i c table
    have hf := Acquisition.cellOf_spec h.lines.known a.wish
    rw [← Lobby.table] at hc
    rw [hc] at hf
    have hnone : a.place? = none := by rw [Acquisition.place?, hp]
    -- it looks for its cell first, which moves nobody, and then lines up there
    let s₁ : Lobby := { s with hub := { s.hub with table } }
    have h₁ : s₁.Orderly := by
      have hsame : s.Alters i (some a) s₁ := alters_self ha rfl
      refine h.moves hsame (hf.steady.moves h.lines fun d u hd => ?_) fun b d u he hd => ?_
      · rw [hplace, hnone] at hd
        cases hd
      · cases he
        rw [hnone] at hd
        cases hd
    have hplace₁ : s₁.place? i = none := hplace.trans hnone
    have hfresh : table.tickets ∉ (table.cell c).line := by
      intro hmem
      obtain ⟨j, hj⟩ := h₁.held c _ hmem
      obtain ⟨b, hb, hq⟩ := place?_eq_some_iff.mp hj
      exact Nat.lt_irrefl _ (h₁.seated j b c _ hb hq).ticket_lt
    have hmoves := SessionTable.moves_lineUp h₁.lines (h₁.lines.known _ c hf.found) hs hfresh
    have hx₁ : s₁.Alters i (some { a with phase := .waiting c table.tickets }) s' := hx
    refine h₁.moves hx₁ ?_ fun b d u he hd => ?_
    · rw [hplace₁, htable]
      exact hmoves
    · cases he
      cases hd
      rw [htable]
      exact ⟨SessionTable.seats_lineUp h₁.lines.known hf.found rfl, Or.inr (Nat.le_refl _)⟩
  | takes hp hs =>
    refine h.moves hx (htable ▸ (SessionTable.steady_self h.lines.known).moves h.lines
      fun d u hd hmem => ?_) fun b d u he hd => ?_
    · rw [hplace, Acquisition.place?_of_waiting hp] at hd
      cases hd
      rw [(h.lines.lined _).filled _ hs] at hmem
      cases hmem
    · cases he
      cases hd
  | begins hp hs hl =>
    have hq := Acquisition.place?_of_waiting hp
    refine h.moves hx (htable ▸ (SessionTable.steady_self h.lines.known).moves h.lines
      fun d u hd _ => ?_) fun b d u he hd => ?_
    · rw [hplace, hq] at hd
      exact hd
    · cases he
      cases hd
      have hseat := h.seated i a _ _ ha hq
      rw [htable]
      exact ⟨⟨hseat.cell_lt, hseat.ticket_lt, hseat.lined, fun n hn => (by cases hn; exact ⟨hs, hl⟩)⟩,
        Or.inl (hplace.trans hq)⟩
  | negotiates hp hn =>
    have hq := Acquisition.place?_of_negotiating hp
    refine h.moves hx (htable ▸ (SessionTable.steady_self h.lines.known).moves h.lines
      fun d u hd _ => ?_) fun b d u he hd => ?_
    · rw [hplace, hq] at hd
      exact hd
    · cases he
      cases hd
      have hseat := h.seated i a _ _ ha hq
      rw [htable]
      exact ⟨⟨hseat.cell_lt, hseat.ticket_lt, hseat.lined,
        fun m hm => (by cases hm; exact hseat.first _ hp)⟩, Or.inl (hplace.trans hq)⟩
  | fills hp ho =>
    have hq := Acquisition.place?_of_negotiating hp
    have hseat := h.seated i a _ _ ha hq
    refine h.moves hx ?_ fun b d u he hd => ?_
    · rw [hplace, hq, htable]
      exact SessionTable.moves_fill h.lines hseat.cell_lt (hseat.first _ hp).2 _
    · cases he
      cases hd
  | fails hp ho =>
    have hq := Acquisition.place?_of_negotiating hp
    have hseat := h.seated i a _ _ ha hq
    refine h.moves hx ?_ fun b d u he hd => ?_
    · rw [hplace, hq, htable]
      exact SessionTable.moves_leave h.lines hseat.cell_lt _
    · cases he
      cases hd

/-- The order is a matter of the callers and the table. -/
theorem Orderly.congr (h : s.Orderly) (hc : s'.callers = s.callers) (ht : s'.table = s.table) :
    s'.Orderly := by
  have hcaller := caller?_congr hc
  have hplace : s'.place? = s.place? := by
    funext j
    rw [place?, hcaller]
    rfl
  exact ⟨ht ▸ h.lines, by rw [ht, hplace]; exact h.held, by rw [hplace]; exact h.alone,
    by rw [ht, hcaller]; exact h.seated⟩

/-- Everything that can happen keeps the order. -/
theorem Orderly.turn (h : s.Orderly) {e : LobbyEvent} (ht : Turn p s e s') : s'.Orderly := by
  cases ht with
  | goes he ha hg hx hr => exact h.goes ha hg hx
  | joins he hx hh hr =>
    have htable : s'.table = s.table := by rw [table, hh]; rfl
    have hnobody : s.place? s.callers.length = none := by
      rw [place?, caller?, List.getElem?_eq_none (Nat.le_refl _)]
      rfl
    refine h.moves hx ?_ fun b d u he hd => ?_
    · rw [hnobody, htable]
      exact (SessionTable.steady_self h.lines.known).moves h.lines fun c u hc => by cases hc
    · cases he
      cases hd
  | @leaves i a he ha ho hh hx hr =>
    refine h.moves hx ?_ fun b d u he hd => by cases he
    have htable : s'.table = _ := (congrArg Hub.table hh).trans (a.table_abandon s.hub)
    rw [place?_eq ha, htable]
    cases hq : a.place? with
    | none =>
      exact (SessionTable.steady_self h.lines.known).moves h.lines fun c u hc => by cases hc
    | some q => exact SessionTable.moves_leave h.lines (h.seated i a q.1 q.2 ha hq).cell_lt _
  | rests hc htable hr => exact h.congr hc htable

theorem Orderly.after (h : s.Orderly) (events : List LobbyEvent) : (s.after p events).Orderly := by
  induction events generalizing s with
  | nil => exact h
  | cons e events ih => exact ih (h.turn (turn_step p s e))

end Lobby

end SlurmLink
