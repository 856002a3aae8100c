import SlurmLink.Session.Table

/-!
What a step of an acquisition can be, and what it does to the table. `Goes` lists the steps, each with
the guard under which it is taken, and `goes_of_step` says that there are no others:

    entering ──▶ waiting ──▶ negotiating ──▶ finished
        │           │                           ▲
        └───────────┴───────────────────────────┘

A table is seen through its cells by number, where a cell that has not been made yet is as good as a new
one. Looking for the cell of a wish then changes no cell at all, and takes the place of no cell that may
still be filled (`cellOf_spec`).
-/

namespace SlurmLink

namespace SessionTable

variable {t : SessionTable}

/-- The cell with the given number; one that has not been made yet is as good as new. -/
def cell (t : SessionTable) (c : Nat) : SessionCell := t.cells[c]?.getD {}

/-- Every cell that is in use has been made. -/
def Known (t : SessionTable) : Prop := ∀ endpoint c, t.find? endpoint = some c → c < t.cells.length

theorem lookup_map_replace (endpoint key : String) (c : Nat) : ∀ l : List (String × Nat),
    (l.map fun e => if e.1 = endpoint then (e.1, c) else e).lookup key =
      if key = endpoint then (l.lookup key).map fun _ => c else l.lookup key
  | [] => by simp
  | (k, d) :: l => by
    have ih := lookup_map_replace endpoint key c l
    by_cases hk : key = k
    · subst hk
      by_cases he : key = endpoint <;> simp [he]
    · have hne : (key == k) = false := beq_eq_false_iff_ne.mpr hk
      have hhead : ∀ d' : Nat, ((k, d') :: l).lookup key = l.lookup key := by
        intro d'
        simp only [List.lookup_cons, hne]
      rw [hhead, List.map_cons, ← ih]
      by_cases he : k = endpoint
      · simp only [he, if_true, List.lookup_cons, he ▸ hne]
      · simp only [he, if_false, List.lookup_cons, hne]

theorem find?_renew (t : SessionTable) (endpoint key : String) :
    (t.renew endpoint).2.find? key = if key = endpoint then some t.cells.length else t.find? key := by
  simp only [find?, renew]
  cases hf : t.index.lookup endpoint with
  | some c =>
    simp only [lookup_map_replace]
    by_cases hk : key = endpoint
    · simp [hk, hf]
    · simp [hk]
  | none =>
    simp only [List.lookup_append]
    by_cases hk : key = endpoint
    · simp [hk, hf]
    · have hne : (key == endpoint) = false := by simpa using hk
      simp [hk, List.lookup_cons, hne]

theorem cell_renew (t : SessionTable) (endpoint : String) (c : Nat) :
    (t.renew endpoint).2.cell c = t.cell c := by
  simp only [cell, renew, List.getElem?_append]
  split
  · rfl
  · next h =>
    rw [List.getElem?_eq_none (l := t.cells) (by omega)]
    cases hc : c - t.cells.length <;> simp

theorem cell_modify (t : SessionTable) (id : Nat) (f : SessionCell → SessionCell) (c : Nat) :
    (t.modify id f).cell c = if c = id ∧ id < t.cells.length then f (t.cell id) else t.cell c := by
  simp only [cell, modify, List.getElem?_modify]
  by_cases hc : id = c
  · subst hc
    by_cases hlt : id < t.cells.length
    · simp [hlt]
    · simp [hlt]
  · have : ¬ c = id := fun h => hc h.symm
    simp [hc, this]

/-- No cell changes, and a cell that is in use and has no session stays in use. -/
structure Steady (t t' : SessionTable) : Prop where
  cell_eq : ∀ c, t'.cell c = t.cell c
  tickets_eq : t'.tickets = t.tickets
  length_le : t.cells.length ≤ t'.cells.length
  stays : ∀ endpoint c, t.find? endpoint = some c → (t.cell c).session = none →
    t'.find? endpoint = some c
  known : t'.Known

theorem steady_self (hk : t.Known) : t.Steady t :=
  ⟨fun _ => rfl, rfl, Nat.le_refl _, fun _ _ h _ => h, hk⟩

/-- What looking for the cell of a wish does: it comes to a cell that is in use for the endpoint. -/
structure Finds (t : SessionTable) (endpoint : String) (c : Nat) (t' : SessionTable) : Prop where
  steady : t.Steady t'
  found : t'.find? endpoint = some c

theorem finds_renew (hk : t.Known) {endpoint : String}
    (hused : ∀ c, t.find? endpoint = some c → (t.cell c).session ≠ none) :
    t.Finds endpoint (t.renew endpoint).1 (t.renew endpoint).2 := by
  have hlen : (t.renew endpoint).2.cells.length = t.cells.length + 1 := by simp [renew]
  refine ⟨⟨cell_renew t endpoint, rfl, by omega, ?_, ?_⟩, by rw [find?_renew, if_pos rfl]; rfl⟩
  · intro key d hd hnone
    rw [find?_renew, if_neg, hd]
    rintro rfl
    exact hused d hd hnone
  · intro key d hd
    rw [find?_renew] at hd
    split at hd
    · cases hd; omega
    · have := hk key d hd; omega

theorem finds_obtain (hk : t.Known) (endpoint : String) :
    t.Finds endpoint (t.obtain endpoint).1 (t.obtain endpoint).2 := by
  rw [obtain]
  split
  · next c hc => exact ⟨steady_self hk, hc⟩
  · next hnone => exact finds_renew hk fun c hc => by rw [hnone] at hc; cases hc

theorem get?_eq (hk : t.Known) (endpoint : String) :
    t.get? endpoint = (t.find? endpoint).bind fun c => (t.cell c).session := by
  rw [get?]
  cases hc : t.find? endpoint with
  | none => rfl
  | some c =>
    have hlt := hk endpoint c hc
    simp only [Option.bind_some, cell, List.getElem?_eq_getElem hlt, Option.getD_some]

theorem finds_replace (hk : t.Known) (stale : Session) :
    t.Finds stale.endpoint (t.replace stale).1 (t.replace stale).2 := by
  rw [replace, get?_eq hk]
  split
  · next current hcurrent =>
    split
    · obtain ⟨c, hc, hs⟩ := Option.bind_eq_some_iff.mp hcurrent
      refine finds_renew hk fun d hd => ?_
      rw [hc] at hd
      cases hd
      rw [hs]
      nofun
    · exact finds_obtain hk _
  · exact finds_obtain hk _

end SessionTable

namespace Acquisition

variable {p : SessionPolicy} {a a' : Acquisition} {h h' : Hub}

theorem cellOf_spec {t : SessionTable} (hk : t.Known) (wish : SessionWish) :
    t.Finds wish.endpoint (cellOf wish t).1 (cellOf wish t).2 := by
  cases wish with
  | any endpoint => exact SessionTable.finds_obtain hk endpoint
  | other stale => exact SessionTable.finds_replace hk stale

/-- The cell at which an acquisition has lined up, and its ticket. -/
def place? (a : Acquisition) : Option (Nat × Nat) :=
  match a.phase with
  | .waiting cell ticket | .negotiating cell ticket _ => some (cell, ticket)
  | _ => none

theorem place?_of_waiting {cell ticket : Nat} (hp : a.phase = .waiting cell ticket) :
    a.place? = some (cell, ticket) := by
  rw [place?, hp]

theorem place?_of_negotiating {cell ticket : Nat} {n : Negotiation}
    (hp : a.phase = .negotiating cell ticket n) : a.place? = some (cell, ticket) := by
  rw [place?, hp]

/-- Whoever gives up leaves the line, if it is in one. -/
theorem table_abandon (a : Acquisition) (h : Hub) : (a.abandon h).table =
    match a.place? with
    | some (cell, ticket) => h.table.leave cell ticket
    | none => h.table := by
  rw [abandon, place?]
  cases a.phase <;> rfl

/-- The steps of an acquisition. -/
inductive Goes (p : SessionPolicy) (a : Acquisition) (h : Hub) : Acquisition → Hub → Prop where
  /-- The cell of the wish has a session already. -/
  | finds {cell : Nat} {table : SessionTable} {s : Session} (hp : a.phase = .entering)
      (hc : cellOf a.wish h.table = (cell, table)) (hs : (table.cell cell).session = some s) :
      Goes p a h { a with phase := .finished (.ok s) } { h with table }
  | linesUp {cell : Nat} {table : SessionTable} (hp : a.phase = .entering)
      (hc : cellOf a.wish h.table = (cell, table)) (hs : (table.cell cell).session = none) :
      Goes p a h { a with phase := .waiting cell table.tickets }
        { h with table := (table.lineUp cell).2 }
  /-- Somebody else has made the session. -/
  | takes {cell ticket : Nat} {s : Session} (hp : a.phase = .waiting cell ticket)
      (hs : (h.table.cell cell).session = some s) :
      Goes p a h { a with phase := .finished (.ok s) } h
  /-- It is one's turn to negotiate. -/
  | begins {cell ticket : Nat} (hp : a.phase = .waiting cell ticket)
      (hs : (h.table.cell cell).session = none)
      (hl : (h.table.cell cell).line.head? = some ticket) :
      Goes p a h { a with
        phase := .negotiating cell ticket { context := a.context, endpoint := a.wish.endpoint } } h
  | negotiates {cell ticket : Nat} {n n' : Negotiation} {l : Link}
      (hp : a.phase = .negotiating cell ticket n) (hn : n.step p h.link = some (n', l)) :
      Goes p a h { a with phase := .negotiating cell ticket n' } { h with link := l }
  | fills {cell ticket : Nat} {n : Negotiation} {s : Session}
      (hp : a.phase = .negotiating cell ticket n) (ho : n.outcome? = some (.ok s)) :
      Goes p a h { a with phase := .finished (.ok s) } { h with table := h.table.fill cell s }
  | fails {cell ticket : Nat} {n : Negotiation} {e : Error}
      (hp : a.phase = .negotiating cell ticket n) (ho : n.outcome? = some (.error e)) :
      Goes p a h { a with phase := .finished (.error e) }
        { h with table := h.table.leave cell ticket }

theorem Goes.outcome?_eq_none (hg : Goes p a h a' h') : a.outcome? = none := by
  rw [outcome?]
  cases hg <;> simp only [*]

/-- There are no other steps. -/
theorem goes_of_step (hs : a.step p h = some (a', h')) : Goes p a h a' h' := by
  rw [step] at hs
  cases hp : a.phase with
  | finished outcome => rw [hp] at hs; cases hs
  | entering =>
    rw [hp] at hs
    simp only [Option.some.injEq, enter] at hs
    cases hc : cellOf a.wish h.table with
    | mk c table =>
      rw [hc] at hs
      have hcell : (table.cells[c]?.bind SessionCell.session) = (table.cell c).session := by
        rw [SessionTable.cell]
        cases table.cells[c]? <;> rfl
      simp only [hcell] at hs
      cases hsession : (table.cell c).session with
      | some s => rw [hsession] at hs; cases hs; exact .finds hp hc hsession
      | none => rw [hsession] at hs; cases hs; exact .linesUp hp hc hsession
  | waiting cell ticket =>
    rw [hp] at hs
    simp only [wait] at hs
    split at hs
    · next s line hcell =>
      cases hs
      exact .takes hp (by rw [SessionTable.cell, hcell]; rfl)
    · next first line hcell =>
      split at hs
      · next hfirst =>
        cases hs
        refine .begins hp ?_ ?_
        · rw [SessionTable.cell, hcell]; rfl
        · rw [SessionTable.cell, hcell, hfirst]; rfl
      · cases hs
    · cases hs
  | negotiating cell ticket n =>
    rw [hp] at hs
    simp only at hs
    cases ho : n.outcome? with
    | none =>
      rw [ho] at hs
      obtain ⟨r, hr, he⟩ := Option.map_eq_some_iff.mp hs
      cases he
      exact .negotiates hp hr
    | some outcome =>
      rw [ho] at hs
      cases hs
      cases outcome with
      | ok s => exact .fills hp ho
      | error e => exact .fails hp ho

/-- Whoever is first in line for a session that nobody has made begins to negotiate. -/
theorem step_of_first {cell ticket : Nat} (hp : a.phase = .waiting cell ticket)
    (hs : (h.table.cell cell).session = none)
    (hl : (h.table.cell cell).line.head? = some ticket) :
    a.step p h = some ({ a with
      phase := .negotiating cell ticket { context := a.context, endpoint := a.wish.endpoint } }, h) := by
  rw [step, hp]
  simp only [wait]
  rw [SessionTable.cell] at hs hl
  cases hc : h.table.cells[cell]? with
  | none => rw [hc] at hl; cases hl
  | some x =>
    obtain ⟨session, line⟩ := x
    rw [hc] at hs hl
    simp only [Option.getD_some] at hs hl
    subst hs
    cases line with
    | nil => cases hl
    | cons first rest => cases hl; simp

end Acquisition

end SlurmLink
