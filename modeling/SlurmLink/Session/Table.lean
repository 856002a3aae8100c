import SlurmLink.Session.Negotiation

/-!
The sessions of a client by endpoint. Those who want the session of an endpoint that has none yet line
up; the first of them negotiates, and all get the session that it makes. If its negotiation fails, the
next one tries. Negotiating again starts a new line, but only for the session that is still in use, so
that those who hold the same outdated session share one negotiation.
-/

namespace SlurmLink

/-- The place of one session, which may still be made. -/
structure SessionCell where
  session : Option Session := none
  /-- The tickets of those who want the session, in order; the first of them negotiates. -/
  line : List Nat := []
  deriving DecidableEq, Repr, Inhabited

/-- The sessions of a client. Those who line up keep their cell, so cells stay when they are replaced
    or forgotten. -/
structure SessionTable where
  /-- All cells there have been, by number. -/
  cells : List SessionCell := []
  /-- The number of the current cell of an endpoint. -/
  index : List (String × Nat) := []
  /-- The next ticket. -/
  tickets : Nat := 0
  deriving Repr

namespace SessionTable

/-- The number of an endpoint's cell. -/
def find? (t : SessionTable) (endpoint : String) : Option Nat := t.index.lookup endpoint

/-- The session of an endpoint, once there is one. -/
def get? (t : SessionTable) (endpoint : String) : Option Session :=
  (t.find? endpoint).bind fun id => t.cells[id]?.bind SessionCell.session

/-- How many endpoints have a cell. -/
def size (t : SessionTable) : Nat := t.index.length

/-- Forgets all endpoints. -/
def clear (t : SessionTable) : SessionTable := { t with index := [] }

/-- Gives an endpoint a new cell in place of the one it may have. -/
def renew (t : SessionTable) (endpoint : String) : Nat × SessionTable :=
  let id := t.cells.length
  let index := match t.find? endpoint with
    | some _ => t.index.map fun e => if e.1 = endpoint then (e.1, id) else e
    | none => t.index ++ [(endpoint, id)]
  (id, { t with cells := t.cells ++ [{}], index })

/-- The number of an endpoint's cell, which is made if there is none. -/
def obtain (t : SessionTable) (endpoint : String) : Nat × SessionTable :=
  match t.find? endpoint with
  | some id => (id, t)
  | none => t.renew endpoint

/-- The number of the cell in which to look for a session other than `stale`: the endpoint's cell, or
    a new one if that holds `stale` itself. -/
def replace (t : SessionTable) (stale : Session) : Nat × SessionTable :=
  match t.get? stale.endpoint with
  | some current =>
    if current.serial = stale.serial then t.renew stale.endpoint else t.obtain stale.endpoint
  | none => t.obtain stale.endpoint

def modify (t : SessionTable) (id : Nat) (f : SessionCell → SessionCell) : SessionTable :=
  { t with cells := t.cells.modify id f }

/-- Lines up at a cell. -/
def lineUp (t : SessionTable) (id : Nat) : Nat × SessionTable :=
  (t.tickets,
    { t.modify id fun c => { c with line := c.line ++ [t.tickets] } with tickets := t.tickets + 1 })

/-- Leaves the line at a cell. -/
def leave (t : SessionTable) (id ticket : Nat) : SessionTable :=
  t.modify id fun c => { c with line := c.line.erase ticket }

/-- Puts a session into its cell, which ends the line. -/
def fill (t : SessionTable) (id : Nat) (s : Session) : SessionTable :=
  t.modify id fun _ => { session := some s, line := [] }

end SessionTable

/-- Whose session is wanted. -/
inductive SessionWish where
  /-- Any session of the endpoint. -/
  | any (endpoint : String)
  /-- A session of the same endpoint other than the given one. -/
  | other (stale : Session)
  deriving DecidableEq, Repr

def SessionWish.endpoint : SessionWish → String
  | .any endpoint => endpoint
  | .other stale => stale.endpoint

/-- How far the acquisition of a session has got. -/
inductive AcquisitionPhase where
  | entering
  | waiting (cell ticket : Nat)
  | negotiating (cell ticket : Nat) (n : Negotiation)
  | finished (outcome : Except Error Session)

/-- The acquisition of a session. Its context is that of the negotiation, if it has to negotiate. -/
structure Acquisition where
  context : Context
  wish : SessionWish
  phase : AcquisitionPhase := .entering

/-- A link and the sessions made over it. -/
structure Hub where
  link : Link := {}
  table : SessionTable := {}

instance : HasLink Hub := ⟨Hub.link, fun f h => { h with link := f h.link }⟩

namespace Acquisition

/-- The outcome, once there is one. -/
def outcome? (a : Acquisition) : Option (Except Error Session) :=
  match a.phase with
  | .finished outcome => some outcome
  | _ => none

/-- Whether the negotiation has panicked. Its place in line is kept until the acquisition is given up
    (`abandon`). -/
def hasPanicked (a : Acquisition) : Bool :=
  match a.phase with
  | .negotiating _ _ n => n.hasPanicked
  | _ => false

/-- The cell in which to look for the session. -/
def cellOf : SessionWish → SessionTable → Nat × SessionTable
  | .any endpoint, t => t.obtain endpoint
  | .other stale, t => t.replace stale

/-- Looks into the cell, and lines up if it is empty. -/
def enter (a : Acquisition) (h : Hub) : Acquisition × Hub :=
  let (cell, table) := cellOf a.wish h.table
  match table.cells[cell]?.bind SessionCell.session with
  | some s => ({ a with phase := .finished (.ok s) }, { h with table })
  | none =>
    let (ticket, table) := table.lineUp cell
    ({ a with phase := .waiting cell ticket }, { h with table })

/-- Takes the session once it is there; negotiates when it is one's turn. -/
def wait (cell ticket : Nat) (a : Acquisition) (h : Hub) : Option (Acquisition × Hub) :=
  match h.table.cells[cell]? with
  | some ⟨some s, _⟩ => some ({ a with phase := .finished (.ok s) }, h)
  | some ⟨none, first :: _⟩ =>
    if first = ticket then
      let n := { context := a.context, endpoint := a.wish.endpoint }
      some ({ a with phase := .negotiating cell ticket n }, h)
    else none
  | _ => none

/-- Ends with what the negotiation has come to. -/
def conclude (cell ticket : Nat) (outcome : Except Error Session) (a : Acquisition) (h : Hub) :
    Acquisition × Hub :=
  let table := match outcome with
    | .ok s => h.table.fill cell s
    | .error _ => h.table.leave cell ticket
  ({ a with phase := .finished outcome }, { h with table })

/-- One step of an acquisition, unless it waits or is over. -/
def step (p : SessionPolicy) (a : Acquisition) (h : Hub) : Option (Acquisition × Hub) :=
  match a.phase with
  | .entering => some (a.enter h)
  | .waiting cell ticket => a.wait cell ticket h
  | .negotiating cell ticket n =>
    match n.outcome? with
    | some outcome => some (a.conclude cell ticket outcome h)
    | none => (n.step p h.link).map fun r =>
      ({ a with phase := .negotiating cell ticket r.1 }, { h with link := r.2 })
  | .finished _ => none

/-- The instant up to which an acquisition waits, if it waits for one. -/
def wake (a : Acquisition) : Option Nat :=
  match a.phase with
  | .negotiating _ _ n => n.wake
  | _ => none

/-- Gives an acquisition up midway, which lets the next one in line go on. -/
def abandon (a : Acquisition) (h : Hub) : Hub :=
  match a.phase with
  | .waiting cell ticket | .negotiating cell ticket _ =>
    { h with table := h.table.leave cell ticket }
  | _ => h

/-- Acquisitions over a hub. -/
def machine (p : SessionPolicy) : Machine Hub Acquisition := ⟨step p, fun a _ => a.wake⟩

end Acquisition

end SlurmLink
