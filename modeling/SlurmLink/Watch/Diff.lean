import SlurmLink.Error

/-!
What has changed from one listing to the next. Every item has a key, by which it is known again, and a
state, whose change is an event.
-/

namespace SlurmLink

/-- An event of a watch. -/
inductive WatchEvent (α : Type) where
  /-- An item has appeared. -/
  | added (item : α)
  /-- A known item is in another state. -/
  | changed (previous : String) (item : α)
  /-- A known item is no longer listed. -/
  | removed (key lastState : String)
  /-- The list could not be had this time. -/
  | failed (e : Error)

/-- The states of the known items by key. -/
abbrev Known := List (String × String)

namespace Known

/-- Notes the state of an item, in place of the one noted before. -/
def put (key state : String) : Known → Known
  | [] => [(key, state)]
  | (k, s) :: rest => if k = key then (k, state) :: rest else (k, s) :: put key state rest

end Known

namespace WatchEvent

variable {α : Type} (key state : α → String)

/-- The event of an item that is listed. Items that are new make none on the first listing. -/
def ofItem (baseline : Bool) (known : Known) (item : α) : Option (WatchEvent α) :=
  match known.lookup (key item) with
  | none => if baseline then none else some (.added item)
  | some previous => if previous = state item then none else some (.changed previous item)

/-- The events of the items that are listed, and the states known after them. -/
def ofItems (baseline : Bool) : Known → List α → List (WatchEvent α) × Known
  | known, [] => ([], known)
  | known, item :: items =>
    let (events, after) := ofItems baseline (known.put (key item) (state item)) items
    ((ofItem key state baseline known item).toList ++ events, after)

/-- The events of a listing: those of the items in their order, then one for each known item that is
    missing, in the order of the keys. Also the states known after it. -/
def ofListing (baseline : Bool) (known : Known) (items : List α) : List (WatchEvent α) × Known :=
  let (events, after) := ofItems key state baseline known items
  let listed := items.map key
  let gone := (after.filter fun p => !listed.contains p.1).mergeSort
    fun p q => decide (p.1 ≤ q.1)
  (events ++ gone.map fun p => .removed p.1 p.2, after.filter fun p => listed.contains p.1)

end WatchEvent

end SlurmLink
