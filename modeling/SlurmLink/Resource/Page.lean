import SlurmLink.Json.Record

/-!
Pages of a list. The server sends whole lists, so a page is cut here: the items from an offset on, up
to a limit. Sizes and offsets have 64 bits, and sums of them stop at the greatest one.
-/

namespace SlurmLink

/-- The greatest size and offset. -/
def maxSize : Nat := 18446744073709551615

/-- The sum of two sizes, which stops at the greatest one. -/
def addSizes (a b : Nat) : Nat := min (a + b) maxSize

/-- Which part of a list is wanted; without a limit everything from the offset on. -/
structure ListOptions where
  offset : Nat := 0
  limit : Option Nat := none
  deriving DecidableEq, Repr

/-- A part of a list, and how long the whole list is. -/
structure Page (α : Type) where
  items : List α
  total : Nat
  offset : Nat
  limit : Option Nat
  deriving DecidableEq, Repr

namespace Page

variable {α : Type}

/-- Cuts the wanted part out of a list: what comes after it goes first, then what comes before. -/
def slice (all : List α) (options : ListOptions) : Page α :=
  let start := min options.offset all.length
  let stop := match options.limit with
    | some n => min (addSizes start n) all.length
    | none => all.length
  { items := (all.take stop).drop start
    total := all.length
    offset := options.offset
    limit := options.limit }

/-- Holds when the list goes on after the page. -/
def hasMore (p : Page α) : Bool := addSizes p.offset p.items.length < p.total

def toJson (write : α → Json) (p : Page α) : Json :=
  .obj [("items", .arr (p.items.map write)), ("total", .ofNat p.total),
    ("offset", .ofNat p.offset), ("limit", .ofOption .ofNat p.limit)]

def ofJson? (read : Json → Option α) (v : Json) : Option (Page α) := do
  let r ← Json.Record.read ["items", "total", "offset", "limit"] v
  let items ← r.required "items" (Json.readList read)
  let total ← r.required "total" Json.readNat64
  let offset ← r.required "offset" Json.readNat64
  let limit ← r.optional "limit" Json.readNat64
  return { items, total, offset, limit }

end Page

namespace ListOptions

def toJson (o : ListOptions) : Json :=
  .obj [("offset", .ofNat o.offset), ("limit", .ofOption .ofNat o.limit)]

def ofJson? (v : Json) : Option ListOptions := do
  let r ← Json.Record.read ["offset", "limit"] v
  let offset ← r.required "offset" Json.readNat64
  let limit ← r.optional "limit" Json.readNat64
  return { offset, limit }

end ListOptions

end SlurmLink
