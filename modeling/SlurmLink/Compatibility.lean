import SlurmLink.Version

/-!
The compatibility matrix: which revisions of the REST interface a Slurm release serves. An entry
covers one release or a half-open range of releases; an exact entry wins over a range, and a release
that no entry covers has no answer.
-/

namespace SlurmLink

/-- The releases that an entry covers. -/
inductive Coverage where
  /-- One release. -/
  | exact (release : ProductVersion)
  /-- The releases from `start` on and before `stop`. -/
  | range (start stop : ProductVersion)
  deriving DecidableEq, Repr

namespace Coverage

def contains : Coverage → ProductVersion → Bool
  | .exact release, v => release = v
  | .range start stop, v => start ≤ v && v < stop

/-- The first release covered. -/
def start : Coverage → ProductVersion
  | .exact release => release
  | .range start _ => start

def isExact : Coverage → Bool
  | .exact _ => true
  | .range .. => false

def toText : Coverage → String
  | .exact release => "=" ++ release.toText
  | .range start stop => "[" ++ start.toText ++ ", " ++ stop.toText ++ ")"

end Coverage

/-- A row of the matrix: the releases covered and the revisions they serve, in ascending order. -/
structure MatrixEntry where
  coverage : Coverage
  supported : List ApiVersion
  deriving DecidableEq, Repr

namespace MatrixEntry

/-- An entry of any list of revisions. -/
def of (coverage : Coverage) (supported : List ApiVersion) : MatrixEntry :=
  ⟨coverage, ApiVersion.ascending supported⟩

end MatrixEntry

/-- Why entries do not make a matrix. -/
inductive MatrixFault where
  /-- An entry serves nothing. -/
  | emptySupportedSet (coverage : Coverage)
  /-- A range ends where it starts, or before. -/
  | emptyRange (coverage : Coverage)
  /-- Two entries of one sort cover a release in common. -/
  | overlapping (first second : Coverage)
  deriving DecidableEq, Repr

def MatrixFault.message : MatrixFault → String
  | .emptySupportedSet c => "entry " ++ c.toText ++ " has no supported API versions"
  | .emptyRange c => "range " ++ c.toText ++ " is empty"
  | .overlapping c d => "entries " ++ c.toText ++ " and " ++ d.toText ++ " overlap"

/-- A compatibility matrix, its entries ordered by their first release. -/
structure Matrix where
  entries : List MatrixEntry
  deriving DecidableEq, Repr

namespace Matrix

/-- What is wrong with one entry. -/
def entryFault (e : MatrixEntry) : Option MatrixFault :=
  if e.supported.isEmpty then some (.emptySupportedSet e.coverage)
  else match e.coverage with
    | .range start stop => if stop ≤ start then some (.emptyRange e.coverage) else none
    | .exact _ => none

/-- Two entries next to each other in order that share a release: a range that starts before the
    one ahead of it ends, or an exact entry repeated. -/
def collide : Coverage → Coverage → Bool
  | .range _ stop, .range start _ => start < stop
  | .exact v, .exact w => v = w
  | _, _ => false

/-- The first two neighbours that collide. -/
def firstCollision : List Coverage → Option MatrixFault
  | c :: d :: rest =>
    if collide c d then some (.overlapping c d) else firstCollision (d :: rest)
  | _ => none

/-- What is wrong with entries in order: first the entries on their own, then the ranges, then the
    exact entries. -/
def fault (entries : List MatrixEntry) : Option MatrixFault :=
  (entries.findSome? entryFault).or <|
    let coverages := entries.map MatrixEntry.coverage
    (firstCollision (coverages.filter fun c => !c.isExact)).or
      (firstCollision (coverages.filter Coverage.isExact))

/-- Puts entries in order of their first release, keeping the order of equal ones. -/
def sortEntries (entries : List MatrixEntry) : List MatrixEntry :=
  entries.mergeSort (fun a b => decide (a.coverage.start ≤ b.coverage.start))

/-- Orders the entries and checks them. -/
def build (entries : List MatrixEntry) : Except MatrixFault Matrix :=
  match fault (sortEntries entries) with
  | some f => .error f
  | none => .ok ⟨sortEntries entries⟩

/-- A release line and the last components of the revisions it serves. -/
def line (start stop : UInt32 × UInt32) (patches : List UInt32) : MatrixEntry :=
  .of (.range (.ofLine start.1 start.2) (.ofLine stop.1 stop.2)) (patches.map ApiVersion.ofPatch)

/-- The matrix of the known release lines: each serves the revision it brought and the two before
    it. -/
def builtin : Matrix where
  entries := [
    line (24, 5) (24, 11) [39, 40, 41],
    line (24, 11) (25, 5) [40, 41, 42],
    line (25, 5) (25, 11) [41, 42, 43],
    line (25, 11) (26, 5) [42, 43, 44]]

/-- The revisions that a release serves. -/
def resolve (m : Matrix) (release : ProductVersion) : Option (List ApiVersion) :=
  ((m.entries.find? fun e => e.coverage.isExact && e.coverage.contains release).or
    (m.entries.find? fun e => !e.coverage.isExact && e.coverage.contains release)).map
    MatrixEntry.supported

end Matrix

end SlurmLink
