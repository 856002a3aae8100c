import SlurmLink.Text.Number

/-!
Version identifiers. Two kinds occur: the revision of the REST interface (`v0.0.42`) and the Slurm
release that a daemon runs (`25.05.1`). Both are triples of 32-bit numbers ordered by their
components, the first one first.
-/

namespace SlurmLink

/-- Three version components, the most significant first. -/
structure Triple where
  major : UInt32
  minor : UInt32
  patch : UInt32
  deriving DecidableEq, Repr, Inhabited

namespace Triple

/-- The components as digits of one number: versions are ordered as these numbers are. -/
def rank (t : Triple) : Nat :=
  (t.major.toNat * 4294967296 + t.minor.toNat) * 4294967296 + t.patch.toNat

theorem rank_injective {a b : Triple} (h : a.rank = b.rank) : a = b := by
  obtain ⟨a₁, a₂, a₃⟩ := a
  obtain ⟨b₁, b₂, b₃⟩ := b
  have := a₁.toNat_lt; have := a₂.toNat_lt; have := a₃.toNat_lt
  have := b₁.toNat_lt; have := b₂.toNat_lt; have := b₃.toNat_lt
  simp only [rank] at h
  have h₁ : a₁.toNat = b₁.toNat := by omega
  have h₂ : a₂.toNat = b₂.toNat := by omega
  have h₃ : a₃.toNat = b₃.toNat := by omega
  simp only [UInt32.toNat_inj] at h₁ h₂ h₃
  simp [h₁, h₂, h₃]

end Triple

/-- The component of a version that a complaint is about. -/
inductive Component where
  | major
  | minor
  | patch
  deriving DecidableEq, Repr

def Component.name : Component → String
  | .major => "major"
  | .minor => "minor"
  | .patch => "patch"

/-- Why a text is not a version. -/
inductive VersionFault where
  /-- Nothing is left after the blanks and the optional tag. -/
  | empty
  /-- There are not exactly three components. -/
  | shape
  /-- A component is not a run of digits. -/
  | notANumber (component : Component)
  /-- A component does not fit 32 bits. -/
  | outOfRange
  deriving DecidableEq, Repr

def VersionFault.message : VersionFault → String
  | .empty => "empty version"
  | .shape => "expected three dot-separated components"
  | .notANumber c => c.name ++ " component is not a number"
  | .outOfRange => "component out of range"

/-- A text that was rejected as a version, kept as it was given. -/
structure VersionError where
  input : String
  fault : VersionFault
  deriving DecidableEq, Repr

def VersionError.message (e : VersionError) : String :=
  "invalid version '" ++ e.input ++ "': " ++ e.fault.message

namespace Triple

/-- Reads one component: it must be there, be digits, and fit. -/
def readComponent (c : Component) : Option (List Char) → Except VersionFault UInt32
  | none => .error .shape
  | some digits =>
    if !Text.isDigits digits then .error (.notANumber c)
    else if 4294967295 < Text.digitsValue digits then .error .outOfRange
    else .ok (Text.digitsValue digits).toUInt32

/-- Reads exactly three components between dots, from the left. -/
def read (cs : List Char) : Except VersionFault Triple := do
  if cs.isEmpty then throw .empty
  let parts := Text.pieces '.' cs
  let major ← readComponent .major parts[0]?
  let minor ← readComponent .minor parts[1]?
  let patch ← readComponent .patch parts[2]?
  if 3 < parts.length then throw .shape
  return { major, minor, patch }

end Triple

/-- A revision of the REST interface such as `v0.0.42`. -/
structure ApiVersion where
  triple : Triple
  deriving DecidableEq, Repr, Inhabited

/-- A Slurm release such as `25.05.1`. -/
structure ProductVersion where
  triple : Triple
  deriving DecidableEq, Repr, Inhabited

namespace ApiVersion

def rank (v : ApiVersion) : Nat := v.triple.rank

instance : LE ApiVersion := ⟨fun a b => a.rank ≤ b.rank⟩
instance : LT ApiVersion := ⟨fun a b => a.rank < b.rank⟩
instance (a b : ApiVersion) : Decidable (a ≤ b) := inferInstanceAs (Decidable (a.rank ≤ b.rank))
instance (a b : ApiVersion) : Decidable (a < b) := inferInstanceAs (Decidable (a.rank < b.rank))
instance : Ord ApiVersion := ⟨fun a b => compare a.rank b.rank⟩

/-- The revision with the given last component and zeros before it. -/
def ofPatch (patch : UInt32) : ApiVersion := ⟨⟨0, 0, patch⟩⟩

/-- Reads `v0.0.42` or `0.0.42`, with blanks around it. -/
def parse (input : String) : Except VersionError ApiVersion :=
  match Triple.read (Text.stripLead ['v'] (Text.trim input.toList)) with
  | .ok t => .ok ⟨t⟩
  | .error fault => .error { input, fault }

def toText (v : ApiVersion) : String :=
  "v" ++ toString v.triple.major.toNat ++ "." ++ toString v.triple.minor.toNat ++ "." ++
    toString v.triple.patch.toNat

instance : ToString ApiVersion := ⟨toText⟩

/-- Puts a version into an ascending list unless it is there. -/
def insertAscending (v : ApiVersion) : List ApiVersion → List ApiVersion
  | [] => [v]
  | w :: ws =>
    if v < w then v :: w :: ws
    else if v = w then w :: ws
    else w :: insertAscending v ws

/-- The versions of a list in ascending order, each once. -/
def ascending (vs : List ApiVersion) : List ApiVersion := vs.foldr insertAscending []

end ApiVersion

namespace ProductVersion

def rank (v : ProductVersion) : Nat := v.triple.rank

instance : LE ProductVersion := ⟨fun a b => a.rank ≤ b.rank⟩
instance : LT ProductVersion := ⟨fun a b => a.rank < b.rank⟩
instance (a b : ProductVersion) : Decidable (a ≤ b) := inferInstanceAs (Decidable (a.rank ≤ b.rank))
instance (a b : ProductVersion) : Decidable (a < b) := inferInstanceAs (Decidable (a.rank < b.rank))
instance : Ord ProductVersion := ⟨fun a b => compare a.rank b.rank⟩

/-- The first release of a release line, such as `25.05.0`. -/
def ofLine (major minor : UInt32) : ProductVersion := ⟨⟨major, minor, 0⟩⟩

/-- Reads `25.05.1` or `Slurm-25.05.1`, with blanks around it. -/
def parse (input : String) : Except VersionError ProductVersion :=
  match Triple.read (Text.stripLead "Slurm-".toList (Text.trim input.toList)) with
  | .ok t => .ok ⟨t⟩
  | .error fault => .error { input, fault }

/-- Releases are named by year and month, so the second component has two digits at least. -/
def toText (v : ProductVersion) : String :=
  toString v.triple.major.toNat ++ "." ++ Text.padded 2 v.triple.minor.toNat ++ "." ++
    toString v.triple.patch.toNat

instance : ToString ProductVersion := ⟨toText⟩

end ProductVersion

end SlurmLink
