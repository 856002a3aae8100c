import SlurmLink.Error
import SlurmLink.Json.Record

/-!
Discovery and selection: which release a server reports in its interface document, and which
revision is the best for it.
-/

namespace SlurmLink

namespace Discovery

/-- A component of a reported version: an integer, or a text of digits. -/
def component (version : Json) (key : String) : Option Nat :=
  (version.member? key).bind fun v =>
    (v.natUpTo? 18446744073709551615).or <|
      v.text?.bind fun s => (Text.readUnsigned 18446744073709551615 s.toList).toOption

/-- The release given by its components. -/
def ofComponents (version : Json) : Option String := do
  let major ← component version "major"
  let minor ← component version "minor"
  let micro ← component version "micro"
  return toString major ++ "." ++ toString minor ++ "." ++ toString micro

/-- The release in front of the list of plugins that a version text may carry. -/
def ofVersionText (s : String) : Option String :=
  let lead := s.toList.takeWhile (· != '&')
  if lead.isEmpty then none else some (String.ofList lead)

/-- The release that an interface document reports: named outright, or by its components, or in the
    version text. -/
def reportedRelease (document : Json) : Option String :=
  (document.member? "info").bind fun info =>
    ((info.path? ["x-slurm", "release"]).bind Json.text?).or <|
    ((info.path? ["x-slurm", "version"]).bind ofComponents).or <|
    ((info.member? "version").bind Json.text?).bind ofVersionText

/-- Reads an interface document; nothing in it may be garbled or nested too deep. -/
def readDocument (body : List UInt8) : Option Json :=
  (Json.ofBytes? body).filter fun v => v.readable && v.depth ≤ Json.maxDepth

/-- The address of a server's interface document. -/
def url (endpoint : String) : String :=
  String.ofList (Text.dropTrailing (· == '/') endpoint.toList) ++ "/openapi/v3"

/-- The release in the body of an answer from `endpoint`. -/
def release (endpoint : String) (body : List UInt8) : Except Error ProductVersion :=
  match readDocument body with
  | none => .error (.api endpoint none (.malformed "discovery"))
  | some document =>
    match reportedRelease document with
    | none => .error (.api endpoint none .noRelease)
    | some text =>
      match ProductVersion.parse text with
      | .ok v => .ok v
      | .error e => .error (.parse e)

end Discovery

/-- The newest candidate that is compiled in. Both lists are ascending; if they have nothing in
    common, the error names the compiled version nearest to the newest candidate. -/
def selectVersion (release : ProductVersion) (candidates compiled : List ApiVersion) :
    Except Error ApiVersion :=
  match candidates.reverse.find? (fun v => compiled.contains v) with
  | some v => .ok v
  | none =>
    let nearest := (candidates.getLast?.bind fun newest =>
      compiled.reverse.find? (fun v => v ≤ newest)).or compiled.head?
    match nearest with
    | none => .error (.config .noVersions)
    | some v =>
      .error (.unsupportedVersion
        ("Slurm " ++ release.toText ++ " (" ++
          Text.joinWith ", " (candidates.map ApiVersion.toText) ++ ")") v)

/-- The revision of an explicitly named version. -/
def explicitRevision (v : ApiVersion) : Except Error Revision :=
  match Revision.ofApiVersion? v with
  | some r => .ok r
  | none => .error (.unsupportedVersion v.toText (Revision.nearest v))

/-- The revision to use with a release: the newest that the matrix and the compiled ones share. -/
def chooseRevision (matrix : Matrix) (release : ProductVersion) : Except Error Revision :=
  match matrix.resolve release with
  | none => .error (.noMatch release)
  | some candidates =>
    match selectVersion release candidates Revision.versions with
    | .error e => .error e
    | .ok v => explicitRevision v

end SlurmLink
