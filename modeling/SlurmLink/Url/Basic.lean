import SlurmLink.Url.Host

/-!
URLs of the web, taken apart: scheme, user, host, port, the segments of the path, query and
fragment. Segments can be added to the path; each is escaped so that it stays one segment.
-/

namespace SlurmLink

/-- The schemes of the web. -/
inductive Scheme where
  | http
  | https
  deriving DecidableEq, Repr

namespace Scheme

def name : Scheme → String
  | .http => "http"
  | .https => "https"

def defaultPort : Scheme → Nat
  | .http => 80
  | .https => 443

end Scheme

/-- A URL with its parts in their written form. The path is the text between its slashes, so it has
    one segment at least. -/
structure Url where
  scheme : Scheme
  userinfo : String
  host : Host
  /-- Missing when it is the default of the scheme. -/
  port : Option Nat
  path : List String
  query : Option String
  fragment : Option String
  deriving DecidableEq, Repr

namespace Url

/-! ### Writing -/

def toText (u : Url) : String :=
  u.scheme.name ++ "://" ++
    (if u.userinfo.isEmpty then "" else u.userinfo ++ "@") ++ u.host.toText ++
    (match u.port with | some p => ":" ++ toString p | none => "") ++
    String.join (u.path.map ("/" ++ ·)) ++
    (match u.query with | some q => "?" ++ q | none => "") ++
    (match u.fragment with | some f => "#" ++ f | none => "")

/-! ### Adding segments -/

/-- Leaves out an empty segment at the end, unless it is the only one. -/
def popIfEmpty (path : List String) : List String :=
  if 1 < path.length ∧ path.getLast? = some "" then path.dropLast else path

def isIgnored (c : Char) : Bool := c == '\t' || c == '\n' || c == '\r'

/-- The escaped form of a segment; tabs and line breaks are left out. -/
def segmentText (s : String) : String :=
  String.ofList (encodeWith inSegment (s.toList.filter fun c => !isIgnored c))

/-- A segment that names a drive: a letter and a colon or a bar. -/
def isDrive : List Char → Bool
  | [letter, mark] => letter.isAlpha && (mark == ':' || mark == '|')
  | _ => false

/-- The segments of the directory above. A drive has none. -/
def above (path : List String) : List String :=
  if path.getLast?.any fun s => isDrive s.toList then path else path.dropLast

/-- Adds a segment. One dot or two dots add nothing; a segment that becomes one of them by leaving
    out tabs and line breaks moves in the path as they do. -/
def pushSegment (path : List String) (s : String) : List String :=
  if s = "." ∨ s = ".." then path
  else
    let base := if path = [""] then [] else path
    let text := segmentText s
    if text = ".." then above base ++ [""]
    else if text = "." then base ++ [""]
    else base ++ [text]

/-- Adds segments after those of the path. -/
def extend (u : Url) (segments : List String) : Url :=
  { u with path := segments.foldl pushSegment (popIfEmpty u.path) }

/-! ### Reading -/

/-- The letters, digits and marks of a scheme. -/
def isSchemeChar (c : Char) : Bool := c.isAlphanum || c == '+' || c == '-' || c == '.'

/-- The scheme in front, in lower case, and what follows its colon. -/
def splitScheme (cs : List Char) : Option (String × List Char) :=
  let scheme := cs.takeWhile isSchemeChar
  match scheme, cs.drop scheme.length with
  | c :: _, ':' :: rest =>
    if c.isAlpha then some (String.ofList (scheme.map Char.toLower), rest) else none
  | _, _ => none

def isSlash (c : Char) : Bool := c == '/' || c == '\\'

/-- The marks that end the authority of a URL; a backslash is one only on the web. -/
def endsAuthority (web : Bool) (c : Char) : Bool :=
  c == '/' || c == '?' || c == '#' || (web && c == '\\')

/-- Splits at the last `@`: the user and the rest of the authority. -/
def splitUser (cs : List Char) : Option (List Char) × List Char :=
  if cs.contains '@' then
    let rest := (cs.reverse.takeWhile (· != '@')).reverse
    (some (cs.take (cs.length - rest.length - 1)), rest)
  else (none, cs)

/-- The written form of a user and password; an empty password is left out with its colon. -/
def userText (cs : List Char) : String :=
  let user := cs.takeWhile (· != ':')
  let password := (cs.drop user.length).drop 1
  String.ofList (encodeWith inUserinfo user ++
    (if password.isEmpty then [] else ':' :: encodeWith inUserinfo password))

/-- The host in front: up to a colon that is not inside brackets. -/
def hostPart : Bool → List Char → List Char
  | _, [] => []
  | inside, c :: rest =>
    if c = ':' ∧ !inside then []
    else c :: hostPart (if c = '[' then true else if c = ']' then false else inside) rest

/-- The port after the host: nothing, or a colon and digits. -/
def readPort : List Char → Except UrlFault (Option Nat)
  | [] => .ok none
  | _ :: digits =>
    if digits.isEmpty then .ok none
    else if digits.all Text.isDigit && Text.digitsValue digits ≤ 65535 then
      .ok (some (Text.digitsValue digits))
    else .error .invalidPort

/-- Host and port of an authority of the web, after the user. -/
def readHostPort (cs : List Char) : Except UrlFault (Host × Option Nat) := do
  let host := hostPart false cs
  let read ← Host.read host
  let port ← readPort (cs.drop host.length)
  return (read, port)

/-- A segment that stands for the directory itself, plain or escaped. -/
def isDot (s : List Char) : Bool := s = ['.'] || s.map Char.toLower = ['%', '2', 'e']

/-- A segment that stands for the directory above, plain or escaped. -/
def isDoubleDot (s : List Char) : Bool :=
  let t := s.map Char.toLower
  t = ['.', '.'] || t = ['.', '%', '2', 'e'] || t = ['%', '2', 'e', '.'] ||
    t = ['%', '2', 'e', '%', '2', 'e']

/-- Resolves the segments of a path from left to right, onto those kept so far. -/
def resolve : List String → List (List Char) → List String
  | kept, [] => kept
  | kept, [s] =>
    if isDoubleDot s then above kept ++ [""]
    else if isDot s then kept ++ [""]
    else kept ++ [String.ofList s]
  | kept, s :: rest =>
    if isDoubleDot s then resolve (above kept) rest
    else if isDot s then resolve kept rest
    else resolve (kept ++ [String.ofList s]) rest

/-- The segments of a path that may lack its first slash. -/
def readPath (cs : List Char) : List String :=
  let body := match cs with
    | c :: rest => if isSlash c then rest else cs
    | [] => []
  let segments := Text.pieces '/' (body.map fun c => if isSlash c then '/' else c)
  resolve [] (segments.map (encodeWith inPath))

/-- Reads what follows the scheme of the web. -/
def readWeb (scheme : Scheme) (cs : List Char) : Except UrlFault Url := do
  let body := cs.dropWhile isSlash
  let authority := body.takeWhile (fun c => !endsAuthority true c)
  let after := body.drop authority.length
  let (user, hostPort) := splitUser authority
  let (host, port) ← readHostPort hostPort
  let path := after.takeWhile (fun c => c != '?' && c != '#')
  let tail := after.drop path.length
  let query := tail.takeWhile (· != '#')
  let fragment := tail.drop query.length
  return {
    scheme, host
    userinfo := userText (user.getD [])
    port := if port = some scheme.defaultPort then none else port
    path := readPath path
    query := if query.isEmpty then none else some (String.ofList (encodeWith inQuery (query.drop 1)))
    fragment :=
      if fragment.isEmpty then none
      else some (String.ofList (encodeWith inFragment (fragment.drop 1))) }

/-- Checks a file's URL: after two slashes or more than two comes a host, which may be empty. -/
def checkFile : List Char → Except UrlFault Unit
  | a :: b :: rest =>
    if isSlash a && isSlash b then
      let host := rest.takeWhile (fun c => !endsAuthority true c)
      if host.isEmpty || isDrive host then .ok () else (Host.read host).map fun _ => ()
    else .ok ()
  | _ => .ok ()

/-- Checks a URL outside the web: after two slashes comes an authority. A backslash ends its port. -/
def checkOther : List Char → Except UrlFault Unit
  | '/' :: '/' :: rest => do
    let authority := rest.takeWhile (fun c => !endsAuthority false c)
    let (user, hostPort) := splitUser authority
    let atEnd := rest.length = authority.length
    if user = some [] ∧ hostPort = [] ∧ !atEnd then throw .emptyHost
    let host := hostPart false hostPort
    Host.checkPlain host
    let port := hostPort.drop host.length
    if host = [] ∧ (!port.isEmpty || !(userText (user.getD [])).isEmpty) then throw .emptyHost
    let _ ← readPort (port.takeWhile (· != '\\'))
    return ()
  | _ => .ok ()

/-- A text read as a URL. -/
inductive Reading where
  | web (u : Url)
  /-- A URL with a scheme that is not of the web. -/
  | foreign (scheme : String)
  deriving DecidableEq, Repr

/-- Reads a URL. Blanks and controls around it and tabs and line breaks within it do not count. -/
def read (s : String) : Except UrlFault Reading :=
  let isEdge (c : Char) : Bool := c.toNat ≤ 0x20
  let cs := (Text.dropTrailing isEdge (s.toList.dropWhile isEdge)).filter fun c => !isIgnored c
  match splitScheme cs with
  | none => .error .relative
  | some (scheme, rest) =>
    if scheme = "http" then (readWeb .http rest).map .web
    else if scheme = "https" then (readWeb .https rest).map .web
    else if scheme = "ws" ∨ scheme = "wss" ∨ scheme = "ftp" then
      (readWeb .http rest).map fun _ => .foreign scheme
    else if scheme = "file" then (checkFile rest).map fun _ => .foreign scheme
    else (checkOther rest).map fun _ => .foreign scheme

end Url

end SlurmLink
