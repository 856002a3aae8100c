import SlurmLink.Config
import SlurmLink.Proofs.Path

/-!
How a URL of the web is taken apart. What is read is the text without blanks at its edges and without
tabs and line breaks (`core`); after the scheme and any slashes comes the authority, up to a mark that
ends it, and then the path, up to a question mark or a number sign:

    http : //  user@host:port  /a/b        ?query #fragment
               authority       path        ──── rest ──────

Whether there is a URL at all is decided by scheme and authority (`readWeb_of_ok`, `readWeb_of_error`).
-/

namespace SlurmLink

namespace Url

/-- Blanks and controls, which do not count at the edges of a URL. -/
def isEdge (c : Char) : Bool := c.toNat ≤ 0x20

/-- What counts in a text that is read as a URL. -/
def core (cs : List Char) : List Char :=
  (Text.dropTrailing isEdge (cs.dropWhile isEdge)).filter fun c => !isIgnored c

/-- The authority in what follows a scheme. -/
def authorityOf (cs : List Char) : List Char :=
  (cs.dropWhile isSlash).takeWhile fun c => !endsAuthority true c

/-- What follows the authority. -/
def afterAuthority (cs : List Char) : List Char :=
  (cs.dropWhile isSlash).drop (authorityOf cs).length

/-- The path in what follows an authority. -/
def pathOf (cs : List Char) : List Char := cs.takeWhile fun c => c != '?' && c != '#'

/-- With a host and a port, what follows the scheme of the web is a URL. -/
theorem readWeb_of_ok (scheme : Scheme) {cs : List Char} {host : Host} {port : Option Nat}
    (h : readHostPort (splitUser (authorityOf cs)).2 = .ok (host, port)) :
    ∃ u, readWeb scheme cs = .ok u ∧ u.scheme = scheme ∧ u.host = host ∧
      u.port = (if port = some scheme.defaultPort then none else port) ∧
      u.path = readPath (pathOf (afterAuthority cs)) := by
  rw [authorityOf] at h
  simp only [readWeb, h]
  exact ⟨_, rfl, rfl, rfl, rfl, rfl⟩

theorem readWeb_of_error {scheme : Scheme} {cs : List Char} {fault : UrlFault}
    (h : readHostPort (splitUser (authorityOf cs)).2 = .error fault) :
    readWeb scheme cs = .error fault := by
  rw [authorityOf] at h
  simp only [readWeb, h]
  rfl

theorem read_of_none {s : String} (h : splitScheme (core s.toList) = none) :
    read s = .error .relative := by
  rw [read]
  split
  · rfl
  · next hs => cases hs.symm.trans h

/-- How the rest of a URL is read depends on its scheme. -/
theorem read_of_some {s scheme : String} {rest : List Char}
    (h : splitScheme (core s.toList) = some (scheme, rest)) :
    read s =
      if scheme = "http" then (readWeb .http rest).map .web
      else if scheme = "https" then (readWeb .https rest).map .web
      else if scheme = "ws" ∨ scheme = "wss" ∨ scheme = "ftp" then
        (readWeb .http rest).map fun _ => .foreign scheme
      else if scheme = "file" then (checkFile rest).map fun _ => .foreign scheme
      else (checkOther rest).map fun _ => .foreign scheme := by
  rw [read]
  split
  · next hs => cases hs.symm.trans h
  · next hs => cases hs.symm.trans h; rfl

theorem eq_ok_of_map {α : Type} {r : Except UrlFault α} {f : α → Reading} {u : Url}
    (h : r.map f = .ok (.web u)) : ∃ a, r = .ok a ∧ f a = .web u := by
  cases r with
  | error fault => cases h
  | ok a => exact ⟨a, rfl, Except.ok.inj h⟩

/-- What is read as a URL of the web. -/
theorem read_eq_web {s : String} {u : Url} : read s = .ok (.web u) ↔
    ∃ scheme rest, splitScheme (core s.toList) = some (Scheme.name scheme, rest) ∧
      readWeb scheme rest = .ok u := by
  constructor
  · intro h
    cases hsplit : splitScheme (core s.toList) with
    | none =>
      rw [read_of_none hsplit] at h
      cases h
    | some found =>
      obtain ⟨scheme, rest⟩ := found
      rw [read_of_some hsplit] at h
      split at h
      · next hs =>
        obtain ⟨v, hv, he⟩ := eq_ok_of_map h
        cases he
        exact ⟨.http, rest, by rw [hs]; rfl, hv⟩
      split at h
      · next hs =>
        obtain ⟨v, hv, he⟩ := eq_ok_of_map h
        cases he
        exact ⟨.https, rest, by rw [hs]; rfl, hv⟩
      -- under every other scheme the URL is none of the web
      split at h
      · obtain ⟨_, _, he⟩ := eq_ok_of_map h
        cases he
      split at h
      · obtain ⟨_, _, he⟩ := eq_ok_of_map h
        cases he
      · obtain ⟨_, _, he⟩ := eq_ok_of_map h
        cases he
  · rintro ⟨scheme, rest, hsplit, hread⟩
    rw [read_of_some hsplit]
    cases scheme with
    | http =>
      rw [if_pos (show Scheme.name .http = "http" from rfl), hread]
      rfl
    | https =>
      rw [if_neg (show Scheme.name .https ≠ "http" by decide),
        if_pos (show Scheme.name .https = "https" from rfl), hread]
      rfl

end Url

/-- The endpoint of a configuration that passes its check is a URL of the web. -/
theorem ClientConfig.exists_web {config : ClientConfig} (h : config.validate = .ok ()) :
    ∃ u, Url.read config.endpoint = .ok (.web u) := by
  cases hr : Url.read config.endpoint with
  | error fault =>
    simp only [validate, validateUrl, hr] at h
    cases h
  | ok reading =>
    cases reading with
    | foreign scheme =>
      simp only [validate, validateUrl, hr] at h
      cases h
    | web u => exact ⟨u, rfl⟩

end SlurmLink
