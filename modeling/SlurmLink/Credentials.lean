import SlurmLink.Failure
import SlurmLink.Text.Quoted

/-!
Credentials: the headers that say who sends a request. They are asked for anew with every attempt.
-/

namespace SlurmLink

def userNameHeader : String := "X-SLURM-USER-NAME"
def userTokenHeader : String := "X-SLURM-USER-TOKEN"

/-- A user name and a token that do not change. -/
structure TokenAuth where
  userName : String
  token : String
  deriving DecidableEq, Repr

namespace TokenAuth

/-- The headers: the user's name unless it is empty, and the token, which must not be. -/
def headers (a : TokenAuth) : Except AuthError (List Header) :=
  if a.token.isEmpty then .error ⟨"empty JWT"⟩
  else .ok ((if a.userName.isEmpty then [] else [(userNameHeader, a.userName)]) ++
    [(userTokenHeader, a.token)])

/-- The text for a log, which never shows the token. -/
def describe (a : TokenAuth) : String :=
  "TokenAuth \x7b user_name: " ++ Text.quoted a.userName ++ ", token: \"<redacted>\" \x7d"

end TokenAuth

/-- A source of headers. The `n`-th answer, counted from 0, comes `latency n` milliseconds after it
    was asked for. -/
structure Credentials where
  answer : Nat → Except AuthError (List Header)
  latency : Nat → Nat

namespace Credentials

/-- No headers at all. -/
def none : Credentials := ⟨fun _ => .ok [], fun _ => 0⟩

def ofToken (a : TokenAuth) : Credentials := ⟨fun _ => a.headers, fun _ => 0⟩

/-- A source that fails for the given reason. -/
def failing (reason : String) : Credentials := ⟨fun _ => .error ⟨reason⟩, fun _ => 0⟩

/-- The same answers after a wait. -/
def after (latency : Nat) (c : Credentials) : Credentials := { c with latency := fun _ => latency }

end Credentials

end SlurmLink
