import SlurmLink.Credentials
import SlurmLink.Retry
import SlurmLink.Schedule

/-!
A call: one request, tried until it succeeds, fails for good or may not be tried again. It takes one
permit of its endpoint's breaker, which it gives back with the outcome of the last attempt. Each
attempt asks for credentials, sends the request and waits for the answer; between attempts the call
rests. Whatever a call waits for, it stops as soon as its context is done.

A call goes on step by step: `Call.step` is `none` while it waits, and `Call.wake` says until when.

A call for which there is no next wait panics. It is over then, but has no outcome, and nobody gives its
permit back. Whatever needs the outcome stands still with the call, until it is dropped like anything
else that is given up midway.
-/

namespace SlurmLink

/-- How the calls of a client are made. -/
structure CallPolicy where
  retry : RetryPolicy := {}
  breaker : BreakerConfig := {}
  credentials : Credentials := .none
  /-- The factor that chance draws for the `n`-th wait between attempts. -/
  draw : Nat → Binary64 := fun _ => .one

namespace CallPolicy

/-- The wait after attempt `k`, counted from 0, in milliseconds, if there is one. -/
def rest? (p : CallPolicy) (pause k : Nat) : Option Nat :=
  (p.retry.delay (p.draw pause) k).map Span.ticks

end CallPolicy

/-- A permit and the number of the breaker that gave it. -/
structure Admission where
  breaker : Nat
  permit : Permit
  deriving DecidableEq, Repr

/-- What an attempt waits for, and until when. -/
inductive Stage where
  /-- An answer of the credentials, by its number. -/
  | authorizing (query due : Nat)
  /-- The answer of the server, which is on its way. -/
  | awaiting (outcome : Except TransportError Response) (due : Nat)
  /-- The next attempt. -/
  | resting (due : Nat)

def Stage.due : Stage → Nat
  | .authorizing _ due => due
  | .awaiting _ due => due
  | .resting due => due

/-- How far a call has got. -/
inductive CallPhase where
  | entering
  /-- Attempt `attempt`, counted from 0, is under way. -/
  | active (admission : Admission) (attempt : Nat) (stage : Stage)
  /-- There was no wait after attempt `attempt`. -/
  | panicked (admission : Admission) (attempt : Nat)
  | finished (outcome : Except Failure Response)

/-- A call. -/
structure Call where
  context : Context
  endpoint : String
  request : Request
  phase : CallPhase := .entering

namespace Call

/-- The outcome, once there is one. -/
def outcome? (c : Call) : Option (Except Failure Response) :=
  match c.phase with
  | .finished outcome => some outcome
  | _ => none

def hasPanicked (c : Call) : Bool :=
  match c.phase with
  | .panicked .. => true
  | _ => false

/-- Whether a call has returned or has panicked. -/
def isOver (c : Call) : Bool := c.outcome?.isSome || c.hasPanicked

/-- What an attempt came to: a response with success, or a failure. -/
def judge : Except TransportError Response → Except Failure Response
  | .error e => .error (.transport e)
  | .ok r => if r.isSuccess then .ok r else .error (.ofResponse r)

/-- What the outcome of a call says to its breaker: a failure that another try could mend counts
    against the endpoint, one that it could not mend counts for it, and a call that was given up
    counts for nothing. -/
def verdict : Except Failure Response → Outcome
  | .ok _ => .success
  | .error f =>
    if f.kind = .cancelled then .abandoned else if f.isRetryable then .failure else .success

/-- Ends a call and gives its permit back. -/
def conclude (p : CallPolicy) (admission : Admission) (outcome : Except Failure Response) (c : Call)
    (l : Link) : Call × Link :=
  ({ c with phase := .finished outcome },
    { l with
      breakers := l.breakers.modify admission.breaker
        (Breaker.settle p.breaker l.now admission.permit (verdict outcome)) })

/-- Begins an attempt. -/
def attempt (p : CallPolicy) (admission : Admission) (k : Nat) (c : Call) (l : Link) :
    Call × Link :=
  let stage := .authorizing l.queries (l.now + p.credentials.latency l.queries)
  ({ c with phase := .active admission k stage }, { l with queries := l.queries + 1 })

/-- Asks the breaker for a permit, unless the context is done already. Checking the context, looking the
    breaker up and asking it are taken for one event (`Breakers.acquire`), since a call waits for nothing
    in between. -/
def enter (p : CallPolicy) (c : Call) (l : Link) : Call × Link :=
  match c.context.check l.tokens l.now with
  | some reason => ({ c with phase := .finished (.error (.cancelled reason)) }, l)
  | none =>
    match l.breakers.acquire p.breaker l.now c.endpoint with
    | (none, breakers) =>
      ({ c with phase := .finished (.error (.circuitOpen c.endpoint)) }, { l with breakers })
    | (some (breaker, permit), breakers) => c.attempt p ⟨breaker, permit⟩ 0 { l with breakers }

/-- Sends the request with the headers of the credentials after its own. -/
def send (admission : Admission) (k : Nat) (headers : List Header) (c : Call) (l : Link) :
    Call × Link :=
  let request := { c.request with headers := c.request.headers ++ headers }
  let (delivery, server) := l.server.deliver request.url
  let stage := .awaiting delivery.outcome (l.now + delivery.latency)
  ({ c with phase := .active admission k stage },
    { l with server, sent := l.sent ++ [⟨l.now, request⟩] })

/-- Rests after attempt `k`, or panics if there is no wait. -/
def pause (p : CallPolicy) (admission : Admission) (k : Nat) (c : Call) (l : Link) : Call × Link :=
  let phase := match p.rest? l.pauses k with
    | some rest => .active admission k (.resting (l.now + rest))
    | none => .panicked admission k
  ({ c with phase }, { l with pauses := l.pauses + 1 })

/-- Goes on after attempt `k`: rests if the failure may pass and there are attempts left, and ends
    otherwise. -/
def settle (p : CallPolicy) (admission : Admission) (k : Nat) (outcome : Except Failure Response)
    (c : Call) (l : Link) : Call × Link :=
  match outcome with
  | .ok _ => c.conclude p admission outcome l
  | .error f =>
    if f.isRetryable && k + 1 < p.retry.maxAttempts then c.pause p admission k l
    else c.conclude p admission outcome l

/-- Goes on when what the call waits for has come. -/
def proceed (p : CallPolicy) (admission : Admission) (k : Nat) (stage : Stage) (c : Call)
    (l : Link) : Call × Link :=
  match stage with
  | .authorizing query _ =>
    match p.credentials.answer query with
    | .ok headers => c.send admission k headers l
    | .error e => c.settle p admission k (.error (.auth e)) l
  | .awaiting outcome _ => c.settle p admission k (judge outcome) l
  | .resting _ => c.attempt p admission (k + 1) l

/-- One step of a call, unless it waits or is over. -/
def step (p : CallPolicy) (c : Call) (l : Link) : Option (Call × Link) :=
  match c.phase with
  | .entering => some (c.enter p l)
  | .active admission k stage =>
    match c.context.check l.tokens l.now with
    | some reason => some (c.conclude p admission (.error (.cancelled reason)) l)
    | none => if stage.due ≤ l.now then some (c.proceed p admission k stage l) else none
  | .panicked .. | .finished _ => none

/-- The instant up to which a call waits, if it does. -/
def wake (c : Call) : Option Nat :=
  match c.phase with
  | .active _ _ stage => earlier (some stage.due) c.context.deadline
  | _ => none

/-- Calls over a link. -/
def machine (p : CallPolicy) : Machine Link Call := ⟨step p, fun c _ => c.wake⟩

end Call

end SlurmLink
