import SlurmLink.Client
import SlurmLink.Proofs.Call

/-!
What stands between a command and the server. Before a command makes its call it passes a gate:

    command ──▶ offered by the revision? ──▶ argument sound? ──▶ address ──▶ call
                   │ no                        │ no
                   ▼                           ▼
               not implemented              rejected

`Command.check` says what the check of the argument comes to, apart from the request that is made of
it; `Command.prepare` follows it (`prepare_unsupported`, `prepare_rejected`, `passes_of_prepare`). An
errand whose call is under way has passed the gate, and one that ends as not implemented did not get
past its first question (`Errand.Lawful`).
-/

namespace SlurmLink

/-! ### Checks and bodies -/

/-- What the check of a submission to a revision says: it is sound, and asks for nothing that the
    revision lacks. -/
def JobSubmission.check (revision : Revision) (j : JobSubmission) : Except Rejection Unit := do
  j.validate
  if j.exclusive.isSome && !revision.acceptsExclusive then
    throw (.exclusiveFlag revision.apiVersion)

/-- A body is that of a checked argument: it is refused when the check fails, for the same reason, and
    else there is one. -/
def ChecksTo (check : Except Rejection Unit) {α : Type} (made : Except Rejection α) : Prop :=
  (∃ r, check = .error r ∧ made = .error r) ∨ check = .ok () ∧ ∃ a, made = .ok a

namespace ChecksTo

variable {check : Except Rejection Unit} {α : Type} {made : Except Rejection α}

theorem of_bind {a : α} (h : made = check >>= fun _ => .ok a) : ChecksTo check made := by
  cases check with
  | error r => exact Or.inl ⟨r, rfl, h⟩
  | ok _ => exact Or.inr ⟨rfl, a, h⟩

theorem submission (revision : Revision) (j : JobSubmission) :
    ChecksTo (j.check revision) (j.body revision) := by
  rw [JobSubmission.check, JobSubmission.body]
  cases j.validate with
  | error r => exact Or.inl ⟨r, rfl, rfl⟩
  | ok _ =>
    cases j.exclusive.isSome && !revision.acceptsExclusive with
    | true => exact Or.inl ⟨_, rfl, rfl⟩
    | false => exact Or.inr ⟨rfl, _, rfl⟩

theorem error (h : ChecksTo check made) {r : Rejection} (hc : check = .error r) :
    made = .error r := by
  obtain ⟨r', hr', hm⟩ | ⟨hok, -⟩ := h
  · rw [hc] at hr'; cases hr'; exact hm
  · rw [hc] at hok; cases hok

theorem ok (h : ChecksTo check made) {a : α} (hm : made = .ok a) : check = .ok () := by
  obtain ⟨r, -, he⟩ | ⟨hok, -⟩ := h
  · rw [hm] at he; cases he
  · exact hok

end ChecksTo

/-- No failure of a call counts as an operation that is not implemented. -/
theorem Failure.kind_ne_notImplemented (f : Failure) : f.kind ≠ .notImplemented := by
  cases f with
  | transport e => cases e <;> simp [kind]
  | status code details =>
    simp only [kind, ErrorKind.ofStatus]
    repeat' split
    all_goals simp
  | _ => simp [kind]

/-- A request within a session can only fail to get an address, which is a matter of validation. -/
theorem Session.kind_of_request {s : Session} {d : Draft} {e : Error}
    (h : s.request d = .error e) : e.kind = .validation := by
  have hurl : s.url d.plugin d.path = .error e := by
    rw [request] at h
    cases hu : s.url d.plugin d.path with
    | error f => rw [hu] at h; cases h; rfl
    | ok url => rw [hu] at h; cases h
  rw [url] at hurl
  split at hurl <;> cases hurl <;> rfl

namespace Command

variable {s : Session} {c : Command} {r : Rejection}

/-- What the check of a command's argument says. A name that is only looked up is not checked. -/
def check (revision : Revision) : Command → Except Rejection Unit
  | .submitJob job => job.check revision
  | .updateJob _ update => update.validate
  | .updateNode _ update => update.validate
  | .createAccount account | .updateAccount account => account.validate
  | .createUser user | .updateUser user => user.validate
  | .createQos qos | .updateQos qos => qos.validate
  | .createReservation reservation | .updateReservation reservation => reservation.validate
  | _ => .ok ()

theorem checksTo_post (plugin : Plugin) (path : List String) {check : Except Rejection Unit}
    {body : Except Rejection Json} (h : ChecksTo check body) :
    ChecksTo check (post plugin path body) := by
  obtain ⟨r, hc, rfl⟩ | ⟨hc, json, rfl⟩ := h
  · exact Or.inl ⟨r, hc, rfl⟩
  · exact Or.inr ⟨hc, _, rfl⟩

/-- The request of a command is refused just when the check of its argument fails. -/
theorem checksTo_draft (revision : Revision) (c : Command) :
    ChecksTo (c.check revision) (c.draft revision) := by
  cases c with
  | submitJob job => exact checksTo_post _ _ (.submission revision job)
  | updateJob id update => exact checksTo_post _ _ (.of_bind rfl)
  | updateNode name update => exact checksTo_post _ _ (.of_bind rfl)
  | createAccount account => exact checksTo_post _ _ (.of_bind rfl)
  | updateAccount account => exact checksTo_post _ _ (.of_bind rfl)
  | createUser user => exact checksTo_post _ _ (.of_bind rfl)
  | updateUser user => exact checksTo_post _ _ (.of_bind rfl)
  | createQos qos => exact checksTo_post _ _ (.of_bind rfl)
  | updateQos qos => exact checksTo_post _ _ (.of_bind rfl)
  | createReservation reservation => exact checksTo_post _ _ (.of_bind rfl)
  | updateReservation reservation => exact checksTo_post _ _ (.of_bind rfl)
  | _ => exact Or.inr ⟨rfl, _, rfl⟩

/-! ### The gate -/

/-- The revision of the session offers the command, and the argument of the command is sound. -/
structure Passes (s : Session) (c : Command) : Prop where
  supported : s.revision.supports c.operation = true
  checked : c.check s.revision = .ok ()

theorem prepare_unsupported (h : s.revision.supports c.operation = false) :
    c.prepare s = .error (.notImplemented c.operation s.apiVersion) := by
  simp only [prepare, Session.ensure, h, Bool.false_eq_true, if_false]

theorem prepare_supported (h : s.revision.supports c.operation = true) :
    c.prepare s = match c.draft s.revision with
      | .error r => .error (s.fail (.rejected r))
      | .ok none => .ok none
      | .ok (some d) => (s.request d).map some := by
  cases hd : c.draft s.revision with
  | error r => simp only [prepare, Session.ensure, h, if_true, hd]
  | ok d => cases d <;> simp only [prepare, Session.ensure, h, if_true, hd]

theorem prepare_rejected (h : s.revision.supports c.operation = true)
    (hr : c.check s.revision = .error r) : c.prepare s = .error (s.fail (.rejected r)) := by
  rw [prepare_supported h, (checksTo_draft s.revision c).error hr]

/-- What makes a request has passed the gate. -/
theorem passes_of_prepare {request : Option Request} (h : c.prepare s = .ok request) :
    c.Passes s := by
  cases hs : s.revision.supports c.operation with
  | false => rw [prepare_unsupported hs] at h; cases h
  | true =>
    rw [prepare_supported hs] at h
    cases hd : c.draft s.revision with
    | error r => rw [hd] at h; cases h
    | ok d => exact ⟨hs, (checksTo_draft s.revision c).ok hd⟩

/-- Of the commands that a revision offers none is refused as not implemented. -/
theorem kind_of_prepare {e : Error} (hs : s.revision.supports c.operation = true)
    (h : c.prepare s = .error e) : e.kind = .validation := by
  rw [prepare_supported hs] at h
  split at h
  · cases h; rfl
  · cases h
  · next d _ =>
    cases hd : s.request d with
    | ok request => rw [hd] at h; cases h
    | error f => rw [hd] at h; cases h; exact Session.kind_of_request hd

theorem kind_of_conclude {outcome : Except Failure Response} {e : Error}
    (h : c.conclude s outcome = .error e) : e.kind ≠ .notImplemented := by
  cases outcome with
  | error f => cases h; exact Failure.kind_ne_notImplemented f
  | ok r =>
    rw [conclude] at h
    cases hr : c.read s.apiVersion r.body with
    | ok answer => rw [hr] at h; cases h
    | error f => rw [hr] at h; cases h; exact Failure.kind_ne_notImplemented f

end Command

/-! ### Sending -/

/-- A step of a call sends its request with some more headers, or nothing. -/
theorem Call.Goes.sent_cases {p : CallPolicy} {c c' : Call} {l l' : Link} (h : Goes p c l c' l') :
    l'.sent = l.sent ∨ ∃ headers, l'.sent =
      l.sent ++ [⟨l.now, { c.request with headers := c.request.headers ++ headers }⟩] := by
  cases h with
  | sends hp hc hd hh => exact Or.inr ⟨_, rfl⟩
  | _ => exact Or.inl rfl

namespace Errand

variable {p : CallPolicy} {e e' : Errand} {l l' : Link}

/-- The steps of an errand. -/
inductive Goes (p : CallPolicy) (e : Errand) (l : Link) : Errand → Link → Prop where
  | starts (hp : e.phase = .starting) : Goes p e l e.start l
  | calls {c c' : Call} {l' : Link} (hp : e.phase = .calling c) (hg : Call.Goes p c l c' l') :
      Goes p e l { e with phase := .calling c' } l'
  | reads {c : Call} {outcome : Except Failure Response} (hp : e.phase = .calling c)
      (ho : c.outcome? = some outcome) :
      Goes p e l { e with phase := .finished (e.command.conclude e.session outcome) } l

theorem goes_of_step (h : e.step p l = some (e', l')) : Goes p e l e' l' := by
  rw [step] at h
  cases hp : e.phase with
  | starting => rw [hp] at h; cases h; exact .starts hp
  | finished outcome => rw [hp] at h; cases h
  | calling c =>
    rw [hp] at h
    simp only at h
    cases ho : c.outcome? with
    | some outcome => rw [ho] at h; cases h; exact .reads hp ho
    | none =>
      rw [ho] at h
      obtain ⟨r, hr, he⟩ := Option.map_eq_some_iff.mp h
      cases he
      exact .calls hp (Call.goes_of_step hr)

/-- An errand that is over makes no step. -/
theorem step_of_finished (h : e.outcome? ≠ none) : e.step p l = none := by
  rw [outcome?] at h
  rw [step]
  split at h
  · next hp => rw [hp]
  · exact absurd rfl h

/-- An errand never changes what it is an errand for. -/
theorem Goes.eq_with_phase (h : Goes p e l e' l') : e' = { e with phase := e'.phase } := by
  cases h <;> rfl

/-- How far an errand can have got: its call, if it makes one, is for the request that has passed the
    gate, and if it has ended as not implemented, the revision does not offer the command. -/
def Lawful (e : Errand) : Prop :=
  match e.phase with
  | .starting => True
  | .calling c => e.command.prepare e.session = .ok (some c.request)
  | .finished outcome => ∀ f, outcome = .error f → f.kind = .notImplemented →
      e.session.revision.supports e.command.operation = false

theorem lawful_starting (context : Context) (session : Session) (command : Command) :
    Lawful { context, session, command } := True.intro

theorem lawful_start (e : Errand) : e.start.Lawful := by
  rw [Lawful, start]
  cases hq : e.command.prepare e.session with
  | ok request =>
    cases request with
    | none => intro f hf; cases hf
    | some request => rfl
  | error f =>
    intro g hg hk
    cases hg
    cases hs : e.session.revision.supports e.command.operation with
    | false => rfl
    | true => rw [Command.kind_of_prepare hs hq] at hk; cases hk

theorem Lawful.goes (h : e.Lawful) (hg : Goes p e l e' l') : e'.Lawful := by
  cases hg with
  | starts hp => exact lawful_start e
  | calls hp hcall =>
    rw [Lawful, hp] at h
    rw [Lawful, hcall.eq_with_phase]
    exact h
  | reads hp ho => exact fun f hf hk => absurd hk (Command.kind_of_conclude hf)

/-- Only a command that the revision does not offer ends as not implemented. -/
theorem Lawful.supports_of_outcome? (h : e.Lawful) {f : Error} (ho : e.outcome? = some (.error f))
    (hk : f.kind = .notImplemented) : e.session.revision.supports e.command.operation = false := by
  rw [Lawful] at h
  rw [outcome?] at ho
  split at ho
  · next hp =>
    rw [hp] at h
    exact h f (Option.some.inj ho) hk
  · cases ho

/-- What an errand sends is the request that it was made for, after the gate, with some more headers. -/
theorem Lawful.sends (h : e.Lawful) (hg : Goes p e l e' l') (hsent : l'.sent ≠ l.sent) :
    e.command.Passes e.session ∧ ∃ request headers,
      e.command.prepare e.session = .ok (some request) ∧
      l'.sent = l.sent ++ [⟨l.now, { request with headers := request.headers ++ headers }⟩] := by
  cases hg with
  | starts hp => exact absurd rfl hsent
  | reads hp ho => exact absurd rfl hsent
  | calls hp hcall =>
    rw [Lawful, hp] at h
    obtain hsame | ⟨headers, hmore⟩ := hcall.sent_cases
    · exact absurd hsame hsent
    · exact ⟨Command.passes_of_prepare h, _, headers, h, hmore⟩

/-- An errand that is refused starts and ends with one step, which leaves the link as it is. -/
theorem start_of_prepare {f : Error} (h : e.command.prepare e.session = .error f) :
    e.start = { e with phase := .finished (.error f) } := by
  simp only [start, h]

end Errand

end SlurmLink
