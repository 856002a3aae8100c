import SlurmLink.Proofs.Attempts
import SlurmLink.Proofs.Configured

/-!
What a command reports in the end. On its way it exchanges requests for answers, one with each attempt,
and what it reports is what the last one came to:

    exchange ──▶ exchange ──▶ last exchange ──▶ outcome of the call ──▶ outcome of the command
    mendable     mendable     │ judged                                  read, if it is a success,
                              └─ or called off, refused, denied         and named for the session

The exchanges are seen from outside, as what the steps of the command add to the record of requests
(`Traffic.exchanges`). How far a call has got after some of them is its `Story`, which every step
continues, and a call ends in one of the five ways of `Ending`. Reading can fail in three ways more
(`Unread`); none of them sends anything.
-/

namespace SlurmLink

/-- Whether to try again can be told from the kind of an error. -/
theorem Error.isRetryable_iff (e : Error) :
    e.isRetryable = true ↔ e.kind = .network ∨ e.kind = .serverTransient := by
  have hkind : ∀ k : ErrorKind, k.isRetryable = true ↔ k = .network ∨ k = .serverTransient := by
    intro k
    cases k <;> decide
  cases e with
  | api endpoint version f => exact hkind f.kind
  | _ => exact ⟨nofun, nofun⟩

/-! ### Reading -/

/-- What can be wrong with the body of a successful answer, given whether it holds what is wanted, if it
    can be read at all. -/
inductive Unread : Option Bool → Failure → Prop where
  | malformed (what : String) : Unread none (.malformed what)
  | missing (what key : String) : Unread (some false) (.missing what key)
  | noJobId : Unread (some false) .noJobId

namespace Unread

variable {held : Option Bool} {f : Failure}

/-- Such a failure has no status and is not worth another try. -/
theorem plain (h : Unread held f) :
    f.statusCode = none ∧ f.details = [] ∧ f.isRetryable = false ∧
      (f.kind = .unknown ∨ held ≠ none ∧ f.kind = .notFound) := by
  cases h with
  | malformed what => exact ⟨rfl, rfl, rfl, Or.inl rfl⟩
  | missing what key => exact ⟨rfl, rfl, rfl, Or.inr ⟨nofun, rfl⟩⟩
  | noJobId => exact ⟨rfl, rfl, rfl, Or.inl rfl⟩

end Unread

/-- What comes of reading something that is held or not: it is read just if it is there. -/
def ReadsAs {α : Type} (held : Option Bool) (read : Except Failure α) : Prop :=
  (∃ a, read = .ok a) ∧ held = some true ∨ ∃ f, read = .error f ∧ Unread held f

namespace ReadsAs

variable {α β : Type} {held : Option Bool}

theorem map {read : Except Failure α} (h : ReadsAs held read) (f : α → β) :
    ReadsAs held (read.map f) := by
  obtain ⟨⟨a, ha⟩, hheld⟩ | ⟨g, hg, hu⟩ := h
  · exact Or.inl ⟨⟨f a, by rw [ha]; rfl⟩, hheld⟩
  · exact Or.inr ⟨g, by rw [hg]; rfl, hu⟩

theorem decode (what : String) (read : Json → Option α) (body : List UInt8) :
    ReadsAs (((Json.ofBytes? body).bind read).map fun _ => true) (Command.decode what read body) := by
  rw [Command.decode]
  cases (Json.ofBytes? body).bind read with
  | none => exact Or.inr ⟨_, rfl, .malformed what⟩
  | some a => exact Or.inl ⟨⟨a, rfl⟩, rfl⟩

theorem decodeFirst (what key : String) (read : Json → Option (List α)) (body : List UInt8) :
    ReadsAs (((Json.ofBytes? body).bind read).map fun items => !items.isEmpty)
      (Command.decodeFirst what key read body) := by
  rw [Command.decodeFirst, Command.decode]
  cases (Json.ofBytes? body).bind read with
  | none => exact Or.inr ⟨_, rfl, .malformed what⟩
  | some items =>
    cases items with
    | nil => exact Or.inr ⟨_, rfl, .missing what key⟩
    | cons a items => exact Or.inl ⟨⟨a, rfl⟩, rfl⟩

theorem decodeSubmission (body : List UInt8) :
    ReadsAs (((Json.ofBytes? body).bind SubmitResult.ofWire).map Option.isSome)
      (Command.decodeSubmission body) := by
  rw [Command.decodeSubmission, Command.decode]
  cases (Json.ofBytes? body).bind SubmitResult.ofWire with
  | none => exact Or.inr ⟨_, rfl, .malformed _⟩
  | some result =>
    cases result with
    | none => exact Or.inr ⟨_, rfl, .noJobId⟩
    | some r => exact Or.inl ⟨⟨r, rfl⟩, rfl⟩

end ReadsAs

namespace Command

/-- Whether the body of an answer holds what a command wants of it, if it can be read at all: of a
    command for one record the record, and of a submission the number of the job. -/
def holds? (body : List UInt8) : Command → Option Bool
  | .listJobs .. => ((Json.ofBytes? body).bind Job.listOfWire).map fun _ => true
  | .getJob _ => ((Json.ofBytes? body).bind Job.listOfWire).map fun jobs => !jobs.isEmpty
  | .submitJob _ => ((Json.ofBytes? body).bind SubmitResult.ofWire).map Option.isSome
  | .listNodes _ => ((Json.ofBytes? body).bind Node.listOfWire).map fun _ => true
  | .getNode _ => ((Json.ofBytes? body).bind Node.listOfWire).map fun nodes => !nodes.isEmpty
  | .listPartitions _ => ((Json.ofBytes? body).bind Partition.listOfWire).map fun _ => true
  | .getPartition _ =>
    ((Json.ofBytes? body).bind Partition.listOfWire).map fun partitions => !partitions.isEmpty
  | .listAccounts _ => ((Json.ofBytes? body).bind Account.listOfWire).map fun _ => true
  | .getAccount _ =>
    ((Json.ofBytes? body).bind Account.listOfWire).map fun accounts => !accounts.isEmpty
  | .listUsers _ => ((Json.ofBytes? body).bind User.listOfWire).map fun _ => true
  | .getUser _ => ((Json.ofBytes? body).bind User.listOfWire).map fun users => !users.isEmpty
  | .listQos _ => ((Json.ofBytes? body).bind Qos.listOfWire).map fun _ => true
  | .getQos _ => ((Json.ofBytes? body).bind Qos.listOfWire).map fun qualities => !qualities.isEmpty
  | .listReservations _ => ((Json.ofBytes? body).bind Reservation.listOfWire).map fun _ => true
  | .getReservation _ =>
    ((Json.ofBytes? body).bind Reservation.listOfWire).map fun reservations => !reservations.isEmpty
  | .ping | .describeCluster => ((Json.ofBytes? body).bind PingReport.ofWire).map fun _ => true
  | _ => some true

theorem readsAs (version : ApiVersion) (body : List UInt8) (c : Command) :
    ReadsAs (c.holds? body) (c.read version body) := by
  cases c with
  | listJobs filter options => exact (ReadsAs.decode ..).map _
  | getJob id => exact (ReadsAs.decodeFirst ..).map _
  | submitJob job => exact (ReadsAs.decodeSubmission body).map _
  | listNodes options => exact ((ReadsAs.decode ..).map _).map _
  | getNode name => exact (ReadsAs.decodeFirst ..).map _
  | listPartitions options => exact ((ReadsAs.decode ..).map _).map _
  | getPartition name => exact (ReadsAs.decodeFirst ..).map _
  | listAccounts options => exact ((ReadsAs.decode ..).map _).map _
  | getAccount name => exact (ReadsAs.decodeFirst ..).map _
  | listUsers options => exact ((ReadsAs.decode ..).map _).map _
  | getUser name => exact (ReadsAs.decodeFirst ..).map _
  | listQos options => exact ((ReadsAs.decode ..).map _).map _
  | getQos name => exact (ReadsAs.decodeFirst ..).map _
  | listReservations options => exact ((ReadsAs.decode ..).map _).map _
  | getReservation name => exact (ReadsAs.decodeFirst ..).map _
  | ping => exact (ReadsAs.decode ..).map _
  | describeCluster => exact (ReadsAs.decode ..).map _
  | _ => exact Or.inl ⟨⟨_, rfl⟩, rfl⟩

/-- A command that a revision offers makes a request. -/
theorem draft_ne_none {revision : Revision} {c : Command}
    (h : revision.supports c.operation = true) : c.draft revision ≠ .ok none := by
  have hpost : ∀ (plugin : Plugin) (path : List String) (body : Except Rejection Json),
      post plugin path body ≠ .ok none := by
    intro plugin path body
    cases body <;> nofun
  cases c with
  | createNode => cases revision <;> cases h
  | createPartition => cases revision <;> cases h
  | updatePartition => cases revision <;> cases h
  | deletePartition => cases revision <;> cases h
  | submitJob job => exact hpost _ _ _
  | updateJob id update => exact hpost _ _ _
  | updateNode name update => exact hpost _ _ _
  | createAccount account => exact hpost _ _ _
  | updateAccount account => exact hpost _ _ _
  | createUser user => exact hpost _ _ _
  | updateUser user => exact hpost _ _ _
  | createQos qos => exact hpost _ _ _
  | updateQos qos => exact hpost _ _ _
  | createReservation reservation => exact hpost _ _ _
  | updateReservation reservation => exact hpost _ _ _
  | _ => exact nofun

/-- What passes the gate of a session at an address of the web is made into a request. -/
theorem exists_request {s : Session} {c : Command} (h : OnWeb s.endpoint) (hp : c.Passes s) :
    ∃ request, c.prepare s = .ok (some request) := by
  obtain ⟨r, hr⟩ := exists_prepare h hp
  cases r with
  | some request => exact ⟨request, hr⟩
  | none =>
    rw [prepare_supported hp.supported] at hr
    cases hd : c.draft s.revision with
    | error e => rw [hd] at hr; cases hr
    | ok d =>
      cases d with
      | none => exact absurd hd (draft_ne_none hp.supported)
      | some d =>
        obtain ⟨request, hrequest⟩ := Session.exists_request h d
        rw [hd] at hr
        simp only [hrequest] at hr
        cases hr

end Command

/-! ### Exchanges -/

/-- A request as it was sent, and what comes back for it. -/
structure Exchange where
  sent : Sent
  delivery : Delivery

namespace Exchange

/-- What the call makes of the answer. -/
def outcome (x : Exchange) : Except Failure Response := Call.judge x.delivery.outcome

/-- The attempt failed, and another try could mend that. -/
def Mendable (x : Exchange) : Prop := ∃ f, x.outcome = .error f ∧ f.isRetryable = true

end Exchange

/-- What a step of one activity adds to the record of requests, each with the answer that the server had
    ready for it. -/
def Link.exchanges (l l' : Link) : List Exchange :=
  (l'.sent.drop l.sent.length).map fun s => ⟨s, (l.server.deliver s.request.url).1⟩

theorem Link.exchanges_of_sent_eq {l l' : Link} (h : l'.sent = l.sent) : l.exchanges l' = [] := by
  rw [exchanges, h, List.drop_length, List.map_nil]

namespace Call

variable {p : CallPolicy} {c c' : Call} {l l' : Link} {xs : List Exchange}

theorem exchanges_send (a : Admission) (k : Nat) (headers : List Header) (c : Call) (l : Link) :
    ∃ x, l.exchanges (c.send a k headers l).2 = [x] ∧
      ∃ due, (c.send a k headers l).1.phase = .active a k (.awaiting x.delivery.outcome due) :=
  ⟨_, by rw [Link.exchanges, send, List.drop_left]; rfl, _, rfl⟩

/-- How far a call has got after some exchanges: it has made an attempt for each of them, and all but the
    one under way or the last one have failed so that another try could mend it. -/
def Story (p : CallPolicy) (c : Call) (xs : List Exchange) : Prop :=
  match c.phase with
  | .entering => xs = []
  | .active _ k (.authorizing ..) =>
    xs.length = k ∧ k < p.retry.maxAttempts ∧ ∀ x ∈ xs, x.Mendable
  | .active _ k (.awaiting answer _) => ∃ before x, xs = before ++ [x] ∧
    x.delivery.outcome = answer ∧ before.length = k ∧ k < p.retry.maxAttempts ∧
    ∀ x ∈ before, x.Mendable
  | .active _ k (.resting _) =>
    xs.length = k + 1 ∧ k + 1 < p.retry.maxAttempts ∧ ∀ x ∈ xs, x.Mendable
  | .panicked .. | .finished _ => ∀ x ∈ xs.dropLast, x.Mendable

/-- How a call can end with the step from `l` to `l'`, when it held the given permit and had made the
    given exchanges. -/
inductive Ending (p : CallPolicy) (context : Context) (endpoint : String) (held : Option Admission)
    (l l' : Link) (xs : List Exchange) : Except Failure Response → Prop where
  /-- The context is done. -/
  | calledOff {reason : CancelReason} (h : context.check l.tokens l.now = some reason) :
      Ending p context endpoint held l l' xs (.error (.cancelled reason))
  /-- The breaker has refused a permit, and nothing was sent. -/
  | refused (h : (l.breakers.acquire p.breaker l.now endpoint).1 = none) (hxs : xs = []) :
      Ending p context endpoint held l l' xs (.error (.circuitOpen endpoint))
  /-- The last attempt got no credentials, and so sent nothing. -/
  | denied {query : Nat} {e : AuthError} (h : p.credentials.answer query = .error e)
      (hxs : ∀ x ∈ xs, x.Mendable) : Ending p context endpoint held l l' xs (.error (.auth e))
  /-- The last attempt failed so that another try could not mend it, or there are none left. -/
  | failed {before : List Exchange} {x : Exchange} {f : Failure} (hxs : xs = before ++ [x])
      (h : x.outcome = .error f)
      (hlast : f.isRetryable = false ∨ xs.length = p.retry.maxAttempts) :
      Ending p context endpoint held l l' xs (.error f)
  /-- The last attempt was answered with success, and so the breaker is told. -/
  | answered {before : List Exchange} {x : Exchange} {r : Response} {a : Admission}
      (hxs : xs = before ++ [x]) (h : x.delivery.outcome = .ok r) (hs : r.isSuccess = true)
      (ha : held = some a) (hb : l'.breakers = l.breakers.modify a.breaker
        (Breaker.settle p.breaker l.now a.permit .success)) :
      Ending p context endpoint held l l' xs (.ok r)

theorem Story.dropLast_mendable (h : c.Story p xs) : ∀ x ∈ xs.dropLast, x.Mendable := by
  rw [Story] at h
  split at h
  · rw [h]; nofun
  · exact fun x hx => h.2.2 x (List.dropLast_subset xs hx)
  · obtain ⟨before, x, rfl, -, -, -, hbefore⟩ := h
    rw [List.dropLast_concat]
    exact hbefore
  · exact fun x hx => h.2.2 x (List.dropLast_subset xs hx)
  · exact h
  · exact h

/-- After its last attempt a call ends as that attempt came out. -/
theorem Story.ending {a : Admission} {k : Nat} {stage : Stage} {outcome : Except Failure Response}
    (h : c.Story p xs) (hp : c.phase = .active a k stage) (ho : stage.outcome? p = some outcome)
    (hl : IsLast p k outcome) (hb : l'.breakers = l.breakers.modify a.breaker
      (Breaker.settle p.breaker l.now a.permit (verdict outcome))) :
    Ending p c.context c.endpoint c.admission? l l' xs outcome := by
  rw [Story, hp] at h
  cases stage with
  | resting due => cases ho
  | authorizing query due =>
    rw [Stage.outcome?] at ho
    split at ho
    · cases ho
    · next e he => cases ho; exact .denied he h.2.2
  | awaiting answer due =>
    obtain ⟨before, x, rfl, rfl, hk, hmax, -⟩ := h
    cases ho
    cases hj : judge x.delivery.outcome with
    | ok r =>
      obtain ⟨hr, hs⟩ := judge_eq_ok_iff.mp hj
      exact .answered rfl hr hs (by rw [admission?, hp]) (by rw [hb, hj]; rfl)
    | error f =>
      refine .failed rfl hj ?_
      rw [hj, isLast_iff] at hl
      rw [List.length_append, List.length_singleton, hk]
      exact hl.imp id fun hle => by omega

/-- A call goes on only after a failure that another try could mend. -/
theorem exists_mendable {k : Nat} {outcome : Except Failure Response}
    (h : ¬ IsLast p k outcome) : ∃ f, outcome = .error f ∧ f.isRetryable = true := by
  cases outcome with
  | ok r => exact absurd (isLast_ok r k) h
  | error f =>
    rw [isLast_iff, not_or] at h
    exact ⟨f, rfl, Bool.eq_true_of_not_eq_false h.1⟩

/-- A step that sends something is that of an attempt that has got its credentials. -/
theorem Goes.exists_exchange (hg : Goes p c l c' l') (hs : l'.sent ≠ l.sent) :
    ∃ a k query due x due', c.phase = .active a k (.authorizing query due) ∧
      l.exchanges l' = [x] ∧ c'.phase = .active a k (.awaiting x.delivery.outcome due') := by
  cases hg with
  | @sends a k query due headers hp hc hd hh =>
    obtain ⟨x, hx, due', hphase⟩ := exchanges_send a k headers c l
    exact ⟨a, k, query, due, x, due', hp, hx, hphase⟩
  | _ => exact absurd rfl hs

/-- A step that sends nothing continues the story without another exchange. -/
theorem Story.goes_quiet (h : c.Story p xs) (hmax : 1 ≤ p.retry.maxAttempts)
    (hg : Goes p c l c' l') (hs : l'.sent = l.sent) :
    c'.Story p xs ∧ ∀ outcome, c'.phase = .finished outcome →
      Ending p c.context c.endpoint c.admission? l l' xs outcome := by
  cases hg with
  | turnedAway hp hc =>
    exact ⟨h.dropLast_mendable, fun _ ho => (by cases ho; exact .calledOff hc)⟩
  | refused hp hc ha =>
    refine ⟨h.dropLast_mendable, fun _ ho => ?_⟩
    cases ho
    rw [Story, hp] at h
    exact .refused (by rw [ha]) h
  | admitted hp hc ha =>
    rw [Story, hp] at h
    rw [h]
    exact ⟨⟨rfl, hmax, nofun⟩, fun _ ho => (by cases ho)⟩
  | stopped hp hc =>
    exact ⟨h.dropLast_mendable, fun _ ho => (by cases ho; exact .calledOff hc)⟩
  | sends hp hc hd hh => exact absurd (List.append_right_eq_self.mp hs) (List.cons_ne_nil _ _)
  | ends hp hc hd ho hl =>
    exact ⟨h.dropLast_mendable, fun _ hf => (by cases hf; exact h.ending hp ho hl rfl)⟩
  | rests hp hc hd hl hk =>
    rw [Story, hp] at h
    obtain ⟨before, x, rfl, rfl, hlen, -, hbefore⟩ := h
    refine ⟨⟨by rw [List.length_append, List.length_singleton, hlen], hk, fun y hy => ?_⟩,
      fun _ ho => (by cases ho)⟩
    rcases List.mem_append.mp hy with hy | hy
    · exact hbefore y hy
    · rw [List.mem_singleton.mp hy]
      exact exists_mendable hl
  | panics hp hc hd hl hk => exact ⟨h.dropLast_mendable, fun _ ho => (by cases ho)⟩
  | retries hp hc hd =>
    rw [Story, hp] at h
    exact ⟨h, fun _ ho => (by cases ho)⟩

/-- Every step continues the story of a call, and the last one ends it. -/
theorem Story.goes (h : c.Story p xs) (hmax : 1 ≤ p.retry.maxAttempts) (hg : Goes p c l c' l') :
    c'.Story p (xs ++ l.exchanges l') ∧ ∀ outcome, c'.phase = .finished outcome →
      Ending p c.context c.endpoint c.admission? l l' (xs ++ l.exchanges l') outcome := by
  by_cases hs : l'.sent = l.sent
  · rw [Link.exchanges_of_sent_eq hs, List.append_nil]
    exact h.goes_quiet hmax hg hs
  · obtain ⟨a, k, query, due, x, due', hp, hx, hp'⟩ := hg.exists_exchange hs
    rw [Story, hp] at h
    obtain ⟨hlen, hlt, hbefore⟩ := h
    refine ⟨?_, fun outcome ho => (by rw [hp'] at ho; cases ho)⟩
    rw [hx, Story, hp']
    exact ⟨xs, x, rfl, rfl, hlen, hlt, hbefore⟩

end Call

/-! ### Errands -/

namespace Errand

variable {p : CallPolicy} {e e' : Errand} {l l' : Link} {xs : List Exchange}
  {ended ended' : Except Failure Response → Prop}

/-- How far an errand has got after some exchanges, where its call can have ended as `ended` says. -/
def Story (p : CallPolicy) (e : Errand) (xs : List Exchange)
    (ended : Except Failure Response → Prop) : Prop :=
  match e.phase with
  | .starting => xs = []
  | .calling c => c.context = e.context ∧ c.endpoint = e.session.endpoint ∧ c.Story p xs ∧
    ∀ outcome, c.phase = .finished outcome → ended outcome
  | .finished o => (∀ x ∈ xs.dropLast, x.Mendable) ∧
    ∃ outcome, ended outcome ∧ o = e.command.conclude e.session outcome

theorem Story.mono (h : e.Story p xs ended) (hkeep : ∀ outcome, ended outcome → ended' outcome) :
    e.Story p xs ended' := by
  rw [Story] at h ⊢
  cases hp : e.phase with
  | starting => rw [hp] at h; exact h
  | calling c =>
    rw [hp] at h
    obtain ⟨hcontext, hendpoint, hstory, hended⟩ := h
    exact ⟨hcontext, hendpoint, hstory, fun outcome ho => hkeep outcome (hended outcome ho)⟩
  | finished o =>
    rw [hp] at h
    obtain ⟨hbefore, outcome, ho, he⟩ := h
    exact ⟨hbefore, outcome, hkeep outcome ho, he⟩

/-- Every step continues the story of an errand that has passed the gate. -/
theorem Story.goes (h : e.Story p xs ended) (hmax : 1 ≤ p.retry.maxAttempts)
    (hgate : ∃ request, e.command.prepare e.session = .ok (some request)) (hg : Goes p e l e' l')
    (hkeep : l.exchanges l' = [] → ∀ outcome, ended outcome → ended' outcome)
    (hnew : ∀ outcome, Call.Ending p e.context e.session.endpoint (e.call?.bind Call.admission?)
      l l' (xs ++ l.exchanges l') outcome → ended' outcome) :
    e'.Story p (xs ++ l.exchanges l') ended' := by
  cases hg with
  | starts hp =>
    obtain ⟨request, hrequest⟩ := hgate
    rw [Story, hp] at h
    rw [Link.exchanges_of_sent_eq rfl, List.append_nil, h, Story, start, hrequest]
    exact ⟨rfl, rfl, rfl, fun _ ho => (by cases ho)⟩
  | calls hp hcall =>
    rename_i c c'
    rw [Story, hp] at h
    obtain ⟨hcontext, hendpoint, hstory, -⟩ := h
    obtain ⟨hstory', hends⟩ := hstory.goes hmax hcall
    refine ⟨?_, ?_, hstory', fun outcome ho => hnew outcome ?_⟩
    · rw [hcall.eq_with_phase]; exact hcontext
    · rw [hcall.eq_with_phase]; exact hendpoint
    · have hheld : e.call?.bind Call.admission? = c.admission? := by rw [call?, hp]; rfl
      rw [← hcontext, ← hendpoint, hheld]
      exact hends outcome ho
  | reads hp ho =>
    rename_i c outcome
    have hquiet : l.exchanges l = [] := Link.exchanges_of_sent_eq rfl
    have hphase : c.phase = .finished outcome := by
      rw [Call.outcome?] at ho
      split at ho <;> cases ho
      assumption
    rw [Story, hp] at h
    obtain ⟨-, -, hstory, hended⟩ := h
    rw [hquiet, List.append_nil]
    exact ⟨hstory.dropLast_mendable, outcome, hkeep hquiet outcome (hended outcome hphase), rfl⟩

end Errand

/-! ### Traffic -/

namespace Traffic

variable {setup : ClientSetup} {t : Traffic} {holder : Nat}

/-- What an event adds to the exchanges of the activity with the given number. -/
def newExchanges (setup : ClientSetup) (holder : Nat) (t : Traffic) (e : TrafficEvent) :
    List Exchange :=
  match e with
  | .advance i => if i = holder then t.link.exchanges (t.step setup e).link else []
  | _ => []

/-- The exchanges of an activity over a list of events, whatever else is sent in the meantime. -/
def exchanges (setup : ClientSetup) (holder : Nat) : Traffic → List TrafficEvent → List Exchange
  | _, [] => []
  | t, e :: events =>
    t.newExchanges setup holder e ++ exchanges setup holder (t.step setup e) events

theorem exchanges_concat (e : TrafficEvent) : ∀ (events : List TrafficEvent) (t : Traffic),
    exchanges setup holder t (events ++ [e]) =
      exchanges setup holder t events ++ (t.after setup events).newExchanges setup holder e
  | [], t => List.append_nil _
  | first :: events, t => by
    rw [List.cons_append, exchanges, exchanges_concat e events, exchanges, after_cons,
      List.append_assoc]

theorem newExchanges_of_ne {e : TrafficEvent} (he : e ≠ .advance holder) :
    t.newExchanges setup holder e = [] := by
  cases e with
  | advance i => exact if_neg fun h => he (by rw [h])
  | _ => rfl

theorem newExchanges_advance (setup : ClientSetup) (holder : Nat) (t : Traffic) :
    t.newExchanges setup holder (.advance holder) =
      t.link.exchanges (t.step setup (.advance holder)).link := if_pos rfl

/-- The permit that the activity with the given number holds. -/
def permit? (t : Traffic) (holder : Nat) : Option Admission :=
  t.activities[holder]?.bind Activity.permit?

/-- With one of its steps the activity has ended its call, having made all of its exchanges. -/
def Ended (setup : ClientSetup) (holder : Nat) (t : Traffic) (events : List TrafficEvent)
    (context : Context) (endpoint : String) (outcome : Except Failure Response) : Prop :=
  ∃ before later, events = before ++ .advance holder :: later ∧
    Call.Ending setup.callPolicy context endpoint ((t.after setup before).permit? holder)
      (t.after setup before).link (t.after setup (before ++ [.advance holder])).link
      (exchanges setup holder t events) outcome

theorem Ended.concat {events : List TrafficEvent} {context : Context} {endpoint : String}
    {outcome : Except Failure Response} (h : t.Ended setup holder events context endpoint outcome)
    {e : TrafficEvent} (he : (t.after setup events).newExchanges setup holder e = []) :
    t.Ended setup holder (events ++ [e]) context endpoint outcome := by
  obtain ⟨before, later, rfl, hending⟩ := h
  refine ⟨before, later ++ [e], List.append_assoc .., ?_⟩
  rw [exchanges_concat, he, List.append_nil]
  exact hending

/-- The step of an errand, as an event. -/
theorem advance_errand {e e' : Errand} {l : Link}
    (hx : t.activities[holder]? = some (.task (.errand e)))
    (hs : e.step setup.callPolicy t.link = some (e', l)) :
    (t.step setup (.advance holder)).activities[holder]? = some (.task (.errand e')) ∧
      (t.step setup (.advance holder)).link = l := by
  have hlt : holder < t.activities.length := (List.getElem?_eq_some_iff.mp hx).1
  have hs' : e.step setup.callPolicy t.client.hub.link = some (e', l) := hs
  constructor
  · simp only [step, hx, Activity.step, Task.step, hs', Option.map_some, List.getElem?_set_self hlt]
  · simp only [step, hx, Activity.step, Task.step, hs', Option.map_some]
    rfl

theorem advance_errand_none {e : Errand} (hx : t.activities[holder]? = some (.task (.errand e)))
    (hs : e.step setup.callPolicy t.link = none) : t.step setup (.advance holder) = t := by
  have hs' : e.step setup.callPolicy t.client.hub.link = none := hs
  simp only [step, hx, Activity.step, Task.step, hs', Option.map_none]

/-- The story of an errand that passes the gate, over all that goes on at the client. -/
theorem story_after {e : Errand} (hmax : 1 ≤ setup.config.retry.maxAttempts)
    (hgate : ∃ request, e.command.prepare e.session = .ok (some request))
    (hx : t.activities[holder]? = some (.task (.errand e))) (hp : e.phase = .starting)
    (events : List TrafficEvent) :
    ∃ e', (t.after setup events).activities[holder]? = some (.task (.errand e')) ∧
      e' = { e with phase := e'.phase } ∧ e'.Story setup.callPolicy (exchanges setup holder t events)
        (t.Ended setup holder events e.context e.session.endpoint) := by
  induction events using List.reverseRecOn with
  | nil => exact ⟨e, hx, rfl, by rw [Errand.Story, hp]; rfl⟩
  | append_singleton events event ih =>
    obtain ⟨e₁, hx₁, hsame, hstory⟩ := ih
    rw [after_concat, exchanges_concat]
    by_cases he : event = .advance holder
    · subst he
      cases hs : e₁.step setup.callPolicy (t.after setup events).link with
      | none =>
        have hstay := advance_errand_none hx₁ hs
        have hquiet : (t.after setup events).newExchanges setup holder (.advance holder) = [] := by
          rw [newExchanges_advance, hstay]
          exact Link.exchanges_of_sent_eq rfl
        rw [hstay, hquiet, List.append_nil]
        exact ⟨e₁, hx₁, hsame, hstory.mono fun _ ho => ho.concat hquiet⟩
      | some r =>
        obtain ⟨e₂, l⟩ := r
        obtain ⟨hx₂, hlink⟩ := advance_errand hx₁ hs
        have hgoes := Errand.goes_of_step hs
        have hmore := newExchanges_advance setup holder (t.after setup events)
        rw [hlink] at hmore
        refine ⟨e₂, hx₂, by rw [hgoes.eq_with_phase, hsame], ?_⟩
        rw [hmore]
        refine hstory.goes hmax (by rw [hsame]; exact hgate) hgoes
          (fun hnone _ ho => ho.concat (hmore.trans hnone)) fun outcome ho => ⟨events, [], rfl, ?_⟩
        have hheld : (t.after setup events).permit? holder = e₁.call?.bind Call.admission? := by
          rw [permit?, hx₁]
          rfl
        rw [after_concat, exchanges_concat, hmore, hlink, hheld]
        rw [hsame] at ho ⊢
        exact ho
    · rw [newExchanges_of_ne he, List.append_nil]
      exact ⟨e₁, task_step hx₁ he, hsame, hstory.mono fun _ ho => ho.concat (newExchanges_of_ne he)⟩

/-- The first step of a command makes it an errand in the session that it is held to or that is
    current. -/
theorem advance_order {context : Context} {held : Option Session} {command : Command}
    (hx : t.activities[holder]? = some (.task (.command context held command))) :
    (t.step setup (.advance holder)).activities[holder]? =
      some (.task (.errand { context, session := held.getD t.client.current, command })) := by
  have hlt : holder < t.activities.length := (List.getElem?_eq_some_iff.mp hx).1
  simp only [step, hx, Activity.step, Task.step, Option.map_some]
  exact List.getElem?_set_self hlt

/-- The outcome of a command that passes the gate is read from how its call ended. -/
theorem exists_ended {context : Context} {session : Session} {command : Command}
    (hmax : 1 ≤ setup.config.retry.maxAttempts)
    (hgate : ∃ request, command.prepare session = .ok (some request))
    (hx : t.activities[holder]? = some (.task (.errand { context, session, command })))
    {events : List TrafficEvent} {o : Except Error Answer}
    (ho : (t.after setup events).outcome? holder = some o) :
    (∀ x ∈ (t.exchanges setup holder events).dropLast, x.Mendable) ∧
      ∃ outcome, t.Ended setup holder events context session.endpoint outcome ∧
        o = command.conclude session outcome := by
  obtain ⟨e, hx', hsame, hstory⟩ := story_after hmax hgate hx rfl events
  rw [outcome?, hx'] at ho
  have hphase : e.phase = .finished o := by
    change e.outcome? = some o at ho
    rw [Errand.outcome?] at ho
    split at ho <;> cases ho
    assumption
  rw [Errand.Story, hphase, hsame] at hstory
  exact hstory

end Traffic

/-! ### Whole clients -/

theorem RetryPolicy.one_le_maxAttempts {p : RetryPolicy} (h : p.validate = .ok ()) :
    1 ≤ p.maxAttempts := by
  rw [validate] at h
  split at h
  · cases h
  · omega

/-- What is made of a successful answer: an error that has no status if the body does not hold what is
    wanted, and else an answer. -/
theorem Command.conclude_ok (s : Session) (c : Command) (r : Response) :
    (c.holds? r.body = some true ∧ ∃ answer, c.conclude s (.ok r) = .ok answer) ∨
    ∃ f, c.conclude s (.ok r) = .error (s.fail f) ∧ Unread (c.holds? r.body) f := by
  rw [conclude]
  obtain ⟨⟨answer, ha⟩, hheld⟩ | ⟨f, hf, hu⟩ := c.readsAs s.apiVersion r.body
  · exact Or.inl ⟨hheld, answer, by rw [ha]; rfl⟩
  · exact Or.inr ⟨f, by rw [hf]; rfl, hu⟩

namespace Traffic

/-- Failures reach the caller as they are. Take a client that connected with a checked configuration, at
    any time, and a command that passes the gate of the session that it is about to start in. Whatever
    goes on around it, once the command is over its call has ended in one of five ways, after failures
    that another try could mend only: it was called off, the breaker refused it, the credentials were
    denied, the last attempt failed, or the last attempt was answered with success, which is also what
    the breaker was told. A failure of the call is the failure that the command reports, with the endpoint
    and the version of its session; a successful answer is read, and if that fails, the failure has no
    status and no more than the exchanges up to that answer were made. A watch that the revision offers
    starts. The kind, status and details of a reported failure are its own, and whether to try again
    follows from the kind. -/
theorem failures_undisturbed (setup : ClientSetup) (hvalid : setup.config.validate = .ok ()) :
    (∀ client past, Connects setup client → Own setup [] { client } past →
      let t := after setup { client } past
      (∀ holder context held command,
        t.activities[holder]? = some (.task (.command context held command)) →
        let s := held.getD t.client.current
        command.Passes s →
        let t₁ := t.step setup (.advance holder)
        (∀ events o, (t₁.after setup events).outcome? holder = some o →
          (∀ x ∈ (t₁.exchanges setup holder events).dropLast, x.Mendable) ∧
          ∃ outcome, t₁.Ended setup holder events context s.endpoint outcome ∧
            o = command.conclude s outcome) ∧
        (∀ f, command.conclude s (.error f) = .error (.api s.endpoint (some s.apiVersion) f)) ∧
        ∀ r, (command.holds? r.body = some true ∧
            ∃ answer, command.conclude s (.ok r) = .ok answer) ∨
          ∃ f, command.conclude s (.ok r) = .error (.api s.endpoint (some s.apiVersion) f) ∧
            Unread (command.holds? r.body) f ∧ f.statusCode = none ∧ f.details = [] ∧
            f.isRetryable = false ∧
            (f.kind = .unknown ∨ command.holds? r.body ≠ none ∧ f.kind = .notFound)) ∧
      ∀ (α : Type) context session (subject : Subject α) settings,
        session.revision.supports ⟨subject.resource, .watch⟩ = true →
        ∃ r, Watch.start context session subject settings t.link = .ok r) ∧
    (∀ (e : Error) f, e.failure? = some f →
      e.kind = f.kind ∧ e.statusCode = f.statusCode ∧ e.isRetryable = f.isRetryable) ∧
    ∀ e : Error, e.isRetryable = true ↔ e.kind = .network ∨ e.kind = .serverTransient := by
  have hmax := RetryPolicy.one_le_maxAttempts (ClientConfig.retry_of_validate hvalid)
  refine ⟨fun client past hc hown => ?_, fun e f hf => ?_, Error.isRetryable_iff⟩
  · intro t
    have hsound : Sound t := (hc.sound hvalid).after (ClientConfig.exists_web hvalid)
      (fun _ hs => absurd hs List.not_mem_nil) hown
    refine ⟨fun holder context held command hx => ?_, fun α context session subject settings hs => ?_⟩
    · intro s hpasses t₁
      have hbase : OnWeb s.endpoint := by
        have hheld := hsound.activities _ (List.mem_of_getElem? hx)
        cases held with
        | none => exact hsound.client.current
        | some held => exact hheld held rfl
      have hgate := Command.exists_request hbase hpasses
      refine ⟨fun events o ho => exists_ended hmax hgate (advance_order hx) ho, fun f => rfl,
        fun r => ?_⟩
      obtain hread | ⟨f, hf, hu⟩ := command.conclude_ok s r
      · exact Or.inl hread
      · exact Or.inr ⟨f, hf, hu, hu.plain⟩
    · obtain ⟨w, l, hstart, -⟩ := Watch.exists_start t.link context settings hs
      exact ⟨(w, l), hstart⟩
  · cases e with
    | api endpoint version g => cases hf; exact ⟨rfl, rfl, rfl⟩
    | _ => cases hf

/-- The server is busy, and then it answers with the beginning of something. -/
def oddAnswer : List TrafficEvent :=
  [.outside (.serve { script := [⟨.ok ⟨503, []⟩, 0⟩, ⟨.ok ⟨200, [0x5b]⟩, 0⟩] }),
    .order { token := 0 } none (.getNode "c 1")]

/-- The command makes two attempts, with a rest between them. -/
def twoAttempts : List TrafficEvent :=
  List.replicate 4 (.advance 0) ++ .outside (.pass 1000) :: List.replicate 5 (.advance 0)

/-- After the second attempt the command reports an answer that cannot be read, and does not ask
    again. -/
theorem failures_undisturbed_odd :
    let t := after Renewals.openSetup { client := Renewals.openClient.client } oddAnswer
    let t₁ := t.step Renewals.openSetup (.advance 0)
    Renewals.openSetup.config.validate = .ok () ∧
    Connects Renewals.openSetup Renewals.openClient.client ∧
    Own Renewals.openSetup [] { client := Renewals.openClient.client } oddAnswer ∧
    t.activities[0]? = some (.task (.command { token := 0 } none (.getNode "c 1"))) ∧
    (Command.getNode "c 1").Passes Lobby.sharedSession ∧
    (t₁.after Renewals.openSetup twoAttempts).outcome? 0 =
      some (.error (.api "http://slurm.test" (some (.ofPatch 41)) (.malformed "node"))) ∧
    (t₁.exchanges Renewals.openSetup 0 twoAttempts).length = 2 ∧
    ∃ outcome, t₁.Ended Renewals.openSetup 0 twoAttempts { token := 0 } "http://slurm.test" outcome ∧
      .error (.api "http://slurm.test" (some (.ofPatch 41)) (.malformed "node")) =
        (Command.getNode "c 1").conclude Lobby.sharedSession outcome := by
  intro t t₁
  have hvalid : Renewals.openSetup.config.validate = .ok () := rfl
  have hown : Own Renewals.openSetup [] { client := Renewals.openClient.client } oddAnswer :=
    ⟨nofun, nofun, trivial⟩
  have hx : t.activities[0]? = some (.task (.command { token := 0 } none (.getNode "c 1"))) := rfl
  have hpasses : (Command.getNode "c 1").Passes Lobby.sharedSession := ⟨rfl, rfl⟩
  have ho : (t₁.after Renewals.openSetup twoAttempts).outcome? 0 =
      some (.error (.api "http://slurm.test" (some (.ofPatch 41)) (.malformed "node"))) :=
    outcome?_eq_error (by decide +kernel)
  obtain ⟨hreports, -⟩ := failures_undisturbed Renewals.openSetup hvalid
  obtain ⟨hcommand, -⟩ := hreports Renewals.openClient.client oddAnswer connects_openClient hown
  obtain ⟨hends, -⟩ := hcommand 0 _ none _ hx hpasses
  exact ⟨hvalid, connects_openClient, hown, hx, hpasses, ho, by decide +kernel,
    (hends twoAttempts _ ho).2⟩

end Traffic

end SlurmLink
