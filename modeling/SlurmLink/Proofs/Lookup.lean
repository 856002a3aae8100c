import SlurmLink.Proofs.Report

/-!
Looking up one record. The server is asked for it at an address of its own and answers with a list. The
first usable record of the list is taken, whatever its key is:

    asked for      answered with                   reported
    n1             (without a name)   n1   n2      n1
    n1             n2   n1                         n2
    n1             n2                              n2
    n1             (without a name)                not found

What should be reported can be said without the order of the list (`Lookup.Right`), and it is just if the
first usable record is the one that was asked for, or there is none (`Lookup.right_conclude_iff`).
-/

namespace SlurmLink

/-- A record that can be asked for, by what it is known by. -/
inductive Lookup where
  | job (id : Nat)
  | node (name : String)
  | partition (name : String)
  | account (name : String)
  | user (name : String)
  | quality (name : String)
  | reservation (name : String)

namespace Lookup

variable {q : Lookup} {r : Response} {rs : List Answer}

def command : Lookup → Command
  | .job id => .getJob id
  | .node name => .getNode name
  | .partition name => .getPartition name
  | .account name => .getAccount name
  | .user name => .getUser name
  | .quality name => .getQos name
  | .reservation name => .getReservation name

/-- What a record is called when there is none. -/
def what : Lookup → String
  | .job _ => "job"
  | .node _ => "node"
  | .partition _ => "partition"
  | .account _ => "account"
  | .user _ => "user"
  | .quality _ => "qos"
  | .reservation _ => "reservation"

/-- The key of a record as a text. -/
def key : Lookup → String
  | .job id => toString id
  | .node name | .partition name | .account name | .user name | .quality name
  | .reservation name => name

/-- The usable records of a message, each as the answer that it would be. -/
def readAll : Lookup → Json → Option (List Answer)
  | .job _, v => (Job.listOfWire v).map (List.map .job)
  | .node _, v => (Node.listOfWire v).map (List.map .node)
  | .partition _, v => (Partition.listOfWire v).map (List.map .partition)
  | .account _, v => (Account.listOfWire v).map (List.map .account)
  | .user _, v => (User.listOfWire v).map (List.map .user)
  | .quality _, v => (Qos.listOfWire v).map (List.map .quality)
  | .reservation _, v => (Reservation.listOfWire v).map (List.map .reservation)

/-- The usable records in the body of an answer, in its order, if it can be read. -/
def records? (q : Lookup) (body : List UInt8) : Option (List Answer) :=
  (Json.ofBytes? body).bind q.readAll

/-- The answer is the record that is asked for. -/
def Finds : Lookup → Answer → Prop
  | .job id, .job found => found.jobId = id
  | .node name, .node found => found.name = name
  | .partition name, .partition found => found.name = name
  | .account name, .account found => found.name = name
  | .user name, .user found => found.name = name
  | .quality name, .quality found => found.name = name
  | .reservation name, .reservation found => found.name = name
  | _, _ => False

/-- What should be reported if an answer has these usable records: what is reported as found is what was
    asked for, and nothing is found just if none of the records is that. -/
structure Right (q : Lookup) (rs : List Answer) (o : Except Error Answer) : Prop where
  found : ∀ a, o = .ok a → q.Finds a
  notFound : (∃ e, o = .error e ∧ e.kind = .notFound) ↔ ∀ a ∈ rs, ¬ q.Finds a

/-- Every revision offers to look up records, and their keys are not checked. -/
theorem passes (q : Lookup) (s : Session) : q.command.Passes s := by
  cases q <;> exact ⟨rfl, rfl⟩

/-- The first of the records that are read is taken. -/
theorem map_decodeFirst {α : Type} {read : Json → Option (List α)} {f : α → Answer}
    {body : List UInt8} (what key : String)
    (h : ((Json.ofBytes? body).bind fun v => (read v).map (List.map f)) = some rs) :
    (Command.decodeFirst what key read body).map f =
      rs.head?.elim (.error (.missing what key)) .ok := by
  rw [Command.decodeFirst, Command.decode]
  obtain ⟨v, hv, hrs⟩ := Option.bind_eq_some_iff.mp h
  obtain ⟨items, hitems, rfl⟩ := Option.map_eq_some_iff.mp hrs
  rw [hv, Option.bind_some, hitems]
  cases items with
  | nil => rfl
  | cons a items => rfl

/-- What is made of an answer that can be read: the first usable record. -/
theorem conclude_command (s : Session) (h : q.records? r.body = some rs) :
    q.command.conclude s (.ok r) =
      rs.head?.elim (.error (s.fail (.missing q.what q.key))) .ok := by
  have hread : q.command.read s.apiVersion r.body =
      rs.head?.elim (.error (.missing q.what q.key)) .ok := by
    cases q <;> exact map_decodeFirst _ _ h
  rw [Command.conclude, hread]
  cases rs.head? <;> rfl

theorem right_conclude_iff (s : Session) (h : q.records? r.body = some rs) :
    q.Right rs (q.command.conclude s (.ok r)) ↔ ∀ a ∈ rs.head?, q.Finds a := by
  rw [conclude_command s h]
  cases rs with
  | nil =>
    have hright : q.Right [] (.error (s.fail (.missing q.what q.key))) :=
      ⟨fun _ ha => (by cases ha), fun _ => List.forall_mem_nil _, fun _ => ⟨_, rfl, rfl⟩⟩
    exact ⟨fun _ _ ha => (by cases ha), fun _ => hright⟩
  | cons first rest =>
    constructor
    · intro hright a ha
      exact hright.found a (by rw [Option.mem_def.mp ha]; rfl)
    · intro hfirst
      have hfinds : q.Finds first := hfirst first rfl
      refine ⟨fun a ha => ?_, fun hnone => ?_, fun hnone => ?_⟩
      · cases ha
        exact hfinds
      · obtain ⟨e, he, -⟩ := hnone
        cases he
      · exact absurd hfinds (hnone first List.mem_cons_self)

end Lookup

namespace Traffic

variable {setup : ClientSetup} {t : Traffic} {holder : Nat}

/-- A call whose last exchange was answered with success has ended with this answer, or else it was
    called off. -/
theorem Ended.answered_or_calledOff {events : List TrafficEvent} {context : Context}
    {endpoint : String} {outcome : Except Failure Response}
    (h : t.Ended setup holder events context endpoint outcome) {before : List Exchange} {x : Exchange}
    (hxs : t.exchanges setup holder events = before ++ [x]) {r : Response}
    (hr : x.delivery.outcome = .ok r) (hs : r.isSuccess = true) :
    outcome = .ok r ∨ ∃ reason, outcome = .error (.cancelled reason) := by
  have hgood : x.outcome = .ok r := Call.judge_eq_ok_iff.mpr ⟨hr, hs⟩
  obtain ⟨_, _, -, hending⟩ := h
  rw [hxs] at hending
  cases hending with
  | calledOff => exact .inr ⟨_, rfl⟩
  | refused _ hnil => exact absurd hnil (List.append_ne_nil_of_right_ne_nil _ (List.cons_ne_nil _ _))
  | denied _ hall =>
    obtain ⟨f, hf, -⟩ := hall x (List.mem_append_right _ List.mem_cons_self)
    rw [hgood] at hf
    cases hf
  | failed hlast hf =>
    cases (List.append_inj' hlast rfl).2
    rw [hgood] at hf
    cases hf
  | answered hlast hr' =>
    cases (List.append_inj' hlast rfl).2
    rw [hr'] at hr
    cases hr
    exact .inl rfl

/-- What passes the gate of the session that it is ordered in is made into a request. -/
theorem Sound.exists_request (h : Sound t) {context : Context} {held : Option Session}
    {command : Command} (hx : t.activities[holder]? = some (.task (.command context held command)))
    (hp : command.Passes (held.getD t.client.current)) :
    ∃ request, command.prepare (held.getD t.client.current) = .ok (some request) := by
  have hbase : OnWeb (held.getD t.client.current).endpoint := by
    have hheld := h.activities _ (List.mem_of_getElem? hx)
    cases held with
    | none => exact h.client.current
    | some held => exact hheld held rfl
  exact Command.exists_request hbase hp

/-- When looking up a record is right. Take a client that connected with a checked configuration, at any
    time, and a record that is about to be looked up in some session. Whatever goes on around it, if the
    last answer to it is a success that can be read, then unless it was called off, it reports the first
    usable record of the answer, and if there is none, that the record was not found. So what it reports
    is right exactly if the first usable record is the one that was asked for, or there is none. -/
theorem lookup_right_iff (setup : ClientSetup) (hvalid : setup.config.validate = .ok ()) :
    ∀ client past, Connects setup client → Own setup [] { client } past →
      let t := after setup { client } past
      ∀ holder context held (q : Lookup),
        t.activities[holder]? = some (.task (.command context held q.command)) →
        let s := held.getD t.client.current
        let t₁ := t.step setup (.advance holder)
        ∀ events o, (t₁.after setup events).outcome? holder = some o →
          ∀ before x r rs, t₁.exchanges setup holder events = before ++ [x] →
            x.delivery.outcome = .ok r → r.isSuccess = true → q.records? r.body = some rs →
            (∃ reason, o = .error (.api s.endpoint (some s.apiVersion) (.cancelled reason))) ∨
            o = rs.head?.elim (.error (.api s.endpoint (some s.apiVersion) (.missing q.what q.key)))
              .ok ∧
            (q.Right rs o ↔ ∀ a ∈ rs.head?, q.Finds a) := by
  intro client past hc hown t holder context held q hx s t₁ events o ho before x r rs hxs hr hs hrs
  have hmax := RetryPolicy.one_le_maxAttempts (ClientConfig.retry_of_validate hvalid)
  have hsound : Sound t := (hc.sound hvalid).after (ClientConfig.exists_web hvalid)
    (fun _ hs => absurd hs List.not_mem_nil) hown
  have hgate := hsound.exists_request hx (q.passes s)
  obtain ⟨-, outcome, hended, rfl⟩ := exists_ended hmax hgate (advance_order hx) ho
  rcases hended.answered_or_calledOff hxs hr hs with rfl | ⟨reason, rfl⟩
  · exact .inr ⟨q.conclude_command s hrs, Lookup.right_conclude_iff s hrs⟩
  · exact .inl ⟨reason, rfl⟩

/-- A node is asked for, and the server has this listing for an answer. -/
def asking (listing : String) : List TrafficEvent :=
  [.outside (.serve { script := [⟨.ok ⟨200, Text.Utf8.encode listing.toList⟩, 0⟩] }),
    .order { token := 0 } none (Lookup.node "n1").command]

def beforeLookup (listing : String) : Traffic :=
  after Renewals.openSetup { client := Renewals.openClient.client } (asking listing)

/-- The lookup has begun. -/
def lookingUp (listing : String) : Traffic :=
  (beforeLookup listing).step Renewals.openSetup (.advance 0)

def untilReported : List TrafficEvent := List.replicate 5 (.advance 0)

def namedNode (name : String) : Answer := .node ⟨name, [], none, none, [], [], none, none⟩

/-- An outcome that is known to be an answer. Unlike outcomes, answers can be compared. -/
theorem outcome?_eq_ok {a : Answer} (h : (t.outcome? holder).bind Except.toOption = some a) :
    t.outcome? holder = some (.ok a) := by
  obtain ⟨o, ho, ha⟩ := Option.bind_eq_some_iff.mp h
  cases o with
  | error e => cases ha
  | ok b => cases ha; exact ho

/-- The one exchange of a list, with what is known of its answer. -/
theorem exists_exchange {xs : List Exchange} {r : Response}
    (h : xs.map (fun x => x.delivery.outcome.toOption) = [some r]) :
    ∃ x, xs = [x] ∧ x.delivery.outcome = .ok r := by
  obtain ⟨x, rfl, hx⟩ := List.map_eq_singleton_iff.mp h
  refine ⟨x, rfl, ?_⟩
  cases ho : x.delivery.outcome with
  | error e => rw [ho] at hx; cases hx
  | ok answered => rw [ho] at hx; cases hx; rfl

/-- A record without a name, then the node that is asked for, and another one. -/
def mixedListing : String :=
  "\x7b\"nodes\":[\x7b\"cpus\":4\x7d,\x7b\"name\":\"n1\"\x7d,\x7b\"name\":\"n2\"\x7d]\x7d"

/-- The first usable record is the one that was asked for, and it is reported. -/
theorem lookup_right_iff_mixed :
    Renewals.openSetup.config.validate = .ok () ∧
    Connects Renewals.openSetup Renewals.openClient.client ∧
    Own Renewals.openSetup [] { client := Renewals.openClient.client } (asking mixedListing) ∧
    (beforeLookup mixedListing).activities[0]? =
      some (.task (.command { token := 0 } none (Lookup.node "n1").command)) ∧
    ((lookingUp mixedListing).after Renewals.openSetup untilReported).outcome? 0 =
      some (.ok (namedNode "n1")) ∧
    (∃ x, (lookingUp mixedListing).exchanges Renewals.openSetup 0 untilReported = [x] ∧
      x.delivery.outcome = .ok ⟨200, Text.Utf8.encode mixedListing.toList⟩) ∧
    (Lookup.node "n1").records? (Text.Utf8.encode mixedListing.toList) =
      some [namedNode "n1", namedNode "n2"] ∧
    (Lookup.node "n1").Right [namedNode "n1", namedNode "n2"] (.ok (namedNode "n1")) := by
  have hvalid : Renewals.openSetup.config.validate = .ok () := rfl
  have hown : Own Renewals.openSetup [] { client := Renewals.openClient.client }
      (asking mixedListing) := ⟨nofun, nofun, trivial⟩
  have hx : (beforeLookup mixedListing).activities[0]? =
      some (.task (.command { token := 0 } none (Lookup.node "n1").command)) := rfl
  have ho : ((lookingUp mixedListing).after Renewals.openSetup untilReported).outcome? 0 =
      some (.ok (namedNode "n1")) := outcome?_eq_ok (by decide +kernel)
  obtain ⟨x, hxs, hr⟩ : ∃ x,
      (lookingUp mixedListing).exchanges Renewals.openSetup 0 untilReported = [x] ∧
      x.delivery.outcome = .ok ⟨200, Text.Utf8.encode mixedListing.toList⟩ :=
    exists_exchange (by decide +kernel)
  have hrs : (Lookup.node "n1").records? (Text.Utf8.encode mixedListing.toList) =
      some [namedNode "n1", namedNode "n2"] := by decide +kernel
  refine ⟨hvalid, connects_openClient, hown, hx, ho, ⟨x, hxs, hr⟩, hrs, ?_⟩
  rcases lookup_right_iff Renewals.openSetup hvalid Renewals.openClient.client (asking mixedListing)
    connects_openClient hown 0 _ none (.node "n1") hx untilReported _ ho [] x _ _ hxs hr rfl hrs with
    ⟨_, hoff⟩ | ⟨-, hright⟩
  · cases hoff
  · refine hright.mpr fun a ha => ?_
    cases ha
    rfl

/-- Another node, and then the one that is asked for. -/
def swappedListing : String :=
  "\x7b\"nodes\":[\x7b\"name\":\"n2\"\x7d,\x7b\"name\":\"n1\"\x7d]\x7d"

/-- The other node is reported, although the answer holds the one that was asked for. -/
theorem reports_other_node :
    (beforeLookup swappedListing).activities[0]? =
      some (.task (.command { token := 0 } none (Lookup.node "n1").command)) ∧
    ((lookingUp swappedListing).after Renewals.openSetup untilReported).outcome? 0 =
      some (.ok (namedNode "n2")) ∧
    (∃ x, (lookingUp swappedListing).exchanges Renewals.openSetup 0 untilReported = [x] ∧
      x.delivery.outcome = .ok ⟨200, Text.Utf8.encode swappedListing.toList⟩) ∧
    (Lookup.node "n1").records? (Text.Utf8.encode swappedListing.toList) =
      some [namedNode "n2", namedNode "n1"] ∧
    (Lookup.node "n1").Finds (namedNode "n1") ∧
    ¬ (Lookup.node "n1").Right [namedNode "n2", namedNode "n1"] (.ok (namedNode "n2")) := by
  refine ⟨rfl, outcome?_eq_ok (by decide +kernel), exists_exchange (by decide +kernel),
    by decide +kernel, rfl, fun hright => ?_⟩
  have hname : "n2" = "n1" := hright.found _ rfl
  exact absurd hname (by decide)

end Traffic

end SlurmLink
