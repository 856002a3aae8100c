import SlurmLink.Proofs.Address
import SlurmLink.Proofs.Docket
import SlurmLink.Proofs.Tenure

/-!
What goes on from one session of a client to the next, and what begins anew. Whoever holds a session
keeps it, whatever becomes of the client's own (`Traffic.Holds.step`). Once a client is closed its
breakers are gone, and the first call after that is let in by a new one (`Traffic.afresh_close`):

    order, held to s     command ──▶ errand ──▶ request below the version of s
    renew                s ──▶ s'
    close                breakers forgotten
    next call            admitted, breaker closed, no failures

`Traffic.session_kept` puts this beside what renewals do to the session of the client.
-/

namespace SlurmLink

/-- The address is one for the session: below its endpoint, a plugin and its version. -/
def Session.Addresses (s : Session) (url : String) : Prop :=
  ∃ u plugin path, Url.read s.endpoint = .ok (.web u) ∧
    url = (u.extend (Plugin.name plugin :: s.apiVersion.toText :: path)).toText

theorem Session.addresses_of_url {s : Session} {plugin : Plugin} {path : List String} {url : String}
    (h : s.url plugin path = .ok url) : s.Addresses url := by
  rw [Session.url] at h
  split at h
  · cases h
  · cases h
  · next u hu =>
    cases h
    exact ⟨u, plugin, path, hu, rfl⟩

/-- The request that a session makes for a command goes to an address of the session. -/
theorem Command.addresses_of_prepare {s : Session} {c : Command} {r : Request}
    (h : c.prepare s = .ok (some r)) : s.Addresses r.url := by
  rw [prepare_supported (passes_of_prepare h).supported] at h
  split at h
  · cases h
  · cases h
  · next d _ =>
    cases hd : s.request d with
    | error e => rw [hd] at h; cases h
    | ok r' =>
      rw [hd] at h
      cases h
      exact Session.addresses_of_url (Session.url_of_request hd)

/-! ### Who holds a session -/

/-- An errand for a command that its revision does not offer ends as not implemented, if it ends. -/
def Errand.Candid (e : Errand) : Prop :=
  ∀ outcome, e.outcome? = some outcome → e.session.revision.supports e.command.operation = false →
    outcome = .error (.notImplemented e.command.operation e.session.apiVersion)

theorem Errand.Candid.goes {p : CallPolicy} {e e' : Errand} {l l' : Link} (hl : e.Lawful)
    (hg : Goes p e l e' l') : e'.Candid := by
  intro outcome ho hs
  cases hg with
  | starts hp =>
    have hs' : e.session.revision.supports e.command.operation = false := hs
    rw [start_of_prepare (Command.prepare_unsupported hs')] at ho
    cases ho
    rfl
  | calls hp hcall => cases ho
  | reads hp =>
    -- its call was made for a request that has passed the gate
    rw [Lawful, hp] at hl
    have hoffers := (Command.passes_of_prepare hl).supported
    exact absurd (hoffers.symm.trans hs) (by decide)

namespace Activity

variable {setup : ClientSetup} {x x' : Activity} {c c' : Client} {s : Session} {command : Command}

/-- The activity is for the command, and held to the session. -/
def HeldTo (s : Session) (command : Command) : Activity → Prop
  | .task (.command _ held order) => held = some s ∧ order = command
  | .task (.errand e) => e.session = s ∧ e.command = command
  | .watch w => w.session = s ∧ w.subject.command = command
  | _ => False

def Candid : Activity → Prop
  | .task (.errand e) => e.Candid
  | _ => True

theorem HeldTo.becomes (h : x.HeldTo s command) (hb : x.Becomes setup c x') :
    x'.HeldTo s command := by
  cases x with
  | connecting a => exact absurd h id
  | task k =>
    cases hb with
    | steps hs =>
      obtain ⟨r, hr, he⟩ := Option.map_eq_some_iff.mp hs
      cases he
      cases k with
      | command context held order =>
        obtain ⟨rfl, rfl⟩ := h
        cases hr
        exact ⟨rfl, rfl⟩
      | errand e =>
        obtain ⟨y, hy, he⟩ := Option.map_eq_some_iff.mp hr
        cases he
        rw [(Errand.goes_of_step hy).eq_with_phase]
        exact h
      | renewal r => exact absurd h id
    | _ => exact h
  | watch w =>
    cases hb with
    | stays => exact h
    | steps hs =>
      obtain ⟨r, hr, he⟩ := Option.map_eq_some_iff.mp hs
      cases he
      obtain ⟨hsession, hsubject, -⟩ := (Watch.goes_of_step hr).same
      exact ⟨hsession.trans h.1, by rw [hsubject]; exact h.2⟩
    | receives =>
      simp only [receive, Watch.receive]
      cases w.buffer <;> exact h
    | hangsUp => exact h

theorem Candid.becomes (h : x.Candid) (hl : x.Lawful) (hb : x.Becomes setup c x') : x'.Candid := by
  cases x with
  | connecting a =>
    cases hb with
    | steps hs => obtain ⟨r, -, he⟩ := Option.map_eq_some_iff.mp hs; cases he; trivial
    | _ => trivial
  | watch w =>
    cases hb with
    | steps hs => obtain ⟨r, -, he⟩ := Option.map_eq_some_iff.mp hs; cases he; trivial
    | _ => trivial
  | task k =>
    cases hb with
    | steps hs =>
      obtain ⟨r, hr, he⟩ := Option.map_eq_some_iff.mp hs
      cases he
      cases k with
      | command context held order =>
        cases hr
        exact fun _ ho => (by cases ho)
      | errand e =>
        obtain ⟨y, hy, he⟩ := Option.map_eq_some_iff.mp hr
        cases he
        exact Errand.Candid.goes hl (Errand.goes_of_step hy)
      | renewal r =>
        obtain ⟨y, -, he⟩ := Option.map_eq_some_iff.mp hr
        cases he
        trivial
    | _ => exact h

/-- Whatever is held to a session sends only requests that the session makes for its command. -/
theorem HeldTo.sends (h : x.HeldTo s command) (hl : x.Lawful)
    (hs : x.step setup c = some (x', c')) (hsent : c'.hub.link.sent ≠ c.hub.link.sent) :
    command.Passes s ∧ ∃ request headers, command.prepare s = .ok (some request) ∧
      c'.hub.link.sent = c.hub.link.sent ++
        [⟨c.hub.link.now, { request with headers := request.headers ++ headers }⟩] := by
  have horder : x.order? = some (s, command) := by
    cases x with
    | connecting a => exact absurd h id
    | watch w => exact congrArg some (Prod.ext h.1 h.2)
    | task k =>
      cases k with
      | command context held order => cases hs; exact absurd rfl hsent
      | errand e => exact congrArg some (Prod.ext h.1 h.2)
      | renewal r => exact absurd h id
  exact hl.sends hs horder hsent

end Activity

namespace Traffic

variable {setup : ClientSetup} {t t' : Traffic} {e : TrafficEvent} {i : Nat} {s : Session}
  {command : Command}

/-- All that goes on at a client has come as far as it may, and says so. -/
structure Honest (t : Traffic) : Prop where
  lawful : ∀ x ∈ t.activities, x.Lawful
  candid : ∀ x ∈ t.activities, x.Candid

theorem honest_new (client : Client) : Honest { client } :=
  ⟨fun _ hx => absurd hx List.not_mem_nil, fun _ hx => absurd hx List.not_mem_nil⟩

theorem Honest.step (h : t.Honest) (e : TrafficEvent) : (t.step setup e).Honest := by
  have hboth : ∀ x ∈ (t.step setup e).activities, x.Lawful ∧ x.Candid := by
    refine forall_step (fun x hx => ⟨h.lawful x hx, h.candid x hx⟩) (fun x hbegins => ?_)
      fun x x' hx hbecomes => ⟨?_, hx.2.becomes hx.1 hbecomes⟩
    · cases hbegins with
      | watch hw => exact ⟨Watch.lawful_start hw, trivial⟩
      | _ => exact ⟨trivial, trivial⟩
    · cases hbecomes with
      | stays => exact hx.1
      | steps hs => exact hx.1.step hs
      | receives => exact lawful_receive hx.1
      | hangsUp => exact lawful_hangUp hx.1
  exact ⟨fun x hx => (hboth x hx).1, fun x hx => (hboth x hx).2⟩

theorem Honest.after : ∀ (events : List TrafficEvent) {t : Traffic}, t.Honest →
    (t.after setup events).Honest
  | [], _, h => h
  | e :: events, _, h => (h.step e).after events

/-- The activity with the number `i` is for the command, and held to the session. -/
def Holds (t : Traffic) (i : Nat) (s : Session) (command : Command) : Prop :=
  ∃ x, t.activities[i]? = some x ∧ x.HeldTo s command

theorem Holds.step (h : t.Holds i s command) (e : TrafficEvent) :
    (t.step setup e).Holds i s command := by
  obtain ⟨x, hx, hheld⟩ := h
  obtain ⟨x', hx', hbecomes⟩ := exists_activity_step setup hx e
  exact ⟨x', hx', hheld.becomes hbecomes⟩

theorem Holds.after : ∀ (events : List TrafficEvent) {t : Traffic}, t.Holds i s command →
    (t.after setup events).Holds i s command
  | [], _, h => h
  | e :: events, _, h => (h.step e).after events

/-- The activity with the number `i` keeps to the session whatever happens. It sends nothing but what
    the session makes of the command, to an address of the session's version and behind the gate of the
    session's revision; and what it comes to is not implemented just if that revision does not offer the
    command. -/
def Keeps (setup : ClientSetup) (t : Traffic) (i : Nat) (s : Session) (command : Command) : Prop :=
  ∀ events, let t' := t.after setup events
    t'.Holds i s command ∧
    ((t'.step setup (.advance i)).link.sent ≠ t'.link.sent →
      command.Passes s ∧ ∃ request headers, command.prepare s = .ok (some request) ∧
        s.Addresses request.url ∧ (t'.step setup (.advance i)).link.sent = t'.link.sent ++
          [⟨t'.link.now, { request with headers := request.headers ++ headers }⟩]) ∧
    ∀ outcome, t'.outcome? i = some outcome →
      (s.revision.supports command.operation = false →
        outcome = .error (.notImplemented command.operation s.apiVersion)) ∧
      (s.revision.supports command.operation = true → ∀ f, outcome = .error f →
        f.kind ≠ .notImplemented)

theorem Holds.keeps (h : t.Holds i s command) (hh : t.Honest) : t.Keeps setup i s command := by
  intro events t'
  have hholds : t'.Holds i s command := h.after events
  have hhonest : t'.Honest := hh.after events
  refine ⟨hholds, fun hsent => ?_, fun outcome ho => ?_⟩
  all_goals obtain ⟨x, hx, hheld⟩ := hholds
  all_goals
    have hlawful := hhonest.lawful x (List.mem_of_getElem? hx)
    have hcandid := hhonest.candid x (List.mem_of_getElem? hx)
  · obtain ⟨j, y, y', c', he, hy, hs, hlink⟩ := exists_sender hsent
    cases he
    rw [hx] at hy
    cases hy
    rw [hlink] at hsent ⊢
    obtain ⟨hpasses, request, headers, hprepare, hmore⟩ := hheld.sends hlawful hs hsent
    exact ⟨hpasses, request, headers, hprepare, Command.addresses_of_prepare hprepare, hmore⟩
  · rw [outcome?, hx] at ho
    cases x with
    | connecting a => cases ho
    | watch w => cases ho
    | task k =>
      cases k with
      | command context held order => cases ho
      | renewal r => cases ho
      | errand e =>
        obtain ⟨rfl, rfl⟩ := hheld
        refine ⟨hcandid outcome ho, fun hoffers f hf hk => ?_⟩
        rw [hf] at ho
        have hnot := Errand.Lawful.supports_of_outcome? hlawful ho hk
        exact absurd (hoffers.symm.trans hnot) (by decide)

theorem holds_order (setup : ClientSetup) (t : Traffic) (context : Context) (s : Session)
    (command : Command) :
    (t.step setup (.order context (some s) command)).Holds t.activities.length s command :=
  ⟨_, List.getElem?_concat_length .., rfl, rfl⟩

theorem holds_watch {α : Type} (t : Traffic) (context : Context) {subject : Subject α}
    (settings : WatchSettings) (h : s.revision.supports ⟨subject.resource, .watch⟩ = true) :
    (t.step setup (.watch context s subject settings)).Holds t.activities.length s
      subject.command := by
  obtain ⟨w, l, hstart, hsession, hsubject, -⟩ := Watch.exists_start t.link context settings h
  refine ⟨.watch w, ?_, hsession, by rw [hsubject]⟩
  simp only [step, hstart, join]
  exact List.getElem?_concat_length ..

end Traffic

/-! ### After a client is closed -/

namespace Breakers

variable {bs : Breakers}

theorem get?_of_index (h : bs.index = []) (endpoint : String) : bs.get? endpoint = none := by
  rw [get?, find?, h]
  rfl

/-- Where no endpoint has a breaker, whoever asks for a permit gets one from a new breaker. -/
theorem acquire_of_index (h : bs.index = []) (config : BreakerConfig) (now : Nat)
    (endpoint : String) :
    ∃ id, (bs.acquire config now endpoint).1 = some (id, .normal) ∧
      (bs.acquire config now endpoint).2.find? endpoint = some id ∧
      (bs.acquire config now endpoint).2.get? endpoint = some {} := by
  have hindexed := indexed_of_index h
  have hnew : bs.cell (bs.obtain endpoint).1 = {} := by
    rw [cell_obtain_fst hindexed, get?_of_index h]
    rfl
  have hfound : (bs.acquire config now endpoint).2.find? endpoint =
      some (bs.obtain endpoint).1 := by
    rw [find?_acquire, if_pos rfl]
  obtain ⟨hfst, hcell⟩ := acquire_spec config now endpoint bs
  rw [hnew] at hfst hcell
  refine ⟨(bs.obtain endpoint).1, hfst, hfound, ?_⟩
  rw [(hindexed.acquire config now endpoint).get?_eq, hfound, Option.map_some, hcell, if_pos rfl]
  rfl

end Breakers

/-- The entry is that of somebody who is let in. -/
def PermitEntry.IsGranted : PermitEntry → Prop
  | .granted .. => True
  | _ => False

namespace PermitBooks

variable {config : BreakerConfig}

theorem index_post {b b' : PermitBooks} {x : PermitEntry} (hx : ¬ x.IsGranted)
    (h : b.post config x = some b') (hb : b.breakers.index = []) : b'.breakers.index = [] := by
  cases x with
  | joined => cases h; exact hb
  | granted holder time endpoint a => exact absurd trivial hx
  | returned holder time a outcome =>
    obtain ⟨-, rfl⟩ := post_returned h
    exact hb
  | lost holder a =>
    obtain ⟨-, rfl⟩ := post_lost h
    exact hb
  | cleared => cases h; rfl

theorem index_foldlM {es : List PermitEntry} {b b' : PermitBooks} (hx : ∀ x ∈ es, ¬ x.IsGranted)
    (h : es.foldlM (post config) b = some b') (hb : b.breakers.index = []) :
    b'.breakers.index = [] :=
  foldlM_keeps (P := fun b => b.breakers.index = [])
    (fun x hmem _ _ hb hp => index_post (hx x hmem) hp hb) hb h

end PermitBooks

namespace Call

/-- Where no endpoint has a breaker, a call that enters is let in by a new one. -/
theorem step_of_index {p : CallPolicy} {c : Call} {l : Link} (h : l.breakers.index = [])
    (hp : c.phase = .entering) (hlive : c.context.check l.tokens l.now = none) :
    ∃ id c' l', c.step p l = some (c', l') ∧ c'.admission? = some ⟨id, .normal⟩ ∧
      l'.breakers.find? c.endpoint = some id ∧
      l'.breakers.get? c.endpoint = some ⟨.closed, 0, none, false⟩ := by
  obtain ⟨id, hgranted, hfound, hget⟩ :=
    Breakers.acquire_of_index h p.breaker l.now c.endpoint
  have hacquire : l.breakers.acquire p.breaker l.now c.endpoint =
      (some (id, .normal), (l.breakers.acquire p.breaker l.now c.endpoint).2) :=
    Prod.ext hgranted rfl
  let entered := c.attempt p ⟨id, .normal⟩ 0
    { l with breakers := (l.breakers.acquire p.breaker l.now c.endpoint).2 }
  refine ⟨id, entered.1, entered.2, ?_, rfl, hfound, hget⟩
  rw [step, hp]
  simp only [enter, hlive]
  rw [hacquire]

end Call

namespace Traffic

variable {setup : ClientSetup} {t : Traffic}

/-- Breakers begin anew. No endpoint has one; a call that enters is let in, with an ordinary permit, and
    its endpoint has a closed breaker with no failures then; and so it is with the first permit that is
    granted, whoever gets it. -/
structure Afresh (setup : ClientSetup) (t : Traffic) : Prop where
  forgotten : ∀ endpoint, t.link.breakers.get? endpoint = none
  admits : ∀ c : Call, c.phase = .entering → c.context.check t.link.tokens t.link.now = none →
    ∃ id c' l', c.step setup.callPolicy t.link = some (c', l') ∧
      c'.admission? = some ⟨id, .normal⟩ ∧ l'.breakers.find? c.endpoint = some id ∧
      l'.breakers.get? c.endpoint = some ⟨.closed, 0, none, false⟩
  first : ∀ e holder time endpoint a,
    (t.step setup e).ledger = t.ledger ++ [.granted holder time endpoint a] →
      a.permit = .normal ∧
      (t.step setup e).link.breakers.get? endpoint = some ⟨.closed, 0, none, false⟩

theorem afresh_of_index (setup : ClientSetup) (h : t.link.breakers.index = []) :
    t.Afresh setup := by
  refine ⟨Breakers.get?_of_index h, fun c hp hlive => Call.step_of_index h hp hlive, ?_⟩
  intro e holder time endpoint a hledger
  obtain ⟨new, hnew, hpost, -⟩ := posts_step setup t e
  rw [hledger] at hnew
  obtain rfl := List.append_cancel_left hnew
  rw [List.foldlM_cons] at hpost
  obtain ⟨b, hb, hrest⟩ := Option.bind_eq_some_iff.mp hpost
  cases hrest
  obtain ⟨⟨-, hgranted⟩, hbooks⟩ := PermitBooks.post_granted hb
  have hbreakers : (t.step setup e).link.breakers =
      (t.link.breakers.acquire setup.config.breaker time endpoint).2 :=
    congrArg PermitBooks.breakers hbooks
  obtain ⟨id, hid, -, hget⟩ := Breakers.acquire_of_index h setup.config.breaker time endpoint
  rw [show t.books.breakers = t.link.breakers from rfl, hid] at hgranted
  obtain ⟨-, hpermit⟩ := Prod.mk.inj (Option.some.inj hgranted)
  exact ⟨hpermit.symm, by rw [hbreakers]; exact hget⟩

/-- Since a client was closed and until somebody is let in, breakers begin anew. -/
theorem afresh_close (setup : ClientSetup) (t : Traffic) (later : List TrafficEvent)
    (hnobody : ∀ new, ((t.step setup .close).after setup later).ledger =
      (t.step setup .close).ledger ++ new → ∀ x ∈ new, ¬ x.IsGranted) :
    ((t.step setup .close).after setup later).Afresh setup := by
  obtain ⟨new, hledger, hpost, -⟩ := posts_after setup later (t.step setup .close)
  exact afresh_of_index setup (PermitBooks.index_foldlM (hnobody new hledger) hpost rfl)

/-! ### All together -/

/-- The session of a client that has connected, whatever is done with it. When a renewal returns a
    session, the client uses one of the version that is returned; when a renewal fails, and as long as
    none returns a session, the client keeps the one it has. When renewals come one after the other,
    each negotiates for itself, whatever has become of those before it and whether or not the client was
    closed: it begins, asks the server unless a version is named, and has made its session or failed at
    the end. It waits for nobody, and what it returns with is the session that it has made. What is held
    to the session that is current now, a command or a watch, keeps to it whatever happens. And when the
    client is closed its breakers begin anew. -/
theorem session_kept (setup : ClientSetup) (client : Client) (hc : Connects setup client)
    (events : List TrafficEvent) :
    let t := after setup { client } events
    let s := t.current
    (∀ e i, (∀ v, t.Returns (t.step setup e) i (.ok v) → (t.step setup e).current.apiVersion = v) ∧
      ∀ f, t.Returns (t.step setup e) i (.error f) → (t.step setup e).current = s) ∧
    (∀ later, (∀ before e rest, later = before ++ e :: rest → ∀ i v,
        ¬ (t.after setup before).Returns ((t.after setup before).step setup e) i (.ok v)) →
      (t.after setup later).current = s) ∧
    (Serial setup { client } events → ∀ i r, t.renewal? i = some r →
      let asks := setup.sessionPolicy.explicit.isNone
      let record := trail setup { client } events i
      (∀ v, r.outcome? = some (.ok v) → ∃ c y, y.apiVersion = v ∧
        record = SessionEntry.opening asks i c ++ [.made i c y]) ∧
      (∀ f, r.outcome? = some (.error f) → ∃ c,
        record = SessionEntry.opening asks i c ++ [.failed i c f]) ∧
      (r.outcome? = none → r.step setup.sessionPolicy t.client = none →
        ∃ call, r.call? = some call ∧ call.outcome? = none ∧
          call.step setup.callPolicy t.link = none) ∧
      ∀ e v, t.Returns (t.step setup e) i (.ok v) → ∃ c,
        record = SessionEntry.opening asks i c ++ [.made i c (t.step setup e).current]) ∧
    (∀ later, let t' := t.after setup later
      (∀ context command, (t'.step setup (.order context (some s) command)).Keeps setup
        t'.activities.length s command) ∧
      ∀ (α : Type) context (subject : Subject α) settings,
        (s.revision.supports ⟨subject.resource, .watch⟩ = false →
          Watch.start context s subject settings t'.link =
            .error (.notImplemented ⟨subject.resource, .watch⟩ s.apiVersion)) ∧
        (s.revision.supports ⟨subject.resource, .watch⟩ = true →
          (t'.step setup (.watch context s subject settings)).Keeps setup t'.activities.length s
            subject.command)) ∧
    ∀ later, (∀ new, ((t.step setup .close).after setup later).ledger =
        (t.step setup .close).ledger ++ new → ∀ x ∈ new, ¬ x.IsGranted) →
      ((t.step setup .close).after setup later).Afresh setup := by
  intro t s
  have hhonest : t.Honest := (honest_new client).after events
  refine ⟨fun e i => ?_, fun later => current_after setup later t, fun hserial i r hi => ?_,
    fun later => ⟨fun context command => ?_, fun α context subject settings =>
      ⟨fun hs => ?_, fun hs => ?_⟩⟩, fun later hnobody => ?_⟩
  · obtain ⟨hok, herror, -⟩ := current_step setup t e
    exact ⟨hok i, herror i⟩
  · have hstanding : Standing setup.sessionPolicy.explicit.isNone t
        (fun i => trail setup { client } events i) := by
      simpa only [List.nil_append] using (hc.standing _).after hserial
    refine ⟨fun v ho => ?_, fun f ho => ?_, fun ho hs => ?_, fun e v hr => ?_⟩
    · exact (hstanding.past hi (by rw [ho]; nofun)).of_ok ho
    · exact (hstanding.past hi (by rw [ho]; nofun)).of_error ho
    · exact (hstanding.alone hi ho).call_of_step_eq_none (p := setup.sessionPolicy) (c := t.client) hs
    · exact hstanding.made_of_returns hr
  · exact (holds_order setup _ context s command).keeps ((hhonest.after later).step _)
  · exact Watch.start_unsupported _ context settings hs
  · exact (holds_watch _ context settings hs).keeps ((hhonest.after later).step _)
  · exact afresh_close setup t later hnobody

/-- A server that has no interface document any more. -/
def mute : Server := { discovery := [⟨.ok ⟨404, []⟩, 0⟩] }

/-- The session is renewed; then the server has changed, and it cannot be renewed again. -/
def renewedTwice : List TrafficEvent :=
  .renew { token := 0 } :: List.replicate 10 (.advance 0) ++
    .outside (.serve mute) :: .renew { token := 0 } :: List.replicate 10 (.advance 1)

/-- The client keeps the session of the first renewal. The second one has asked the server although that
    session was cached, and so will what comes after; a command that is held to the session stays with
    it, and breakers begin anew once the client is closed. -/
theorem session_kept_renewedTwice :
    Connects Renewals.openSetup Renewals.openClient.client ∧
    Serial Renewals.openSetup { client := Renewals.openClient.client } renewedTwice ∧
    let t := after Renewals.openSetup { client := Renewals.openClient.client } renewedTwice
    let record := trail Renewals.openSetup { client := Renewals.openClient.client } renewedTwice
    t.current = { Lobby.sharedSession with serial := 1 } ∧
    (∃ c y, record 0 = SessionEntry.opening true 0 c ++ [.made 0 c y]) ∧
    (∃ c f, record 1 = SessionEntry.opening true 1 c ++ [.failed 1 c f]) ∧
    (t.step Renewals.openSetup (.order { token := 0 } (some t.current) (.getNode "c1"))).Keeps
      Renewals.openSetup t.activities.length t.current (.getNode "c1") ∧
    (t.step Renewals.openSetup .close).Afresh Renewals.openSetup := by
  have hserial : Serial Renewals.openSetup { client := Renewals.openClient.client } renewedTwice := by
    decide +kernel
  obtain ⟨-, -, hrenewals, hheld, hclose⟩ :=
    session_kept Renewals.openSetup Renewals.openClient.client connects_openClient renewedTwice
  refine ⟨connects_openClient, hserial, ?_⟩
  intro t record
  have hreturned : (t.renewal? 0).bind Renewal.outcome? = some (.ok (.ofPatch 41)) := by
    decide +kernel
  have hfailed : ((t.renewal? 1).bind Renewal.outcome?).map Except.isOk = some false := by
    decide +kernel
  have hcurrent : t.current = { Lobby.sharedSession with serial := 1 } := by decide +kernel
  have hnil : ∀ u : Traffic, u.after Renewals.openSetup [] = u := fun u => rfl
  have hkeeps := (hheld []).1 { token := 0 } (.getNode "c1")
  have hafresh := hclose []
  rw [hnil] at hkeeps hafresh
  refine ⟨hcurrent, ?_, ?_, hkeeps, hafresh fun new hnew x hx => ?_⟩
  · obtain ⟨r, hr, ho⟩ := Option.bind_eq_some_iff.mp hreturned
    obtain ⟨c, y, -, hrecord⟩ := (hrenewals hserial 0 r hr).1 _ ho
    exact ⟨c, y, hrecord⟩
  · obtain ⟨outcome, ho, herr⟩ := Option.map_eq_some_iff.mp hfailed
    obtain ⟨r, hr, ho⟩ := Option.bind_eq_some_iff.mp ho
    cases outcome with
    | ok v => cases herr
    | error f =>
      obtain ⟨c, hrecord⟩ := (hrenewals hserial 1 r hr).2.1 f ho
      exact ⟨c, f, hrecord⟩
  · rw [List.self_eq_append_right.mp hnew] at hx
    cases hx

end Traffic

end SlurmLink
