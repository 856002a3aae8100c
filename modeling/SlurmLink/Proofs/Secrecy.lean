import SlurmLink.Proofs.Schedule
import SlurmLink.Proofs.SingleFlight
import SlurmLink.Proofs.Traffic
import SlurmLink.Watch.Receiver

/-!
The token of a client travels in its header and leaves no other trace. Of two runs that differ in the
token alone, each step leads to the same thing, and to states that differ in nothing but the values of
that header on the record of requests (`Alike`):

    state  ── step ──▶ thing, state
      │ Alike            =      │ Alike
    state' ── step ──▶ thing, state'

This goes through all layers, from calls (`Call.step_agree`) up to everything that happens at a client
(`Traffic.Resembles.step`) and to whatever runs by itself on one clock (`Machine.Agrees.run`). Nothing ever
reads the record, and what the credentials answer goes nowhere else.
-/

namespace SlurmLink

universe u v

/-- A header without its value, if that is a token. -/
def blankToken (h : Header) : Header := if h.1 = userTokenHeader then (h.1, "") else h

/-- A request on record without the tokens in its headers. -/
def Sent.blanked (s : Sent) : Sent :=
  { s with request := { s.request with headers := s.request.headers.map blankToken } }

/-- Two states that differ in nothing but the values of tokens on the record of requests. -/
def Alike {σ : Type} [HasLink σ] (s s' : σ) : Prop :=
  ∃ sent : List Sent, s' = HasLink.onLink (fun l => { l with sent }) s ∧
    sent.map Sent.blanked = (HasLink.link s).sent.map Sent.blanked

theorem alike_link_iff {l l' : Link} : Alike l l' ↔ ∃ sent, l' = { l with sent := sent } ∧
    sent.map Sent.blanked = l.sent.map Sent.blanked := Iff.rfl

theorem alike_hub_iff {h h' : Hub} : Alike h h' ↔
    ∃ sent, h' = { h with link := { h.link with sent := sent } } ∧
      sent.map Sent.blanked = h.link.sent.map Sent.blanked := Iff.rfl

theorem alike_client_iff {c c' : Client} : Alike c c' ↔
    ∃ sent, c' = { c with hub := { c.hub with link := { c.hub.link with sent := sent } } } ∧
      sent.map Sent.blanked = c.hub.link.sent.map Sent.blanked := Iff.rfl

theorem alike_hub (table : SessionTable) {l l' : Link} (h : Alike l l') :
    Alike { link := l, table : Hub } { link := l', table : Hub } := by
  obtain ⟨sent, rfl, hsent⟩ := alike_link_iff.mp h
  exact ⟨sent, rfl, hsent⟩

theorem alike_client (current : Session) {h h' : Hub} (hh : Alike h h') :
    Alike { hub := h, current : Client } { hub := h', current : Client } := by
  obtain ⟨sent, rfl, hsent⟩ := alike_hub_iff.mp hh
  exact ⟨sent, rfl, hsent⟩

/-- Two steps that lead to the same thing in states that are alike, or to nothing. -/
inductive Agree {σ : Type} {τ : Type u} [HasLink σ] : Option (τ × σ) → Option (τ × σ) → Prop where
  | none : Agree none none
  | some (t : τ) {s s' : σ} (h : Alike s s') : Agree (some (t, s)) (some (t, s'))

theorem Agree.map {σ σ' : Type} {τ : Type u} {τ' : Type v} [HasLink σ] [HasLink σ'] {x x' : Option (τ × σ)}
    (h : Agree x x') (f : τ → τ') {g g' : σ → σ'} (hg : ∀ s s', Alike s s' → Alike (g s) (g' s')) :
    Agree (x.map fun r => (f r.1, g r.2)) (x'.map fun r => (f r.1, g' r.2)) := by
  cases h with
  | none => exact .none
  | some t h => exact .some (f t) (hg _ _ h)

/-! ### Calls -/

/-- Two policies whose credentials differ in tokens only. -/
structure CallPolicy.Resembles (p p' : CallPolicy) : Prop where
  eq : p' = { p with credentials := p'.credentials }
  latency : p'.credentials.latency = p.credentials.latency
  answer : ∀ n, (p'.credentials.answer n).map (List.map blankToken) =
    (p.credentials.answer n).map (List.map blankToken)

namespace Call

variable {p p' : CallPolicy} {l l' : Link}

theorem conclude_agree (hp : p.Resembles p') (h : Alike l l') (a : Admission)
    (outcome : Except Failure Response) (c : Call) :
    Agree (some (c.conclude p a outcome l)) (some (c.conclude p' a outcome l')) := by
  obtain ⟨sent, rfl, hsent⟩ := alike_link_iff.mp h
  rw [hp.eq]
  exact .some _ ⟨sent, rfl, hsent⟩

theorem attempt_agree (hp : p.Resembles p') (h : Alike l l') (a : Admission) (k : Nat) (c : Call) :
    Agree (some (c.attempt p a k l)) (some (c.attempt p' a k l')) := by
  obtain ⟨sent, rfl, hsent⟩ := alike_link_iff.mp h
  rw [attempt, attempt, hp.latency]
  exact .some _ ⟨sent, rfl, hsent⟩

theorem enter_agree (hp : p.Resembles p') (h : Alike l l') (c : Call) :
    Agree (some (c.enter p l)) (some (c.enter p' l')) := by
  obtain ⟨sent, rfl, hsent⟩ := alike_link_iff.mp h
  have hbreaker : p'.breaker = p.breaker := by rw [hp.eq]
  simp only [enter, hbreaker]
  cases c.context.check l.tokens l.now with
  | some reason => exact .some _ ⟨sent, rfl, hsent⟩
  | none =>
    cases l.breakers.acquire p.breaker l.now c.endpoint with
    | mk granted bs =>
      cases granted with
      | none => exact .some _ ⟨sent, rfl, hsent⟩
      | some x =>
        have hl : Alike { l with breakers := bs } { l with breakers := bs, sent := sent } :=
          ⟨sent, rfl, hsent⟩
        exact attempt_agree hp hl ⟨x.1, x.2⟩ 0 c

theorem send_agree (h : Alike l l') (a : Admission) (k : Nat) {headers headers' : List Header}
    (hh : headers'.map blankToken = headers.map blankToken) (c : Call) :
    Agree (some (c.send a k headers l)) (some (c.send a k headers' l')) := by
  obtain ⟨sent, rfl, hsent⟩ := alike_link_iff.mp h
  refine .some _ ⟨sent ++ [_], rfl, ?_⟩
  have hsent' : sent.map Sent.blanked = l.sent.map Sent.blanked := hsent
  show _ = (l.sent ++ [_]).map Sent.blanked
  simp only [List.map_append, hsent', List.map_cons, List.map_nil, Sent.blanked, hh]

theorem settle_agree (hp : p.Resembles p') (h : Alike l l') (a : Admission) (k : Nat)
    (outcome : Except Failure Response) (c : Call) :
    Agree (some (c.settle p a k outcome l)) (some (c.settle p' a k outcome l')) := by
  cases outcome with
  | ok r => exact conclude_agree hp h a (.ok r) c
  | error f =>
    have hretry : p'.retry = p.retry := by rw [hp.eq]
    have hrest : p'.rest? = p.rest? := by rw [hp.eq]; rfl
    simp only [settle, pause, hretry, hrest]
    split
    · obtain ⟨sent, rfl, hsent⟩ := alike_link_iff.mp h
      exact .some _ ⟨sent, rfl, hsent⟩
    · exact conclude_agree hp h a (.error f) c

theorem proceed_agree (hp : p.Resembles p') (h : Alike l l') (a : Admission) (k : Nat) (stage : Stage)
    (c : Call) : Agree (some (c.proceed p a k stage l)) (some (c.proceed p' a k stage l')) := by
  cases stage with
  | resting due => exact attempt_agree hp h a (k + 1) c
  | awaiting answer due => exact settle_agree hp h a k (judge answer) c
  | authorizing query due =>
    have hanswer := hp.answer query
    simp only [proceed]
    cases hc : p.credentials.answer query with
    | ok headers =>
      cases hc' : p'.credentials.answer query with
      | ok headers' =>
        rw [hc, hc'] at hanswer
        exact send_agree h a k (Except.ok.inj hanswer) c
      | error e => rw [hc, hc'] at hanswer; cases hanswer
    | error e =>
      cases hc' : p'.credentials.answer query with
      | ok headers' => rw [hc, hc'] at hanswer; cases hanswer
      | error e' =>
        rw [hc, hc'] at hanswer
        cases hanswer
        exact settle_agree hp h a k (.error (.auth e)) c

theorem step_agree (hp : p.Resembles p') (h : Alike l l') (c : Call) :
    Agree (c.step p l) (c.step p' l') := by
  have hread : l'.tokens = l.tokens ∧ l'.now = l.now := by
    obtain ⟨sent, rfl, -⟩ := alike_link_iff.mp h
    exact ⟨rfl, rfl⟩
  simp only [step, hread]
  cases c.phase with
  | finished outcome => exact .none
  | panicked a k => exact .none
  | entering => exact enter_agree hp h c
  | active a k stage =>
    cases c.context.check l.tokens l.now with
    | some reason => exact conclude_agree hp h a _ c
    | none =>
      simp only
      split
      · exact proceed_agree hp h a k stage c
      · exact .none

end Call

/-! ### Commands and watches -/

theorem Errand.step_agree {p p' : CallPolicy} {l l' : Link} (hp : p.Resembles p') (h : Alike l l')
    (e : Errand) : Agree (e.step p l) (e.step p' l') := by
  rw [step, step]
  cases e.phase with
  | starting => exact .some _ h
  | finished outcome => exact .none
  | calling c =>
    cases ho : c.outcome? with
    | some outcome => simp only [ho]; exact .some _ h
    | none =>
      simp only [ho]
      exact (c.step_agree hp h).map (fun c' => { e with phase := .calling c' }) fun _ _ h => h

namespace Watch

variable {α : Type} {p p' : CallPolicy} {l l' : Link}

/-- A watch starts as the same one, or is refused for the same reason. -/
theorem start_agree (h : Alike l l') (c : Context) (session : Session) (subject : Subject α)
    (settings : WatchSettings) :
    (∃ e, start c session subject settings l = .error e ∧
      start c session subject settings l' = .error e) ∨
    ∃ w l₁ l₁', start c session subject settings l = .ok (w, l₁) ∧
      start c session subject settings l' = .ok (w, l₁') ∧ Alike l₁ l₁' := by
  obtain ⟨sent, rfl, hsent⟩ := alike_link_iff.mp h
  rw [start, start]
  cases session.ensure ⟨subject.resource, .watch⟩ with
  | error e => exact Or.inl ⟨e, rfl, rfl⟩
  | ok _ => exact Or.inr ⟨_, _, _, rfl, rfl, sent, rfl, hsent⟩

theorem step_agree (hp : p.Resembles p') (h : Alike l l') (w : Watch α) :
    Agree (w.step p l) (w.step p' l') := by
  have hread : l'.now = l.now ∧ w.mustStop l' = w.mustStop l := by
    obtain ⟨sent, rfl, -⟩ := alike_link_iff.mp h
    exact ⟨rfl, rfl⟩
  rw [step, step, hread.1, hread.2]
  cases w.phase with
  | stopped => exact .none
  | listing errand =>
    cases w.mustStop l with
    | true => exact .some _ h
    | false =>
      cases ho : errand.outcome? with
      | some outcome => simp only [ho]; exact .some _ h
      | none =>
        simp only [ho]
        exact (errand.step_agree hp h).map (fun e => { w with phase := .listing e })
          fun _ _ h => h
  | delivering events =>
    cases events with
    | nil => exact .some _ h
    | cons e events =>
      simp only
      repeat' split
      · exact .some _ h
      · exact .some _ h
      · exact .none
  | resting due =>
    simp only
    repeat' split
    · exact .some _ h
    · exact .some _ h
    · exact .none

end Watch

theorem Receiver.step_agree {α : Type} {p p' : CallPolicy} {l l' : Link} (hp : p.Resembles p')
    (h : Alike l l') (r : Receiver α) : Agree (r.step p l) (r.step p' l') := by
  have hnow : l'.now = l.now := by
    obtain ⟨sent, rfl, -⟩ := alike_link_iff.mp h
    rfl
  rw [step, step, hnow]
  cases r.ending with
  | some ending => exact .none
  | none =>
    cases ha : r.act l.now with
    | some r' => exact .some _ h
    | none =>
      exact (r.watch.step_agree hp h).map (fun w => { r with watch := w, ending := none })
        fun _ _ h => h

/-! ### Sessions -/

/-- Two policies that differ in the tokens of their credentials only. -/
structure SessionPolicy.Resembles (p p' : SessionPolicy) : Prop where
  calls : p.calls.Resembles p'.calls
  matrix : p'.matrix = p.matrix
  explicit : p'.explicit = p.explicit

section Sessions

variable {p p' : SessionPolicy}

theorem Negotiation.conclude_agree {l l' : Link} (h : Alike l l')
    (choice : Except Error (Revision × Option ProductVersion)) (n : Negotiation) :
    Agree (some (n.conclude choice l)) (some (n.conclude choice l')) := by
  obtain ⟨sent, rfl, hsent⟩ := alike_link_iff.mp h
  cases choice with
  | error e => exact .some _ ⟨sent, rfl, hsent⟩
  | ok choice => exact .some _ ⟨sent, rfl, hsent⟩

theorem Negotiation.step_agree {l l' : Link} (hp : p.Resembles p') (h : Alike l l') (n : Negotiation) :
    Agree (n.step p l) (n.step p' l') := by
  have hchoose : ∀ outcome, choose p' n.endpoint outcome = choose p n.endpoint outcome := by
    intro outcome
    rw [choose, choose, hp.matrix]
  rw [step, step, hp.explicit]
  cases n.phase with
  | finished outcome => exact .none
  | starting =>
    cases p.explicit with
    | some v => exact conclude_agree h _ n
    | none => exact .some _ h
  | discovering c =>
    cases ho : c.outcome? with
    | some outcome => simp only [ho, hchoose]; exact conclude_agree h _ n
    | none =>
      simp only [ho]
      exact (c.step_agree hp.calls h).map (fun c' => { n with phase := .discovering c' })
        fun _ _ h => h

theorem Acquisition.step_agree {h h' : Hub} (hp : p.Resembles p') (hh : Alike h h') (a : Acquisition) :
    Agree (a.step p h) (a.step p' h') := by
  obtain ⟨sent, rfl, hsent⟩ := alike_hub_iff.mp hh
  rw [step, step]
  cases a.phase with
  | finished outcome => exact .none
  | entering =>
    simp only [enter]
    split
    · exact .some _ ⟨sent, rfl, hsent⟩
    · exact .some _ ⟨sent, rfl, hsent⟩
  | waiting cell ticket =>
    simp only [wait]
    split
    · exact .some _ ⟨sent, rfl, hsent⟩
    · split
      · exact .some _ ⟨sent, rfl, hsent⟩
      · exact .none
    · exact .none
  | negotiating cell ticket n =>
    cases ho : n.outcome? with
    | some outcome => simp only [ho]; exact .some _ ⟨sent, rfl, hsent⟩
    | none =>
      simp only [ho]
      have hl : Alike h.link { h.link with sent := sent } := ⟨sent, rfl, hsent⟩
      exact (n.step_agree hp hl).map (fun n => { a with phase := .negotiating cell ticket n })
        fun _ _ => alike_hub h.table

end Sessions

/-! ### Clients -/

/-- Two setups that differ in their tokens only. -/
structure ClientSetup.Resembles (setup setup' : ClientSetup) : Prop where
  config : setup'.config = { setup.config with jwt := setup'.config.jwt }
  calls : setup.callPolicy.Resembles setup'.callPolicy

section Clients

variable {setup setup' : ClientSetup}

theorem ClientSetup.Resembles.sessions (h : setup.Resembles setup') :
    setup.sessionPolicy.Resembles setup'.sessionPolicy where
  calls := h.calls
  matrix := by rw [sessionPolicy, sessionPolicy, h.config]
  explicit := by rw [sessionPolicy, sessionPolicy, h.config]

theorem Renewal.step_agree {p p' : SessionPolicy} {c c' : Client} (hp : p.Resembles p')
    (h : Alike c c') (r : Renewal) : Agree (r.step p c) (r.step p' c') := by
  obtain ⟨sent, rfl, hsent⟩ := alike_client_iff.mp h
  rw [step, step]
  cases r.phase with
  | finished outcome => exact .none
  | starting => exact .some _ ⟨sent, rfl, hsent⟩
  | acquiring a =>
    cases ho : a.outcome? with
    | none =>
      have hh : Alike c.hub { c.hub with link := { c.hub.link with sent := sent } } :=
        ⟨sent, rfl, hsent⟩
      simp only [ho]
      exact (a.step_agree hp hh).map (fun a => { r with phase := .acquiring a })
        fun _ _ => alike_client c.current
    | some outcome =>
      simp only [ho]
      cases outcome with
      | ok s => exact .some _ ⟨sent, rfl, hsent⟩
      | error e => exact .some _ ⟨sent, rfl, hsent⟩

theorem Task.step_agree (hs : setup.Resembles setup') {c c' : Client} (h : Alike c c') (t : Task) :
    Agree (t.step setup c) (t.step setup' c') := by
  cases t with
  | renewal r => exact (r.step_agree hs.sessions h).map Task.renewal fun _ _ h => h
  | command context held order =>
    obtain ⟨sent, rfl, hsent⟩ := alike_client_iff.mp h
    exact .some _ ⟨sent, rfl, hsent⟩
  | errand e =>
    obtain ⟨sent, rfl, hsent⟩ := alike_client_iff.mp h
    have hl : Alike c.hub.link { c.hub.link with sent := sent } := ⟨sent, rfl, hsent⟩
    exact (e.step_agree hs.calls hl).map Task.errand
      fun _ _ h => alike_client c.current (alike_hub c.hub.table h)

theorem Activity.step_agree (hs : setup.Resembles setup') {c c' : Client} (h : Alike c c')
    (x : Activity) : Agree (x.step setup c) (x.step setup' c') := by
  cases x with
  | task t => exact (t.step_agree hs h).map Activity.task fun _ _ h => h
  | connecting a =>
    obtain ⟨sent, rfl, hsent⟩ := alike_client_iff.mp h
    have hh : Alike c.hub { c.hub with link := { c.hub.link with sent := sent } } :=
      ⟨sent, rfl, hsent⟩
    exact (a.step_agree hs.sessions hh).map Activity.connecting fun _ _ => alike_client c.current
  | watch w =>
    obtain ⟨sent, rfl, hsent⟩ := alike_client_iff.mp h
    have hl : Alike c.hub.link { c.hub.link with sent := sent } := ⟨sent, rfl, hsent⟩
    exact (w.step_agree hs.calls hl).map Activity.watch
      fun _ _ h => alike_client c.current (alike_hub c.hub.table h)

/-- Two clients that differ in tokens on record only, and so does what they do. -/
structure Traffic.Resembles (t t' : Traffic) : Prop where
  client : Alike t.client t'.client
  activities : t'.activities = t.activities
  ledger : t'.ledger = t.ledger

namespace Traffic

variable {t t' : Traffic}

theorem Resembles.join (h : t.Resembles t') (x : Activity) : (t.join x).Resembles (t'.join x) where
  client := h.client
  activities := by rw [Traffic.join, Traffic.join, h.activities]
  ledger := by rw [Traffic.join, Traffic.join, h.ledger]

theorem alike_apply {l l' : Link} (h : Alike l l') (e : LinkEvent) :
    Alike (e.apply l) (e.apply l') := by
  obtain ⟨sent, rfl, hsent⟩ := alike_link_iff.mp h
  cases e <;> exact ⟨sent, rfl, hsent⟩

theorem Resembles.advance (hs : setup.Resembles setup') (h : t.Resembles t') (holder : Nat) :
    (t.step setup (.advance holder)).Resembles (t'.step setup' (.advance holder)) := by
  have hnow : t'.link.now = t.link.now := by
    obtain ⟨sent, hc, -⟩ := alike_client_iff.mp h.client
    rw [link, hc]
    rfl
  rw [step, step, h.activities]
  cases t.activities[holder]? with
  | none => exact h
  | some x =>
    have hagree := x.step_agree hs h.client
    simp only
    generalize x.step setup t.client = r, x.step setup' t'.client = r' at hagree ⊢
    cases hagree with
    | none => exact h
    | some y hc =>
      have hnote : x.note holder t'.link y = x.note holder t.link y := by
        rw [Activity.note, Activity.note, hnow]
      exact ⟨hc, rfl, by simp only [h.ledger, hnote]⟩

/-- Every event keeps two clients alike. -/
theorem Resembles.step (hs : setup.Resembles setup') (h : t.Resembles t') (e : TrafficEvent) :
    (t.step setup e).Resembles (t'.step setup' e) := by
  obtain ⟨sent, hc, hsent⟩ := alike_client_iff.mp h.client
  have hl : Alike t.link t'.link := ⟨sent, by rw [link, hc]; rfl, hsent⟩
  have hhub : ∀ l l' : Link, Alike l l' →
      Alike (HasLink.onLink (fun _ => l) t.client)
        (HasLink.onLink (fun _ => l') t'.client) := by
    intro l l' h
    rw [hc]
    exact alike_client t.client.current (alike_hub t.client.hub.table h)
  cases e with
  | connect context =>
    have hconnection : setup'.connection context = setup.connection context := by
      rw [ClientSetup.connection, hs.config]
      rfl
    rw [Traffic.step, Traffic.step, hconnection]
    exact h.join _
  | order context held command => exact h.join _
  | renew context => exact h.join _
  | watch context session subject settings =>
    rw [Traffic.step, Traffic.step]
    obtain ⟨e, he, he'⟩ | ⟨w, l, l', hw, hw', hlink⟩ :=
      Watch.start_agree hl context session subject settings
    · rw [he, he']
      exact h
    · rw [hw, hw']
      have hstarted : Resembles { t with client := HasLink.onLink (fun _ => l) t.client }
          { t' with client := HasLink.onLink (fun _ => l') t'.client } :=
        ⟨hhub l l' hlink, h.activities, h.ledger⟩
      exact hstarted.join _
  | advance holder => exact h.advance hs holder
  | receive holder => exact ⟨h.client, by simp only [Traffic.step, h.activities], h.ledger⟩
  | hangUp holder => exact ⟨h.client, by simp only [Traffic.step, h.activities], h.ledger⟩
  | outside e => exact ⟨hhub _ _ (alike_apply hl e), h.activities, h.ledger⟩
  | close =>
    refine ⟨?_, h.activities, by simp only [Traffic.step, h.ledger]⟩
    rw [Traffic.step, Traffic.step, hc]
    exact ⟨sent, rfl, hsent⟩

theorem Resembles.after (hs : setup.Resembles setup') : ∀ (events : List TrafficEvent) {t t' : Traffic},
    t.Resembles t' → (t.after setup events).Resembles (t'.after setup' events)
  | [], _, _, h => h
  | e :: events, _, _, h => Resembles.after hs events (h.step hs e)

/-- What surrounds a client: its server, its callers and the clock. They make the next thing happen, in
    view of all that has happened and of how things stand, but do not see tokens. An answer is chosen by
    making it ready (`LinkEvent.serve`) before the step that sends the request. -/
structure Surroundings where
  next : List TrafficEvent → Traffic → TrafficEvent
  blind : ∀ events t t', t.Resembles t' → next events t' = next events t

/-- The first events that the surroundings choose. -/
def Surroundings.events (setup : ClientSetup) (surroundings : Surroundings) (t : Traffic) :
    Nat → List TrafficEvent
  | 0 => []
  | n + 1 =>
    let past := surroundings.events setup t n
    past ++ [surroundings.next past (t.after setup past)]

/-- The surroundings make the same happen to two clients that are alike. -/
theorem Resembles.events_eq (hs : setup.Resembles setup') (h : t.Resembles t')
    (surroundings : Surroundings) : ∀ n : Nat,
    surroundings.events setup' t' n = surroundings.events setup t n
  | 0 => rfl
  | n + 1 => by
    have hnext := surroundings.blind (surroundings.events setup t n) _ _
      (h.after hs (surroundings.events setup t n))
    simp only [Surroundings.events, h.events_eq hs surroundings n, hnext]

end Traffic

end Clients

/-! ### On one clock -/

namespace Machine

variable {σ τ : Type} [HasLink σ] {m m' : Machine σ τ} {s s' : σ}

/-- Two machines that do the same in states that are alike. The link in such a state can be taken out and
    changed as one would expect. -/
structure Agrees (m m' : Machine σ τ) : Prop where
  step : ∀ t s s', Alike s s' → Agree (m.step t s) (m'.step t s')
  wake : ∀ t s s', Alike s s' → m'.wake t s' = m.wake t s
  link_onLink : ∀ f (s : σ), HasLink.link (HasLink.onLink f s) = f (HasLink.link s)
  onLink_onLink : ∀ f g (s : σ),
    HasLink.onLink f (HasLink.onLink g s) = HasLink.onLink (fun l => f (g l)) s

theorem Agrees.stepFirst (h : m.Agrees m') (hs : Alike s s') :
    ∀ ts : List τ, Agree (m.stepFirst ts s) (m'.stepFirst ts s')
  | [] => .none
  | t :: ts => by
    have hagree := h.step t s s' hs
    rw [Machine.stepFirst, Machine.stepFirst]
    generalize m.step t s = r, m'.step t s' = r' at hagree ⊢
    cases hagree with
    | none => exact (h.stepFirst hs ts).map (fun ts => t :: ts) fun _ _ h => h
    | some t' hs' => exact .some (t' :: ts) hs'

theorem Agrees.arrive (h : m.Agrees m') (hs : Alike s s') (time : Nat) :
    Alike (HasLink.onLink (·.arrive time) s) (HasLink.onLink (·.arrive time) s') := by
  obtain ⟨sent, rfl, hsent⟩ := hs
  refine ⟨sent, ?_, ?_⟩
  · rw [h.onLink_onLink, h.onLink_onLink]
    rfl
  · rw [h.link_onLink]
    exact hsent

theorem Agrees.next (h : m.Agrees m') (hs : Alike s s') (ts : List τ) :
    Agree (m.next ts s) (m'.next ts s') := by
  have hwake : m'.nextWake ts s' = m.nextWake ts s := by
    have hall : (fun t => m'.wake t s') = fun t => m.wake t s := funext fun t => h.wake t s s' hs
    rw [nextWake, nextWake, hall]
  have hplan : (HasLink.link s').nextCancellation = (HasLink.link s).nextCancellation := by
    obtain ⟨sent, rfl, -⟩ := hs
    rw [h.link_onLink]
    rfl
  have hagree := h.stepFirst hs ts
  rw [Machine.next, Machine.next, hwake, hplan]
  generalize m.stepFirst ts s = r, m'.stepFirst ts s' = r' at hagree ⊢
  cases hagree with
  | some ts' hs' => exact .some ts' hs'
  | none =>
    cases m.nextWake ts s with
    | none => exact .none
    | some wake => exact .some ts (h.arrive hs _)

/-- Runs from states that are alike lead to the same and to states that are alike. -/
theorem Agrees.run (h : m.Agrees m') : ∀ (n : Nat) (ts : List τ) {s s' : σ}, Alike s s' →
    (m'.run n ts s').1 = (m.run n ts s).1 ∧ Alike (m.run n ts s).2 (m'.run n ts s').2
  | 0, _, _, _, hs => ⟨rfl, hs⟩
  | n + 1, ts, s, s', hs => by
    have hagree := h.next hs ts
    rw [Machine.run, Machine.run]
    generalize m.next ts s = r, m'.next ts s' = r' at hagree ⊢
    cases hagree with
    | none => exact ⟨rfl, hs⟩
    | some ts' hs' => exact h.run n ts' hs'

theorem Agrees.runOne (h : m.Agrees m') (n : Nat) (t : τ) (hs : Alike s s') :
    (m'.runOne n t s').1 = (m.runOne n t s).1 ∧
      Alike (m.runOne n t s).2 (m'.runOne n t s').2 := by
  have hrun := h.run n [t] hs
  rw [m.run_eq_runOne, m'.run_eq_runOne] at hrun
  exact ⟨List.singleton_inj.mp hrun.1, hrun.2⟩

end Machine

theorem Acquisition.agrees {p p' : SessionPolicy} (hp : p.Resembles p') :
    (machine p).Agrees (machine p') where
  step a _ _ hh := a.step_agree hp hh
  wake _ _ _ _ := rfl
  link_onLink _ _ := rfl
  onLink_onLink _ _ _ := rfl

theorem Task.agrees {setup setup' : ClientSetup} (hs : setup.Resembles setup') :
    (machine setup).Agrees (machine setup') where
  step t _ _ hc := t.step_agree hs hc
  wake _ _ _ _ := rfl
  link_onLink _ _ := rfl
  onLink_onLink _ _ _ := rfl

theorem Receiver.agrees {α : Type} {p p' : CallPolicy} (hp : p.Resembles p') :
    Machine.Agrees (machine p : Machine Link (Receiver α)) (machine p') where
  step r _ _ hl := r.step_agree hp hl
  wake r l l' hl := by
    obtain ⟨sent, rfl, -⟩ := alike_link_iff.mp hl
    rfl
  link_onLink _ _ := rfl
  onLink_onLink _ _ _ := rfl

/-- The check of a configuration does not look at the token. -/
theorem ClientConfig.validate_jwt (config : ClientConfig) (jwt : Option String) :
    ClientConfig.validate { config with jwt := jwt } = config.validate := by
  have hendpoint : ClientConfig.endpoint { config with jwt := jwt } = config.endpoint := rfl
  rw [validate, validate, validateUrl, validateUrl, hendpoint]

namespace ClientSetup

variable {setup setup' : ClientSetup}

theorem connect_alike (hs : setup.Resembles setup') (fuel : Nat) (context : Context) {h h' : Hub}
    (hh : Alike h h') : (setup'.connect fuel context h').1 = (setup.connect fuel context h).1 ∧
      Alike (setup.connect fuel context h).2 (setup'.connect fuel context h').2 := by
  have hvalid : setup'.config.validate = setup.config.validate := by
    rw [hs.config, ClientConfig.validate_jwt]
  have hconnection : setup'.connection context = setup.connection context := by
    rw [connection, hs.config]
    rfl
  rw [connect, connect, hvalid, hconnection]
  cases setup.config.validate with
  | error e => exact ⟨rfl, hh⟩
  | ok _ =>
    obtain ⟨hresult, halike⟩ :=
      (Acquisition.agrees hs.sessions).runOne fuel (setup.connection context) hh
    exact ⟨congrArg Acquisition.outcome? hresult, halike⟩

/-! ### Tokens -/

/-- Two setups with the same user and two tokens, neither of them empty. The credentials are given as
    such, or come from configurations that differ in the token. -/
structure DifferInToken (setup setup' : ClientSetup) (userName token token' : String) : Prop where
  nonempty : token ≠ ""
  nonempty' : token' ≠ ""
  credentials : setup.credentials = .ofToken ⟨userName, token⟩
  credentials' : setup'.credentials = .ofToken ⟨userName, token'⟩
  draw : setup'.draw = setup.draw
  config : setup'.config = setup.config ∨
    setup.config.jwt = some token ∧ setup'.config = { setup.config with jwt := some token' }

end ClientSetup

theorem TokenAuth.headers_of_ne (userName : String) {token : String} (h : token ≠ "") :
    headers ⟨userName, token⟩ = .ok
      ((if userName.isEmpty then [] else [(userNameHeader, userName)]) ++
        [(userTokenHeader, token)]) := by
  rw [headers, if_neg]
  rwa [String.isEmpty_iff]

/-- With their tokens blanked, the headers of two tokens are the same. -/
theorem TokenAuth.blanked_headers (userName : String) {token token' : String} (h : token ≠ "")
    (h' : token' ≠ "") : (TokenAuth.headers ⟨userName, token'⟩).map (List.map blankToken) =
      (TokenAuth.headers ⟨userName, token⟩).map (List.map blankToken) := by
  rw [headers_of_ne userName h, headers_of_ne userName h']
  simp only [Except.map, List.map_append, List.map_cons, List.map_nil, blankToken, if_true]

namespace ClientSetup

variable {setup setup' : ClientSetup} {userName token token' : String}

theorem DifferInToken.resembles (h : DifferInToken setup setup' userName token token') :
    setup.Resembles setup' := by
  have hconfig : setup'.config = { setup.config with jwt := setup'.config.jwt } := by
    obtain hsame | ⟨-, hjwt⟩ := h.config
    · rw [hsame]
    · rw [hjwt]
  refine ⟨hconfig, ?_, ?_, fun n => ?_⟩
  · rw [callPolicy, callPolicy, hconfig, h.draw]
  · rw [callPolicy, callPolicy, h.credentials, h.credentials']
    rfl
  · rw [callPolicy, callPolicy, h.credentials, h.credentials']
    exact TokenAuth.blanked_headers userName h.nonempty h.nonempty'

theorem DifferInToken.describe_config (h : DifferInToken setup setup' userName token token') :
    setup'.config.describe = setup.config.describe := by
  obtain hsame | ⟨hjwt, hjwt'⟩ := h.config
  · rw [hsame]
  · rw [hjwt', ClientConfig.describe, ClientConfig.describe, hjwt]
    rfl

theorem differInToken_ofConfig (config : ClientConfig) (h : token ≠ "") (h' : token' ≠ "") :
    DifferInToken (ofConfig { config with jwt := some token })
      (ofConfig { config with jwt := some token' }) (config.userName.getD "") token token' where
  nonempty := h
  nonempty' := h'
  credentials := rfl
  credentials' := rfl
  draw := rfl
  config := Or.inr ⟨rfl, rfl⟩

/-- The token only travels in its header. Two clients that differ in nothing but their tokens, neither of
    them empty, connect with the same result. Whatever happens to them after that, in any order, they do
    the same, report the same, and get to states that differ in nothing but the values of that header on
    the record of requests, so that the instants, the answers that the server has left, the breakers and
    the sessions are the same. What happens is the same too, if a server and callers that do not see
    tokens choose it as they go. Likewise for commands and renegotiations on one clock, for the events
    of watches and when they are received, and for whether a watch starts. Configuration and credentials
    look the same in a log. -/
theorem token_only_in_header (h : DifferInToken setup setup' userName token token') :
    (∀ (hub hub' : Hub), Alike hub hub' →
      (∀ fuel context,
        (setup'.connect fuel context hub').1 = (setup.connect fuel context hub).1 ∧
        Alike (setup.connect fuel context hub).2 (setup'.connect fuel context hub').2) ∧
      ∀ current,
        (∀ events,
          let t := Traffic.after setup { client := ⟨hub, current⟩ } events
          let t' := Traffic.after setup' { client := ⟨hub', current⟩ } events
          t'.activities = t.activities ∧ t'.ledger = t.ledger ∧ Alike t.client t'.client) ∧
        (∀ (surroundings : Traffic.Surroundings) n,
          surroundings.events setup' { client := ⟨hub', current⟩ } n =
            surroundings.events setup { client := ⟨hub, current⟩ } n) ∧
        ∀ n tasks,
          let r := (Task.machine setup).run n tasks ⟨hub, current⟩
          let r' := (Task.machine setup').run n tasks ⟨hub', current⟩
          r'.1 = r.1 ∧ Alike r.2 r'.2) ∧
    (∀ (α : Type) (link link' : Link), Alike link link' →
      (∀ context session (subject : Subject α) settings,
        (Watch.start context session subject settings link').map Prod.fst =
          (Watch.start context session subject settings link).map Prod.fst) ∧
      ∀ n (receivers : List (Receiver α)),
        let r := (Receiver.machine setup.callPolicy).run n receivers link
        let r' := (Receiver.machine setup'.callPolicy).run n receivers link'
        r'.1 = r.1 ∧ Alike r.2 r'.2) ∧
    setup'.config.describe = setup.config.describe ∧
    TokenAuth.describe ⟨userName, token'⟩ = TokenAuth.describe ⟨userName, token⟩ := by
  have hs := h.resembles
  refine ⟨fun hub hub' hh => ⟨fun fuel context => connect_alike hs fuel context hh,
    fun current => ?_⟩,
    fun α link link' hl => ⟨fun context session subject settings => ?_, fun n receivers => ?_⟩,
    h.describe_config, rfl⟩
  · have halike : Traffic.Resembles { client := ⟨hub, current⟩ } { client := ⟨hub', current⟩ } :=
      ⟨alike_client current hh, rfl, rfl⟩
    refine ⟨fun events => ?_, halike.events_eq hs, fun n tasks => ?_⟩
    · obtain ⟨hclient, hactivities, hledger⟩ := halike.after hs events
      exact ⟨hactivities, hledger, hclient⟩
    · exact (Task.agrees hs).run n tasks (alike_client current hh)
  · obtain ⟨e, he, he'⟩ | ⟨w, l, l', hw, hw', -⟩ :=
      Watch.start_agree hl context session subject settings
    · rw [he, he']
    · rw [hw, hw']
      rfl
  · exact (Receiver.agrees hs.calls).run n receivers hl

end ClientSetup

/-- A configuration of some user with the given token. -/
def rootConfig (token : String) : ClientConfig :=
  { baseUrl := "http://slurm.test", userName := some "root", jwt := some token }

/-- The headers on record once a client with that token has connected. -/
def headersOnRecord (token : String) : List (List Header) :=
  ((ClientSetup.ofConfig (rootConfig token)).connect 20 { token := 0 }
    { link := { server := Lobby.openServer } }).2.link.sent.map fun s => s.request.headers

/-- The token is sent, and it is all that differs. -/
theorem token_only_in_header_root :
    ClientSetup.DifferInToken (.ofConfig (rootConfig "alpha")) (.ofConfig (rootConfig "beta"))
      "root" "alpha" "beta" ∧
    headersOnRecord "alpha" = [[(userNameHeader, "root"), (userTokenHeader, "alpha")]] ∧
    headersOnRecord "beta" = [[(userNameHeader, "root"), (userTokenHeader, "beta")]] ∧
    Alike
      ((ClientSetup.ofConfig (rootConfig "alpha")).connect 20 { token := 0 }
        { link := { server := Lobby.openServer } }).2
      ((ClientSetup.ofConfig (rootConfig "beta")).connect 20 { token := 0 }
        { link := { server := Lobby.openServer } }).2 := by
  have hdiffer := ClientSetup.differInToken_ofConfig (rootConfig "") (by decide : "alpha" ≠ "")
    (by decide : "beta" ≠ "")
  have hsame : Alike ({ link := { server := Lobby.openServer } } : Hub)
      { link := { server := Lobby.openServer } } := ⟨_, rfl, rfl⟩
  have hruns := (ClientSetup.token_only_in_header hdiffer).1 _ _ hsame
  exact ⟨hdiffer, by decide +kernel, by decide +kernel, (hruns.1 20 { token := 0 }).2⟩

end SlurmLink
