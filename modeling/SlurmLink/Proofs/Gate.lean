import SlurmLink.Proofs.Traffic
import SlurmLink.Proofs.Watch

/-!
What is refused without the server, in the midst of everything else that a client does. A command that
the revision does not offer, or whose argument is not sound, is over with its second step, and neither
step touches what the activities share (`Refuses`). All else that is sent for commands and watches has
passed the gate: an activity that sends is lawful (`Activity.Lawful`), and stays so with every event.
-/

namespace SlurmLink

namespace Activity

/-- What an activity asks the server for, and in which session: a command, or a watch's listing. -/
def order? : Activity → Option (Session × Command)
  | .task (.errand e) => some (e.session, e.command)
  | .watch w => some (w.session, w.subject.command)
  | _ => none

/-- The outcome of a command, once there is one. -/
def outcome? : Activity → Option (Except Error Answer)
  | .task (.errand e) => e.outcome?
  | _ => none

/-- A command or a watch that got as far as it may. -/
def Lawful : Activity → Prop
  | .task (.errand e) => e.Lawful
  | .watch w => w.Lawful
  | _ => True

variable {setup : ClientSetup} {x x' : Activity} {c c' : Client}

theorem Lawful.step (h : x.Lawful) (hs : x.step setup c = some (x', c')) : x'.Lawful := by
  cases x with
  | connecting a =>
    obtain ⟨r, -, he⟩ := Option.map_eq_some_iff.mp hs
    cases he
    exact True.intro
  | watch w =>
    obtain ⟨r, hr, he⟩ := Option.map_eq_some_iff.mp hs
    cases he
    exact Watch.Lawful.goes h (Watch.goes_of_step hr)
  | task t =>
    obtain ⟨r, hr, he⟩ := Option.map_eq_some_iff.mp hs
    cases he
    cases t with
    | command context held order =>
      cases hr
      exact Errand.lawful_starting context (held.getD c.current) order
    | errand e =>
      obtain ⟨y, hy, he⟩ := Option.map_eq_some_iff.mp hr
      cases he
      exact Errand.Lawful.goes h (Errand.goes_of_step hy)
    | renewal r =>
      obtain ⟨y, -, he⟩ := Option.map_eq_some_iff.mp hr
      cases he
      exact True.intro

/-- What a command or a watch sends is a request that has passed the gate, with some more headers. -/
theorem Lawful.sends (h : x.Lawful) (hs : x.step setup c = some (x', c')) {s : Session}
    {command : Command} (ho : x.order? = some (s, command))
    (hsent : c'.hub.link.sent ≠ c.hub.link.sent) :
    command.Passes s ∧ ∃ request headers, command.prepare s = .ok (some request) ∧
      c'.hub.link.sent = c.hub.link.sent ++
        [⟨c.hub.link.now, { request with headers := request.headers ++ headers }⟩] := by
  cases x with
  | connecting a => cases ho
  | watch w =>
    obtain ⟨r, hr, he⟩ := Option.map_eq_some_iff.mp hs
    cases he
    cases ho
    exact Watch.Lawful.sends h (Watch.goes_of_step hr) hsent
  | task t =>
    cases t with
    | command context held order => cases ho
    | renewal r => cases ho
    | errand e =>
      obtain ⟨r, hr, he⟩ := Option.map_eq_some_iff.mp hs
      cases he
      obtain ⟨y, hy, he⟩ := Option.map_eq_some_iff.mp hr
      cases he
      cases ho
      exact Errand.Lawful.sends h (Errand.goes_of_step hy) hsent

/-- What sends something and is no negotiation has an order, and if it is a watch, it is offered. -/
theorem Lawful.order_of_sends (h : x.Lawful) (hs : x.step setup c = some (x', c'))
    (hsent : c'.hub.link.sent ≠ c.hub.link.sent) :
    (∃ a, x = .connecting a) ∨ (∃ r, x = .task (.renewal r)) ∨
      ∃ s command, x.order? = some (s, command) ∧ ∀ (α : Type) (w : Watch α), x = .watch w →
        s.revision.supports ⟨w.subject.resource, .watch⟩ = true := by
  cases x with
  | connecting a => exact Or.inl ⟨a, rfl⟩
  | watch w =>
    have hsupported := Watch.Lawful.supported h
    exact Or.inr (Or.inr ⟨_, _, rfl, fun β v hv => by cases hv; exact hsupported⟩)
  | task k =>
    cases k with
    | renewal r => exact Or.inr (Or.inl ⟨r, rfl⟩)
    | command context held command =>
      simp only [Activity.step, Task.step, Option.map_some, Option.some.injEq, Prod.mk.injEq] at hs
      rw [← hs.2] at hsent
      exact absurd rfl hsent
    | errand e => exact Or.inr (Or.inr ⟨_, _, rfl, fun β v hv => by cases hv⟩)

end Activity

namespace Traffic

variable {setup : ClientSetup} {t : Traffic} {holder : Nat}

/-- The outcome of the command with the given number, once there is one. -/
def outcome? (t : Traffic) (holder : Nat) : Option (Except Error Answer) :=
  t.activities[holder]?.bind Activity.outcome?

/-! ### What is sent -/

theorem lawful_receive {x : Activity} (h : x.Lawful) : x.receive.Lawful := by
  cases x with
  | watch w =>
    simp only [Activity.receive, Watch.receive]
    cases w.buffer with
    | nil => exact h
    | cons e rest => exact ⟨h.supported, h.listing⟩
  | _ => exact h

theorem lawful_hangUp {x : Activity} (h : x.Lawful) : x.hangUp.Lawful := by
  cases x with
  | watch w => exact ⟨h.supported, h.listing⟩
  | _ => exact h

theorem lawful_step (h : ∀ x ∈ t.activities, x.Lawful) (e : TrafficEvent) :
    ∀ x ∈ (t.step setup e).activities, x.Lawful := by
  refine forall_step h (fun x hbegins => ?_) fun x x' hlawful hbecomes => ?_
  · cases hbegins with
    | watch hw => exact Watch.lawful_start hw
    | _ => exact True.intro
  · cases hbecomes with
    | stays => exact hlawful
    | steps hs => exact hlawful.step hs
    | receives => exact lawful_receive hlawful
    | hangsUp => exact lawful_hangUp hlawful

theorem lawful_after (setup : ClientSetup) : ∀ (events : List TrafficEvent) (t : Traffic),
    (∀ x ∈ t.activities, x.Lawful) → ∀ x ∈ (t.after setup events).activities, x.Lawful
  | [], _, h => h
  | e :: events, t, h => by
    rw [after_cons]
    exact lawful_after setup events _ (lawful_step h e)

/-- Nothing is sent except by the step of an activity. -/
theorem exists_sender {e : TrafficEvent} (h : (t.step setup e).link.sent ≠ t.link.sent) :
    ∃ holder x x' c', e = .advance holder ∧ t.activities[holder]? = some x ∧
      x.step setup t.client = some (x', c') ∧ (t.step setup e).link = c'.hub.link := by
  cases e with
  | advance holder =>
    rw [step] at h
    cases hx : t.activities[holder]? with
    | none => rw [hx] at h; exact absurd rfl h
    | some x =>
      rw [hx] at h
      cases hs : x.step setup t.client with
      | none => simp only [hs] at h; exact absurd rfl h
      | some r => exact ⟨holder, x, r.1, r.2, rfl, hx, hs, by simp only [step, hx, hs]; rfl⟩
  | watch context session subject settings =>
    rw [step] at h
    cases hw : Watch.start context session subject settings t.link with
    | error f => rw [hw] at h; exact absurd rfl h
    | ok r =>
      rw [hw] at h
      refine absurd ?_ h
      cases hs : session.revision.supports ⟨subject.resource, .watch⟩ with
      | false => rw [Watch.start_unsupported t.link context settings hs] at hw; cases hw
      | true =>
        obtain ⟨w, l, hstart, -, -, -, -, hsent⟩ :=
          Watch.exists_start t.link context settings hs
        rw [hstart] at hw
        cases hw
        exact hsent
  | outside e => cases e <;> exact absurd rfl h
  | _ => exact absurd rfl h

/-! ### What is refused -/

/-- Only its own steps change a task. -/
theorem task_step {k : Task} (hx : t.activities[holder]? = some (.task k)) {e : TrafficEvent}
    (he : e ≠ .advance holder) : (t.step setup e).activities[holder]? = some (.task k) := by
  have hlt : holder < t.activities.length := (List.getElem?_eq_some_iff.mp hx).1
  have hjoin : ∀ y : Activity, (t.activities ++ [y])[holder]? = some (.task k) := by
    intro y
    rw [List.getElem?_append_left hlt, hx]
  have hmodify : ∀ (f : Activity → Activity) (i : Nat), f (.task k) = .task k →
      (t.activities.modify i f)[holder]? = some (.task k) := by
    intro f i hf
    rw [List.getElem?_modify, hx]
    split
    · exact congrArg some hf
    · rfl
  cases e with
  | connect context => exact hjoin _
  | order context held command => exact hjoin _
  | renew context => exact hjoin _
  | watch context session subject settings =>
    rw [step]
    cases Watch.start context session subject settings t.link with
    | error f => exact hx
    | ok r => exact hjoin _
  | advance i =>
    have hne : i ≠ holder := fun h => he (by rw [h])
    rw [step]
    cases hi : t.activities[i]? with
    | none => exact hx
    | some x =>
      cases hs : x.step setup t.client with
      | none => simpa only [hs] using hx
      | some r => simp only [hs, List.getElem?_set_ne hne, hx]
  | receive i => exact hmodify _ _ rfl
  | hangUp i => exact hmodify _ _ rfl
  | outside e => exact hx
  | close => exact hx

/-- The step of an errand that goes on without the link leaves the client as it is. -/
theorem errand_step {e e' : Errand} (hx : t.activities[holder]? = some (.task (.errand e)))
    (hs : e.step setup.callPolicy t.link = some (e', t.link)) :
    (t.step setup (.advance holder)).activities[holder]? = some (.task (.errand e')) ∧
      (t.step setup (.advance holder)).client = t.client := by
  have hlt : holder < t.activities.length := (List.getElem?_eq_some_iff.mp hx).1
  have hstep : Activity.step setup (.task (.errand e)) t.client =
      some (.task (.errand e'), t.client) := by
    have : e.step setup.callPolicy t.client.hub.link = some (e', t.client.hub.link) := hs
    simp only [Activity.step, Task.step, this, Option.map_some]
  refine ⟨?_, by simp only [step, hx, hstep]⟩
  simp only [step, hx, hstep, List.getElem?_set_self hlt]

/-- An errand that is over stays as it is. -/
theorem over_after {e : Errand} (ho : e.outcome? ≠ none) : ∀ (events : List TrafficEvent)
    (t : Traffic), t.activities[holder]? = some (.task (.errand e)) →
      (t.after setup events).activities[holder]? = some (.task (.errand e))
  | [], _, hx => hx
  | event :: events, t, hx => by
    rw [after_cons]
    refine over_after ho events _ ?_
    by_cases he : event = .advance holder
    · have hnone : Activity.step setup (.task (.errand e)) t.client = none := by
        simp only [Activity.step, Task.step, Errand.step_of_finished ho, Option.map_none]
      subst he
      simp only [step, hx, hnone]
    · exact task_step hx he

/-- The command with the given number is refused: its steps leave the client as it is, whatever goes on
    around them, and after the first one it is over, with this error. -/
def Refuses (setup : ClientSetup) (t : Traffic) (holder : Nat) (f : Error) : Prop :=
  ∀ events : List TrafficEvent,
    ((t.after setup events).step setup (.advance holder)).client = (t.after setup events).client ∧
    (.advance holder ∈ events → (t.after setup events).outcome? holder = some (.error f))

/-- An errand that does not pass the gate waits for its first step, or is over. -/
theorem refused_after (setup : ClientSetup) {e : Errand} {f : Error} (hp : e.phase = .starting)
    (hf : e.command.prepare e.session = .error f) : ∀ (events : List TrafficEvent) (t : Traffic),
    t.activities[holder]? = some (.task (.errand e)) →
      .advance holder ∉ events ∧
        (t.after setup events).activities[holder]? = some (.task (.errand e)) ∨
      .advance holder ∈ events ∧ (t.after setup events).activities[holder]? =
        some (.task (.errand { e with phase := .finished (.error f) }))
  | [], t, hx => Or.inl ⟨List.not_mem_nil, hx⟩
  | event :: events, t, hx => by
    rw [after_cons]
    by_cases he : event = .advance holder
    · subst he
      have hstart : e.step setup.callPolicy t.link = some (e.start, t.link) := by
        simp only [Errand.step, hp]
      have hnext := (errand_step hx hstart).1
      rw [Errand.start_of_prepare hf] at hnext
      exact Or.inr ⟨List.mem_cons_self, over_after (fun h => by cases h) events _ hnext⟩
    · rcases refused_after setup hp hf events _ (task_step hx he) with ⟨hnot, hstay⟩ | ⟨hmem, hend⟩
      · exact Or.inl ⟨fun h => (List.mem_cons.mp h).elim (fun h => he h.symm) hnot, hstay⟩
      · exact Or.inr ⟨List.mem_cons_of_mem _ hmem, hend⟩

theorem refuses_of_prepare {e : Errand} {f : Error} (hp : e.phase = .starting)
    (hf : e.command.prepare e.session = .error f)
    (hx : t.activities[holder]? = some (.task (.errand e))) : t.Refuses setup holder f := by
  intro events
  rcases refused_after setup hp hf events t hx with ⟨hnot, hstay⟩ | ⟨-, hend⟩
  · have hstart : e.step setup.callPolicy (t.after setup events).link =
        some (e.start, (t.after setup events).link) := by simp only [Errand.step, hp]
    exact ⟨(errand_step hstay hstart).2, fun hmem => absurd hmem hnot⟩
  · refine ⟨?_, fun _ => by simp only [outcome?, hend, Option.bind_some]; rfl⟩
    have hnone : Activity.step setup
        (.task (.errand { e with phase := .finished (.error f) })) (t.after setup events).client =
        none := rfl
    simp only [step, hend, hnone]

/-- An errand stays one for the same command in the same session, and lawful. -/
theorem errand_after (setup : ClientSetup) : ∀ (events : List TrafficEvent) (t : Traffic) (e : Errand),
    t.activities[holder]? = some (.task (.errand e)) → e.Lawful →
      ∃ e', (t.after setup events).activities[holder]? = some (.task (.errand e')) ∧
        e'.session = e.session ∧ e'.command = e.command ∧ e'.Lawful
  | [], _, e, hx, hl => ⟨e, hx, rfl, rfl, hl⟩
  | event :: events, t, e, hx, hl => by
    rw [after_cons]
    by_cases he : event = .advance holder
    · subst he
      cases hs : Errand.step setup.callPolicy e t.link with
      | none =>
        refine errand_after setup events _ e ?_ hl
        have hs' : e.step setup.callPolicy t.client.hub.link = none := hs
        simp only [step, hx, Activity.step, Task.step, hs', Option.map_none]
      | some r =>
        have hs' : e.step setup.callPolicy t.client.hub.link = some r := hs
        have hgoes := Errand.goes_of_step hs
        have hnext : (t.step setup (.advance holder)).activities[holder]? =
            some (.task (.errand r.1)) := by
          simp only [step, hx, Activity.step, Task.step, hs', Option.map_some]
          exact List.getElem?_set_self (List.getElem?_eq_some_iff.mp hx).1
        obtain ⟨e', hx', hsession, hcommand, hl'⟩ :=
          errand_after setup events _ r.1 hnext (hl.goes hgoes)
        rw [hgoes.eq_with_phase] at hsession hcommand
        exact ⟨e', hx', hsession, hcommand, hl'⟩
    · exact errand_after setup events _ e (task_step hx he) hl

/-- Refusals are local. Whatever has happened at a client so far, a command takes its first step in the
    session that it is held to or that is current. If the revision does not offer it, it ends as not
    implemented; if the revision does and the check of the argument fails, it ends as rejected, for the
    reason that the check gives; in neither case does it change anything that the client shares, be it
    the record of requests, a breaker or the clock, whatever goes on at the same time and whatever has
    become of its context. A command that the revision offers never ends as not implemented. A watch
    begins just when the revision offers it, and else nothing changes. And whatever is sent is sent in a
    negotiation, or for a command or a watch's listing that has passed the gate, with the request
    that was made of the checked argument. -/
theorem refusals_local (setup : ClientSetup) (client : Client) (past : List TrafficEvent) :
    let t := after setup { client } past
    (∀ holder context held command,
      t.activities[holder]? = some (.task (.command context held command)) →
      let s := held.getD t.client.current
      let t₁ := t.step setup (.advance holder)
      t₁.client = t.client ∧
      (s.revision.supports command.operation = false →
        t₁.Refuses setup holder (.notImplemented command.operation s.apiVersion)) ∧
      (s.revision.supports command.operation = true →
        (∀ r, command.check s.revision = .error r →
          t₁.Refuses setup holder (s.fail (.rejected r)) ∧
          (s.fail (.rejected r)).kind = .validation) ∧
        ∀ events f, (t₁.after setup events).outcome? holder = some (.error f) →
          f.kind ≠ .notImplemented)) ∧
    (∀ (α : Type) (context : Context) (session : Session) (subject : Subject α)
        (settings : WatchSettings),
      (session.revision.supports ⟨subject.resource, .watch⟩ = false →
        Watch.start context session subject settings t.link =
          .error (.notImplemented ⟨subject.resource, .watch⟩ session.apiVersion) ∧
        t.step setup (.watch context session subject settings) = t) ∧
      (session.revision.supports ⟨subject.resource, .watch⟩ = true →
        ∃ w l, Watch.start context session subject settings t.link = .ok (w, l) ∧
          l.sent = t.link.sent ∧ l.breakers = t.link.breakers)) ∧
    ∀ e, (t.step setup e).link.sent ≠ t.link.sent →
      ∃ holder x, e = .advance holder ∧ t.activities[holder]? = some x ∧
        ((∃ a, x = .connecting a) ∨ (∃ r, x = .task (.renewal r)) ∨
          ∃ s command, x.order? = some (s, command) ∧
            s.revision.supports command.operation = true ∧
            command.check s.revision = .ok () ∧
            (∀ (α : Type) (w : Watch α), x = .watch w →
              s.revision.supports ⟨w.subject.resource, .watch⟩ = true) ∧
            ∃ request headers, command.prepare s = .ok (some request) ∧
              (t.step setup e).link.sent = t.link.sent ++
                [⟨t.link.now, { request with headers := request.headers ++ headers }⟩]) := by
  intro t
  refine ⟨fun holder context held command hx => ?_, fun α context session subject settings => ?_,
    fun e hsent => ?_⟩
  · intro s t₁
    have hlt : holder < t.activities.length := (List.getElem?_eq_some_iff.mp hx).1
    have hx₁ : t₁.activities[holder]? = some (.task (.errand { context, session := s, command })) := by
      simp only [t₁, step, hx, Activity.step, Task.step, Option.map_some]
      exact List.getElem?_set_self hlt
    have hc₁ : t₁.client = t.client := by
      simp only [t₁, step, hx, Activity.step, Task.step, Option.map_some]
    refine ⟨hc₁, fun hs => ?_, fun hs => ⟨fun r hr => ⟨?_, rfl⟩, fun events f hf hk => ?_⟩⟩
    · exact refuses_of_prepare rfl (Command.prepare_unsupported hs) hx₁
    · exact refuses_of_prepare rfl (Command.prepare_rejected hs hr) hx₁
    · obtain ⟨e', hx', hsession, hcommand, hlawful⟩ :=
        errand_after setup events t₁ _ hx₁ (Errand.lawful_starting context s command)
      simp only [outcome?, hx', Option.bind_some, Activity.outcome?] at hf
      have hnot := hlawful.supports_of_outcome? hf hk
      rw [hsession, hcommand] at hnot
      exact absurd (hs.symm.trans hnot) (by decide)
  · refine ⟨fun hs => ?_, fun hs => ?_⟩
    · have hstart := Watch.start_unsupported t.link context settings hs
      exact ⟨hstart, by simp only [step, hstart]⟩
    · obtain ⟨w, l, hstart, -, -, -, hb, hsame⟩ :=
        Watch.exists_start t.link context settings hs
      exact ⟨w, l, hstart, hsame, hb⟩
  · obtain ⟨holder, x, x', c', he, hx, hs, hlink⟩ := exists_sender hsent
    have hlawful : x.Lawful :=
      lawful_after setup past { client } (fun y hy => by cases hy) x (List.mem_of_getElem? hx)
    refine ⟨holder, x, he, hx, ?_⟩
    rw [hlink] at hsent ⊢
    obtain h | h | ⟨s, command, ho, hwatch⟩ := hlawful.order_of_sends hs hsent
    · exact Or.inl h
    · exact Or.inr (Or.inl h)
    · obtain ⟨⟨hoffer, hcheck⟩, request, headers, hprepare, hmore⟩ := hlawful.sends hs ho hsent
      exact Or.inr (Or.inr ⟨s, command, ho, hoffer, hcheck, hwatch, request, headers, hprepare, hmore⟩)

/-- A context is cancelled, and then two commands are given under it: one that no revision before the
    fourth offers, and a submission with a flag that the third no longer takes. -/
def lateOrders : List TrafficEvent :=
  [.outside .newContext, .outside (.cancel ⟨0, none⟩), .order ⟨0, none⟩ none (.deleteQos "normal"),
    .order ⟨0, none⟩ none
      (.submitJob { name := "sim", script := "#!/bin/sh", exclusive := some true })]

/-- Both are refused for what they are, and not as cancelled. -/
theorem refusals_local_late :
    let t := after touchySetup { client := touchyClient } lateOrders
    t.link.tokens.isCancelled 0 = true ∧
    (t.step touchySetup (.advance 0)).Refuses touchySetup 0
      (.notImplemented ⟨.qos, .delete⟩ (.ofPatch 42)) ∧
    (t.step touchySetup (.advance 1)).Refuses touchySetup 1
      (.api "http://slurm.test" (some (.ofPatch 42)) (.rejected (.exclusiveFlag (.ofPatch 42)))) := by
  obtain ⟨hcommands, -, -⟩ := refusals_local touchySetup touchyClient lateOrders
  obtain ⟨-, hunsupported, -⟩ := hcommands 0 ⟨0, none⟩ none _ rfl
  obtain ⟨-, -, hsupported⟩ := hcommands 1 ⟨0, none⟩ none _ rfl
  have hcheck : Command.check .v42
      (.submitJob { name := "sim", script := "#!/bin/sh", exclusive := some true }) =
      .error (.exclusiveFlag (.ofPatch 42)) := rfl
  exact ⟨by decide +kernel, hunsupported (by decide), ((hsupported (by decide)).1 _ hcheck).1⟩

end Traffic

end SlurmLink
