import SlurmLink.Proofs.Activity
import SlurmLink.Proofs.PermitBooks

/-!
All that goes on at one client, and what becomes of the permits. Connections, commands,
renegotiations and watches come and take their steps in any order, while contexts are cancelled, the
clock moves, the server changes its mind and receivers hang up. Every run keeps a ledger of the permits
(`Activity.note`), which can be posted event by event (`posts_step`) and as a whole (`posts_after`).

`permits_accounted` draws the conclusion: a permit is held, or has come back once, or was lost, and it
is lost exactly when a watch stops while the call of its listing holds it:

    advance i, the watch i must stop,          ledger: lost i a
    its call holds the permit a         ──▶    breaker: nothing

For a trial permit that means that the breaker refuses for good, and `permit_never_returned` is a run in
which that happens.
-/

namespace SlurmLink

namespace Call

/-- What a step means for the ledger, as seen from the call before and after it. -/
def note (holder : Nat) (l : Link) (c c' : Call) : List PermitEntry :=
  match c.admission?, c'.admission? with
  | none, some a => [.granted holder l.now c'.endpoint a]
  | some a, none =>
    match c'.outcome? with
    | some outcome => [.returned holder l.now a (verdict outcome)]
    | none => [.lost holder a]
  | _, _ => []

variable {p : CallPolicy} {c c' : Call} {l l' : Link} {b : PermitBooks} {i : Nat}

/-- A step of a call, as an entry. -/
theorem Goes.posted_note (h : Goes p c l c' l') (hbreakers : b.breakers = l.breakers)
    (hheld : b.held[i]? = some c.admission?) :
    (c.note i l c').foldlM (PermitBooks.post p.breaker) b =
      some ⟨l'.breakers, b.held.set i c'.admission?, b.lost⟩ ∧
    ∀ j a, .lost j a ∉ c.note i l c' := by
  cases h.permitUse with
  | keeps hh hb =>
    have hnote : c.note i l c' = [] := by
      rw [note, hh]
      cases c.admission? <;> rfl
    have hset : b.held.set i c'.admission? = b.held := by
      rw [hh]
      obtain ⟨hlt, hget⟩ := List.getElem?_eq_some_iff.mp hheld
      rw [← hget, List.set_getElem_self]
    rw [hnote, hset, hb, ← hbreakers]
    exact ⟨rfl, fun j a h => (by cases h)⟩
  | takes hn hh hb =>
    rename_i a
    have hend : c'.endpoint = c.endpoint := by rw [h.eq_with_phase]
    have hnote : c.note i l c' = [.granted i l.now c.endpoint a] := by
      simp only [note, hn, hh, hend]
    rw [hnote, hh]
    rw [hn] at hheld
    have hacq : b.breakers.acquire p.breaker l.now c.endpoint =
        (some (a.breaker, a.permit), l'.breakers) := by rw [hbreakers]; exact hb
    refine ⟨?_, fun j y h => (by cases List.mem_singleton.mp h)⟩
    simp only [List.foldlM_cons, List.foldlM_nil, PermitBooks.post, hheld, hacq, and_self, if_true]
    rfl
  | gives hh ho hb =>
    rename_i a outcome
    have hnone : c'.admission? = none := by rw [admission?, ho]
    have hout : c'.outcome? = some outcome := by rw [outcome?, ho]
    have hnote : c.note i l c' = [.returned i l.now a (verdict outcome)] := by
      simp only [note, hh, hnone, hout]
    rw [hnote, hnone]
    rw [hh] at hheld
    refine ⟨?_, fun j y h => (by cases List.mem_singleton.mp h)⟩
    simp only [List.foldlM_cons, List.foldlM_nil, PermitBooks.post, hheld, if_true, hbreakers, hb]
    rfl

end Call

namespace Activity

/-- What a step means for the ledger, as seen from the calls before and after it. -/
def note (holder : Nat) (l : Link) (x x' : Activity) : List PermitEntry :=
  match x.permit?, x'.permit? with
  | none, some a => [.granted holder l.now ((x'.call?.map Call.endpoint).getD "") a]
  | some a, none =>
    match x'.call?.bind Call.outcome? with
    | some outcome => [.returned holder l.now a (Call.verdict outcome)]
    | none => [.lost holder a]
  | _, _ => []

variable {setup : ClientSetup} {x x' : Activity} {c c' : Client} {b : PermitBooks} {i : Nat}

/-- A step of a call, as an entry. -/
theorem note_of_permitUse {u u' : Call} (hx : x.call? = some u) (hx' : x'.call? = some u')
    (hgoes : Call.Goes setup.callPolicy u c.hub.link u' c'.hub.link)
    (hbreakers : b.breakers = c.hub.link.breakers) (hheld : b.held[i]? = some x.permit?) :
    (x.note i c.hub.link x').foldlM (PermitBooks.post setup.config.breaker) b =
      some ⟨c'.hub.link.breakers, b.held.set i x'.permit?, b.lost⟩ ∧
    ∀ j a, .lost j a ∉ x.note i c.hub.link x' := by
  have hp : x.permit? = u.admission? := by rw [permit?, hx]; rfl
  have hp' : x'.permit? = u'.admission? := by rw [permit?, hx']; rfl
  have hnote : x.note i c.hub.link x' = u.note i c.hub.link u' := by
    simp only [note, Call.note, hp, hp', hx', Option.map_some, Option.getD_some, Option.bind_some]
  rw [hnote, hp']
  exact hgoes.posted_note hbreakers (hp ▸ hheld)

/-- The entries of a step can be posted, and they report a loss exactly when a watch abandons its
    call. -/
theorem posted_note (h : x.step setup c = some (x', c'))
    (hbreakers : b.breakers = c.hub.link.breakers) (hheld : b.held[i]? = some x.permit?) :
    (x.note i c.hub.link x').foldlM (PermitBooks.post setup.config.breaker) b =
      some ⟨c'.hub.link.breakers, b.held.set i x'.permit?,
        b.lost ++ (x.note i c.hub.link x').filterMap PermitEntry.lost?⟩ ∧
    ∀ j a, .lost j a ∈ x.note i c.hub.link x' ↔ j = i ∧ x.Abandons c.hub.link a := by
  by_cases habandon : ∃ a, x.Abandons c.hub.link a
  -- the call is gone, so nothing is left that could give the permit back
  · obtain ⟨a, ha⟩ := habandon
    obtain ⟨hp, x₁, hstep, hnone⟩ := ha.step_eq setup
    rw [h] at hstep; cases hstep
    have hp' : x'.permit? = none := by rw [permit?, hnone]; rfl
    have hnote : x.note i c.hub.link x' = [.lost i a] := by
      simp only [note, hp, hp', hnone, Option.bind_none]
    rw [hp] at hheld
    refine ⟨?_, fun j y => ?_⟩
    · rw [hnote, hp', ← hbreakers]
      simp only [List.foldlM_cons, List.foldlM_nil, PermitBooks.post, hheld, if_true]
      rfl
    · rw [hnote, List.mem_singleton]
      constructor
      · intro he; cases he; exact ⟨rfl, ha⟩
      · rintro ⟨rfl, hy⟩
        have := (hy.step_eq setup).1
        rw [hp] at this; cases this
        rfl
  · rcases step_cases h with habandon' | hthrough
    · exact absurd habandon' habandon
    · cases hthrough with
      | inside hx hx' hgoes =>
        obtain ⟨hpost, hnone⟩ := note_of_permitUse hx hx' hgoes hbreakers hheld
        have hlost : (x.note i c.hub.link x').filterMap PermitEntry.lost? = [] := by
          rw [List.filterMap_eq_nil_iff]
          intro e he
          cases e with
          | lost j a => exact absurd he (hnone j a)
          | _ => rfl
        rw [hlost, List.append_nil]
        exact ⟨hpost, fun j a => ⟨fun hl => absurd hl (hnone j a),
          fun ha => absurd ⟨a, ha.2⟩ habandon⟩⟩
      | outside hp hp' hb =>
        have hnote : x.note i c.hub.link x' = [] := by
          rw [note, permit?, permit?, hp, hp']
        have hset : b.held.set i x'.permit? = b.held := by
          obtain ⟨hlt, hget⟩ := List.getElem?_eq_some_iff.mp hheld
          have hsame : x'.permit? = x.permit? := by rw [permit?, permit?, hp, hp']
          rw [hsame, ← hget, List.set_getElem_self]
        rw [hnote, hset, hb, ← hbreakers]
        refine ⟨by simp, fun j a => ⟨fun hl => (by cases hl), fun ha => absurd ⟨a, ha.2⟩ habandon⟩⟩

end Activity

/-! ### Events -/

/-- What can happen to a link from outside. -/
inductive LinkEvent where
  | pass (duration : Nat)
  | cancel (context : Context)
  | cancelAfter (context : Context) (duration : Nat)
  | newContext
  | childContext (parent : Context)
  /-- The server has other answers ready. -/
  | serve (server : Server)

def LinkEvent.apply (l : Link) : LinkEvent → Link
  | .pass duration => l.pass duration
  | .cancel context => l.cancel context
  | .cancelAfter context duration => l.cancelAfter context duration
  | .newContext => l.newContext.2
  | .childContext parent => (l.childContext parent).2
  | .serve server => { l with server }

theorem LinkEvent.breakers_apply (l : Link) (e : LinkEvent) : (e.apply l).breakers = l.breakers := by
  cases e <;> rfl

/-- What can happen at a client. -/
inductive TrafficEvent : Type 1 where
  | connect (context : Context)
  | order (context : Context) (held : Option Session) (command : Command)
  | renew (context : Context)
  | watch {α : Type} (context : Context) (session : Session) (subject : Subject α)
      (settings : WatchSettings)
  /-- An activity makes one step, if it can. -/
  | advance (holder : Nat)
  /-- An event is received from a watch. -/
  | receive (holder : Nat)
  /-- Nobody receives from a watch any more. -/
  | hangUp (holder : Nat)
  | outside (e : LinkEvent)
  /-- The client is closed. -/
  | close

/-- A client and all that it does and did. -/
structure Traffic where
  client : Client
  activities : List Activity := []
  ledger : List PermitEntry := []

namespace Activity

/-- Receives the first event of a watch. -/
def receive : Activity → Activity
  | .watch w => .watch ((w.receive.map Prod.snd).getD w)
  | x => x

/-- Stops receiving from a watch. -/
def hangUp : Activity → Activity
  | .watch w => .watch w.close
  | x => x

theorem permit?_receive (x : Activity) : x.receive.permit? = x.permit? := by
  cases x with
  | watch w =>
    simp only [receive, Watch.receive]
    cases w.buffer <;> rfl
  | _ => rfl

theorem permit?_hangUp (x : Activity) : x.hangUp.permit? = x.permit? := by
  cases x <;> rfl

end Activity

namespace Traffic

def link (t : Traffic) : Link := t.client.hub.link

/-- Something new begins. -/
def join (t : Traffic) (x : Activity) : Traffic :=
  { t with activities := t.activities ++ [x], ledger := t.ledger ++ [.joined] }

/-- One event. -/
def step (setup : ClientSetup) (t : Traffic) : TrafficEvent → Traffic
  | .connect context => t.join (.connecting (setup.connection context))
  | .order context held command => t.join (.task (.command context held command))
  | .renew context => t.join (.task (.renewal { context }))
  | .watch context session subject settings =>
    match Watch.start context session subject settings t.link with
    | .error _ => t
    | .ok (w, link) =>
      { t with client := HasLink.onLink (fun _ => link) t.client }.join (.watch w)
  | .advance holder =>
    match t.activities[holder]? with
    | none => t
    | some x =>
      match x.step setup t.client with
      | none => t
      | some (x', client) =>
        { client
          activities := t.activities.set holder x'
          ledger := t.ledger ++ x.note holder t.link x' }
  | .receive holder => { t with activities := t.activities.modify holder Activity.receive }
  | .hangUp holder => { t with activities := t.activities.modify holder Activity.hangUp }
  | .outside e => { t with client := HasLink.onLink e.apply t.client }
  | .close => { t with client := t.client.close, ledger := t.ledger ++ [.cleared] }

/-- What comes of a list of events. -/
def after (setup : ClientSetup) (t : Traffic) (events : List TrafficEvent) : Traffic :=
  events.foldl (step setup) t

end Traffic

/-- What begins with an event. -/
inductive TrafficEvent.Begins (setup : ClientSetup) (l : Link) : TrafficEvent → Activity → Prop where
  | connect (context : Context) :
      Begins setup l (.connect context) (.connecting (setup.connection context))
  | order (context : Context) (held : Option Session) (command : Command) :
      Begins setup l (.order context held command) (.task (.command context held command))
  | renew (context : Context) : Begins setup l (.renew context) (.task (.renewal { context }))
  | watch {α : Type} {context : Context} {session : Session} {subject : Subject α}
      {settings : WatchSettings} {w : Watch α} {l' : Link}
      (h : Watch.start context session subject settings l = .ok (w, l')) :
      Begins setup l (.watch context session subject settings) (.watch w)

/-- What can become of an activity with an event. -/
inductive Activity.Becomes (setup : ClientSetup) (c : Client) (x : Activity) : Activity → Prop where
  | stays : Becomes setup c x x
  | steps {x' : Activity} {c' : Client} (hs : x.step setup c = some (x', c')) :
      Becomes setup c x x'
  | receives : Becomes setup c x x.receive
  | hangsUp : Becomes setup c x x.hangUp

namespace Traffic

/-- Whatever there is after an event was there before, or begins with it. -/
theorem activity_step {setup : ClientSetup} {t : Traffic} {e : TrafficEvent} {i : Nat} {x' : Activity}
    (hx : (t.step setup e).activities[i]? = some x') :
    (∃ x, t.activities[i]? = some x ∧ x.Becomes setup t.client x') ∨
      i = t.activities.length ∧ e.Begins setup t.link x' := by
  have hjoin : ∀ {y : Activity}, (t.activities ++ [y])[i]? = some x' → e.Begins setup t.link y →
      (∃ x, t.activities[i]? = some x ∧ x.Becomes setup t.client x') ∨
        i = t.activities.length ∧ e.Begins setup t.link x' := by
    intro y hy hbegins
    rcases Nat.lt_or_ge i t.activities.length with hlt | hge
    · rw [List.getElem?_append_left hlt] at hy
      exact Or.inl ⟨x', hy, .stays⟩
    · rw [List.getElem?_append_right hge, List.getElem?_singleton] at hy
      split at hy
      · cases hy
        exact Or.inr ⟨by omega, hbegins⟩
      · cases hy
  have hmodify : ∀ (f : Activity → Activity) (j : Nat),
      (∀ x : Activity, x.Becomes setup t.client (f x)) → (t.activities.modify j f)[i]? = some x' →
        ∃ x, t.activities[i]? = some x ∧ x.Becomes setup t.client x' := by
    intro f j hf hy
    rw [List.getElem?_modify] at hy
    obtain ⟨y, hi, he⟩ := Option.map_eq_some_iff.mp hy
    refine ⟨y, hi, ?_⟩
    rw [← he]
    split
    · exact hf y
    · exact .stays
  cases e with
  | connect context => exact hjoin hx (.connect context)
  | order context held command => exact hjoin hx (.order context held command)
  | renew context => exact hjoin hx (.renew context)
  | watch context session subject settings =>
    rw [step] at hx
    cases hw : Watch.start context session subject settings t.link with
    | error f => rw [hw] at hx; exact Or.inl ⟨x', hx, .stays⟩
    | ok r => rw [hw] at hx; exact hjoin hx (.watch hw)
  | advance j =>
    rw [step] at hx
    cases hj : t.activities[j]? with
    | none => rw [hj] at hx; exact Or.inl ⟨x', hx, .stays⟩
    | some x =>
      rw [hj] at hx
      cases hs : x.step setup t.client with
      | none => simp only [hs] at hx; exact Or.inl ⟨x', hx, .stays⟩
      | some r =>
        simp only [hs, List.getElem?_set] at hx
        split at hx
        · next he =>
          split at hx
          · cases hx
            exact Or.inl ⟨x, he ▸ hj, .steps hs⟩
          · cases hx
        · exact Or.inl ⟨x', hx, .stays⟩
  | receive j => exact Or.inl (hmodify _ j (fun _ => .receives) hx)
  | hangUp j => exact Or.inl (hmodify _ j (fun _ => .hangsUp) hx)
  | outside e => exact Or.inl ⟨x', hx, .stays⟩
  | close => exact Or.inl ⟨x', hx, .stays⟩

/-- What is so of all that begins, and stays so with all that it can become, is so of everything. -/
theorem forall_step {setup : ClientSetup} {t : Traffic} {e : TrafficEvent} {P : Activity → Prop}
    (h : ∀ x ∈ t.activities, P x) (hnew : ∀ x, e.Begins setup t.link x → P x)
    (hkeep : ∀ x x', P x → x.Becomes setup t.client x' → P x') :
    ∀ x ∈ (t.step setup e).activities, P x := by
  intro x' hx'
  obtain ⟨i, hi⟩ := List.mem_iff_getElem?.mp hx'
  rcases activity_step hi with ⟨x, hx, hbecomes⟩ | ⟨-, hbegins⟩
  · exact hkeep x x' (h x (List.mem_of_getElem? hx)) hbecomes
  · exact hnew x' hbegins

/-- Nothing that has begun goes away. -/
theorem exists_activity_step (setup : ClientSetup) {t : Traffic} {i : Nat} {x : Activity}
    (hx : t.activities[i]? = some x) (e : TrafficEvent) :
    ∃ x', (t.step setup e).activities[i]? = some x' ∧ x.Becomes setup t.client x' := by
  have hlt : i < t.activities.length := (List.getElem?_eq_some_iff.mp hx).1
  have hle : t.activities.length ≤ (t.step setup e).activities.length := by
    have hjoin : ∀ y : Activity, t.activities.length ≤ (t.activities ++ [y]).length := by simp
    cases e with
    | connect | order | renew => exact hjoin _
    | watch context session subject settings =>
      rw [step]
      cases Watch.start context session subject settings t.link with
      | error f => exact Nat.le_refl _
      | ok r => exact hjoin _
    | advance j =>
      rw [step]
      cases t.activities[j]? with
      | none => exact Nat.le_refl _
      | some y =>
        cases hs : y.step setup t.client with
        | none => simp only [hs, Nat.le_refl]
        | some r => simp only [hs, List.length_set, Nat.le_refl]
    | receive | hangUp => exact Nat.le_of_eq (List.length_modify ..).symm
    | outside | close => exact Nat.le_refl _
  obtain ⟨x', hx'⟩ : ∃ x', (t.step setup e).activities[i]? = some x' :=
    ⟨_, List.getElem?_eq_getElem (Nat.lt_of_lt_of_le hlt hle)⟩
  rcases activity_step hx' with ⟨y, hy, hbecomes⟩ | ⟨he, -⟩
  · rw [hx] at hy
    cases hy
    exact ⟨x', hx', hbecomes⟩
  · omega

/-- What the books have to say. -/
def books (t : Traffic) : PermitBooks where
  breakers := t.link.breakers
  held := t.activities.map Activity.permit?
  lost := t.ledger.filterMap PermitEntry.lost?

/-- The next thing to happen is that the watch with the number `holder` stops while the call of its
    listing holds the permit `a`. -/
def AboutToLose (t : Traffic) (e : TrafficEvent) (holder : Nat) (a : Admission) : Prop :=
  e = .advance holder ∧ ∃ x, t.activities[holder]? = some x ∧ x.Abandons t.link a

variable {setup : ClientSetup}

/-- What an event adds to the ledger can be posted, and reports just the losses there are. -/
def Posts (setup : ClientSetup) (t : Traffic) (e : TrafficEvent) (t' : Traffic) : Prop :=
  ∃ new, t'.ledger = t.ledger ++ new ∧
    new.foldlM (PermitBooks.post setup.config.breaker) t.books = some t'.books ∧
    ∀ i a, .lost i a ∈ new ↔ t.AboutToLose e i a

theorem posts_join {t t' : Traffic} {e : TrafficEvent} {x : Activity} (hx : x.permit? = none)
    (hb : t'.link.breakers = t.link.breakers) (ha : t'.activities = t.activities)
    (hl : t'.ledger = t.ledger) (he : ∀ i a, ¬ t.AboutToLose e i a) : Posts setup t e (t'.join x) := by
  refine ⟨[.joined], by simp only [join, hl], ?_, fun i a => ⟨fun h => ?_, fun h => absurd h (he i a)⟩⟩
  · have hlost := PermitEntry.filterMap_lost?_append (e := .joined) rfl t.ledger
    simp only [List.foldlM_cons, List.foldlM_nil, PermitBooks.post, books, join, ha, hl, hlost,
      List.map_append, List.map_cons, List.map_nil, hx]
    have hlink : t'.link = ({ t' with
      activities := t.activities ++ [x], ledger := t.ledger ++ [.joined] } : Traffic).link := rfl
    rw [← hlink, hb]
    rfl
  · cases List.mem_singleton.mp h

theorem posts_quiet {t t' : Traffic} {e : TrafficEvent} (hb : t'.link.breakers = t.link.breakers)
    (ha : t'.activities.map Activity.permit? = t.activities.map Activity.permit?)
    (hl : t'.ledger = t.ledger) (he : ∀ i a, ¬ t.AboutToLose e i a) : Posts setup t e t' := by
  refine ⟨[], by rw [hl, List.append_nil], ?_,
    fun i a => ⟨fun h => (by cases h), fun h => absurd h (he i a)⟩⟩
  simp only [List.foldlM_nil, books, hb, ha, hl]
  rfl

theorem map_permit?_modify {f : Activity → Activity} (hf : ∀ x, (f x).permit? = x.permit?)
    (l : List Activity) (i : Nat) :
    (l.modify i f).map Activity.permit? = l.map Activity.permit? := by
  refine List.ext_getElem? fun j => ?_
  simp only [List.getElem?_map, List.getElem?_modify]
  by_cases hj : i = j
  · cases l[j]? <;> simp [hj, hf]
  · simp [hj]

theorem posts_advance (t : Traffic) (holder : Nat) :
    Posts setup t (.advance holder) (t.step setup (.advance holder)) := by
  rw [step]
  cases hx : t.activities[holder]? with
  | none =>
    refine posts_quiet rfl rfl rfl ?_
    rintro i a ⟨he, x, hx', -⟩
    cases he
    rw [hx] at hx'; cases hx'
  | some x =>
    cases hs : x.step setup t.client with
    | none =>
      simp only [hs]
      refine posts_quiet rfl rfl rfl ?_
      rintro i a ⟨he, y, hy, ha⟩
      cases he
      rw [hx] at hy; cases hy
      obtain ⟨-, x', hstep, -⟩ := Activity.Abandons.step_eq (c := t.client) setup ha
      rw [hs] at hstep; cases hstep
    | some r =>
      obtain ⟨x', client⟩ := r
      simp only [hs]
      have hheld : t.books.held[holder]? = some x.permit? := by
        rw [books, List.getElem?_map, hx]; rfl
      obtain ⟨hpost, hlost⟩ := Activity.posted_note (b := t.books) hs rfl hheld
      refine ⟨_, rfl, hpost.trans ?_, fun i a => (hlost i a).trans ⟨?_, ?_⟩⟩
      · simp only [books, List.map_set, List.filterMap_append]
        rfl
      · rintro ⟨rfl, ha⟩
        exact ⟨rfl, x, hx, ha⟩
      · rintro ⟨he, y, hy, ha⟩
        cases he
        rw [hx] at hy; cases hy
        exact ⟨rfl, ha⟩

theorem posts_step (setup : ClientSetup) (t : Traffic) (e : TrafficEvent) :
    Posts setup t e (t.step setup e) := by
  cases e with
  | connect context => exact posts_join rfl rfl rfl rfl (fun i a h => by cases h.1)
  | order context held command => exact posts_join rfl rfl rfl rfl (fun i a h => by cases h.1)
  | renew context => exact posts_join rfl rfl rfl rfl (fun i a h => by cases h.1)
  | watch context session subject settings =>
    rw [step]
    cases hw : Watch.start context session subject settings t.link with
    | error f => exact posts_quiet rfl rfl rfl (fun i a h => by cases h.1)
    | ok r =>
      obtain ⟨w, link⟩ := r
      obtain ⟨hcall, hb⟩ := Watch.call?_start hw
      refine posts_join ?_ hb rfl rfl (fun i a h => by cases h.1)
      simp only [Activity.permit?, Activity.call?, hcall, Option.bind_none]
  | advance holder => exact posts_advance t holder
  | receive holder =>
    exact posts_quiet rfl (map_permit?_modify Activity.permit?_receive _ _) rfl
      (fun i a h => by cases h.1)
  | hangUp holder =>
    exact posts_quiet rfl (map_permit?_modify Activity.permit?_hangUp _ _) rfl
      (fun i a h => by cases h.1)
  | outside e => exact posts_quiet (e.breakers_apply _) rfl rfl (fun i a h => by cases h.1)
  | close =>
    refine ⟨[.cleared], rfl, ?_, fun i a => ⟨fun h => ?_, fun h => by cases h.1⟩⟩
    · have hlost := PermitEntry.filterMap_lost?_append (e := .cleared) rfl t.ledger
      simp only [List.foldlM_cons, List.foldlM_nil, PermitBooks.post, books, step, hlost]
      rfl
    · cases List.mem_singleton.mp h

/-! ### Runs -/

/-- Somewhere in a run of events a watch stops while the call of its listing holds the permit. -/
def Loses (setup : ClientSetup) (t : Traffic) (events : List TrafficEvent) (holder : Nat)
    (a : Admission) : Prop :=
  ∃ before e later, events = before ++ e :: later ∧
    (t.after setup before).AboutToLose e holder a

theorem after_cons (t : Traffic) (e : TrafficEvent) (events : List TrafficEvent) :
    t.after setup (e :: events) = (t.step setup e).after setup events := rfl

theorem after_concat (t : Traffic) (events : List TrafficEvent) (e : TrafficEvent) :
    t.after setup (events ++ [e]) = (t.after setup events).step setup e := by
  rw [after, List.foldl_append]
  rfl

theorem loses_cons {t : Traffic} {e : TrafficEvent} {events : List TrafficEvent} {i : Nat}
    {a : Admission} : t.Loses setup (e :: events) i a ↔
      t.AboutToLose e i a ∨ (t.step setup e).Loses setup events i a := by
  constructor
  · rintro ⟨before, e', later, hsplit, hlose⟩
    cases before with
    | nil => cases hsplit; exact Or.inl hlose
    | cons e₁ before =>
      cases hsplit
      exact Or.inr ⟨before, e', later, rfl, hlose⟩
  · rintro (hlose | ⟨before, e', later, rfl, hlose⟩)
    · exact ⟨[], e, events, rfl, hlose⟩
    · exact ⟨e :: before, e', later, rfl, hlose⟩

/-- What a run adds to the ledger can be posted, and reports just the losses there are. -/
theorem posts_after (setup : ClientSetup) : ∀ (events : List TrafficEvent) (t : Traffic),
    ∃ new, (t.after setup events).ledger = t.ledger ++ new ∧
      new.foldlM (PermitBooks.post setup.config.breaker) t.books =
        some (t.after setup events).books ∧
      ∀ i a, .lost i a ∈ new ↔ t.Loses setup events i a
  | [], t => by
    refine ⟨[], (List.append_nil _).symm, rfl, fun i a => ⟨fun h => (by cases h), ?_⟩⟩
    rintro ⟨before, e, later, hsplit, -⟩
    cases before <;> cases hsplit
  | e :: events, t => by
    obtain ⟨new, hledger, hpost, hlost⟩ := posts_step setup t e
    obtain ⟨more, hledger', hpost', hlost'⟩ := posts_after setup events (t.step setup e)
    refine ⟨new ++ more, ?_, ?_, fun i a => ?_⟩
    · rw [after_cons, hledger', hledger, List.append_assoc]
    · rw [List.foldlM_append, hpost]
      exact hpost'
    · rw [List.mem_append, hlost, hlost', loses_cons]

/-- A client whose breakers are all as good as new has made no call yet. -/
theorem fits_new {client : Client} (hnew : ∀ id, client.hub.link.breakers.cell id = {}) :
    (books { client }).Fits := by
  intro id
  show (client.hub.link.breakers.cell id).SlotFits 0
  rw [hnew]
  exact Breaker.slotFits_new

theorem fits_after {t : Traffic} (h : t.books.Fits) (events : List TrafficEvent) :
    (t.after setup events).books.Fits := by
  obtain ⟨new, -, hpost, -⟩ := posts_after setup events t
  exact h.foldlM hpost

theorem mem_lost_books {t : Traffic} {a : Admission} :
    a ∈ t.books.lost ↔ ∃ i, .lost i a ∈ t.ledger := by
  simp only [books, List.mem_filterMap]
  constructor
  · rintro ⟨e, he, hl⟩
    cases e with
    | lost i b => cases hl; exact ⟨i, he⟩
    | _ => cases hl
  · rintro ⟨i, hi⟩
    exact ⟨_, hi, rfl⟩

theorem held_books {t : Traffic} {i : Nat} {a : Admission} :
    t.books.held[i]? = some (some a) ↔ ∃ x, t.activities[i]? = some x ∧ x.permit? = some a := by
  simp only [books, List.getElem?_map, Option.map_eq_some_iff]

/-- A trial permit that has been lost stays lost, and its breaker refuses whatever happens later. -/
theorem refuses_after (setup : ClientSetup) {t : Traffic} (h : t.books.Fits) {i id : Nat}
    (hlost : .lost i ⟨id, .trial⟩ ∈ t.ledger) (later : List TrafficEvent) (now : Nat) :
    ((t.after setup later).link.breakers.cell id).state = .halfOpen ∧
      ((t.after setup later).link.breakers.cell id).acquire setup.config.breaker now =
        (none, (t.after setup later).link.breakers.cell id) := by
  obtain ⟨new, hledger, -, -⟩ := posts_after setup later t
  refine (fits_after h later).refuses (mem_lost_books.mpr ⟨i, ?_⟩) now
  rw [hledger]
  exact List.mem_append_left _ hlost

theorem countP_isLoss_eq_zero {es : List PermitEntry} {i : Nat} {a : Admission} :
    es.countP (·.isLoss i a) = 0 ↔ .lost i a ∉ es := by
  rw [List.countP_eq_zero]
  constructor
  · intro h hl
    exact h _ hl (by simp [PermitEntry.isLoss])
  · intro h e he hl
    cases e with
    | lost j b =>
      simp only [PermitEntry.isLoss, Bool.and_eq_true, decide_eq_true_eq] at hl
      rw [hl.1, hl.2] at he
      exact h he
    | _ => cases hl

/-- What becomes of the permits of a client, whatever happens at it. The ledger accounts for all that
    its breakers have been asked and told. Each permit was granted as often as it has been returned or
    lost, and once more while it is held, and a loss is just a watch that stops while the call of its
    listing holds the permit: so all permits come back iff no watch does that. A slot is taken while a
    trial permit of its breaker is held; as long as none was lost, it is free when no call is under
    way, and the next call to a breaker that is half open is on trial. Once one was lost, the breaker
    stays half open and refuses for good. -/
theorem permits_accounted (setup : ClientSetup) (client : Client)
    (hnew : ∀ id, client.hub.link.breakers.cell id = {}) (events : List TrafficEvent) :
    let t := after setup { client } events
    t.ledger.foldlM (PermitBooks.post setup.config.breaker) (books { client }) = some t.books ∧
    (∀ i a, t.ledger.countP (·.isGrant i a) =
      t.ledger.countP (·.isReturn i a) + t.ledger.countP (·.isLoss i a) + t.books.holds i a) ∧
    (∀ i a, .lost i a ∈ t.ledger ↔ Loses setup { client } events i a) ∧
    ((∀ i a, t.ledger.countP (·.isGrant i a) =
        t.ledger.countP (·.isReturn i a) + t.books.holds i a) ↔
      ∀ i a, ¬ Loses setup { client } events i a) ∧
    (∀ id, (t.link.breakers.cell id).trialInFlight = true ↔
      (∃ x ∈ t.activities, x.permit? = some ⟨id, .trial⟩) ∨
        ∃ i, Loses setup { client } events i ⟨id, .trial⟩) ∧
    (∀ id, (∀ x ∈ t.activities, x.permit? ≠ some ⟨id, .trial⟩) →
      (∀ i, ¬ Loses setup { client } events i ⟨id, .trial⟩) →
        (t.link.breakers.cell id).trialInFlight = false ∧
        ((t.link.breakers.cell id).state = .halfOpen → ∀ now,
          ((t.link.breakers.cell id).acquire setup.config.breaker now).1 = some .trial)) ∧
    (∀ id i, Loses setup { client } events i ⟨id, .trial⟩ → ∀ later now,
      ((t.after setup later).link.breakers.cell id).state = .halfOpen ∧
      ((t.after setup later).link.breakers.cell id).acquire setup.config.breaker now =
        (none, (t.after setup later).link.breakers.cell id)) := by
  intro t
  obtain ⟨new, hledger, hpost, hlost⟩ := posts_after setup events { client }
  have hnewledger : t.ledger = new := hledger
  rw [← hnewledger] at hpost
  have hloses : ∀ i a, .lost i a ∈ t.ledger ↔ Loses setup { client } events i a := by
    rw [hnewledger]; exact hlost
  have hfits : t.books.Fits := fits_after (fits_new hnew) events
  have hcount : ∀ i a, t.ledger.countP (·.isGrant i a) =
      t.ledger.countP (·.isReturn i a) + t.ledger.countP (·.isLoss i a) + t.books.holds i a := by
    intro i a
    have := PermitBooks.grants_eq_of_post i a hpost
    simpa [books, PermitBooks.holds] using this
  have hheld : ∀ a, (∃ i : Nat, t.books.held[i]? = some (some a)) ↔
      ∃ x ∈ t.activities, x.permit? = some a := by
    intro a
    simp only [held_books, List.mem_iff_getElem?]
    constructor
    · rintro ⟨i, x, hx, hp⟩; exact ⟨x, ⟨i, hx⟩, hp⟩
    · rintro ⟨x, ⟨i, hx⟩, hp⟩; exact ⟨i, x, hx, hp⟩
  refine ⟨hpost, hcount, hloses, ⟨fun hall i a hl => ?_, fun hnone i a => ?_⟩, fun id => ?_,
    fun id hfree hkept => ?_, fun id i hl later now => ?_⟩
  · have hzero : t.ledger.countP (·.isLoss i a) = 0 := by
      have := hall i a
      have := hcount i a
      omega
    exact countP_isLoss_eq_zero.mp hzero ((hloses i a).mpr hl)
  · have hzero : t.ledger.countP (·.isLoss i a) = 0 :=
      countP_isLoss_eq_zero.mpr fun hl => hnone i a ((hloses i a).mp hl)
    rw [hcount, hzero, Nat.add_zero]
  · have hslot : (t.link.breakers.cell id).trialInFlight = true ↔
        (∃ i : Nat, t.books.held[i]? = some (some ⟨id, .trial⟩)) ∨
          Admission.mk id .trial ∈ t.books.lost := hfits.trialInFlight_iff id
    rw [hslot, hheld, mem_lost_books]
    simp only [hloses]
  · refine hfits.grants (fun i hi => ?_) fun hl => ?_
    · obtain ⟨x, hx, hp⟩ := (hheld _).mp ⟨i, hi⟩
      exact hfree x hx hp
    · obtain ⟨i, hi⟩ := mem_lost_books.mp hl
      exact hkept i ((hloses i _).mp hi)
  · exact refuses_after setup hfits ((hloses i _).mpr hl) later now

/-! ### A run in which a permit is lost -/

/-- A client that never tries again, with breakers that open at the first failure, for a second. -/
def touchySetup : ClientSetup where
  config := {
    baseUrl := "http://slurm.test"
    retry := .noRetry
    breaker := { failureThreshold := 1, openTimeout := .ofSeconds 1 } }

def touchySession : Session := ⟨0, .v42, "http://slurm.test", none⟩

/-- The client, and a server that cannot be reached at first and takes its time afterwards. -/
def touchyClient : Client where
  hub := { link := { server := { script := [⟨.error (.connect "refused"), 0⟩], latency := 100 } } }
  current := touchySession

/-- A command fails and opens the breaker. A second later a watch begins, and its first listing is on
    trial; its receiver hangs up before the answer has come. -/
def fatalEvents : List TrafficEvent :=
  [.outside .newContext, .order ⟨0, none⟩ none (.listNodes {})] ++ List.replicate 6 (.advance 0) ++
    [.outside (.pass 1000), .watch ⟨0, none⟩ touchySession Subject.nodes {}] ++
    List.replicate 3 (.advance 1) ++ [.hangUp 1, .advance 1]

theorem ledger_fatalEvents : (after touchySetup { client := touchyClient } fatalEvents).ledger =
    [.joined, .granted 0 0 "http://slurm.test" ⟨0, .normal⟩, .returned 0 0 ⟨0, .normal⟩ .failure,
      .joined, .granted 1 1000 "http://slurm.test" ⟨0, .trial⟩, .lost 1 ⟨0, .trial⟩] := by
  decide +kernel

/-- The permit of the watch is lost, which stops it in the midst of its call. -/
theorem permits_accounted_touchy :
    (∀ id, touchyClient.hub.link.breakers.cell id = {}) ∧
    Loses touchySetup { client := touchyClient } fatalEvents 1 ⟨0, .trial⟩ ∧
    ((after touchySetup { client := touchyClient } fatalEvents).link.breakers.cell 0).trialInFlight =
      true := by
  have hnew : ∀ id, touchyClient.hub.link.breakers.cell id = {} := fun id => rfl
  obtain ⟨-, -, hloses, -, hslot, -⟩ := permits_accounted touchySetup touchyClient hnew fatalEvents
  have hlose := (hloses 1 ⟨0, .trial⟩).mp (by rw [ledger_fatalEvents]; decide)
  exact ⟨hnew, hlose, (hslot 0).mpr (Or.inr ⟨1, hlose⟩)⟩

/-- No call is under way any more, and yet the breaker, half open, has its slot taken and will refuse
    every call that is ever made. -/
theorem permit_never_returned :
    let t := after touchySetup { client := touchyClient } fatalEvents
    (t.ledger.countP (·.isGrant 1 ⟨0, .trial⟩) = 1 ∧
      ∀ a, t.ledger.countP (·.isReturn 1 a) = 0) ∧
    (∀ x ∈ t.activities, x.permit? = none) ∧
    (t.link.breakers.cell 0).trialInFlight = true ∧
    ∀ later now, ((t.after touchySetup later).link.breakers.cell 0).state = .halfOpen ∧
      (((t.after touchySetup later).link.breakers.cell 0).acquire touchySetup.config.breaker now).1 =
        none := by
  intro t
  have hfits : t.books.Fits := fits_after (fits_new fun id => rfl) fatalEvents
  have hlost : .lost 1 ⟨0, .trial⟩ ∈ t.ledger := by
    show _ ∈ (after touchySetup { client := touchyClient } fatalEvents).ledger
    rw [ledger_fatalEvents]; decide
  refine ⟨⟨?_, fun a => ?_⟩, ?_, ?_, fun later now => ?_⟩
  · show (after touchySetup { client := touchyClient } fatalEvents).ledger.countP _ = 1
    rw [ledger_fatalEvents]; decide
  · show (after touchySetup { client := touchyClient } fatalEvents).ledger.countP _ = 0
    rw [ledger_fatalEvents]; simp [PermitEntry.isReturn]
  · have : t.activities.map Activity.permit? = [none, none] := by decide +kernel
    intro x hx
    have hmem : x.permit? ∈ t.activities.map Activity.permit? := List.mem_map_of_mem hx
    rw [this] at hmem
    simpa using hmem
  · exact (hfits.trialInFlight_iff 0).mpr (Or.inr (mem_lost_books.mpr ⟨1, hlost⟩))
  · obtain ⟨hstate, hacq⟩ := refuses_after touchySetup hfits hlost later now
    exact ⟨hstate, by rw [hacq]⟩

end Traffic

end SlurmLink
