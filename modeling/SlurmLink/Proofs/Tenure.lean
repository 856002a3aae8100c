import SlurmLink.Proofs.Configured
import SlurmLink.Proofs.Solitude

/-!
How long a client keeps its session. It changes with a renewal that returns a session, and with nothing
else that happens at the client (`Traffic.current_step`). Renewals that come one after the other never
meet, so each finds the table as the one before it has left it:

    renewal 0    began  asked  made y                                            current y
    renewal 1                            began  asked  failed                    current y
    close                                                                        current y
    renewal 2                                                  began  made z     current z

`Traffic.Standing` says so of a whole client, and `Standing.step` that any event keeps it. Closing the
client only forgets what is cached, which makes no difference to whoever negotiates anyway.
-/

namespace SlurmLink

/-! ### All that goes on at a client -/

/-- The activity is somebody who connects. -/
def Activity.Connecting : Activity → Prop
  | .connecting _ => True
  | _ => False

/-- The renewal that an activity is, if it is one. -/
def Activity.renewal? : Activity → Option Renewal
  | .task (.renewal r) => some r
  | _ => none

namespace Traffic

variable {setup : ClientSetup} {t t' : Traffic} {e : TrafficEvent} {i : Nat} {r : Renewal}

def table (t : Traffic) : SessionTable := t.client.hub.table

/-- The session that the client uses. -/
def current (t : Traffic) : Session := t.client.current

/-- The renewal with the given number. -/
def renewal? (t : Traffic) (i : Nat) : Option Renewal := t.activities[i]?.bind Activity.renewal?

theorem renewal?_eq_some_iff :
    t.renewal? i = some r ↔ t.activities[i]? = some (.task (.renewal r)) := by
  rw [renewal?, Option.bind_eq_some_iff]
  constructor
  · rintro ⟨x, hx, hr⟩
    rw [hx]
    cases x with
    | task k =>
      cases k with
      | renewal r' => cases hr; rfl
      | _ => cases hr
    | _ => cases hr
  · exact fun h => ⟨_, h, rfl⟩

theorem renewal?_of_length_le (h : t.activities.length ≤ i) : t.renewal? i = none := by
  rw [renewal?, List.getElem?_eq_none h]
  rfl

/-- What an event can mean for the renewals of a client, its session and its table. -/
inductive Turn (setup : ClientSetup) (t : Traffic) : TrafficEvent → Traffic → Prop where
  /-- Somebody wants to renew the session. -/
  | comes {context : Context} {t' : Traffic} (hclient : t'.client = t.client)
      (hx : ∀ i, t'.renewal? i =
        if i = t.activities.length then some { context } else t.renewal? i) :
      Turn setup t (.renew context) t'
  | goes {i : Nat} {r r' : Renewal} {t' : Traffic} (hi : t.renewal? i = some r)
      (hg : Renewal.Goes setup.sessionPolicy r t.client r' t'.client)
      (hx : ∀ j, t'.renewal? j = if j = i then some r' else t.renewal? j) :
      Turn setup t (.advance i) t'
  /-- Somebody who connects goes on. -/
  | connects {i : Nat} {a : Acquisition} {t' : Traffic}
      (hi : t.activities[i]? = some (.connecting a)) (hx : t'.renewal? = t.renewal?)
      (hs : t'.current = t.current) : Turn setup t (.advance i) t'
  | forgets {t' : Traffic} (hx : t'.renewal? = t.renewal?) (hs : t'.current = t.current)
      (ht : t'.table = t.table.clear) : Turn setup t .close t'
  | rests {e : TrafficEvent} {t' : Traffic} (hx : t'.renewal? = t.renewal?)
      (hs : t'.current = t.current) (ht : t'.table = t.table) : Turn setup t e t'

theorem renewal?_append (x : Activity) (h : t'.activities = t.activities ++ [x]) (i : Nat) :
    t'.renewal? i = if i = t.activities.length then x.renewal? else t.renewal? i := by
  rw [renewal?, renewal?, h, List.getElem?_append]
  by_cases hi : i = t.activities.length
  · simp [hi]
  · rw [if_neg hi]
    split
    · rfl
    · rw [List.getElem?_eq_none (l := t.activities) (by omega), List.getElem?_eq_none]
      simp only [List.length_singleton]
      omega

theorem renewal?_append_none {x : Activity} (hx : x.renewal? = none)
    (h : t'.activities = t.activities ++ [x]) : t'.renewal? = t.renewal? := by
  funext i
  rw [renewal?_append x h]
  split
  · next hi => rw [hx, hi, renewal?_of_length_le (Nat.le_refl _)]
  · rfl

theorem renewal?_set {x : Activity} (hi : t.activities[i]? = some x) (x' : Activity)
    (h : t'.activities = t.activities.set i x') (j : Nat) :
    t'.renewal? j = if j = i then x'.renewal? else t.renewal? j := by
  rw [renewal?, renewal?, h]
  by_cases hj : j = i
  · rw [if_pos hj, hj, List.getElem?_set_self (List.getElem?_eq_some_iff.mp hi).1]
    rfl
  · rw [if_neg hj, List.getElem?_set_ne fun he => hj he.symm]

theorem renewal?_set_none {x x' : Activity} (hi : t.activities[i]? = some x)
    (hx : x.renewal? = none) (hx' : x'.renewal? = none)
    (h : t'.activities = t.activities.set i x') : t'.renewal? = t.renewal? := by
  funext j
  rw [renewal?_set hi x' h]
  split
  · next hj => rw [hx', hj, renewal?, hi]; exact hx.symm
  · rfl

theorem renewal?_modify {f : Activity → Activity} (hf : ∀ x, (f x).renewal? = x.renewal?)
    (h : t'.activities = t.activities.modify i f) : t'.renewal? = t.renewal? := by
  funext j
  rw [renewal?, renewal?, h, List.getElem?_modify]
  cases t.activities[j]? with
  | none => rfl
  | some x =>
    simp only [Option.bind_some]
    split
    · exact hf x
    · rfl

theorem turn_advance (setup : ClientSetup) (t : Traffic) (i : Nat) :
    Turn setup t (.advance i) (t.step setup (.advance i)) := by
  rw [step]
  cases hi : t.activities[i]? with
  | none => exact .rests rfl rfl rfl
  | some x =>
    cases hs : x.step setup t.client with
    | none => simpa only [hs] using .rests rfl rfl rfl
    | some y =>
      simp only [hs]
      cases x with
      | connecting a =>
        obtain ⟨r, -, rfl⟩ := Option.map_eq_some_iff.mp hs
        exact .connects hi (renewal?_set_none hi rfl rfl rfl) rfl
      | watch w =>
        obtain ⟨r, -, rfl⟩ := Option.map_eq_some_iff.mp hs
        exact .rests (renewal?_set_none hi rfl rfl rfl) rfl rfl
      | task k =>
        obtain ⟨r, hr, rfl⟩ := Option.map_eq_some_iff.mp hs
        cases k with
        | command context held order =>
          cases hr
          exact .rests (renewal?_set_none hi rfl rfl rfl) rfl rfl
        | errand e =>
          obtain ⟨z, -, rfl⟩ := Option.map_eq_some_iff.mp hr
          exact .rests (renewal?_set_none hi rfl rfl rfl) rfl rfl
        | renewal r₀ =>
          obtain ⟨z, hz, rfl⟩ := Option.map_eq_some_iff.mp hr
          exact .goes (renewal?_eq_some_iff.mpr hi) (Renewal.goes_of_step hz)
            (renewal?_set hi (.task (.renewal z.1)) rfl)

theorem turn_step (setup : ClientSetup) (t : Traffic) (e : TrafficEvent) :
    Turn setup t e (t.step setup e) := by
  cases e with
  | connect context => exact .rests (renewal?_append_none rfl rfl) rfl rfl
  | order context held command => exact .rests (renewal?_append_none rfl rfl) rfl rfl
  | renew context => exact .comes rfl (renewal?_append (.task (.renewal { context })) rfl)
  | watch context session subject settings =>
    rw [step]
    cases Watch.start context session subject settings t.link with
    | error f => exact .rests rfl rfl rfl
    | ok r => exact .rests (renewal?_append_none rfl rfl) rfl rfl
  | advance i => exact turn_advance setup t i
  | receive i =>
    refine .rests (renewal?_modify (fun x => ?_) rfl) rfl rfl
    cases x <;> rfl
  | hangUp i =>
    refine .rests (renewal?_modify (fun x => ?_) rfl) rfl rfl
    cases x <;> rfl
  | outside e => exact .rests rfl rfl rfl
  | close => exact .forgets rfl rfl rfl

/-! ### The session in use -/

/-- A renewal that was under way is over, with this outcome. -/
def Returns (t t' : Traffic) (i : Nat) (outcome : Except Error ApiVersion) : Prop :=
  ∃ r r', t.renewal? i = some r ∧ r.outcome? = none ∧
    t'.renewal? i = some r' ∧ r'.outcome? = some outcome

/-- A renewal returns with a step of its own. -/
theorem Returns.goes {outcome : Except Error ApiVersion}
    (h : t.Returns (t.step setup e) i outcome) :
    ∃ r r', t.renewal? i = some r ∧
      Renewal.Goes setup.sessionPolicy r t.client r' (t.step setup e).client ∧
      r'.outcome? = some outcome := by
  obtain ⟨r, r', hi, hnone, hi', hsome⟩ := h
  have hchanged : (t.step setup e).renewal? i ≠ t.renewal? i := by
    intro hsame
    rw [hsame, hi] at hi'
    cases hi'
    rw [hnone] at hsome
    cases hsome
  cases turn_step setup t e with
  | comes _ hx =>
    rw [hx] at hi' hchanged
    split at hi'
    · cases hi'
      cases hsome
    · next hne => exact absurd (if_neg hne) hchanged
  | goes hj hg hx =>
    rw [hx] at hi' hchanged
    split at hi'
    · next he =>
      subst he
      rw [hi] at hj
      cases hi'
      cases hj
      exact ⟨r, r', hi, hg, hsome⟩
    · next hne => exact absurd (if_neg hne) hchanged
  | connects _ hx => exact absurd (congrFun hx i) hchanged
  | forgets hx => exact absurd (congrFun hx i) hchanged
  | rests hx => exact absurd (congrFun hx i) hchanged

/-- The session changes only when a renewal returns one, and then it is of the version that the renewal
    returns. -/
theorem current_step (setup : ClientSetup) (t : Traffic) (e : TrafficEvent) :
    (∀ i v, t.Returns (t.step setup e) i (.ok v) → (t.step setup e).current.apiVersion = v) ∧
    (∀ i f, t.Returns (t.step setup e) i (.error f) → (t.step setup e).current = t.current) ∧
    ((∀ i v, ¬ t.Returns (t.step setup e) i (.ok v)) → (t.step setup e).current = t.current) := by
  refine ⟨fun i v h => ?_, fun i f h => ?_, fun hnot => ?_⟩
  · obtain ⟨r, r', -, hg, ho⟩ := h.goes
    simp only [current]
    generalize (t.step setup e).client = c' at hg
    cases hg <;> cases ho
    rfl
  · obtain ⟨r, r', -, hg, ho⟩ := h.goes
    simp only [current]
    generalize (t.step setup e).client = c' at hg
    cases hg <;> cases ho
    rfl
  · cases turn_step setup t e with
    | comes hclient => exact congrArg Client.current hclient
    | connects _ _ hs => exact hs
    | forgets _ hs => exact hs
    | rests _ hs => exact hs
    | @goes i r r' _ hi hg hx =>
      have hi' : (t.step setup (.advance i)).renewal? i = some r' := by rw [hx, if_pos rfl]
      have hreturns : ∀ v, r'.outcome? ≠ some (.ok v) := fun v ho =>
        hnot i v ⟨r, r', hi, hg.outcome?_eq_none, hi', ho⟩
      simp only [current]
      generalize (t.step setup (.advance i)).client = c' at hg
      cases hg with
      | returns hp ho => exact absurd rfl (hreturns _)
      | _ => rfl

/-- As long as no renewal returns a session, the client keeps the one it has. -/
theorem current_after (setup : ClientSetup) : ∀ (events : List TrafficEvent) (t : Traffic),
    (∀ before e later, events = before ++ e :: later → ∀ i v,
      ¬ (t.after setup before).Returns ((t.after setup before).step setup e) i (.ok v)) →
    (t.after setup events).current = t.current
  | [], _, _ => rfl
  | e :: events, t, h => by
    rw [after_cons, current_after setup events (t.step setup e) fun before e' later hsplit =>
      h (e :: before) e' later (congrArg (e :: ·) hsplit)]
    exact (current_step setup t e).2.2 (h [] e events rfl)

/-! ### One renewal after the other -/

/-- The event leaves renewals in their order: nobody connects anew, and nobody wants to renew the
    session while another one is at it. -/
def InTurn (t : Traffic) : TrafficEvent → Prop
  | .connect _ => False
  | .renew _ => ∀ i r, t.renewal? i = some r → r.outcome? ≠ none
  | _ => True

/-- Renewals come one after the other; all else may happen at any time. -/
def Serial (setup : ClientSetup) : Traffic → List TrafficEvent → Prop
  | _, [] => True
  | t, e :: events => t.InTurn e ∧ Serial setup (t.step setup e) events

theorem inTurn_renew_iff {context : Context} : t.InTurn (.renew context) ↔
    ∀ x ∈ t.activities, ∀ r ∈ x.renewal?, r.outcome? ≠ none := by
  constructor
  · intro h x hx r hr
    obtain ⟨i, hi⟩ := List.mem_iff_getElem?.mp hx
    exact h i r (by rw [renewal?, hi]; exact hr)
  · intro h i r hi
    exact h _ (List.mem_of_getElem? (renewal?_eq_some_iff.mp hi)) r rfl

instance (t : Traffic) : (e : TrafficEvent) → Decidable (t.InTurn e)
  | .connect _ => isFalse id
  | .renew _ => decidable_of_iff _ inTurn_renew_iff.symm
  | .order .. | .watch .. | .advance _ | .receive _ | .hangUp _ | .outside _ | .close =>
    isTrue trivial

instance decidableSerial (setup : ClientSetup) : (t : Traffic) → (events : List TrafficEvent) →
    Decidable (Serial setup t events)
  | _, [] => isTrue trivial
  | t, e :: events =>
    have := decidableSerial setup (t.step setup e) events
    inferInstanceAs (Decidable (_ ∧ _))

/-- What is new on the record of a renewal. -/
def trace (t t' : Traffic) (i : Nat) : List SessionEntry :=
  match t.renewal? i, t'.renewal? i with
  | some r, some r' => r.trace i t.client.hub r'
  | _, _ => []

/-- What is on the record of a renewal after a run. -/
def trail (setup : ClientSetup) : Traffic → List TrafficEvent → Nat → List SessionEntry
  | _, [], _ => []
  | t, e :: events, i => t.trace (t.step setup e) i ++ trail setup (t.step setup e) events i

theorem trace_of_eq (h : t'.renewal? i = t.renewal? i) : t.trace t' i = [] := by
  rw [trace, h]
  cases t.renewal? i with
  | none => rfl
  | some r => exact r.trace_self i _

/-- What is so whenever renewals come one after the other. -/
structure Standing (asks : Bool) (t : Traffic) (trail : Nat → List SessionEntry) : Prop where
  connected : ∀ x ∈ t.activities, ¬ x.Connecting
  /-- A renewal is over, and has negotiated for itself, or it is the one under way. -/
  each : ∀ i r, t.renewal? i = some r →
    r.Past asks i (trail i) ∨ r.Alone asks i t.table t.current (trail i)
  single : ∀ i j r q, t.renewal? i = some r → t.renewal? j = some q → r.outcome? = none →
    q.outcome? = none → i = j
  settled : (∀ i r, t.renewal? i = some r → r.outcome? ≠ none) → t.table.Settled t.current
  blank : ∀ i, t.renewal? i = none → trail i = []

namespace Standing

variable {asks : Bool} {trail trail' : Nat → List SessionEntry}

theorem past (h : Standing asks t trail) (hi : t.renewal? i = some r) (ho : r.outcome? ≠ none) :
    r.Past asks i (trail i) :=
  (h.each i r hi).resolve_right fun ha => ho ha.outcome?_eq_none

theorem alone (h : Standing asks t trail) (hi : t.renewal? i = some r) (ho : r.outcome? = none) :
    r.Alone asks i t.table t.current (trail i) :=
  (h.each i r hi).resolve_left fun hp => hp.outcome?_ne_none ho

/-- Nobody connects who has not come to connect. -/
theorem connected_step (setup : ClientSetup) (h : ∀ x ∈ t.activities, ¬ x.Connecting)
    (he : t.InTurn e) : ∀ x ∈ (t.step setup e).activities, ¬ x.Connecting := by
  refine forall_step h (fun x hbegins => ?_) fun x x' hx hbecomes => ?_
  · cases hbegins with
    | connect context => exact absurd he id
    | _ => exact id
  · cases x with
    | connecting a => exact absurd trivial hx
    | task k =>
      cases hbecomes with
      | steps hs => obtain ⟨r, -, he⟩ := Option.map_eq_some_iff.mp hs; cases he; exact id
      | _ => exact id
    | watch w =>
      cases hbecomes with
      | steps hs => obtain ⟨r, -, he⟩ := Option.map_eq_some_iff.mp hs; cases he; exact id
      | _ => exact id

/-- A renewal that returns with success has made the session that is the current one then. -/
theorem made_of_returns (h : Standing asks t trail) {v : ApiVersion}
    (hr : t.Returns (t.step setup e) i (.ok v)) :
    ∃ c, trail i = SessionEntry.opening asks i c ++ [.made i c (t.step setup e).current] := by
  obtain ⟨r, r', hi, hg, ho⟩ := hr.goes
  have halone := h.alone hi hg.outcome?_eq_none
  simp only [current]
  generalize (t.step setup e).client = c' at hg
  cases hg with
  | returns hp hs => exact halone.made_of_outcome? hp hs
  | starts | acquires | fails => cases ho

/-- Nothing happens to the renewals, and the table stays or is forgotten. -/
theorem keeps (h : Standing asks t trail)
    (hconnected : ∀ x ∈ t'.activities, ¬ x.Connecting)
    (hx : t'.renewal? = t.renewal?) (hs : t'.current = t.current)
    (ht : t'.table = t.table ∨ t'.table = t.table.clear) : Standing asks t' trail := by
  refine ⟨hconnected, fun i r hi => ?_, ?_, fun hall => ?_, ?_⟩
  · rw [hx] at hi
    rw [hs]
    refine (h.each i r hi).imp id fun ha => ?_
    rcases ht with ht | ht
    · rwa [ht]
    · rw [ht]
      exact ha.clear
  · rw [hx]
    exact h.single
  · rw [hx] at hall
    rw [hs]
    rcases ht with ht | ht
    · rw [ht]
      exact h.settled hall
    · rw [ht]
      exact t.table.settled_clear _
  · rw [hx]
    exact h.blank

/-- One renewal comes or goes on, and all the others are over. -/
theorem turns (h : Standing asks t trail) (hconnected : ∀ x ∈ t'.activities, ¬ x.Connecting)
    (hover : ∀ j q, j ≠ i → t.renewal? j = some q → q.outcome? ≠ none)
    (hx : ∀ j, t'.renewal? j = if j = i then some r else t.renewal? j)
    (htrail : ∀ j, j ≠ i → trail' j = trail j)
    (hr : r.Alone asks i t'.table t'.current (trail' i) ∨
      r.Past asks i (trail' i) ∧ t'.table.Settled t'.current) : Standing asks t' trail' := by
  have hnew : t'.renewal? i = some r := by rw [hx, if_pos rfl]
  have hother : ∀ j, j ≠ i → t'.renewal? j = t.renewal? j := fun j hj => by rw [hx, if_neg hj]
  have hself : ∀ j q, t'.renewal? j = some q → q.outcome? = none → j = i := by
    intro j q hj hq
    by_contra hne
    rw [hother j hne] at hj
    exact hover j q hne hj hq
  refine ⟨hconnected, fun j q hj => ?_, fun j k q y hj hk hq hy => ?_, fun hall => ?_, fun j hj => ?_⟩
  · by_cases he : j = i
    · subst he
      rw [hnew] at hj
      cases hj
      exact (hr.imp id And.left).symm
    · rw [hother j he] at hj
      rw [htrail j he]
      exact Or.inl (h.past hj (hover j q he hj))
  · rw [hself j q hj hq, hself k y hk hy]
  · rcases hr with ha | ⟨-, hsettled⟩
    · exact absurd ha.outcome?_eq_none (hall i r hnew)
    · exact hsettled
  · have hne : j ≠ i := by
      rintro rfl
      rw [hnew] at hj
      cases hj
    rw [htrail j hne]
    exact h.blank j (hother j hne ▸ hj)

/-- Whatever happens in turn. -/
theorem step (h : Standing setup.sessionPolicy.explicit.isNone t trail) (he : t.InTurn e) :
    Standing setup.sessionPolicy.explicit.isNone (t.step setup e)
      (fun i => trail i ++ t.trace (t.step setup e) i) := by
  have hconnected := connected_step setup h.connected he
  have hquiet : ∀ i, (t.step setup e).renewal? i = t.renewal? i →
      trail i ++ t.trace (t.step setup e) i = trail i := by
    intro i hx
    rw [trace_of_eq hx, List.append_nil]
  cases turn_step setup t e with
  | rests hx hs ht =>
    rw [funext fun i => hquiet i (congrFun hx i)]
    exact h.keeps hconnected hx hs (Or.inl ht)
  | forgets hx hs ht =>
    rw [funext fun i => hquiet i (congrFun hx i)]
    exact h.keeps hconnected hx hs (Or.inr ht)
  | connects hi => exact absurd trivial (h.connected _ (List.mem_of_getElem? hi))
  | comes _ hx =>
    have hover : ∀ i r, t.renewal? i = some r → r.outcome? ≠ none := he
    have hbefore : t.renewal? t.activities.length = none := renewal?_of_length_le (Nat.le_refl _)
    refine h.turns hconnected (fun j q _ hj => hover j q hj) hx
      (fun j hj => hquiet j (by rw [hx, if_neg hj])) (Or.inl ?_)
    rw [h.blank _ hbefore, trace, hbefore]
    exact .starts rfl (h.settled hover)
  | @goes i r r' _ hi hg hx =>
    have hnone := hg.outcome?_eq_none
    refine h.turns hconnected
      (fun j q hj hq ho => hj (h.single j i q r hq hi ho hnone)) hx
      (fun j hj => hquiet j (by rw [hx, if_neg hj])) ?_
    rw [show t.trace (t.step setup (.advance i)) i = r.trace i t.client.hub r' by
      rw [trace, hi, hx, if_pos rfl]]
    exact (h.alone hi hnone).goes hg

theorem after : ∀ {events : List TrafficEvent} {t : Traffic} {trail : Nat → List SessionEntry},
    Standing setup.sessionPolicy.explicit.isNone t trail → Serial setup t events →
      Standing setup.sessionPolicy.explicit.isNone (t.after setup events)
        (fun i => trail i ++ t.trail setup events i)
  | [], t, trail, h, _ => by
    rw [show (fun i => trail i ++ Traffic.trail setup t [] i) = trail from
      funext fun i => List.append_nil _]
    exact h
  | e :: events, t, trail, h, hserial => by
    have hrest := (h.step hserial.1).after hserial.2
    simp only [List.append_assoc] at hrest
    exact hrest

end Standing

/-- A client that has just connected has the first session cached, and nobody waits for another. -/
theorem Connects.settled {client : Client} (h : Connects setup client) :
    client.hub.table.Settled client.current := by
  obtain ⟨fuel, context, link, hc⟩ := h
  obtain ⟨-, l, hf⟩ := Renewals.exists_follows_connect setup fuel context link
    (congrArg Prod.fst hc)
  rw [hc] at hf
  have hover : ∀ i a, l.caller? i = some a → ∃ y, a.outcome? = some (.ok y) := by
    intro i a ha
    obtain ⟨y, hy, -⟩ := hf.through (fun r hr => absurd hr List.not_mem_nil) i a ha
    exact ⟨y, hy⟩
  have htable : l.table = client.hub.table := congrArg Hub.table hf.hub_eq
  have hget := (hf.get?_current_iff hover).mpr fun i => List.not_mem_nil
  have hknown := hf.tidy.orderly.lines.known
  rw [SessionTable.get?_eq hknown] at hget
  rw [← htable]
  refine ⟨hknown, fun c y hfound hy => ?_, fun c hfound => ?_⟩
  · rw [hfound, Option.bind_some, hy] at hget
    exact Option.some.inj hget
  · rw [List.eq_nil_iff_forall_not_mem]
    intro u hu
    obtain ⟨i, hi⟩ := hf.tidy.orderly.held c u hu
    obtain ⟨a, ha, hplace⟩ := Lobby.place?_eq_some_iff.mp hi
    obtain ⟨y, hy⟩ := hover i a ha
    rw [Acquisition.place?_of_outcome? hy] at hplace
    cases hplace

theorem Connects.standing {client : Client} (h : Connects setup client) (asks : Bool) :
    Standing asks { client } fun _ => [] :=
  ⟨fun _ hx => absurd hx List.not_mem_nil, fun _ _ hi => (by cases hi),
    fun _ _ _ _ hi => (by cases hi), fun _ => h.settled, fun _ _ => rfl⟩

end Traffic

end SlurmLink
