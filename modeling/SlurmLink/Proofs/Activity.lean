import SlurmLink.Client
import SlurmLink.Proofs.Call

/-!
The calls inside everything that a client does. A command, a negotiation, a renegotiation and the
poller of a watch each make at most one call at a time, somewhere within:

    task ──▶ errand ──────────────────────────────▶ call
         └─▶ renewal ─▶ acquisition ─▶ negotiation ─▶ call
    watch ─▶ errand ──────────────────────────────▶ call

A step of theirs is a step of that call, or one without it that changes no breaker (`ThroughCall`). The
one exception is a watch that stops while it lists: it drops its call as it is
(`Activity.step_cases`).
-/

namespace SlurmLink

/-- A step of something with a call in it: a step of the call, or one without it, and then there is no
    permit before it or after it and no breaker changes. -/
inductive ThroughCall (p : CallPolicy) (call : Option Call) (l : Link) (call' : Option Call)
    (l' : Link) : Prop where
  | inside {c c' : Call} (h : call = some c) (h' : call' = some c') (hg : Call.Goes p c l c' l')
  | outside (h : call.bind Call.admission? = none) (h' : call'.bind Call.admission? = none)
      (hb : l'.breakers = l.breakers)

theorem Call.admission?_of_outcome? {c : Call} (h : c.outcome? ≠ none) : c.admission? = none := by
  rw [outcome?] at h
  rw [admission?]
  split at h
  · next hp => rw [hp]
  · exact absurd rfl h

/-! ### Commands -/

namespace Errand

/-- The call of an errand. -/
def call? (e : Errand) : Option Call :=
  match e.phase with
  | .calling call => some call
  | _ => none

variable {p : CallPolicy} {e e' : Errand} {l l' : Link}

theorem call?_of_outcome? (ho : e.outcome? ≠ none) : e.call? = none := by
  rw [outcome?] at ho
  rw [call?]
  split at ho
  · next hp => rw [hp]
  · exact absurd rfl ho

theorem admission?_start (e : Errand) : e.start.call?.bind Call.admission? = none := by
  simp only [start, call?]
  cases e.command.prepare e.session with
  | error f => rfl
  | ok request => cases request <;> rfl

theorem throughCall (h : e.step p l = some (e', l')) : ThroughCall p e.call? l e'.call? l' := by
  rw [step] at h
  cases hp : e.phase with
  | starting =>
    rw [hp] at h; cases h
    exact .outside (by rw [call?, hp]; rfl) (admission?_start e) rfl
  | finished outcome => rw [hp] at h; cases h
  | calling c =>
    rw [hp] at h
    have hcall : e.call? = some c := by rw [call?, hp]
    simp only at h
    cases ho : c.outcome? with
    | some outcome =>
      rw [ho] at h; cases h
      refine .outside ?_ rfl rfl
      rw [hcall]
      exact Call.admission?_of_outcome? (by rw [ho]; simp)
    | none =>
      rw [ho] at h
      obtain ⟨r, hr, he⟩ := Option.map_eq_some_iff.mp h
      cases he
      exact .inside hcall rfl (Call.goes_of_step hr)

end Errand

/-! ### Sessions -/

namespace Negotiation

/-- The call of a negotiation. -/
def call? (n : Negotiation) : Option Call :=
  match n.phase with
  | .discovering call => some call
  | _ => none

variable {p : SessionPolicy} {n n' : Negotiation} {l l' : Link}

theorem call?_of_outcome? (ho : n.outcome? ≠ none) : n.call? = none := by
  rw [outcome?] at ho
  rw [call?]
  split at ho
  · next hp => rw [hp]
  · exact absurd rfl ho

theorem call?_conclude {choice : Except Error (Revision × Option ProductVersion)}
    (h : n.conclude choice l = (n', l')) : n'.call? = none ∧ l'.breakers = l.breakers := by
  cases choice <;> cases h <;> exact ⟨rfl, rfl⟩

theorem throughCall (h : n.step p l = some (n', l')) :
    ThroughCall p.calls n.call? l n'.call? l' := by
  rw [step] at h
  cases hp : n.phase with
  | starting =>
    have hcall : n.call? = none := by rw [call?, hp]
    rw [hp] at h
    simp only at h
    split at h
    · next v hv =>
      obtain ⟨hnone, hb⟩ := call?_conclude (Option.some.inj h)
      exact .outside (by rw [hcall]; rfl) (by rw [hnone]; rfl) hb
    · cases h
      exact .outside (by rw [hcall]; rfl) rfl rfl
  | finished outcome => rw [hp] at h; cases h
  | discovering c =>
    have hcall : n.call? = some c := by rw [call?, hp]
    rw [hp] at h
    simp only at h
    cases ho : c.outcome? with
    | some outcome =>
      rw [ho] at h
      obtain ⟨hnone, hb⟩ := call?_conclude (Option.some.inj h)
      refine .outside ?_ (by rw [hnone]; rfl) hb
      rw [hcall]
      exact Call.admission?_of_outcome? (by rw [ho]; simp)
    | none =>
      rw [ho] at h
      obtain ⟨r, hr, he⟩ := Option.map_eq_some_iff.mp h
      cases he
      exact .inside hcall rfl (Call.goes_of_step hr)

end Negotiation

namespace Acquisition

/-- The call of an acquisition, if it negotiates. -/
def call? (a : Acquisition) : Option Call :=
  match a.phase with
  | .negotiating _ _ n => n.call?
  | _ => none

variable {p : SessionPolicy} {a a' : Acquisition} {h h' : Hub}

theorem call?_of_outcome? (ho : a.outcome? ≠ none) : a.call? = none := by
  rw [outcome?] at ho
  rw [call?]
  split at ho
  · next hp => rw [hp]
  · exact absurd rfl ho

theorem call?_enter (a : Acquisition) (h : Hub) :
    (a.enter h).1.call? = none ∧ (a.enter h).2.link = h.link := by
  simp only [enter]
  split <;> exact ⟨rfl, rfl⟩

theorem call?_wait {cell ticket : Nat} (hw : a.wait cell ticket h = some (a', h')) :
    a'.call? = none ∧ h'.link = h.link := by
  rw [wait] at hw
  split at hw
  · cases hw; exact ⟨rfl, rfl⟩
  · split at hw
    · cases hw; exact ⟨rfl, rfl⟩
    · cases hw
  · cases hw

theorem throughCall (hs : a.step p h = some (a', h')) :
    ThroughCall p.calls a.call? h.link a'.call? h'.link := by
  rw [step] at hs
  cases hp : a.phase with
  | finished outcome => rw [hp] at hs; cases hs
  | entering =>
    rw [hp] at hs
    obtain ⟨hnone, hlink⟩ := call?_enter a h
    simp only [Option.some.injEq] at hs
    rw [hs] at hnone hlink
    exact .outside (by rw [call?, hp]; rfl) (by rw [hnone]; rfl) (by rw [hlink])
  | waiting cell ticket =>
    rw [hp] at hs
    obtain ⟨hnone, hlink⟩ := call?_wait hs
    exact .outside (by rw [call?, hp]; rfl) (by rw [hnone]; rfl) (by rw [hlink])
  | negotiating cell ticket n =>
    have hcall : a.call? = n.call? := by rw [call?, hp]
    rw [hp] at hs
    simp only at hs
    cases ho : n.outcome? with
    | some outcome =>
      rw [ho] at hs; cases hs
      refine .outside ?_ rfl rfl
      rw [hcall, Negotiation.call?_of_outcome? (by rw [ho]; simp)]
      rfl
    | none =>
      rw [ho] at hs
      obtain ⟨r, hr, he⟩ := Option.map_eq_some_iff.mp hs
      cases he
      rw [hcall]
      exact Negotiation.throughCall hr

end Acquisition

namespace Renewal

/-- The call of a renegotiation. -/
def call? (r : Renewal) : Option Call :=
  match r.phase with
  | .acquiring a => a.call?
  | _ => none

variable {p : SessionPolicy} {r r' : Renewal} {c c' : Client}

theorem throughCall (h : r.step p c = some (r', c')) :
    ThroughCall p.calls r.call? c.hub.link r'.call? c'.hub.link := by
  rw [step] at h
  cases hp : r.phase with
  | finished outcome => rw [hp] at h; cases h
  | starting =>
    rw [hp] at h; cases h
    exact .outside (by rw [call?, hp]; rfl) rfl rfl
  | acquiring a =>
    have hcall : r.call? = a.call? := by rw [call?, hp]
    rw [hp] at h
    simp only at h
    split at h
    · next s ho =>
      cases h
      refine .outside ?_ rfl rfl
      rw [hcall, Acquisition.call?_of_outcome? (by rw [ho]; simp)]
      rfl
    · next e ho =>
      cases h
      refine .outside ?_ rfl rfl
      rw [hcall, Acquisition.call?_of_outcome? (by rw [ho]; simp)]
      rfl
    · obtain ⟨x, hx, he⟩ := Option.map_eq_some_iff.mp h
      cases he
      rw [hcall]
      exact Acquisition.throughCall hx

end Renewal

namespace Task

/-- The call of a task. -/
def call? : Task → Option Call
  | .command .. => none
  | .errand e => e.call?
  | .renewal r => r.call?

variable {setup : ClientSetup} {t t' : Task} {c c' : Client}

theorem throughCall (h : t.step setup c = some (t', c')) :
    ThroughCall setup.callPolicy t.call? c.hub.link t'.call? c'.hub.link := by
  cases t with
  | command context held order => cases h; exact .outside rfl rfl rfl
  | errand e =>
    obtain ⟨x, hx, he⟩ := Option.map_eq_some_iff.mp h
    cases he
    exact Errand.throughCall hx
  | renewal r =>
    obtain ⟨x, hx, he⟩ := Option.map_eq_some_iff.mp h
    cases he
    exact Renewal.throughCall hx

end Task

/-! ### Watches -/

namespace Watch

variable {α : Type} {p : CallPolicy} {w w' : Watch α} {l l' : Link}

/-- The call of a watch, if it lists. -/
def call? (w : Watch α) : Option Call :=
  match w.phase with
  | .listing errand => errand.call?
  | _ => none

/-- The watch stops while its call holds the permit `a`. -/
def Abandons (w : Watch α) (l : Link) (a : Admission) : Prop :=
  w.call?.bind Call.admission? = some a ∧ w.mustStop l = true

theorem call?_start {c : Context} {session : Session} {subject : Subject α} {settings : WatchSettings}
    (h : start c session subject settings l = .ok (w, l')) :
    w.call? = none ∧ l'.breakers = l.breakers := by
  rw [start] at h
  split at h
  · cases h
  · cases h; exact ⟨rfl, rfl⟩

theorem call?_note (outcome : Except Error Answer) (w : Watch α) : (w.note outcome).call? = none := by
  cases outcome with
  | ok answer => rfl
  | error e =>
    simp only [note]
    split <;> rfl

/-- A watch that stops makes its last step, with which its call is gone and nothing else changes. -/
theorem Abandons.step_eq {a : Admission} (h : w.Abandons l a) :
    w.step p l = some ({ w with phase := .stopped }, l) := by
  obtain ⟨hheld, hstop⟩ := h
  rw [step]
  cases hp : w.phase with
  | listing errand => simp only [hstop, if_true]
  | delivering events => rw [call?, hp] at hheld; cases hheld
  | resting due => rw [call?, hp] at hheld; cases hheld
  | stopped => rw [call?, hp] at hheld; cases hheld

/-- A step of a watch goes through its call, or drops it. -/
theorem step_cases (h : w.step p l = some (w', l')) :
    (∃ a, w.Abandons l a) ∨ ThroughCall p w.call? l w'.call? l' := by
  rw [step] at h
  cases hp : w.phase with
  | stopped => rw [hp] at h; cases h
  | resting due =>
    have hcall : w.call? = none := by rw [call?, hp]
    rw [hp] at h
    simp only at h
    split at h
    · cases h; exact Or.inr (.outside (by rw [hcall]; rfl) rfl rfl)
    · split at h
      · cases h; exact Or.inr (.outside (by rw [hcall]; rfl) rfl rfl)
      · cases h
  | delivering events =>
    have hcall : w.call? = none := by rw [call?, hp]
    rw [hp] at h
    cases events with
    | nil => cases h; exact Or.inr (.outside (by rw [hcall]; rfl) rfl rfl)
    | cons e events =>
      simp only at h
      split at h
      · cases h; exact Or.inr (.outside (by rw [hcall]; rfl) rfl rfl)
      · split at h
        · cases h; exact Or.inr (.outside (by rw [hcall]; rfl) rfl rfl)
        · cases h
  | listing errand =>
    have hcall : w.call? = errand.call? := by rw [call?, hp]
    rw [hp] at h
    simp only at h
    split at h
    · next hstop =>
      cases h
      cases hheld : w.call?.bind Call.admission? with
      | some a => exact Or.inl ⟨a, hheld, hstop⟩
      | none => exact Or.inr (.outside hheld rfl rfl)
    · split at h
      · next outcome ho =>
        cases h
        refine Or.inr (.outside ?_ (by rw [call?_note]; rfl) rfl)
        rw [hcall, Errand.call?_of_outcome? (by rw [ho]; simp)]
        rfl
      · obtain ⟨x, hx, he⟩ := Option.map_eq_some_iff.mp h
        cases he
        rw [hcall]
        exact Or.inr (Errand.throughCall hx)

end Watch

/-! ### Anything at all -/

/-- Something that a client does. -/
inductive Activity : Type 1 where
  | connecting (a : Acquisition)
  | task (t : Task)
  | watch {α : Type} (w : Watch α)

namespace Activity

/-- One step of an activity, unless it waits or is over. -/
def step (setup : ClientSetup) (x : Activity) (c : Client) : Option (Activity × Client) :=
  match x with
  | .connecting a => (a.step setup.sessionPolicy c.hub).map fun r =>
    (.connecting r.1, { c with hub := r.2 })
  | .task t => (t.step setup c).map fun r => (.task r.1, r.2)
  | .watch w => (w.step setup.callPolicy c.hub.link).map fun r =>
    (.watch r.1, { c with hub := { c.hub with link := r.2 } })

/-- The call of an activity. -/
def call? : Activity → Option Call
  | .connecting a => a.call?
  | .task t => t.call?
  | .watch w => w.call?

/-- The permit that an activity holds. -/
def permit? (x : Activity) : Option Admission := x.call?.bind Call.admission?

/-- The activity is a watch that stops while its call holds the permit `a`. -/
def Abandons (x : Activity) (l : Link) (a : Admission) : Prop :=
  match x with
  | .watch w => w.Abandons l a
  | _ => False

variable {setup : ClientSetup} {x x' : Activity} {c c' : Client}

/-- A step of an activity goes through its call, unless it is a watch that abandons it. -/
theorem step_cases (h : x.step setup c = some (x', c')) :
    (∃ a, x.Abandons c.hub.link a) ∨
      ThroughCall setup.callPolicy x.call? c.hub.link x'.call? c'.hub.link := by
  cases x with
  | connecting a =>
    obtain ⟨r, hr, he⟩ := Option.map_eq_some_iff.mp h
    cases he
    exact Or.inr (Acquisition.throughCall hr)
  | task t =>
    obtain ⟨r, hr, he⟩ := Option.map_eq_some_iff.mp h
    cases he
    exact Or.inr (Task.throughCall hr)
  | watch w =>
    obtain ⟨r, hr, he⟩ := Option.map_eq_some_iff.mp h
    cases he
    exact Watch.step_cases hr

/-- With the step of a watch that abandons its call the permit is gone, and nothing is told. -/
theorem Abandons.step_eq (setup : ClientSetup) {a : Admission} (h : x.Abandons c.hub.link a) :
    x.permit? = some a ∧ ∃ x', x.step setup c = some (x', c) ∧ x'.call? = none := by
  cases x with
  | connecting _ => exact absurd h id
  | task _ => exact absurd h id
  | watch w =>
    refine ⟨h.1, .watch { w with phase := .stopped }, ?_, rfl⟩
    simp only [step, Watch.Abandons.step_eq h, Option.map_some]

end Activity

end SlurmLink
