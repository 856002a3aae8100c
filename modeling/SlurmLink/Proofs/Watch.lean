import SlurmLink.Proofs.Errand

/-!
What a step of a watch can be. `Goes` lists the steps, each with the guard under which it is taken:

    listing ──▶ delivering ──▶ resting ──▶ listing ...
       │            │             │
       └────────────┴─────────────┴──▶ stopped

A watch never changes what it watches (`Goes.same`), and it lists by the command of its subject, behind
the same gate as any errand (`Lawful`).
-/

namespace SlurmLink

namespace Watch

variable {α : Type} {p : CallPolicy} {w w' : Watch α} {l l' : Link}

/-- The steps of a watch. -/
inductive Goes (p : CallPolicy) (w : Watch α) (l : Link) : Watch α → Link → Prop where
  /-- The context is done or nobody receives, whatever the watch is doing. -/
  | stops (hs : w.mustStop l = true) : Goes p w l { w with phase := .stopped } l
  | lists {errand errand' : Errand} {l' : Link} (hp : w.phase = .listing errand)
      (ho : errand.outcome? = none) (hg : errand.Goes p l errand' l') :
      Goes p w l { w with phase := .listing errand' } l'
  /-- The listing is over, and the watch takes note of it. -/
  | notes {errand : Errand} {outcome : Except Error Answer} (hp : w.phase = .listing errand)
      (hs : w.mustStop l = false) (ho : errand.outcome? = some outcome) :
      Goes p w l (w.note outcome) l
  | delivers {e : WatchEvent α} {events : List (WatchEvent α)}
      (hp : w.phase = .delivering (e :: events)) (hroom : w.buffer.length < w.settings.capacity) :
      Goes p w l { w with buffer := w.buffer ++ [e], phase := .delivering events } l
  | rests (hp : w.phase = .delivering []) :
      Goes p w l { w with phase := .resting (l.now + w.settings.interval.ticks) } l
  /-- The next listing begins. -/
  | polls {due : Nat} (hp : w.phase = .resting due) :
      Goes p w l { w with phase := .listing (listing w.context w.session w.subject) } l

/-- There are no other steps. -/
theorem goes_of_step (h : w.step p l = some (w', l')) : Goes p w l w' l' := by
  rw [step] at h
  cases hp : w.phase with
  | stopped => rw [hp] at h; cases h
  | listing errand =>
    rw [hp] at h
    simp only at h
    split at h
    · next hs => cases h; exact .stops hs
    · next hs =>
      split at h
      · next outcome ho => cases h; exact .notes hp (Bool.eq_false_iff.mpr hs) ho
      · next ho =>
        obtain ⟨r, hr, he⟩ := Option.map_eq_some_iff.mp h
        cases he
        exact .lists hp ho (Errand.goes_of_step hr)
  | resting due =>
    rw [hp] at h
    simp only at h
    split at h
    · next hs => cases h; exact .stops hs
    · split at h
      · cases h; exact .polls hp
      · cases h
  | delivering events =>
    rw [hp] at h
    cases events with
    | nil => cases h; exact .rests hp
    | cons e events =>
      simp only at h
      split at h
      · next hs => cases h; exact .stops hs
      · split at h
        · next hroom => cases h; exact .delivers hp hroom
        · cases h

/-- Two states of one watch. -/
structure Same (w w' : Watch α) : Prop where
  session : w'.session = w.session
  subject : w'.subject = w.subject
  settings : w'.settings = w.settings

/-- What there is to tell of a listing, and the states known after it. -/
def changes (w : Watch α) (answer : Answer) : List (WatchEvent α) × Known :=
  WatchEvent.ofListing w.subject.key w.subject.state w.baseline w.known (w.subject.items answer)

theorem note_ok (answer : Answer) (w : Watch α) : w.note (.ok answer) =
    { w with
      known := (w.changes answer).2, baseline := false
      phase := .delivering (w.changes answer).1 } := by
  rw [note, changes]

theorem note_cancelled {e : Error} (h : e.kind = .cancelled) (w : Watch α) :
    w.note (.error e) = { w with phase := .stopped } := by
  simp only [note, h, if_true]

theorem note_failed {e : Error} (h : e.kind ≠ .cancelled) (w : Watch α) :
    w.note (.error e) = { w with phase := .delivering [.failed e] } := by
  simp only [note, h, if_false]

/-- Of a watch that takes note only what it knows and what it does next can change. -/
theorem note_eq (outcome : Except Error Answer) (w : Watch α) :
    ∃ known baseline phase, w.note outcome = { w with known, baseline, phase } ∧
      ∀ errand, phase ≠ .listing errand := by
  cases outcome with
  | ok answer => exact ⟨_, _, _, note_ok answer w, fun errand => nofun⟩
  | error e =>
    by_cases h : e.kind = .cancelled
    · exact ⟨_, _, _, note_cancelled h w, fun errand => nofun⟩
    · exact ⟨_, _, _, note_failed h w, fun errand => nofun⟩

/-- A watch never changes what it watches. -/
theorem Goes.same (h : Goes p w l w' l') : Same w w' := by
  cases h with
  | notes hp hs ho =>
    obtain ⟨_, _, _, he, -⟩ := note_eq _ w
    rw [he]
    exact ⟨rfl, rfl, rfl⟩
  | _ => exact ⟨rfl, rfl, rfl⟩

/-- A watch under way is one that the revision offers, and it lists by its subject's command. -/
structure Lawful (w : Watch α) : Prop where
  supported : w.session.revision.supports ⟨w.subject.resource, .watch⟩ = true
  listing : ∀ errand, w.phase = .listing errand →
    errand.Lawful ∧ errand.session = w.session ∧ errand.command = w.subject.command

theorem start_unsupported (l : Link) (c : Context) {session : Session} {subject : Subject α}
    (settings : WatchSettings) (h : session.revision.supports ⟨subject.resource, .watch⟩ = false) :
    start c session subject settings l =
      .error (.notImplemented ⟨subject.resource, .watch⟩ session.apiVersion) := by
  simp only [start, Session.ensure, h, Bool.false_eq_true, if_false]

theorem exists_start (l : Link) (c : Context) {session : Session} {subject : Subject α}
    (settings : WatchSettings) (h : session.revision.supports ⟨subject.resource, .watch⟩ = true) :
    ∃ w l', start c session subject settings l = .ok (w, l') ∧ w.session = session ∧
      w.subject = subject ∧ w.Lawful ∧ l'.breakers = l.breakers ∧ l'.sent = l.sent := by
  have hstart : start c session subject settings l = .ok ({
      context := (l.childContext c).1, session, subject, settings, baseline := !settings.initial
      phase := .listing (listing (l.childContext c).1 session subject) }, (l.childContext c).2) := by
    simp only [start, Session.ensure, h, if_true]
  refine ⟨_, _, hstart, rfl, rfl, ⟨h, ?_⟩, rfl, rfl⟩
  intro errand he
  cases he
  exact ⟨Errand.lawful_starting _ _ _, rfl, rfl⟩

theorem lawful_start {c : Context} {session : Session} {subject : Subject α}
    {settings : WatchSettings} (h : start c session subject settings l = .ok (w, l')) :
    w.Lawful := by
  cases hs : session.revision.supports ⟨subject.resource, .watch⟩ with
  | false => rw [start_unsupported l c settings hs] at h; cases h
  | true =>
    obtain ⟨w₁, l₁, hstart, -, -, hlawful, -, -⟩ := exists_start l c settings hs
    rw [hstart] at h
    cases h
    exact hlawful

theorem Lawful.goes (h : w.Lawful) (hg : Goes p w l w' l') : w'.Lawful := by
  obtain ⟨hsession, hsubject, -⟩ := hg.same
  refine ⟨by rw [hsession, hsubject]; exact h.supported, fun errand he => ?_⟩
  cases hg with
  | lists hp ho hcall =>
    cases he
    obtain ⟨hlawful, hs, hc⟩ := h.listing _ hp
    refine ⟨hlawful.goes hcall, ?_, ?_⟩
    · rw [hcall.eq_with_phase]; exact hs
    · rw [hcall.eq_with_phase]; exact hc
  | notes hp hs ho =>
    obtain ⟨_, _, _, hn, hphase⟩ := note_eq _ w
    rw [hn] at he
    exact absurd he (hphase errand)
  | polls hp => cases he; exact ⟨Errand.lawful_starting _ _ _, rfl, rfl⟩
  | stops hs => cases he
  | delivers hp hroom => cases he
  | rests hp => cases he

/-- What a watch sends is the request of its listing, after the gate, with some more headers. -/
theorem Lawful.sends (h : w.Lawful) (hg : Goes p w l w' l') (hsent : l'.sent ≠ l.sent) :
    w.subject.command.Passes w.session ∧ ∃ request headers,
      w.subject.command.prepare w.session = .ok (some request) ∧
      l'.sent = l.sent ++ [⟨l.now, { request with headers := request.headers ++ headers }⟩] := by
  cases hg with
  | lists hp ho hcall =>
    obtain ⟨hlawful, hs, hc⟩ := h.listing _ hp
    rw [← hs, ← hc]
    exact hlawful.sends hcall hsent
  | _ => exact absurd rfl hsent

end Watch

end SlurmLink
