import SlurmLink.Proofs.ChangeReplay
import SlurmLink.Proofs.Schedule
import SlurmLink.Proofs.Watch
import SlurmLink.Watch.Receiver

/-!
The events of a watch as a log of changes. A watch is followed together with the listings that it took
note of and the events that were received (`Vigil`):

    listings told   e₁ e₂ │ e₃ │ e₄ e₅ e₆
                    ──────────────┬──────┬───
                    received      │buffer│ still to be delivered

Nothing is lost or told twice on the way, and what the listings tell is a replay from one listing to the
next (`Poll.Tells`), which a listing that fails leaves where it is. `changes_faithful` puts both
together, for any links that the poller finds and any moments at which events are received.
-/

namespace SlurmLink

open WatchEvent

variable {α : Type}

/-- What an answer says of the subject: the state of each key that is listed. -/
def Subject.table (subject : Subject α) (answer : Answer) : View :=
  View.ofItems subject.key subject.state (subject.items answer)

/-- A listing that a watch took note of, and the events it made of it. -/
structure Poll (α : Type) where
  outcome : Except Error Answer
  events : List (WatchEvent α)

namespace Poll

variable {subject : Subject α} {first last between : Bool} {view final middle : View}
  {polls more : List (Poll α)}

/-- What listings tell, from a view to the next. While there is nothing to compare with (`first`), an
    answer is only taken as it is. -/
inductive Tells (subject : Subject α) : Bool → View → List (Poll α) → Bool → View → Prop where
  | nil {first : Bool} {view : View} : Tells subject first view [] first view
  | listed {first last : Bool} {view final : View} {answer : Answer} {events : List (WatchEvent α)}
      {rest : List (Poll α)}
      (h : first = false →
        Replay subject.key subject.state view events (subject.table answer))
      (hrest : Tells subject false (subject.table answer) rest last final) :
      Tells subject first view (⟨.ok answer, events⟩ :: rest) last final
  | failed {first last : Bool} {view final : View} {e : Error} {events : List (WatchEvent α)}
      {rest : List (Poll α)} (h : events = if e.kind = .cancelled then [] else [.failed e])
      (hrest : Tells subject first view rest last final) :
      Tells subject first view (⟨.error e, events⟩ :: rest) last final

theorem Tells.append (h : Tells subject first view polls between middle)
    (h' : Tells subject between middle more last final) :
    Tells subject first view (polls ++ more) last final := by
  induction h with
  | nil => exact h'
  | listed hreplay hrest ih => exact .listed hreplay (ih h')
  | failed hevents hrest ih => exact .failed hevents (ih h')

theorem Tells.split : ∀ {polls : List (Poll α)} {first : Bool} {view : View},
    Tells subject first view (polls ++ more) last final → ∃ between middle,
      Tells subject first view polls between middle ∧ Tells subject between middle more last final
  | [], _, _, h => ⟨_, _, .nil, h⟩
  | _ :: _, _, _, .listed hreplay hrest => by
    obtain ⟨between, middle, hl, hr⟩ := Tells.split hrest
    exact ⟨between, middle, .listed hreplay hl, hr⟩
  | _ :: _, _, _, .failed hevents hrest => by
    obtain ⟨between, middle, hl, hr⟩ := Tells.split hrest
    exact ⟨between, middle, .failed hevents hl, hr⟩

/-- A failure tells of itself, unless the listing was cancelled. -/
theorem Tells.events_of_failed (h : Tells subject first view polls last final) {poll : Poll α}
    (hpoll : poll ∈ polls) {e : Error} (he : poll.outcome = .error e) :
    poll.events = if e.kind = .cancelled then [] else [.failed e] := by
  induction h with
  | nil => cases hpoll
  | listed hreplay hrest ih =>
    rcases List.mem_cons.mp hpoll with rfl | hpoll
    · cases he
    · exact ih hpoll
  | failed hevents hrest ih =>
    rcases List.mem_cons.mp hpoll with rfl | hpoll
    · cases he; exact hevents
    · exact ih hpoll

/-- Failures leave the view where it is, and the first answer is still to come. -/
theorem Tells.eq_of_failed (h : Tells subject first view polls last final)
    (hfailed : ∀ poll ∈ polls, ∃ e, poll.outcome = .error e) : last = first ∧ final = view := by
  induction h with
  | nil => exact ⟨rfl, rfl⟩
  | listed hreplay hrest ih =>
    obtain ⟨e, he⟩ := hfailed _ List.mem_cons_self
    cases he
  | failed hevents hrest ih => exact ih fun poll hpoll => hfailed poll (List.mem_cons_of_mem _ hpoll)

/-- From the first answer on, all events together are one replay. -/
theorem Tells.replay (h : Tells subject first view polls last final) (hfirst : first = false) :
    last = false ∧ Replay subject.key subject.state view (polls.flatMap Poll.events) final := by
  induction h with
  | nil => exact ⟨hfirst, .nil⟩
  | listed hreplay hrest ih =>
    obtain ⟨hlast, hmore⟩ := ih rfl
    exact ⟨hlast, (hreplay hfirst).append hmore⟩
  | failed hevents hrest ih =>
    obtain ⟨hlast, hmore⟩ := ih hfirst
    refine ⟨hlast, Replay.append (Replay.failures fun event hevent => ?_) hmore⟩
    rw [hevents] at hevent
    split at hevent
    · cases hevent
    · exact ⟨_, List.mem_singleton.mp hevent⟩

/-- Once there is something to compare with, the events up to a listing replay to what it has found. -/
theorem Tells.replay_listed {answer : Answer} {told : List (WatchEvent α)}
    (h : Tells subject false view (polls ++ ⟨.ok answer, told⟩ :: more) last final) :
    Replay subject.key subject.state view (polls.flatMap Poll.events ++ told)
      (subject.table answer) := by
  obtain ⟨between, middle, hbefore, hafter⟩ := h.split
  obtain ⟨rfl, hreplay⟩ := hbefore.replay rfl
  cases hafter with
  | listed hthis hrest => exact hreplay.append (hthis rfl)

end Poll

/-! ### Following a watch -/

/-- The events of a listing that are still to be delivered. -/
def Watch.pending (w : Watch α) : List (WatchEvent α) :=
  match w.phase with
  | .delivering events => events
  | _ => []

theorem Watch.pending_of_not_delivering {w : Watch α} (h : ∀ events, w.phase ≠ .delivering events) :
    w.pending = [] := by
  rw [pending]
  split
  · next events hp => exact absurd hp (h events)
  · rfl

/-- The outcome of its listing that a watch takes note of with its next step, if it does. -/
def Watch.noted? (w : Watch α) (l : Link) : Option (Except Error Answer) :=
  match w.phase with
  | .listing errand => if w.mustStop l then none else errand.outcome?
  | _ => none

theorem Watch.noted?_of_listing {w : Watch α} {errand : Errand} (h : w.phase = .listing errand)
    (l : Link) : w.noted? l = if w.mustStop l then none else errand.outcome? := by
  rw [noted?, h]

/-- A watch that is followed. -/
structure Vigil (α : Type) where
  watch : Watch α
  /-- The listings that the watch took note of. -/
  polls : List (Poll α) := []
  received : List (WatchEvent α) := []

/-- What happens to a watch that is followed. -/
inductive VigilEvent where
  /-- The poller makes a step, with the link as others have left it. -/
  | advance (l : Link)
  | receive

namespace Vigil

variable {p : CallPolicy} {subject : Subject α} {initial : Bool} {v : Vigil α} {l : Link}

/-- One event. A poller that waits stays as it is, and so does a receiver that finds nothing. -/
def step (p : CallPolicy) (v : Vigil α) : VigilEvent → Vigil α
  | .advance l =>
    match v.watch.step p l with
    | none => v
    | some (w, _) =>
      { v with watch := w, polls := v.polls ++ (v.watch.noted? l).toList.map (⟨·, w.pending⟩) }
  | .receive =>
    match v.watch.receive with
    | none => v
    | some (e, w) => { v with watch := w, received := v.received ++ [e] }

/-- The vigil after some events. -/
def after (p : CallPolicy) (v : Vigil α) (events : List VigilEvent) : Vigil α :=
  events.foldl (step p) v

/-- What holds of a watch that is followed from its start. -/
structure Sound (subject : Subject α) (initial : Bool) (v : Vigil α) : Prop where
  watches : v.watch.subject = subject
  receiving : v.watch.receiving = true
  nodup : (v.watch.known.map Prod.fst).Nodup
  tells : Poll.Tells subject (!initial) (fun _ => none) v.polls v.watch.baseline v.watch.known.view
  kept : ∃ rest, v.polls.flatMap Poll.events = v.received ++ v.watch.buffer ++ rest ∧
    (v.watch.phase ≠ .stopped → rest = v.watch.pending)

theorem sound_start {c : Context} {session : Session} {settings : WatchSettings} {w : Watch α}
    {l' : Link} (h : Watch.start c session subject settings l = .ok (w, l')) :
    Sound subject settings.initial { watch := w } := by
  rw [Watch.start] at h
  split at h
  · cases h
  · cases h
    exact ⟨rfl, rfl, List.nodup_nil, .nil, [], rfl, fun _ => rfl⟩

/-- A step that learns nothing and neither finds nor delivers an event. -/
theorem Sound.idle (h : v.Sound subject initial) (phase : PollerPhase α)
    (hgoing : phase ≠ .stopped → v.watch.phase ≠ .stopped) (hpending : v.watch.pending = [])
    (hphase : ∀ events, phase ≠ .delivering events) :
    Sound subject initial { v with watch := { v.watch with phase } } := by
  obtain ⟨rest, hkept, hrest⟩ := h.kept
  refine ⟨h.watches, h.receiving, h.nodup, h.tells, rest, hkept, fun hstopped => ?_⟩
  rw [hrest (hgoing hstopped), hpending, Watch.pending_of_not_delivering hphase]

/-- A poller that stops drops what it has not delivered. -/
theorem Sound.stop (h : v.Sound subject initial) :
    Sound subject initial { v with watch := { v.watch with phase := .stopped } } := by
  obtain ⟨rest, hkept, -⟩ := h.kept
  exact ⟨h.watches, h.receiving, h.nodup, h.tells, rest, hkept, fun hstopped => absurd rfl hstopped⟩

/-- Taking note of a listing adds it to the record, with what there is to tell of it. -/
theorem Sound.note (h : v.Sound subject initial) (hgoing : v.watch.phase ≠ .stopped)
    (hpending : v.watch.pending = []) (outcome : Except Error Answer) :
    Sound subject initial { v with
      watch := v.watch.note outcome
      polls := v.polls ++ [⟨outcome, (v.watch.note outcome).pending⟩] } := by
  obtain ⟨rest, hkept, hrest⟩ := h.kept
  rw [hrest hgoing, hpending, List.append_nil] at hkept
  have hall : ∀ poll : Poll α, (v.polls ++ [poll]).flatMap Poll.events =
      v.received ++ v.watch.buffer ++ poll.events := by
    intro poll
    rw [List.flatMap_append, hkept, List.flatMap_singleton]
  cases outcome with
  | ok answer =>
    rw [Watch.note_ok]
    have htable : (v.watch.changes answer).2.view = subject.table answer := by
      rw [Watch.changes, h.watches]
      exact Known.view_ofListing _ _ _
    refine ⟨h.watches, h.receiving, ?_, h.tells.append ?_, _, hall _, fun _ => rfl⟩
    · exact Known.nodup_ofListing _ h.nodup _
    · rw [htable]
      refine .listed (fun hbaseline => ?_) .nil
      simp only [Watch.pending, Watch.changes, hbaseline, h.watches]
      exact Known.replay_ofListing h.nodup _
  | error e =>
    by_cases he : e.kind = .cancelled
    · rw [Watch.note_cancelled he]
      refine ⟨h.watches, h.receiving, h.nodup, h.tells.append (.failed ?_ .nil), _, hall _,
        fun hstopped => absurd rfl hstopped⟩
      rw [if_pos he]
      rfl
    · rw [Watch.note_failed he]
      refine ⟨h.watches, h.receiving, h.nodup, h.tells.append (.failed ?_ .nil), _, hall _,
        fun _ => rfl⟩
      rw [if_neg he]
      rfl

/-- A step that takes note of nothing leaves the record of the listings as it is. -/
theorem step_advance {w : Watch α} {l' : Link} (h : v.watch.step p l = some (w, l'))
    (hnoted : v.watch.noted? l = none) : v.step p (.advance l) = { v with watch := w } := by
  simp only [step, h, hnoted, Option.toList_none, List.map_nil, List.append_nil]

/-- A step that takes note of a listing. -/
theorem step_noted {outcome : Except Error Answer} (h : v.watch.noted? l = some outcome) :
    v.step p (.advance l) = { v with
      watch := v.watch.note outcome
      polls := v.polls ++ [⟨outcome, (v.watch.note outcome).pending⟩] } := by
  have hstep : v.watch.step p l = some (v.watch.note outcome, l) := by
    rw [Watch.noted?] at h
    split at h
    · next errand hp =>
      split at h
      · cases h
      · next hs => simp only [Watch.step, hp, hs, h, Bool.false_eq_true, if_false]
    · cases h
  simp only [step, hstep, h, Option.toList_some, List.map_cons, List.map_nil]

theorem Sound.advance (h : v.Sound subject initial) (l : Link) :
    Sound subject initial (v.step p (.advance l)) := by
  cases hstep : v.watch.step p l with
  | none =>
    simp only [step, hstep]
    exact h
  | some r =>
    obtain ⟨w, l'⟩ := r
    cases Watch.goes_of_step hstep with
    | stops hs =>
      have hnoted : v.watch.noted? l = none := by
        rw [Watch.noted?]
        split
        · rw [if_pos hs]
        · rfl
      rw [step_advance hstep hnoted]
      exact h.stop
    | lists hp ho hg =>
      have hnoted : v.watch.noted? l = none := by
        rw [Watch.noted?_of_listing hp, ho, ite_self]
      rw [step_advance hstep hnoted]
      exact h.idle _ (by simp [hp]) (by rw [Watch.pending, hp]) (by simp)
    | @notes errand outcome hp hs ho =>
      have hnoted : v.watch.noted? l = some outcome := by
        rw [Watch.noted?_of_listing hp, hs, ho]
        rfl
      rw [step_noted hnoted]
      exact h.note (by simp [hp]) (by rw [Watch.pending, hp]) outcome
    | rests hp =>
      rw [step_advance hstep (by rw [Watch.noted?, hp])]
      exact h.idle _ (by simp [hp]) (by rw [Watch.pending, hp]) (by simp)
    | polls hp =>
      rw [step_advance hstep (by rw [Watch.noted?, hp])]
      exact h.idle _ (by simp [hp]) (by rw [Watch.pending, hp]) (by simp)
    | @delivers e events hp hroom =>
      obtain ⟨rest, hkept, hrest⟩ := h.kept
      rw [hrest (by simp [hp]), Watch.pending, hp] at hkept
      rw [step_advance hstep (by rw [Watch.noted?, hp])]
      refine ⟨h.watches, h.receiving, h.nodup, h.tells, events, ?_, fun _ => rfl⟩
      rw [hkept]
      simp

theorem Sound.receive (h : v.Sound subject initial) :
    Sound subject initial (v.step p .receive) := by
  simp only [step, Watch.receive]
  cases hb : v.watch.buffer with
  | nil => exact h
  | cons e rest =>
    obtain ⟨left, hkept, hleft⟩ := h.kept
    refine ⟨h.watches, h.receiving, h.nodup, h.tells, left, ?_, hleft⟩
    rw [hkept, hb]
    simp

theorem Sound.step (h : v.Sound subject initial) : ∀ e, Sound subject initial (v.step p e)
  | .advance l => h.advance l
  | .receive => h.receive

theorem Sound.after : ∀ (events : List VigilEvent) {v : Vigil α}, v.Sound subject initial →
    Sound subject initial (v.after p events)
  | [], _, h => h
  | e :: events, _, h => Sound.after events (h.step e)

/-! ### Receiving everything -/

theorem after_append (v : Vigil α) (events more : List VigilEvent) :
    v.after p (events ++ more) = (v.after p events).after p more := List.foldl_append

/-- Receiving as often as there are events in the buffer empties it. -/
theorem after_receive : ∀ (buffer : List (WatchEvent α)) {v : Vigil α}, v.watch.buffer = buffer →
    v.after p (List.replicate buffer.length .receive) =
      { v with watch := { v.watch with buffer := [] }, received := v.received ++ buffer }
  | [], v, h => by
    obtain ⟨w, polls, received⟩ := v
    obtain ⟨context, session, subject, settings, known, baseline, phase, buffer, receiving⟩ := w
    cases h
    simp only [List.append_nil]
    rfl
  | e :: buffer, v, h => by
    have hstep : v.step p .receive =
        { v with watch := { v.watch with buffer }, received := v.received ++ [e] } := by
      simp only [step, Watch.receive, h]
    show (v.step p .receive).after p (List.replicate buffer.length .receive) = _
    rw [hstep, after_receive buffer rfl]
    simp

/-- The buffer of a watch has room for one event at least. -/
theorem capacity_pos (settings : WatchSettings) : 0 < settings.capacity :=
  Nat.lt_of_lt_of_le Nat.zero_lt_one (Nat.le_max_right settings.buffer 1)

/-- A poller that need not stop puts its next event into an empty buffer, where it is received. -/
theorem after_advance_receive {e : WatchEvent α} {events : List (WatchEvent α)}
    (hphase : v.watch.phase = .delivering (e :: events)) (hbuffer : v.watch.buffer = [])
    (hstop : v.watch.mustStop l = false) : v.after p [.advance l, .receive] =
      { v with
        watch := { v.watch with phase := .delivering events, buffer := [] }
        received := v.received ++ [e] } := by
  have hstep : v.watch.step p l =
      some ({ v.watch with buffer := [e], phase := .delivering events }, l) := by
    rw [Watch.step, hphase]
    simp only [hstop, Bool.false_eq_true, if_false, hbuffer, List.length_nil,
      capacity_pos v.watch.settings, if_true, List.nil_append]
  have hadvance := step_advance hstep (by rw [Watch.noted?, hphase])
  show (v.step p (.advance l)).step p .receive = _
  rw [hadvance]
  rfl

/-- All events that a poller has left to deliver can be received one by one. -/
theorem exists_delivers : ∀ (events : List (WatchEvent α)) {v : Vigil α},
    v.watch.phase = .delivering events → v.watch.buffer = [] → v.watch.mustStop l = false →
      ∃ more : List VigilEvent, (∀ e ∈ more, e = .receive ∨ e = .advance l) ∧
        (v.after p more).polls = v.polls ∧ (v.after p more).received = v.received ++ events
  | [], v, _, _, _ => ⟨[], by simp, rfl, (List.append_nil _).symm⟩
  | e :: events, v, hphase, hbuffer, hstop => by
    have hnext := after_advance_receive (p := p) hphase hbuffer hstop
    obtain ⟨more, hmore, hpolls, hreceived⟩ := exists_delivers events
      (v := v.after p [.advance l, .receive]) (by rw [hnext]) (by rw [hnext])
      (by rw [hnext]; exact hstop)
    refine ⟨[.advance l, .receive] ++ more, ?_, ?_, ?_⟩
    · intro e he
      rcases List.mem_append.mp he with he | he
      · simp only [List.mem_cons, List.not_mem_nil, or_false] at he
        exact he.symm
      · exact hmore e he
    · rw [after_append, hpolls, hnext]
    · rw [after_append, hreceived, hnext, List.append_assoc, List.singleton_append]

/-- A receiver that keeps receiving gets everything that the listings have told, as long as the poller
    need not stop. -/
theorem Sound.exists_receives (h : v.Sound subject initial) (hgoing : v.watch.phase ≠ .stopped)
    (hstop : v.watch.mustStop l = false) :
    ∃ more : List VigilEvent, (∀ e ∈ more, e = .receive ∨ e = .advance l) ∧
      (v.after p more).polls = v.polls ∧
      (v.after p more).received = v.polls.flatMap Poll.events := by
  obtain ⟨rest, hkept, hrest⟩ := h.kept
  have hempty := after_receive (p := p) v.watch.buffer rfl
  obtain ⟨more, hmore, hpolls, hreceived⟩ : ∃ more : List VigilEvent,
      (∀ e ∈ more, e = .receive ∨ e = .advance l) ∧
      ((v.after p (List.replicate v.watch.buffer.length .receive)).after p more).polls = v.polls ∧
      ((v.after p (List.replicate v.watch.buffer.length .receive)).after p more).received =
        v.received ++ v.watch.buffer ++ v.watch.pending := by
    rw [hempty]
    cases hp : v.watch.phase with
    | delivering events =>
      rw [Watch.pending, hp]
      exact exists_delivers events hp rfl hstop
    | _ => exact ⟨[], by simp, rfl, by rw [Watch.pending, hp, List.append_nil]; rfl⟩
  refine ⟨List.replicate v.watch.buffer.length .receive ++ more, fun e he => ?_, ?_, ?_⟩
  · rcases List.mem_append.mp he with he | he
    · exact .inl (List.eq_of_mem_replicate he)
    · exact hmore e he
  · rw [after_append, hpolls]
  · rw [after_append, hreceived, hkept, hrest hgoing]

/-- A poller stops of itself only when its context is done or its listing was cancelled. -/
theorem stopped_iff (hgoing : v.watch.phase ≠ .stopped)
    (hstop : v.watch.mustStop l = false) : (v.step p (.advance l)).watch.phase = .stopped ↔
      ∃ e, v.watch.noted? l = some (.error e) ∧ e.kind = .cancelled := by
  constructor
  · intro hstopped
    cases hstep : v.watch.step p l with
    | none => simp only [step, hstep] at hstopped; exact absurd hstopped hgoing
    | some r =>
      obtain ⟨w, l'⟩ := r
      have hphase : w.phase = .stopped := by simpa only [step, hstep] using hstopped
      cases Watch.goes_of_step hstep with
      | stops hs => exact absurd (hs.symm.trans hstop) nofun
      | @notes errand outcome hp hs ho =>
        have hnoted : v.watch.noted? l = some outcome := by
          rw [Watch.noted?_of_listing hp, hs, ho]
          rfl
        cases outcome with
        | ok answer => rw [Watch.note_ok] at hphase; cases hphase
        | error e =>
          by_cases he : e.kind = .cancelled
          · exact ⟨e, hnoted, he⟩
          · rw [Watch.note_failed he] at hphase; cases hphase
      | _ => cases hphase
  · rintro ⟨e, hnoted, he⟩
    rw [step_noted hnoted, Watch.note_cancelled he]

/-! ### The log -/

/-- The events of a watch are a faithful log of what its listings have found, whatever the links are
    that the poller finds, and whenever events are received.

    - What the listings have told is received in order, without a gap: what is not received yet is in
      the buffer or still with the poller.
    - While the context is not done, the poller goes on unless its listing was cancelled, and who keeps
      receiving gets everything.
    - A listing that fails tells of that and of nothing else, and one that is cancelled tells nothing.
    - What is known is what the last successful listing has found, and until there is one, nothing.
    - From one successful listing to any later one, the events replay from what the one has found to
      what the other has; with `initial` they do so from nothing on. -/
theorem changes_faithful {c : Context} {session : Session} {settings : WatchSettings} {w : Watch α}
    {l' : Link} (h : Watch.start c session subject settings l = .ok (w, l')) (p : CallPolicy)
    (events : List VigilEvent) :
    let v := after p { watch := w } events
    (∃ rest, v.polls.flatMap Poll.events = v.received ++ v.watch.buffer ++ rest ∧
      (v.watch.phase ≠ .stopped → rest = v.watch.pending)) ∧
    (∀ l, v.watch.phase ≠ .stopped → v.watch.context.check l.tokens l.now = none →
      ((v.step p (.advance l)).watch.phase = .stopped ↔
        ∃ e, v.watch.noted? l = some (.error e) ∧ e.kind = .cancelled) ∧
      ∃ more : List VigilEvent, (∀ e ∈ more, e = .receive ∨ e = .advance l) ∧
        (v.after p more).polls = v.polls ∧
        (v.after p more).received = v.polls.flatMap Poll.events) ∧
    (∀ poll ∈ v.polls, ∀ e, poll.outcome = .error e →
      poll.events = if e.kind = .cancelled then [] else [.failed e]) ∧
    ((∀ poll ∈ v.polls, ∃ e, poll.outcome = .error e) →
      v.watch.baseline = !settings.initial ∧ v.watch.known.view = fun _ => none) ∧
    (∀ done answer told rest, v.polls = done ++ ⟨.ok answer, told⟩ :: rest →
      (∀ poll ∈ rest, ∃ e, poll.outcome = .error e) →
        v.watch.baseline = false ∧ v.watch.known.view = subject.table answer) ∧
    (settings.initial = true → ∀ done answer told rest,
      v.polls = done ++ ⟨.ok answer, told⟩ :: rest →
        Replay subject.key subject.state (fun _ => none) (done.flatMap Poll.events ++ told)
          (subject.table answer)) ∧
    (∀ before base unseen between answer told rest,
      v.polls = before ++ ⟨.ok base, unseen⟩ :: (between ++ ⟨.ok answer, told⟩ :: rest) →
        Replay subject.key subject.state (subject.table base)
          (between.flatMap Poll.events ++ told) (subject.table answer)) := by
  intro v
  have hsound : v.Sound subject settings.initial := (sound_start h).after events
  refine ⟨hsound.kept, fun l hgoing hcheck => ?_, fun poll hpoll e he => ?_, fun hfailed => ?_,
    fun done answer told rest hpolls hfailed => ?_, fun hinitial done answer told rest hpolls => ?_,
    fun before base unseen between answer told rest hpolls => ?_⟩
  · have hstop : v.watch.mustStop l = false := by
      rw [Watch.mustStop, hcheck, hsound.receiving]
      rfl
    exact ⟨stopped_iff hgoing hstop, hsound.exists_receives hgoing hstop⟩
  · exact hsound.tells.events_of_failed hpoll he
  · exact hsound.tells.eq_of_failed hfailed
  · have htells := hsound.tells
    rw [hpolls] at htells
    obtain ⟨between, middle, -, hafter⟩ := htells.split
    cases hafter with
    | listed hthis hrest => exact hrest.eq_of_failed hfailed
  · have htells := hsound.tells
    rw [hpolls, hinitial] at htells
    exact htells.replay_listed
  · have htells := hsound.tells
    rw [hpolls] at htells
    obtain ⟨first, view, -, hafter⟩ := htells.split
    cases hafter with
    | listed hthis hrest => exact hrest.replay_listed

/-! ### A watch through an outage -/

/-- A server whose next answer is this one. -/
def serving (now : Nat) (body : String) : Link where
  now
  server := { script := [⟨.ok ⟨200, Text.Utf8.encode body.toList⟩, 0⟩] }

/-- A server that cannot be reached. -/
def unreachable (now : Nat) : Link where
  now
  server := { script := [⟨.error (.connect "refused"), 0⟩] }

def nodeSession : Session := ⟨0, .v42, "http://slurm.test", none⟩

/-- A watch of nodes, just started. -/
def nodeWatch : Watch Node where
  context := ⟨1, none⟩
  session := nodeSession
  subject := Subject.nodes
  settings := {}
  baseline := true
  phase := .listing { context := ⟨1, none⟩, session := nodeSession, command := .listNodes {} }

/-- Four listings, ten seconds apart: the server is down, then lists the nodes `a` and `b`, is down
    again, and then lists `a` in another state, a new node `c`, and `a` once more. -/
def outage : List VigilEvent :=
  List.replicate 8 (.advance (unreachable 0)) ++
  List.replicate 8 (.advance (serving 10000 "\x7b\"nodes\":[
    \x7b\"name\":\"a\",\"state\":[\"IDLE\"]\x7d,\x7b\"name\":\"b\",\"state\":[\"IDLE\"]\x7d]\x7d")) ++
  List.replicate 9 (.advance (unreachable 20000)) ++
  List.replicate 12 (.advance (serving 30000 "\x7b\"nodes\":[
    \x7b\"name\":\"a\",\"state\":[\"DOWN\"]\x7d,\x7b\"name\":\"c\",\"state\":[\"IDLE\"]\x7d,
    \x7b\"name\":\"a\",\"state\":[\"DRAIN\"]\x7d]\x7d")) ++
  List.replicate 6 .receive

/-- What a listing says of three nodes, and how many events were made of it. -/
def outline (poll : Poll Node) : Option (List (Option String)) × Nat :=
  (poll.outcome.toOption.map fun answer => ["a", "b", "c"].map (Subject.nodes.table answer),
    poll.events.length)

/-- The watch in the end, with all that was received. -/
def outageVigil : Vigil Node := after { retry := .noRetry } { watch := nodeWatch } outage

theorem outline_outageVigil : outageVigil.polls.map outline =
    [(none, 1), (some [some "IDLE", some "IDLE", none], 0), (none, 1),
      (some [some "DRAIN", none, some "IDLE"], 4)] := by
  decide +kernel

/-- The second failure and the four changes lead from what was listed before the outage to what is listed
    after it. -/
theorem changes_faithful_outage :
    (∃ l', Watch.start ⟨0, none⟩ nodeSession Subject.nodes {} (Link.newContext {}).2 =
      .ok (nodeWatch, l')) ∧
    ∃ down before again after unseen told,
      outageVigil.polls = [down, ⟨.ok before, unseen⟩, again, ⟨.ok after, told⟩] ∧
      ["a", "b", "c"].map (Subject.nodes.table before) = [some "IDLE", some "IDLE", none] ∧
      ["a", "b", "c"].map (Subject.nodes.table after) = [some "DRAIN", none, some "IDLE"] ∧
      again.events.length = 1 ∧ told.length = 4 ∧
      Replay Subject.nodes.key Subject.nodes.state (Subject.nodes.table before)
        (again.events ++ told) (Subject.nodes.table after) := by
  have hstart : Watch.start ⟨0, none⟩ nodeSession Subject.nodes {} (Link.newContext {}).2 =
      .ok (nodeWatch, ((Link.newContext {}).2.childContext ⟨0, none⟩).2) := rfl
  obtain ⟨down, _, hpolls, -, hrest⟩ := List.map_eq_cons_iff.mp outline_outageVigil
  obtain ⟨⟨base, unseen⟩, _, rfl, hbase, hrest⟩ := List.map_eq_cons_iff.mp hrest
  obtain ⟨again, _, rfl, hagain, hrest⟩ := List.map_eq_cons_iff.mp hrest
  obtain ⟨⟨answer, told⟩, _, rfl, hanswer, hrest⟩ := List.map_eq_cons_iff.mp hrest
  obtain rfl := List.map_eq_nil_iff.mp hrest
  simp only [outline, Prod.mk.injEq] at hbase hagain hanswer
  cases base with
  | error e => cases hbase.1
  | ok before =>
    cases answer with
    | error e => cases hanswer.1
    | ok after =>
      obtain ⟨-, -, -, -, -, -, hreplay⟩ := changes_faithful hstart { retry := .noRetry } outage
      refine ⟨⟨_, hstart⟩, down, before, again, after, unseen, told, hpolls,
        Option.some.inj hbase.1, Option.some.inj hanswer.1, hagain.2, hanswer.2, ?_⟩
      simpa using hreplay [down] before unseen [again] after told [] hpolls

end Vigil

/-! ### Receivers -/

namespace Receiver

variable {p : CallPolicy} {r r' : Receiver α} {v : Vigil α} {l l' : Link}

/-- A receiver has received what a vigil has, and until it stops both are about the same watch. -/
structure Sees (r : Receiver α) (v : Vigil α) : Prop where
  received : v.received = r.received.map Prod.snd
  watch : r.ending = none → v.watch = r.watch

theorem Sees.step (h : r.Sees v) (hstep : r.step p l = some (r', l')) :
    ∃ events, r'.Sees (v.after p events) := by
  rw [Receiver.step] at hstep
  split at hstep
  · cases hstep
  · next hending =>
    have hwatch := h.watch hending
    split at hstep
    · next s hact =>
      cases hstep
      -- who stops receiving has received what it has, and looks no further
      have hstops : ∀ ending, (r.finish ending).Sees v := fun ending => ⟨h.received, nofun⟩
      simp only [act] at hact
      split at hact
      · cases hact
      split at hact
      · cases hact; exact ⟨[], hstops .enough⟩
      split at hact
      · next e watch hreceive =>
        cases hact
        have hv : v.step p .receive = { v with watch, received := v.received ++ [e] } := by
          simp only [Vigil.step, hwatch, hreceive]
        refine ⟨[.receive], ?_, fun _ => ?_⟩
        · show (v.step p .receive).received = _
          rw [hv, h.received, List.map_append]
          rfl
        · show (v.step p .receive).watch = _
          rw [hv]
      · split at hact
        · cases hact; exact ⟨[], hstops .closed⟩
        split at hact
        · cases hact; exact ⟨[], hstops .timeOver⟩
        · cases hact
    · obtain ⟨⟨watch, l₁⟩, hw, he⟩ := Option.map_eq_some_iff.mp hstep
      cases he
      have hv : v.step p (.advance l) = { v with
          watch, polls := v.polls ++ (v.watch.noted? l).toList.map (⟨·, watch.pending⟩) } := by
        simp only [Vigil.step, hwatch, hw]
      refine ⟨[.advance l], ?_, fun _ => ?_⟩
      · show (v.step p (.advance l)).received = _
        rw [hv, h.received]
      · show (v.step p (.advance l)).watch = _
        rw [hv]

/-- Whatever a receiver has received, at any moment of its run, is what some vigil of its watch has, so
    that it has a faithful log. -/
theorem exists_vigil (h : r.Sees v) (l : Link) : ∀ n, ∃ r' events,
    ((machine p).run n [r] l).1 = [r'] ∧ r'.Sees (v.after p events)
  | 0 => ⟨r, [], rfl, h⟩
  | n + 1 => by
    obtain ⟨s, events, hrun, hsees⟩ := exists_vigil h l n
    rw [Machine.run_succ, Machine.tick]
    cases hnext : (machine p).next ((machine p).run n [r] l).1 ((machine p).run n [r] l).2 with
    | none => exact ⟨s, events, hrun, hsees⟩
    | some x =>
      rw [hrun] at hnext
      rcases (machine p).next_cases hnext with ⟨i, t, t', hi, hstep, hset, -⟩ | ⟨-, _, _, -, hx, -⟩
      · obtain ⟨rfl, rfl⟩ : i = 0 ∧ s = t := by simpa [List.getElem?_singleton] using hi
        obtain ⟨more, hmore⟩ := hsees.step hstep
        exact ⟨t', events ++ more, hset, by rw [Vigil.after_append]; exact hmore⟩
      · rw [hx]
        exact ⟨s, events, rfl, hsees⟩

end Receiver

end SlurmLink
