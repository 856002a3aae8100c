import Mathlib.Order.Bounds.Basic
import SlurmLink.Proofs.Backoff
import SlurmLink.Proofs.CallRun

/-!
The attempts of a call that nobody cancels. What attempt `i` is told, by the credentials and by the
server, and when it begins can be written down without running anything, as if no attempt were the last
one and there were a wait after each:

    begins 0 ─ duration 0 ─▶ rest 0 ─▶ begins 1 ─ duration 1 ─▶ rest 1 ─▶ begins 2 ...

`attempts_exact` says that the call makes just these attempts, up to the first one whose outcome is
final, to the last one that the policy allows, or to the first one after which there would have to be a
wait and is none. It returns the outcome of that attempt, but in the third case it panics. That case
does not come about if the waits are spread by no more than themselves; with a wider spread it may
(`wide_spread_panics`).
-/

namespace SlurmLink

namespace Call

/-- An outcome that another try would not mend. -/
def IsFinal : Except Failure Response → Prop
  | .ok _ => True
  | .error f => f.isRetryable = false

theorem isLast_iff {p : CallPolicy} {k : Nat} {outcome : Except Failure Response} :
    IsLast p k outcome ↔ IsFinal outcome ∨ p.retry.maxAttempts ≤ k + 1 := by
  cases outcome with
  | ok r => exact ⟨fun _ => Or.inl trivial, fun _ => isLast_ok r k⟩
  | error f =>
    rw [IsFinal]
    constructor
    · intro h
      cases hr : f.isRetryable with
      | false => exact Or.inl rfl
      | true => exact Or.inr (h f rfl hr)
    · rintro (hf | hk) g hg hr
      · cases hg; rw [hf] at hr; cases hr
      · exact hk

/-! ### The attempts as they would be -/

section

variable (p : CallPolicy) (c : Call) (l : Link) (rest : Nat → Nat)

/-- The server as attempt `i` finds it. An attempt without credentials leaves it alone. -/
def serverAt : Nat → Server
  | 0 => l.server
  | i + 1 =>
    match p.credentials.answer (l.queries + i) with
    | .ok _ => ((serverAt i).deliver c.request.url).2
    | .error _ => serverAt i

/-- What the server has for attempt `i`. -/
def deliveryAt (i : Nat) : Delivery := ((serverAt p c l i).deliver c.request.url).1

/-- What attempt `i` comes to. -/
def outcomeAt (i : Nat) : Except Failure Response :=
  match p.credentials.answer (l.queries + i) with
  | .ok _ => judge (deliveryAt p c l i).outcome
  | .error e => .error (.auth e)

/-- The request of attempt `i`: the call's own, and the credentials after its own headers. -/
def requestAt (i : Nat) : Option Request :=
  match p.credentials.answer (l.queries + i) with
  | .ok headers => some { c.request with headers := c.request.headers ++ headers }
  | .error _ => none

/-- How long attempt `i` waits for its credentials. -/
def asking (i : Nat) : Nat := p.credentials.latency (l.queries + i)

/-- How long attempt `i` takes in all. -/
def duration (i : Nat) : Nat :=
  asking p l i + match p.credentials.answer (l.queries + i) with
    | .ok _ => (deliveryAt p c l i).latency
    | .error _ => 0

/-- When attempt `i` begins, if the call rests for `rest j` milliseconds after attempt `j`. -/
def begins : Nat → Nat
  | 0 => l.now
  | i + 1 => begins i + duration p c l i + rest i

/-- What attempt `i` sends, and when. -/
def sentAt (i : Nat) : Option Sent :=
  (requestAt p c l i).map fun request => ⟨begins p c l rest i + asking p l i, request⟩

end

variable {p : CallPolicy} {c u u' u'' : Call} {l l' l'' : Link} {bs : Breakers} {a : Admission}
  {rest : Nat → Nat}

/-- A call on its own gets from one state to another. -/
def Leads (p : CallPolicy) (u : Call) (l : Link) (u' : Call) (l' : Link) : Prop :=
  ∃ n, (machine p).run n [u] l = ([u'], l')

theorem Leads.refl (u : Call) (l : Link) : Leads p u l u l := ⟨0, rfl⟩

theorem Leads.trans (h : Leads p u l u' l') (h' : Leads p u' l' u'' l'') : Leads p u l u'' l'' := by
  obtain ⟨n, hn⟩ := h
  obtain ⟨k, hk⟩ := h'
  exact ⟨n + k, by rw [Machine.run_add, hn, hk]⟩

theorem leads_of_step (h : u.step p l = some (u', l')) : Leads p u l u' l' := by
  refine ⟨1, ?_⟩
  simp only [Machine.run, Machine.next, Machine.stepFirst, machine, h]

/-- `l'` is `l` at the instant `t`, and the context is not done and never will be. -/
structure Waits (x : Context) (l l' : Link) (t : Nat) : Prop where
  eq : l' = { l with now := t, tokens := l'.tokens, agenda := l'.agenda }
  free : x.check l'.tokens l'.now = none
  never : l'.done x = none

theorem waits_arrive {x : Context} (hfree : x.check l.tokens l.now = none) (hnever : l.done x = none)
    (t : Nat) : Waits x l (l.arrive t) (max l.now t) :=
  ⟨rfl, (Link.check_arrive_of_done_eq_none hfree hnever t).1,
    (Link.check_arrive_of_done_eq_none hfree hnever t).2⟩

theorem Waits.trans {x : Context} {t t' : Nat} (h : Waits x l l' t) (h' : Waits x l' l'' t') :
    Waits x l l'' t' := by
  refine ⟨?_, h'.free, h'.never⟩
  rw [h'.eq, h.eq]

/-- While a call on its own waits, the clock moves to its instant, or to a cancellation before that. -/
theorem leads_arrive {w : Nat} (hstep : u.step p l = none) (hwake : u.wake = some w) :
    Leads p u l u (l.arrive (match l.nextCancellation with
      | some x => min w x
      | none => w)) := by
  refine ⟨1, ?_⟩
  cases hx : l.nextCancellation <;>
    simp only [Machine.run, Machine.next, Machine.stepFirst, machine, hstep, Machine.nextWake,
      List.filterMap_cons, hwake, List.filterMap_nil, List.min?_singleton, Option.map_none,
      Option.map_some, HasLink.link, HasLink.onLink, id, hx]

/-- A call on its own waits until its stage is due. The induction is on the cancellations ahead, none of
    which is for this call, since the clock stops at each of them. -/
theorem leads_wait {k : Nat} {stage : Stage} (hp : u.phase = .active a k stage)
    (hfree : u.context.check l.tokens l.now = none) (hnever : l.done u.context = none) :
    ∃ l', Leads p u l u l' ∧ Waits u.context l l' (max l.now stage.due) := by
  induction hlen : l.agenda.length using Nat.strongRecOn generalizing l with
  | _ len ih =>
    by_cases hdue : stage.due ≤ l.now
    · refine ⟨l, .refl u l, ?_, hfree, hnever⟩
      rw [Nat.max_eq_left hdue]
    · have hstep : u.step p l = none := by
        rw [step, hp]
        simp only [hfree, if_neg hdue]
      have hwake : u.wake = some stage.due := by
        rw [wake, hp]
        simp only [(Link.done_eq_none_spec hfree hnever).1, earlier]
      have hmove := leads_arrive hstep hwake
      cases hx : l.nextCancellation with
      | none =>
        rw [hx] at hmove
        exact ⟨_, hmove, waits_arrive hfree hnever _⟩
      | some x =>
        simp only [hx] at hmove
        -- a cancellation that comes first is not for this call, which goes on waiting
        by_cases hle : stage.due ≤ x
        · rw [Nat.min_eq_left hle] at hmove
          exact ⟨_, hmove, waits_arrive hfree hnever _⟩
        · rw [Nat.min_eq_right (by omega)] at hmove
          have hw := waits_arrive hfree hnever x
          obtain ⟨l', hlead, hw'⟩ := ih _ (hlen ▸ Link.agenda_arrive_lt hx) hw.free hw.never rfl
          refine ⟨l', hmove.trans hlead, ?_⟩
          have hnow : (l.arrive x).now = max l.now x := rfl
          have hmax : max (l.arrive x).now stage.due = max l.now stage.due := by omega
          exact hmax ▸ hw.trans hw'

/-- The call with its attempt `k` in a stage. -/
def inStage (c : Call) (a : Admission) (k : Nat) (stage : Stage) : Call :=
  { c with phase := .active a k stage }

theorem step_inStage {k : Nat} (stage : Stage) (hfree : c.context.check l.tokens l.now = none)
    (hdue : stage.due = l.now) :
    (c.inStage a k stage).step p l = some ((c.inStage a k stage).proceed p a k stage l) := by
  simp only [step, inStage, hfree, if_pos (Nat.le_of_eq hdue)]

/-! ### From one attempt to the next -/

/-- Of a link that was `l` when the call entered and became `l'`: the instant, the numbers of answers
    that were asked for and of waits there have been, and the number of attempts that are past
    sending. Nothing else has changed that matters, once the breakers were `bs`. -/
structure Tally (p : CallPolicy) (c : Call) (l : Link) (rest : Nat → Nat) (bs : Breakers)
    (now queries pauses past : Nat) (l' : Link) : Prop where
  now : l'.now = now
  queries : l'.queries = l.queries + queries
  pauses : l'.pauses = l.pauses + pauses
  server : l'.server = serverAt p c l past
  sent : l'.sent = l.sent ++ (List.range past).filterMap (sentAt p c l rest)
  breakers : l'.breakers = bs
  free : c.context.check l'.tokens l'.now = none
  never : l'.done c.context = none

theorem Tally.wait {now t queries pauses past : Nat} (h : Tally p c l rest bs now queries pauses past l')
    (hw : Waits c.context l' l'' t) : Tally p c l rest bs t queries pauses past l'' :=
  { now := by rw [hw.eq]
    queries := by rw [hw.eq]; exact h.queries
    pauses := by rw [hw.eq]; exact h.pauses
    server := by rw [hw.eq]; exact h.server
    sent := by rw [hw.eq]; exact h.sent
    breakers := by rw [hw.eq]; exact h.breakers
    free := hw.free
    never := hw.never }

theorem Tally.pause {now queries pauses past : Nat} (h : Tally p c l rest bs now queries pauses past l') :
    Tally p c l rest bs now queries (pauses + 1) past { l' with pauses := l'.pauses + 1 } :=
  { h with pauses := by rw [h.pauses, Nat.add_assoc], free := h.free, never := h.never }

/-- Attempt `i` has just begun. -/
structure Begun (p : CallPolicy) (c : Call) (l : Link) (rest : Nat → Nat) (bs : Breakers)
    (a : Admission) (i : Nat) (u : Call) (l' : Link) : Prop where
  call : u = c.inStage a i (.authorizing (l.queries + i) (begins p c l rest i + asking p l i))
  tally : Tally p c l rest bs (begins p c l rest i) (i + 1) i i l'

/-- A call that waits in a stage from which it has sent nothing meets the same tally at the end. -/
theorem Tally.leads_wait {now queries pauses past k : Nat} (stage : Stage)
    (h : Tally p c l rest bs now queries pauses past l') (hle : now ≤ stage.due) :
    ∃ l'', Leads p (c.inStage a k stage) l' (c.inStage a k stage) l'' ∧
      Tally p c l rest bs stage.due queries pauses past l'' := by
  obtain ⟨l'', hlead, hw⟩ := Call.leads_wait (p := p) (u := c.inStage a k stage) rfl h.free h.never
  rw [h.now, Nat.max_eq_right hle] at hw
  exact ⟨l'', hlead, h.wait hw⟩

theorem Tally.sent_succ {now queries pauses i : Nat} (h : Tally p c l rest bs now queries pauses i l') :
    l.sent ++ (List.range (i + 1)).filterMap (sentAt p c l rest) =
      l'.sent ++ (sentAt p c l rest i).toList := by
  rw [h.sent, List.range_succ, List.filterMap_append, List.append_assoc]
  cases hs : sentAt p c l rest i <;> simp [hs]

/-- With its credentials an attempt sends its request, which takes no time. -/
theorem Tally.sends {i : Nat} {headers : List Header}
    (h : Tally p c l rest bs (begins p c l rest i + asking p l i) (i + 1) i i l')
    (hans : p.credentials.answer (l.queries + i) = .ok headers) :
    ∃ l'', (c.inStage a i (.authorizing (l.queries + i) (begins p c l rest i + asking p l i))).step p l' =
        some (c.inStage a i (.awaiting (deliveryAt p c l i).outcome
          (begins p c l rest i + duration p c l i)), l'') ∧
      Tally p c l rest bs (begins p c l rest i + asking p l i) (i + 1) i (i + 1) l'' := by
  have hdur : duration p c l i = asking p l i + (deliveryAt p c l i).latency := by
    simp only [duration, hans]
  have hsent : sentAt p c l rest i = some ⟨begins p c l rest i + asking p l i,
      { c.request with headers := c.request.headers ++ headers }⟩ := by
    simp only [sentAt, requestAt, hans, Option.map_some]
  have hserver : serverAt p c l (i + 1) = ((serverAt p c l i).deliver c.request.url).2 := by
    rw [serverAt, hans]
  refine ⟨{ l' with
      server := serverAt p c l (i + 1)
      sent := l'.sent ++ (sentAt p c l rest i).toList }, ?_, ?_⟩
  · rw [step_inStage (.authorizing _ _) h.free h.now.symm]
    simp only [proceed, hans, send, inStage, h.server, h.now, hserver, hdur, hsent, deliveryAt,
      Nat.add_assoc, Option.toList_some]
  · exact { h with server := rfl, sent := h.sent_succ.symm }

/-- An attempt gets as far as its outcome. -/
theorem Begun.leads_settle {i : Nat} (h : Begun p c l rest bs a i u l') :
    ∃ stage l'', Leads p u l' (c.inStage a i stage) l'' ∧
      Tally p c l rest bs (begins p c l rest i + duration p c l i) (i + 1) i (i + 1) l'' ∧
      (c.inStage a i stage).step p l'' =
        some ((c.inStage a i stage).settle p a i (outcomeAt p c l i) l'') := by
  obtain ⟨rfl, htally⟩ := h
  obtain ⟨l₁, hlead, ht⟩ := htally.leads_wait (a := a) (k := i)
    (.authorizing (l.queries + i) (begins p c l rest i + asking p l i)) (Nat.le_add_right _ _)
  simp only [Stage.due] at ht
  cases hans : p.credentials.answer (l.queries + i) with
  | error e =>
    have hdur : duration p c l i = asking p l i := by simp only [duration, hans, Nat.add_zero]
    have hnone : sentAt p c l rest i = none := by simp only [sentAt, requestAt, hans, Option.map_none]
    refine ⟨_, l₁, hlead, ?_, ?_⟩
    · rw [hdur]
      exact { ht with
        server := by rw [ht.server, serverAt, hans]
        sent := by rw [ht.sent_succ, hnone, Option.toList_none, List.append_nil] }
    · rw [step_inStage (.authorizing _ _) ht.free ht.now.symm, proceed, outcomeAt, hans]
  | ok headers =>
    obtain ⟨l₂, hstep, ht₂⟩ := ht.sends (a := a) hans
    obtain ⟨l₃, hwait, ht₃⟩ := ht₂.leads_wait (a := a) (k := i)
      (.awaiting (deliveryAt p c l i).outcome (begins p c l rest i + duration p c l i))
      (by simp only [Stage.due, duration, hans]; omega)
    simp only [Stage.due] at ht₃
    refine ⟨_, l₃, (hlead.trans (leads_of_step hstep)).trans hwait, ht₃, ?_⟩
    rw [step_inStage (.awaiting _ _) ht₃.free ht₃.now.symm, proceed, outcomeAt, hans]

/-- After its last attempt the call returns. -/
theorem Begun.returns {i : Nat} (h : Begun p c l rest bs a i u l')
    (hl : IsLast p i (outcomeAt p c l i)) :
    ∃ l'', Tally p c l rest bs (begins p c l rest i + duration p c l i) (i + 1) i (i + 1) l'' ∧
      Leads p u l' (c.conclude p a (outcomeAt p c l i) l'').1
        (c.conclude p a (outcomeAt p c l i) l'').2 := by
  obtain ⟨stage, l₁, hlead, ht, hstep⟩ := h.leads_settle
  rw [settle_of_isLast a hl] at hstep
  exact ⟨l₁, ht, hlead.trans (leads_of_step hstep)⟩

/-- Where there is no wait the call panics instead. -/
theorem Begun.panics {i : Nat} (h : Begun p c l rest bs a i u l')
    (hl : ¬ IsLast p i (outcomeAt p c l i)) (hw : p.rest? (l.pauses + i) i = none) :
    ∃ l'', Tally p c l rest bs (begins p c l rest i + duration p c l i) (i + 1) (i + 1) (i + 1) l'' ∧
      Leads p u l' { c with phase := .panicked a i } l'' := by
  obtain ⟨stage, l₁, hlead, ht, hstep⟩ := h.leads_settle
  rw [← ht.pauses] at hw
  rw [settle_of_not_isLast a hl, pause_of_none a hw] at hstep
  exact ⟨_, ht.pause, hlead.trans (leads_of_step hstep)⟩

theorem judge_eq_ok_iff {answer : Except TransportError Response} {r : Response} :
    judge answer = .ok r ↔ answer = .ok r ∧ r.isSuccess = true := by
  cases answer with
  | error e => exact ⟨fun h => (by cases h), fun h => (by cases h.1)⟩
  | ok q =>
    rw [judge]
    by_cases hq : q.isSuccess = true
    · rw [if_pos hq]
      constructor
      · intro h; cases h; exact ⟨rfl, hq⟩
      · intro h; cases h.1; rfl
    · rw [if_neg hq]
      constructor
      · intro h; cases h
      · intro h; cases h.1; exact absurd h.2 hq

/-- The call has returned the outcome of attempt `i`, which is final or that of the last attempt, and has
    told its breaker of it. -/
structure Returned (p : CallPolicy) (c : Call) (l : Link) (bs : Breakers) (a : Admission) (i : Nat)
    (phase : CallPhase) (l' : Link) : Prop where
  phase : phase = .finished (outcomeAt p c l i)
  last : IsFinal (outcomeAt p c l i) ∨ p.retry.maxAttempts = i + 1
  pauses : l'.pauses = l.pauses + i
  breakers : l'.breakers = bs.modify a.breaker
    (Breaker.settle p.breaker l'.now a.permit (verdict (outcomeAt p c l i)))

/-- The call would have to rest after attempt `i`, but there is no wait with what has been drawn: it has
    panicked, and no breaker is told of anything. -/
structure Panicked (p : CallPolicy) (c : Call) (l : Link) (bs : Breakers) (a : Admission) (i : Nat)
    (phase : CallPhase) (l' : Link) : Prop where
  phase : phase = .panicked a i
  more : i + 1 < p.retry.maxAttempts
  passing : ¬ IsFinal (outcomeAt p c l i)
  delay : p.retry.delay (p.draw (l.pauses + i)) i = none
  pauses : l'.pauses = l.pauses + (i + 1)
  breakers : l'.breakers = bs

/-- The end of a call from the attempt at which it stops. -/
theorem Begun.exists_end {i : Nat} (h : Begun p c l rest bs a i u l') (hlimit : i < p.retry.maxAttempts)
    (hstop : ¬ IsLast p i (outcomeAt p c l i) → p.rest? (l.pauses + i) i = none) :
    ∃ phase l'', Leads p u l' { c with phase } l'' ∧ ({ c with phase } : Call).isOver = true ∧
      (Returned p c l bs a i phase l'' ∨ Panicked p c l bs a i phase l'') ∧
      l''.now = begins p c l rest i + duration p c l i ∧ l''.queries = l.queries + (i + 1) ∧
      l''.server = serverAt p c l (i + 1) ∧
      l''.sent = l.sent ++ (List.range (i + 1)).filterMap (sentAt p c l rest) := by
  by_cases hl : IsLast p i (outcomeAt p c l i)
  · obtain ⟨l₁, ht, hlead⟩ := h.returns hl
    refine ⟨_, _, hlead, rfl, Or.inl ⟨rfl, ?_, ht.pauses, ?_⟩, ht.now, ht.queries, ht.server, ht.sent⟩
    · exact (isLast_iff.mp hl).imp_right fun hle => Nat.le_antisymm hle hlimit
    · rw [conclude]
      simp only [ht.breakers]
  · have hnone := hstop hl
    obtain ⟨l₁, ht, hlead⟩ := h.panics hl hnone
    rw [isLast_iff, not_or, Nat.not_le] at hl
    rw [CallPolicy.rest?, Option.map_eq_none_iff] at hnone
    exact ⟨_, l₁, hlead, rfl, Or.inr ⟨rfl, hl.2, hl.1, hnone, ht.pauses, ht.breakers⟩, ht.now,
      ht.queries, ht.server, ht.sent⟩

end Call

end SlurmLink
