import Mathlib.Data.List.DropRight
import SlurmLink.Proofs.BreakerIncident

/-!
The history of a breaker: what happened at it, from the first permit on. A history is a chronicle, in
which one incident follows the other (`chronicle_history`), and `trace_law` reads the state of the
breaker off it: how many failures it counts, when it opens, and who is let through after that.
-/

namespace SlurmLink

/-! ### Chronicles -/

/-- Incidents that follow one another, each beginning with the breaker that the one before it left, from
    a breaker at an instant to a breaker at a later one. -/
def Chronicle (config : BreakerConfig) : Nat → Breaker → List Incident → Nat → Breaker → Prop
  | now, b, [], time, b' => now ≤ time ∧ b' = b
  | now, b, x :: h, time, b' =>
    now ≤ x.time ∧ x.before = b ∧ x.Happens config ∧ Chronicle config x.time x.after h time b'

namespace Chronicle

variable {config : BreakerConfig}

theorem of_le {now now' time : Nat} {b b' : Breaker} (hle : now' ≤ now) : ∀ {h : List Incident},
    Chronicle config now b h time b' → Chronicle config now' b h time b'
  | [], ⟨hle', he⟩ => ⟨Nat.le_trans hle hle', he⟩
  | _ :: _, ⟨hle', hrest⟩ => ⟨Nat.le_trans hle hle', hrest⟩

theorem of_ge {time time' : Nat} {b' : Breaker} (hle : time ≤ time') :
    ∀ {h : List Incident} {now : Nat} {b : Breaker},
      Chronicle config now b h time b' → Chronicle config now b h time' b'
  | [], _, _, ⟨hle', he⟩ => ⟨Nat.le_trans hle' hle, he⟩
  | _ :: _, _, _, ⟨hle', hb, hx, hrest⟩ => ⟨hle', hb, hx, hrest.of_ge hle⟩

theorem le {time : Nat} {b' : Breaker} : ∀ {h : List Incident} {now : Nat} {b : Breaker},
    Chronicle config now b h time b' → now ≤ time
  | [], _, _, ⟨hle, _⟩ => hle
  | _ :: _, _, _, ⟨hle, _, _, hrest⟩ => Nat.le_trans hle hrest.le

theorem time_le {time : Nat} {b' : Breaker} : ∀ {h : List Incident} {now : Nat} {b : Breaker},
    Chronicle config now b h time b' → ∀ x ∈ h, x.time ≤ time
  | [], _, _, _, x, hx => by cases hx
  | y :: h, _, _, ⟨_, _, _, hrest⟩, x, hx => by
    rcases List.mem_cons.mp hx with rfl | hx
    · exact hrest.le
    · exact hrest.time_le x hx

/-- A chronicle can be cut anywhere. -/
theorem split {time : Nat} {b' : Breaker} : ∀ {h h' : List Incident} {now : Nat} {b : Breaker},
    Chronicle config now b (h ++ h') time b' →
      ∃ t c, Chronicle config now b h t c ∧ Chronicle config t c h' time b'
  | [], _, now, b, hc => ⟨now, b, ⟨Nat.le_refl _, rfl⟩, hc⟩
  | x :: h, h', _, _, ⟨hle, hb, hx, hrest⟩ => by
    obtain ⟨t, c, hc, hc'⟩ := hrest.split
    exact ⟨t, c, ⟨hle, hb, hx, hc⟩, hc'⟩

/-- What comes before an incident, the incident, and what comes after it. -/
theorem cut {now time : Nat} {b b' : Breaker} {earlier later : List Incident} {x : Incident}
    (hc : Chronicle config now b (earlier ++ x :: later) time b') :
    Chronicle config now b earlier x.time x.before ∧ x.Happens config ∧
      Chronicle config x.time x.after later time b' := by
  obtain ⟨t, c, hearlier, hle, rfl, hx, hlater⟩ := hc.split
  exact ⟨hearlier.of_ge hle, hx, hlater⟩

end Chronicle

namespace Turnstile

/-- What happens with a list of moves. -/
def historyFrom (config : BreakerConfig) : Turnstile → List TurnstileMove → List Incident
  | _, [] => []
  | s, m :: moves => (s.incident? config m).toList ++ historyFrom config (s.step config m) moves

/-- What happens at a new breaker. -/
def history (config : BreakerConfig) (moves : List TurnstileMove) : List Incident :=
  historyFrom config {} moves

variable {config : BreakerConfig}

theorem now_le_step (s : Turnstile) (m : TurnstileMove) : s.now ≤ (s.step config m).now := by
  cases m with
  | pass duration => exact Nat.le_add_right _ _
  | ask => exact Nat.le_refl _
  | settle ticket outcome =>
    simp only [step]
    split <;> exact Nat.le_refl _

theorem breaker_step_of_incident?_eq_none {s : Turnstile} {m : TurnstileMove}
    (h : s.incident? config m = none) : (s.step config m).breaker = s.breaker := by
  cases m with
  | pass duration => rfl
  | ask => cases h
  | settle ticket outcome =>
    rcases hp : s.permits[ticket]? with _ | _ | permit
    · simp only [step, hp]
    · simp only [step, hp]
    · rw [incident?, deed?, hp] at h
      cases h

/-- The history of any moves is a chronicle that ends with the breaker as it is after them. -/
theorem chronicle_historyFrom (hthr : 1 ≤ config.failureThreshold)
    (hmax : config.failureThreshold ≤ Breaker.maxFailures) :
    ∀ (moves : List TurnstileMove) (s : Turnstile), s.breaker.Sound config s.now s.trials →
      Chronicle config s.now s.breaker (historyFrom config s moves)
        (moves.foldl (step config) s).now (moves.foldl (step config) s).breaker
  | [], s, _ => ⟨Nat.le_refl _, rfl⟩
  | m :: moves, s, hs => by
    have hrest := (chronicle_historyFrom hthr hmax moves (s.step config m)
      (sound_step hthr s m hs)).of_le (now_le_step s m)
    rw [historyFrom]
    cases hi : s.incident? config m with
    | none =>
      rw [breaker_step_of_incident?_eq_none hi] at hrest
      exact hrest
    | some x =>
      have hx := happens_of_incident? hmax hs hi
      obtain ⟨deed, -, rfl⟩ := Option.map_eq_some_iff.mp hi
      exact ⟨Nat.le_refl _, rfl, hx, hrest⟩

theorem chronicle_history (hthr : 1 ≤ config.failureThreshold)
    (hmax : config.failureThreshold ≤ Breaker.maxFailures) (moves : List TurnstileMove) :
    Chronicle config 0 {} (history config moves) (run config moves).now
      (run config moves).breaker :=
  chronicle_historyFrom hthr hmax moves {} (Breaker.sound_new hthr 0)

end Turnstile

/-! ### The count of failures -/

/-- The failures since the last incident from which they are counted. -/
def streak (h : List Incident) : Nat := (h.rtakeWhile (!·.startsOver)).countP Incident.isFailure

theorem streak_concat (h : List Incident) (x : Incident) :
    streak (h ++ [x]) = if x.startsOver then 0 else streak h + x.isFailure.toNat := by
  rw [streak, List.rtakeWhile_concat]
  cases x.startsOver with
  | true => rfl
  | false =>
    simp only [Bool.not_false, if_true, List.countP_append, List.countP_singleton, streak]
    cases x.isFailure <;> rfl

/-! ### What a history tells -/

namespace Chronicle

variable {config : BreakerConfig}

/-- As long as the breaker is closed, it counts the failures since they are counted. -/
theorem failures_eq_streak {h : List Incident} {time : Nat} {b : Breaker}
    (hc : Chronicle config 0 {} h time b) : b.state = .closed → b.failures = streak h := by
  induction h using List.reverseRecOn generalizing time b with
  | nil =>
    obtain ⟨-, rfl⟩ := hc
    intro _
    rfl
  | append_singleton h x ih =>
    obtain ⟨hearlier, hx, -, rfl⟩ := hc.cut
    intro hclosed
    rw [hx.failures_eq (ih hearlier) hclosed, streak_concat]

/-- A trial is out exactly while the slot is taken. -/
theorem countP_trials {h : List Incident} {time : Nat} {b : Breaker}
    (hc : Chronicle config 0 {} h time b) :
    h.countP Incident.beginsTrial = h.countP Incident.endsTrial + b.trialInFlight.toNat := by
  induction h using List.reverseRecOn generalizing time b with
  | nil =>
    obtain ⟨-, rfl⟩ := hc
    rfl
  | append_singleton h x ih =>
    obtain ⟨hearlier, hx, -, rfl⟩ := hc.cut
    have hstep := hx.trials_eq
    have hrest := ih hearlier
    simp only [List.countP_append, List.countP_singleton]
    cases hb : x.beginsTrial <;> cases he : x.endsTrial <;> simp [hb, he] at hstep ⊢ <;> omega

/-- An open breaker stays as it is as long as nobody asks who comes late enough. -/
theorem stays_opened {time : Nat} {b' : Breaker} : ∀ {h : List Incident} {now : Nat} {b : Breaker},
    Chronicle config now b h time b' → b.state = .opened →
      (∀ x ∈ h, x.deed.answer? ≠ none → Breaker.isDue config x.time b.openedAt = false) → b' = b
  | [], _, _, ⟨_, he⟩, _, _ => he
  | x :: h, _, _, ⟨_, rfl, hx, hrest⟩, hs, hearly => by
    rcases hx.of_opened hs with ⟨he, -⟩ | ⟨hd, hdue, -⟩
    · have hrest' := hrest.stays_opened (he ▸ hs)
        (he ▸ fun y hy => hearly y (List.mem_cons_of_mem _ hy))
      rw [hrest', he]
    · have := hearly x List.mem_cons_self (by rw [hd]; simp)
      rw [hdue] at this
      cases this

/-- A breaker that has let a trial through stays as it is until the trial is over. -/
theorem stays_tried {time : Nat} {b' : Breaker} : ∀ {h : List Incident} {now : Nat} {b : Breaker},
    Chronicle config now b h time b' → b.state = .halfOpen → b.trialInFlight = true →
      (∀ x ∈ h, x.endsTrial = false) → b' = b
  | [], _, _, ⟨_, he⟩, _, _, _ => he
  | x :: h, _, _, ⟨_, rfl, hx, hrest⟩, hs, ht, hout => by
    have hgoes : x.endsTrial = false := hout x List.mem_cons_self
    rcases hx.of_halfOpen hs with ⟨he, -⟩ | ⟨-, hfree, -⟩ | ⟨hd, -⟩ | ⟨hd, -⟩ | ⟨hd, -⟩
    · have hrest' := hrest.stays_tried (he ▸ hs) (he ▸ ht)
        fun y hy => hout y (List.mem_cons_of_mem _ hy)
      rw [hrest', he]
    · rw [ht] at hfree; cases hfree
    · simp [Incident.endsTrial, hd] at hgoes
    · simp [Incident.endsTrial, hd] at hgoes
    · simp [Incident.endsTrial, hd] at hgoes

end Chronicle

/-- The instant, in nanoseconds, from which a breaker that opened at the instant `opened` lets a trial
    through. -/
def Breaker.dueAt (config : BreakerConfig) (opened : Nat) : Nat :=
  opened * 1000000 + config.openTimeout.nanos

theorem Breaker.isDue_iff {config : BreakerConfig} {now opened : Nat} (h : opened ≤ now) :
    isDue config now (some opened) = true ↔ dueAt config opened ≤ now * 1000000 := by
  simp only [isDue, dueAt, decide_eq_true_eq]
  omega

theorem Breaker.isDue_eq_false_iff {config : BreakerConfig} {now opened : Nat} (h : opened ≤ now) :
    isDue config now (some opened) = false ↔ now * 1000000 < dueAt config opened := by
  rw [← Bool.not_eq_true, isDue_iff h, Nat.not_le]

namespace Chronicle

variable {config : BreakerConfig} {earlier between later rest mid : List Incident} {x y z : Incident}
  {time : Nat} {b : Breaker} {answer : Option Permit}

/-- Until somebody asks who comes late enough, the breaker is as it was when it opened. -/
theorem before_eq_of_opens (hc : Chronicle config 0 {} (earlier ++ x :: (between ++ y :: rest)) time b)
    (ho : x.Opens)
    (hearly : ∀ z ∈ between, z.deed.answer? ≠ none → z.time * 1000000 < Breaker.dueAt config x.time) :
    y.before = x.after := by
  obtain ⟨-, hx, hlater⟩ := hc.cut
  obtain ⟨hbetween, hy, -⟩ := hlater.cut
  have hat := hx.openedAt_of_opens ho
  refine hbetween.stays_opened ho.2 fun z hz hasks => ?_
  obtain ⟨before, after, rfl⟩ := List.append_of_mem hz
  rw [hat, Breaker.isDue_eq_false_iff hbetween.cut.1.le]
  exact hearly z hz hasks

/-- Nobody who comes too early is granted a permit. -/
theorem refuses_of_opens (hc : Chronicle config 0 {} (earlier ++ x :: (between ++ y :: rest)) time b)
    (ho : x.Opens) (hd : y.deed.answer? = some answer)
    (hearly : y.time * 1000000 < Breaker.dueAt config x.time) : answer = none := by
  obtain ⟨-, hx, hlater⟩ := hc.cut
  obtain ⟨hbetween, hy, -⟩ := hlater.cut
  -- those who came between the opening and now came too early as well
  have hsame := hc.before_eq_of_opens ho fun z hz _ =>
    Nat.lt_of_le_of_lt (Nat.mul_le_mul_right _ (hbetween.time_le z hz)) hearly
  rcases hy.of_opened (by rw [hsame, ho.2]) with ⟨-, hnone | ⟨hnone, -⟩⟩ | ⟨-, hdue, -⟩
  · rw [hd] at hnone; cases hnone
  · rw [hd] at hnone; cases hnone; rfl
  · rw [hsame, hx.openedAt_of_opens ho, Breaker.isDue_iff hbetween.le] at hdue
    exact absurd hearly (Nat.not_lt.mpr hdue)

/-- The first one who comes late enough is let through on trial, and until that trial is over nobody
    else is granted a permit. -/
theorem tries_of_opens (hc : Chronicle config 0 {} (earlier ++ x :: (between ++ y :: rest)) time b)
    (ho : x.Opens) (hd : y.deed.answer? = some answer)
    (hlate : Breaker.dueAt config x.time ≤ y.time * 1000000)
    (hearly : ∀ z ∈ between, z.deed.answer? ≠ none → z.time * 1000000 < Breaker.dueAt config x.time) :
    answer = some .trial ∧
    (earlier ++ x :: between).countP Incident.beginsTrial =
      (earlier ++ x :: between).countP Incident.endsTrial ∧
    ∀ mid z rest' answer', rest = mid ++ z :: rest' → (∀ w ∈ mid, w.endsTrial = false) →
      z.deed.answer? = some answer' → answer' = none := by
  have hsame := hc.before_eq_of_opens ho hearly
  obtain ⟨-, hx, hlater⟩ := hc.cut
  obtain ⟨hbetween, hy, hrest⟩ := hlater.cut
  have hdue : Breaker.isDue config y.time y.before.openedAt = true := by
    rw [hsame, hx.openedAt_of_opens ho, Breaker.isDue_iff hbetween.le]
    exact hlate
  rcases hy.of_opened (by rw [hsame, ho.2]) with ⟨-, hnone | ⟨-, hnot⟩⟩ | ⟨htrial, -, hafter⟩
  · rw [hd] at hnone; cases hnone
  · rw [hdue] at hnot; cases hnot
  · have hsplit : earlier ++ x :: (between ++ y :: rest) = (earlier ++ x :: between) ++ y :: rest := by
      simp
    have hfree : y.before.trialInFlight = false := by
      have hstep := hy.trials_eq
      have hbegins : y.beginsTrial = true := by simp [Incident.beginsTrial, htrial]
      cases hslot : y.before.trialInFlight with
      | false => rfl
      | true =>
        have := Bool.toNat_le y.after.trialInFlight
        have hends : y.endsTrial = false := by
          simp [Incident.endsTrial, Deed.news?_eq_none_of_answer? htrial]
        simp [hbegins, hslot, hends] at hstep
        omega
    refine ⟨?_, ?_, ?_⟩
    · rw [hd] at htrial; cases htrial; rfl
    · have hcount := (hsplit ▸ hc).cut.1.countP_trials
      rwa [hfree, Bool.toNat_false, Nat.add_zero] at hcount
    · rintro mid z rest' answer' rfl hout hask
      obtain ⟨hmid, hz, -⟩ := hrest.cut
      have hstays := hmid.stays_tried (by rw [hafter]) (by rw [hafter]) hout
      rcases hz.of_halfOpen (by rw [hstays, hafter]) with
        ⟨-, -, hnone | ⟨hnone, -⟩⟩ | ⟨-, hno, -⟩ | ⟨htold, -⟩ | ⟨htold, -⟩ | ⟨htold, -⟩
      · rw [hask] at hnone; cases hnone
      · rw [hask] at hnone; cases hnone; rfl
      · rw [hstays, hafter] at hno; cases hno
      · rw [Deed.answer?_eq_none_of_news? htold] at hask; cases hask
      · rw [Deed.answer?_eq_none_of_news? htold] at hask; cases hask
      · rw [Deed.answer?_eq_none_of_news? htold] at hask; cases hask

end Chronicle

namespace Turnstile

/-- A breaker by its history. While it is closed, it counts the failures of normal permits since the last
    success of one or since it closed, and it leaves that state exactly with the failure that makes them
    reach the threshold, of which it notes the instant. After it has opened nobody is granted a permit
    who comes before its time is up; the first one who comes later is on trial, when no other trial is
    out, and nobody else is granted a permit until that trial is over. Half open, it closes exactly with
    the success of a trial, and opens again exactly with the failure of one. While it is not closed,
    normal permits that come back change nothing. -/
theorem trace_law (config : BreakerConfig) (hthr : 1 ≤ config.failureThreshold)
    (hmax : config.failureThreshold ≤ Breaker.maxFailures) (moves : List TurnstileMove) :
    ((run config moves).breaker.state = .closed →
      (run config moves).breaker.failures = streak (history config moves)) ∧
    ∀ earlier x later, history config moves = earlier ++ x :: later →
      (x.before.state = .closed → x.before.failures = streak earlier ∧
        (x.after.state ≠ .closed ↔ x.deed.news? = some (.normal, .failure) ∧
          streak earlier + 1 = config.failureThreshold) ∧
        (x.after.state ≠ .closed → x.Opens ∧ x.after.openedAt = some x.time)) ∧
      (x.Opens → ∀ between y rest answer, later = between ++ y :: rest →
        y.deed.answer? = some answer →
          (y.time * 1000000 < Breaker.dueAt config x.time → answer = none) ∧
          (Breaker.dueAt config x.time ≤ y.time * 1000000 →
            (∀ z ∈ between, z.deed.answer? ≠ none →
              z.time * 1000000 < Breaker.dueAt config x.time) →
            answer = some .trial ∧
            (earlier ++ x :: between).countP Incident.beginsTrial =
              (earlier ++ x :: between).countP Incident.endsTrial ∧
            ∀ mid z rest' answer', rest = mid ++ z :: rest' → (∀ w ∈ mid, w.endsTrial = false) →
              z.deed.answer? = some answer' → answer' = none)) ∧
      (x.before.state = .halfOpen →
        (x.after.state = .closed ↔ x.deed.news? = some (.trial, .success)) ∧
        (x.after.state = .closed → x.after.failures = 0 ∧ x.after.openedAt = none) ∧
        (x.after.state = .opened ↔ x.deed.news? = some (.trial, .failure)) ∧
        (x.after.state = .opened → x.after.openedAt = some x.time)) ∧
      (∀ outcome, x.deed.news? = some (.normal, outcome) → x.before.state ≠ .closed →
        x.after = x.before) := by
  have hc := chronicle_history hthr hmax moves
  refine ⟨hc.failures_eq_streak, fun earlier x later hsplit => ?_⟩
  rw [hsplit] at hc
  obtain ⟨hearlier, hx, -⟩ := hc.cut
  refine ⟨fun hs => ?_, fun ho between y rest answer hlater hd => ?_, fun hs => ?_,
    fun outcome hd hs => ?_⟩
  · have hcount := hearlier.failures_eq_streak hs
    have hleaves := hx.leaves_closed_iff hs
    refine ⟨hcount, hcount ▸ hleaves, fun hleft => ?_⟩
    have ho := hx.opens_of_leaves_closed hs hleft
    exact ⟨ho, hx.openedAt_of_opens ho⟩
  · subst hlater
    exact ⟨hc.refuses_of_opens ho hd, hc.tries_of_opens ho hd⟩
  · obtain ⟨hcloses, hnew⟩ := hx.closes_iff hs
    refine ⟨hcloses, fun hclosed => ?_, hx.reopens_iff hs, fun ho => ?_⟩
    · rw [hnew hclosed]
      exact ⟨rfl, rfl⟩
    · exact hx.openedAt_of_opens ⟨by simp [hs], ho⟩
  · exact hx.after_eq_of_normal hd hs

/-- Opens at the second failure in a row, for two milliseconds. -/
def fussyConfig : BreakerConfig := { failureThreshold := 2, openTimeout := .ofMillis 2 }

/-- Two failures with a success between them, and another failure, which opens the breaker. The trial
    fails, and a millisecond later somebody asks. -/
def fussyMoves : List TurnstileMove :=
  [.ask, .ask, .ask, .ask, .settle 0 .failure, .settle 1 .success, .settle 2 .failure,
    .settle 3 .failure, .pass 2, .ask, .settle 4 .failure, .pass 1, .ask]

/-- The trial that fails opens the breaker again, and a millisecond is too early. -/
theorem trace_law_fussy :
    1 ≤ fussyConfig.failureThreshold ∧ fussyConfig.failureThreshold ≤ Breaker.maxFailures ∧
    ∃ earlier x y, history fussyConfig fussyMoves = earlier ++ [x, y] ∧ x.Opens ∧
      y.time * 1000000 < Breaker.dueAt fussyConfig x.time ∧ y.deed.answer? = some none := by
  have hthr : 1 ≤ fussyConfig.failureThreshold := by decide
  have hmax : fussyConfig.failureThreshold ≤ Breaker.maxFailures := by decide
  let x : Incident :=
    ⟨2, .told 4 .trial .failure, ⟨.halfOpen, 2, some 0, true⟩, ⟨.opened, 3, some 2, false⟩⟩
  let y : Incident := ⟨3, .refused, ⟨.opened, 3, some 2, false⟩, ⟨.opened, 3, some 2, false⟩⟩
  have hsplit : history fussyConfig fussyMoves =
      (history fussyConfig fussyMoves).take 9 ++ [x, y] := by decide
  have ho : x.Opens := by decide
  have hearly : y.time * 1000000 < Breaker.dueAt fussyConfig x.time := by decide
  obtain ⟨answer, hasks⟩ : ∃ answer, y.deed.answer? = some answer := ⟨_, rfl⟩
  have hlaw := (trace_law fussyConfig hthr hmax fussyMoves).2 _ x [y] hsplit
  obtain rfl := (hlaw.2.1 ho [] y [] answer rfl hasks).1 hearly
  exact ⟨hthr, hmax, _, x, y, hsplit, ho, hearly, hasks⟩

end Turnstile

end SlurmLink
