import SlurmLink.Call
import SlurmLink.Proofs.Breaker

/-!
Books about permits. Holders are numbered as they come, and a ledger has one entry for every permit
that is granted, returned or lost. An entry is posted only if it fits what the books say:

    granted     the holder has no permit, and the breaker grants this one
    returned    the holder has this permit, and the breaker is told the outcome
    lost        the holder has this permit, and no breaker hears of it

So once a ledger can be posted, every permit in it was granted before it came to an end, and came to an
end once at most (`grants_eq_of_post`). A trial permit that is lost takes its slot with it: the slot is
taken while a trial permit is held, and for good once one is lost (`Fits.foldlM`).
-/

namespace SlurmLink

/-- An entry in the ledger. -/
inductive PermitEntry where
  /-- A new holder comes, without a permit. -/
  | joined
  /-- A holder is granted a permit for an endpoint. -/
  | granted (holder time : Nat) (endpoint : String) (admission : Admission)
  /-- A holder gives its permit back with an outcome. -/
  | returned (holder time : Nat) (admission : Admission) (outcome : Outcome)
  /-- A holder is gone before it could give its permit back. -/
  | lost (holder : Nat) (admission : Admission)
  /-- All endpoints are forgotten. -/
  | cleared
  deriving DecidableEq, Repr

namespace PermitEntry

def isGrant (holder : Nat) (a : Admission) : PermitEntry → Bool
  | .granted h _ _ b => h = holder && b = a
  | _ => false

def isReturn (holder : Nat) (a : Admission) : PermitEntry → Bool
  | .returned h _ b _ => h = holder && b = a
  | _ => false

def isLoss (holder : Nat) (a : Admission) : PermitEntry → Bool
  | .lost h b => h = holder && b = a
  | _ => false

/-- The permit that is lost with an entry. -/
def lost? : PermitEntry → Option Admission
  | .lost _ a => some a
  | _ => none

theorem filterMap_lost?_append {e : PermitEntry} (h : e.lost? = none) (es : List PermitEntry) :
    (es ++ [e]).filterMap lost? = es.filterMap lost? := by
  simp [h]

end PermitEntry

/-- What the books say. -/
structure PermitBooks where
  breakers : Breakers
  /-- What each holder holds. -/
  held : List (Option Admission) := []
  /-- The permits that were lost. -/
  lost : List Admission := []

namespace PermitBooks

/-- Posts an entry, if it fits. -/
def post (config : BreakerConfig) (b : PermitBooks) : PermitEntry → Option PermitBooks
  | .joined => some { b with held := b.held ++ [none] }
  | .granted holder time endpoint a =>
    if b.held[holder]? = some none ∧
        (b.breakers.acquire config time endpoint).1 = some (a.breaker, a.permit) then
      some { b with
        breakers := (b.breakers.acquire config time endpoint).2
        held := b.held.set holder (some a) }
    else none
  | .returned holder time a outcome =>
    if b.held[holder]? = some (some a) then
      some { b with
        breakers := b.breakers.modify a.breaker (Breaker.settle config time a.permit outcome)
        held := b.held.set holder none }
    else none
  | .lost holder a =>
    if b.held[holder]? = some (some a) then
      some { b with held := b.held.set holder none, lost := b.lost ++ [a] }
    else none
  | .cleared => some { b with breakers := b.breakers.clear }

variable {config : BreakerConfig} {b b' : PermitBooks} {holder time : Nat} {a : Admission}

theorem post_granted {endpoint : String}
    (h : b.post config (.granted holder time endpoint a) = some b') :
    (b.held[holder]? = some none ∧
      (b.breakers.acquire config time endpoint).1 = some (a.breaker, a.permit)) ∧
    b' = { b with
      breakers := (b.breakers.acquire config time endpoint).2
      held := b.held.set holder (some a) } := by
  simp only [post, Option.ite_none_right_eq_some, Option.some.injEq] at h
  exact ⟨h.1, h.2.symm⟩

theorem post_returned {outcome : Outcome}
    (h : b.post config (.returned holder time a outcome) = some b') :
    b.held[holder]? = some (some a) ∧
    b' = { b with
      breakers := b.breakers.modify a.breaker (Breaker.settle config time a.permit outcome)
      held := b.held.set holder none } := by
  simp only [post, Option.ite_none_right_eq_some, Option.some.injEq] at h
  exact ⟨h.1, h.2.symm⟩

theorem post_lost (h : b.post config (.lost holder a) = some b') :
    b.held[holder]? = some (some a) ∧
    b' = { b with held := b.held.set holder none, lost := b.lost ++ [a] } := by
  simp only [post, Option.ite_none_right_eq_some, Option.some.injEq] at h
  exact ⟨h.1, h.2.symm⟩

/-- What every entry keeps, a ledger keeps. -/
theorem foldlM_keeps {P : PermitBooks → Prop} : ∀ {es : List PermitEntry} {b b' : PermitBooks},
    (∀ e ∈ es, ∀ b b' : PermitBooks, P b → b.post config e = some b' → P b') → P b →
      es.foldlM (post config) b = some b' → P b'
  | [], b, b', _, h, he => by cases he; exact h
  | e :: es, b, b', hkeeps, h, he => by
    rw [List.foldlM_cons] at he
    obtain ⟨b₁, hp, hes⟩ := Option.bind_eq_some_iff.mp he
    obtain ⟨hfirst, hrest⟩ := List.forall_mem_cons.mp hkeeps
    exact foldlM_keeps hrest (hfirst b b₁ h hp) hes

/-! ### What is granted and what comes to an end -/

/-- Whether a holder holds a permit, as a number. -/
def holds (b : PermitBooks) (holder : Nat) (a : Admission) : Nat :=
  if b.held[holder]? = some (some a) then 1 else 0

/-- When a holder comes to hold `y` instead of `x`, nothing changes for the others. -/
theorem holds_set {x : Option Admission} {i : Nat} (h : b.held[i]? = some x) (y : Option Admission)
    (bs : Breakers) (lost : List Admission) (holder : Nat) (a : Admission) :
    b.holds holder a + (i = holder && y = some a).toNat =
      (i = holder && x = some a).toNat + holds ⟨bs, b.held.set i y, lost⟩ holder a := by
  obtain ⟨hlt, -⟩ := List.getElem?_eq_some_iff.mp h
  simp only [holds, List.getElem?_set, hlt, if_true]
  by_cases hi : i = holder
  · subst hi
    by_cases hx : x = some a <;> by_cases hy : y = some a <;> simp [h, hx, hy]
  · simp [hi]

/-- What an entry adds to the permits held is what it takes from them and what is held after it. -/
theorem holds_post {e : PermitEntry} (h : b.post config e = some b') (holder : Nat) (a : Admission) :
    b.holds holder a + (e.isGrant holder a).toNat =
      (e.isReturn holder a).toNat + (e.isLoss holder a).toNat + b'.holds holder a := by
  cases e with
  | joined =>
    cases h
    simp only [holds, PermitEntry.isGrant, PermitEntry.isReturn, PermitEntry.isLoss,
      List.getElem?_append]
    by_cases hlt : holder < b.held.length
    · simp [hlt]
    · have : ([none] : List (Option Admission))[holder - b.held.length]? ≠ some (some a) := by
        cases holder - b.held.length <;> simp
      simp [hlt, this]
  | cleared => cases h; simp [holds, PermitEntry.isGrant, PermitEntry.isReturn, PermitEntry.isLoss]
  | granted i time endpoint x =>
    obtain ⟨⟨hn, -⟩, rfl⟩ := post_granted h
    have := holds_set hn (some x) (b.breakers.acquire config time endpoint).2 b.lost holder a
    simpa [PermitEntry.isGrant, PermitEntry.isReturn, PermitEntry.isLoss] using this
  | returned i time x outcome =>
    obtain ⟨hf, rfl⟩ := post_returned h
    have := holds_set hf none (b.breakers.modify x.breaker
      (Breaker.settle config time x.permit outcome)) b.lost holder a
    simpa [PermitEntry.isGrant, PermitEntry.isReturn, PermitEntry.isLoss] using this
  | lost i x =>
    obtain ⟨hf, rfl⟩ := post_lost h
    have := holds_set hf none b.breakers (b.lost ++ [x]) holder a
    simpa [PermitEntry.isGrant, PermitEntry.isReturn, PermitEntry.isLoss] using this

/-- A permit is granted as often as it is returned or lost, and once more while it is held. -/
theorem grants_eq_of_post (holder : Nat) (a : Admission) :
    ∀ {es : List PermitEntry} {b b' : PermitBooks}, es.foldlM (post config) b = some b' →
      b.holds holder a + es.countP (·.isGrant holder a) =
        es.countP (·.isReturn holder a) + es.countP (·.isLoss holder a) + b'.holds holder a
  | [], b, b', h => by cases h; simp
  | e :: es, b, b', h => by
    rw [List.foldlM_cons] at h
    obtain ⟨b₁, he, hes⟩ := Option.bind_eq_some_iff.mp h
    have hstep := holds_post he holder a
    have hrest := grants_eq_of_post holder a hes
    simp only [List.countP_cons]
    cases hg : e.isGrant holder a <;> cases hr : e.isReturn holder a <;>
      cases hl : e.isLoss holder a <;> simp [hg, hr, hl] at hstep ⊢ <;> omega

/-! ### The trial slots -/

/-- How many trial permits of a breaker are held or lost. -/
def trials (b : PermitBooks) (id : Nat) : Nat :=
  b.held.count (some ⟨id, .trial⟩) + b.lost.count ⟨id, .trial⟩

/-- Every slot is taken by the only trial permit of its breaker that is held or lost. -/
def Fits (b : PermitBooks) : Prop := ∀ id, (b.breakers.cell id).SlotFits (b.trials id)

theorem count_set {l : List (Option Admission)} {i : Nat} {x : Option Admission} (h : l[i]? = some x)
    (y z : Option Admission) :
    (l.set i y).count z + (if x = z then 1 else 0) = l.count z + if y = z then 1 else 0 := by
  obtain ⟨hlt, hget⟩ := List.getElem?_eq_some_iff.mp h
  have hpos : x = z → 0 < l.count z := by
    rintro rfl
    exact List.count_pos_iff.mpr (hget ▸ List.getElem_mem hlt)
  rw [List.count_set hlt, hget]
  by_cases hx : x = z
  · have := hpos hx
    simp [hx]; omega
  · simp [hx]

theorem Fits.joined (h : b.Fits) : Fits { b with held := b.held ++ [none] } := by
  intro id
  have : trials { b with held := b.held ++ [none] } id = b.trials id := by
    simp [trials, List.count_append]
  rw [this]
  exact h id

theorem Fits.granted (h : b.Fits) {endpoint : String} (hn : b.held[holder]? = some none)
    (ha : (b.breakers.acquire config time endpoint).1 = some (a.breaker, a.permit)) :
    Fits { b with
      breakers := (b.breakers.acquire config time endpoint).2
      held := b.held.set holder (some a) } := by
  obtain ⟨breaker, permit⟩ := a
  obtain ⟨hgrant, hcell⟩ := Breakers.acquire_granted (Prod.ext ha rfl)
  intro id
  simp only [hcell, trials]
  have hcount := count_set hn (some ⟨breaker, permit⟩) (some ⟨id, .trial⟩)
  by_cases hid : id = breaker
  · subst hid
    have hfit := (h id).acquire config time
    rw [hgrant] at hfit
    rw [if_pos rfl]
    cases permit with
    | normal =>
      have hsame : (b.held.set holder (some ⟨id, .normal⟩)).count (some ⟨id, .trial⟩) =
          b.held.count (some ⟨id, .trial⟩) := by simpa using hcount
      rw [hsame]
      exact hfit
    | trial =>
      refine cast (congrArg _ ?_) hfit
      simp [trials] at hcount ⊢
      omega
  · have hne : ¬ breaker = id := fun he => hid he.symm
    have hsame : (b.held.set holder (some ⟨breaker, permit⟩)).count (some ⟨id, .trial⟩) =
        b.held.count (some ⟨id, .trial⟩) := by simpa [hne] using hcount
    rw [if_neg hid, hsame]
    exact h id

theorem Fits.returned (h : b.Fits) (outcome : Outcome)
    (ha : b.held[holder]? = some (some a)) :
    Fits { b with
      breakers := b.breakers.modify a.breaker (Breaker.settle config time a.permit outcome)
      held := b.held.set holder none } := by
  obtain ⟨breaker, permit⟩ := a
  intro id
  simp only [Breakers.cell_modify, trials]
  have hcount := count_set ha none (some ⟨id, .trial⟩)
  by_cases hid : id = breaker
  · subst hid
    cases permit with
    | normal =>
      have hsame : (b.held.set holder none).count (some ⟨id, .trial⟩) =
          b.held.count (some ⟨id, .trial⟩) := by simpa using hcount
      rw [hsame]
      by_cases hlt : id < b.breakers.cells.length
      · rw [if_pos ⟨rfl, hlt⟩]
        exact (h id).settle_normal config time outcome
      · rw [if_neg fun hc => hlt hc.2]
        exact h id
    | trial =>
      have hfit : (b.breakers.cell id).SlotFits
          ((b.held.set holder none).count (some ⟨id, .trial⟩) + b.lost.count ⟨id, .trial⟩ + 1) := by
        refine cast (congrArg _ ?_) (h id)
        simp [trials] at hcount ⊢
        omega
      have hlt : id < b.breakers.cells.length := by
        refine Nat.lt_of_not_le fun hle => ?_
        have hnew : b.breakers.cell id = {} := by
          rw [Breakers.cell, List.getElem?_eq_none hle]; rfl
        have := hfit.trials_eq
        rw [hnew] at this
        cases this
      rw [if_pos ⟨rfl, hlt⟩]
      exact hfit.settle_trial config time outcome
  · have hne : ¬ breaker = id := fun he => hid he.symm
    have hsame : (b.held.set holder none).count (some ⟨id, .trial⟩) =
        b.held.count (some ⟨id, .trial⟩) := by simpa [hne] using hcount
    rw [if_neg fun hc => hid hc.1, hsame]
    exact h id

theorem Fits.lost (h : b.Fits) (ha : b.held[holder]? = some (some a)) :
    Fits { b with held := b.held.set holder none, lost := b.lost ++ [a] } := by
  intro id
  refine cast (congrArg _ ?_) (h id)
  have hcount := count_set ha none (some ⟨id, .trial⟩)
  simp only [Option.some.injEq, reduceCtorEq, if_false, Nat.add_zero] at hcount
  simp only [trials, List.count_append, List.count_singleton, beq_iff_eq]
  omega

theorem Fits.post {e : PermitEntry} (h : b.Fits) (hp : b.post config e = some b') : b'.Fits := by
  cases e with
  | joined => cases hp; exact h.joined
  | cleared => cases hp; exact h
  | granted holder time endpoint a =>
    obtain ⟨⟨hn, ha⟩, rfl⟩ := post_granted hp
    exact h.granted hn ha
  | returned holder time a outcome =>
    obtain ⟨hf, rfl⟩ := post_returned hp
    exact h.returned outcome hf
  | lost holder a =>
    obtain ⟨hf, rfl⟩ := post_lost hp
    exact h.lost hf

theorem Fits.foldlM {es : List PermitEntry} (h : b.Fits)
    (he : es.foldlM (PermitBooks.post config) b = some b') : b'.Fits :=
  foldlM_keeps (fun _ _ _ _ hb hp => hb.post hp) h he

/-- A slot is taken exactly while a trial permit of its breaker is held, or since one was lost. -/
theorem Fits.trialInFlight_iff (h : b.Fits) (id : Nat) :
    (b.breakers.cell id).trialInFlight = true ↔
      (∃ holder : Nat, b.held[holder]? = some (some ⟨id, .trial⟩)) ∨
        Admission.mk id .trial ∈ b.lost := by
  have htrials := (h id).trials_eq
  have hheld : 0 < b.held.count (some ⟨id, .trial⟩) ↔
      ∃ holder : Nat, b.held[holder]? = some (some ⟨id, .trial⟩) := by
    rw [List.count_pos_iff, List.mem_iff_getElem?]
  have hlost : 0 < b.lost.count ⟨id, .trial⟩ ↔
      Admission.mk id .trial ∈ b.lost := List.count_pos_iff
  rw [← hheld, ← hlost]
  rw [trials] at htrials
  cases hs : (b.breakers.cell id).trialInFlight with
  | false =>
    rw [hs, Bool.toNat_false] at htrials
    exact ⟨fun ht => (by cases ht), fun hpos => (by omega)⟩
  | true =>
    rw [hs, Bool.toNat_true] at htrials
    exact ⟨fun _ => (by omega), fun _ => rfl⟩

/-- A breaker whose slot is free grants a trial once it is half open. -/
theorem Fits.grants (h : b.Fits) {id : Nat}
    (hfree : ∀ holder : Nat, b.held[holder]? ≠ some (some ⟨id, .trial⟩))
    (hlost : Admission.mk id .trial ∉ b.lost) :
    (b.breakers.cell id).trialInFlight = false ∧ ((b.breakers.cell id).state = .halfOpen →
      ∀ now, ((b.breakers.cell id).acquire config now).1 = some .trial) := by
  have hslot : (b.breakers.cell id).trialInFlight = false := by
    refine Bool.eq_false_iff.mpr fun ht => ?_
    rcases (h.trialInFlight_iff id).mp ht with ⟨holder, hh⟩ | hl
    · exact hfree holder hh
    · exact hlost hl
  exact ⟨hslot, fun hs now => by simp [Breaker.acquire, hs, hslot]⟩

/-- A breaker that has lost a trial permit stays half open and refuses. -/
theorem Fits.refuses (h : b.Fits) {id : Nat} (hlost : Admission.mk id .trial ∈ b.lost) (now : Nat) :
    (b.breakers.cell id).state = .halfOpen ∧
      (b.breakers.cell id).acquire config now = (none, b.breakers.cell id) := by
  have hslot := (h.trialInFlight_iff id).mpr (Or.inr hlost)
  have hstate := (h id).halfOpen hslot
  exact ⟨hstate, by simp [Breaker.acquire, hstate, hslot]⟩

end PermitBooks

end SlurmLink
