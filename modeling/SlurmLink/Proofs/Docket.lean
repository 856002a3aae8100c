import SlurmLink.Proofs.PermitBooks

/-!
What a ledger of permits says about one endpoint. Its docket has what came to the ears of the endpoint's
breaker since the endpoints were last forgotten: the permits granted for that endpoint, and what came
back of just these:

    ledger         granted A   granted B   cleared   granted A   returned (first)   returned (last)
    docket of A    admitted                –         admitted                       told

Whatever else is in the ledger, the breaker of the endpoint is what this makes of a new one
(`PermitBooks.Matches.foldlM`). A breaker belongs to the endpoint for which it was made until the
endpoints are forgotten, and to none from then on (`Breakers.Owns`), so that two permits come from one
breaker exactly if they are for one endpoint and nothing was forgotten in between
(`PermitBooks.breaker_eq_iff`).
-/

namespace SlurmLink

namespace Breakers

variable {bs : Breakers} {config : BreakerConfig} {now id : Nat} {endpoint key : String}

/-- The index leads to breakers that have been made, to another one for each endpoint. -/
structure Indexed (bs : Breakers) : Prop where
  made : ∀ endpoint id, bs.find? endpoint = some id → id < bs.cells.length
  inj : ∀ endpoint key id, bs.find? endpoint = some id → bs.find? key = some id → endpoint = key

theorem indexed_of_index (h : bs.index = []) : bs.Indexed := by
  have hnone : ∀ endpoint, bs.find? endpoint = none := by
    intro endpoint
    rw [find?, h]
    rfl
  refine ⟨fun endpoint id hf => ?_, fun endpoint key id hf => ?_⟩
  · rw [hnone] at hf
    cases hf
  · rw [hnone] at hf
    cases hf

theorem Indexed.get?_eq (h : bs.Indexed) (endpoint : String) :
    bs.get? endpoint = (bs.find? endpoint).map bs.cell := by
  rw [get?]
  cases hf : bs.find? endpoint with
  | none => rfl
  | some id =>
    simp only [Option.bind_some, Option.map_some, cell, List.getElem?_eq_getElem (h.made _ _ hf),
      Option.getD_some]

/-- Either the endpoint has a breaker, or it gets the next one. -/
theorem obtain_cases (bs : Breakers) (endpoint : String) :
    (∃ id, bs.find? endpoint = some id ∧ bs.obtain endpoint = (id, bs)) ∨
    (bs.find? endpoint = none ∧ (bs.obtain endpoint).1 = bs.cells.length ∧
      (bs.obtain endpoint).2.cells.length = bs.cells.length + 1) := by
  rw [obtain]
  cases bs.find? endpoint with
  | some id => exact Or.inl ⟨id, rfl, rfl⟩
  | none => exact Or.inr ⟨rfl, rfl, by simp⟩

/-- A breaker that has been made is the one that is obtained just if it is the endpoint's. -/
theorem obtain_eq_iff (hlt : id < bs.cells.length) :
    (bs.obtain endpoint).1 = id ↔ bs.find? endpoint = some id := by
  rcases bs.obtain_cases endpoint with ⟨d, hf, ho⟩ | ⟨hf, hnew, -⟩
  · rw [hf, ho, Option.some.injEq]
  · rw [hf, hnew]
    exact ⟨fun h => by omega, nofun⟩

theorem cell_obtain_fst (h : bs.Indexed) (endpoint : String) :
    bs.cell (bs.obtain endpoint).1 = (bs.get? endpoint).getD {} := by
  rw [h.get?_eq]
  rcases bs.obtain_cases endpoint with ⟨d, hf, ho⟩ | ⟨hf, hnew, -⟩
  · rw [hf, ho]
    rfl
  · rw [hf, hnew, cell, List.getElem?_eq_none (Nat.le_refl _)]
    rfl

theorem find?_acquire (config : BreakerConfig) (now : Nat) (endpoint key : String)
    (bs : Breakers) : (bs.acquire config now endpoint).2.find? key =
      if key = endpoint then some (bs.obtain endpoint).1 else bs.find? key := by
  show (bs.obtain endpoint).2.find? key = _
  cases hf : bs.find? endpoint with
  | some id =>
    rw [show bs.obtain endpoint = (id, bs) by rw [obtain, hf]]
    by_cases he : key = endpoint
    · rw [if_pos he, he, hf]
    · rw [if_neg he]
  | none =>
    rw [show bs.obtain endpoint = (bs.cells.length,
      { cells := bs.cells ++ [{}], index := bs.index ++ [(endpoint, bs.cells.length)] }) by
        rw [obtain, hf]]
    rw [find?] at hf
    simp only [find?, List.lookup_append]
    by_cases he : key = endpoint
    · simp [he, hf]
    · have hne : (key == endpoint) = false := by simpa using he
      simp [he, List.lookup_cons, hne]

theorem length_acquire (config : BreakerConfig) (now : Nat) (endpoint : String) (bs : Breakers) :
    (bs.acquire config now endpoint).2.cells.length = (bs.obtain endpoint).2.cells.length :=
  List.length_modify ..

theorem length_le_acquire (config : BreakerConfig) (now : Nat) (endpoint : String)
    (bs : Breakers) : bs.cells.length ≤ (bs.acquire config now endpoint).2.cells.length := by
  rw [length_acquire]
  rcases bs.obtain_cases endpoint with ⟨d, -, ho⟩ | ⟨-, -, hlength⟩
  · exact Nat.le_of_eq (congrArg (fun r => r.2.cells.length) ho).symm
  · omega

theorem Indexed.obtain_lt (h : bs.Indexed) (config : BreakerConfig) (now : Nat)
    (endpoint : String) :
    (bs.obtain endpoint).1 < (bs.acquire config now endpoint).2.cells.length := by
  rw [length_acquire]
  rcases bs.obtain_cases endpoint with ⟨d, hf, ho⟩ | ⟨-, hnew, hlength⟩
  · rw [ho]
    exact h.made _ _ hf
  · omega

theorem Indexed.acquire (h : bs.Indexed) (config : BreakerConfig) (now : Nat)
    (endpoint : String) : (bs.acquire config now endpoint).2.Indexed := by
  refine ⟨fun key id hf => ?_, fun key key' id hf hf' => ?_⟩
  · rw [find?_acquire] at hf
    split at hf
    · cases hf
      exact h.obtain_lt config now endpoint
    · exact Nat.lt_of_lt_of_le (h.made _ _ hf) (length_le_acquire ..)
  · rw [find?_acquire] at hf hf'
    split at hf <;> split at hf'
    · next he he' => rw [he, he']
    · next he _ =>
      rw [he]
      cases hf
      exact h.inj _ _ _ ((obtain_eq_iff (h.made _ _ hf')).mp rfl) hf'
    · next _ he' =>
      rw [he']
      cases hf'
      exact h.inj _ _ _ hf ((obtain_eq_iff (h.made _ _ hf)).mp rfl)
    · exact h.inj _ _ _ hf hf'

/-- Telling a breaker something changes nothing about whose it is. -/
theorem Indexed.modify (h : bs.Indexed) (id : Nat) (f : Breaker → Breaker) :
    (bs.modify id f).Indexed := by
  have hlength : (bs.modify id f).cells.length = bs.cells.length := List.length_modify ..
  exact ⟨fun key d hf => hlength ▸ h.made key d hf, h.inj⟩

/-- Asking for another endpoint does not change the breaker of an endpoint. -/
theorem Indexed.get?_acquire_of_ne (h : bs.Indexed) (config : BreakerConfig) (now : Nat)
    {e : String} (he : e ≠ endpoint) :
    (bs.acquire config now e).2.get? endpoint = bs.get? endpoint := by
  rw [(h.acquire config now e).get?_eq, h.get?_eq, find?_acquire, if_neg fun h => he h.symm]
  refine Option.map_congr fun id hf => ?_
  rw [(acquire_spec config now e bs).2, if_neg]
  rintro rfl
  exact he (h.inj _ _ _ ((obtain_eq_iff (h.made _ _ hf)).mp rfl) hf)

/-- Telling another breaker something does not change the breaker of an endpoint. -/
theorem Indexed.get?_modify_of_ne (h : bs.Indexed) (f : Breaker → Breaker)
    (hid : bs.find? endpoint ≠ some id) : (bs.modify id f).get? endpoint = bs.get? endpoint := by
  rw [(h.modify id f).get?_eq, h.get?_eq]
  refine Option.map_congr fun d hf => ?_
  rw [cell_modify, if_neg]
  rintro ⟨rfl, -⟩
  exact hid hf

/-- The breaker belongs to the given endpoint, or to none. -/
structure Owns (bs : Breakers) (id : Nat) (owner : Option String) : Prop where
  made : id < bs.cells.length
  find?_iff : ∀ key, bs.find? key = some id ↔ owner = some key

theorem Owns.acquire {owner : Option String} (h : bs.Owns id owner) (config : BreakerConfig)
    (now : Nat) (endpoint : String) : (bs.acquire config now endpoint).2.Owns id owner := by
  refine ⟨Nat.lt_of_lt_of_le h.made (length_le_acquire ..), fun key => ?_⟩
  rw [find?_acquire]
  split
  · next he => rw [Option.some.injEq, obtain_eq_iff h.made, h.find?_iff, he]
  · exact h.find?_iff key

theorem Owns.modify {owner : Option String} (h : bs.Owns id owner) (d : Nat)
    (f : Breaker → Breaker) : (bs.modify d f).Owns id owner :=
  ⟨Nat.lt_of_lt_of_le h.made (Nat.le_of_eq (List.length_modify ..).symm), h.find?_iff⟩

theorem Owns.clear {owner : Option String} (h : bs.Owns id owner) : bs.clear.Owns id none :=
  ⟨h.made, fun key => ⟨fun hf => (by cases hf), nofun⟩⟩

/-- The breaker that grants a permit belongs to the endpoint of the permit. -/
theorem Indexed.owns_obtain (h : bs.Indexed) (config : BreakerConfig) (now : Nat)
    (endpoint : String) :
    (bs.acquire config now endpoint).2.Owns (bs.obtain endpoint).1 (some endpoint) := by
  have hfound : (bs.acquire config now endpoint).2.find? endpoint =
      some (bs.obtain endpoint).1 := by
    rw [find?_acquire, if_pos rfl]
  refine ⟨h.obtain_lt config now endpoint, fun key => ⟨fun hf => ?_, fun he => ?_⟩⟩
  · rw [(h.acquire config now endpoint).inj _ _ _ hfound hf]
  · cases he
    exact hfound

end Breakers

/-! ### The docket of an endpoint -/

/-- What comes to the ears of a breaker. -/
inductive Notice where
  | admitted (time : Nat) (permit : Permit)
  | told (time : Nat) (permit : Permit) (outcome : Outcome)
  deriving DecidableEq, Repr

/-- What a notice makes of a breaker; the first one is what it is made for. -/
def Notice.apply (config : BreakerConfig) (b : Option Breaker) : Notice → Option Breaker
  | .admitted time _ => some ((b.getD {}).acquire config time).2
  | .told time permit outcome => b.map (Breaker.settle config time permit outcome)

/-- The breaker that has come of a list of notices, if there are any. -/
def Breaker.ofNotices (config : BreakerConfig) (notices : List Notice) : Option Breaker :=
  notices.foldl (Notice.apply config) none

theorem Breaker.ofNotices_concat (config : BreakerConfig) (notices : List Notice) (n : Notice) :
    ofNotices config (notices ++ [n]) = n.apply config (ofNotices config notices) := by
  rw [ofNotices, List.foldl_append]
  rfl

/-- What a ledger says about an endpoint since the endpoints were last forgotten. -/
structure Docket where
  /-- Those who hold a permit that was granted for the endpoint. -/
  holders : List Nat := []
  notices : List Notice := []
  deriving DecidableEq, Repr

namespace Docket

/-- What an entry means for an endpoint. -/
def post (endpoint : String) (d : Docket) : PermitEntry → Docket
  | .joined => d
  | .granted holder time e a =>
    if e = endpoint then
      { holders := holder :: d.holders, notices := d.notices ++ [.admitted time a.permit] }
    else d
  | .returned holder time a outcome =>
    if holder ∈ d.holders then
      { holders := d.holders.filter (· ≠ holder)
        notices := d.notices ++ [.told time a.permit outcome] }
    else d
  | .lost holder _ => { d with holders := d.holders.filter (· ≠ holder) }
  | .cleared => {}

/-- The docket of an endpoint. -/
def ofLedger (endpoint : String) (ledger : List PermitEntry) : Docket :=
  ledger.foldl (post endpoint) {}

end Docket

namespace PermitBooks

variable {config : BreakerConfig} {b b' : PermitBooks} {d : Docket} {endpoint : String}
  {holder time : Nat} {a : Admission}

/-- The books say of an endpoint what its docket says. -/
structure Matches (config : BreakerConfig) (endpoint : String) (b : PermitBooks) (d : Docket) :
    Prop where
  indexed : b.breakers.Indexed
  get?_eq : b.breakers.get? endpoint = Breaker.ofNotices config d.notices
  made : ∀ (holder : Nat) (a : Admission), b.held[holder]? = some (some a) →
    a.breaker < b.breakers.cells.length
  /-- The permits that were granted for the endpoint are those of its breaker. -/
  mem_iff : ∀ holder : Nat, holder ∈ d.holders ↔
    ∃ a : Admission, b.held[holder]? = some (some a) ∧ b.breakers.find? endpoint = some a.breaker

theorem getElem?_set_held {x : Option Admission} (h : b.held[holder]? = some x)
    (y : Option Admission) (j : Nat) :
    (b.held.set holder y)[j]? = if j = holder then some y else b.held[j]? := by
  obtain ⟨hlt, -⟩ := List.getElem?_eq_some_iff.mp h
  rw [List.getElem?_set]
  by_cases hj : j = holder
  · rw [if_pos hj.symm, if_pos hj, if_pos hlt]
  · rw [if_neg fun he => hj he.symm, if_neg hj]

theorem getElem?_append_none {j : Nat} :
    (b.held ++ [none])[j]? = some (some a) ↔ b.held[j]? = some (some a) := by
  rw [List.getElem?_append]
  split
  · rfl
  · next hlt =>
    rw [List.getElem?_eq_none (l := b.held) (by omega)]
    cases hj : j - b.held.length <;> simp

/-- The breaker that grants a permit is the one that is obtained for the endpoint. -/
theorem breaker_eq_obtain {e : String}
    (ha : (b.breakers.acquire config time e).1 = some (a.breaker, a.permit)) :
    a.breaker = (b.breakers.obtain e).1 := by
  rw [(Breakers.acquire_spec config time e b.breakers).1] at ha
  obtain ⟨permit, -, he⟩ := Option.map_eq_some_iff.mp ha
  exact (congrArg Prod.fst he).symm

theorem Matches.joined (h : Matches config endpoint b d) :
    Matches config endpoint { b with held := b.held ++ [none] } d := by
  refine ⟨h.indexed, h.get?_eq, fun j x hx => ?_, fun j => ?_⟩
  · exact h.made j x (getElem?_append_none.mp hx)
  · simp only [getElem?_append_none]
    exact h.mem_iff j

/-- Whoever holds a permit has it from a breaker that has been made, also once somebody is granted one. -/
theorem Matches.made_granted (h : Matches config endpoint b d) {e : String}
    (hn : b.held[holder]? = some none)
    (ha : (b.breakers.acquire config time e).1 = some (a.breaker, a.permit)) {j : Nat}
    {x : Admission} (hx : (b.held.set holder (some a))[j]? = some (some x)) :
    x.breaker < (b.breakers.acquire config time e).2.cells.length := by
  rw [getElem?_set_held hn] at hx
  split at hx
  · cases hx
    rw [breaker_eq_obtain ha]
    exact h.indexed.obtain_lt ..
  · exact Nat.lt_of_lt_of_le (h.made j x hx) (Breakers.length_le_acquire ..)

/-- A permit is granted for the endpoint. -/
theorem Matches.granted (h : Matches config endpoint b d) (hn : b.held[holder]? = some none)
    (ha : (b.breakers.acquire config time endpoint).1 = some (a.breaker, a.permit)) :
    Matches config endpoint { b with
      breakers := (b.breakers.acquire config time endpoint).2
      held := b.held.set holder (some a) }
    { holders := holder :: d.holders, notices := d.notices ++ [.admitted time a.permit] } := by
  have hid := breaker_eq_obtain ha
  have hcell := (Breakers.acquire_spec config time endpoint b.breakers).2
  have hfound : (b.breakers.acquire config time endpoint).2.find? endpoint = some a.breaker := by
    rw [Breakers.find?_acquire, if_pos rfl, hid]
  refine ⟨h.indexed.acquire .., ?_, fun _ _ hx => h.made_granted hn ha hx, fun j => ?_⟩
  · rw [(h.indexed.acquire config time endpoint).get?_eq, hfound, Option.map_some, hcell, hid,
      if_pos rfl, Breakers.cell_obtain_fst h.indexed, h.get?_eq, Breaker.ofNotices_concat]
    rfl
  · rw [List.mem_cons, hfound]
    simp only [getElem?_set_held hn]
    by_cases hj : j = holder
    · simp [hj]
    · simp only [hj, false_or, if_false, h.mem_iff]
      refine exists_congr fun x => and_congr_right fun hx => ?_
      rw [← Breakers.obtain_eq_iff (h.made j x hx), hid, Option.some.injEq]

/-- A permit is granted for another endpoint. -/
theorem Matches.granted_of_ne (h : Matches config endpoint b d) {e : String} (he : e ≠ endpoint)
    (hn : b.held[holder]? = some none)
    (ha : (b.breakers.acquire config time e).1 = some (a.breaker, a.permit)) :
    Matches config endpoint { b with
      breakers := (b.breakers.acquire config time e).2
      held := b.held.set holder (some a) } d := by
  have hid := breaker_eq_obtain ha
  have hfound : (b.breakers.acquire config time e).2.find? endpoint =
      b.breakers.find? endpoint := by
    rw [Breakers.find?_acquire, if_neg fun h => he h.symm]
  have hother : b.breakers.find? endpoint ≠ some a.breaker := by
    intro hf
    have hf' := (Breakers.obtain_eq_iff (h.indexed.made _ _ hf)).mp hid.symm
    exact he (h.indexed.inj _ _ _ hf' hf)
  refine ⟨h.indexed.acquire .., ?_, fun _ _ hx => h.made_granted hn ha hx, fun j => ?_⟩
  · exact (h.indexed.get?_acquire_of_ne config time he).trans h.get?_eq
  · rw [hfound, h.mem_iff]
    simp only [getElem?_set_held hn]
    by_cases hj : j = holder
    · subst hj
      simp [hn, hother]
    · simp [hj]

/-- The permits for the endpoint that are left when somebody's is gone. -/
theorem Matches.mem_iff_set (h : Matches config endpoint b d) {x : Option Admission}
    (ha : b.held[holder]? = some x) (j : Nat) : j ∈ d.holders.filter (· ≠ holder) ↔
      ∃ a : Admission, (b.held.set holder none)[j]? = some (some a) ∧
        b.breakers.find? endpoint = some a.breaker := by
  simp only [List.mem_filter, decide_eq_true_eq, h.mem_iff, getElem?_set_held ha]
  by_cases hj : j = holder <;> simp [hj]

theorem Matches.made_set (h : Matches config endpoint b d) {x : Option Admission}
    (ha : b.held[holder]? = some x) {j : Nat} {y : Admission}
    (hy : (b.held.set holder none)[j]? = some (some y)) :
    y.breaker < b.breakers.cells.length := by
  rw [getElem?_set_held ha] at hy
  split at hy
  · cases hy
  · exact h.made j y hy

/-- A permit that was granted for the endpoint comes back. -/
theorem Matches.returned (h : Matches config endpoint b d) (outcome : Outcome)
    (ha : b.held[holder]? = some (some a)) (hmem : holder ∈ d.holders) :
    Matches config endpoint { b with
      breakers := b.breakers.modify a.breaker (Breaker.settle config time a.permit outcome)
      held := b.held.set holder none }
    { holders := d.holders.filter (· ≠ holder)
      notices := d.notices ++ [.told time a.permit outcome] } := by
  have hfound : b.breakers.find? endpoint = some a.breaker := by
    obtain ⟨x, hx, hf⟩ := (h.mem_iff holder).mp hmem
    rw [ha] at hx
    cases hx
    exact hf
  refine ⟨h.indexed.modify _ _, ?_, fun j x hx => ?_, h.mem_iff_set ha⟩
  · have hget := h.get?_eq
    rw [h.indexed.get?_eq, hfound] at hget
    rw [(h.indexed.modify _ _).get?_eq, Breaker.ofNotices_concat, ← hget]
    show (b.breakers.find? endpoint).map _ = _
    rw [hfound, Option.map_some, Breakers.cell_modify, if_pos ⟨rfl, h.made _ _ ha⟩]
    rfl
  · exact Nat.lt_of_lt_of_le (h.made_set ha hx) (Nat.le_of_eq (List.length_modify ..).symm)

/-- Another permit comes back. -/
theorem Matches.returned_of_notMem (h : Matches config endpoint b d) (outcome : Outcome)
    (ha : b.held[holder]? = some (some a)) (hmem : holder ∉ d.holders) :
    Matches config endpoint { b with
      breakers := b.breakers.modify a.breaker (Breaker.settle config time a.permit outcome)
      held := b.held.set holder none } d := by
  have hother : b.breakers.find? endpoint ≠ some a.breaker := fun hf =>
    hmem ((h.mem_iff holder).mpr ⟨a, ha, hf⟩)
  have hkeep : d.holders.filter (· ≠ holder) = d.holders := by
    refine List.filter_eq_self.mpr fun j hj => decide_eq_true ?_
    rintro rfl
    exact hmem hj
  refine ⟨h.indexed.modify _ _, ?_, fun j x hx => ?_, hkeep ▸ h.mem_iff_set ha⟩
  · exact (h.indexed.get?_modify_of_ne _ hother).trans h.get?_eq
  · exact Nat.lt_of_lt_of_le (h.made_set ha hx) (Nat.le_of_eq (List.length_modify ..).symm)

theorem Matches.lost (h : Matches config endpoint b d) (ha : b.held[holder]? = some (some a)) :
    Matches config endpoint { b with held := b.held.set holder none, lost := b.lost ++ [a] }
      { d with holders := d.holders.filter (· ≠ holder) } :=
  ⟨h.indexed, h.get?_eq, fun _ _ hx => h.made_set ha hx, h.mem_iff_set ha⟩

theorem Matches.cleared (h : Matches config endpoint b d) :
    Matches config endpoint { b with breakers := b.breakers.clear } {} := by
  refine ⟨Breakers.indexed_of_index rfl, rfl, h.made, fun j => ⟨nofun, ?_⟩⟩
  rintro ⟨x, -, hf⟩
  cases hf

/-- An entry means for the docket what it means for the books. -/
theorem Matches.post (h : Matches config endpoint b d) {e : PermitEntry}
    (hp : b.post config e = some b') : Matches config endpoint b' (d.post endpoint e) := by
  cases e with
  | joined => cases hp; exact h.joined
  | cleared => cases hp; exact h.cleared
  | granted holder time e a =>
    obtain ⟨⟨hn, ha⟩, rfl⟩ := post_granted hp
    rw [Docket.post]
    split
    · next he =>
      subst he
      exact h.granted hn ha
    · next he => exact h.granted_of_ne he hn ha
  | returned holder time a outcome =>
    obtain ⟨ha, rfl⟩ := post_returned hp
    rw [Docket.post]
    split
    · next hmem => exact h.returned outcome ha hmem
    · next hmem => exact h.returned_of_notMem outcome ha hmem
  | lost holder a =>
    obtain ⟨ha, rfl⟩ := post_lost hp
    exact h.lost ha

theorem Matches.foldlM : ∀ {es : List PermitEntry} {b b' : PermitBooks} {d : Docket},
    Matches config endpoint b d → es.foldlM (PermitBooks.post config) b = some b' →
      Matches config endpoint b' (es.foldl (Docket.post endpoint) d)
  | [], b, b', d, h, he => by cases he; exact h
  | e :: es, b, b', d, h, he => by
    rw [List.foldlM_cons] at he
    obtain ⟨b₁, hp, hes⟩ := Option.bind_eq_some_iff.mp he
    rw [List.foldl_cons]
    exact Matches.foldlM (h.post hp) hes

/-- Books without breakers, and without anybody who could hold a permit. -/
theorem matches_new (config : BreakerConfig) (endpoint : String) (lost : List Admission) :
    Matches config endpoint { breakers := {}, lost } {} := by
  refine ⟨Breakers.indexed_of_index rfl, rfl, fun j x hx => ?_, fun j => ⟨nofun, ?_⟩⟩
  · cases hx
  · rintro ⟨x, hx, -⟩
    cases hx

/-! ### Whose breaker it is -/

/-- A breaker keeps its owner with every entry, but for the one with which the endpoints are forgotten. -/
theorem owns_post {e : PermitEntry} {id : Nat} {owner : Option String}
    (h : b.breakers.Owns id owner) (hp : b.post config e = some b') :
    b'.breakers.Owns id (if e = .cleared then none else owner) := by
  cases e with
  | joined => cases hp; exact h
  | cleared => cases hp; exact h.clear
  | granted holder time e a =>
    obtain ⟨-, rfl⟩ := post_granted hp
    exact h.acquire ..
  | returned holder time a outcome =>
    obtain ⟨-, rfl⟩ := post_returned hp
    exact h.modify ..
  | lost holder a =>
    obtain ⟨-, rfl⟩ := post_lost hp
    exact h

theorem owns_foldlM {id : Nat} : ∀ {es : List PermitEntry} {b b' : PermitBooks}
    {owner : Option String}, b.breakers.Owns id owner →
      es.foldlM (PermitBooks.post config) b = some b' →
        b'.breakers.Owns id (if .cleared ∈ es then none else owner)
  | [], b, b', owner, h, he => by cases he; exact h
  | e :: es, b, b', owner, h, he => by
    rw [List.foldlM_cons] at he
    obtain ⟨b₁, hp, hes⟩ := Option.bind_eq_some_iff.mp he
    have hrest := owns_foldlM (owns_post h hp) hes
    simp only [List.mem_cons]
    by_cases hc : e = .cleared
    · rw [if_pos hc, ite_self] at hrest
      rwa [if_pos (Or.inl hc.symm)]
    · rw [if_neg hc] at hrest
      have hne : ¬ PermitEntry.cleared = e := fun h => hc h.symm
      simp only [hne, false_or]
      exact hrest

theorem indexed_post {e : PermitEntry} (h : b.breakers.Indexed) (hp : b.post config e = some b') :
    b'.breakers.Indexed := by
  cases e with
  | joined => cases hp; exact h
  | cleared => cases hp; exact Breakers.indexed_of_index rfl
  | granted holder time e a =>
    obtain ⟨-, rfl⟩ := post_granted hp
    exact h.acquire ..
  | returned holder time a outcome =>
    obtain ⟨-, rfl⟩ := post_returned hp
    exact h.modify ..
  | lost holder a =>
    obtain ⟨-, rfl⟩ := post_lost hp
    exact h

theorem indexed_foldlM {es : List PermitEntry} (h : b.breakers.Indexed)
    (he : es.foldlM (PermitBooks.post config) b = some b') : b'.breakers.Indexed :=
  foldlM_keeps (P := fun b => b.breakers.Indexed) (fun _ _ _ _ hb hp => indexed_post hb hp) h he

/-- After a permit was granted, its breaker is the one of the permit's endpoint until the endpoints are
    forgotten. -/
theorem owns_granted {before rest : List PermitEntry} (hi : b.breakers.Indexed)
    (h : (before ++ .granted holder time endpoint a :: rest).foldlM (PermitBooks.post config) b =
      some b') :
    b'.breakers.Owns a.breaker (if .cleared ∈ rest then none else some endpoint) := by
  rw [List.foldlM_append] at h
  obtain ⟨b₁, hbefore, h⟩ := Option.bind_eq_some_iff.mp h
  rw [List.foldlM_cons] at h
  obtain ⟨b₂, hp, hrest⟩ := Option.bind_eq_some_iff.mp h
  obtain ⟨⟨-, ha⟩, rfl⟩ := post_granted hp
  refine owns_foldlM ?_ hrest
  rw [breaker_eq_obtain ha]
  exact (indexed_foldlM hi hbefore).owns_obtain ..

/-- Two permits come from one breaker exactly if they are for one endpoint and the endpoints were not
    forgotten in between. -/
theorem breaker_eq_iff {before between rest : List PermitEntry} {j time' : Nat} {e : String}
    {x : Admission} (hi : b.breakers.Indexed)
    (h : (before ++ .granted holder time endpoint a :: (between ++ .granted j time' e x :: rest)).foldlM
      (PermitBooks.post config) b = some b') :
    a.breaker = x.breaker ↔ endpoint = e ∧ .cleared ∉ between := by
  rw [← List.cons_append, ← List.append_assoc, List.foldlM_append] at h
  obtain ⟨b₁, hbefore, h⟩ := Option.bind_eq_some_iff.mp h
  rw [List.foldlM_cons] at h
  obtain ⟨b₂, hp, -⟩ := Option.bind_eq_some_iff.mp h
  obtain ⟨⟨-, hx⟩, -⟩ := post_granted hp
  have howns := owns_granted hi hbefore
  rw [eq_comm, breaker_eq_obtain hx, Breakers.obtain_eq_iff howns.made, howns.find?_iff]
  split
  · next hc => exact ⟨nofun, fun hn => absurd hc hn.2⟩
  · next hc => exact ⟨fun he => ⟨Option.some.inj he, hc⟩, fun he => congrArg some he.1⟩

end PermitBooks

end SlurmLink
