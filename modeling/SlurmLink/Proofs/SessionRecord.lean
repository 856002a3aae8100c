import SlurmLink.Session.Table

/-!
A record of what happens at the cells of a table. Read cell by cell, it is a run of a small machine
(`CellStanding.next`):

    idle ──began i──▶ busy i ──asked i──▶ busy i ──made i s──▶ filled s ──took s──▶ filled s
      ▲                  │                   │
      └──────────────────┴── failed, gaveUp ─┘

So a cell that is filled is never negotiated for again (`foldlM_filled`), all who are given a session by
one cell are given the same (`foldlM_of_gives`), and if the first negotiation that ends is successful it
was the only one (`countP_of_made`).
-/

namespace SlurmLink

/-- What has happened at the cells of a table. -/
inductive SessionEntry where
  /-- A caller begins to negotiate. -/
  | began (caller cell : Nat)
  /-- It asks the server for its release. -/
  | asked (caller cell : Nat)
  /-- It has made the session of the cell. -/
  | made (caller cell : Nat) (s : Session)
  | failed (caller cell : Nat) (e : Error)
  /-- It has given up while it was negotiating. -/
  | gaveUp (caller cell : Nat)
  /-- A caller takes the session that it finds in the cell. -/
  | took (caller cell : Nat) (s : Session)
  deriving DecidableEq

/-- How far a cell has got. -/
inductive CellStanding where
  | idle
  /-- A caller negotiates, and has asked the server or not yet. -/
  | busy (caller : Nat) (asked : Bool)
  | filled (s : Session)
  deriving DecidableEq

namespace SessionEntry

/-- The cell that an entry is about. -/
def cell : SessionEntry → Nat
  | .began _ c | .asked _ c | .made _ c _ | .failed _ c _ | .gaveUp _ c | .took _ c _ => c

def begins : SessionEntry → Bool
  | .began .. => true
  | _ => false

def asks : SessionEntry → Bool
  | .asked .. => true
  | _ => false

/-- Whether a negotiation is over with an entry. -/
def ends : SessionEntry → Bool
  | .made .. | .failed .. | .gaveUp .. => true
  | _ => false

/-- The entry gives a caller the session of its cell. -/
def Gives (e : SessionEntry) (caller c : Nat) (s : Session) : Prop :=
  e = .made caller c s ∨ e = .took caller c s

end SessionEntry

namespace CellStanding

/-- What the standing of a cell comes to with an entry about it, if the entry can be. A negotiation has
    to ask the server before it is over if `asks` holds, and must not ask it otherwise. -/
def next (asks : Bool) (st : CellStanding) (e : SessionEntry) : Option CellStanding :=
  match st, e with
  | .idle, .began i _ => some (.busy i false)
  | .busy i false, .asked j _ => if i = j ∧ asks = true then some (.busy i true) else none
  | .busy i d, .made j _ s => if i = j ∧ d = asks then some (.filled s) else none
  | .busy i d, .failed j _ _ => if i = j ∧ d = asks then some .idle else none
  | .busy i _, .gaveUp j _ => if i = j then some .idle else none
  | .filled s, .took _ _ s' => if s = s' then some (.filled s) else none
  | _, _ => none

/-- What the standing of the cell `c` comes to with an entry about any cell. -/
def post (asks : Bool) (c : Nat) (st : CellStanding) (e : SessionEntry) : Option CellStanding :=
  if e.cell = c then st.next asks e else some st

/-- The ways in which one standing follows another. -/
inductive Follows (asks : Bool) : CellStanding → SessionEntry → CellStanding → Prop where
  | began (i c : Nat) : Follows asks .idle (.began i c) (.busy i false)
  | asked (i c : Nat) (h : asks = true) : Follows asks (.busy i false) (.asked i c) (.busy i true)
  | made (i c : Nat) (s : Session) : Follows asks (.busy i asks) (.made i c s) (.filled s)
  | failed (i c : Nat) (e : Error) : Follows asks (.busy i asks) (.failed i c e) .idle
  | gaveUp (i c : Nat) (d : Bool) : Follows asks (.busy i d) (.gaveUp i c) .idle
  | took (i c : Nat) (s : Session) : Follows asks (.filled s) (.took i c s) (.filled s)

variable {asks : Bool} {c : Nat} {st st' : CellStanding} {e : SessionEntry}

theorem follows_of_next (h : st.next asks e = some st') : Follows asks st e st' := by
  rw [next.eq_def] at h
  split at h
  · cases h; exact .began ..
  · split at h
    · next hi => cases h; exact hi.1 ▸ .asked _ _ hi.2
    · cases h
  · split at h
    · next hi => cases h; rw [← hi.1, hi.2]; exact .made ..
    · cases h
  · split at h
    · next hi => cases h; rw [← hi.1, hi.2]; exact .failed ..
    · cases h
  · split at h
    · next hi => cases h; rw [← hi]; exact .gaveUp ..
    · cases h
  · split at h
    · next hs => cases h; rw [← hs]; exact .took ..
    · cases h
  · cases h

theorem next_of_follows (h : Follows asks st e st') : st.next asks e = some st' := by
  cases h with
  | asked i c ha => simp [next, ha]
  | _ => simp [next]

theorem post_of_ne (h : e.cell ≠ c) : post asks c st e = some st := if_neg h

theorem post_of_eq (h : e.cell = c) : post asks c st e = st.next asks e := if_pos h

/-- A run along a record begins with its first entry. -/
theorem foldlM_cons {es : List SessionEntry} (h : (e :: es).foldlM (post asks c) st = some st') :
    ∃ st₁, es.foldlM (post asks c) st₁ = some st' ∧
      (e.cell = c ∧ Follows asks st e st₁ ∨ e.cell ≠ c ∧ st₁ = st) := by
  rw [List.foldlM_cons, Option.bind_eq_bind, Option.bind_eq_some_iff] at h
  obtain ⟨st₁, hpost, hrest⟩ := h
  refine ⟨st₁, hrest, ?_⟩
  by_cases hc : e.cell = c
  · rw [post_of_eq hc] at hpost
    exact Or.inl ⟨hc, follows_of_next hpost⟩
  · rw [post_of_ne hc] at hpost
    cases hpost
    exact Or.inr ⟨hc, rfl⟩

/-- Once a cell is filled it stays so, and all that happens is that its session is taken. -/
theorem foldlM_filled {y : Session} : ∀ {es : List SessionEntry},
    es.foldlM (post asks c) (.filled y) = some st →
      st = .filled y ∧ ∀ e ∈ es, e.cell = c → ∃ i, e = .took i c y
  | [], h => by
    cases h
    exact ⟨rfl, nofun⟩
  | e :: es, h => by
    obtain ⟨st₁, hrest, ⟨hc, hf⟩ | ⟨hc, rfl⟩⟩ := foldlM_cons h
    · have htaken : ∃ i d, e = .took i d y ∧ st₁ = .filled y := by
        cases hf
        exact ⟨_, _, rfl, rfl⟩
      obtain ⟨i, d, rfl, rfl⟩ := htaken
      have hd : d = c := hc
      obtain ⟨hst, htook⟩ := foldlM_filled hrest
      refine ⟨hst, fun e' he' hd' => ?_⟩
      rcases List.mem_cons.mp he' with rfl | he'
      · exact ⟨i, by rw [hd]⟩
      · exact htook e' he' hd'
    · obtain ⟨hst, htook⟩ := foldlM_filled hrest
      refine ⟨hst, fun e' he' hd => ?_⟩
      rcases List.mem_cons.mp he' with rfl | he'
      · exact absurd hd hc
      · exact htook e' he' hd

/-- Whoever is given a session by a cell is given the one with which the cell is filled. -/
theorem foldlM_of_gives {i : Nat} {y : Session} (hg : e.Gives i c y) :
    ∀ {es : List SessionEntry} {st₀ : CellStanding}, e ∈ es →
      es.foldlM (post asks c) st₀ = some st → st = .filled y
  | [], _, hmem, _ => by cases hmem
  | e' :: es, st₀, hmem, h => by
    obtain ⟨st₁, hrest, hfirst⟩ := foldlM_cons h
    rcases List.mem_cons.mp hmem with rfl | hmem
    · have hc : e.cell = c := by rcases hg with rfl | rfl <;> rfl
      have hfilled : st₁ = .filled y := by
        rcases hfirst with ⟨-, hf⟩ | ⟨hne, -⟩
        · rcases hg with rfl | rfl <;> cases hf <;> rfl
        · exact absurd hc hne
      rw [hfilled] at hrest
      exact (foldlM_filled hrest).1
    · exact foldlM_of_gives hg hmem hrest

/-- Whoever fails has begun. -/
theorem began_of_failed {i : Nat} {f : Error} : ∀ {es : List SessionEntry} {st₀ : CellStanding},
    .failed i c f ∈ es → es.foldlM (post asks c) st₀ = some st →
      .began i c ∈ es ∨ ∃ d, st₀ = .busy i d
  | [], _, hmem, _ => by cases hmem
  | e' :: es, st₀, hmem, h => by
    obtain ⟨st₁, hrest, hfirst⟩ := foldlM_cons h
    rcases List.mem_cons.mp hmem with rfl | hmem
    · rcases hfirst with ⟨-, hf⟩ | ⟨hne, -⟩
      · cases hf
        exact Or.inr ⟨_, rfl⟩
      · exact absurd rfl hne
    · rcases began_of_failed hmem hrest with hbegan | ⟨d, rfl⟩
      · exact Or.inl (List.mem_cons_of_mem _ hbegan)
      · rcases hfirst with ⟨hc, hf⟩ | ⟨-, rfl⟩
        · cases hf with
          | began _ d => cases hc; exact Or.inl List.mem_cons_self
          | asked => exact Or.inr ⟨_, rfl⟩
        · exact Or.inr ⟨d, rfl⟩

/-- How many negotiations have yet to begin, if the next one that ends is successful. -/
def ahead : CellStanding → Nat
  | .idle => 1
  | _ => 0

/-- How often the server has yet to be asked, if the next negotiation that ends is successful. -/
def unasked (asks : Bool) : CellStanding → Nat
  | .idle => asks.toNat
  | .busy _ false => asks.toNat
  | _ => 0

/-- If the next negotiation that ends is successful, no other one begins, and it asks the server once if
    at all. -/
theorem countP_of_made {i : Nat} {y : Session} : ∀ {es : List SessionEntry} {st₀ : CellStanding},
    (∀ e ∈ es, e.cell = c) → es.find? SessionEntry.ends = some (.made i c y) →
      es.foldlM (post asks c) st₀ = some st →
        es.countP SessionEntry.begins = st₀.ahead ∧ es.countP SessionEntry.asks = st₀.unasked asks
  | [], _, _, hends, _ => by cases hends
  | e :: es, st₀, hcell, hends, h => by
    obtain ⟨st₁, hrest, ⟨-, hf⟩ | ⟨hne, -⟩⟩ := foldlM_cons h
    · have hcell' : ∀ e ∈ es, e.cell = c := fun e' he' => hcell e' (List.mem_cons_of_mem _ he')
      cases hf with
      | began j d =>
        obtain ⟨hb, ha⟩ := countP_of_made hcell' hends hrest
        simp [List.countP_cons, SessionEntry.begins, SessionEntry.asks, hb, ha, ahead, unasked]
      | asked j d hasks =>
        obtain ⟨hb, ha⟩ := countP_of_made hcell' hends hrest
        simp [List.countP_cons, SessionEntry.begins, SessionEntry.asks, hb, ha, ahead, unasked,
          hasks]
      | made j d z =>
        obtain ⟨-, htook⟩ := foldlM_filled hrest
        have hquiet : es.countP SessionEntry.begins = 0 ∧ es.countP SessionEntry.asks = 0 := by
          simp only [List.countP_eq_zero]
          refine ⟨fun e' he' => ?_, fun e' he' => ?_⟩
          all_goals
            obtain ⟨k, rfl⟩ := htook e' he' (hcell' e' he')
            simp [SessionEntry.begins, SessionEntry.asks]
        cases asks <;> simp [SessionEntry.begins, SessionEntry.asks, hquiet, ahead, unasked]
      | failed => cases hends
      | gaveUp => cases hends
      | took j d z =>
        obtain ⟨-, htook⟩ := foldlM_filled hrest
        have hmade := List.mem_of_find?_eq_some (Eq.trans rfl hends : es.find? _ = _)
        obtain ⟨k, hk⟩ := htook _ hmade rfl
        cases hk
    · exact absurd (hcell e List.mem_cons_self) hne

end CellStanding

end SlurmLink
