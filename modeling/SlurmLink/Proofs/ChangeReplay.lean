import Mathlib.Data.List.Perm.Basic
import Mathlib.Logic.Function.Basic
import SlurmLink.Watch.Diff

/-!
Following a watch by its events alone. Whoever receives the events keeps a view, the state of each key:

    added item            the key was absent,         and now has the item's state
    changed previous item the key had this state,     and now has the item's
    removed key last      the key had this state,     and now is absent
    failed e              nothing is learned

An event that does not fit the view has no place in a replay (`WatchEvent.Replay`). The events of a
listing replay from what was known before to what the listing says (`Known.replay_ofListing`).
-/

namespace SlurmLink

/-- The state of each key, as far as it has one. -/
abbrev View := String → Option String

namespace WatchEvent

variable {α : Type} (key state : α → String)

/-- What one event does to a view that it fits. -/
inductive Turns : View → WatchEvent α → View → Prop where
  | added {view : View} {item : α} (h : view (key item) = none) :
      Turns view (.added item) (Function.update view (key item) (some (state item)))
  | changed {view : View} {previous : String} {item : α} (h : view (key item) = some previous) :
      Turns view (.changed previous item) (Function.update view (key item) (some (state item)))
  | removed {view : View} {k last : String} (h : view k = some last) :
      Turns view (.removed k last) (Function.update view k none)
  | failed {view : View} {e : Error} : Turns view (.failed e) view

/-- Events, each of which fits the view that the ones before it have made. -/
inductive Replay : View → List (WatchEvent α) → View → Prop where
  | nil {view : View} : Replay view [] view
  | cons {view between last : View} {e : WatchEvent α} {events : List (WatchEvent α)}
      (h : Turns key state view e between) (hrest : Replay between events last) :
      Replay view (e :: events) last

variable {key state} {view last : View} {events : List (WatchEvent α)}

theorem Turns.eq {e : WatchEvent α} {a b : View} (ha : Turns key state view e a)
    (hb : Turns key state view e b) : a = b := by
  cases ha <;> cases hb <;> rfl

/-- A replay leaves no choice. -/
theorem Replay.eq {a b : View} (ha : Replay key state view events a)
    (hb : Replay key state view events b) : a = b := by
  induction ha with
  | nil => cases hb; rfl
  | cons h hrest ih =>
    cases hb with
    | cons h' hrest' => rw [h.eq h'] at ih; exact ih hrest'

theorem Replay.append {between : View} {more : List (WatchEvent α)}
    (h : Replay key state view events between) (h' : Replay key state between more last) :
    Replay key state view (events ++ more) last := by
  induction h with
  | nil => exact h'
  | cons hturn hrest ih => exact .cons hturn (ih h')

/-- Failures teach nothing. -/
theorem Replay.failures : ∀ {events : List (WatchEvent α)}, (∀ e ∈ events, ∃ f, e = .failed f) →
    Replay key state view events view
  | [], _ => .nil
  | e :: events, h => by
    obtain ⟨f, rfl⟩ := h e List.mem_cons_self
    exact .cons .failed (Replay.failures fun e he => h e (List.mem_cons_of_mem _ he))

end WatchEvent

/-- What a listing says: the state of each key that is listed. Of several items with one key the last
    one counts. -/
def View.ofItems {α : Type} (key state : α → String) (items : List α) : View :=
  fun k => (items.reverse.find? fun item => key item == k).map state

namespace View

variable {α : Type} {key state : α → String}

theorem ofItems_cons (item : α) (items : List α) (k : String) :
    ofItems key state (item :: items) k =
      (ofItems key state items k).or (if key item = k then some (state item) else none) := by
  simp only [ofItems, List.reverse_cons, List.find?_append, Option.map_or, List.find?_singleton,
    beq_iff_eq]
  split <;> rfl

theorem ofItems_eq_none_iff {items : List α} {k : String} :
    ofItems key state items k = none ↔ k ∉ items.map key := by
  simp only [ofItems, Option.map_eq_none_iff, List.find?_eq_none, List.mem_reverse, beq_iff_eq,
    List.mem_map, not_exists, not_and]

end View

namespace Known

variable {α : Type} {key state : α → String}

/-- What is known, as a view. -/
def view (known : Known) : View := fun k => known.lookup k

theorem view_cons (i r : String) (rest : Known) (k : String) :
    Known.view ((i, r) :: rest) k = if k = i then some r else rest.view k := by
  simp only [view, List.lookup_cons]
  by_cases h : k = i
  · simp [h]
  · rw [if_neg h, beq_eq_false_iff_ne.mpr h]

theorem view_put (k s : String) : ∀ known : Known,
    (known.put k s).view = Function.update known.view k (some s)
  | [] => by
    funext j
    rw [put, view_cons, Function.update_apply]
  | (i, r) :: rest => by
    funext j
    rw [put, Function.update_apply]
    by_cases hik : i = k
    · subst hik
      rw [if_pos rfl, view_cons, view_cons]
      split <;> rfl
    · rw [if_neg hik, view_cons, view_cons, view_put k s rest, Function.update_apply]
      by_cases hj : j = i
      · subst hj
        rw [if_pos rfl, if_neg hik, if_pos rfl]
      · rw [if_neg hj, if_neg hj]

theorem keys_put (k s : String) : ∀ known : Known,
    (known.put k s).map Prod.fst = if k ∈ known.map Prod.fst then known.map Prod.fst
      else known.map Prod.fst ++ [k]
  | [] => by simp [put]
  | (i, r) :: rest => by
    rw [put]
    by_cases hik : i = k
    · subst hik
      simp
    · have hki : k ≠ i := fun h => hik h.symm
      simp only [if_neg hik, List.map_cons, keys_put k s rest, List.mem_cons, hki, false_or]
      split <;> rfl

theorem nodup_put {known : Known} (h : (known.map Prod.fst).Nodup) (k s : String) :
    ((known.put k s).map Prod.fst).Nodup := by
  rw [keys_put]
  split
  · exact h
  · next hk => exact List.nodup_append.mpr ⟨h, List.pairwise_singleton _ k, fun a ha b hb hab =>
      hk (List.mem_singleton.mp hb ▸ hab ▸ ha)⟩

theorem view_filter (keep : String → Bool) (k : String) : ∀ known : Known,
    Known.view (known.filter fun p => keep p.1) k = if keep k then known.view k else none
  | [] => by simp [view]
  | (i, r) :: rest => by
    have ih := view_filter keep k rest
    rw [List.filter_cons, view_cons]
    by_cases hk : k = i
    · subst hk
      cases hkeep : keep k with
      | true => simp only [if_true, view_cons]
      | false => simpa only [hkeep, Bool.false_eq_true, if_false] using ih
    · rw [if_neg hk, ← ih]
      split
      · rw [view_cons, if_neg hk]
      · rfl

theorem view_eq_of_mem {known : Known} (h : (known.map Prod.fst).Nodup) {p : String × String}
    (hp : p ∈ known) : known.view p.1 = some p.2 := by
  induction known with
  | nil => cases hp
  | cons q rest ih =>
    obtain ⟨hq, hrest⟩ := List.nodup_cons.mp h
    rw [view_cons]
    rcases List.mem_cons.mp hp with rfl | hp
    · rw [if_pos rfl]
    · have hne : p.1 ≠ q.1 := fun he => hq (he ▸ List.mem_map_of_mem hp)
      rw [if_neg hne, ih hrest hp]

theorem mem_of_view : ∀ {known : Known} {k s : String}, known.view k = some s → (k, s) ∈ known
  | [], _, _, h => by cases h
  | (i, r) :: rest, k, s, h => by
    rw [view_cons] at h
    split at h
    · next hk => cases h; exact hk ▸ List.mem_cons_self
    · exact List.mem_cons_of_mem _ (mem_of_view h)

/-! ### One listing -/

open WatchEvent

/-- The states known after the items are those of the items, and the ones known before for the keys that
    are not listed. -/
theorem view_ofItems (baseline : Bool) : ∀ (items : List α) (known : Known) (k : String),
    (WatchEvent.ofItems key state baseline known items).2.view k =
      (View.ofItems key state items k).or (known.view k)
  | [], known, k => rfl
  | item :: items, known, k => by
    have ih := view_ofItems baseline items (known.put (key item) (state item)) k
    rw [View.ofItems_cons, Option.or_assoc]
    simp only [WatchEvent.ofItems]
    rw [ih, view_put, Function.update_apply]
    by_cases hk : k = key item
    · rw [if_pos hk, if_pos hk.symm, Option.some_or]
    · rw [if_neg hk, if_neg fun h => hk h.symm, Option.none_or]

theorem nodup_ofItems (baseline : Bool) : ∀ (items : List α) {known : Known},
    (known.map Prod.fst).Nodup →
      ((WatchEvent.ofItems key state baseline known items).2.map Prod.fst).Nodup
  | [], _, h => h
  | item :: items, _, h => nodup_ofItems baseline items (nodup_put h (key item) (state item))

/-- The events of the items replay, unless the listing is the first one. -/
theorem replay_ofItems : ∀ (items : List α) (known : Known),
    Replay key state known.view (WatchEvent.ofItems key state false known items).1
      (WatchEvent.ofItems key state false known items).2.view
  | [], known => .nil
  | item :: items, known => by
    have ih := replay_ofItems items (known.put (key item) (state item))
    rw [view_put] at ih
    simp only [WatchEvent.ofItems]
    refine Replay.append ?_ ih
    have hview : known.lookup (key item) = known.view (key item) := rfl
    simp only [ofItem, hview]
    cases hknown : known.view (key item) with
    | none => exact .cons (.added hknown) .nil
    | some previous =>
      by_cases hsame : previous = state item
      -- the state has not changed, and noting it again makes no difference
      · simp only [if_pos hsame, Option.toList_none]
        rw [← hsame, ← hknown, Function.update_eq_self]
        exact .nil
      · simp only [if_neg hsame]
        exact .cons (.changed hknown) .nil

/-- The removal of known keys, each once, replays in any order. -/
theorem replay_removed : ∀ (gone : List (String × String)) {view : View},
    (gone.map Prod.fst).Nodup → (∀ p ∈ gone, view p.1 = some p.2) →
      Replay key state view (gone.map fun p => .removed p.1 p.2)
        fun k => if k ∈ gone.map Prod.fst then none else view k
  | [], view, _, _ => by simpa using (.nil : Replay key state view [] view)
  | p :: gone, view, hnodup, hview => by
    obtain ⟨hp, hrest⟩ := List.nodup_cons.mp hnodup
    have hturn : Turns key state view (.removed p.1 p.2) (Function.update view p.1 none) :=
      .removed (hview p List.mem_cons_self)
    have hleft : ∀ q ∈ gone, Function.update view p.1 none q.1 = some q.2 := by
      intro q hq
      have hne : q.1 ≠ p.1 := fun h => hp (h ▸ List.mem_map_of_mem hq)
      rw [Function.update_of_ne hne]
      exact hview q (List.mem_cons_of_mem _ hq)
    have heq : (fun k => if k ∈ (p :: gone).map Prod.fst then none else view k) =
        fun k => if k ∈ gone.map Prod.fst then none else Function.update view p.1 none k := by
      funext k
      simp only [List.map_cons, List.mem_cons, Function.update_apply]
      by_cases hk : k = p.1
      · rw [if_pos (.inl hk), if_pos hk, ite_self]
      · rw [if_neg hk]
        simp only [hk, false_or]
    rw [heq]
    exact .cons hturn (replay_removed gone hrest hleft)

/-- After a listing just the listed items are known. -/
theorem view_ofListing (baseline : Bool) (known : Known) (items : List α) :
    (WatchEvent.ofListing key state baseline known items).2.view = View.ofItems key state items := by
  funext k
  simp only [WatchEvent.ofListing]
  rw [view_filter (fun k => (items.map key).contains k), view_ofItems]
  by_cases hk : k ∈ items.map key
  · rw [if_pos (by simpa using hk)]
    obtain ⟨s, hs⟩ := Option.ne_none_iff_exists'.mp (mt View.ofItems_eq_none_iff.mp (not_not.mpr hk))
    rw [hs, Option.some_or]
  · rw [if_neg (by simpa using hk), View.ofItems_eq_none_iff.mpr hk]

theorem nodup_ofListing (baseline : Bool) {known : Known} (h : (known.map Prod.fst).Nodup)
    (items : List α) :
    ((WatchEvent.ofListing key state baseline known items).2.map Prod.fst).Nodup :=
  (nodup_ofItems baseline items h).sublist (List.filter_sublist.map _)

/-- The events of a listing, unless it is the first one, lead from what was known before to what the
    listing says. -/
theorem replay_ofListing {known : Known} (h : (known.map Prod.fst).Nodup) (items : List α) :
    Replay key state known.view (WatchEvent.ofListing key state false known items).1
      (View.ofItems key state items) := by
  set after := (WatchEvent.ofItems key state false known items).2
  set gone := (after.filter fun p => !(items.map key).contains p.1).mergeSort
    fun p q => decide (p.1 ≤ q.1)
  have hnodup : (after.map Prod.fst).Nodup := nodup_ofItems false items h
  have hperm : gone.Perm (after.filter fun p => !(items.map key).contains p.1) :=
    List.mergeSort_perm _ _
  have hgone : ∀ p, p ∈ gone ↔ p ∈ after ∧ p.1 ∉ items.map key := by
    intro p
    rw [hperm.mem_iff, List.mem_filter, Bool.not_eq_true', List.contains_eq_mem,
      decide_eq_false_iff_not]
  have hkeys : (gone.map Prod.fst).Nodup :=
    (hperm.map Prod.fst).nodup_iff.mpr (hnodup.sublist (List.filter_sublist.map _))
  have hview : ∀ p ∈ gone, after.view p.1 = some p.2 := fun p hp =>
    view_eq_of_mem hnodup ((hgone p).mp hp).1
  have hlast : (fun k => if k ∈ gone.map Prod.fst then none else after.view k) =
      View.ofItems key state items := by
    rw [← view_ofListing false known items]
    funext k
    rw [show Known.view (WatchEvent.ofListing key state false known items).2 k = _ from
      view_filter (fun k => (items.map key).contains k) k after]
    by_cases hk : k ∈ items.map key
    · have hstays : k ∉ gone.map Prod.fst := by
        intro hmem
        obtain ⟨p, hp, rfl⟩ := List.mem_map.mp hmem
        exact ((hgone p).mp hp).2 hk
      rw [if_neg hstays, if_pos (List.contains_iff_mem.mpr hk)]
    · rw [if_neg fun hc => hk (List.contains_iff_mem.mp hc), ite_eq_left_iff]
      -- what is known and not listed is gone, so the key is not known at all
      intro hstays
      cases hs : after.view k with
      | none => rfl
      | some s => exact absurd (List.mem_map_of_mem ((hgone (k, s)).mpr ⟨mem_of_view hs, hk⟩)) hstays
  rw [← hlast]
  exact (replay_ofItems items known).append (replay_removed gone hkeys hview)

end Known

end SlurmLink
