import Mathlib.Data.List.Nodup
import SlurmLink.Proofs.Stillness

/-!
What a listing tells when each key is listed at most once. The items are compared one by one with what
is known, which they change as they go, and then what is known is compared with them:

    known          a IDLE    b DOWN    c IDLE    z IDLE
    listed         c DOWN    n IDLE    a IDLE
    told           c IDLE ──▶ DOWN,  n added,  b removed,  z removed

Since no item meets the key of another one, each is compared with what was known at first
(`ofItems_eq_filterMap`), and so what is told can be read off the two tables alone (`listing_exact`).
-/

namespace SlurmLink

variable {α : Type} {key state : α → String} {baseline : Bool} {known : Known} {items : List α}

namespace WatchEvent

/-- The key of what the event is about. -/
def key? (key : α → String) : WatchEvent α → Option String
  | .added item => some (key item)
  | .changed _ item => some (key item)
  | .removed k _ => some k
  | .failed _ => none

def isAdded : WatchEvent α → Bool
  | .added _ => true
  | _ => false

/-- What there is to tell of an item, beside a table of states: that its key has none, or another
    one. -/
inductive News (key state : α → String) (table : View) (item : α) : WatchEvent α → Prop where
  | added (h : table (key item) = none) : News key state table item (.added item)
  | changed {previous : String} (h : table (key item) = some previous)
      (hne : previous ≠ state item) : News key state table item (.changed previous item)

theorem News.key?_eq {table : View} {item : α} {e : WatchEvent α}
    (h : News key state table item e) : e.key? key = some (key item) := by
  cases h <;> rfl

/-! ### One item -/

theorem ofItem_eq_some_iff {item : α} {e : WatchEvent α} :
    ofItem key state false known item = some e ↔ News key state known.view item e := by
  have hview : known.lookup (key item) = known.view (key item) := rfl
  rw [ofItem, hview]
  constructor
  · intro h
    cases hknown : known.view (key item) with
    | none =>
      rw [hknown] at h
      cases h
      exact .added hknown
    | some previous =>
      simp only [hknown] at h
      split at h
      · cases h
      · next hne => cases h; exact .changed hknown hne
  · rintro (hnone | ⟨hsome, hne⟩)
    · rw [hnone]
      rfl
    · simp only [hsome, if_neg hne]

/-- What is told of an item depends on nothing but what is known of its key. -/
theorem ofItem_congr {known' : Known} {item : α}
    (h : known'.view (key item) = known.view (key item)) :
    ofItem key state baseline known' item = ofItem key state baseline known item := by
  have hlookup : known'.lookup (key item) = known.lookup (key item) := h
  rw [ofItem, ofItem, hlookup]

/-- On the first listing new items are passed over, and nothing else. -/
theorem ofItem_baseline (item : α) : ofItem key state true known item =
    (ofItem key state false known item).filter fun e => !e.isAdded := by
  rw [ofItem, ofItem]
  cases known.lookup (key item) with
  | none => rfl
  | some previous =>
    by_cases hsame : previous = state item
    · simp only [if_pos hsame, Option.filter_none]
    · simp only [if_neg hsame]
      rfl

/-! ### All items -/

/-- Of items with distinct keys each is told of beside what was known at first. -/
theorem ofItems_eq_filterMap : ∀ {items : List α} {known : Known}, (items.map key).Nodup →
    (ofItems key state baseline known items).1 = items.filterMap (ofItem key state baseline known)
  | [], _, _ => rfl
  | item :: items, known, h => by
    obtain ⟨hitem, hrest⟩ := List.nodup_cons.mp h
    have hsame : ∀ a ∈ items, ofItem key state baseline (known.put (key item) (state item)) a =
        ofItem key state baseline known a := by
      intro a ha
      have hne : key a ≠ key item := fun hk => hitem (hk ▸ List.mem_map_of_mem ha)
      exact ofItem_congr (by rw [Known.view_put, Function.update_of_ne hne])
    simp only [ofItems, ofItems_eq_filterMap hrest, List.filterMap_congr hsame]
    cases ho : ofItem key state baseline known item with
    | none => rw [List.filterMap_cons_none ho]; rfl
    | some e => rw [List.filterMap_cons_some ho]; rfl

/-- What is known after the items does not depend on whether the listing is the first one. -/
theorem known_ofItems : ∀ (items : List α) (known : Known),
    (ofItems key state baseline known items).2 =
      items.foldl (fun known item => known.put (key item) (state item)) known
  | [], _ => rfl
  | item :: items, known => known_ofItems items (known.put (key item) (state item))

/-- No two events of the items are about one key, as far as the items are not. -/
theorem keys_sublist {tell : α → Option (WatchEvent α)}
    (h : ∀ item e, tell item = some e → e.key? key = some (key item)) : ∀ items : List α,
    ((items.filterMap tell).map (key? key)).Sublist (items.map (some ∘ key))
  | [] => .slnil
  | item :: items => by
    have ih := keys_sublist h items
    cases ho : tell item with
    | none =>
      rw [List.filterMap_cons_none ho]
      exact ih.cons _
    | some e =>
      rw [List.filterMap_cons_some ho, List.map_cons, h item e ho]
      exact ih.cons_cons _

/-! ### What is missing -/

/-- The known keys that are not listed, in ascending order, with the states known of them. -/
def missing (key : α → String) (items : List α) (known : Known) : List (String × String) :=
  (known.filter fun p => !(items.map key).contains p.1).mergeSort fun p q => decide (p.1 ≤ q.1)

theorem ofListing_eq (baseline : Bool) (known : Known) (items : List α) :
    ofListing key state baseline known items =
      ((ofItems key state baseline known items).1 ++
        (missing key items (ofItems key state baseline known items).2).map
          (fun p => .removed p.1 p.2),
        (ofItems key state baseline known items).2.filter
          fun p => (items.map key).contains p.1) := rfl

theorem missing_perm (key : α → String) (items : List α) (known : Known) :
    (missing key items known).Perm (known.filter fun p => !(items.map key).contains p.1) :=
  List.mergeSort_perm _ _

theorem mem_missing_iff {p : String × String} :
    p ∈ missing key items known ↔ p ∈ known ∧ p.1 ∉ items.map key := by
  rw [(missing_perm key items known).mem_iff, List.mem_filter, Bool.not_eq_true',
    List.contains_eq_mem, decide_eq_false_iff_not]

theorem pairwise_missing (h : (known.map Prod.fst).Nodup) :
    (missing key items known).Pairwise fun p q => p.1 < q.1 := by
  have htrans : ∀ p q r : String × String, decide (p.1 ≤ q.1) = true → decide (q.1 ≤ r.1) = true →
      decide (p.1 ≤ r.1) = true := fun p q r hpq hqr =>
    decide_eq_true (String.le_trans (of_decide_eq_true hpq) (of_decide_eq_true hqr))
  have htotal : ∀ p q : String × String, (decide (p.1 ≤ q.1) || decide (q.1 ≤ p.1)) = true := by
    intro p q
    rw [Bool.or_eq_true, decide_eq_true_iff, decide_eq_true_iff]
    exact String.le_total p.1 q.1
  have hsorted := List.pairwise_mergeSort htrans htotal
    (known.filter fun p => !(items.map key).contains p.1)
  have hdistinct : ((missing key items known).map Prod.fst).Nodup :=
    ((missing_perm key items known).map Prod.fst).nodup_iff.mpr
      (h.sublist (List.filter_sublist.map _))
  refine hsorted.imp₂ (fun p q hle hne => ?_) (List.pairwise_map.mp hdistinct)
  exact String.not_le.mp fun hge => hne (String.le_antisymm (of_decide_eq_true hle) hge)

/-- There is one way to put the missing keys in order. -/
theorem missing_eq (h : (known.map Prod.fst).Nodup) {gone : List (String × String)}
    (hperm : (known.filter fun p => !(items.map key).contains p.1).Perm gone)
    (hsorted : gone.Pairwise fun p q => p.1 < q.1) : missing key items known = gone :=
  ((missing_perm key items known).trans hperm).eq_of_pairwise
    (fun _ _ _ _ hlt hgt => absurd hgt (String.lt_asymm hlt)) (pairwise_missing h) hsorted

/-- Missing is just what was known before the listing and is not listed. -/
theorem mem_missing_ofItems_iff (hknown : (known.map Prod.fst).Nodup) {k s : String} :
    (k, s) ∈ missing key items (ofItems key state baseline known items).2 ↔
      known.view k = some s ∧ k ∉ items.map key := by
  rw [mem_missing_iff, and_congr_left_iff]
  intro hk
  have hafter : ((ofItems key state baseline known items).2.map Prod.fst).Nodup :=
    Known.nodup_ofItems baseline items hknown
  have hview : (ofItems key state baseline known items).2.view k = known.view k := by
    rw [Known.view_ofItems, View.ofItems_eq_none_iff.mpr hk, Option.none_or]
  rw [← hview]
  exact ⟨Known.view_eq_of_mem hafter, Known.mem_of_view⟩

end WatchEvent

/-- What items with distinct keys say of a key is what the item with that key says. -/
theorem View.ofItems_eq_some_iff (h : (items.map key).Nodup) {k s : String} :
    View.ofItems key state items k = some s ↔ ∃ item ∈ items, key item = k ∧ state item = s := by
  refine ⟨View.exists_of_ofItems, ?_⟩
  rintro ⟨item, hitem, rfl, rfl⟩
  have hne : View.ofItems key state items (key item) ≠ none := by
    rw [Ne, View.ofItems_eq_none_iff, not_not]
    exact List.mem_map_of_mem hitem
  obtain ⟨s, hs⟩ := Option.ne_none_iff_exists'.mp hne
  obtain ⟨other, hother, hk, rfl⟩ := View.exists_of_ofItems hs
  rw [hs, List.inj_on_of_nodup_map h hother hitem hk]

namespace WatchEvent

/-! ### The whole listing -/

/-- What a listing tells beside a table of known states, if it misses and repeats nothing: for each item
    in its place what there is to tell of it, if anything, and then of each known key that is not
    listed, in ascending order, that it is gone. -/
structure Exact (key state : α → String) (table : View) (items : List α)
    (events : List (WatchEvent α)) : Prop where
  told : ∃ (tell : α → Option (WatchEvent α)) (gone : List (String × String)),
    events = items.filterMap tell ++ gone.map (fun p => .removed p.1 p.2) ∧
    (∀ item e, tell item = some e ↔ News key state table item e) ∧
    (∀ k s, (k, s) ∈ gone ↔ table k = some s ∧ k ∉ items.map key) ∧
    gone.Pairwise fun p q => p.1 < q.1
  once : (events.map (key? key)).Nodup

theorem exact_ofListing (hknown : (known.map Prod.fst).Nodup) (hitems : (items.map key).Nodup) :
    Exact key state known.view items (ofListing key state false known items).1 := by
  have hsorted : (missing key items (ofItems key state false known items).2).Pairwise
      fun p q => p.1 < q.1 := pairwise_missing (Known.nodup_ofItems false items hknown)
  have hlisted : ((items.filterMap (ofItem key state false known)).map (key? key)).Sublist
      (items.map (some ∘ key)) :=
    keys_sublist (fun _ _ h => (ofItem_eq_some_iff.mp h).key?_eq) items
  rw [ofListing_eq, ofItems_eq_filterMap hitems]
  refine ⟨⟨_, _, rfl, fun _ _ => ofItem_eq_some_iff, fun _ _ => mem_missing_ofItems_iff hknown,
    hsorted⟩, ?_⟩
  rw [List.map_append, List.map_map]
  refine List.nodup_append.mpr ⟨?_, ?_, ?_⟩
  · have hkeys : (items.map (some ∘ key)).Nodup := List.pairwise_map.mpr
      ((List.pairwise_map.mp hitems).imp fun hne he => hne (Option.some.inj he))
    exact hkeys.sublist hlisted
  · refine List.pairwise_map.mpr (hsorted.imp fun {p q} hlt he => ?_)
    have hsame : p.1 = q.1 := Option.some.inj he
    rw [hsame] at hlt
    exact String.lt_irrefl _ hlt
  -- what is missing is not listed, so no item is about its key
  · rintro a ha b hb rfl
    obtain ⟨item, hitem, rfl⟩ := List.mem_map.mp (hlisted.subset ha)
    obtain ⟨⟨k, s⟩, hp, hk⟩ := List.mem_map.mp hb
    cases hk
    exact ((mem_missing_ofItems_iff hknown).mp hp).2 (List.mem_map_of_mem hitem)

/-- The first listing tells the same as any other, less the items that are new. -/
theorem ofListing_baseline (known : Known) (hitems : (items.map key).Nodup) :
    ofListing key state true known items =
      ((ofListing key state false known items).1.filter (fun e => !e.isAdded),
        (ofListing key state false known items).2) := by
  have hafter : (ofItems key state true known items).2 =
      (ofItems key state false known items).2 := by
    rw [known_ofItems, known_ofItems]
  have hgone : ∀ gone : List (String × String), (gone.map fun p => removed (α := α) p.1 p.2).filter
      (fun e => !e.isAdded) = gone.map fun p => removed p.1 p.2 := by
    intro gone
    rw [List.filter_eq_self]
    intro e he
    obtain ⟨p, -, rfl⟩ := List.mem_map.mp he
    rfl
  have hnews : (fun item => ofItem key state true known item) = fun item =>
      (ofItem key state false known item).filter fun e => !e.isAdded := funext ofItem_baseline
  rw [ofListing_eq, ofListing_eq, hafter, ofItems_eq_filterMap hitems, ofItems_eq_filterMap hitems,
    List.filter_append, hgone, List.filter_filterMap]
  exact congrArg (fun f => (items.filterMap f ++ _, _)) hnews

/-- A listing is compared exactly with what was known, if its items have distinct keys, whatever the
    table of known states is. It tells of each item that is new or in another state, with the state it
    was in, in the order of the list, and then of each known key that is not listed, with the state last
    known, in the order of the keys; no two events are about one key. After it just the listed items
    are known, each in its state. The first listing tells the same less the items that are new, and
    after it the same is known. -/
theorem listing_exact (hknown : (known.map Prod.fst).Nodup) (hitems : (items.map key).Nodup) :
    let events := (ofListing key state false known items).1
    let after := (ofListing key state false known items).2
    Exact key state known.view items events ∧
    ((after.map Prod.fst).Nodup ∧
      ∀ k s, after.view k = some s ↔ ∃ item ∈ items, key item = k ∧ state item = s) ∧
    ofListing key state true known items = (events.filter (fun e => !e.isAdded), after) := by
  intro events after
  refine ⟨exact_ofListing hknown hitems,
    ⟨Known.nodup_ofListing false hknown items, fun k s => ?_⟩, ofListing_baseline known hitems⟩
  rw [Known.view_ofListing]
  exact View.ofItems_eq_some_iff hitems

/-- What was known of four nodes. -/
def fourKnown : Known := [("z", "IDLE"), ("c", "IDLE"), ("b", "DOWN"), ("a", "IDLE")]

/-- Three nodes as they are listed: one in another state, a new one, and one as it was. -/
def threeListed : List Node :=
  [⟨"c", ["DOWN"], none, none, [], [], none, none⟩, ⟨"n", ["IDLE"], none, none, [], [], none, none⟩,
    ⟨"a", ["IDLE"], none, none, [], [], none, none⟩]

/-- The two nodes that are missing are told of last, in the order of their names. -/
theorem listing_exact_moved :
    (fourKnown.map Prod.fst).Nodup ∧ (threeListed.map Subject.nodes.key).Nodup ∧
    let events := (ofListing Subject.nodes.key Subject.nodes.state false fourKnown threeListed).1
    let after := (ofListing Subject.nodes.key Subject.nodes.state false fourKnown threeListed).2
    events.map (key? Subject.nodes.key) = [some "c", some "n", some "b", some "z"] ∧
    events.map isAdded = [false, true, false, false] ∧
    Exact Subject.nodes.key Subject.nodes.state fourKnown.view threeListed events ∧
    (∀ k s, after.view k = some s ↔
      ∃ item ∈ threeListed, Subject.nodes.key item = k ∧ Subject.nodes.state item = s) ∧
    ofListing Subject.nodes.key Subject.nodes.state true fourKnown threeListed =
      (events.filter (fun e => !e.isAdded), after) := by
  have hknown : (fourKnown.map Prod.fst).Nodup := by decide
  have hlisted : (threeListed.map Subject.nodes.key).Nodup := by decide
  have hmissing : missing Subject.nodes.key threeListed
      (ofItems Subject.nodes.key Subject.nodes.state false fourKnown threeListed).2 =
      [("b", "DOWN"), ("z", "IDLE")] :=
    missing_eq (Known.nodup_ofItems false threeListed hknown) (.swap ..) (by decide)
  obtain ⟨hexact, ⟨-, hview⟩, hbaseline⟩ :=
    @listing_exact Node Subject.nodes.key Subject.nodes.state fourKnown threeListed hknown hlisted
  refine ⟨hknown, hlisted, ?_, ?_, hexact, hview, hbaseline⟩
  · rw [ofListing_eq, hmissing]
    decide +kernel
  · rw [ofListing_eq, hmissing]
    decide +kernel

end WatchEvent

end SlurmLink
