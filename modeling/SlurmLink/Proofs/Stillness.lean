import SlurmLink.Proofs.ChangeLog

/-!
What a watch says while nothing changes. A listing may name one key more than once, and each item is
compared with what the one before it has left behind:

    listing        n1 IDLE        n2 IDLE     n1 DOWN
    the first      nothing        nothing     n1 IDLE ──▶ DOWN
    the same       n1 DOWN ──▶    nothing     n1 IDLE ──▶ DOWN
    once more      IDLE

So the first listing, and one that is the same as the last, makes no event exactly if it contradicts
itself nowhere (`Consistent`); and if it does, all that it makes are changes from what it says in one
place to what it says in another (`Contradicts`).
-/

namespace SlurmLink

open WatchEvent

variable {α : Type} {key state : α → String} {baseline : Bool} {known : Known} {items : List α}

namespace WatchEvent

/-- Items of one key are in one state. -/
def Consistent (key state : α → String) (items : List α) : Prop :=
  ∀ a ∈ items, ∀ b ∈ items, key a = key b → state a = state b

instance (key state : α → String) (items : List α) : Decidable (Consistent key state items) :=
  inferInstanceAs (Decidable (∀ a ∈ items, ∀ b ∈ items, key a = key b → state a = state b))

/-- The event is a change from the state of one item to that of another one with the same key. -/
def Contradicts (key state : α → String) (items : List α) (e : WatchEvent α) : Prop :=
  ∃ a ∈ items, ∃ b ∈ items, key a = key b ∧ state a ≠ state b ∧ e = .changed (state a) b

/-- Each item is in the state that the view has for it, or is seen for the first time when nothing is
    told of new items. -/
def Expected (key state : α → String) (baseline : Bool) (view : View) (items : List α) : Prop :=
  ∀ item ∈ items, view (key item) = some (state item) ∨ view (key item) = none ∧ baseline = true

theorem ofItem_eq_none_iff {item : α} : ofItem key state baseline known item = none ↔
    known.view (key item) = some (state item) ∨ known.view (key item) = none ∧ baseline = true := by
  have hview : known.lookup (key item) = known.view (key item) := rfl
  simp only [ofItem, hview]
  cases known.view (key item) with
  | none => cases baseline <;> simp
  | some previous =>
    by_cases hsame : previous = state item
    · simp [hsame]
    · simp [hsame]

/-- Once an item is noted, those after it are expected just if they were before and do not contradict
    it. -/
theorem expected_update_iff {view : View} {item : α}
    (h : view (key item) = some (state item) ∨ view (key item) = none ∧ baseline = true) :
    Expected key state baseline (Function.update view (key item) (some (state item))) items ↔
      Expected key state baseline view items ∧
        ∀ a ∈ items, key a = key item → state a = state item := by
  constructor
  · intro hall
    have hagrees : ∀ a ∈ items, key a = key item → state a = state item := by
      intro a ha hk
      rcases hall a ha with hs | ⟨hs, -⟩
      · rw [hk, Function.update_self] at hs
        exact (Option.some.inj hs).symm
      · rw [hk, Function.update_self] at hs
        cases hs
    refine ⟨fun a ha => ?_, hagrees⟩
    by_cases hk : key a = key item
    · rw [hk, hagrees a ha hk]
      exact h
    · have := hall a ha
      rwa [Function.update_of_ne hk] at this
  · rintro ⟨hall, hagrees⟩ a ha
    by_cases hk : key a = key item
    · rw [hk, Function.update_self, hagrees a ha hk]
      exact Or.inl rfl
    · rw [Function.update_of_ne hk]
      exact hall a ha

theorem consistent_cons_iff {item : α} : Consistent key state (item :: items) ↔
    (∀ a ∈ items, key a = key item → state a = state item) ∧ Consistent key state items := by
  constructor
  · intro h
    exact ⟨fun a ha => h a (List.mem_cons_of_mem _ ha) item List.mem_cons_self,
      fun a ha b hb => h a (List.mem_cons_of_mem _ ha) b (List.mem_cons_of_mem _ hb)⟩
  · rintro ⟨hfirst, hrest⟩ a ha b hb hk
    rcases List.mem_cons.mp ha with rfl | ha
    · rcases List.mem_cons.mp hb with rfl | hb
      · rfl
      · exact (hfirst b hb hk.symm).symm
    · rcases List.mem_cons.mp hb with hb | hb
      · rw [hb] at hk ⊢
        exact hfirst a ha hk
      · exact hrest a ha b hb hk

/-- Items make no event just if they are as expected and contradict themselves nowhere. -/
theorem ofItems_eq_nil_iff : ∀ (items : List α) (known : Known),
    (ofItems key state baseline known items).1 = [] ↔
      Expected key state baseline known.view items ∧ Consistent key state items
  | [], known => by simp [ofItems, Expected, Consistent]
  | item :: items, known => by
    have ih := ofItems_eq_nil_iff items (known.put (key item) (state item))
    rw [Known.view_put] at ih
    have hexpected : Expected key state baseline known.view (item :: items) ↔
        (known.view (key item) = some (state item) ∨
          known.view (key item) = none ∧ baseline = true) ∧
        Expected key state baseline known.view items := List.forall_mem_cons
    simp only [ofItems, List.append_eq_nil_iff, Option.toList_eq_nil_iff, ofItem_eq_none_iff]
    rw [ih, hexpected, consistent_cons_iff]
    constructor
    · rintro ⟨hitem, hrest, hconsistent⟩
      obtain ⟨hrest, hagrees⟩ := (expected_update_iff hitem).mp hrest
      exact ⟨⟨hitem, hrest⟩, hagrees, hconsistent⟩
    · rintro ⟨⟨hitem, hrest⟩, hagrees, hconsistent⟩
      exact ⟨hitem, (expected_update_iff hitem).mpr ⟨hrest, hagrees⟩, hconsistent⟩

/-- Where an event of the items comes from: the item is new, or it was known in another state, or another
    item of the same key is in another state. -/
theorem mem_ofItems {e : WatchEvent α} : ∀ {items : List α} {known : Known},
    e ∈ (ofItems key state baseline known items).1 →
      (∃ item ∈ items, e = .added item ∧ known.view (key item) = none ∧ baseline = false) ∨
      (∃ item ∈ items, ∃ previous, e = .changed previous item ∧ previous ≠ state item ∧
        known.view (key item) = some previous) ∨
      Contradicts key state items e
  | [], _, h => by cases h
  | item :: items, known, h => by
    simp only [ofItems, List.mem_append, Option.mem_toList] at h
    rcases h with h | h
    · have hview : known.lookup (key item) = known.view (key item) := rfl
      rw [ofItem, hview] at h
      cases hknown : known.view (key item) with
      | none =>
        cases baseline <;> simp [hknown] at h
        exact Or.inl ⟨item, List.mem_cons_self, h.symm, hknown, rfl⟩
      | some previous =>
        by_cases hsame : previous = state item
        · simp [hknown, hsame] at h
        · simp only [hknown, hsame, if_false, Option.some.injEq] at h
          exact Or.inr (Or.inl ⟨item, List.mem_cons_self, previous, h.symm, hsame, hknown⟩)
    · rcases mem_ofItems h with ⟨a, ha, he, hknown, hb⟩ | ⟨a, ha, previous, he, hne, hknown⟩ |
        ⟨a, ha, b, hb, hk, hne, he⟩
      · rw [Known.view_put] at hknown
        by_cases hk : key a = key item
        · rw [hk, Function.update_self] at hknown
          cases hknown
        · rw [Function.update_of_ne hk] at hknown
          exact Or.inl ⟨a, List.mem_cons_of_mem _ ha, he, hknown, hb⟩
      · rw [Known.view_put] at hknown
        by_cases hk : key a = key item
        -- what is known of the key by now is what the first item says
        · rw [hk, Function.update_self] at hknown
          cases hknown
          exact Or.inr (Or.inr
            ⟨item, List.mem_cons_self, a, List.mem_cons_of_mem _ ha, hk.symm, hne, he⟩)
        · rw [Function.update_of_ne hk] at hknown
          exact Or.inr (Or.inl ⟨a, List.mem_cons_of_mem _ ha, previous, he, hne, hknown⟩)
      · exact Or.inr (Or.inr
          ⟨a, List.mem_cons_of_mem _ ha, b, List.mem_cons_of_mem _ hb, hk, hne, he⟩)

end WatchEvent

theorem View.exists_of_ofItems {k s : String} (h : View.ofItems key state items k = some s) :
    ∃ item ∈ items, key item = k ∧ state item = s := by
  obtain ⟨item, hitem, hs⟩ := Option.map_eq_some_iff.mp h
  have hk := List.find?_some hitem
  exact ⟨item, List.mem_reverse.mp (List.mem_of_find?_eq_some hitem), beq_iff_eq.mp hk, hs⟩

namespace Known

theorem view_ne_none_of_mem {p : String × String} (h : p ∈ known) : known.view p.1 ≠ none := by
  intro hnone
  have := List.lookup_eq_none_iff.mp hnone p h
  simp at this

/-- No known key has gone missing. -/
theorem missing_eq_nil (h : ∀ k, known.view k ≠ none → k ∈ items.map key) :
    ((WatchEvent.ofItems key state baseline known items).2.filter
      fun p => !(items.map key).contains p.1) = [] := by
  rw [List.filter_eq_nil_iff]
  intro p hp
  have hview := view_ne_none_of_mem hp
  rw [view_ofItems] at hview
  have hlisted : p.1 ∈ items.map key := by
    by_contra hnot
    rw [View.ofItems_eq_none_iff.mpr hnot, Option.none_or] at hview
    exact hnot (h _ hview)
  simp only [List.contains_eq_mem, hlisted, decide_true, Bool.not_true, Bool.false_eq_true,
    not_false_iff]

/-- While no known key is missing, a listing makes just the events of its items. -/
theorem events_ofListing (h : ∀ k, known.view k ≠ none → k ∈ items.map key) :
    (WatchEvent.ofListing key state baseline known items).1 =
      (WatchEvent.ofItems key state baseline known items).1 := by
  simp only [ofListing, missing_eq_nil h, List.mergeSort_nil, List.map_nil, List.append_nil]

/-- What a listing tells that finds nothing new: nothing, unless it contradicts itself. -/
structure Still (key state : α → String) (items : List α) (events : List (WatchEvent α)) : Prop where
  nil_iff : events = [] ↔ Consistent key state items
  contradicts : ∀ e ∈ events, Contradicts key state items e

/-- The first listing finds nothing new. -/
theorem still_first (key state : α → String) (items : List α) :
    Still key state items (WatchEvent.ofListing key state true [] items).1 := by
  rw [events_ofListing fun k hk => absurd rfl hk]
  refine ⟨?_, fun e he => ?_⟩
  · rw [ofItems_eq_nil_iff]
    exact and_iff_right fun item _ => Or.inr ⟨rfl, rfl⟩
  · rcases mem_ofItems he with ⟨item, -, -, -, hfalse⟩ | ⟨item, -, previous, -, -, hknown⟩ | h
    · cases hfalse
    · cases hknown
    · exact h

/-- A listing that is the same as the last finds nothing new. -/
theorem still_again (baseline : Bool) (hknown : known.view = View.ofItems key state items) :
    Still key state items (WatchEvent.ofListing key state baseline known items).1 := by
  have hkeys : ∀ k, known.view k ≠ none → k ∈ items.map key := by
    intro k hk
    rw [hknown] at hk
    by_contra hnot
    exact hk (View.ofItems_eq_none_iff.mpr hnot)
  rw [events_ofListing hkeys]
  refine ⟨?_, fun e he => ?_⟩
  · rw [ofItems_eq_nil_iff, hknown]
    refine and_iff_right_of_imp fun hconsistent item hitem => Or.inl ?_
    have hne : View.ofItems key state items (key item) ≠ none := by
      rw [Ne, View.ofItems_eq_none_iff, not_not]
      exact List.mem_map_of_mem hitem
    obtain ⟨s, hs⟩ := Option.ne_none_iff_exists'.mp hne
    obtain ⟨other, hother, hk, rfl⟩ := View.exists_of_ofItems hs
    rw [hs, hconsistent other hother item hitem hk]
  · rcases mem_ofItems he with ⟨item, hitem, -, hnone, -⟩ |
      ⟨item, hitem, previous, he, hne, hsome⟩ | h
    · rw [hknown, View.ofItems_eq_none_iff] at hnone
      exact absurd (List.mem_map_of_mem hitem) hnone
    · rw [hknown] at hsome
      obtain ⟨other, hother, hk, rfl⟩ := View.exists_of_ofItems hsome
      exact ⟨other, hother, item, hitem, hk, hne, he⟩
    · exact h

end Known

/-! ### Listing by listing -/

namespace Poll

/-- What a listing adds to what is known, beside whether there is nothing to compare with yet. -/
def learn (subject : Subject α) (s : Bool × Known) (poll : Poll α) : Bool × Known :=
  match poll.outcome with
  | .ok answer => (false, (ofListing subject.key subject.state s.1 s.2 (subject.items answer)).2)
  | .error _ => s

/-- Failures teach nothing. -/
theorem foldl_learn_failed (subject : Subject α) (s : Bool × Known) : ∀ {polls : List (Poll α)},
    (∀ poll ∈ polls, ∃ e, poll.outcome = .error e) → polls.foldl (learn subject) s = s
  | [], _ => rfl
  | poll :: polls, h => by
    obtain ⟨e, he⟩ := h poll List.mem_cons_self
    have hlearn : learn subject s poll = s := by simp only [learn, he]
    rw [List.foldl_cons, hlearn]
    exact foldl_learn_failed subject s fun poll hpoll => h poll (List.mem_cons_of_mem _ hpoll)

end Poll

namespace Vigil

variable {p : CallPolicy} {subject : Subject α} {initial : Bool} {v : Vigil α} {l : Link}

/-- Each listing has been compared with what was known from the ones before it. -/
structure Compared (subject : Subject α) (initial : Bool) (v : Vigil α) : Prop where
  watches : v.watch.subject = subject
  knows : (v.watch.baseline, v.watch.known) = v.polls.foldl (Poll.learn subject) (!initial, [])
  told : ∀ before answer told rest, v.polls = before ++ ⟨.ok answer, told⟩ :: rest →
    told = (ofListing subject.key subject.state (before.foldl (Poll.learn subject) (!initial, [])).1
      (before.foldl (Poll.learn subject) (!initial, [])).2 (subject.items answer)).1

theorem compared_start {c : Context} {session : Session} {settings : WatchSettings} {w : Watch α}
    {l' : Link} (h : Watch.start c session subject settings l = .ok (w, l')) :
    Compared subject settings.initial { watch := w } := by
  rw [Watch.start] at h
  split at h
  · cases h
  · cases h
    exact ⟨rfl, rfl, fun before answer told rest hpolls => by cases before <;> cases hpolls⟩

/-- A listing that is noted is compared with what the watch knows then. -/
theorem Compared.note (h : v.Compared subject initial) (outcome : Except Error Answer) :
    Compared subject initial { v with
      watch := v.watch.note outcome
      polls := v.polls ++ [⟨outcome, (v.watch.note outcome).pending⟩] } := by
  refine ⟨?_, ?_, fun before answer told rest hpolls => ?_⟩
  · obtain ⟨_, _, _, hn, -⟩ := Watch.note_eq outcome v.watch
    rw [hn]
    exact h.watches
  · rw [List.foldl_append, ← h.knows]
    cases outcome with
    | ok answer =>
      rw [Watch.note_ok, Watch.changes, h.watches]
      rfl
    | error e =>
      by_cases he : e.kind = .cancelled
      · rw [Watch.note_cancelled he]
        rfl
      · rw [Watch.note_failed he]
        rfl
  · rcases List.eq_nil_or_concat rest with rfl | ⟨rest, last, rfl⟩
    · obtain ⟨hbefore, hpoll⟩ := List.append_inj' hpolls rfl
      cases hpoll
      rw [← hbefore, ← h.knows, Watch.note_ok, Watch.changes, h.watches]
      rfl
    · have hsplit : v.polls ++ [⟨outcome, (v.watch.note outcome).pending⟩] =
          (before ++ ⟨.ok answer, told⟩ :: rest) ++ [last] :=
        hpolls.trans (by rw [List.concat_eq_append, List.append_assoc, List.cons_append])
      exact h.told before answer told rest (List.append_inj' hsplit rfl).1

/-- Only a listing that the watch takes note of adds to the record or to what is known. -/
theorem Compared.advance (h : v.Compared subject initial) (l : Link) :
    Compared subject initial (v.step p (.advance l)) := by
  cases hnoted : v.watch.noted? l with
  | some outcome =>
    rw [step_noted hnoted]
    exact h.note outcome
  | none =>
    cases hstep : v.watch.step p l with
    | none =>
      simp only [step, hstep]
      exact h
    | some r =>
      obtain ⟨w, l'⟩ := r
      rw [step_advance hstep hnoted]
      cases Watch.goes_of_step hstep with
      | @notes errand outcome hp hs ho =>
        rw [Watch.noted?_of_listing hp, hs, ho] at hnoted
        cases hnoted
      | _ => exact ⟨h.watches, h.knows, h.told⟩

theorem Compared.step (h : v.Compared subject initial) : ∀ e, Compared subject initial (v.step p e)
  | .advance l => h.advance l
  | .receive => by
    simp only [Vigil.step, Watch.receive]
    cases v.watch.buffer with
    | nil => exact h
    | cons e rest => exact ⟨h.watches, h.knows, h.told⟩

theorem Compared.after : ∀ (events : List VigilEvent) {v : Vigil α}, v.Compared subject initial →
    Compared subject initial (v.after p events)
  | [], _, h => h
  | e :: events, _, h => Compared.after events (h.step e)

/-- What is known after a listing, and any failures after it, is what it has found. -/
theorem view_learned (subject : Subject α) (s : Bool × Known) (before failed : List (Poll α))
    (answer : Answer) (told : List (WatchEvent α))
    (hfailed : ∀ poll ∈ failed, ∃ e, poll.outcome = .error e) :
    ((before ++ ⟨.ok answer, told⟩ :: failed).foldl (Poll.learn subject) s).2.view =
      View.ofItems subject.key subject.state (subject.items answer) := by
  rw [List.foldl_append, List.foldl_cons, Poll.foldl_learn_failed subject _ hfailed]
  exact Known.view_ofListing _ _ _

/-- What a watch tells while nothing changes, for any items at all, whatever the links are that the
    poller finds, and whenever events are received. The first successful listing of a watch that does
    not report everything as new, and every listing that has found the same items as the successful one
    before it, tell nothing exactly if no two of the items have one key and different states; and all
    that they tell otherwise are changes between such items. -/
theorem unchanged_tells_nothing_iff {c : Context} {session : Session} {settings : WatchSettings}
    {w : Watch α} {l' : Link} (h : Watch.start c session subject settings l = .ok (w, l'))
    (p : CallPolicy) (events : List VigilEvent) :
    let v := after p { watch := w } events
    (settings.initial = false → ∀ failed answer told rest,
      v.polls = failed ++ ⟨.ok answer, told⟩ :: rest →
        (∀ poll ∈ failed, ∃ e, poll.outcome = .error e) →
          (told = [] ↔ Consistent subject.key subject.state (subject.items answer)) ∧
          ∀ e ∈ told, Contradicts subject.key subject.state (subject.items answer) e) ∧
    (∀ before base unseen failed answer told rest,
      v.polls = before ++ ⟨.ok base, unseen⟩ :: (failed ++ ⟨.ok answer, told⟩ :: rest) →
        (∀ poll ∈ failed, ∃ e, poll.outcome = .error e) →
          subject.items answer = subject.items base →
            (told = [] ↔ Consistent subject.key subject.state (subject.items answer)) ∧
            ∀ e ∈ told, Contradicts subject.key subject.state (subject.items answer) e) := by
  intro v
  have hcompared : v.Compared subject settings.initial := (compared_start h).after events
  refine ⟨fun hinitial failed answer told rest hpolls hfailed => ?_,
    fun before base unseen failed answer told rest hpolls hfailed hsame => ?_⟩
  · have htold := hcompared.told failed answer told rest hpolls
    rw [Poll.foldl_learn_failed subject _ hfailed, hinitial] at htold
    obtain ⟨hnil, hmem⟩ := Known.still_first subject.key subject.state (subject.items answer)
    rw [htold]
    exact ⟨hnil, hmem⟩
  · have htold := hcompared.told (before ++ ⟨.ok base, unseen⟩ :: failed) answer told rest
      (by rw [hpolls, List.append_assoc, List.cons_append])
    have hview := view_learned subject (!settings.initial, []) before failed base unseen hfailed
    rw [← hsame] at hview
    obtain ⟨hnil, hmem⟩ := Known.still_again
      ((before ++ ⟨.ok base, unseen⟩ :: failed).foldl (Poll.learn subject)
        (!settings.initial, [])).1 hview
    rw [htold]
    exact ⟨hnil, hmem⟩

/-! ### A listing that contradicts itself -/

/-- A listing with two records of one node, in different states. -/
def twins : String := "\x7b\"nodes\":[
  \x7b\"name\":\"n1\",\"state\":[\"IDLE\"]\x7d,\x7b\"name\":\"n1\",\"state\":[\"DOWN\"]\x7d]\x7d"

/-- A watch finds this listing twice, ten seconds apart. -/
def twinEvents : List VigilEvent :=
  List.replicate 8 (.advance (serving 0 twins)) ++ List.replicate 12 (.advance (serving 10000 twins))

def twinVigil : Vigil Node := after { retry := .noRetry } { watch := nodeWatch } twinEvents

/-- The node as one of its records shows it. -/
def twin (state : String) : Node := ⟨"n1", [state], none, none, [], [], none, none⟩

/-- A node, and the states from and to which it has changed. -/
def shift : WatchEvent Node → Option (String × String × String)
  | .changed previous node => some (node.name, previous, node.stateLabel)
  | _ => none

theorem map_polls_twinVigil : twinVigil.polls.map
    (fun poll => (poll.outcome.toOption.map Subject.nodes.items, poll.events.map shift)) =
    [(some [twin "IDLE", twin "DOWN"], [some ("n1", "IDLE", "DOWN")]),
      (some [twin "IDLE", twin "DOWN"],
        [some ("n1", "DOWN", "IDLE"), some ("n1", "IDLE", "DOWN")])] := by
  decide +kernel

/-- The listings of the watch, and what they have told. -/
theorem polls_twinVigil : ∃ first told again retold,
    twinVigil.polls = [⟨.ok first, told⟩, ⟨.ok again, retold⟩] ∧
    Subject.nodes.items first = [twin "IDLE", twin "DOWN"] ∧
    Subject.nodes.items again = [twin "IDLE", twin "DOWN"] ∧
    told.map shift = [some ("n1", "IDLE", "DOWN")] ∧
    retold.map shift = [some ("n1", "DOWN", "IDLE"), some ("n1", "IDLE", "DOWN")] := by
  obtain ⟨⟨first, told⟩, _, hpolls, hfirst, hrest⟩ := List.map_eq_cons_iff.mp map_polls_twinVigil
  obtain ⟨⟨again, retold⟩, _, rfl, hagain, hrest⟩ := List.map_eq_cons_iff.mp hrest
  obtain rfl := List.map_eq_nil_iff.mp hrest
  simp only [Prod.mk.injEq] at hfirst hagain
  cases first with
  | error e => cases hfirst.1
  | ok first =>
    cases again with
    | error e => cases hagain.1
    | ok again =>
      exact ⟨first, told, again, retold, hpolls, Option.some.inj hfirst.1, Option.some.inj hagain.1,
        hfirst.2, hagain.2⟩

theorem start_nodeWatch : Watch.start ⟨0, none⟩ nodeSession Subject.nodes {} (Link.newContext {}).2 =
    .ok (nodeWatch, ((Link.newContext {}).2.childContext ⟨0, none⟩).2) := rfl

/-- Both listings of the watch tell something, since they contradict themselves, and all that they tell is
    where they do. -/
theorem unchanged_tells_nothing_iff_twins :
    (∃ l', Watch.start ⟨0, none⟩ nodeSession Subject.nodes {} (Link.newContext {}).2 =
      .ok (nodeWatch, l')) ∧
    ∃ first told again retold, twinVigil.polls = [⟨.ok first, told⟩, ⟨.ok again, retold⟩] ∧
      ¬ Consistent Subject.nodes.key Subject.nodes.state (Subject.nodes.items first) ∧
      (told ≠ [] ∧ ∀ e ∈ told,
        Contradicts Subject.nodes.key Subject.nodes.state (Subject.nodes.items first) e) ∧
      (retold ≠ [] ∧ ∀ e ∈ retold,
        Contradicts Subject.nodes.key Subject.nodes.state (Subject.nodes.items again) e) := by
  obtain ⟨first, told, again, retold, hpolls, hfirst, hagain, -, -⟩ := polls_twinVigil
  have hinconsistent :
      ¬ Consistent Subject.nodes.key Subject.nodes.state [twin "IDLE", twin "DOWN"] := by
    decide +kernel
  obtain ⟨hbaseline, hrepeated⟩ :=
    unchanged_tells_nothing_iff start_nodeWatch { retry := .noRetry } twinEvents
  obtain ⟨hnil, hmem⟩ := hbaseline rfl [] first told [⟨.ok again, retold⟩] hpolls
    (List.forall_mem_nil _)
  obtain ⟨hnil', hmem'⟩ := hrepeated [] first told [] again retold [] hpolls
    (List.forall_mem_nil _) (hagain.trans hfirst.symm)
  rw [← hfirst] at hinconsistent
  refine ⟨⟨_, start_nodeWatch⟩, first, told, again, retold, hpolls, hinconsistent,
    ⟨mt hnil.mp hinconsistent, hmem⟩, ⟨mt hnil'.mp ?_, hmem'⟩⟩
  rw [hagain, ← hfirst]
  exact hinconsistent

/-- The first listing of a watch, with nothing to compare it with, tells of a change, and the same listing
    tells of two changes when it comes again. -/
theorem baseline_tells_of_change :
    (∃ l', Watch.start ⟨0, none⟩ nodeSession Subject.nodes {} (Link.newContext {}).2 =
      .ok (nodeWatch, l')) ∧ nodeWatch.settings.initial = false ∧
    ∃ first told again retold, twinVigil.polls = [⟨.ok first, told⟩, ⟨.ok again, retold⟩] ∧
      told.map shift = [some ("n1", "IDLE", "DOWN")] ∧
      Subject.nodes.items again = Subject.nodes.items first ∧
      retold.map shift = [some ("n1", "DOWN", "IDLE"), some ("n1", "IDLE", "DOWN")] := by
  obtain ⟨first, told, again, retold, hpolls, hfirst, hagain, htold, hretold⟩ := polls_twinVigil
  exact ⟨⟨_, start_nodeWatch⟩, rfl, first, told, again, retold, hpolls, htold,
    hagain.trans hfirst.symm, hretold⟩

end Vigil

end SlurmLink
