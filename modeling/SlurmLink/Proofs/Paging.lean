import SlurmLink.Command.Basic
import SlurmLink.Proofs.Records

/-!
Reading a list page by page. A page is cut out of the whole list with sums that stop at the greatest size,
and whoever reads on goes to the place where the page ends, as long as there is more:

    xs        a  b  c  d  e
    0         a  b             more
    2               c  d       more
    4                     e    no more

The pages are those that the list has at these places (`items_slice`), there is more just if something
comes after them (`hasMore_slice_iff`), and put one after the other they are the list
(`Walk.flatMap_items`). For jobs the list is what a message says about them, without the records that name
no job and without the jobs that the filter leaves out.
-/

namespace SlurmLink

/-- The wanted part of a list: what follows the offset, up to the limit. -/
def ListOptions.window {α : Type} (o : ListOptions) (xs : List α) : List α :=
  match o.limit with
  | some n => (xs.drop o.offset).take n
  | none => xs.drop o.offset

/-- The wanted part of a list ends before the place `i`, or there. -/
def ListOptions.Before (o : ListOptions) (i : Nat) : Prop := ∃ n ∈ o.limit, o.offset + n ≤ i

theorem le_addSizes {a b n : Nat} (hn : n ≤ maxSize) : n ≤ addSizes a b ↔ n ≤ a + b := by
  simp only [addSizes, Nat.le_min, hn, and_true]

namespace Page

variable {α : Type} {xs : List α} {o : ListOptions} {fetch : Nat → Page α → Prop} {limit : Nat}

/-! ### One page -/

/-- Cutting off what comes after the window and then what comes before it leaves the window. -/
theorem items_slice (h : xs.length ≤ maxSize) : (slice xs o).items = o.window xs := by
  obtain ⟨offset, limit⟩ := o
  have hdrop : xs.drop (min offset xs.length) = xs.drop offset := by
    rcases Nat.le_total offset xs.length with hle | hle
    · rw [Nat.min_eq_left hle]
    · rw [Nat.min_eq_right hle, List.drop_length, List.drop_eq_nil_of_le hle]
  cases limit with
  | none => simp only [slice, ListOptions.window, List.take_length, hdrop]
  | some n =>
    simp only [slice, ListOptions.window, List.drop_take, hdrop, addSizes]
    rw [List.take_eq_take_iff, List.length_drop]
    omega

theorem length_window : (o.window xs).length =
    o.limit.elim (xs.length - o.offset) fun n => min n (xs.length - o.offset) := by
  obtain ⟨offset, limit⟩ := o
  cases limit with
  | none => simp [ListOptions.window]
  | some n => simp [ListOptions.window]

/-- There is more just if some place of the list comes after the window. -/
theorem hasMore_slice_iff (h : xs.length ≤ maxSize) :
    (slice xs o).hasMore = true ↔ ∃ i, i < xs.length ∧ o.Before i := by
  have hmore : (slice xs o).hasMore = true ↔ ¬ xs.length ≤ o.offset + (o.window xs).length := by
    rw [hasMore, decide_eq_true_eq, items_slice h, ← Nat.not_le, ← le_addSizes h]
    rfl
  rw [hmore, length_window]
  obtain ⟨offset, limit⟩ := o
  cases limit with
  | none =>
    have hnothing : ¬ ∃ i, i < xs.length ∧ ListOptions.Before ⟨offset, none⟩ i := by
      rintro ⟨i, -, n, hn, -⟩
      cases hn
    simp only [Option.elim_none, hnothing, iff_false, not_not]
    omega
  | some n =>
    simp only [Option.elim_some]
    constructor
    · intro hlt
      exact ⟨xs.length - 1, by omega, n, rfl, by show offset + n ≤ _; omega⟩
    · rintro ⟨i, hi, m, hm, hle⟩
      cases hm
      have hle : offset + n ≤ i := hle
      omega

/-! ### Page after page -/

/-- A walk through the pages that can be fetched at offsets: after a page that says that there is more,
    it goes on where this page ends. -/
inductive Walk (fetch : Nat → Page α → Prop) : Nat → List (Page α) → Prop
  | last {offset : Nat} {p : Page α} : fetch offset p → p.hasMore = false → Walk fetch offset [p]
  | next {offset : Nat} {p : Page α} {rest : List (Page α)} : fetch offset p → p.hasMore = true →
      Walk fetch (offset + p.items.length) rest → Walk fetch offset (p :: rest)

/-- Where only one page can be fetched at an offset, there is only one walk from it. -/
theorem Walk.unique (hf : ∀ offset p q, fetch offset p → fetch offset q → p = q) {offset : Nat}
    {ps qs : List (Page α)} (w : Walk fetch offset ps) (w' : Walk fetch offset qs) : ps = qs := by
  induction w generalizing qs with
  | last hp hend =>
    cases w' with
    | last hq _ => rw [hf _ _ _ hp hq]
    | next hq hmore _ =>
      rw [hf _ _ _ hp hq, hmore] at hend
      cases hend
  | next hp hmore _ ih =>
    cases w' with
    | last hq hend =>
      rw [hf _ _ _ hp hq, hend] at hmore
      cases hmore
    | next hq _ w' =>
      cases hf _ _ _ hp hq
      rw [ih w']

/-- The pages of a list up to a limit. -/
def Cuts (xs : List α) (limit offset : Nat) (p : Page α) : Prop :=
  p = slice xs { offset, limit := some limit }

theorem drop_of_not_hasMore {offset : Nat} (h : xs.length ≤ maxSize)
    (hend : (slice xs { offset, limit := some limit }).hasMore = false) :
    (slice xs { offset, limit := some limit }).items = xs.drop offset := by
  rw [items_slice h, ListOptions.window]
  refine List.take_of_length_le ?_
  by_contra hlong
  have hlt : limit < (xs.drop offset).length := Nat.not_le.mp hlong
  rw [List.length_drop] at hlt
  have hmore : (slice xs { offset, limit := some limit }).hasMore = true :=
    (hasMore_slice_iff h).mpr ⟨offset + limit, by omega, limit, rfl, Nat.le_refl _⟩
  rw [hmore] at hend
  cases hend

/-- The pages of a walk, one after the other, are what follows its offset. -/
theorem Walk.flatMap_items (h : xs.length ≤ maxSize) {offset : Nat} {pages : List (Page α)}
    (w : Walk (Cuts xs limit) offset pages) : pages.flatMap Page.items = xs.drop offset := by
  induction w with
  | last hp hend =>
    subst hp
    simpa using drop_of_not_hasMore h hend
  | @next offset p rest hp _ _ ih =>
    have hwindow : p.items = (xs.drop offset).take limit := by
      rw [hp, items_slice h]
      rfl
    rw [List.flatMap_cons, ih, ← List.drop_drop, hwindow, List.length_take, List.length_drop]
    rcases Nat.le_total limit (xs.length - offset) with hle | hle
    · rw [Nat.min_eq_left hle, List.take_append_drop]
    · rw [Nat.min_eq_right hle, ← List.length_drop, List.drop_length, List.append_nil]
      exact List.take_of_length_le (by rw [List.length_drop]; exact hle)

/-- A page after which there is more is full, so what is left gets shorter. -/
theorem length_items_of_hasMore {offset : Nat} (h : xs.length ≤ maxSize)
    (hmore : (slice xs { offset, limit := some limit }).hasMore = true) :
    (slice xs { offset, limit := some limit }).items.length = limit ∧ offset + limit < xs.length := by
  obtain ⟨i, hi, n, hn, hle⟩ := (hasMore_slice_iff h).mp hmore
  cases hn
  have hle : offset + limit ≤ i := hle
  rw [items_slice h, ListOptions.window, List.length_take, List.length_drop]
  omega

/-- With a limit of at least one, a walk comes to an end from wherever it starts. -/
theorem exists_walk (h : xs.length ≤ maxSize) (hlimit : 1 ≤ limit) (offset : Nat) :
    ∃ pages, Walk (Cuts xs limit) offset pages := by
  -- what is left after the offset gets shorter with each page that is not the last
  induction hleft : xs.length - offset using Nat.strongRecOn generalizing offset with
  | ind left ih =>
    cases hmore : (slice xs { offset, limit := some limit }).hasMore with
    | false => exact ⟨_, .last rfl hmore⟩
    | true =>
      obtain ⟨hfull, hlt⟩ := length_items_of_hasMore h hmore
      obtain ⟨rest, w⟩ := ih (xs.length - (offset + limit)) (by omega) (offset + limit) rfl
      have hnext : Walk (Cuts xs limit)
          (offset + (slice xs { offset, limit := some limit }).items.length) rest := by
        rw [hfull]
        exact w
      exact ⟨_ :: rest, .next rfl hmore hnext⟩

/-- From the start of a list there is one walk, and its pages are the list. -/
theorem existsUnique_walk (h : xs.length ≤ maxSize) (hlimit : 1 ≤ limit) :
    (∃! pages, Walk (Cuts xs limit) 0 pages) ∧
    ∀ pages, Walk (Cuts xs limit) 0 pages → pages.flatMap Page.items = xs := by
  obtain ⟨pages, w⟩ := exists_walk h hlimit 0
  have hone : ∀ offset (p q : Page α), Cuts xs limit offset p → Cuts xs limit offset q → p = q :=
    fun _ _ _ hp hq => hp.trans hq.symm
  exact ⟨⟨pages, w, fun _ w' => w'.unique hone w⟩, fun _ w' => w'.flatMap_items h⟩

end Page

/-! ### Jobs -/

namespace Job

/-- A record says which job it is about. -/
def hasId : Json → Bool
  | .obj members => members.any fun m => m.1 == "job_id" && Json.isSet m
  | .arr (id :: _) => Json.isSet ("job_id", id)
  | _ => false

/-- A record is read as a job just if it says which. -/
theorem isSome_of_ofWire {v : Json} {o : Option Job} (h : ofWire v = some o) : o.isSome = hasId v := by
  rw [ofWire] at h
  obtain ⟨r, hr, h⟩ := Option.bind_eq_some_iff.mp h
  obtain ⟨id, hid, h⟩ := Option.bind_eq_some_iff.mp h
  -- The other fields have no part in it.
  iterate 18 obtain ⟨_, -, h⟩ := Option.bind_eq_some_iff.mp h
  cases h
  rw [Option.isSome_map]
  cases v with
  | obj members =>
    rw [Json.withAlias_obj] at hr
    have hslot := Json.slotOf_of_read hr List.mem_cons_self
    rw [Json.Record.slotOf, Json.filter_renamed (by decide) (by decide)] at hslot
    exact (Json.isSome_of_setting hid).trans (Json.isSet_slotOf hslot)
  | arr items =>
    obtain ⟨slots, hslots, rfl⟩ := Option.map_eq_some_iff.mp hr
    cases items with
    | nil =>
      obtain ⟨rest, -, rfl⟩ := Option.map_eq_some_iff.mp hslots
      exact Json.isSome_of_setting hid
    | cons first items =>
      obtain ⟨rest, -, rfl⟩ := Option.map_eq_some_iff.mp hslots
      exact Json.isSome_of_setting hid
  | _ => cases hr

/-- The jobs that a message lists are read from its records that say which job they are about. -/
theorem forall₂_of_listOfWire {v : Json} {jobs : List Job} (h : listOfWire v = some jobs) :
    List.Forall₂ (fun record job => ofWire record = some (some job))
      ((v.recordsIn "jobs").filter hasId) jobs := by
  obtain ⟨results, hresults, rfl⟩ := exists_of_readRecords h
  exact forall₂_of_mapM (fun _ _ => isSome_of_ofWire) hresults

end Job

namespace JobFilter

/-- A filter wants a job: of each sort that it names values of, the job has one of them. -/
def Matches (f : JobFilter) (j : Job) : Prop :=
  (f.users = [] ∨ ∃ user ∈ j.userName, user ∈ f.users) ∧
  (f.accounts = [] ∨ ∃ account ∈ j.account, account ∈ f.accounts) ∧
  (f.partitions = [] ∨ ∃ partition ∈ j.partition, partition ∈ f.partitions) ∧
  (f.states = [] ∨ j.state ∈ f.states)

theorem passes_iff {filter : List String} {value : Option String} :
    passes filter value = true ↔ filter = [] ∨ ∃ v ∈ value, v ∈ filter := by
  cases value <;> simp [passes]

theorem accepts_iff {f : JobFilter} {j : Job} : f.accepts j = true ↔ f.Matches j := by
  simp only [accepts, Matches, Bool.and_eq_true, passes_iff, Bool.or_eq_true, List.isEmpty_iff,
    List.contains_iff_mem, and_assoc]

instance (f : JobFilter) (j : Job) : Decidable (f.Matches j) :=
  decidable_of_iff (f.accepts j = true) accepts_iff

end JobFilter

namespace Command

/-- A page of the jobs that a response lists. -/
def ListsJobs (s : Session) (filter : JobFilter) (r : Response) (o : ListOptions) (p : Page Job) : Prop :=
  conclude s (.listJobs filter o) (.ok r) = .ok (.jobs p)

theorem listsJobs_iff {s : Session} {filter : JobFilter} {r : Response} {o : ListOptions} {p : Page Job}
    {v : Json} {jobs : List Job} (hv : Json.ofBytes? r.body = some v)
    (hjobs : Job.listOfWire v = some jobs) :
    ListsJobs s filter r o p ↔ p = Page.slice (jobs.filter fun job => filter.Matches job) o := by
  have hmatches : (jobs.filter fun job => filter.Matches job) = jobs.filter filter.accepts :=
    List.filter_congr fun job _ => by
      rw [Bool.eq_iff_iff, decide_eq_true_iff, JobFilter.accepts_iff]
  have hread : read s.apiVersion r.body (.listJobs filter o) =
      .ok (.jobs (Page.slice (jobs.filter filter.accepts) o)) := by
    rw [read, decode, hv, Option.bind_some, hjobs]
    rfl
  rw [hmatches, ListsJobs, conclude, hread]
  constructor
  · intro h
    cases h
    rfl
  · rintro rfl
    rfl

/-- What pages show of a list. A page has the items of its window, the length of the whole list, and says
    that there is more just if a place of the list comes after the window. With a limit of at least one,
    reading on from page to page comes to an end, and the pages are the list. The same holds of the jobs
    that a response lists: these are read from the records that say which job they are about, and what is
    paged are those of them that the filter wants. -/
theorem paging_exact :
    (∀ {α : Type} (xs : List α) (o : ListOptions), xs.length ≤ maxSize →
      (Page.slice xs o).items = o.window xs ∧ (Page.slice xs o).total = xs.length ∧
      ((Page.slice xs o).hasMore = true ↔ ∃ i, i < xs.length ∧ o.Before i)) ∧
    (∀ {α : Type} (xs : List α) (limit : Nat), xs.length ≤ maxSize → 1 ≤ limit →
      (∃! pages, Page.Walk (Page.Cuts xs limit) 0 pages) ∧
      ∀ pages, Page.Walk (Page.Cuts xs limit) 0 pages → pages.flatMap Page.items = xs) ∧
    ∀ (s : Session) (filter : JobFilter) (r : Response) (v : Json) (jobs : List Job),
      Json.ofBytes? r.body = some v → Job.listOfWire v = some jobs → jobs.length ≤ maxSize →
      List.Forall₂ (fun record job => Job.ofWire record = some (some job))
        ((v.recordsIn "jobs").filter Job.hasId) jobs ∧
      let xs := jobs.filter fun job => filter.Matches job
      (∀ o, ∃! p, ListsJobs s filter r o p ∧ p.items = o.window xs ∧ p.total = xs.length ∧
        (p.hasMore = true ↔ ∃ i, i < xs.length ∧ o.Before i)) ∧
      ∀ limit, 1 ≤ limit →
        let fetch := fun offset => ListsJobs s filter r { offset, limit := some limit }
        (∃! pages, Page.Walk fetch 0 pages) ∧
        ∀ pages, Page.Walk fetch 0 pages → pages.flatMap Page.items = xs := by
  refine ⟨fun xs o h => ⟨Page.items_slice h, rfl, Page.hasMore_slice_iff h⟩,
    fun xs limit h hlimit => Page.existsUnique_walk h hlimit, fun s filter r v jobs hv hjobs h => ?_⟩
  refine ⟨Job.forall₂_of_listOfWire hjobs, ?_⟩
  intro xs
  have hxs : xs.length ≤ maxSize := Nat.le_trans (List.length_filter_le _ _) h
  refine ⟨fun o => ?_, fun limit hlimit => ?_⟩
  · refine ⟨Page.slice xs o, ⟨(listsJobs_iff hv hjobs).mpr rfl, Page.items_slice hxs, rfl,
      Page.hasMore_slice_iff hxs⟩, ?_⟩
    rintro p ⟨hp, -⟩
    exact (listsJobs_iff hv hjobs).mp hp
  · have hfetch : (fun offset => ListsJobs s filter r { offset, limit := some limit }) =
        Page.Cuts xs limit := by
      funext offset p
      exact propext (listsJobs_iff hv hjobs)
    rw [hfetch]
    exact Page.existsUnique_walk hxs hlimit

/-- Three jobs, two of them of one user, and a record that names no job. -/
def mixedQueue : Response := ⟨200, Text.Utf8.encode
  ("\x7b\"jobs\":[\x7b\"job_id\":1,\"user_name\":\"ada\"\x7d,\x7b\"user_name\":\"ada\"\x7d," ++
    "\x7b\"job_id\":2,\"user_name\":\"eve\"\x7d,\x7b\"job_id\":3,\"user_name\":\"ada\"\x7d]\x7d").toList⟩

/-- The two jobs of the user, one to a page; and a page whose end is beyond the greatest size. -/
theorem paging_exact_mixed :
    [7, 8, 9].length ≤ maxSize ∧
    (Page.slice [7, 8, 9] { offset := 1, limit := some maxSize }).items = [8, 9] ∧
    (Page.slice [7, 8, 9] { offset := 1, limit := some maxSize }).hasMore = false ∧
    (∃ pages, Page.Walk (Page.Cuts [7, 8, 9] 2) 0 pages ∧ pages.flatMap Page.items = [7, 8, 9]) ∧
    ∃ v jobs, Json.ofBytes? mixedQueue.body = some v ∧ Job.listOfWire v = some jobs ∧
      jobs.map Job.jobId = [1, 2, 3] ∧ jobs.length ≤ maxSize ∧
      ∃ pages, Page.Walk (fun offset => ListsJobs ⟨0, .v42, "http://hub", none⟩ { users := ["ada"] }
          mixedQueue { offset, limit := some 1 }) 0 pages ∧
        (pages.flatMap Page.items).map Job.jobId = [1, 3] := by
  have hsize : [7, 8, 9].length ≤ maxSize := by decide
  obtain ⟨hpage, hwalk, hjobs⟩ := paging_exact
  obtain ⟨hitems, -, hmore⟩ := hpage [7, 8, 9] { offset := 1, limit := some maxSize } hsize
  have hlast : (Page.slice [7, 8, 9] { offset := 1, limit := some maxSize }).hasMore = false := by
    rw [Bool.eq_false_iff]
    intro h
    obtain ⟨i, hi, n, hn, hle⟩ := hmore.mp h
    cases hn
    have hle : 1 + maxSize ≤ i := hle
    simp only [List.length_cons, List.length_nil, maxSize] at hi hle
    omega
  obtain ⟨⟨pages, w, -⟩, hlist⟩ := hwalk [7, 8, 9] 2 hsize (by decide)
  have hread : ((Json.ofBytes? mixedQueue.body).bind Job.listOfWire).map (List.map Job.jobId) =
      some [1, 2, 3] := by decide +kernel
  have hwanted : ((Json.ofBytes? mixedQueue.body).bind Job.listOfWire).map (fun jobs =>
      (jobs.filter fun job => JobFilter.Matches { users := ["ada"] } job).map Job.jobId) =
      some [1, 3] := by decide +kernel
  obtain ⟨jobs, hbind, hids⟩ := Option.map_eq_some_iff.mp hread
  obtain ⟨v, hv, hlisted⟩ := Option.bind_eq_some_iff.mp hbind
  rw [hbind, Option.map_some, Option.some.injEq] at hwanted
  have hfew : jobs.length ≤ maxSize := by
    rw [← List.length_map (f := Job.jobId), hids]
    decide
  obtain ⟨-, -, hpages⟩ := hjobs ⟨0, .v42, "http://hub", none⟩ { users := ["ada"] } mixedQueue v jobs hv
    hlisted hfew
  obtain ⟨⟨shown, hshown, -⟩, hall⟩ := hpages 1 (by decide)
  refine ⟨hsize, hitems, hlast, ⟨pages, w, hlist pages w⟩, v, jobs, hv, hlisted, hids, hfew, shown, hshown,
    ?_⟩
  rw [hall shown hshown]
  exact hwanted

end Command

end SlurmLink
