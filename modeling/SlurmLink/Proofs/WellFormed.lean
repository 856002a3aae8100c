import Mathlib.Data.List.Nodup
import Mathlib.Data.List.Perm.Subperm
import SlurmLink.Proofs.Matrix

/-!
Which rows make a matrix. Building looks at each row on its own and then at neighbours, ranges and exact
rows apart, after one sort by the first release:

    rows           [24.11, 25.05)   =24.05.4   [24.05, 25.01)        in any order
    sorted         [24.05, 25.01)   =24.05.4   [24.11, 25.05)
    neighbours     [24.05, 25.01)              [24.11, 25.05)        share 24.11

`WellFormed` says what is asked of the rows without any order, and building succeeds just if it holds
(`builds_iff_wellFormed`). When it fails, what it names is wrong with the rows (`Shows`); two rows that
are said to overlap are two of the rows, and both cover one release.
-/

namespace SlurmLink

/-- What a row of a matrix covers, and the revisions that it serves, in any order. -/
abbrev MatrixRow := Coverage × List ApiVersion

namespace Coverage

variable {c d : Coverage}

theorem Apart.symm (h : c.Apart d) : d.Apart c := fun v hd hc => h v hc hd

/-- Neighbours that collide cover a release in common: the first one of the second of them. -/
theorem exists_contains_of_collide (h : Matrix.collide c d = true) (hle : c.start ≤ d.start)
    (hproper : d.IsProper) :
    c.isExact = d.isExact ∧ ∃ v, c.contains v = true ∧ d.contains v = true := by
  cases c with
  | exact release =>
    cases d with
    | exact release' =>
      have hsame : release = release' := of_decide_eq_true h
      exact ⟨rfl, release, contains_exact.mpr rfl, contains_exact.mpr hsame.symm⟩
    | range start stop => cases h
  | range start stop =>
    cases d with
    | exact release => cases h
    | range start' stop' =>
      have hlt : start' < stop := of_decide_eq_true h
      exact ⟨rfl, start', contains_range.mpr ⟨hle, hlt⟩,
        contains_range.mpr ⟨Nat.le_refl _, hproper⟩⟩

/-- Two of one sort are apart just if they are ranges without a common release, or name different
    releases. -/
theorem apart_of_alike_iff : (c.isExact = d.isExact → c.Apart d) ↔
    (c.isExact = false → d.isExact = false → c.Apart d) ∧ ∀ v, c = .exact v → d ≠ .exact v := by
  constructor
  · intro h
    refine ⟨fun hc hd => h (hc.trans hd.symm), ?_⟩
    rintro v rfl rfl
    exact h rfl v (contains_exact.mpr rfl) (contains_exact.mpr rfl)
  · rintro ⟨hranges, hexacts⟩ hsame
    cases c with
    | range start stop => exact hranges rfl hsame.symm
    | exact release =>
      cases d with
      | range start stop => cases hsame
      | exact release' =>
        intro v hc hd
        rw [contains_exact] at hc hd
        exact hexacts release rfl (by rw [hc, hd])

end Coverage

theorem ApiVersion.ascending_eq_nil_iff {vs : List ApiVersion} : ascending vs = [] ↔ vs = [] := by
  simp only [List.eq_nil_iff_forall_not_mem, mem_ascending]

namespace Matrix

open Coverage

variable {rows rows' : List MatrixRow}

/-- The entries of rows, whose revisions are put in order. -/
def entriesOf (rows : List MatrixRow) : List MatrixEntry := rows.map fun r => .of r.1 r.2

theorem map_coverage_entriesOf (rows : List MatrixRow) :
    (entriesOf rows).map MatrixEntry.coverage = rows.map Prod.fst := by
  rw [entriesOf, List.map_map]
  rfl

/-- What is asked of rows, in whatever order they are. -/
structure WellFormed (rows : List MatrixRow) : Prop where
  /-- Every row serves something. -/
  served : ∀ r ∈ rows, r.2 ≠ []
  /-- Every range ends after it starts. -/
  proper : ∀ r ∈ rows, ∀ start stop, r.1 = .range start stop → start < stop
  /-- No two ranges share a release. -/
  ranges : rows.Pairwise fun r q => r.1.isExact = false → q.1.isExact = false → r.1.Apart q.1
  /-- No two exact rows are for one release. -/
  exacts : rows.Pairwise fun r q => ∀ v, r.1 = .exact v → q.1 ≠ .exact v

theorem WellFormed.perm (h : WellFormed rows) (hperm : rows.Perm rows') : WellFormed rows' where
  served r hr := h.served r (hperm.mem_iff.mpr hr)
  proper r hr := h.proper r (hperm.mem_iff.mpr hr)
  ranges := (hperm.pairwise_iff fun hrq hq hr => (hrq hr hq).symm).mp h.ranges
  exacts := (hperm.pairwise_iff fun hrq v hq hr => hrq v hr hq).mp h.exacts

/-- Two rows of one sort that are well formed are apart. -/
theorem WellFormed.apart (h : WellFormed rows) :
    (rows.map Prod.fst).Pairwise fun c d => c.isExact = d.isExact → c.Apart d :=
  List.pairwise_map.mpr ((h.ranges.and h.exacts).imp apart_of_alike_iff.mpr)

/-- Entries that are sound come from rows that are well formed. -/
theorem Sound.wellFormed {m : Matrix} (h : m.Sound) (hentries : m.entries.Perm (entriesOf rows)) :
    WellFormed rows := by
  have hmem : ∀ r ∈ rows, MatrixEntry.of r.1 r.2 ∈ m.entries := fun r hr =>
    hentries.mem_iff.mpr (List.mem_map_of_mem hr)
  have hapart : rows.Pairwise fun r q => r.1.isExact = q.1.isExact → r.1.Apart q.1 :=
    List.pairwise_map.mp ((hentries.pairwise_iff fun hef hsame => (hef hsame.symm).symm).mp h.apart)
  refine ⟨fun r hr hnil => ?_, fun r hr start stop hc => ?_, ?_, ?_⟩
  · exact h.served _ (hmem r hr) (ApiVersion.ascending_eq_nil_iff.mpr hnil)
  · have hproper : r.1.IsProper := h.proper _ (hmem r hr)
    rw [hc] at hproper
    exact hproper
  · exact hapart.imp fun hrq => (apart_of_alike_iff.mp hrq).1
  · exact hapart.imp fun hrq => (apart_of_alike_iff.mp hrq).2

/-! ### Faults -/

/-- What a fault says is so. -/
inductive Shows (rows : List MatrixRow) : MatrixFault → Prop where
  | emptySupportedSet {c : Coverage} (h : (c, []) ∈ rows) : Shows rows (.emptySupportedSet c)
  | emptyRange {start stop : ProductVersion} {vs : List ApiVersion}
      (h : (.range start stop, vs) ∈ rows) (hle : stop ≤ start) :
      Shows rows (.emptyRange (.range start stop))
  /-- Two of the rows, both exact or both ranges, cover a release in common. -/
  | overlapping {c d : Coverage} {v : ProductVersion} (h : [c, d].Subperm (rows.map Prod.fst))
      (hsame : c.isExact = d.isExact) (hc : c.contains v = true) (hd : d.contains v = true) :
      Shows rows (.overlapping c d)

/-- Rows of which a fault says something true are not well formed. -/
theorem Shows.not_wellFormed {f : MatrixFault} (h : Shows rows f) : ¬ WellFormed rows := by
  intro hw
  cases h with
  | emptySupportedSet h => exact hw.served _ h rfl
  | emptyRange h hle =>
    have hlt := hw.proper _ h _ _ rfl
    exact Nat.not_lt.mpr hle hlt
  | @overlapping c d v h hsame hc hd =>
    obtain ⟨cs, hperm, hsub⟩ := h
    have hpair : [c, d].Pairwise fun c d => c.isExact = d.isExact → c.Apart d :=
      (hperm.pairwise_iff fun hcd hsame => (hcd hsame.symm).symm).mp (hw.apart.sublist hsub)
    exact List.rel_of_pairwise_cons hpair List.mem_cons_self hsame v hc hd

/-- The neighbours that are found to collide. -/
theorem exists_of_firstCollision {f : MatrixFault} : ∀ {cs : List Coverage},
    firstCollision cs = some f →
      ∃ c d, f = .overlapping c d ∧ collide c d = true ∧ [c, d].Sublist cs
  | [], h => by cases h
  | [_], h => by cases h
  | c :: d :: cs, h => by
    rw [firstCollision] at h
    split at h
    · next hcollide =>
      cases h
      exact ⟨c, d, rfl, hcollide, ((List.nil_sublist cs).cons_cons d).cons_cons c⟩
    · obtain ⟨c', d', hf, hcollide, hsub⟩ := exists_of_firstCollision h
      exact ⟨c', d', hf, hcollide, hsub.cons c⟩

theorem entryFault_shows {r : MatrixRow} (hr : r ∈ rows) {f : MatrixFault}
    (h : entryFault (.of r.1 r.2) = some f) : Shows rows f := by
  obtain ⟨c, vs⟩ := r
  rw [entryFault] at h
  split at h
  · next hempty =>
    cases h
    have hnil : vs = [] := ApiVersion.ascending_eq_nil_iff.mp (List.isEmpty_iff.mp hempty)
    exact .emptySupportedSet (hnil ▸ hr)
  · split at h
    · next start stop hc =>
      split at h
      · next hle =>
        cases h
        have hcover : c = .range start stop := hc
        subst hcover
        exact .emptyRange hr hle
      · cases h
    · cases h

/-- What building names is wrong with the rows. -/
theorem shows_of_build {f : MatrixFault} (h : build (entriesOf rows) = .error f) : Shows rows f := by
  have hfault : fault (sortEntries (entriesOf rows)) = some f := by
    rw [build] at h
    split at h
    · next g hg => cases h; exact hg
    · cases h
  have hperm : (sortEntries (entriesOf rows)).Perm (entriesOf rows) := List.mergeSort_perm _ _
  rw [fault, Option.or_eq_some_iff] at hfault
  rcases hfault with hentry | ⟨hentries, hcollision⟩
  · obtain ⟨e, he, hf⟩ := List.exists_of_findSome?_eq_some hentry
    obtain ⟨r, hr, rfl⟩ := List.mem_map.mp (hperm.mem_iff.mp he)
    exact entryFault_shows hr hf
  · have hsorted : ((sortEntries (entriesOf rows)).map MatrixEntry.coverage).Pairwise
        fun c d => c.start ≤ d.start := List.pairwise_map.mpr (pairwise_sortEntries _)
    have hproper : ∀ c ∈ (sortEntries (entriesOf rows)).map MatrixEntry.coverage, c.IsProper := by
      intro c hc
      obtain ⟨e, he, rfl⟩ := List.mem_map.mp hc
      exact (entryFault_eq_none_iff.mp (List.findSome?_eq_none_iff.mp hentries e he)).2
    -- ranges and exact rows are looked at apart, and in the same way
    obtain ⟨keep, hfound⟩ : ∃ keep : Coverage → Bool, firstCollision
        (((sortEntries (entriesOf rows)).map MatrixEntry.coverage).filter keep) = some f := by
      rcases Option.or_eq_some_iff.mp hcollision with hranges | ⟨-, hexacts⟩
      · exact ⟨_, hranges⟩
      · exact ⟨_, hexacts⟩
    obtain ⟨c, d, rfl, hcollide, hsub⟩ := exists_of_firstCollision hfound
    have htwo := hsub.trans List.filter_sublist
    obtain ⟨hsame, v, hc, hd⟩ := exists_contains_of_collide hcollide
      (List.rel_of_pairwise_cons (hsorted.sublist htwo) List.mem_cons_self)
      (hproper d (htwo.subset (List.mem_cons_of_mem _ List.mem_cons_self)))
    have hrows := hperm.map MatrixEntry.coverage
    rw [map_coverage_entriesOf] at hrows
    exact .overlapping (htwo.subperm.trans hrows.subperm) hsame hc hd

theorem exists_build_iff : (∃ m, build (entriesOf rows) = .ok m) ↔ WellFormed rows := by
  constructor
  · rintro ⟨m, hm⟩
    obtain ⟨hentries, hsound⟩ := sound_of_build hm
    exact hsound.wellFormed (hentries ▸ List.mergeSort_perm _ _)
  · intro hw
    cases hb : build (entriesOf rows) with
    | ok m => exact ⟨m, rfl⟩
    | error f => exact absurd hw (shows_of_build hb).not_wellFormed

/-- Rows make a matrix just if they are well formed, whatever their order: every row serves something,
    every range ends after it starts, no two ranges share a release, and no two exact rows are for one
    release. If they make none, the fault says something true of them; in particular two rows that are
    said to overlap are two of the rows, and there is a release that both cover. -/
theorem builds_iff_wellFormed (rows : List MatrixRow) :
    ((∃ m, build (entriesOf rows) = .ok m) ↔ WellFormed rows) ∧
    ∀ f, build (entriesOf rows) = .error f → Shows rows f :=
  ⟨exists_build_iff, fun _ => shows_of_build⟩

/-- Entries with distinct first releases can be put in order in one way only. -/
theorem sortEntries_eq {entries sorted : List MatrixEntry} (hperm : entries.Perm sorted)
    (h : sorted.Pairwise fun e f => e.coverage.start < f.coverage.start) :
    sortEntries entries = sorted := by
  have hdistinct : (sorted.map fun e => e.coverage.start).Nodup := List.pairwise_map.mpr
    (h.imp fun {e f} hlt hsame => Nat.ne_of_lt hlt (congrArg ProductVersion.rank hsame))
  have hsorted : (sortEntries entries).Perm sorted := (List.mergeSort_perm _ _).trans hperm
  refine hsorted.eq_of_pairwise (fun e f he hf hle hge => ?_) (pairwise_sortEntries entries)
    (h.imp Nat.le_of_lt)
  exact List.inj_on_of_nodup_map hdistinct (hsorted.mem_iff.mp he) hf
    (ProductVersion.rank_injective (Nat.le_antisymm hle hge))

/-- Two ranges that overlap, and an exact row between them. -/
def parted : List MatrixRow :=
  [(.range (.ofLine 24 11) (.ofLine 25 5), [.ofPatch 41]), (.exact ⟨⟨24, 5, 4⟩⟩, [.ofPatch 40]),
    (.range (.ofLine 24 5) (.ofLine 25 1), [.ofPatch 40])]

/-- The exact row does not hide that the ranges overlap. -/
theorem builds_iff_wellFormed_parted :
    let f : MatrixFault := .overlapping (.range (.ofLine 24 5) (.ofLine 25 1))
      (.range (.ofLine 24 11) (.ofLine 25 5))
    build (entriesOf parted) = .error f ∧ Shows parted f ∧ ¬ WellFormed parted := by
  intro f
  have hsort : sortEntries (entriesOf parted) = (entriesOf parted).reverse :=
    sortEntries_eq (List.reverse_perm _).symm (by decide +kernel)
  have hfault : fault (entriesOf parted).reverse = some f := by decide +kernel
  have hf : build (entriesOf parted) = .error f := by rw [build, hsort, hfault]
  obtain ⟨hbuilds, hshows⟩ := builds_iff_wellFormed parted
  refine ⟨hf, hshows f hf, fun hw => ?_⟩
  obtain ⟨m, hm⟩ := hbuilds.mpr hw
  rw [hf] at hm
  cases hm

end Matrix

end SlurmLink
