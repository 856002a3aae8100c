import SlurmLink.Proofs.Negotiation
import SlurmLink.Proofs.WellFormed

/-!
What rows resolve a release to, in whatever order they were added. Sorting leaves rows with the same
first release in the order in which they came, so two orders can make two matrices:

    added      =24.05.0   [24.05, 24.11)           [24.05, 24.11)   =24.05.0
    matrix     =24.05.0   [24.05, 24.11)           [24.05, 24.11)   =24.05.0

`resolve` takes the first entry that matches, and no other does, since the rows are well formed. So what
it finds can be said of the rows without any order (`Resolves`).
-/

namespace SlurmLink

/-- The revisions in ascending order, each once. -/
def ApiVersion.IsSetOf (vs ws : List ApiVersion) : Prop :=
  vs.Pairwise (· < ·) ∧ ∀ v, v ∈ vs ↔ v ∈ ws

theorem ApiVersion.isSetOf_ascending (ws : List ApiVersion) : IsSetOf (ascending ws) ws :=
  ⟨pairwise_ascending ws, fun _ => mem_ascending⟩

/-- If an element passes and no two elements do, it is the only one that does. -/
theorem filter_eq_singleton {α : Type} {p : α → Bool} {a : α} : ∀ {l : List α},
    l.Pairwise (fun a b => p a = true → p b ≠ true) → a ∈ l → p a = true → l.filter p = [a]
  | [], _, ha, _ => by cases ha
  | b :: l, h, ha, hp => by
    obtain ⟨hfirst, hrest⟩ := List.pairwise_cons.mp h
    rcases List.mem_cons.mp ha with rfl | ha
    · have hnone : l.filter p = [] := List.filter_eq_nil_iff.mpr fun c hc => hfirst c hc hp
      rw [List.filter_cons_of_pos hp, hnone]
    · have hb : ¬ p b = true := fun hpb => hfirst a ha hpb hp
      rw [List.filter_cons_of_neg hb, filter_eq_singleton hrest ha hp]

namespace Matrix

open Coverage

variable {rows rows' : List MatrixRow} {m m' : Matrix} {release : ProductVersion}

/-- What rows resolve a release to: the revisions of the one exact row for it; if there is none, those of
    the one range that covers it; and nothing if no row covers it. -/
inductive Resolves (rows : List MatrixRow) (release : ProductVersion) :
    Option (List ApiVersion) → Prop where
  | byExact {row : MatrixRow} {vs : List ApiVersion}
      (h : rows.filter (fun r => r.1 = .exact release) = [row]) (hvs : ApiVersion.IsSetOf vs row.2) :
      Resolves rows release (some vs)
  | byRange {row : MatrixRow} {vs : List ApiVersion} (hexact : ∀ r ∈ rows, r.1 ≠ .exact release)
      (h : rows.filter (fun r => !r.1.isExact && r.1.contains release) = [row])
      (hvs : ApiVersion.IsSetOf vs row.2) : Resolves rows release (some vs)
  | uncovered (h : ∀ r ∈ rows, r.1.contains release ≠ true) : Resolves rows release none

/-- A matrix of the same entries resolves to the same. -/
theorem Sound.resolve_eq (h : m.Sound) (hperm : m.entries.Perm m'.entries)
    (release : ProductVersion) : m.resolve release = m'.resolve release := by
  have hdecides : ∀ {e}, m'.Decides e release → m.Decides e release := fun he =>
    ⟨hperm.mem_iff.mpr he.mem, he.covers, fun hb f hf => he.first hb f (hperm.mem_iff.mp hf)⟩
  cases hr : m.resolve release with
  | none =>
    refine (resolve_eq_none_iff.mpr fun e he => ?_).symm
    exact resolve_eq_none_iff.mp hr e (hperm.mem_iff.mpr he)
  | some vs =>
    obtain ⟨e, he, rfl⟩ := exists_decides_of_resolve hr
    have hsome : m'.resolve release ≠ none := fun hnone =>
      resolve_eq_none_iff.mp hnone e (hperm.mem_iff.mp he.mem) he.covers
    obtain ⟨ws, hws⟩ := Option.ne_none_iff_exists'.mp hsome
    obtain ⟨e', he', rfl⟩ := exists_decides_of_resolve hws
    rw [hws, h.eq_of_decides he (hdecides he')]

/-- The entries of a matrix that was built are those of the rows. -/
theorem perm_of_build (h : build (entriesOf rows) = .ok m) : m.entries.Perm (entriesOf rows) := by
  rw [(sound_of_build h).1]
  exact List.mergeSort_perm _ _

theorem resolves_of_build (h : build (entriesOf rows) = .ok m) (release : ProductVersion) :
    Resolves rows release (m.resolve release) := by
  have hw : WellFormed rows := exists_build_iff.mp ⟨m, h⟩
  have hperm := perm_of_build h
  have hmem : ∀ r ∈ rows, MatrixEntry.of r.1 r.2 ∈ m.entries := fun r hr =>
    hperm.mem_iff.mpr (List.mem_map_of_mem hr)
  cases hr : m.resolve release with
  | none => exact .uncovered fun r hr' => resolve_eq_none_iff.mp hr _ (hmem r hr')
  | some vs =>
    obtain ⟨e, he, rfl⟩ := exists_decides_of_resolve hr
    obtain ⟨row, hrow, rfl⟩ := List.mem_map.mp (hperm.mem_iff.mp he.mem)
    have hvs := ApiVersion.isSetOf_ascending row.2
    have hcovers : row.1.contains release = true := he.covers
    cases hb : row.1.isExact with
    | true =>
      have hexact : row.1 = .exact release := by
        cases hc : row.1 with
        | exact v => rw [hc, contains_exact] at hcovers; rw [hcovers]
        | range start stop => rw [hc] at hb; cases hb
      refine .byExact (filter_eq_singleton (hw.exacts.imp fun {r q} hrq hr hq => ?_) hrow
        (decide_eq_true hexact)) hvs
      exact hrq release (of_decide_eq_true hr) (of_decide_eq_true hq)
    | false =>
      refine .byRange (fun r hr hexact => ?_) (filter_eq_singleton
        (hw.ranges.imp fun {r q} hrq hr hq => ?_) hrow (by rw [hb, hcovers]; rfl)) hvs
      · exact he.first hb _ (hmem r hr) (by rw [MatrixEntry.of, hexact]; rfl)
          (by rw [MatrixEntry.of, hexact]; exact contains_exact.mpr rfl)
      · simp only [Bool.and_eq_true, Bool.not_eq_true'] at hr hq
        exact hrq hr.1 hq.1 release hr.2 hq.2

/-- If the row that is picked out covers the release, not all rows miss it. -/
theorem covered_of_filter_eq {row : MatrixRow} {p : MatrixRow → Bool} (h : rows.filter p = [row])
    (hp : p row = true → row.1.contains release = true) :
    ¬ ∀ r ∈ rows, r.1.contains release ≠ true := by
  intro hnone
  have hrow : row ∈ rows.filter p := h ▸ List.mem_singleton_self row
  obtain ⟨hmem, hpicked⟩ := List.mem_filter.mp hrow
  exact hnone row hmem (hp hpicked)

theorem Resolves.eq_none_iff {o : Option (List ApiVersion)} (h : Resolves rows release o) :
    o = none ↔ ∀ r ∈ rows, r.1.contains release ≠ true := by
  cases h with
  | uncovered h => exact ⟨fun _ => h, fun _ => rfl⟩
  | byExact h hvs =>
    have hcovered := covered_of_filter_eq h fun hexact =>
      (of_decide_eq_true hexact ▸ contains_exact.mpr rfl)
    exact ⟨fun hnone => (by cases hnone), fun hnone => absurd hnone hcovered⟩
  | byRange hexact h hvs =>
    have hcovered := covered_of_filter_eq h fun hboth => (Bool.and_eq_true_iff.mp hboth).2
    exact ⟨fun hnone => (by cases hnone), fun hnone => absurd hnone hcovered⟩

/-- What is resolved to is never empty. -/
theorem resolve_ne_nil (h : build (entriesOf rows) = .ok m) {vs : List ApiVersion}
    (hr : m.resolve release = some vs) : vs ≠ [] := by
  obtain ⟨e, he, rfl⟩ := exists_decides_of_resolve hr
  exact (sound_of_build h).2.served e he.mem

/-- A release is refused for not being covered just if it resolves to nothing. -/
theorem chooseRevision_eq_noMatch_iff (h : m.IsBuilt) {uncovered : ProductVersion} :
    chooseRevision m release = .error (.noMatch uncovered) ↔
      uncovered = release ∧ m.resolve release = none := by
  constructor
  · intro hchosen
    rcases chooseRevision_cases h release with ⟨r, hr, -⟩ | ⟨hr, hnone⟩ | ⟨_, _, hr, -, -⟩
    · rw [hr] at hchosen
      cases hchosen
    · rw [hr] at hchosen
      cases hchosen
      exact ⟨rfl, resolve_eq_none_iff.mpr hnone⟩
    · rw [hr] at hchosen
      cases hchosen
  · rintro ⟨rfl, hnone⟩
    rw [chooseRevision, hnone]

/-- The order in which rows are added makes no difference. In one order they make a matrix just if they
    do in any other, and then every release resolves to the same in both, as the rows say: to the set of
    revisions of the one exact row for it, else to that of the one range that covers it, and to nothing
    just if no row covers it, which is then the error, with that release. What is resolved to is never
    empty. -/
theorem resolution_order_free (hperm : rows.Perm rows') :
    ((∃ m, build (entriesOf rows) = .ok m) ↔ ∃ m', build (entriesOf rows') = .ok m') ∧
    ∀ m m', build (entriesOf rows) = .ok m → build (entriesOf rows') = .ok m' → ∀ release,
      m.resolve release = m'.resolve release ∧
      Resolves rows release (m.resolve release) ∧
      (m.resolve release = none ↔ ∀ r ∈ rows, r.1.contains release ≠ true) ∧
      (∀ uncovered, chooseRevision m release = .error (.noMatch uncovered) ↔
        uncovered = release ∧ m.resolve release = none) ∧
      ∀ vs, m.resolve release = some vs → vs ≠ [] := by
  refine ⟨?_, fun m m' hm hm' release => ?_⟩
  · rw [exists_build_iff, exists_build_iff]
    exact ⟨fun h => h.perm hperm, fun h => h.perm hperm.symm⟩
  · have hentries : m.entries.Perm m'.entries :=
      (perm_of_build hm).trans ((hperm.map _).trans (perm_of_build hm').symm)
    have hresolves := resolves_of_build hm release
    exact ⟨(sound_of_build hm).2.resolve_eq hentries release, hresolves, hresolves.eq_none_iff,
      fun _ => chooseRevision_eq_noMatch_iff ⟨rows, hm⟩, fun _ => resolve_ne_nil hm⟩

/-- An exact row for the release with which a range starts, and another range that follows. -/
def exactFirst : List MatrixRow :=
  [(.exact (.ofLine 24 5), [.ofPatch 40]),
    (.range (.ofLine 24 5) (.ofLine 24 11), [.ofPatch 42, .ofPatch 41, .ofPatch 42]),
    (.range (.ofLine 24 11) (.ofLine 25 5), [.ofPatch 43])]

/-- The same rows, with the range before the exact row. -/
def rangeFirst : List MatrixRow :=
  [(.range (.ofLine 24 5) (.ofLine 24 11), [.ofPatch 42, .ofPatch 41, .ofPatch 42]),
    (.exact (.ofLine 24 5), [.ofPatch 40]),
    (.range (.ofLine 24 11) (.ofLine 25 5), [.ofPatch 43])]

/-- The two make different matrices, which resolve to the same. -/
theorem resolution_order_free_rangeFirst :
    exactFirst.Perm rangeFirst ∧
    build (entriesOf exactFirst) = .ok ⟨entriesOf exactFirst⟩ ∧
    build (entriesOf rangeFirst) = .ok ⟨entriesOf rangeFirst⟩ ∧
    entriesOf exactFirst ≠ entriesOf rangeFirst ∧
    (resolve ⟨entriesOf exactFirst⟩ (.ofLine 24 5) = some [.ofPatch 40] ∧
      resolve ⟨entriesOf rangeFirst⟩ (.ofLine 24 5) = some [.ofPatch 40]) ∧
    (resolve ⟨entriesOf exactFirst⟩ ⟨⟨24, 5, 1⟩⟩ = some [.ofPatch 41, .ofPatch 42] ∧
      resolve ⟨entriesOf rangeFirst⟩ ⟨⟨24, 5, 1⟩⟩ = some [.ofPatch 41, .ofPatch 42]) ∧
    chooseRevision ⟨entriesOf exactFirst⟩ (.ofLine 25 5) = .error (.noMatch (.ofLine 25 5)) := by
  have hperm : exactFirst.Perm rangeFirst := .swap ..
  have hexact : build (entriesOf exactFirst) = .ok ⟨entriesOf exactFirst⟩ :=
    build_of_pairwise (by decide +kernel) (by decide +kernel)
  have hrange : build (entriesOf rangeFirst) = .ok ⟨entriesOf rangeFirst⟩ :=
    build_of_pairwise (by decide +kernel) (by decide +kernel)
  have hsame := (resolution_order_free hperm).2 _ _ hexact hrange
  have hpinned : resolve ⟨entriesOf exactFirst⟩ (.ofLine 24 5) = some [.ofPatch 40] := by
    decide +kernel
  have hnext : resolve ⟨entriesOf exactFirst⟩ ⟨⟨24, 5, 1⟩⟩ = some [.ofPatch 41, .ofPatch 42] := by
    decide +kernel
  refine ⟨hperm, hexact, hrange, by decide +kernel, ⟨hpinned, ?_⟩, ⟨hnext, ?_⟩, ?_⟩
  · rw [← (hsame (.ofLine 24 5)).1, hpinned]
  · rw [← (hsame ⟨⟨24, 5, 1⟩⟩).1, hnext]
  · exact ((hsame (.ofLine 25 5)).2.2.2.1 _).mpr ⟨rfl, by decide +kernel⟩

end Matrix

end SlurmLink
