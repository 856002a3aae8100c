import SlurmLink.Compatibility

/-!
Compatibility matrices that were built. Building sorts the entries by their first release and compares
neighbours of one sort, and that is enough to tell all of them apart:

    ranges   [24.05, 24.11)   [24.11, 25.05)   [25.05, 25.11)   ...      each ends where the next starts,
    exact            =24.05.4                          =25.05.2          or before

So at most one exact entry and at most one range cover a release, and one entry decides about it: the
exact one if there is any (`Sound.eq_of_decides`). What a matrix resolves a release to is what that
entry supports, in ascending order.
-/

namespace SlurmLink

/-! ### Versions in order -/

namespace ApiVersion

theorem rank_injective {v w : ApiVersion} (h : v.rank = w.rank) : v = w :=
  congrArg mk (Triple.rank_injective h)

theorem mem_insertAscending {v w : ApiVersion} : ∀ {vs : List ApiVersion},
    w ∈ insertAscending v vs ↔ w = v ∨ w ∈ vs
  | [] => by simp [insertAscending]
  | u :: us => by
    rw [insertAscending]
    split
    · rw [List.mem_cons]
    · split
      · next hv => simp [hv]
      · rw [List.mem_cons, mem_insertAscending, List.mem_cons, or_left_comm]

theorem mem_ascending {w : ApiVersion} : ∀ {vs : List ApiVersion}, w ∈ ascending vs ↔ w ∈ vs
  | [] => Iff.rfl
  | v :: vs => by
    have ih : w ∈ vs.foldr insertAscending [] ↔ w ∈ vs := mem_ascending
    rw [ascending, List.foldr_cons, mem_insertAscending, ih, List.mem_cons]

theorem pairwise_insertAscending {v : ApiVersion} : ∀ {vs : List ApiVersion},
    vs.Pairwise (· < ·) → (insertAscending v vs).Pairwise (· < ·)
  | [], _ => List.pairwise_singleton ..
  | u :: us, h => by
    obtain ⟨hfirst, hrest⟩ := List.pairwise_cons.mp h
    rw [insertAscending]
    split
    · next hlt =>
      refine List.pairwise_cons.mpr ⟨fun w hw => ?_, h⟩
      rcases List.mem_cons.mp hw with rfl | hw
      · exact hlt
      · exact Nat.lt_trans hlt (hfirst w hw)
    · next hnot =>
      split
      · exact h
      · next hne =>
        refine List.pairwise_cons.mpr ⟨fun w hw => ?_, pairwise_insertAscending hrest⟩
        rcases mem_insertAscending.mp hw with rfl | hw
        · have hrank : w.rank ≠ u.rank := fun he => hne (rank_injective he)
          have hge : u.rank ≤ w.rank := Nat.le_of_not_lt hnot
          exact Nat.lt_of_le_of_ne hge (Ne.symm hrank)
        · exact hfirst w hw

theorem pairwise_ascending : ∀ vs : List ApiVersion, (ascending vs).Pairwise (· < ·)
  | [] => List.Pairwise.nil
  | _ :: vs => pairwise_insertAscending (pairwise_ascending vs)

end ApiVersion

theorem MatrixEntry.mem_supported_of {coverage : Coverage} {vs : List ApiVersion} {v : ApiVersion} :
    v ∈ (MatrixEntry.of coverage vs).supported ↔ v ∈ vs :=
  ApiVersion.mem_ascending

theorem ProductVersion.rank_injective {v w : ProductVersion} (h : v.rank = w.rank) : v = w :=
  congrArg mk (Triple.rank_injective h)

/-! ### Entries apart -/

namespace Coverage

theorem contains_exact {release v : ProductVersion} :
    (exact release).contains v = true ↔ release = v :=
  decide_eq_true_iff

theorem contains_range {start stop v : ProductVersion} :
    (range start stop).contains v = true ↔ start.rank ≤ v.rank ∧ v.rank < stop.rank := by
  rw [contains, Bool.and_eq_true, decide_eq_true_iff, decide_eq_true_iff]
  exact Iff.rfl

/-- Two entries that cover no release in common. -/
def Apart (c d : Coverage) : Prop := ∀ v, c.contains v = true → d.contains v ≠ true

/-- A range that ends where it starts, or before, covers nothing. -/
def IsProper : Coverage → Prop
  | .exact _ => True
  | .range start stop => start < stop

end Coverage

namespace Matrix

open Coverage

/-- An entry that does not collide with its neighbour is apart from all that start no earlier than that
    one, as far as they are of its sort. -/
theorem apart_of_not_collide {c d e : Coverage} (hcollide : collide c d = false)
    (hcd : c.start ≤ d.start) (hde : d.start ≤ e.start) (hd : c.isExact = d.isExact)
    (he : c.isExact = e.isExact) : c.Apart e := by
  intro v hc hv
  cases c with
  | exact release =>
    cases d with
    | range start stop => cases hd
    | exact next =>
      cases e with
      | range start stop => cases he
      | exact last =>
        have hne : release ≠ next := of_decide_eq_false hcollide
        have hrank : release.rank ≠ next.rank := fun hr => hne (ProductVersion.rank_injective hr)
        rw [contains_exact] at hc hv
        have hsame : release.rank = last.rank := by rw [hc, hv]
        have hfirst : release.rank ≤ next.rank := hcd
        have hlast : next.rank ≤ last.rank := hde
        omega
  | range start stop =>
    cases d with
    | exact next => cases hd
    | range next _ =>
      cases e with
      | exact last => cases he
      | range last _ =>
        have hends : ¬ next.rank < stop.rank := of_decide_eq_false hcollide
        rw [contains_range] at hc hv
        have hlast : next.rank ≤ last.rank := hde
        omega

/-- Comparing neighbours is enough, since the entries are in order of their first release. -/
theorem pairwise_apart {b : Bool} : ∀ {cs : List Coverage},
    cs.Pairwise (fun c d => c.start ≤ d.start) → (∀ c ∈ cs, c.isExact = b) →
      firstCollision cs = none → cs.Pairwise Apart
  | [], _, _, _ => List.Pairwise.nil
  | [_], _, _, _ => List.pairwise_singleton ..
  | c :: d :: cs, hsorted, hsort, hnone => by
    obtain ⟨hfirst, hrest⟩ := List.pairwise_cons.mp hsorted
    rw [firstCollision] at hnone
    split at hnone
    · cases hnone
    · next hcollide =>
      have hexact : ∀ e ∈ d :: cs, c.isExact = e.isExact := fun e he =>
        (hsort c List.mem_cons_self).trans (hsort e (List.mem_cons_of_mem _ he)).symm
      refine List.pairwise_cons.mpr ⟨fun e he => ?_,
        pairwise_apart hrest (fun e he => hsort e (List.mem_cons_of_mem _ he)) hnone⟩
      have hstart : d.start ≤ e.start := by
        rcases List.mem_cons.mp he with rfl | he
        · exact Nat.le_refl _
        · exact (List.pairwise_cons.mp hrest).1 e he
      exact apart_of_not_collide (Bool.eq_false_iff.mpr hcollide) (hfirst d List.mem_cons_self)
        hstart (hexact d List.mem_cons_self) (hexact e he)

/-- What building makes sure of. -/
structure Sound (m : Matrix) : Prop where
  served : ∀ e ∈ m.entries, e.supported ≠ []
  proper : ∀ e ∈ m.entries, e.coverage.IsProper
  apart : m.entries.Pairwise fun e f =>
    e.coverage.isExact = f.coverage.isExact → e.coverage.Apart f.coverage

theorem entryFault_eq_none_iff {e : MatrixEntry} :
    entryFault e = none ↔ e.supported ≠ [] ∧ e.coverage.IsProper := by
  rw [entryFault]
  cases e.supported with
  | nil => simp
  | cons v vs =>
    cases hc : e.coverage with
    | exact release => simp [IsProper]
    | range start stop =>
      have hlt : ¬ stop ≤ start ↔ start < stop := Nat.not_le
      simp [IsProper, hlt]

theorem pairwise_sortEntries (entries : List MatrixEntry) :
    (sortEntries entries).Pairwise fun e f => e.coverage.start ≤ f.coverage.start := by
  refine (List.pairwise_mergeSort (fun a b c hab hbc => ?_) (fun a b => ?_) entries).imp
    fun h => of_decide_eq_true h
  · exact decide_eq_true (Nat.le_trans (of_decide_eq_true hab) (of_decide_eq_true hbc))
  · rw [Bool.or_eq_true, decide_eq_true_iff, decide_eq_true_iff]
    exact Nat.le_total _ _

theorem sound_of_build {entries : List MatrixEntry} {m : Matrix} (h : build entries = .ok m) :
    m.entries = sortEntries entries ∧ m.Sound := by
  rw [build] at h
  split at h
  · cases h
  · next hfault =>
    cases h
    rw [fault, Option.or_eq_none_iff, Option.or_eq_none_iff, List.findSome?_eq_none_iff] at hfault
    obtain ⟨hentries, hranges, hexacts⟩ := hfault
    refine ⟨rfl, fun e he => (entryFault_eq_none_iff.mp (hentries e he)).1,
      fun e he => (entryFault_eq_none_iff.mp (hentries e he)).2, ?_⟩
    have hsorted : ((sortEntries entries).map MatrixEntry.coverage).Pairwise
        fun c d => c.start ≤ d.start := List.pairwise_map.mpr (pairwise_sortEntries entries)
    have hr := pairwise_apart (b := false) (hsorted.filter _)
      (fun c hc => by simpa using (List.mem_filter.mp hc).2) hranges
    have hx := pairwise_apart (b := true) (hsorted.filter _)
      (fun c hc => (List.mem_filter.mp hc).2) hexacts
    rw [List.pairwise_filter, List.pairwise_map] at hr hx
    refine hr.imp₂ (fun e f hr hx hsame => ?_) hx
    cases hb : e.coverage.isExact with
    | true => exact hx hb (hsame ▸ hb)
    | false => exact hr (by simp [hb]) (by simp [← hsame, hb])

/-! ### What a matrix resolves to -/

/-- The entry of a matrix that decides about a release: an exact one, or a range if no exact entry is
    for that release. -/
structure Decides (m : Matrix) (e : MatrixEntry) (release : ProductVersion) : Prop where
  mem : e ∈ m.entries
  covers : e.coverage.contains release = true
  first : e.coverage.isExact = false →
    ∀ f ∈ m.entries, f.coverage.isExact = true → f.coverage.contains release ≠ true

/-- A revision that a release serves. -/
def Serves (m : Matrix) (release : ProductVersion) (v : ApiVersion) : Prop :=
  ∃ e, m.Decides e release ∧ v ∈ e.supported

variable {m : Matrix} {e f : MatrixEntry} {release : ProductVersion}

/-- Two entries of one sort that cover the same release are the same. -/
theorem eq_of_covers : ∀ {entries : List MatrixEntry},
    (entries.Pairwise fun e f => e.coverage.isExact = f.coverage.isExact →
      e.coverage.Apart f.coverage) → e ∈ entries → f ∈ entries →
      e.coverage.isExact = f.coverage.isExact → e.coverage.contains release = true →
        f.coverage.contains release = true → e = f
  | [], _, he, _, _, _, _ => by cases he
  | g :: entries, h, he, hf, hsort, hce, hcf => by
    obtain ⟨hfirst, hrest⟩ := List.pairwise_cons.mp h
    rcases List.mem_cons.mp he with rfl | he'
    · rcases List.mem_cons.mp hf with rfl | hf'
      · rfl
      · exact absurd hcf (hfirst f hf' hsort release hce)
    · rcases List.mem_cons.mp hf with rfl | hf'
      · exact absurd hce (hfirst e he' hsort.symm release hcf)
      · exact eq_of_covers hrest he' hf' hsort hce hcf

/-- One entry decides. -/
theorem Sound.eq_of_decides (h : m.Sound) (he : m.Decides e release) (hf : m.Decides f release) :
    e = f := by
  refine eq_of_covers h.apart he.mem hf.mem ?_ he.covers hf.covers
  cases hb : e.coverage.isExact <;> cases hc : f.coverage.isExact
  · rfl
  · exact absurd hf.covers (he.first hb f hf.mem hc)
  · exact absurd he.covers (hf.first hc e he.mem hb)
  · rfl

/-- What `resolve` finds was supported by the entry that decides. -/
theorem exists_decides_of_resolve {vs : List ApiVersion} (h : m.resolve release = some vs) :
    ∃ e, m.Decides e release ∧ e.supported = vs := by
  obtain ⟨e, he, rfl⟩ := Option.map_eq_some_iff.mp h
  refine ⟨e, ?_, rfl⟩
  rcases Option.or_eq_some_iff.mp he with hx | ⟨hnone, hr⟩
  · have hfound := List.find?_some hx
    rw [Bool.and_eq_true] at hfound
    exact ⟨List.mem_of_find?_eq_some hx, hfound.2, fun hb => by rw [hfound.1] at hb; cases hb⟩
  · have hfound := List.find?_some hr
    rw [Bool.and_eq_true] at hfound
    refine ⟨List.mem_of_find?_eq_some hr, hfound.2, fun _ f hf hb hc => ?_⟩
    exact List.find?_eq_none.mp hnone f hf (by rw [hb, hc]; rfl)

theorem resolve_eq_none_iff :
    m.resolve release = none ↔ ∀ e ∈ m.entries, e.coverage.contains release ≠ true := by
  rw [resolve, Option.map_eq_none_iff, Option.or_eq_none_iff, List.find?_eq_none,
    List.find?_eq_none]
  constructor
  · rintro ⟨hx, hr⟩ e he hc
    cases hb : e.coverage.isExact with
    | true => exact hx e he (by rw [hb, hc]; rfl)
    | false => exact hr e he (by rw [hb, hc]; rfl)
  · intro h
    refine ⟨fun e he hc => ?_, fun e he hc => ?_⟩
    · exact h e he (Bool.and_eq_true _ _ ▸ hc).2
    · exact h e he (Bool.and_eq_true _ _ ▸ hc).2

/-- The revisions of a resolved release are those that it serves. -/
theorem Sound.mem_iff_serves (h : m.Sound) {vs : List ApiVersion} (hr : m.resolve release = some vs)
    {v : ApiVersion} : v ∈ vs ↔ m.Serves release v := by
  obtain ⟨e, he, rfl⟩ := exists_decides_of_resolve hr
  constructor
  · intro hv
    exact ⟨e, he, hv⟩
  · rintro ⟨f, hf, hv⟩
    rw [h.eq_of_decides he hf]
    exact hv

/-! ### Matrices that were built -/

/-- Built from entries of any lists of revisions, which are put in order. -/
def IsBuilt (m : Matrix) : Prop :=
  ∃ rows : List (Coverage × List ApiVersion), build (rows.map fun r => .of r.1 r.2) = .ok m

theorem IsBuilt.sound (h : m.IsBuilt) : m.Sound := by
  obtain ⟨rows, hrows⟩ := h
  exact (sound_of_build hrows).2

theorem IsBuilt.pairwise_supported (h : m.IsBuilt) (he : e ∈ m.entries) :
    e.supported.Pairwise (· < ·) := by
  obtain ⟨rows, hrows⟩ := h
  rw [(sound_of_build hrows).1, sortEntries, List.mem_mergeSort] at he
  obtain ⟨r, -, rfl⟩ := List.mem_map.mp he
  exact ApiVersion.pairwise_ascending r.2

/-- Entries that are in order and have no fault are built as they are. -/
theorem build_of_pairwise {entries : List MatrixEntry}
    (hsorted : entries.Pairwise fun e f => decide (e.coverage.start ≤ f.coverage.start) = true)
    (hfault : fault entries = none) : build entries = .ok ⟨entries⟩ := by
  have hsort : sortEntries entries = entries := List.mergeSort_of_pairwise hsorted
  rw [build, hsort, hfault]

theorem isBuilt_builtin : builtin.IsBuilt := by
  let row (start stop : UInt32 × UInt32) (patches : List UInt32) : Coverage × List ApiVersion :=
    (.range (.ofLine start.1 start.2) (.ofLine stop.1 stop.2), patches.map ApiVersion.ofPatch)
  have hbuild : build builtin.entries = .ok builtin := build_of_pairwise (by decide) (by decide)
  exact ⟨[row (24, 5) (24, 11) [39, 40, 41], row (24, 11) (25, 5) [40, 41, 42],
    row (25, 5) (25, 11) [41, 42, 43], row (25, 11) (26, 5) [42, 43, 44]], hbuild⟩

end Matrix

end SlurmLink
