import Mathlib.Order.Bounds.Defs
import SlurmLink.Proofs.Negotiation

/-!
Selecting a version among candidates, and naming one outright. Candidates and compiled versions are both
in ascending order, so each search runs from the end:

    candidates      39      41      99               newest shared one: 41
    compiled            40  41  43

    candidates      39              99               nothing shared; 43 is the newest one below 99
    candidates      39                               nothing shared, nothing below; 40 is the oldest

The rule for the nearest version stands in two places, in `selectVersion` and in `Revision.nearest`.
`IsNearest` says it without an order of search, and naming a version comes to the same as selecting
among it alone (`explicitRevision_cases`).
-/

namespace SlurmLink

namespace ApiVersion

variable {v w : ApiVersion}

/-! ### Ends of ascending versions -/

theorem eq_of_isGreatest {s : Set ApiVersion} (hv : IsGreatest s v) (hw : IsGreatest s w) : v = w :=
  rank_injective (Nat.le_antisymm (hw.2 hv.1) (hv.2 hw.1))

theorem eq_of_isLeast {s : Set ApiVersion} (hv : IsLeast s v) (hw : IsLeast s w) : v = w :=
  rank_injective (Nat.le_antisymm (hv.2 hw.1) (hw.2 hv.1))

section

variable {vs : List ApiVersion} (h : vs.Pairwise (· < ·))

include h

theorem isGreatest_of_find? {accept : ApiVersion → Bool} (hv : vs.reverse.find? accept = some v) :
    IsGreatest {w | w ∈ vs ∧ accept w = true} v := by
  obtain ⟨hmem, haccept, hgreatest⟩ := greatest_of_find?_reverse h hv
  exact ⟨⟨hmem, haccept⟩, fun w hw => hgreatest w hw.1 hw.2⟩

theorem isGreatest_of_getLast? (hv : vs.getLast? = some v) : IsGreatest {w | w ∈ vs} v := by
  obtain ⟨older, rfl⟩ := List.getLast?_eq_some_iff.mp hv
  refine ⟨List.mem_append_right _ (List.mem_singleton_self v), fun w hw => ?_⟩
  rcases List.mem_append.mp hw with hold | hlast
  · have hlt := (List.pairwise_append.mp h).2.2 w hold v (List.mem_singleton_self v)
    exact Nat.le_of_lt hlt
  · rw [List.mem_singleton.mp hlast]
    exact Nat.le_refl _

theorem isLeast_of_head? (hv : vs.head? = some v) : IsLeast {w | w ∈ vs} v := by
  obtain ⟨newer, rfl⟩ := List.head?_eq_some_iff.mp hv
  refine ⟨List.mem_cons_self, fun w hw => ?_⟩
  rcases List.mem_cons.mp hw with rfl | hnew
  · exact Nat.le_refl _
  · have hlt := (List.pairwise_cons.mp h).1 w hnew
    exact Nat.le_of_lt hlt

end

/-! ### The nearest version -/

/-- The compiled version that is nearest to candidates: the greatest one not above the greatest
    candidate, or the smallest one if there is none. -/
inductive IsNearest (candidates compiled : List ApiVersion) (nearest : ApiVersion) : Prop where
  | below {newest : ApiVersion} (h : IsGreatest {w | w ∈ candidates} newest)
      (hn : IsGreatest {w | w ∈ compiled ∧ w ≤ newest} nearest)
  | oldest (h : ∀ newest, IsGreatest {w | w ∈ candidates} newest → ∀ w ∈ compiled, ¬ w ≤ newest)
      (hn : IsLeast {w | w ∈ compiled} nearest)

variable {candidates compiled : List ApiVersion} {nearest nearest' : ApiVersion}

theorem IsNearest.eq (h : IsNearest candidates compiled nearest)
    (h' : IsNearest candidates compiled nearest') : nearest = nearest' := by
  cases h with
  | below hnewest hn =>
    cases h' with
    | below hnewest' hn' =>
      obtain rfl := eq_of_isGreatest hnewest hnewest'
      exact eq_of_isGreatest hn hn'
    | oldest hnone => exact absurd hn.1.2 (hnone _ hnewest _ hn.1.1)
  | oldest hnone hn =>
    cases h' with
    | below hnewest hn' => exact absurd hn'.1.2 (hnone _ hnewest _ hn'.1.1)
    | oldest _ hn' => exact eq_of_isLeast hn hn'

/-- Searching the compiled versions from the end finds the nearest one, or the first one stands in. -/
theorem isNearest_of_search (hcandidates : candidates.Pairwise (· < ·))
    (hcompiled : compiled.Pairwise (· < ·))
    (h : (candidates.getLast?.bind fun newest => compiled.reverse.find? (fun v => v ≤ newest)).or
      compiled.head? = some nearest) : IsNearest candidates compiled nearest := by
  rcases Option.or_eq_some_iff.mp h with h | ⟨hnone, h⟩
  · obtain ⟨newest, hnewest, hfound⟩ := Option.bind_eq_some_iff.mp h
    have hgreatest := isGreatest_of_find? hcompiled hfound
    simp only [decide_eq_true_eq] at hgreatest
    exact .below (isGreatest_of_getLast? hcandidates hnewest) hgreatest
  · refine .oldest (fun newest hnewest w hw hle => ?_) (isLeast_of_head? hcompiled h)
    cases hlast : candidates.getLast? with
    | none => exact List.ne_nil_of_mem hnewest.1 (List.getLast?_eq_none_iff.mp hlast)
    | some last =>
      obtain rfl := eq_of_isGreatest hnewest (isGreatest_of_getLast? hcandidates hlast)
      rw [hlast, Option.bind_some] at hnone
      exact List.find?_eq_none.mp hnone w (List.mem_reverse.mpr hw) (decide_eq_true hle)

end ApiVersion

/-! ### Selecting -/

open ApiVersion

/-- How an error names the candidates of a release. -/
def requestText (release : ProductVersion) (candidates : List ApiVersion) : String :=
  "Slurm " ++ release.toText ++ " (" ++ Text.joinWith ", " (candidates.map ApiVersion.toText) ++ ")"

/-- What selecting comes to: the greatest version that candidates and compiled ones share, or if they
    share none, an error with the nearest compiled one. -/
inductive Selects (release : ProductVersion) (candidates compiled : List ApiVersion) :
    Except Error ApiVersion → Prop where
  | shared {v : ApiVersion} (h : IsGreatest {w | w ∈ candidates ∧ w ∈ compiled} v) :
      Selects release candidates compiled (.ok v)
  | unsupported {nearest : ApiVersion} (h : ∀ w ∈ candidates, w ∉ compiled)
      (hn : IsNearest candidates compiled nearest) : Selects release candidates compiled
        (.error (.unsupportedVersion (requestText release candidates) nearest))

variable {release : ProductVersion} {candidates compiled : List ApiVersion}

theorem Selects.eq {outcome outcome' : Except Error ApiVersion}
    (h : Selects release candidates compiled outcome)
    (h' : Selects release candidates compiled outcome') : outcome = outcome' := by
  cases h with
  | shared hv =>
    cases h' with
    | shared hv' => rw [eq_of_isGreatest hv hv']
    | unsupported hnone => exact absurd hv.1.2 (hnone _ hv.1.1)
  | unsupported hnone hn =>
    cases h' with
    | shared hv => exact absurd hv.1.2 (hnone _ hv.1.1)
    | unsupported _ hn' => rw [hn.eq hn']

theorem selects_selectVersion (hcandidates : candidates.Pairwise (· < ·))
    (hcompiled : compiled.Pairwise (· < ·)) (hne : compiled ≠ []) :
    Selects release candidates compiled (selectVersion release candidates compiled) := by
  rw [selectVersion]
  cases hfound : candidates.reverse.find? (fun v => compiled.contains v) with
  | some v =>
    have hgreatest := isGreatest_of_find? hcandidates hfound
    simp only [List.contains_iff_mem] at hgreatest
    exact .shared hgreatest
  | none =>
    have hnone : ∀ w ∈ candidates, w ∉ compiled := fun w hw hc =>
      List.find?_eq_none.mp hfound w (List.mem_reverse.mpr hw) (List.contains_iff_mem.mpr hc)
    -- the first version stands in if the search finds nothing, so there is always a nearest one
    cases hsearch : (candidates.getLast?.bind fun newest =>
        compiled.reverse.find? (fun v => v ≤ newest)).or compiled.head? with
    | some nearest =>
      simp only
      exact .unsupported hnone (isNearest_of_search hcandidates hcompiled hsearch)
    | none =>
      have hhead := (Option.or_eq_none_iff.mp hsearch).2
      exact absurd (List.head?_eq_none_iff.mp hhead) hne

/-! ### Naming a version outright -/

namespace Revision

theorem pairwise_versions : versions.Pairwise (· < ·) := by decide

/-- The search among all versions always finds one. -/
theorem nearestIn_versions (v : ApiVersion) : nearestIn versions v = some (nearest v) := by
  rw [nearest]
  cases h : nearestIn versions v with
  | some w => rfl
  | none => exact absurd (Option.or_eq_none_iff.mp h).2 (by decide)

theorem isNearest_nearest (v : ApiVersion) : IsNearest [v] versions (nearest v) := by
  refine isNearest_of_search (List.pairwise_singleton ..) pairwise_versions ?_
  rw [List.getLast?_singleton, Option.bind_some, ← nearestIn]
  exact nearestIn_versions v

end Revision

/-- Naming a version comes to the same as selecting among it alone. -/
theorem explicitRevision_cases (release : ProductVersion) (v : ApiVersion) :
    (∃ r, explicitRevision v = .ok r ∧ r.apiVersion = v ∧
      selectVersion release [v] Revision.versions = .ok v) ∨
    (explicitRevision v = .error (.unsupportedVersion v.toText (Revision.nearest v)) ∧
      selectVersion release [v] Revision.versions =
        .error (.unsupportedVersion (requestText release [v]) (Revision.nearest v))) := by
  have hselects : Selects release [v] Revision.versions (selectVersion release [v] Revision.versions) :=
    selects_selectVersion (List.pairwise_singleton ..) Revision.pairwise_versions (by decide)
  cases hr : Revision.ofApiVersion? v with
  | some r =>
    have hv := Revision.ofApiVersion?_eq_some_iff.mp hr
    refine Or.inl ⟨r, explicitRevision_eq_ok_iff.mpr hv, hv, hselects.eq (.shared ⟨⟨?_, ?_⟩, ?_⟩)⟩
    · exact List.mem_singleton_self v
    · exact Revision.mem_versions_iff.mpr ⟨r, hv⟩
    · intro w hw
      rw [List.mem_singleton.mp hw.1]
      exact Nat.le_refl _
  | none =>
    refine Or.inr ⟨by rw [explicitRevision, hr], hselects.eq (.unsupported (fun w hw hc => ?_)
      (Revision.isNearest_nearest v))⟩
    obtain rfl := List.mem_singleton.mp hw
    obtain ⟨r, hv⟩ := Revision.mem_versions_iff.mp hc
    rw [Revision.ofApiVersion?_eq_some_iff.mpr hv] at hr
    cases hr

/-- Selecting among candidates gives the greatest version that they share with the compiled ones, and
    if they share none, the error that names the nearest compiled one: the greatest not above the
    greatest candidate, or else the smallest. Naming a version outright agrees with it: it succeeds
    just if selecting among this version alone does, both then give this version, and if they fail,
    both name the same nearest one. -/
theorem selection_exact :
    (∀ (release : ProductVersion) (candidates compiled : List ApiVersion),
      candidates.Pairwise (· < ·) → compiled.Pairwise (· < ·) → compiled ≠ [] → ∀ outcome,
        selectVersion release candidates compiled = outcome ↔
          Selects release candidates compiled outcome) ∧
    ∀ (release : ProductVersion) (v : ApiVersion),
      ((∃ r, explicitRevision v = .ok r) ↔
        ∃ w, selectVersion release [v] Revision.versions = .ok w) ∧
      (∀ r, explicitRevision v = .ok r → r.apiVersion = v) ∧
      (∀ w, selectVersion release [v] Revision.versions = .ok w → w = v) ∧
      ∀ e f, explicitRevision v = .error e → selectVersion release [v] Revision.versions = .error f →
        ∃ nearest, e = .unsupportedVersion v.toText nearest ∧
          f = .unsupportedVersion (requestText release [v]) nearest := by
  refine ⟨fun release candidates compiled hcandidates hcompiled hne outcome => ?_,
    fun release v => ?_⟩
  · have hselects : Selects release candidates compiled
        (selectVersion release candidates compiled) :=
      selects_selectVersion hcandidates hcompiled hne
    constructor
    · rintro rfl
      exact hselects
    · exact hselects.eq
  · rcases explicitRevision_cases release v with ⟨r, hr, hv, hselected⟩ | ⟨herror, hrefused⟩
    · rw [hr, hselected]
      refine ⟨⟨fun _ => ⟨v, rfl⟩, fun _ => ⟨r, rfl⟩⟩, ?_, ?_, ?_⟩
      · rintro _ ⟨⟩
        exact hv
      · rintro _ ⟨⟩
        rfl
      · rintro _ _ ⟨⟩
    · rw [herror, hrefused]
      refine ⟨⟨?_, ?_⟩, ?_, ?_, ?_⟩
      · rintro ⟨_, ⟨⟩⟩
      · rintro ⟨_, ⟨⟩⟩
      · rintro _ ⟨⟩
      · rintro _ ⟨⟩
      · rintro _ _ ⟨⟩ ⟨⟩
        exact ⟨_, rfl, rfl⟩

/-- The newest candidate is beyond all compiled versions, and another one lies between two of them. -/
theorem selection_exact_beyond :
    let candidates := [ApiVersion.ofPatch 39, .ofPatch 42, ⟨⟨0, 1, 0⟩⟩]
    let compiled := [ApiVersion.ofPatch 40, .ofPatch 41, .ofPatch 43]
    candidates.Pairwise (· < ·) ∧ compiled.Pairwise (· < ·) ∧ compiled ≠ [] ∧
    selectVersion (.ofLine 24 5) candidates compiled = .error (.unsupportedVersion
      "Slurm 24.05.0 (v0.0.39, v0.0.42, v0.1.0)" (.ofPatch 43)) := by
  intro candidates compiled
  have hcandidates : candidates.Pairwise (· < ·) := by decide
  have hcompiled : compiled.Pairwise (· < ·) := by decide
  have hne : compiled ≠ [] := by decide
  have hnewest : IsGreatest {w | w ∈ candidates} (⟨⟨0, 1, 0⟩⟩ : ApiVersion) :=
    isGreatest_of_getLast? hcandidates rfl
  have hmem : ApiVersion.ofPatch 43 ∈ compiled ∧ ApiVersion.ofPatch 43 ≤ ⟨⟨0, 1, 0⟩⟩ := by decide
  have hbelow : IsGreatest {w | w ∈ compiled ∧ w ≤ (⟨⟨0, 1, 0⟩⟩ : ApiVersion)} (.ofPatch 43) :=
    ⟨hmem, fun w hw => (isGreatest_of_getLast? hcompiled rfl).2 hw.1⟩
  have htext : requestText (.ofLine 24 5) candidates = "Slurm 24.05.0 (v0.0.39, v0.0.42, v0.1.0)" := by
    decide +kernel
  refine ⟨hcandidates, hcompiled, hne, ?_⟩
  rw [selection_exact.1 _ _ _ hcandidates hcompiled hne, ← htext]
  exact .unsupported (by decide) (.below hnewest hbelow)

end SlurmLink
