import Mathlib.Data.List.Forall2
import SlurmLink.Json.Canonical
import SlurmLink.Resource.Quantity

/-!
What readers find in the records of a message. A field is looked up among the members of an object, some of
which may go by another name, and a setting is there if one of them tells something:

    members ──withAlias──▶ members ──slotOf──▶ slot ──setting──▶ value, or none

A list is read record by record. If reading tells which records are to be kept, then what is left are just
these, in their order (`forall₂_of_mapM`).
-/

namespace SlurmLink

namespace Json

/-! ### Fields -/

/-- A slot that tells something. -/
def Slot.isSet : Slot → Bool
  | .given v => Json.isSet ("", v)
  | _ => false

/-- A setting is there if its slot tells something. -/
theorem isSome_of_setting {α : Type} {r : Record} {name : String} {read : Json → Option α}
    {o : Option α} (h : r.setting name read = some o) : o.isSome = (r.slot name).isSet := by
  rw [Record.setting] at h
  cases hslot : r.slot name with
  | given v =>
    rw [hslot] at h
    cases v with
    | null =>
      cases h
      rfl
    | _ =>
      obtain ⟨a, -, rfl⟩ := Option.map_eq_some_iff.mp h
      rfl
  | absent =>
    rw [hslot] at h
    cases h
    rfl
  | beyond =>
    rw [hslot] at h
    cases h
    rfl

/-- The slot of a name tells something just if a member of that name does. -/
theorem isSet_slotOf {members : List (String × Json)} {name : String} {slot : Slot}
    (h : Record.slotOf members name = some slot) :
    slot.isSet = members.any fun m => m.1 == name && Json.isSet m := by
  have hany : (members.any fun m => m.1 == name && Json.isSet m) =
      (members.filter (·.1 == name)).any Json.isSet := List.any_filter.symm
  rw [hany]
  rw [Record.slotOf] at h
  split at h
  · next hnone =>
    cases h
    rw [hnone]
    rfl
  · next m hone =>
    cases h
    rw [hone, List.any_cons, List.any_nil, Bool.or_false]
    rfl
  · cases h

/-- A record that is read from an object says of each field what the members of its name say. -/
theorem slotOf_of_read {members : List (String × Json)} : ∀ {names : List String} {r : Record}
    {name : String}, Record.read names (.obj members) = some r → name ∈ names →
    Record.slotOf members name = some (r.slot name)
  | [], _, _, _, hn => absurd hn List.not_mem_nil
  | first :: names, r, name, hr, hn => by
    obtain ⟨slots, hslots, rfl⟩ := Option.map_eq_some_iff.mp hr
    rw [List.mapM_cons] at hslots
    obtain ⟨s, hs, hslots⟩ := Option.bind_eq_some_iff.mp hslots
    obtain ⟨rest, hrest, hslots⟩ := Option.bind_eq_some_iff.mp hslots
    obtain ⟨slot, hslot, rfl⟩ := Option.map_eq_some_iff.mp hs
    cases hslots
    by_cases he : name = first
    · subst he
      simpa [Record.slot] using hslot
    · have hrest : Record.read names (.obj members) = some ⟨rest⟩ :=
        Option.map_eq_some_iff.mpr ⟨rest, hrest, rfl⟩
      have ih := slotOf_of_read hrest ((List.mem_cons.mp hn).resolve_left he)
      simpa [Record.slot, List.lookup_cons, beq_eq_false_iff_ne.mpr he] using ih

/-- The order of members makes no difference to what a name finds among them. -/
theorem slotOf_of_perm {members others : List (String × Json)} (h : members.Perm others)
    (name : String) : Record.slotOf members name = Record.slotOf others name := by
  have hfilter := h.filter fun m => m.1 == name
  rw [Record.slotOf, Record.slotOf]
  split
  · next hnone =>
    rw [hnone] at hfilter
    rw [List.nil_perm.mp hfilter]
  · next m hone =>
    rw [hone] at hfilter
    rw [← List.singleton_perm.mp hfilter]
  · next hnil hmany =>
    split
    · next hnone =>
      rw [hnone] at hfilter
      exact absurd (List.perm_nil.mp hfilter) hnil
    · next m hone =>
      rw [hone] at hfilter
      exact absurd (List.perm_singleton.mp hfilter) (hmany m)
    · rfl

theorem read_of_perm {members others : List (String × Json)} (h : members.Perm others)
    (names : List String) : Record.read names (.obj members) = Record.read names (.obj others) := by
  simp only [Record.read, slotOf_of_perm h]

/-- A member by its other name, if it goes by that. -/
def renamed {α : Type} (other name : String) (m : String × α) : String × α :=
  if m.1 == other then (name, m.2) else m

theorem withAlias_obj (other name : String) (members : List (String × Json)) :
    Record.withAlias other name (.obj members) = .obj (members.map (renamed other name)) := rfl

/-- Renaming members changes nothing for names that it is not about. -/
theorem filter_renamed {other name key : String} (hother : key ≠ other) (hname : key ≠ name)
    (members : List (String × Json)) :
    (members.map (renamed other name)).filter (·.1 == key) = members.filter (·.1 == key) := by
  induction members with
  | nil => rfl
  | cons m members ih =>
    rw [List.map_cons, List.filter_cons, List.filter_cons, ih, renamed]
    by_cases hm : m.1 = other
    · simp [hm, hother.symm, hname.symm]
    · simp [hm]

/-! ### Lists of records -/

/-- The records that a message holds in the named list. -/
def recordsIn (field : String) (v : Json) : List Json :=
  match (Record.read [field] v).map fun r => r.slot field with
  | some (Slot.given (.arr records)) => records
  | _ => []

end Json

/-- All records of a list are read, and those without what identifies them are left out. -/
theorem exists_of_readRecords {α : Type} {field : String} {read : Json → Option (Option α)} {v : Json}
    {xs : List α} (h : readRecords field read v = some xs) :
    ∃ results, (v.recordsIn field).mapM read = some results ∧ results.filterMap id = xs := by
  simp only [readRecords, bind, Option.bind_eq_some_iff, pure, Option.some.injEq] at h
  obtain ⟨r, hr, results, hresults, rfl⟩ := h
  refine ⟨results, ?_, rfl⟩
  rw [Json.recordsIn, hr, Option.map_some]
  rw [Json.Record.withDefault] at hresults
  cases hslot : r.slot field with
  | given w =>
    rw [hslot] at hresults
    cases w with
    | arr records => exact hresults
    | _ => cases hresults
  | absent =>
    rw [hslot] at hresults
    exact hresults
  | beyond =>
    rw [hslot] at hresults
    exact hresults

/-- If reading tells which records are to be kept, then just these are left, in their order. -/
theorem forall₂_of_mapM {α : Type} {read : Json → Option (Option α)} {keep : Json → Bool}
    (hkeep : ∀ v o, read v = some o → o.isSome = keep v) {records : List Json}
    {results : List (Option α)} (h : records.mapM read = some results) :
    List.Forall₂ (fun record x => read record = some (some x)) (records.filter keep)
      (results.filterMap id) := by
  induction records generalizing results with
  | nil =>
    cases h
    exact .nil
  | cons record records ih =>
    rw [List.mapM_cons] at h
    obtain ⟨o, ho, h⟩ := Option.bind_eq_some_iff.mp h
    obtain ⟨rest, hrest, h⟩ := Option.bind_eq_some_iff.mp h
    cases h
    have hrecord := hkeep record o ho
    cases o with
    | none => simpa [← hrecord] using ih hrest
    | some x => simpa [← hrecord] using ⟨ho, ih hrest⟩

end SlurmLink
