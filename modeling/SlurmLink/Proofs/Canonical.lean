import Mathlib.Data.List.Basic
import SlurmLink.Json.Record
import SlurmLink.Proofs.JsonText
import SlurmLink.Proofs.Records

/-!
What a reader finds in a record that was put in canonical form. Writing sorts the members by their
keys, and reading looks each field up by its name, so the order does not matter:

    fields ──ofSet──▶ object ──canonical──▶ sorted object ──Record.read──▶ a slot for each name

A field that is set comes back in canonical form, and one that is not set is absent (`read_ofSet`),
also if the members come in another order (`read_of_setMembers`) or one of them goes by another name
(`read_withAlias`).
-/

namespace SlurmLink.Json

/-! ### Values stay whole -/

theorem wholeMembers_putMember {key : String} {v : Json} (hv : Whole v) :
    ∀ {sorted : List (String × Json)}, WholeMembers sorted → WholeMembers (putMember key v sorted)
  | [], _ => ⟨hv, trivial⟩
  | (k, w) :: rest, h => by
    rw [putMember]
    split
    · exact ⟨hv, h⟩
    · split
      · exact ⟨hv, h.2⟩
      · exact ⟨h.1, wholeMembers_putMember hv h.2⟩

mutual

theorem whole_canonical : ∀ {v : Json}, Whole v → Whole v.canonical
  | .null, _ => trivial
  | .bool _, _ => trivial
  | .int n, h => by
    have hfits : fits n = true := h
    rw [canonical, if_pos hfits]
    exact h
  | .str _, _ => trivial
  | .arr _, h => wholeList_canonical h
  | .obj _, h => wholeMembers_canonical h trivial

theorem wholeList_canonical : ∀ {vs : List Json}, WholeList vs → WholeList (canonicalList vs)
  | [], _ => trivial
  | _ :: _, h => ⟨whole_canonical h.1, wholeList_canonical h.2⟩

theorem wholeMembers_canonical : ∀ {ms sorted : List (String × Json)}, WholeMembers ms →
    WholeMembers sorted → WholeMembers (canonicalMembers ms sorted)
  | [], _, _, hs => hs
  | (_, _) :: _, _, h, hs => by
    rw [canonicalMembers]
    exact wholeMembers_canonical h.2 (wholeMembers_putMember (whole_canonical h.1) hs)

end

/-- An object of set fields is whole if their values are. -/
theorem whole_ofSet : ∀ {fields : List (String × Option Json)},
    (∀ m ∈ fields, ∀ v ∈ m.2, Whole v) → Whole (ofSet fields)
  | [], _ => trivial
  | (_, none) :: fields, h =>
    show Whole (ofSet fields) from whole_ofSet fun m hm => h m (List.mem_cons_of_mem _ hm)
  | (_, some v) :: fields, h =>
    have hrest : Whole (ofSet fields) := whole_ofSet fun m hm => h m (List.mem_cons_of_mem _ hm)
    ⟨h _ List.mem_cons_self v rfl, hrest⟩

theorem wholeList_map_str : ∀ texts : List String, WholeList (texts.map .str)
  | [] => trivial
  | _ :: texts => ⟨trivial, wholeList_map_str texts⟩

/-! ### Slots of sorted members -/

theorem fst_mem_putMember {key k : String} {v : Json} : ∀ {sorted : List (String × Json)},
    k ∈ (putMember key v sorted).map Prod.fst → k = key ∨ k ∈ sorted.map Prod.fst
  | [], h => Or.inl (List.mem_singleton.mp h)
  | (k', w) :: rest, h => by
    rw [putMember] at h
    split at h
    · exact List.mem_cons.mp h
    · split at h
      · next he =>
        subst he
        exact Or.inr h
      · rcases List.mem_cons.mp h with rfl | h
        · exact Or.inr List.mem_cons_self
        · exact (fst_mem_putMember h).imp_right fun h => List.mem_cons_of_mem _ h

/-- Among the members with a name, a new one is the only one of its name, and no other changes. -/
theorem filter_putMember {key : String} {v : Json} (name : String) :
    ∀ {sorted : List (String × Json)}, key ∉ sorted.map Prod.fst →
    (putMember key v sorted).filter (·.1 == name) =
      if key = name then [(key, v)] else sorted.filter (·.1 == name)
  | [], _ => by
    rw [putMember]
    by_cases hk : key = name
    · simp [hk]
    · simp [hk]
  | (k, w) :: rest, h => by
    have hne : key ≠ k := fun he => h (he ▸ List.mem_cons_self)
    have hrest : key ∉ rest.map Prod.fst := fun hm => h (List.mem_cons_of_mem _ hm)
    have hgone : key = name → rest.filter (·.1 == name) = [] := fun he =>
      List.filter_eq_nil_iff.mpr fun m hm hmk =>
        hrest (List.mem_map.mpr ⟨m, hm, (eq_of_beq hmk).trans he.symm⟩)
    rw [putMember, if_neg hne]
    split
    · by_cases hk : key = name
      · subst hk
        simp [hgone rfl, Ne.symm hne]
      · simp [hk]
    · rw [List.filter_cons, filter_putMember name hrest, List.filter_cons]
      by_cases hk : key = name
      · subst hk
        simp [Ne.symm hne]
      · simp [hk]

theorem slotOf_putMember {key : String} {v : Json} {sorted : List (String × Json)}
    (h : key ∉ sorted.map Prod.fst) (name : String) :
    Record.slotOf (putMember key v sorted) name =
      if key = name then some (.given v) else Record.slotOf sorted name := by
  rw [Record.slotOf, filter_putMember name h, Record.slotOf]
  by_cases hk : key = name
  · rw [if_pos hk, if_pos hk]
  · rw [if_neg hk, if_neg hk]

/-- Of members with a key each, the others are still new when the first of them is in its place. -/
theorem new_putMember {k : String} {v w : Json} {ms sorted : List (String × Json)}
    (hms : (((k, v) :: ms).map Prod.fst).Nodup) (hnew : ∀ m ∈ ms, m.1 ∉ sorted.map Prod.fst) :
    ∀ m ∈ ms, m.1 ∉ (putMember k w sorted).map Prod.fst := by
  intro m hm hin
  rw [List.map_cons, List.nodup_cons] at hms
  rcases fst_mem_putMember hin with he | hin
  · exact hms.1 (List.mem_map.mpr ⟨m, hm, he⟩)
  · exact hnew m hm hin

/-- Sorting members, each with a key of its own, leaves every one where its name finds it. -/
theorem slotOf_canonicalMembers (name : String) : ∀ {ms sorted : List (String × Json)},
    (ms.map Prod.fst).Nodup → (∀ m ∈ ms, m.1 ∉ sorted.map Prod.fst) →
    Record.slotOf (canonicalMembers ms sorted) name =
      match ms.lookup name with
      | some v => some (.given v.canonical)
      | none => Record.slotOf sorted name
  | [], _, _, _ => rfl
  | (k, v) :: ms, sorted, hms, hnew => by
    have hk : k ∉ sorted.map Prod.fst := hnew _ List.mem_cons_self
    have hlater : ∀ m ∈ ms, m.1 ∉ (putMember k v.canonical sorted).map Prod.fst :=
      new_putMember hms fun m hm => hnew m (List.mem_cons_of_mem _ hm)
    rw [List.map_cons, List.nodup_cons] at hms
    rw [canonicalMembers, slotOf_canonicalMembers name hms.2 hlater, slotOf_putMember hk,
      List.lookup_cons]
    by_cases he : k = name
    · subst he
      have habsent : ms.lookup k = none := by
        rw [List.lookup_eq_none_iff]
        exact fun m hm => bne_iff_ne.mpr fun he => hms.1 (List.mem_map.mpr ⟨m, hm, he.symm⟩)
      simp [habsent]
    · rw [if_neg he, beq_eq_false_iff_ne.mpr (Ne.symm he)]

/-- Sorting puts a new member among the others and changes none of them. -/
theorem perm_putMember {key : String} {v : Json} : ∀ {sorted : List (String × Json)},
    key ∉ sorted.map Prod.fst → (putMember key v sorted).Perm ((key, v) :: sorted)
  | [], _ => List.Perm.refl _
  | (k, w) :: rest, h => by
    have hne : key ≠ k := fun he => h (he ▸ List.mem_cons_self)
    have hrest : key ∉ rest.map Prod.fst := fun hm => h (List.mem_cons_of_mem _ hm)
    rw [putMember, if_neg hne]
    split
    · exact List.Perm.refl _
    · exact ((perm_putMember hrest).cons (k, w)).trans (List.Perm.swap ..)

/-- Sorting members, each with a key of its own, loses and repeats none of them. -/
theorem perm_canonicalMembers : ∀ {ms sorted : List (String × Json)}, (ms.map Prod.fst).Nodup →
    (∀ m ∈ ms, m.1 ∉ sorted.map Prod.fst) →
    (canonicalMembers ms sorted).Perm ((ms.map fun m => (m.1, m.2.canonical)) ++ sorted)
  | [], _, _, _ => List.Perm.refl _
  | (k, v) :: ms, sorted, hms, hnew => by
    have hk : k ∉ sorted.map Prod.fst := hnew _ List.mem_cons_self
    have hlater : ∀ m ∈ ms, m.1 ∉ (putMember k v.canonical sorted).map Prod.fst :=
      new_putMember hms fun m hm => hnew m (List.mem_cons_of_mem _ hm)
    have hms' : (ms.map Prod.fst).Nodup := (List.nodup_cons.mp hms).2
    rw [canonicalMembers]
    exact (perm_canonicalMembers hms' hlater).trans
      (((perm_putMember hk).append_left _).trans List.perm_middle)

/-! ### Records of set fields -/

/-- What a record of set fields says about a name. -/
def slotIn (fields : List (String × Option Json)) (name : String) : Slot :=
  match (fields.lookup name).join with
  | some v => .given v.canonical
  | none => .absent

/-- The record that is read from set fields. -/
def Record.ofFields (names : List String) (fields : List (String × Option Json)) : Record :=
  ⟨names.map fun name => (name, slotIn fields name)⟩

theorem mem_fst_of_isSet {fields : List (String × Option Json)} {m : String × Json}
    (h : m ∈ fields.filterMap fun m => m.2.map fun v => (m.1, v)) : m.1 ∈ fields.map Prod.fst := by
  obtain ⟨⟨k, o⟩, hm, ho⟩ := List.mem_filterMap.mp h
  obtain ⟨v, -, rfl⟩ := Option.map_eq_some_iff.mp ho
  exact List.mem_map.mpr ⟨_, hm, rfl⟩

theorem nodup_set : ∀ {fields : List (String × Option Json)}, (fields.map Prod.fst).Nodup →
    ((fields.filterMap fun m => m.2.map fun v => (m.1, v)).map Prod.fst).Nodup
  | [], _ => List.nodup_nil
  | (_, none) :: fields, h =>
    show ((fields.filterMap fun m => m.2.map fun v => (m.1, v)).map Prod.fst).Nodup from
      nodup_set (List.nodup_cons.mp h).2
  | (_, some _) :: fields, h => by
    rw [List.map_cons, List.nodup_cons] at h
    refine List.nodup_cons.mpr ⟨fun hin => ?_, nodup_set h.2⟩
    obtain ⟨m, hm, he⟩ := List.mem_map.mp hin
    exact h.1 (he ▸ mem_fst_of_isSet hm)

theorem lookup_set (name : String) : ∀ {fields : List (String × Option Json)},
    (fields.map Prod.fst).Nodup →
    (fields.filterMap fun m => m.2.map fun v => (m.1, v)).lookup name = (fields.lookup name).join
  | [], _ => rfl
  | (k, o) :: fields, h => by
    rw [List.map_cons, List.nodup_cons] at h
    have ih := lookup_set name h.2
    rw [List.lookup_cons]
    by_cases he : name = k
    · subst he
      have habsent : fields.lookup name = none := by
        rw [List.lookup_eq_none_iff]
        exact fun m hm => bne_iff_ne.mpr fun he => h.1 (List.mem_map.mpr ⟨m, hm, he.symm⟩)
      rw [habsent] at ih
      cases o with
      | none => simpa using ih
      | some v => simp
    · have hbeq : (name == k) = false := beq_eq_false_iff_ne.mpr he
      cases o with
      | none => simpa [hbeq] using ih
      | some v => simpa [List.lookup_cons, hbeq] using ih

/-- The fields that are set, in canonical form. -/
def setMembers (fields : List (String × Option Json)) : List (String × Json) :=
  fields.filterMap fun f => f.2.map fun v => (f.1, v.canonical)

/-- The members of the canonical form are the fields that are set, in some order. -/
theorem exists_canonical_ofSet {fields : List (String × Option Json)}
    (h : (fields.map Prod.fst).Nodup) : ∃ members, (ofSet fields).canonical = .obj members ∧
      members.Perm (setMembers fields) := by
  have hnew : ∀ m ∈ fields.filterMap fun f => f.2.map fun v => (f.1, v),
      m.1 ∉ ([] : List (String × Json)).map Prod.fst := fun _ _ => List.not_mem_nil
  refine ⟨_, rfl, (perm_canonicalMembers (nodup_set h) hnew).trans ?_⟩
  rw [List.append_nil, List.map_filterMap]
  refine List.Perm.of_eq (List.filterMap_congr fun f _ => ?_)
  rw [Option.map_map]
  rfl

theorem slotOf_ofSet {fields : List (String × Option Json)} (h : (fields.map Prod.fst).Nodup)
    (name : String) : Record.slotOf (canonicalMembers
      (fields.filterMap fun m => m.2.map fun v => (m.1, v)) []) name = some (slotIn fields name) := by
  rw [slotOf_canonicalMembers name (nodup_set h) (fun m _ => List.not_mem_nil), lookup_set name h,
    slotIn]
  cases (fields.lookup name).join <;> rfl

/-- The canonical form of an object of set fields is read as the record of these fields. -/
theorem read_ofSet {fields : List (String × Option Json)} (h : (fields.map Prod.fst).Nodup)
    (names : List String) :
    Record.read names (ofSet fields).canonical = some (Record.ofFields names fields) := by
  rw [ofSet, canonical, Record.read]
  simp only [slotOf_ofSet h, Option.map_some]
  rw [show (fun name => some (name, slotIn fields name)) =
    fun name => (pure (name, slotIn fields name) : Option _) from rfl, List.mapM_pure]
  rfl

/-- Members that are the set fields in some order are read as the record of these fields. -/
theorem read_of_setMembers {fields : List (String × Option Json)} {members : List (String × Json)}
    (hnodup : (fields.map Prod.fst).Nodup) (h : members.Perm (setMembers fields))
    (names : List String) :
    Record.read names (.obj members) = some (Record.ofFields names fields) := by
  obtain ⟨sorted, hsorted, hperm⟩ := exists_canonical_ofSet hnodup
  rw [read_of_perm (h.trans hperm.symm), ← hsorted, read_ofSet hnodup]

theorem setMembers_renamed (other name : String) (fields : List (String × Option Json)) :
    setMembers (fields.map (renamed other name)) = (setMembers fields).map (renamed other name) := by
  rw [setMembers, setMembers]
  induction fields with
  | nil => rfl
  | cons f fields ih =>
    obtain ⟨key, o⟩ := f
    cases o with
    | none => by_cases hk : key = other <;> simpa [renamed, hk] using ih
    | some v => by_cases hk : key = other <;> simpa [renamed, hk] using ih

/-- The same if members that go by another name are renamed first. -/
theorem read_withAlias {fields : List (String × Option Json)} {members : List (String × Json)}
    {other name : String} (hnodup : ((fields.map (renamed other name)).map Prod.fst).Nodup)
    (h : members.Perm (setMembers fields)) (names : List String) :
    Record.read names (Record.withAlias other name (.obj members)) =
      some (Record.ofFields names (fields.map (renamed other name))) := by
  refine read_of_setMembers hnodup ?_ names
  rw [setMembers_renamed]
  exact h.map _

/-- The names of which it holds that they are given. -/
def namesOf (given : List (String × Bool)) : List String := (given.filter Prod.snd).map Prod.fst

theorem fst_setMembers (fields : List (String × Option Json)) :
    (setMembers fields).map Prod.fst = namesOf (fields.map fun f => (f.1, f.2.isSome)) := by
  rw [setMembers, namesOf]
  induction fields with
  | nil => rfl
  | cons f fields ih =>
    obtain ⟨key, o⟩ := f
    cases o <;> simpa using ih

/-- There is one member for the name of each field that is set. -/
theorem perm_namesOf {fields : List (String × Option Json)} {members : List (String × Json)}
    {given : List (String × Bool)} (h : members.Perm (setMembers fields))
    (hgiven : (fields.map fun f => (f.1, f.2.isSome)) = given) :
    (members.map Prod.fst).Perm (namesOf given) := by
  rw [← hgiven, ← fst_setMembers]
  exact h.map Prod.fst

theorem member?_of_slotOf {members : List (String × Json)} {name : String} {v : Json}
    (h : Record.slotOf members name = some (.given v)) : (obj members).member? name = some v := by
  rw [member?, ← List.getLast?_filter]
  rw [Record.slotOf] at h
  split at h
  · cases h
  · next m hone =>
    cases h
    rw [hone]
    rfl
  · cases h

/-- A field that is set is a member of the canonical form. -/
theorem member?_ofSet {fields : List (String × Option Json)} {name : String} {v : Json}
    (h : (fields.map Prod.fst).Nodup) (hset : (fields.lookup name).join = some v) :
    (ofSet fields).canonical.member? name = some v.canonical :=
  member?_of_slotOf (by rw [slotOf_ofSet h, slotIn, hset])

theorem slot_ofFields {names : List String} {name : String} (h : name ∈ names)
    (fields : List (String × Option Json)) :
    (Record.ofFields names fields).slot name = slotIn fields name := by
  simp only [Record.slot, Record.ofFields, List.lookup_graph _ h, Option.getD_some]

section Fields

variable {names : List String} {fields : List (String × Option Json)} {name : String}
  {α β : Type} {o : Option α} {write : α → Json} {read : Json → Option β} {back : α → β}

/-- A setting that is written where it is set is read where it is set. -/
theorem setting_ofFields (hn : name ∈ names) (hf : (fields.lookup name).join = o.map write)
    (hr : ∀ a ∈ o, (write a).canonical ≠ .null ∧ read (write a).canonical = some (back a)) :
    (Record.ofFields names fields).setting name read = some (o.map back) := by
  simp only [Record.setting, slot_ofFields hn, slotIn, hf]
  cases o with
  | none => rfl
  | some a =>
    obtain ⟨hnull, hread⟩ := hr a rfl
    simp only [Option.map_some, hread]

theorem setting_of_eq {read : Json → Option α} (hn : name ∈ names)
    (hf : (fields.lookup name).join = o.map write)
    (hr : ∀ a ∈ o, (write a).canonical ≠ .null ∧ read (write a).canonical = some a) :
    (Record.ofFields names fields).setting name read = some o := by
  have h : (Record.ofFields names fields).setting name read = some (o.map id) :=
    setting_ofFields hn hf hr
  rwa [Option.map_id_fun] at h

theorem setting_of_none (hn : name ∈ names) (hf : (fields.lookup name).join = none) :
    (Record.ofFields names fields).setting name read = some none := by
  simp only [Record.setting, slot_ofFields hn, slotIn, hf]

theorem required_of_some {b : β} {v : Json} (hn : name ∈ names)
    (hf : (fields.lookup name).join = some v) (hr : read v.canonical = some b) :
    (Record.ofFields names fields).required name read = some b := by
  simp only [Record.required, slot_ofFields hn, slotIn, hf, hr]

theorem withDefault_of_some {default b : β} {v : Json} (hn : name ∈ names)
    (hf : (fields.lookup name).join = some v) (hr : read v.canonical = some b) :
    (Record.ofFields names fields).withDefault name default read = some b := by
  simp only [Record.withDefault, slot_ofFields hn, slotIn, hf, hr]

theorem withDefault_of_none {default : β} (hn : name ∈ names)
    (hf : (fields.lookup name).join = none) :
    (Record.ofFields names fields).withDefault name default read = some default := by
  simp only [Record.withDefault, slot_ofFields hn, slotIn, hf]

/-- A field that is written where it is set has its default everywhere else. -/
theorem withDefault_ofFields {default : β} (hn : name ∈ names)
    (hf : (fields.lookup name).join = o.map write)
    (hr : ∀ a ∈ o, read (write a).canonical = some (back a)) :
    (Record.ofFields names fields).withDefault name default read =
      some ((o.map back).getD default) := by
  cases o with
  | none => exact withDefault_of_none hn hf
  | some a => exact withDefault_of_some hn hf (hr a rfl)

end Fields

end SlurmLink.Json
