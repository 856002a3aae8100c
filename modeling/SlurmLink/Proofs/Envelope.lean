import SlurmLink.Proofs.Submission
import SlurmLink.Proofs.Update

/-!
Numbers on their way to the server. A number is sent in an envelope that says that it is set and finite,
and whoever lists resources reads such envelopes, or bare numbers, as integers of 64 bits with a sign:

    n ──envelope──▶ {"infinite":false,"number":n,"set":true} ──read──▶ n, up to the greatest signed word

All numbers of a body are in envelopes at their places, each of them once (`Command.perm_envelopes`), and
an envelope is read just as the bare number is. All of them come back as they were sent, with one
exception: the memory of a job has 64 bits without a sign, and what is beyond the greatest signed word
cannot be read (`Command.envelopes_kept_iff`).
-/

namespace SlurmLink

namespace Json

/-- The envelope of a number that is set and finite, as it is sent. -/
def envelope (n : Int) : Json :=
  .obj [("infinite", .bool false), ("number", .int n), ("set", .bool true)]

/-- An object with the members of an envelope. -/
def isEnvelope (members : List (String × Json)) : Bool :=
  ["set", "infinite", "number"].all fun key => members.any fun m => m.1 == key

mutual

/-- The envelopes in a value, each with the keys that lead to it. -/
def envelopes : Json → List (List String × Json)
  | .arr items => envelopesList items
  | .obj members =>
    if isEnvelope members then [([], .obj members)] else envelopesMembers members
  | _ => []

def envelopesList : List Json → List (List String × Json)
  | [] => []
  | v :: vs => envelopes v ++ envelopesList vs

def envelopesMembers : List (String × Json) → List (List String × Json)
  | [] => []
  | (key, v) :: ms => (envelopes v).map (fun e => (key :: e.1, e.2)) ++ envelopesMembers ms

end

/-- An envelope is read as the number in it, at every level, and as the bare number is. -/
def Keeps (e : Json) (n : Int) : Prop :=
  ∀ level < maxDepth, Quantity.read level e = some ⟨true, false, n⟩ ∧
    Quantity.read level (.int n) = Quantity.read level e

/-! ### Reading envelopes -/

theorem readInt64_int (n : Int) : readInt64 (.int n) = some n ↔ InWord n := by
  simp [readInt64, readInt, InWord]

theorem read_bare {level : Nat} (hl : level < maxDepth) (n : Int) :
    Quantity.read level (.int n) = (readInt64 (.int n)).map .ofInt := by
  have hkept : isKept level (.int n) = true := decide_eq_true (Nat.le_of_lt hl)
  rw [Quantity.read, hkept]
  rfl

/-- An envelope is read as the bare number is, whatever the number. -/
theorem read_envelope {level : Nat} (hl : level < maxDepth) (n : Int) :
    Quantity.read level (envelope n) = (readInt64 (.int n)).map .ofInt := by
  have hkept : isKept level (envelope n) = true := decide_eq_true hl
  rw [envelope] at hkept ⊢
  rw [Quantity.read, hkept]
  cases h : readInt64 (.int n) <;>
    simp [Record.read, Record.slotOf, Record.withDefault, Record.slot, List.lookup_cons, readBool, h,
      Quantity.ofInt]

theorem read_envelope_eq_none {level : Nat} (hl : level < maxDepth) {n : Int} (h : ¬ InWord n) :
    Quantity.read level (envelope n) = none := by
  rw [read_envelope hl, Option.map_eq_none_iff]
  exact if_neg h

theorem keeps_envelope_iff {n : Int} : (envelope n).Keeps n ↔ InWord n := by
  constructor
  · intro h
    obtain ⟨hread, -⟩ := h 0 (by decide)
    rw [read_envelope (by decide)] at hread
    obtain ⟨k, hk, hkn⟩ := Option.map_eq_some_iff.mp hread
    simp only [Quantity.ofInt, Quantity.mk.injEq, true_and] at hkn
    exact (readInt64_int n).mp (hkn ▸ hk)
  · intro h level hl
    rw [read_envelope hl, read_bare hl, (readInt64_int n).mpr h]
    exact ⟨rfl, rfl⟩

/-! ### Finding envelopes -/

/-- The envelopes in the value of a member. -/
def envelopesUnder (m : String × Json) : List (List String × Json) :=
  (envelopes m.2).map fun e => (m.1 :: e.1, e.2)

theorem envelopesMembers_eq_flatMap (ms : List (String × Json)) :
    envelopesMembers ms = ms.flatMap envelopesUnder := by
  induction ms with
  | nil => rfl
  | cons m ms ih =>
    rw [envelopesMembers, ih, List.flatMap_cons]
    rfl

theorem envelopesList_map_str (texts : List String) : envelopesList (texts.map .str) = [] := by
  induction texts with
  | nil => rfl
  | cons s texts ih =>
    rw [List.map_cons, envelopesList, ih]
    rfl

/-- The envelopes in an object without numbers of its own are those in its members. -/
theorem envelopes_obj {members : List (String × Json)} (h : "number" ∉ members.map Prod.fst) :
    envelopes (.obj members) = members.flatMap envelopesUnder := by
  have hno : isEnvelope members = false := by
    rw [Bool.eq_false_iff]
    intro hall
    obtain ⟨m, hm, hkey⟩ := List.any_eq_true.mp (List.all_eq_true.mp hall "number" (by simp))
    exact h (List.mem_map.mpr ⟨m, hm, eq_of_beq hkey⟩)
  rw [envelopes, hno, if_neg Bool.false_ne_true, envelopesMembers_eq_flatMap]

theorem envelopes_single {key : String} (h : key ≠ "number") (v : Json) :
    (Json.obj [(key, v)]).envelopes = v.envelopes.map fun e => (key :: e.1, e.2) := by
  rw [envelopes_obj (by simpa using h.symm), List.flatMap_cons, List.flatMap_nil, List.append_nil,
    envelopesUnder]

/-- The envelopes in a message with one record are those in the record. -/
theorem envelopes_record {key : String} (h : key ≠ "number") (v : Json) :
    (Json.obj [(key, .arr [v])]).canonical.envelopes =
      v.canonical.envelopes.map fun e => (key :: e.1, e.2) := by
  rw [canonical_record, envelopes_single h, envelopes, envelopesList, envelopesList, List.append_nil]

/-- The envelopes in the value of a field, if it is set. -/
def envelopesOf (f : String × Option Json) : List (List String × Json) :=
  f.2.elim [] fun v => envelopesUnder (f.1, v.canonical)

theorem flatMap_setMembers (fields : List (String × Option Json)) :
    (setMembers fields).flatMap envelopesUnder = fields.flatMap envelopesOf := by
  rw [setMembers]
  induction fields with
  | nil => rfl
  | cons f fields ih =>
    obtain ⟨key, o⟩ := f
    cases o <;> simpa [envelopesOf] using ih

/-- The envelopes in the canonical form of set fields are those in the values of the fields. -/
theorem perm_envelopes_ofSet {fields : List (String × Option Json)}
    (h : (fields.map Prod.fst).Nodup) (hnumber : "number" ∉ fields.map Prod.fst) :
    (ofSet fields).canonical.envelopes.Perm (fields.flatMap envelopesOf) := by
  obtain ⟨members, hmembers, hperm⟩ := exists_canonical_ofSet h
  have hno : "number" ∉ members.map Prod.fst := by
    intro hin
    obtain ⟨m, hm, hkey⟩ := List.mem_map.mp ((hperm.map Prod.fst).mem_iff.mp hin)
    obtain ⟨f, hf, hfm⟩ := List.mem_filterMap.mp hm
    obtain ⟨v, -, rfl⟩ := Option.map_eq_some_iff.mp hfm
    exact hnumber (List.mem_map.mpr ⟨f, hf, hkey⟩)
  rw [hmembers, envelopes_obj hno, ← flatMap_setMembers]
  exact hperm.flatMap_right _

/-! ### Fields with and without numbers -/

/-- A value without envelopes. -/
def Bare (v : Json) : Prop := v.canonical.envelopes = []

theorem bare_str (s : String) : Bare (.str s) := rfl

theorem bare_bool (b : Bool) : Bare (.bool b) := rfl

theorem bare_ofTexts (texts : List String) : Bare (.ofTexts texts) := by
  rw [Bare, canonical_ofTexts, ofTexts, envelopes, envelopesList_map_str]

/-- A field has no envelopes if its value has none. -/
theorem envelopesOf_bare {key : String} {o : Option Json} (h : ∀ v ∈ o, v.Bare) :
    envelopesOf (key, o) = [] := by
  cases o with
  | none => rfl
  | some v =>
    have hv : v.canonical.envelopes = [] := h v rfl
    simp only [envelopesOf, Option.elim_some, envelopesUnder, hv, List.map_nil]

theorem envelopesOf_map {α : Type} {key : String} {o : Option α} {write : α → Json}
    (h : ∀ a, (write a).Bare) : envelopesOf (key, o.map write) = [] := by
  refine envelopesOf_bare fun v hv => ?_
  obtain ⟨a, -, rfl⟩ := Option.map_eq_some_iff.mp hv
  exact h a

theorem envelopesOf_someTexts {key : String} {texts : List String} :
    envelopesOf (key, Reservation.someTexts texts) = [] := by
  cases texts with
  | nil => rfl
  | cons s texts => exact envelopesOf_bare fun v hv => Option.some.inj hv ▸ bare_ofTexts _

theorem bare_ofSet {fields : List (String × Option Json)} (h : (fields.map Prod.fst).Nodup)
    (hnumber : "number" ∉ fields.map Prod.fst) (hfields : ∀ f ∈ fields, envelopesOf f = []) :
    Bare (ofSet fields) := by
  have hperm := perm_envelopes_ofSet h hnumber
  rw [List.flatMap_eq_nil_iff.mpr hfields] at hperm
  exact hperm.eq_nil

theorem bare_record {key : String} {v : Json} (h : key ≠ "number") (hv : Bare v) :
    Bare (.obj [(key, .arr [v])]) := by
  rw [Bare, envelopes_record h, hv, List.map_nil]

/-- A field that is a number has one envelope if it is set. -/
theorem envelopesOf_quantity {α : Type} {key : String} {o : Option α} {f : α → Int}
    (h : ∀ a ∈ o, fits (f a) = true) : envelopesOf (key, o.map fun a => (Quantity.ofInt (f a)).toJson) =
      (o.map f).toList.map fun n => ([key], envelope n) := by
  cases o with
  | none => rfl
  | some a =>
    have hcanonical : (Quantity.ofInt (f a)).toJson.canonical = envelope (f a) :=
      canonical_of_fits (h a rfl)
    simp only [envelopesOf, Option.map_some, Option.elim_some, envelopesUnder, hcanonical]
    rfl

theorem envelopesOf_count {key : String} {o : Option Nat} (h : ∀ n ∈ o, n ≤ maxCount) :
    envelopesOf (key, o.map .ofQuantity) = (o.map Int.ofNat).toList.map fun n => ([key], envelope n) :=
  envelopesOf_quantity fun n hn => fits_of_le (le_greatestWord (h n hn))

end Json

/-! ### The numbers of a command -/

/-- The numbers among fields, each with the key of its field. -/
def numbersOf (fields : List (String × Option Int)) : List (List String × Int) :=
  fields.flatMap fun f => f.2.toList.map fun n => ([f.1], n)

/-- The numbers in the value of a member, with its key in front. -/
def numbersUnder (key : String) (numbers : List (List String × Int)) : List (List String × Int) :=
  numbers.map fun s => (key :: s.1, s.2)

/-- Each number in its envelope. -/
def enveloped (numbers : List (List String × Int)) : List (List String × Json) :=
  numbers.map fun s => (s.1, Json.envelope s.2)

theorem mem_numbersOf {fields : List (String × Option Int)} {s : List String × Int} :
    s ∈ numbersOf fields ↔ ∃ f ∈ fields, ∃ n ∈ f.2, s = ([f.1], n) := by
  simp [numbersOf, eq_comm]

theorem inWord_map_count {o : Option Nat} (h : ∀ n ∈ o, n ≤ maxCount) :
    ∀ k ∈ o.map Int.ofNat, InWord k := by
  intro k hk
  obtain ⟨n, hn, rfl⟩ := Option.map_eq_some_iff.mp hk
  exact inWord_count (h n hn)

theorem enveloped_numbersOf (fields : List (String × Option Int)) : enveloped (numbersOf fields) =
    fields.flatMap fun f => f.2.toList.map fun n => ([f.1], Json.envelope n) := by
  rw [enveloped, numbersOf, List.map_flatMap]
  simp only [List.map_map]
  rfl

theorem enveloped_numbersUnder (key : String) (numbers : List (List String × Int)) :
    enveloped (numbersUnder key numbers) = (enveloped numbers).map fun e => (key :: e.1, e.2) := by
  rw [enveloped, numbersUnder, enveloped, List.map_map, List.map_map]
  rfl

namespace JobSubmission

/-- The numbers of a submission, with a name for its switch count. -/
def numbers (switches : String) (j : JobSubmission) : List (List String × Int) :=
  numbersOf [("time_limit", j.timeLimitMinutes.map Int.ofNat), ("tasks", j.tasks.map Int.ofNat),
    ("cpus_per_task", j.cpusPerTask.map Int.ofNat), ("memory_per_node", j.memoryPerNodeMb.map Int.ofNat),
    (switches, j.requiredSwitches.map Int.ofNat)]

theorem perm_envelopes {j : JobSubmission} (revision : Revision) (hw : j.InWidth) :
    (j.description revision).canonical.envelopes.Perm (enveloped (j.numbers revision.switchesField)) := by
  have hnumber : "number" ∉ (j.fields revision.switchesField).map Prod.fst := by
    cases revision <;> simp [fields, Revision.switchesField]
  refine (Json.perm_envelopes_ofSet (nodup_fields revision j) hnumber).trans (List.Perm.of_eq ?_)
  rw [numbers, enveloped_numbersOf]
  have hname : Json.envelopesOf ("name", some (.str j.name)) = [] := rfl
  have hscript : Json.envelopesOf ("script", some (.str j.script)) = [] := rfl
  have hdirectory : Json.envelopesOf ("current_working_directory",
      some (.str (j.workingDirectory.getD "/tmp"))) = [] := rfl
  have henvironment : Json.envelopesOf ("environment", some (.ofTexts j.environmentTexts)) = [] :=
    Json.envelopesOf_map (o := some j.environmentTexts) Json.bare_ofTexts
  have hmemory : Json.envelopesOf ("memory_per_node", j.memoryPerNodeMb.map .ofQuantity) =
      (j.memoryPerNodeMb.map Int.ofNat).toList.map fun n => (["memory_per_node"], Json.envelope n) :=
    Json.envelopesOf_quantity fun n hn => Json.fits_of_le (hw.memory n hn)
  simp only [fields, List.flatMap_cons, List.flatMap_nil, hname, hscript, hdirectory, henvironment,
    hmemory, Json.envelopesOf_map Json.bare_str, Json.envelopesOf_map fun n : Nat => Json.bare_str (toString n),
    Json.envelopesOf_map fun b : Bool => Json.bare_ofTexts [if b then "true" else "false"],
    Json.envelopesOf_count hw.timeLimit, Json.envelopesOf_count hw.tasks,
    Json.envelopesOf_count hw.cpusPerTask, Json.envelopesOf_count hw.switches, List.nil_append]

/-- Every number of a submission but its memory has 64 bits with a sign. -/
theorem inWord_or_memory {switches : String} {j : JobSubmission} (hw : j.InWidth)
    {s : List String × Int} (h : s ∈ j.numbers switches) :
    InWord s.2 ∨ s.1 = ["memory_per_node"] ∧ ∃ m ∈ j.memoryPerNodeMb, s.2 = (m : Int) := by
  obtain ⟨f, hf, n, hn, rfl⟩ := mem_numbersOf.mp h
  simp only [List.mem_cons, List.not_mem_nil, or_false] at hf
  rcases hf with rfl | rfl | rfl | rfl | rfl
  · exact Or.inl (inWord_map_count hw.timeLimit n hn)
  · exact Or.inl (inWord_map_count hw.tasks n hn)
  · exact Or.inl (inWord_map_count hw.cpusPerTask n hn)
  · obtain ⟨m, hm, rfl⟩ := Option.map_eq_some_iff.mp hn
    exact Or.inr ⟨rfl, m, hm, rfl⟩
  · exact Or.inl (inWord_map_count hw.switches n hn)

end JobSubmission

namespace JobUpdate

def numbers (u : JobUpdate) : List (List String × Int) :=
  numbersOf [("time_limit", u.timeLimitMinutes.map Int.ofNat), ("priority", u.priority.map Int.ofNat)]

theorem perm_envelopes {u : JobUpdate} (hw : u.InWidth) :
    u.description.canonical.envelopes.Perm (enveloped u.numbers) := by
  refine (Json.perm_envelopes_ofSet u.nodup_fields (by simp [fields])).trans (List.Perm.of_eq ?_)
  rw [numbers, enveloped_numbersOf]
  simp only [fields, List.flatMap_cons, List.flatMap_nil, Json.envelopesOf_map Json.bare_str,
    Json.envelopesOf_map Json.bare_bool, Json.envelopesOf_count hw.timeLimit,
    Json.envelopesOf_count hw.priority, List.nil_append]

theorem inWord_numbers {u : JobUpdate} (hw : u.InWidth) {s : List String × Int} (h : s ∈ u.numbers) :
    InWord s.2 := by
  obtain ⟨f, hf, n, hn, rfl⟩ := mem_numbersOf.mp h
  simp only [List.mem_cons, List.not_mem_nil, or_false] at hf
  rcases hf with rfl | rfl
  · exact inWord_map_count hw.timeLimit n hn
  · exact inWord_map_count hw.priority n hn

end JobUpdate

namespace Qos

/-- The numbers of a quality of service; a limit is nested in its kinds. -/
def numbers (q : Qos) : List (List String × Int) :=
  numbersOf [("priority", q.priority.map Int.ofNat)] ++
    (q.maxWallMinutesPerJob.map Int.ofNat).toList.map fun n =>
      (["limits", "max", "wall_clock", "per", "job"], n)

theorem envelopesOf_limits {o : Option Nat} (h : ∀ n ∈ o, n ≤ maxCount) :
    Json.envelopesOf ("limits", o.map limits) = (o.map Int.ofNat).toList.map fun n =>
      (["limits", "max", "wall_clock", "per", "job"], Json.envelope n) := by
  cases o with
  | none => rfl
  | some n =>
    have hcanonical : (Json.ofQuantity n).canonical = Json.envelope n :=
      canonical_of_fits (Json.fits_of_le (Json.le_greatestWord (h n rfl)))
    simp only [Json.envelopesOf, Option.map_some, Option.elim_some, Json.envelopesUnder, canonical_limits,
      hcanonical]
    rfl

theorem perm_envelopes {q : Qos} (hw : q.InWidth) :
    q.document.canonical.envelopes.Perm (enveloped (numbersUnder "qos" q.numbers)) := by
  have hfields : (Json.ofSet q.fields).canonical.envelopes.Perm (enveloped q.numbers) := by
    refine (Json.perm_envelopes_ofSet (by simp [fields]) (by simp [fields])).trans (List.Perm.of_eq ?_)
    have hname : Json.envelopesOf ("name", some (.str q.name)) = [] := rfl
    rw [numbers, enveloped, List.map_append, ← enveloped, enveloped_numbersOf]
    simp only [fields, List.flatMap_cons, List.flatMap_nil, hname, Json.envelopesOf_map Json.bare_str,
      Json.envelopesOf_someTexts, Json.envelopesOf_count hw.1, envelopesOf_limits hw.2, List.nil_append,
      List.append_nil, List.map_map]
    rfl
  rw [enveloped_numbersUnder]
  exact (List.Perm.of_eq (Json.envelopes_record (by decide) _)).trans (hfields.map _)

theorem inWord_numbers {q : Qos} (hw : q.InWidth) {s : List String × Int} (h : s ∈ q.numbers) :
    InWord s.2 := by
  rcases List.mem_append.mp h with h | h
  · obtain ⟨f, hf, n, hn, rfl⟩ := mem_numbersOf.mp h
    obtain rfl := List.mem_singleton.mp hf
    exact inWord_map_count hw.1 n hn
  · obtain ⟨n, hn, rfl⟩ := List.mem_map.mp h
    exact inWord_map_count hw.2 n (Option.mem_toList.mp hn)

end Qos

namespace Reservation

/-- The numbers of a reservation; times are sent in seconds. -/
def numbers (r : Reservation) : List (List String × Int) :=
  numbersOf [("start_time", r.startTime.map fun t => t.seconds),
    ("end_time", r.endTime.map fun t => t.seconds), ("node_count", r.nodeCount.map Int.ofNat)]

theorem perm_envelopes {r : Reservation} (hw : r.InWidth) :
    r.description.canonical.envelopes.Perm (enveloped r.numbers) := by
  have hnodup : (r.fields.map Prod.fst).Nodup := by simp [fields]
  refine (Json.perm_envelopes_ofSet hnodup (by simp [fields])).trans (List.Perm.of_eq ?_)
  have hname : Json.envelopesOf ("name", some (.str r.name)) = [] := rfl
  have htime {key : String} {o : Option Timestamp} (ho : ∀ t ∈ o, Timestamp.inRange t.seconds = true) :
      Json.envelopesOf (key, o.map fun t => (Quantity.ofTime t).toJson) =
        (o.map fun t => t.seconds).toList.map fun n => ([key], Json.envelope n) :=
    Json.envelopesOf_quantity fun t ht => (inWord_time (ho t ht)).fits
  rw [numbers, enveloped_numbersOf]
  simp only [fields, List.flatMap_cons, List.flatMap_nil, hname, Json.envelopesOf_map Json.bare_str,
    Json.envelopesOf_someTexts, Json.envelopesOf_count hw.1, htime fun t ht => hw.2 t (Or.inl ht),
    htime fun t ht => hw.2 t (Or.inr ht), List.nil_append, List.append_nil]

theorem perm_envelopes_document {r : Reservation} (hw : r.InWidth) :
    r.document.canonical.envelopes.Perm (enveloped (numbersUnder "reservations" r.numbers)) := by
  rw [enveloped_numbersUnder]
  exact (List.Perm.of_eq (Json.envelopes_record (by decide) _)).trans ((perm_envelopes hw).map _)

theorem inWord_numbers {r : Reservation} (hw : r.InWidth) {s : List String × Int} (h : s ∈ r.numbers) :
    InWord s.2 := by
  obtain ⟨f, hf, n, hn, rfl⟩ := mem_numbersOf.mp h
  simp only [List.mem_cons, List.not_mem_nil, or_false] at hf
  rcases hf with rfl | rfl | rfl
  · obtain ⟨t, ht, rfl⟩ := Option.map_eq_some_iff.mp hn
    exact inWord_time (hw.2 t (Or.inl ht))
  · obtain ⟨t, ht, rfl⟩ := Option.map_eq_some_iff.mp hn
    exact inWord_time (hw.2 t (Or.inr ht))
  · exact inWord_map_count hw.1 n hn

end Reservation

/-! ### Bodies without numbers -/

theorem NodeUpdate.bare_description (u : NodeUpdate) : u.description.Bare := by
  show (Json.ofSet u.fields).Bare
  refine Json.bare_ofSet u.nodup_fields (by simp [fields]) fun f hf => ?_
  simp only [fields, List.mem_cons, List.not_mem_nil, or_false] at hf
  rcases hf with rfl | rfl | rfl | rfl
  · exact Json.envelopesOf_map fun s => Json.bare_ofTexts [Text.upper s]
  · exact Json.envelopesOf_map Json.bare_str
  · exact Json.envelopesOf_map Json.bare_ofTexts
  · exact Json.envelopesOf_map Json.bare_str

theorem Account.bare_document (a : Account) : a.document.Bare := by
  refine Json.bare_record (v := Json.ofSet a.fields) (by decide) ?_
  refine Json.bare_ofSet (by simp [fields]) (by simp [fields]) fun f hf => ?_
  simp only [fields, List.mem_cons, List.not_mem_nil, or_false] at hf
  rcases hf with rfl | rfl | rfl <;> rfl

theorem User.bare_document (u : User) : u.document.Bare := by
  refine Json.bare_record (v := Json.ofSet u.fields) (by decide) ?_
  refine Json.bare_ofSet (by simp [fields]) (by simp [fields]) fun f hf => ?_
  simp only [fields, List.mem_cons, List.not_mem_nil, or_false] at hf
  rcases hf with rfl | rfl | rfl
  · rfl
  · refine Json.envelopesOf_bare fun v hv => ?_
    rw [defaults, Option.mem_def] at hv
    split at hv
    · cases hv
    · cases hv
      refine Json.bare_ofSet (by simp) (by simp) fun f hf => ?_
      simp only [List.mem_cons, List.not_mem_nil, or_false] at hf
      rcases hf with rfl | rfl <;> exact Json.envelopesOf_map Json.bare_str
  · exact Json.envelopesOf_map fun level => Json.bare_ofTexts [level]

/-! ### Commands -/

namespace Command

/-- The numbers that a command sends to a revision, each with the keys that lead to it. -/
def numbers (revision : Revision) : Command → List (List String × Int)
  | submitJob j => numbersUnder "job" (j.numbers revision.switchesField)
  | updateJob _ u => u.numbers
  | createQos q | updateQos q => numbersUnder "qos" q.numbers
  | createReservation r => r.numbers
  | updateReservation r => numbersUnder "reservations" r.numbers
  | _ => []

/-- The memory that a command asks for on each node. -/
def memory? : Command → Option Nat
  | submitJob j => j.memoryPerNodeMb
  | _ => none

/-- The numbers of a command have the widths of their fields. -/
def InWidth : Command → Prop
  | submitJob j => j.InWidth
  | updateJob _ u => u.InWidth
  | createQos q | updateQos q => q.InWidth
  | createReservation r | updateReservation r => r.InWidth
  | _ => True

variable {revision : Revision} {c : Command} {bytes : List UInt8}

theorem exists_of_post {plugin : Plugin} {path : List String} {checked : Except Rejection Json}
    (hdraft : c.draft revision = post plugin path checked) (h : c.posted revision = some bytes) :
    ∃ v, checked = .ok v ∧ bytes = v.toBytes := by
  cases checked with
  | error e =>
    rw [posted, hdraft] at h
    cases h
  | ok v =>
    rw [posted_eq hdraft] at h
    exact ⟨v, rfl, (Option.some.inj h).symm⟩

/-- A body is posted in canonical form, with its envelopes. -/
theorem exists_envelopes {plugin : Plugin} {path : List String} {check : Except Rejection Unit} {d : Json}
    {numbers : List (List String × Int)} (h : c.posted revision = some bytes)
    (hdraft : c.draft revision = post plugin path (do check; return d)) (hwhole : d.Whole)
    (henvelopes : d.canonical.envelopes.Perm (enveloped numbers)) :
    ∃ body, Json.ofBytes? bytes = some body ∧ body.envelopes.Perm (enveloped numbers) := by
  obtain ⟨v, hv, rfl⟩ := exists_of_post hdraft h
  obtain ⟨-, rfl⟩ := checked_eq_ok_iff.mp hv
  exact ⟨v.canonical, Json.ofBytes?_toBytes hwhole, henvelopes⟩

/-- What a command posts has its numbers in envelopes, each once, and no other envelopes. -/
theorem perm_envelopes (hw : c.InWidth) (h : c.posted revision = some bytes) :
    ∃ body, Json.ofBytes? bytes = some body ∧ body.envelopes.Perm (enveloped (c.numbers revision)) := by
  cases c
  case submitJob j =>
    obtain ⟨v, hv, rfl⟩ := exists_of_post rfl h
    have hwhole : (Json.obj [("job", j.description revision)]).Whole :=
      ⟨JobSubmission.whole_description hw, trivial⟩
    refine ⟨v.canonical, ?_, ?_⟩
    · rw [JobSubmission.eq_of_body hv, Json.ofBytes?_toBytes hwhole]
    · rw [JobSubmission.eq_of_body hv, canonical_single, Json.envelopes_single (by decide), numbers,
        enveloped_numbersUnder]
      exact (JobSubmission.perm_envelopes revision hw).map _
  case updateJob id u =>
    exact exists_envelopes h rfl (JobUpdate.whole_description hw) (JobUpdate.perm_envelopes hw)
  case updateNode name u =>
    exact exists_envelopes h rfl u.whole_description (List.Perm.of_eq u.bare_description)
  case createAccount a | updateAccount a =>
    exact exists_envelopes h rfl ⟨⟨⟨trivial, trivial, trivial, trivial⟩, trivial⟩, trivial⟩
      (List.Perm.of_eq a.bare_document)
  case createUser u | updateUser u =>
    exact exists_envelopes h rfl u.whole_document (List.Perm.of_eq u.bare_document)
  case createQos q | updateQos q =>
    exact exists_envelopes h rfl (Qos.whole_document hw) (Qos.perm_envelopes hw)
  case createReservation r =>
    exact exists_envelopes h rfl (Reservation.whole_description hw) (Reservation.perm_envelopes hw)
  case updateReservation r =>
    exact exists_envelopes h rfl (Reservation.whole_document hw) (Reservation.perm_envelopes_document hw)
  -- The other commands post nothing.
  all_goals cases h

/-- Every number of a command has 64 bits with a sign, or is the memory of a job. -/
theorem inWord_or_memory (hw : c.InWidth) {s : List String × Int} (h : s ∈ c.numbers revision) :
    InWord s.2 ∨ s.1 = ["job", "memory_per_node"] ∧ ∃ m ∈ c.memory?, s.2 = (m : Int) := by
  cases c
  case submitJob j =>
    obtain ⟨t, ht, rfl⟩ := List.mem_map.mp h
    exact (JobSubmission.inWord_or_memory hw ht).imp_right fun ⟨hkey, hm⟩ => ⟨congrArg _ hkey, hm⟩
  case updateJob id u => exact Or.inl (JobUpdate.inWord_numbers hw h)
  case createQos q | updateQos q =>
    obtain ⟨t, ht, rfl⟩ := List.mem_map.mp h
    exact Or.inl (show InWord t.2 from Qos.inWord_numbers hw ht)
  case createReservation r => exact Or.inl (Reservation.inWord_numbers hw h)
  case updateReservation r =>
    obtain ⟨t, ht, rfl⟩ := List.mem_map.mp h
    exact Or.inl (show InWord t.2 from Reservation.inWord_numbers hw ht)
  all_goals cases h

theorem mem_numbers_of_memory {m : Nat} (h : m ∈ c.memory?) :
    (["job", "memory_per_node"], (m : Int)) ∈ c.numbers revision := by
  cases c
  case submitJob j =>
    have hm : j.memoryPerNodeMb = some m := h
    refine List.mem_map.mpr ⟨(["memory_per_node"], (m : Int)), mem_numbersOf.mpr ?_, rfl⟩
    exact ⟨("memory_per_node", j.memoryPerNodeMb.map Int.ofNat), by simp, m, by simp [hm], rfl⟩
  all_goals cases h

/-- The greatest memory that is read back: the greatest signed word. -/
def greatestRead : Nat := 9223372036854775807

theorem inWord_natCast_iff {m : Nat} : InWord (m : Int) ↔ m ≤ greatestRead := by
  simp only [InWord, greatestRead]
  omega

/-- Every number that a command sends is in an envelope of its own, and the envelopes of a body are no
    others. All of them are read as the number that was sent and as the bare number is, but for the memory
    of a job, which is read just up to the greatest signed word, and not at all beyond it. Whatever can be
    read is read again as it was after it was sent. -/
theorem envelopes_kept_iff (hw : c.InWidth) (h : c.posted revision = some bytes) :
    (∀ q : Quantity, InWord q.number → ∀ level < Json.maxDepth,
      (Json.ofBytes? q.toJson.toBytes).bind (Quantity.read level) = some q) ∧
    ∃ body, Json.ofBytes? bytes = some body ∧
      body.envelopes.Perm (enveloped (c.numbers revision)) ∧
      (∀ s ∈ c.numbers revision, s.1 ≠ ["job", "memory_per_node"] → (Json.envelope s.2).Keeps s.2) ∧
      ((∀ s ∈ c.numbers revision, (Json.envelope s.2).Keeps s.2) ↔ ∀ m ∈ c.memory?, m ≤ greatestRead) ∧
      ∀ m ∈ c.memory?, greatestRead < m → ∀ level < Json.maxDepth,
        Quantity.read level (Json.envelope m) = none := by
  refine ⟨fun q hq level hl => ?_, ?_⟩
  · rw [Json.ofBytes?_toBytes (whole_quantity hq), Option.bind_some, Quantity.read_canonical hl hq]
  · obtain ⟨body, hbody, hperm⟩ := perm_envelopes hw h
    refine ⟨body, hbody, hperm, fun s hs hkey => ?_, ⟨?_, ?_⟩, fun m _ hbeyond level hl => ?_⟩
    · rcases inWord_or_memory hw hs with hword | ⟨hmemory, -⟩
      · exact Json.keeps_envelope_iff.mpr hword
      · exact absurd hmemory hkey
    · intro hkeeps m hm
      exact inWord_natCast_iff.mp (Json.keeps_envelope_iff.mp (hkeeps _ (mem_numbers_of_memory hm)))
    · intro hmemory s hs
      rcases inWord_or_memory hw hs with hword | ⟨-, m, hm, hnumber⟩
      · exact Json.keeps_envelope_iff.mpr hword
      · rw [hnumber]
        exact Json.keeps_envelope_iff.mpr (inWord_natCast_iff.mpr (hmemory m hm))
    · exact Json.read_envelope_eq_none hl fun hword =>
        absurd (inWord_natCast_iff.mp hword) (Nat.not_le.mpr hbeyond)

/-- A job that asks for as much memory per node as can be told, or for more. -/
def greedyJob (memory : Nat) : JobSubmission :=
  { name := "big", script := "#!/bin/sh", memoryPerNodeMb := some memory }

theorem inWidth_greedyJob {memory : Nat} (h : memory ≤ Json.greatestWord) :
    (submitJob (greedyJob memory)).InWidth := {
  timeLimit := by simp [greedyJob]
  nodes := by simp [greedyJob]
  tasks := by simp [greedyJob]
  cpusPerTask := by simp [greedyJob]
  memory := by simpa [greedyJob] using h
  switches := by simp [greedyJob] }

theorem posted_greedyJob (memory : Nat) : (submitJob (greedyJob memory)).posted .v42 =
    some (Json.obj [("job", (greedyJob memory).description .v42)]).toBytes := by
  have hname : Text.allBlank ['b', 'i', 'g'] = false := by decide
  have hvalid : (greedyJob memory).validate = .ok () := by
    simp [greedyJob, JobSubmission.validate, hname]
  have hbody : (greedyJob memory).body .v42 =
      .ok (.obj [("job", (greedyJob memory).description .v42)]) := by
    rw [JobSubmission.body_of_valid hvalid, if_neg (by simp [greedyJob])]
  exact posted_eq (by rw [draft, hbody])

/-- A quantity that is neither set nor finite, and the greatest memory that is read back. -/
theorem envelopes_kept_iff_greatest :
    (Json.ofBytes? (Quantity.toJson ⟨false, true, -1⟩).toBytes).bind (Quantity.read 3) =
      some ⟨false, true, -1⟩ ∧
    ∃ bytes body, (submitJob (greedyJob greatestRead)).posted .v42 = some bytes ∧
      Json.ofBytes? bytes = some body ∧
      body.envelopes.Perm [(["job", "memory_per_node"], Json.envelope 9223372036854775807)] ∧
      (Json.envelope 9223372036854775807).Keeps 9223372036854775807 := by
  obtain ⟨hread, body, hbody, hperm, -, hkeeps, -⟩ :=
    envelopes_kept_iff (inWidth_greedyJob (by decide)) (posted_greedyJob greatestRead)
  refine ⟨hread _ (by simp [InWord]) 3 (by decide), _, body, posted_greedyJob _, hbody, hperm, ?_⟩
  refine hkeeps.mpr ?_ (["job", "memory_per_node"], 9223372036854775807) (List.mem_singleton.mpr rfl)
  rintro m ⟨⟩
  exact Nat.le_refl _

/-- One more than that is accepted and sent, and cannot be read from its envelope. -/
theorem memory_drifts :
    (submitJob (greedyJob 9223372036854775808)).InWidth ∧
    ∃ bytes body, (submitJob (greedyJob 9223372036854775808)).posted .v42 = some bytes ∧
      Json.ofBytes? bytes = some body ∧
      (["job", "memory_per_node"], Json.envelope 9223372036854775808) ∈ body.envelopes ∧
      ¬ (Json.envelope 9223372036854775808).Keeps 9223372036854775808 ∧
      Quantity.read 3 (Json.envelope 9223372036854775808) = none := by
  have hw : (submitJob (greedyJob 9223372036854775808)).InWidth := inWidth_greedyJob (by decide)
  have hword : ¬ InWord 9223372036854775808 := by simp [InWord]
  obtain ⟨body, hbody, hperm⟩ := perm_envelopes hw (posted_greedyJob _)
  refine ⟨hw, _, body, posted_greedyJob _, hbody, hperm.mem_iff.mpr (List.mem_singleton.mpr rfl), ?_, ?_⟩
  · exact fun hkeeps => hword (Json.keeps_envelope_iff.mp hkeeps)
  · exact Json.read_envelope_eq_none (by decide) hword

end Command

end SlurmLink
