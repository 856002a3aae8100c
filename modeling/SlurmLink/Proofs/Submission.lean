import Mathlib.Data.List.TakeDrop
import SlurmLink.Proofs.Document
import SlurmLink.Proofs.Spelling

/-!
What the body of a submission says. A submission that passes its checks is sent as an object with one
member for each field that is set, and four that are always there; a working directory and a search path
are filled in if there are none:

    submission ──validate──▶ ──exclusive?──▶ { "job": { name, script, …, environment: ["NAME=value", …] } }

Nothing is lost on the way: from the members `JobSubmission.ofDescription?` reads the submission with what
was filled in (`JobSubmission.submission_exact`). Only the name of the switch count depends on the revision.
-/

namespace SlurmLink

/-! ### Variables -/

namespace Environment

/-- The names ascend, so each of them is there once. -/
def Ascending (env : Environment) : Prop := env.Pairwise fun p q => p.1 < q.1

/-- A variable with its value, cut at the first equals sign. -/
def binding? (text : String) : Option (String × String) :=
  match text.toList.span (· != '=') with
  | (key, _ :: value) => some (String.ofList key, String.ofList value)
  | (_, []) => none

theorem binding?_assignment {key : String} (value : String) (h : '=' ∉ key.toList) :
    binding? (key ++ "=" ++ value) = some (key, value) := by
  have hkey : ∀ c ∈ key.toList, (c != '=') = true := by
    intro c hc
    rw [bne_iff_ne]
    rintro rfl
    exact h hc
  have hspan : (key ++ "=" ++ value).toList.span (· != '=') = (key.toList, '=' :: value.toList) := by
    rw [String.toList_append, String.toList_append, List.append_assoc, List.span_eq_takeWhile_dropWhile,
      List.takeWhile_append_of_pos hkey, List.dropWhile_append_of_pos hkey]
    simp
  rw [binding?, hspan]
  simp

theorem mapM_binding? {env : Environment} (h : ∀ p ∈ env, '=' ∉ p.1.toList) :
    (env.map fun p => p.1 ++ "=" ++ p.2).mapM binding? = some env := by
  induction env with
  | nil => rfl
  | cons p env ih =>
    rw [List.map_cons, List.mapM_cons, binding?_assignment p.2 (h p List.mem_cons_self),
      ih fun q hq => h q (List.mem_cons_of_mem _ hq)]
    rfl

theorem fst_mem_insert {key value k : String} {env : Environment}
    (h : k ∈ (insert key value env).map Prod.fst) : k = key ∨ k ∈ env.map Prod.fst := by
  induction env with
  | nil => simpa [insert] using h
  | cons p env ih =>
    rw [insert] at h
    split at h
    · simpa using h
    · split at h
      · next he => simpa [he] using h
      · simp only [List.map_cons, List.mem_cons] at h ⊢
        rcases h with rfl | h
        · exact Or.inr (Or.inl rfl)
        · exact (ih h).imp_right Or.inr

theorem ascending_insert {key : String} (value : String) {env : Environment} (h : env.Ascending) :
    (insert key value env).Ascending := by
  induction env with
  | nil => simp [insert, Ascending]
  | cons p env ih =>
    obtain ⟨hp, henv⟩ := List.pairwise_cons.mp h
    rw [insert]
    split
    · next hlt =>
      refine List.pairwise_cons.mpr ⟨fun q hq => ?_, h⟩
      rcases List.mem_cons.mp hq with rfl | hq
      · exact hlt
      · exact String.lt_trans hlt (hp q hq)
    · next hlt =>
      split
      · next he =>
        subst he
        exact List.pairwise_cons.mpr ⟨hp, henv⟩
      · next hne =>
        have hgt : p.1 < key := by
          by_contra hle
          exact hne (String.le_antisymm (String.not_lt.mp hle) (String.not_lt.mp hlt))
        refine List.pairwise_cons.mpr ⟨fun q hq => ?_, ih henv⟩
        rcases fst_mem_insert (List.mem_map_of_mem hq) with he | hin
        · exact he ▸ hgt
        · obtain ⟨r, hr, he⟩ := List.mem_map.mp hin
          exact he ▸ hp r hr

/-- A new variable is put among the others and changes none of them. -/
theorem perm_insert {key value : String} {env : Environment} (h : key ∉ env.map Prod.fst) :
    (insert key value env).Perm ((key, value) :: env) := by
  induction env with
  | nil => exact List.Perm.refl _
  | cons p env ih =>
    simp only [List.map_cons, List.mem_cons, not_or] at h
    rw [insert, if_neg h.1]
    split
    · exact List.Perm.refl _
    · exact ((ih h.2).cons p).trans (List.Perm.swap ..)

theorem ascending_foldl {env : Environment} (pairs : List (String × String)) (h : env.Ascending) :
    (pairs.foldl (fun env p => insert p.1 p.2 env) env).Ascending := by
  induction pairs generalizing env with
  | nil => exact h
  | cons p pairs ih => exact ih (ascending_insert p.2 h)

/-- However variables are given, they are kept in ascending order. -/
theorem ascending_ofPairs (pairs : List (String × String)) : (ofPairs pairs).Ascending :=
  ascending_foldl pairs List.Pairwise.nil

theorem perm_foldl {env : Environment} {pairs : List (String × String)}
    (h : ((pairs ++ env).map Prod.fst).Nodup) :
    (pairs.foldl (fun env p => insert p.1 p.2 env) env).Perm (pairs ++ env) := by
  induction pairs generalizing env with
  | nil => exact List.Perm.refl _
  | cons p pairs ih =>
    rw [List.cons_append, List.map_cons, List.nodup_cons, List.map_append, List.mem_append, not_or] at h
    have hinsert : (insert p.1 p.2 env).Perm (p :: env) := perm_insert h.1.2
    have hperm : (pairs ++ insert p.1 p.2 env).Perm (p :: (pairs ++ env)) :=
      (hinsert.append_left pairs).trans List.perm_middle
    refine (ih ?_).trans hperm
    rw [(hperm.map Prod.fst).nodup_iff, List.map_cons, List.nodup_cons, List.map_append,
      List.mem_append, not_or]
    exact h

/-- Variables in ascending order are told by which ones there are. -/
theorem Ascending.eq_of_perm {env other : Environment} (henv : env.Ascending) (hother : other.Ascending)
    (h : env.Perm other) : env = other :=
  List.Perm.eq_of_pairwise (fun _ _ _ _ hpq hqp => absurd hqp (String.lt_asymm hpq)) henv hother h

theorem Ascending.nodup {env : Environment} (h : env.Ascending) : (env.map Prod.fst).Nodup := by
  rw [List.Nodup, List.pairwise_map]
  refine List.Pairwise.imp ?_ h
  intro p q hlt he
  exact String.lt_irrefl q.1 (he ▸ hlt)

/-- Variables in ascending order that are given one by one, in any order, are these again. -/
theorem ofPairs_of_perm {env : Environment} {pairs : List (String × String)} (henv : env.Ascending)
    (h : pairs.Perm env) : ofPairs pairs = env := by
  have hnodup : ((pairs ++ []).map Prod.fst).Nodup := by
    rw [List.append_nil, (h.map Prod.fst).nodup_iff]
    exact henv.nodup
  have hperm : (ofPairs pairs).Perm (pairs ++ []) := perm_foldl hnodup
  rw [List.append_nil] at hperm
  exact (ascending_ofPairs pairs).eq_of_perm henv (hperm.trans h)

end Environment

/-! ### Readers of values -/

namespace Json

theorem fits_of_le {n : Nat} (h : n ≤ greatestWord) : fits n = true := by
  have hle : (n : Int) ≤ (greatestWord : Int) := Int.ofNat_le.mpr h
  simp only [fits, Bool.and_eq_true, decide_eq_true_eq]
  exact ⟨by omega, hle⟩

theorem le_greatestWord {n : Nat} (h : n ≤ maxCount) : n ≤ greatestWord :=
  Nat.le_trans h (by decide)

theorem readNat32_ofNat {n : Nat} (h : n ≤ maxCount) : readNat32 (ofNat n) = some n := by
  have hle : (n : Int) ≤ ((4294967295 : Nat) : Int) := Int.ofNat_le.mpr h
  rw [readNat32, ofNat, natUpTo?, if_pos ⟨Int.natCast_nonneg n, hle⟩, Int.toNat_natCast]

theorem whole_ofQuantity {n : Nat} (h : n ≤ greatestWord) : (ofQuantity n).Whole :=
  ⟨trivial, trivial, fits_of_le h, trivial⟩

/-- Reads the number of an envelope that says that it is set and finite, up to the greatest word. -/
def readEnvelope (v : Json) : Option Nat := do
  let r ← Record.read ["set", "infinite", "number"] v
  let set ← r.required "set" readBool
  let infinite ← r.required "infinite" readBool
  let number ← r.required "number" readNat64
  if set && !infinite then some number else none

theorem readEnvelope_canonical {n : Nat} (h : n ≤ greatestWord) :
    readEnvelope (ofQuantity n).canonical = some n := by
  have hle : (n : Int) ≤ 18446744073709551615 := by
    simp only [greatestWord] at h
    omega
  rw [ofQuantity, canonical_of_fits (fits_of_le h)]
  simp [readEnvelope, Record.read, Record.slotOf, Record.required, Record.slot, List.lookup_cons,
    readBool, readNat64, natUpTo?, Quantity.ofInt, hle]

/-- Reads variables with their values. -/
def readVariables (v : Json) : Option Environment := do
  let texts ← readList readText v
  let pairs ← texts.mapM Environment.binding?
  return Environment.ofPairs pairs

/-- Reads a number that is written as a text. -/
def readNumeral (v : Json) : Option Nat :=
  (readText v).bind fun s =>
    if Text.isDigits s.toList then some (Text.digitsValue s.toList) else none

theorem readNumeral_toString (n : Nat) : readNumeral (.str (toString n)) = some n := by
  obtain ⟨hdigits, hvalue⟩ := Text.numeral_iff.mp (Text.numeral_toString n)
  rw [readNumeral, readText, Option.bind_some, if_pos hdigits, hvalue]

/-- Reads a yes or no that is written as a list of one text. -/
def readFlag (v : Json) : Option Bool :=
  match readList readText v with
  | some ["true"] => some true
  | some ["false"] => some false
  | _ => none

end Json

/-! ### Submissions -/

namespace JobSubmission

variable {revision : Revision} {j : JobSubmission}

/-- The counts of a submission have 32 bits and its memory has 64. -/
structure InWidth (j : JobSubmission) : Prop where
  timeLimit : ∀ n ∈ j.timeLimitMinutes, n ≤ maxCount
  nodes : ∀ n ∈ j.nodes, n ≤ maxCount
  tasks : ∀ n ∈ j.tasks, n ≤ maxCount
  cpusPerTask : ∀ n ∈ j.cpusPerTask, n ≤ maxCount
  memory : ∀ n ∈ j.memoryPerNodeMb, n ≤ Json.greatestWord
  switches : ∀ n ∈ j.requiredSwitches, n ≤ maxCount

/-- A submission with numbers of their widths, and with variables that are in order and whose names
    have no equals sign. -/
structure Proper (j : JobSubmission) : Prop where
  width : j.InWidth
  ascending : j.environment.Ascending
  plain : ∀ p ∈ j.environment, '=' ∉ p.1.toList

/-- A submission with what is filled in: a working directory and a search path. -/
def completed (j : JobSubmission) : JobSubmission :=
  { j with
    workingDirectory := some (j.workingDirectory.getD "/tmp")
    environment :=
      if "PATH" ∈ j.environment.map Prod.fst then j.environment
      else j.environment.insert "PATH" "/usr/bin:/bin" }

/-- The names of the fields that are sent to a revision: four are always there. -/
def sentNames (revision : Revision) (j : JobSubmission) : List String :=
  Json.namesOf [("name", true), ("script", true), ("account", j.account.isSome),
    ("partition", j.partition.isSome), ("qos", j.qos.isSome),
    ("standard_output", j.standardOutput.isSome), ("standard_error", j.standardError.isSome),
    ("current_working_directory", true), ("environment", true),
    ("time_limit", j.timeLimitMinutes.isSome), ("tasks", j.tasks.isSome),
    ("cpus_per_task", j.cpusPerTask.isSome), ("memory_per_node", j.memoryPerNodeMb.isSome),
    ("nodes", j.nodes.isSome), (revision.switchesField, j.requiredSwitches.isSome),
    ("exclusive", j.exclusive.isSome)]

/-- The variables that are sent: a search path is put in front unless there is one. -/
def sentVariables (j : JobSubmission) : List (String × String) :=
  (if "PATH" ∈ j.environment.map Prod.fst then [] else [("PATH", "/usr/bin:/bin")]) ++ j.environment

/-- The fields that a submission may have, with the later name of its switch count. -/
def fieldNames : List String :=
  ["name", "script", "account", "partition", "qos", "current_working_directory", "environment",
    "time_limit", "nodes", "tasks", "cpus_per_task", "memory_per_node", "required_switches", "exclusive",
    "standard_output", "standard_error"]

/-- Reads what the members of a submission say, whatever the name of the switch count. -/
def ofDescription? (v : Json) : Option JobSubmission := do
  let r ← Json.Record.read fieldNames (Json.Record.withAlias "minimum_switches" "required_switches" v)
  let name ← r.required "name" Json.readText
  let script ← r.required "script" Json.readText
  let account ← r.setting "account" Json.readText
  let partition ← r.setting "partition" Json.readText
  let qos ← r.setting "qos" Json.readText
  let workingDirectory ← r.required "current_working_directory" Json.readText
  let environment ← r.required "environment" Json.readVariables
  let timeLimitMinutes ← r.setting "time_limit" Json.readEnvelope
  let nodes ← r.setting "nodes" Json.readNumeral
  let tasks ← r.setting "tasks" Json.readEnvelope
  let cpusPerTask ← r.setting "cpus_per_task" Json.readEnvelope
  let memoryPerNodeMb ← r.setting "memory_per_node" Json.readEnvelope
  let requiredSwitches ← r.setting "required_switches" Json.readEnvelope
  let exclusive ← r.setting "exclusive" Json.readFlag
  let standardOutput ← r.setting "standard_output" Json.readText
  let standardError ← r.setting "standard_error" Json.readText
  return {
    name, script, account, partition, qos, environment, timeLimitMinutes, nodes, tasks, cpusPerTask,
    memoryPerNodeMb, requiredSwitches, exclusive, standardOutput, standardError
    workingDirectory := some workingDirectory }

/-- A job that is listed with the fields of a submission and with an id: it has the time limit and the
    switch count of the submission. -/
def asListed (id : Nat) (j : JobSubmission) : Job where
  jobId := id
  name := j.name
  userName := none
  account := nonEmpty j.account
  partition := nonEmpty j.partition
  qos := nonEmpty j.qos
  state := .other "UNKNOWN"
  stateReason := none
  nodes := nonEmpty (j.nodes.map toString)
  nodeCount := none
  cpus := none
  timeLimitMinutes := j.timeLimitMinutes
  priority := none
  submitTime := none
  startTime := none
  endTime := none
  exitCode := none
  requiredSwitches := j.requiredSwitches
  workingDirectory := nonEmpty (some (j.workingDirectory.getD "/tmp"))

/-- What the members of a submission's body say. -/
structure Tells (revision : Revision) (j : JobSubmission) (members : List (String × Json)) : Prop where
  /-- There is one member for each field that is set, and no other. -/
  names : (members.map Prod.fst).Perm (j.sentNames revision)
  /-- Each has the value of its field. -/
  values : ofDescription? (.obj members) = some j.completed
  /-- The entries, cut at their first equals signs, are the variables that are sent, no name twice, and
      there is one. -/
  environment : ∃ texts : List String, ("environment", .ofTexts texts) ∈ members ∧ texts ≠ [] ∧
    texts.mapM Environment.binding? = some j.sentVariables ∧ (j.sentVariables.map Prod.fst).Nodup
  /-- The switch count has no other name. -/
  switches : ∀ other : Revision, other.switchesField ≠ revision.switchesField →
    other.switchesField ∉ members.map Prod.fst
  /-- A job that is listed with these members is read with what was submitted. -/
  listed : ∀ id ≤ maxCount,
    Job.ofWire (.obj (("job_id", .ofNat id) :: members)) = some (some (j.asListed id))

/-- The fields of a submission, with a name for its switch count. -/
def fields (switches : String) (j : JobSubmission) : List (String × Option Json) := [
  ("name", some (.str j.name)),
  ("script", some (.str j.script)),
  ("account", j.account.map .str),
  ("partition", j.partition.map .str),
  ("qos", j.qos.map .str),
  ("standard_output", j.standardOutput.map .str),
  ("standard_error", j.standardError.map .str),
  ("current_working_directory", some (.str (j.workingDirectory.getD "/tmp"))),
  ("environment", some (.ofTexts j.environmentTexts)),
  ("time_limit", j.timeLimitMinutes.map .ofQuantity),
  ("tasks", j.tasks.map .ofQuantity),
  ("cpus_per_task", j.cpusPerTask.map .ofQuantity),
  ("memory_per_node", j.memoryPerNodeMb.map .ofQuantity),
  ("nodes", j.nodes.map fun n => .str (toString n)),
  (switches, j.requiredSwitches.map .ofQuantity),
  ("exclusive", j.exclusive.map fun b => .ofTexts [if b then "true" else "false"])]

theorem nodup_fields (revision : Revision) (j : JobSubmission) :
    ((j.fields revision.switchesField).map Prod.fst).Nodup := by
  cases revision <;> simp [fields, Revision.switchesField]

theorem renamed_fields (revision : Revision) (j : JobSubmission) :
    (j.fields revision.switchesField).map (Json.renamed "minimum_switches" "required_switches") =
      j.fields "required_switches" := by
  cases revision <;> simp [fields, Revision.switchesField, Json.renamed]

/-! ### What is accepted -/

theorem acceptsExclusive_eq (revision : Revision) :
    revision.acceptsExclusive = !decide (Revision.v41.apiVersion < revision.apiVersion) := by
  cases revision <;> decide

theorem body_of_rejected {e : Rejection} (h : j.validate = .error e) : j.body revision = .error e := by
  rw [body, h]
  rfl

/-- A submission that passes its check is refused for a flag that the revision has no place for, and for
    nothing else. -/
theorem body_of_valid (h : j.validate = .ok ()) : j.body revision =
    if j.exclusive.isSome = true ∧ Revision.v41.apiVersion < revision.apiVersion then
      .error (.exclusiveFlag revision.apiVersion)
    else .ok (.obj [("job", j.description revision)]) := by
  rw [body, h, acceptsExclusive_eq, Bool.not_not]
  by_cases hmisplaced : j.exclusive.isSome = true ∧ Revision.v41.apiVersion < revision.apiVersion
  · rw [if_pos hmisplaced, hmisplaced.1, decide_eq_true hmisplaced.2]
    rfl
  · have hflag : (j.exclusive.isSome &&
        decide (Revision.v41.apiVersion < revision.apiVersion)) = false := by
      simpa using hmisplaced
    rw [if_neg hmisplaced, hflag]
    rfl

theorem exists_rejection_iff : (∃ e, j.body revision = .error e) ↔ (∃ e, j.validate = .error e) ∨
    (j.exclusive.isSome = true ∧ Revision.v41.apiVersion < revision.apiVersion) := by
  cases hv : j.validate with
  | error e => simp [body_of_rejected hv]
  | ok u =>
    rw [body_of_valid hv]
    split
    · next hmisplaced => simp [hmisplaced]
    · next hplaced => simp [hplaced]

theorem eq_of_body {v : Json} (h : j.body revision = .ok v) :
    v = .obj [("job", j.description revision)] := by
  cases hv : j.validate with
  | error e =>
    rw [body_of_rejected hv] at h
    cases h
  | ok u =>
    rw [body_of_valid hv] at h
    split at h
    · cases h
    · cases h
      rfl

/-! ### What is sent -/

theorem whole_description (hw : j.InWidth) : (j.description revision).Whole := by
  refine Json.whole_ofSet fun m hm => ?_
  simp only [List.mem_cons, List.not_mem_nil, or_false] at hm
  rcases hm with rfl | rfl | rfl | rfl | rfl | rfl | rfl | rfl | rfl | rfl | rfl | rfl | rfl | rfl | rfl |
    rfl
  · exact whole_map (o := some j.name) fun _ _ => trivial
  · exact whole_map (o := some j.script) fun _ _ => trivial
  · exact whole_map fun _ _ => trivial
  · exact whole_map fun _ _ => trivial
  · exact whole_map fun _ _ => trivial
  · exact whole_map fun _ _ => trivial
  · exact whole_map fun _ _ => trivial
  · exact whole_map (o := some (j.workingDirectory.getD "/tmp")) fun _ _ => trivial
  · exact whole_map (o := some j.environmentTexts) fun texts _ => Json.wholeList_map_str texts
  · exact whole_map fun n hn => Json.whole_ofQuantity (Json.le_greatestWord (hw.timeLimit n hn))
  · exact whole_map fun n hn => Json.whole_ofQuantity (Json.le_greatestWord (hw.tasks n hn))
  · exact whole_map fun n hn => Json.whole_ofQuantity (Json.le_greatestWord (hw.cpusPerTask n hn))
  · exact whole_map fun n hn => Json.whole_ofQuantity (hw.memory n hn)
  · exact whole_map fun _ _ => trivial
  · exact whole_map fun n hn => Json.whole_ofQuantity (Json.le_greatestWord (hw.switches n hn))
  · exact whole_map fun b _ => Json.wholeList_map_str [if b then "true" else "false"]

/-- The bytes of a body hold the canonical form of its one member. -/
theorem ofBytes?_body {v : Json} (hw : j.InWidth) (h : j.body revision = .ok v) :
    ∃ members, Json.ofBytes? v.toBytes = some (.obj [("job", .obj members)]) ∧
      members.Perm (Json.setMembers (j.fields revision.switchesField)) := by
  obtain ⟨members, hmembers, hperm⟩ := Json.exists_canonical_ofSet (nodup_fields revision j)
  have hcanonical : (j.description revision).canonical = .obj members := hmembers
  have hwhole : (Json.obj [("job", j.description revision)]).Whole := ⟨whole_description hw, trivial⟩
  refine ⟨members, ?_, hperm⟩
  rw [eq_of_body h, Json.ofBytes?_toBytes hwhole, canonical_single, hcanonical]

theorem environmentTexts_eq (j : JobSubmission) :
    j.environmentTexts = j.sentVariables.map fun p => p.1 ++ "=" ++ p.2 := by
  have hany : (j.environment.any fun p => p.1 == "PATH") =
      decide ("PATH" ∈ j.environment.map Prod.fst) := by
    rw [Bool.eq_iff_iff]
    simp
  rw [environmentTexts, sentVariables, hany]
  by_cases hpath : "PATH" ∈ j.environment.map Prod.fst
  · simp [hpath]
  · simp only [hpath, decide_false, if_neg, Bool.false_eq_true, not_false_eq_true, List.map_append]
    rfl

theorem sentVariables_ne_nil (j : JobSubmission) : j.sentVariables ≠ [] := by
  rw [sentVariables]
  split
  · next hpath =>
    rintro hnil
    rw [List.nil_append] at hnil
    rw [hnil] at hpath
    cases hpath
  · simp

theorem Proper.mapM_environmentTexts (h : j.Proper) :
    j.environmentTexts.mapM Environment.binding? = some j.sentVariables := by
  rw [environmentTexts_eq]
  refine Environment.mapM_binding? fun p hp => ?_
  rw [sentVariables] at hp
  rcases List.mem_append.mp hp with hp | hp
  · split at hp
    · cases hp
    · rw [List.mem_singleton.mp hp]
      decide
  · exact h.plain p hp

/-- In ascending order the variables that are sent are those of the completed submission. -/
theorem perm_sentVariables (j : JobSubmission) : j.sentVariables.Perm j.completed.environment := by
  rw [sentVariables, completed]
  split
  · exact List.Perm.refl _
  · next hpath => exact (Environment.perm_insert hpath).symm

theorem Proper.ascending_completed (h : j.Proper) : j.completed.environment.Ascending := by
  rw [completed]
  split
  · exact h.ascending
  · exact Environment.ascending_insert _ h.ascending

theorem Proper.nodup_sentVariables (h : j.Proper) : (j.sentVariables.map Prod.fst).Nodup :=
  ((perm_sentVariables j).map Prod.fst).nodup_iff.mpr h.ascending_completed.nodup

theorem Proper.readVariables_environment (h : j.Proper) :
    Json.readVariables (Json.ofTexts j.environmentTexts).canonical = some j.completed.environment := by
  have htexts : Json.readList Json.readText (.ofTexts j.environmentTexts) = some j.environmentTexts :=
    mapM_readText _
  rw [canonical_ofTexts, Json.readVariables, htexts]
  simp only [bind, Option.bind_some, h.mapM_environmentTexts]
  rw [Environment.ofPairs_of_perm h.ascending_completed (perm_sentVariables j)]
  rfl

/-! ### What is read -/

section Fields

variable {names : List String} {fields : List (String × Option Json)} {name : String}

theorem required_text {s : String} (hn : name ∈ names)
    (hf : (fields.lookup name).join = some (.str s)) :
    (Json.Record.ofFields names fields).required name Json.readText = some s :=
  Json.required_of_some hn hf rfl

theorem setting_number {o : Option Nat} (hn : name ∈ names)
    (hf : (fields.lookup name).join = o.map .ofQuantity) (hw : ∀ n ∈ o, n ≤ Json.greatestWord) :
    (Json.Record.ofFields names fields).setting name Json.readEnvelope = some o :=
  Json.setting_of_eq hn hf fun n hn =>
    ⟨by simp [Json.ofQuantity, Quantity.toJson, Json.canonical], Json.readEnvelope_canonical (hw n hn)⟩

theorem setting_numeral {o : Option Nat} (hn : name ∈ names)
    (hf : (fields.lookup name).join = o.map fun n => .str (toString n)) :
    (Json.Record.ofFields names fields).setting name Json.readNumeral = some o :=
  Json.setting_of_eq hn hf fun n _ => ⟨by simp [Json.canonical], Json.readNumeral_toString n⟩

theorem setting_flag {o : Option Bool} (hn : name ∈ names)
    (hf : (fields.lookup name).join = o.map fun b => .ofTexts [if b then "true" else "false"]) :
    (Json.Record.ofFields names fields).setting name Json.readFlag = some o := by
  refine Json.setting_of_eq hn hf fun b _ => ?_
  rw [canonical_ofTexts]
  refine ⟨by simp [Json.ofTexts], ?_⟩
  cases b <;> rfl

end Fields

/-- The record that is read from the members of a body. -/
def record (j : JobSubmission) : Json.Record := .ofFields fieldNames (j.fields "required_switches")

/-- The members of a body are read as the completed submission, in whatever order they are. -/
theorem ofDescription?_of_perm {members : List (String × Json)} (h : j.Proper)
    (hmembers : members.Perm (Json.setMembers (j.fields revision.switchesField))) :
    ofDescription? (.obj members) = some j.completed := by
  have hread : Json.Record.read fieldNames (Json.Record.withAlias "minimum_switches" "required_switches"
      (.obj members)) = some j.record := by
    have hnodup : ((j.fields "required_switches").map Prod.fst).Nodup := nodup_fields .v44 j
    rw [← renamed_fields revision] at hnodup
    rw [Json.read_withAlias hnodup hmembers, renamed_fields, record]
  have hcount {o : Option Nat} (ho : ∀ n ∈ o, n ≤ maxCount) : ∀ n ∈ o, n ≤ Json.greatestWord :=
    fun n hn => Json.le_greatestWord (ho n hn)
  rw [ofDescription?]
  refine Option.bind_eq_some_iff.mpr ⟨j.record, hread, ?_⟩
  refine Option.bind_eq_some_iff.mpr ⟨j.name, required_text (by decide) rfl, ?_⟩
  refine Option.bind_eq_some_iff.mpr ⟨j.script, required_text (by decide) rfl, ?_⟩
  refine Option.bind_eq_some_iff.mpr ⟨j.account, setting_text (by decide) rfl, ?_⟩
  refine Option.bind_eq_some_iff.mpr ⟨j.partition, setting_text (by decide) rfl, ?_⟩
  refine Option.bind_eq_some_iff.mpr ⟨j.qos, setting_text (by decide) rfl, ?_⟩
  refine Option.bind_eq_some_iff.mpr
    ⟨j.workingDirectory.getD "/tmp", required_text (by decide) rfl, ?_⟩
  refine Option.bind_eq_some_iff.mpr
    ⟨j.completed.environment, Json.required_of_some (by decide) rfl h.readVariables_environment, ?_⟩
  refine Option.bind_eq_some_iff.mpr
    ⟨j.timeLimitMinutes, setting_number (by decide) rfl (hcount h.width.timeLimit), ?_⟩
  refine Option.bind_eq_some_iff.mpr ⟨j.nodes, setting_numeral (by decide) rfl, ?_⟩
  refine Option.bind_eq_some_iff.mpr
    ⟨j.tasks, setting_number (by decide) rfl (hcount h.width.tasks), ?_⟩
  refine Option.bind_eq_some_iff.mpr
    ⟨j.cpusPerTask, setting_number (by decide) rfl (hcount h.width.cpusPerTask), ?_⟩
  refine Option.bind_eq_some_iff.mpr
    ⟨j.memoryPerNodeMb, setting_number (by decide) rfl h.width.memory, ?_⟩
  refine Option.bind_eq_some_iff.mpr
    ⟨j.requiredSwitches, setting_number (by decide) rfl (hcount h.width.switches), ?_⟩
  refine Option.bind_eq_some_iff.mpr ⟨j.exclusive, setting_flag (by decide) rfl, ?_⟩
  refine Option.bind_eq_some_iff.mpr ⟨j.standardOutput, setting_text (by decide) rfl, ?_⟩
  refine Option.bind_eq_some_iff.mpr ⟨j.standardError, setting_text (by decide) rfl, ?_⟩
  rfl

/-- The fields of a job that is listed with the fields of a submission. -/
def listedFields (switches : String) (id : Nat) (j : JobSubmission) : List (String × Option Json) :=
  ("job_id", some (.ofNat id)) :: j.fields switches

/-- The fields that a listed job is read from. -/
def listedNames : List String :=
  ["job_id", "name", "user_name", "account", "partition", "qos", "job_state", "state_reason", "nodes",
    "node_count", "cpus", "time_limit", "priority", "submit_time", "start_time", "end_time", "exit_code",
    "required_switches", "current_working_directory"]

/-- The record that is read from such a job. -/
def listedRecord (id : Nat) (j : JobSubmission) : Json.Record :=
  .ofFields listedNames (j.listedFields "required_switches" id)

/-- A job that is listed with these members and with an id is read as the submission's job. -/
theorem ofWire_of_perm {members : List (String × Json)} {id : Nat} (hw : j.InWidth) (hid : id ≤ maxCount)
    (hmembers : members.Perm (Json.setMembers (j.fields revision.switchesField))) :
    Job.ofWire (.obj (("job_id", .ofNat id) :: members)) = some (some (j.asListed id)) := by
  have hcanonical : (Json.ofNat id).canonical = .ofNat id := by
    have hfits : Json.fits id = true := Json.fits_of_le (Json.le_greatestWord hid)
    rw [Json.ofNat, Json.canonical, if_pos hfits]
  have hlisted : (("job_id", Json.ofNat id) :: members).Perm
      (Json.setMembers (j.listedFields revision.switchesField id)) := by
    simpa [Json.setMembers, listedFields, hcanonical] using hmembers
  have hrenamed : (j.listedFields revision.switchesField id).map
      (Json.renamed "minimum_switches" "required_switches") = j.listedFields "required_switches" id := by
    rw [listedFields, List.map_cons, renamed_fields]
    rfl
  have hnodup : ((j.listedFields "required_switches" id).map Prod.fst).Nodup := by
    simp [listedFields, fields]
  have hread : Json.Record.read listedNames (Json.Record.withAlias "minimum_switches" "required_switches"
      (.obj (("job_id", .ofNat id) :: members))) = some (j.listedRecord id) := by
    rw [← hrenamed] at hnodup
    rw [Json.read_withAlias hnodup hlisted, hrenamed, listedRecord]
  rw [listedNames] at hread
  have hnodes : (j.listedRecord id).setting "nodes" Json.readText = some (j.nodes.map toString) :=
    Json.setting_ofFields (by decide) rfl fun n _ => ⟨by simp [Json.canonical], rfl⟩
  have htime : (j.listedRecord id).setting "time_limit" (Quantity.read 3) =
      some (j.timeLimitMinutes.map fun n : Nat => .ofInt n) :=
    setting_quantity (by decide) (by decide) rfl fun n hn => inWord_count (hw.timeLimit n hn)
  have hswitches : (j.listedRecord id).setting "required_switches" (Quantity.read 3) =
      some (j.requiredSwitches.map fun n : Nat => .ofInt n) :=
    setting_quantity (by decide) (by decide) rfl fun n hn => inWord_count (hw.switches n hn)
  have hjob : (j.listedRecord id).setting "job_id" Json.readNat32 = some (some id) := by
    refine Json.setting_of_eq (by decide) rfl ?_
    rintro _ ⟨⟩
    rw [hcanonical]
    exact ⟨by simp [Json.ofNat], Json.readNat32_ofNat hid⟩
  rw [Job.ofWire]
  refine Option.bind_eq_some_iff.mpr ⟨j.listedRecord id, hread, ?_⟩
  refine Option.bind_eq_some_iff.mpr ⟨some id, hjob, ?_⟩
  refine Option.bind_eq_some_iff.mpr ⟨j.name, withDefault_text (by decide) rfl, ?_⟩
  -- What a submission has no field for is not set.
  refine Option.bind_eq_some_iff.mpr ⟨none, Json.setting_of_none (by decide) rfl, ?_⟩
  refine Option.bind_eq_some_iff.mpr ⟨j.account, setting_text (by decide) rfl, ?_⟩
  refine Option.bind_eq_some_iff.mpr ⟨j.partition, setting_text (by decide) rfl, ?_⟩
  refine Option.bind_eq_some_iff.mpr ⟨j.qos, setting_text (by decide) rfl, ?_⟩
  refine Option.bind_eq_some_iff.mpr ⟨[], Json.withDefault_of_none (by decide) rfl, ?_⟩
  refine Option.bind_eq_some_iff.mpr ⟨none, Json.setting_of_none (by decide) rfl, ?_⟩
  refine Option.bind_eq_some_iff.mpr ⟨j.nodes.map toString, hnodes, ?_⟩
  refine Option.bind_eq_some_iff.mpr ⟨none, Json.setting_of_none (by decide) rfl, ?_⟩
  refine Option.bind_eq_some_iff.mpr ⟨none, Json.setting_of_none (by decide) rfl, ?_⟩
  refine Option.bind_eq_some_iff.mpr ⟨j.timeLimitMinutes.map fun n : Nat => .ofInt n, htime, ?_⟩
  refine Option.bind_eq_some_iff.mpr ⟨none, Json.setting_of_none (by decide) rfl, ?_⟩
  refine Option.bind_eq_some_iff.mpr ⟨none, Json.setting_of_none (by decide) rfl, ?_⟩
  refine Option.bind_eq_some_iff.mpr ⟨none, Json.setting_of_none (by decide) rfl, ?_⟩
  refine Option.bind_eq_some_iff.mpr ⟨none, Json.setting_of_none (by decide) rfl, ?_⟩
  refine Option.bind_eq_some_iff.mpr ⟨none, Json.setting_of_none (by decide) rfl, ?_⟩
  refine Option.bind_eq_some_iff.mpr ⟨j.requiredSwitches.map fun n : Nat => .ofInt n, hswitches, ?_⟩
  refine Option.bind_eq_some_iff.mpr
    ⟨some (j.workingDirectory.getD "/tmp"), setting_text (by decide) rfl, ?_⟩
  rw [Quantity.nat32?_map hw.timeLimit, Quantity.nat32?_map hw.switches]
  rfl

/-! ### Submissions and their bodies -/

theorem perm_sentNames {members : List (String × Json)}
    (h : members.Perm (Json.setMembers (j.fields revision.switchesField))) :
    (members.map Prod.fst).Perm (j.sentNames revision) :=
  Json.perm_namesOf h (by
    simp only [fields, List.map_cons, List.map_nil, Option.isSome_some, Option.isSome_map])

/-- A switch count by the name of another revision is not sent. -/
theorem not_mem_sentNames {other : Revision} (h : other.switchesField ≠ revision.switchesField) :
    other.switchesField ∉ j.sentNames revision := by
  intro hin
  obtain ⟨m, hm, he⟩ := List.mem_map.mp hin
  have hname := List.mem_map_of_mem (f := Prod.fst) (List.mem_filter.mp hm).1
  simp only [he, List.map_cons, List.map_nil] at hname
  cases revision <;> cases other <;> simp [Revision.switchesField] at h hname

theorem Proper.tells {members : List (String × Json)} (h : j.Proper)
    (hmembers : members.Perm (Json.setMembers (j.fields revision.switchesField))) :
    j.Tells revision members where
  names := perm_sentNames hmembers
  values := ofDescription?_of_perm h hmembers
  environment := by
    refine ⟨j.environmentTexts, hmembers.mem_iff.mpr ?_, ?_, h.mapM_environmentTexts,
      h.nodup_sentVariables⟩
    · rw [← canonical_ofTexts]
      exact List.mem_filterMap.mpr
        ⟨("environment", some (.ofTexts j.environmentTexts)), by simp [fields], rfl⟩
    · rw [environmentTexts_eq]
      simpa using j.sentVariables_ne_nil
  switches := fun _ hother hin => not_mem_sentNames hother ((perm_sentNames hmembers).mem_iff.mp hin)
  listed := fun _ hid => ofWire_of_perm h.width hid hmembers

/-- A submission is refused just if it does not pass its check or has the exclusive flag for a revision
    after v0.0.41. What is sent otherwise has a member for each field that is set, and no other, and says
    all that was submitted: two submissions with one body are the same, up to the two defaults. -/
theorem submission_exact (revision : Revision) {j : JobSubmission} (h : j.Proper) :
    ((∃ e, j.body revision = .error e) ↔ (∃ e, j.validate = .error e) ∨
      (j.exclusive.isSome = true ∧ Revision.v41.apiVersion < revision.apiVersion)) ∧
    ∀ v, j.body revision = .ok v →
      (Command.submitJob j).posted revision = some v.toBytes ∧
      (∃ members, Json.ofBytes? v.toBytes = some (.obj [("job", .obj members)]) ∧
        j.Tells revision members) ∧
      ∀ (other : Revision) (k : JobSubmission) (w : Json), k.Proper → k.body other = .ok w →
        w.toBytes = v.toBytes → k.completed = j.completed := by
  refine ⟨exists_rejection_iff, fun v hv => ?_⟩
  obtain ⟨members, hbytes, hmembers⟩ := ofBytes?_body h.width hv
  refine ⟨?_, ⟨members, hbytes, h.tells hmembers⟩, fun other k w hk hbody heq => ?_⟩
  · have hdraft : (Command.submitJob j).draft revision =
        Command.post .slurm ["job", "submit"] (.ok v) := by rw [Command.draft, hv]
    exact Command.posted_eq hdraft
  · obtain ⟨others, hothers, hperm⟩ := ofBytes?_body hk.width hbody
    rw [heq, hbytes] at hothers
    obtain rfl : members = others := by simpa using hothers
    have hread := ofDescription?_of_perm h hmembers
    rw [ofDescription?_of_perm hk hperm] at hread
    exact Option.some.inj hread

/-- A submission with a switch count, the exclusive flag and a variable whose value has an equals sign. -/
theorem submission_exact_exclusive :
    let j : JobSubmission := {
      name := "fold", script := "#!/bin/sh", requiredSwitches := some 2, exclusive := some true
      environment := [("OPTS", "a=b")] }
    ((∃ e, j.body .v41 = .error e) ↔ False) ∧
    ∃ v members, j.body .v41 = .ok v ∧ Json.ofBytes? v.toBytes = some (.obj [("job", .obj members)]) ∧
      j.Tells .v41 members := by
  intro j
  have hproper : j.Proper := {
    width := {
      timeLimit := by simp [j], nodes := by simp [j], tasks := by simp [j], cpusPerTask := by simp [j]
      memory := by simp [j], switches := by simp [j, maxCount] }
    ascending := by simp [j, Environment.Ascending]
    plain := by simp [j] }
  obtain ⟨hrefused, hsent⟩ := submission_exact .v41 hproper
  have hvalid : j.validate = .ok () := by decide
  have hbody : j.body .v41 = .ok (.obj [("job", j.description .v41)]) := by
    rw [body_of_valid hvalid, if_neg (by decide)]
  obtain ⟨-, ⟨members, hbytes, htells⟩, -⟩ := hsent _ hbody
  refine ⟨?_, _, members, hbody, hbytes, htells⟩
  rw [hrefused, hvalid]
  simp
  decide

end JobSubmission

end SlurmLink
