import SlurmLink.Proofs.Submission
import SlurmLink.Proofs.TimeText

/-!
A job survives being written and read again. What is written of a job has a member for every field, with
`null` for what is not set, and each value is a text, a number or `null`:

    job ──toJson──▶ members ──compress──▶ bytes ──ofBytes?──▶ members ──ofJson?──▶ job
                       │                                         ▲
                       └──────────────── in any order ───────────┘

A job that was read from the server has numbers of 32 bits and whole seconds only (`InWidth`), and whatever
is of this kind comes back as it was (`ofBytes?_bind_ofJson?`).
-/

namespace SlurmLink

namespace Json

/-! ### Plain values -/

/-- A text, an integer of 64 bits, or `null`. -/
def Plain : Json → Prop
  | .null => True
  | .str _ => True
  | .int n => fits n = true
  | _ => False

theorem Plain.canonical : ∀ {v : Json}, Plain v → v.canonical = v
  | .null, _ => rfl
  | .str _, _ => rfl
  | .int _, h => if_pos h

theorem Plain.whole : ∀ {v : Json}, Plain v → v.Whole
  | .null, _ => trivial
  | .str _, _ => trivial
  | .int _, h => h

theorem wholeMembers_of_plain : ∀ {ms : List (String × Json)}, (∀ m ∈ ms, Plain m.2) → WholeMembers ms
  | [], _ => trivial
  | _ :: _, h => ⟨(h _ List.mem_cons_self).whole,
      wholeMembers_of_plain fun m hm => h m (List.mem_cons_of_mem _ hm)⟩

theorem plain_ofOption {α : Type} {write : α → Json} {o : Option α} (h : ∀ a ∈ o, Plain (write a)) :
    Plain (ofOption write o) := by
  cases o with
  | none => trivial
  | some a => exact h a rfl

/-- Every member is a field that is set. -/
def given (ms : List (String × Json)) : List (String × Option Json) := ms.map fun m => (m.1, some m.2)

theorem fst_given (ms : List (String × Json)) : (given ms).map Prod.fst = ms.map Prod.fst := by
  rw [given, List.map_map]
  rfl

theorem ofSet_given (ms : List (String × Json)) : ofSet (given ms) = .obj ms := by
  rw [ofSet, given, List.filterMap_map]
  simp

theorem setMembers_given {ms : List (String × Json)} (h : ∀ m ∈ ms, Plain m.2) :
    setMembers (given ms) = ms := by
  rw [setMembers, given, List.filterMap_map]
  refine (List.filterMap_congr fun m hm => ?_).trans (List.filterMap_some)
  simp [(h m hm).canonical]

/-- An optional field that is written with `null` where it is not set is read as it was. -/
theorem optional_of_ofOption {names : List String} {fields : List (String × Option Json)} {name : String}
    {α : Type} {o : Option α} {write : α → Json} {read : Json → Option α} (hn : name ∈ names)
    (hf : (fields.lookup name).join = some (ofOption write o))
    (hr : ∀ a ∈ o, (write a).canonical ≠ .null ∧ read (write a).canonical = some a) :
    (Record.ofFields names fields).optional name read = some o := by
  simp only [Record.optional, slot_ofFields hn, slotIn, hf]
  cases o with
  | none => rfl
  | some a =>
    obtain ⟨hnull, hread⟩ := hr a rfl
    simp only [ofOption, hread, Option.map_some]

end Json

namespace Job

/-- The numbers of a job have 32 bits, its times are whole seconds in the range of years, and its state is the
    one that its text names. -/
structure InWidth (j : Job) : Prop where
  jobId : j.jobId ≤ maxCount
  nodeCount : ∀ n ∈ j.nodeCount, n ≤ maxCount
  cpus : ∀ n ∈ j.cpus, n ≤ maxCount
  timeLimit : ∀ n ∈ j.timeLimitMinutes, n ≤ maxCount
  priority : ∀ n ∈ j.priority, n ≤ maxCount
  switches : ∀ n ∈ j.requiredSwitches, n ≤ maxCount
  submitTime : ∀ t ∈ j.submitTime, t.Whole
  startTime : ∀ t ∈ j.startTime, t.Whole
  endTime : ∀ t ∈ j.endTime, t.Whole
  exitCode : ∀ n ∈ j.exitCode, -2147483648 ≤ n ∧ n ≤ 2147483647
  state : JobState.parse j.state.toText = j.state

/-- What is written of a job. -/
def members (j : Job) : List (String × Json) := [
  ("job_id", .ofNat j.jobId), ("name", .str j.name),
  ("user_name", .ofOption .str j.userName), ("account", .ofOption .str j.account),
  ("partition", .ofOption .str j.partition), ("qos", .ofOption .str j.qos),
  ("state", j.state.toJson), ("state_reason", .ofOption .str j.stateReason),
  ("nodes", .ofOption .str j.nodes), ("node_count", .ofOption .ofNat j.nodeCount),
  ("cpus", .ofOption .ofNat j.cpus), ("time_limit_minutes", .ofOption .ofNat j.timeLimitMinutes),
  ("priority", .ofOption .ofNat j.priority), ("submit_time", .ofOption .ofTime j.submitTime),
  ("start_time", .ofOption .ofTime j.startTime), ("end_time", .ofOption .ofTime j.endTime),
  ("exit_code", .ofOption .int j.exitCode),
  ("required_switches", .ofOption .ofNat j.requiredSwitches),
  ("working_directory", .ofOption .str j.workingDirectory)]

theorem nodup_members (j : Job) : (j.members.map Prod.fst).Nodup := by
  simp [members]

variable {j : Job}

theorem plain_members (h : j.InWidth) : ∀ m ∈ j.members, m.2.Plain := by
  have htext : ∀ o : Option String, (Json.ofOption .str o).Plain := fun _ =>
    Json.plain_ofOption fun _ _ => trivial
  have htime : ∀ o : Option Timestamp, (Json.ofOption .ofTime o).Plain := fun _ =>
    Json.plain_ofOption fun _ _ => trivial
  have hcount : ∀ {o : Option Nat}, (∀ n ∈ o, n ≤ maxCount) → (Json.ofOption .ofNat o).Plain := fun ho =>
    Json.plain_ofOption fun n hn => (inWord_count (ho n hn)).fits
  have hexit : (Json.ofOption .int j.exitCode).Plain := Json.plain_ofOption fun n hn => by
    obtain ⟨hlow, hhigh⟩ := h.exitCode n hn
    exact InWord.fits ⟨by omega, by omega⟩
  simp only [members, List.forall_mem_cons]
  exact ⟨(inWord_count h.jobId).fits, trivial, htext _, htext _, htext _, htext _, trivial, htext _, htext _,
    hcount h.nodeCount, hcount h.cpus, hcount h.timeLimit, hcount h.priority, htime _, htime _, htime _,
    hexit, hcount h.switches, htext _, by simp⟩

/-! ### Reading -/

section Fields

variable {names : List String} {fields : List (String × Option Json)} {name : String}

theorem optional_text {o : Option String} (hn : name ∈ names)
    (hf : (fields.lookup name).join = some (.ofOption .str o)) :
    (Json.Record.ofFields names fields).optional name Json.readText = some o :=
  Json.optional_of_ofOption hn hf fun s _ => ⟨by simp [Json.canonical], rfl⟩

theorem optional_count {o : Option Nat} (hn : name ∈ names)
    (hf : (fields.lookup name).join = some (.ofOption .ofNat o)) (ho : ∀ n ∈ o, n ≤ maxCount) :
    (Json.Record.ofFields names fields).optional name Json.readNat32 = some o := by
  refine Json.optional_of_ofOption hn hf fun n hn => ?_
  have hplain : (Json.ofNat n).Plain := (inWord_count (ho n hn)).fits
  rw [hplain.canonical]
  exact ⟨by simp [Json.ofNat], Json.readNat32_ofNat (ho n hn)⟩

theorem optional_time {o : Option Timestamp} (hn : name ∈ names)
    (hf : (fields.lookup name).join = some (.ofOption .ofTime o))
    (ho : ∀ t ∈ o, t.Whole) :
    (Json.Record.ofFields names fields).optional name Json.readTime = some o := by
  refine Json.optional_of_ofOption hn hf fun t ht => ?_
  rw [Json.ofTime, Json.canonical]
  · rw [Json.readTime, Json.readText, Option.bind_some, (ho t ht).ofText?_toText]
    exact ⟨by simp, rfl⟩
  all_goals simp

end Fields

theorem readInt32_int {n : Int} (h : -2147483648 ≤ n ∧ n ≤ 2147483647) :
    Json.readInt32 (.int n) = some n := if_pos h

/-- A job is read from what is written of it, in any order. -/
theorem ofJson?_of_perm (h : j.InWidth) {ms : List (String × Json)} (hms : ms.Perm j.members) :
    ofJson? (.obj ms) = some j := by
  have hset : ms.Perm (Json.setMembers (Json.given j.members)) := by
    rw [Json.setMembers_given (plain_members h)]
    exact hms
  have hnodup : ((Json.given j.members).map Prod.fst).Nodup := by
    rw [Json.fst_given]
    exact nodup_members j
  have hid : Json.readNat32 (Json.ofNat j.jobId).canonical = some j.jobId := by
    have hplain : (Json.ofNat j.jobId).Plain := (inWord_count h.jobId).fits
    rw [hplain.canonical, Json.readNat32_ofNat h.jobId]
  have hstate : JobState.ofJson? j.state.toJson.canonical = some j.state := congrArg some h.state
  have hexit : ∀ n ∈ j.exitCode, (Json.int n).canonical ≠ .null ∧
      Json.readInt32 (Json.int n).canonical = some n := fun n hn => by
    have hrange := h.exitCode n hn
    have hplain : (Json.int n).Plain := InWord.fits ⟨by omega, by omega⟩
    rw [hplain.canonical]
    exact ⟨by simp, readInt32_int hrange⟩
  rw [ofJson?]
  refine Option.bind_eq_some_iff.mpr ⟨_, Json.read_of_setMembers hnodup hset _, ?_⟩
  refine Option.bind_eq_some_iff.mpr ⟨j.jobId, Json.required_of_some (by decide) rfl hid, ?_⟩
  refine Option.bind_eq_some_iff.mpr ⟨j.name, Json.required_of_some (by decide) rfl rfl, ?_⟩
  refine Option.bind_eq_some_iff.mpr ⟨j.userName, optional_text (by decide) rfl, ?_⟩
  refine Option.bind_eq_some_iff.mpr ⟨j.account, optional_text (by decide) rfl, ?_⟩
  refine Option.bind_eq_some_iff.mpr ⟨j.partition, optional_text (by decide) rfl, ?_⟩
  refine Option.bind_eq_some_iff.mpr ⟨j.qos, optional_text (by decide) rfl, ?_⟩
  refine Option.bind_eq_some_iff.mpr ⟨j.state, Json.required_of_some (by decide) rfl hstate, ?_⟩
  refine Option.bind_eq_some_iff.mpr ⟨j.stateReason, optional_text (by decide) rfl, ?_⟩
  refine Option.bind_eq_some_iff.mpr ⟨j.nodes, optional_text (by decide) rfl, ?_⟩
  refine Option.bind_eq_some_iff.mpr ⟨j.nodeCount, optional_count (by decide) rfl h.nodeCount, ?_⟩
  refine Option.bind_eq_some_iff.mpr ⟨j.cpus, optional_count (by decide) rfl h.cpus, ?_⟩
  refine Option.bind_eq_some_iff.mpr ⟨j.timeLimitMinutes, optional_count (by decide) rfl h.timeLimit, ?_⟩
  refine Option.bind_eq_some_iff.mpr ⟨j.priority, optional_count (by decide) rfl h.priority, ?_⟩
  refine Option.bind_eq_some_iff.mpr ⟨j.submitTime, optional_time (by decide) rfl h.submitTime, ?_⟩
  refine Option.bind_eq_some_iff.mpr ⟨j.startTime, optional_time (by decide) rfl h.startTime, ?_⟩
  refine Option.bind_eq_some_iff.mpr ⟨j.endTime, optional_time (by decide) rfl h.endTime, ?_⟩
  refine Option.bind_eq_some_iff.mpr ⟨j.exitCode, Json.optional_of_ofOption (by decide) rfl hexit, ?_⟩
  refine Option.bind_eq_some_iff.mpr ⟨j.requiredSwitches, optional_count (by decide) rfl h.switches, ?_⟩
  refine Option.bind_eq_some_iff.mpr ⟨j.workingDirectory, optional_text (by decide) rfl, ?_⟩
  rfl

/-- A job is read from the bytes that it is written as, with its members in their order or sorted. -/
theorem ofBytes?_bind_ofJson? (h : j.InWidth) :
    (Json.ofBytes? (Text.Utf8.encode j.toJson.compress.toList)).bind ofJson? = some j ∧
      (Json.ofBytes? j.toJson.toBytes).bind ofJson? = some j := by
  have hwhole : j.toJson.Whole := Json.wholeMembers_of_plain (plain_members h)
  have hnodup : ((Json.given j.members).map Prod.fst).Nodup := by
    rw [Json.fst_given]
    exact nodup_members j
  constructor
  · rw [Json.ofBytes?_compress hwhole, Option.bind_some]
    exact ofJson?_of_perm h (List.Perm.refl j.members)
  · have hset : Json.ofSet (Json.given j.members) = j.toJson := Json.ofSet_given j.members
    rw [← hset] at hwhole ⊢
    obtain ⟨ms, hbytes, hperm⟩ := Json.ofBytes?_ofSet hnodup hwhole
    rw [Json.setMembers_given (plain_members h)] at hperm
    rw [hbytes, Option.bind_some, ofJson?_of_perm h hperm]

end Job

end SlurmLink
