import SlurmLink.Proofs.JobText
import SlurmLink.Proofs.Paging
import SlurmLink.Proofs.TextList
import SlurmLink.Watch.Diff
import SlurmLink.Watch.Subject

/-!
The state of a job and the texts that name it. A text is trimmed and put in upper case before it is compared
with the names of states, and what is no such name is kept in this form:

    " Running"  "RUNNING"  "running\n"        " odd "
          └──────────┼──────────┘                │
                 RUNNING                        ODD      normalize
                     │                           │
                 .running                   .other "ODD"       parse

So the text of a state that was parsed is its normal form (`toText_parse`), and everything else follows from
this: parsing again changes nothing, two texts name one state just if they differ at most in case and in the
blanks around (`parse_eq_iff`, `normalize_eq_iff`), and a state can be compared by its text. What the server
sends for a job is told from its record alone (`Job.firstState`).
-/

namespace SlurmLink

namespace Text

/-! ### Words up to case and blanks -/

theorem small_letters : ∀ n : Fin 26, isBlank (Char.ofNat (97 + n)) = false ∧
    isBlank (Char.ofNat (97 + n)).toUpper = false ∧
    (Char.ofNat (97 + n)).toUpper.toUpper = (Char.ofNat (97 + n)).toUpper := by
  decide

/-- Upper case changes the small letters only. -/
theorem toUpper_cases (c : Char) : c.toUpper = c ∨ ∃ n : Fin 26, c = Char.ofNat (97 + n) := by
  by_cases h : 97 ≤ c.toNat ∧ c.toNat ≤ 122
  · refine Or.inr ⟨⟨c.toNat - 97, by omega⟩, ?_⟩
    rw [show 97 + (c.toNat - 97) = c.toNat by omega, Char.ofNat_toNat]
  · exact Or.inl (dif_neg h)

theorem toUpper_toUpper (c : Char) : c.toUpper.toUpper = c.toUpper := by
  rcases toUpper_cases c with h | ⟨n, rfl⟩
  · rw [h, h]
  · exact (small_letters n).2.2

theorem isBlank_toUpper (c : Char) : isBlank c.toUpper = isBlank c := by
  rcases toUpper_cases c with h | ⟨n, rfl⟩
  · rw [h]
  · rw [(small_letters n).1, (small_letters n).2.1]

/-- Trimming and upper case do not get in each other's way. -/
theorem trim_map_toUpper (cs : List Char) : trim (cs.map Char.toUpper) = (trim cs).map Char.toUpper := by
  have hblank : isBlank ∘ Char.toUpper = isBlank := funext isBlank_toUpper
  simp only [trim, dropTrailing, List.dropWhile_map, hblank, ← List.map_reverse]

theorem sameLetters_iff (a b : String) : sameLetters a b = true ↔ upper a = upper b := by
  rw [sameLetters, beq_iff_eq]

/-- Two texts differ at most in the case of the letters `A` to `Z` and in the blanks around. -/
def Alike (s t : String) : Prop :=
  ∃ word word' : String, sameLetters word word' = true ∧ Pads word.toList s.toList ∧
    Pads word'.toList t.toList

end Text

namespace JobState

open Text

theorem toList_normalize (s : String) :
    (normalize s).toList = (trim s.toList).map Char.toUpper := by
  rw [normalize, upper, String.toList_ofList, String.toList_ofList]

theorem normalize_normalize (s : String) : normalize (normalize s) = normalize s := by
  rw [← String.toList_inj, toList_normalize, toList_normalize, trim_map_toUpper,
    (trimmed_trim _).trim_eq, List.map_map]
  exact List.map_congr_left fun c _ => toUpper_toUpper c

/-- Two texts are the same once they are trimmed and in upper case just if they differ at most in case and in
    the blanks around. -/
theorem normalize_eq_iff (s t : String) : normalize s = normalize t ↔ Alike s t := by
  constructor
  · intro h
    refine ⟨String.ofList (trim s.toList), String.ofList (trim t.toList), ?_, ?_, ?_⟩
    · rw [sameLetters_iff]
      exact h
    · rw [String.toList_ofList]
      exact pads_trim _
    · rw [String.toList_ofList]
      exact pads_trim _
  · rintro ⟨word, word', hletters, hs, ht⟩
    have hletters : word.toList.map Char.toUpper = word'.toList.map Char.toUpper := by
      have h := congrArg String.toList ((sameLetters_iff ..).mp hletters)
      rwa [upper, upper, String.toList_ofList, String.toList_ofList] at h
    rw [← String.toList_inj, toList_normalize, toList_normalize, hs.trim_eq, ht.trim_eq, ← trim_map_toUpper,
      ← trim_map_toUpper, hletters]

/-! ### Parsing -/

/-- The table of names and the table of states agree. -/
theorem toText_ofName (name : String) : (ofName name).toText = name := by
  fun_cases ofName name <;> rfl

theorem toText_parse (s : String) : (parse s).toText = normalize s := toText_ofName _

theorem parse_eq_iff (s t : String) : parse s = parse t ↔ normalize s = normalize t := by
  constructor
  · intro h
    rw [← toText_parse, h, toText_parse]
  · intro h
    rw [parse, h, ← parse]

theorem parse_toText_parse (s : String) : parse (parse s).toText = parse s := by
  rw [parse_eq_iff, toText_parse, normalize_normalize]

/-- The states that some text is parsed as are told apart by their texts. -/
theorem toText_parse_inj (s t : String) : (parse s).toText = (parse t).toText ↔ parse s = parse t := by
  rw [toText_parse, toText_parse, parse_eq_iff]

theorem parse_unknown : parse "UNKNOWN" = .other "UNKNOWN" := by decide

end JobState

namespace Job

/-! ### States that the server sends -/

/-- The texts that a value lists: an array of them, or one text with commas between them. -/
def textsIn : Json → List String
  | .str s => (Text.splitList s.toList).map String.ofList
  | .arr items => items.filterMap Json.text?
  | _ => []

/-- The states that a record gives for its job. -/
def statesIn : Json → List String
  | .obj members => ((members.find? fun m => m.1 == "job_state").map fun m => textsIn m.2).getD []
  | .arr items => (items[6]?.map textsIn).getD []
  | _ => []

/-- The first of the states; a job without any counts as unknown. -/
def firstState (v : Json) : String := (statesIn v).head?.getD "UNKNOWN"

theorem filterMap_of_mapM {α β : Type} {f : α → Option β} : ∀ {xs : List α} {ys : List β},
    xs.mapM f = some ys → xs.filterMap f = ys
  | [], _, h => by
    cases h
    rfl
  | x :: xs, _, h => by
    rw [List.mapM_cons] at h
    obtain ⟨y, hy, h⟩ := Option.bind_eq_some_iff.mp h
    obtain ⟨ys, hys, h⟩ := Option.bind_eq_some_iff.mp h
    cases h
    rw [List.filterMap_cons_some hy, filterMap_of_mapM hys]

theorem textsIn_of_readTexts {level : Nat} {v : Json} {texts : List String}
    (h : Json.readTexts level v = some texts) : textsIn v = texts := by
  rw [Json.readTexts.eq_def] at h
  split at h
  · cases h
  · cases v with
    | str s =>
      cases h
      rfl
    | null =>
      cases h
      rfl
    | arr items => exact filterMap_of_mapM h
    | _ => cases h

/-- What a slot says of a list of texts. -/
def slotTexts : Json.Slot → List String
  | .given v => textsIn v
  | _ => []

theorem slotTexts_of_withDefault {r : Json.Record} {name : String} {level : Nat} {texts : List String}
    (h : r.withDefault name [] (Json.readTexts level) = some texts) : slotTexts (r.slot name) = texts := by
  rw [Json.Record.withDefault] at h
  cases hslot : r.slot name with
  | given v =>
    rw [hslot] at h
    exact textsIn_of_readTexts h
  | absent =>
    rw [hslot] at h
    exact Option.some.inj h
  | beyond =>
    rw [hslot] at h
    exact Option.some.inj h

theorem slotTexts_of_slotOf {members : List (String × Json)} {name : String} {slot : Json.Slot}
    (h : Json.Record.slotOf members name = some slot) :
    slotTexts slot = ((members.find? fun m => m.1 == name).map fun m => textsIn m.2).getD [] := by
  rw [← List.head?_filter]
  rw [Json.Record.slotOf] at h
  split at h
  · next hnone =>
    cases h
    rw [hnone]
    rfl
  · next m hone =>
    cases h
    rw [hone]
    rfl
  · cases h

/-- An array has the value of a field at the place of its name. -/
theorem lookup_positional : ∀ {names : List String} {items : List Json}
    {slots : List (String × Json.Slot)} {i : Nat} {name : String},
    Json.Record.positional names items = some slots → names.Nodup → names[i]? = some name →
      slots.lookup name = some ((items[i]?.map Json.Slot.given).getD .beyond)
  | [], _, _, _, _, _, _, hi => by cases hi
  | first :: names, items, slots, i, name, h, hnodup, hi => by
    obtain ⟨hfirst, hnodup⟩ := List.nodup_cons.mp hnodup
    -- the slot of the first name, and those of the others
    obtain ⟨rest, hrest, rfl⟩ : ∃ rest, Json.Record.positional names items.tail = some rest ∧
        slots = (first, (items.head?.map Json.Slot.given).getD .beyond) :: rest := by
      cases items with
      | nil =>
        obtain ⟨rest, hrest, rfl⟩ := Option.map_eq_some_iff.mp h
        exact ⟨rest, hrest, rfl⟩
      | cons v vs =>
        obtain ⟨rest, hrest, rfl⟩ := Option.map_eq_some_iff.mp h
        exact ⟨rest, hrest, rfl⟩
    cases i with
    | zero =>
      cases hi
      rw [List.lookup_cons_self, List.head?_eq_getElem?]
    | succ i =>
      have hne : name ≠ first := fun he => hfirst (he ▸ List.mem_of_getElem? hi)
      rw [List.lookup_cons, beq_eq_false_iff_ne.mpr hne, lookup_positional hrest hnodup hi,
        List.getElem?_tail]

variable {v : Json} {j : Job}

/-- The state of a job is the first that its record gives. -/
theorem state_of_ofWire (h : ofWire v = some (some j)) : j.state = .parse (firstState v) := by
  rw [ofWire] at h
  obtain ⟨r, hr, h⟩ := Option.bind_eq_some_iff.mp h
  -- The other fields have no part in it.
  iterate 6 obtain ⟨_, -, h⟩ := Option.bind_eq_some_iff.mp h
  obtain ⟨states, hstates, h⟩ := Option.bind_eq_some_iff.mp h
  iterate 12 obtain ⟨_, -, h⟩ := Option.bind_eq_some_iff.mp h
  obtain ⟨id, -, rfl⟩ := Option.map_eq_some_iff.mp (Option.some.inj h)
  have hin : statesIn v = states := by
    rw [← slotTexts_of_withDefault hstates]
    cases v with
    | obj members =>
      rw [Json.withAlias_obj] at hr
      have hslot : Json.Record.slotOf _ "job_state" = some (r.slot "job_state") :=
        Json.slotOf_of_read hr (by decide)
      rw [Json.Record.slotOf, Json.filter_renamed (by decide) (by decide)] at hslot
      exact (slotTexts_of_slotOf hslot).symm
    | arr items =>
      obtain ⟨slots, hslots, rfl⟩ := Option.map_eq_some_iff.mp hr
      have hslot := lookup_positional (i := 6) hslots (by decide) rfl
      rw [Json.Record.slot, hslot, statesIn]
      cases items[6]? <;> rfl
    | _ => cases hr
  rw [firstState, hin]
  cases states with
  | nil => rw [List.head?_nil, Option.map_none, Option.getD_none, Option.getD_none, JobState.parse_unknown]
  | cons s states => rw [List.head?_cons, Option.map_some, Option.getD_some, Option.getD_some]

/-! ### Jobs that the server sends -/

theorem natUpTo?_le {limit n : Nat} (h : v.natUpTo? limit = some n) : n ≤ limit := by
  cases v with
  | int k =>
    obtain ⟨hk, he⟩ := Option.ite_none_right_eq_some.mp h
    cases he
    omega
  | _ => cases h

theorem nat32?_le {q : Option Quantity} {n : Nat} (h : Quantity.nat32? q = some n) : n ≤ maxCount := by
  obtain ⟨q, -, h⟩ := Option.bind_eq_some_iff.mp h
  obtain ⟨k, -, h⟩ := Option.bind_eq_some_iff.mp h
  obtain ⟨hk, he⟩ := Option.ite_none_right_eq_some.mp h
  cases he
  rw [maxCount]
  omega

theorem int32?_range {q : Option Quantity} {n : Int} (h : Quantity.int32? q = some n) :
    -2147483648 ≤ n ∧ n ≤ 2147483647 := by
  obtain ⟨k, -, h⟩ := Option.bind_eq_some_iff.mp h
  obtain ⟨hk, he⟩ := Option.ite_none_right_eq_some.mp h
  cases he
  exact hk

theorem time?_whole {q : Option Quantity} {t : Timestamp} (h : Quantity.time? q = some t) : t.Whole := by
  obtain ⟨k, -, h⟩ := Option.bind_eq_some_iff.mp h
  obtain ⟨-, h⟩ := Option.ite_none_right_eq_some.mp h
  obtain ⟨hrange, he⟩ := Option.ite_none_right_eq_some.mp h
  cases he
  exact ⟨rfl, hrange⟩

theorem setting_readNat32_le {r : Json.Record} {name : String} {n : Nat}
    (h : r.setting name Json.readNat32 = some (some n)) : n ≤ maxCount := by
  rw [Json.Record.setting] at h
  split at h
  · cases h
  · obtain ⟨k, hk, he⟩ := Option.map_eq_some_iff.mp h
    cases he
    exact natUpTo?_le hk
  · cases h

/-- What the server sends of a job can be written and read again. -/
theorem inWidth_of_ofWire (h : ofWire v = some (some j)) : j.InWidth := by
  have hstate := state_of_ofWire h
  rw [ofWire] at h
  obtain ⟨r, -, h⟩ := Option.bind_eq_some_iff.mp h
  obtain ⟨jobId, hid, h⟩ := Option.bind_eq_some_iff.mp h
  iterate 18 obtain ⟨_, -, h⟩ := Option.bind_eq_some_iff.mp h
  obtain ⟨id, rfl, rfl⟩ := Option.map_eq_some_iff.mp (Option.some.inj h)
  exact {
    jobId := setting_readNat32_le hid
    nodeCount := fun _ => nat32?_le, cpus := fun _ => nat32?_le, timeLimit := fun _ => nat32?_le
    priority := fun _ => nat32?_le, switches := fun _ => nat32?_le
    submitTime := fun _ => time?_whole, startTime := fun _ => time?_whole, endTime := fun _ => time?_whole
    exitCode := fun _ => int32?_range
    state := by rw [hstate, JobState.parse_toText_parse] }

end Job

namespace JobState

open Text

variable {v v' : Json} {j j' : Job}

/-! ### Watches -/

/-- A watch tells the states of jobs apart by their texts. -/
theorem watched_eq_iff (h : Job.ofWire v = some (some j)) (h' : Job.ofWire v' = some (some j'))
    (filter : JobFilter) :
    (Subject.jobs filter).state j = (Subject.jobs filter).state j' ↔ j.state = j'.state := by
  rw [Job.state_of_ofWire h, Job.state_of_ofWire h', ← toText_parse_inj, ← Job.state_of_ofWire h,
    ← Job.state_of_ofWire h']
  exact Iff.rfl

/-- A known job makes an event just if it is in another state. -/
theorem ofItem_known (h : Job.ofWire v = some (some j)) (h' : Job.ofWire v' = some (some j'))
    (filter : JobFilter) (baseline : Bool) {known : Known}
    (hknown : known.lookup ((Subject.jobs filter).key j') = some ((Subject.jobs filter).state j)) :
    WatchEvent.ofItem (Subject.jobs filter).key (Subject.jobs filter).state baseline known j' =
      if j.state = j'.state then none else some (.changed ((Subject.jobs filter).state j) j') := by
  rw [WatchEvent.ofItem, hknown]
  simp only [watched_eq_iff h h' filter]

/-! ### Filters -/

instance (s t : String) : Decidable (Alike s t) :=
  decidable_of_iff _ (normalize_eq_iff s t)

theorem mem_map_parse_iff (h : Job.ofWire v = some (some j)) (texts : List String) :
    j.state ∈ texts.map parse ↔ ∃ text ∈ texts, Alike text (Job.firstState v) := by
  simp only [List.mem_map, Job.state_of_ofWire h, parse_eq_iff, normalize_eq_iff]

/-- A filter of parsed states wants a job if one of its texts names the first state of the job's record. -/
theorem matches_iff (h : Job.ofWire v = some (some j)) {f : JobFilter} {texts : List String}
    (hf : f.states = texts.map parse) :
    f.Matches j ↔ JobFilter.Matches { f with states := [] } j ∧
      (texts = [] ∨ ∃ text ∈ texts, Alike text (Job.firstState v)) := by
  rw [← mem_map_parse_iff h]
  simp only [JobFilter.Matches, hf, List.map_eq_nil_iff, true_or, and_true, and_assoc]

/-- The records of which one of the texts names the first state. -/
def named? (texts : List String) (record : Json) : Bool :=
  decide (∃ text ∈ texts, Alike text (Job.firstState record))

/-- The jobs that a filter of parsed states lists are read from the records whose first state it names. -/
theorem exists_listed {r : Response} {jobs : List Job} (hv : Json.ofBytes? r.body = some v)
    (hjobs : Job.listOfWire v = some jobs) {texts : List String} (htexts : texts ≠ []) (s : Session) :
    ∃ wanted, List.Forall₂ (fun record job => Job.ofWire record = some (some job))
        (((v.recordsIn "jobs").filter Job.hasId).filter (named? texts)) wanted ∧
      ∀ o p, Command.ListsJobs s { states := texts.map parse } r o p ↔ p = Page.slice wanted o := by
  refine ⟨_, ?_, fun o p => Command.listsJobs_iff hv hjobs⟩
  refine List.rel_filter (fun record job hread => ?_) (Job.forall₂_of_listOfWire hjobs)
  have hall : JobFilter.Matches {} job := by simp [JobFilter.Matches]
  have hnamed : named? texts record = true ↔ JobFilter.Matches { states := texts.map parse } job := by
    rw [named?, decide_eq_true_iff, matches_iff hread rfl]
    simp only [hall, htexts, true_and, false_or]
  exact hnamed.trans decide_eq_true_iff.symm

/-- The state of a job is stable. Parsing the text of a parsed state gives the same state, blanks around a
    text and the case of its letters make no difference, and two texts are parsed as one state just if they
    are the same once they are trimmed and in upper case. A job that was read from the server comes back as
    it was when it is written and read again. A watch sees a known job in another state just if the parsed
    state is another one. And a filter of parsed states lists just the jobs whose first state on the wire
    differs from one of its texts at most in case and in the blanks around, where a job without any state
    counts as unknown. -/
theorem parse_stable :
    (∀ s, parse (parse s).toText = parse s) ∧
    (∀ before s after, (∀ c ∈ before, isBlank c = true) → (∀ c ∈ after, isBlank c = true) →
      parse (String.ofList (before ++ s.toList ++ after)) = parse s) ∧
    (∀ s t, sameLetters s t = true → parse s = parse t) ∧
    (∀ s t, parse s = parse t ↔
      upper (String.ofList (trim s.toList)) = upper (String.ofList (trim t.toList))) ∧
    (∀ v j, Job.ofWire v = some (some j) →
      (Json.ofBytes? (Utf8.encode j.toJson.compress.toList)).bind Job.ofJson? = some j ∧
      (Json.ofBytes? j.toJson.toBytes).bind Job.ofJson? = some j) ∧
    (∀ v v' j j' filter, Job.ofWire v = some (some j) → Job.ofWire v' = some (some j') →
      ((Subject.jobs filter).state j = (Subject.jobs filter).state j' ↔ j.state = j'.state) ∧
      ∀ baseline known, known.lookup ((Subject.jobs filter).key j') = some ((Subject.jobs filter).state j) →
        WatchEvent.ofItem (Subject.jobs filter).key (Subject.jobs filter).state baseline known j' =
          if j.state = j'.state then none else some (.changed ((Subject.jobs filter).state j) j')) ∧
    (∀ (f : JobFilter) texts v j, f.states = texts.map parse → Job.ofWire v = some (some j) →
      (f.accepts j = true ↔ JobFilter.accepts { f with states := [] } j = true ∧
        (texts = [] ∨ ∃ text ∈ texts, Alike text (Job.firstState v)))) ∧
    ∀ s r v jobs texts, Json.ofBytes? r.body = some v → Job.listOfWire v = some jobs → texts ≠ [] →
      ∃ wanted, List.Forall₂ (fun record job => Job.ofWire record = some (some job))
          (((v.recordsIn "jobs").filter Job.hasId).filter (named? texts)) wanted ∧
        ∀ o p, Command.ListsJobs s { states := texts.map parse } r o p ↔ p = Page.slice wanted o := by
  refine ⟨parse_toText_parse, fun before s after hbefore hafter => ?_, fun s t h => ?_, parse_eq_iff,
    fun v j h => Job.ofBytes?_bind_ofJson? (Job.inWidth_of_ofWire h),
    fun v v' j j' filter h h' => ⟨watched_eq_iff h h' filter, fun baseline known =>
      ofItem_known h h' filter baseline⟩,
    fun f texts v j hf h => ?_,
    fun s r v jobs texts hv hjobs htexts => exists_listed hv hjobs htexts s⟩
  · rw [parse_eq_iff, normalize, normalize, String.toList_ofList, trim_around hbefore hafter]
  · exact (parse_eq_iff s t).mpr ((normalize_eq_iff s t).mpr ⟨s, t, h, pads_self _, pads_self _⟩)
  · rw [JobFilter.accepts_iff, JobFilter.accepts_iff, matches_iff h hf]

/-- The record of a job of which the state and a time are given. -/
def spelled : Json :=
  .obj [("job_id", .int 7), ("job_state", .str " running,completing"), ("submit_time", .int 1709251199)]

/-- A record of the same job in another shape. -/
def listed : Json := .obj [("job_id", .int 7), ("job_state", .arr [.str "RUNNING"])]

/-- The job that these records are about. -/
def runningJob (submitTime : Option Timestamp) : Job :=
  { (default : Job) with jobId := 7, state := .running, submitTime }

/-- The job in both shapes, one without a state, and one that waits. -/
def mixedMessage : Json := .obj [("jobs", .arr [spelled, listed, .obj [("job_id", .int 9)],
  .obj [("job_id", .int 10), ("job_state", .str "pending")]])]

def mixedQueue : Response := ⟨200, Utf8.encode mixedMessage.compress.toList⟩

/-- Blanks and small letters around a state; and the two records of a job that runs and one in no known
    state. -/
theorem parse_stable_mixed :
    parse (parse "\tNode_Fail").toText = parse "\tNode_Fail" ∧
    parse (String.ofList (['\t'] ++ "Node_Fail".toList ++ [])) = parse "Node_Fail" ∧
    sameLetters "Node_Fail" "NODE_FAIL" = true ∧ parse "Node_Fail" = parse "NODE_FAIL" ∧
    Job.ofWire spelled = some (some (runningJob (some ⟨1709251199, 0⟩))) ∧
    Job.ofWire listed = some (some (runningJob none)) ∧
    (Json.ofBytes? (runningJob (some ⟨1709251199, 0⟩)).toJson.toBytes).bind Job.ofJson? =
      some (runningJob (some ⟨1709251199, 0⟩)) ∧
    WatchEvent.ofItem (Subject.jobs {}).key (Subject.jobs {}).state false [("7", "RUNNING")]
      (runningJob none) = none ∧
    JobFilter.accepts { states := ["Running"].map parse } (runningJob none) = true ∧
    ∃ jobs, Json.ofBytes? mixedQueue.body = some mixedMessage ∧ Job.listOfWire mixedMessage = some jobs ∧
      ∃ wanted : List Job, wanted.length = 3 ∧ ∀ o p,
        Command.ListsJobs ⟨0, .v42, "http://hub", none⟩ { states := ["Running ", "unknown"].map parse }
          mixedQueue o p ↔ p = Page.slice wanted o := by
  obtain ⟨hagain, hblanks, hletters, -, hwritten, hwatched, hfilter, hlists⟩ := parse_stable
  have hcase : sameLetters "Node_Fail" "NODE_FAIL" = true := by decide
  have hspelled : Job.ofWire spelled = some (some (runningJob (some ⟨1709251199, 0⟩))) := by
    decide +kernel
  have hlisted : Job.ofWire listed = some (some (runningJob none)) := by decide +kernel
  obtain ⟨-, hevent⟩ := hwatched _ _ _ _ {} hspelled hlisted
  have hfirst : ∃ text ∈ ["Running"], Alike text (Job.firstState listed) := by decide +kernel
  have hwanted := (hfilter { states := ["Running"].map parse } ["Running"] _ _ rfl hlisted).mpr
    ⟨rfl, Or.inr hfirst⟩
  have hwhole : mixedMessage.Whole := by
    simp only [mixedMessage, spelled, listed, Json.Whole, Json.WholeMembers, Json.WholeList]
    decide
  have hbody : Json.ofBytes? mixedQueue.body = some mixedMessage := by
    simp only [mixedQueue]
    exact Json.ofBytes?_compress hwhole
  have hread : (Job.listOfWire mixedMessage).isSome = true := by decide +kernel
  obtain ⟨jobs, hjobs⟩ := Option.isSome_iff_exists.mp hread
  have hthree : (((mixedMessage.recordsIn "jobs").filter Job.hasId).filter
      (named? ["Running ", "unknown"])).length = 3 := by decide +kernel
  obtain ⟨wanted, hfrom, hpages⟩ := hlists ⟨0, .v42, "http://hub", none⟩ mixedQueue mixedMessage jobs
    ["Running ", "unknown"] hbody hjobs (List.cons_ne_nil _ _)
  have htab := hblanks ['\t'] "Node_Fail" [] (List.forall_mem_singleton.mpr rfl) (List.forall_mem_nil _)
  exact ⟨hagain _, htab, hcase, hletters _ _ hcase, hspelled, hlisted, (hwritten _ _ hspelled).2,
    hevent false _ (by decide), hwanted, jobs, hbody, hjobs, wanted, hfrom.length_eq ▸ hthree, hpages⟩

end JobState

end SlurmLink
