import SlurmLink.Proofs.Document

/-!
What the body of a change says. A change of a job or a node that passes its check is sent as an object
with one member for each field that is set; what is not set is not named, so it stays as it is:

    change ──validate──▶ description ──toBytes──▶ { "time_limit": …, "hold": … }

Nothing is lost on the way: the members tell which change it was (`Command.updates_exact`). Only the state
of a node comes in upper case, the same in which its check compares it, so no node is taken out of service
without a reason.
-/

namespace SlurmLink

theorem checked_eq_ok_iff {check : Except Rejection Unit} {d v : Json} :
    (do check; return d : Except Rejection Json) = .ok v ↔ check = .ok () ∧ v = d := by
  cases check with
  | error e => simp [bind, Except.bind]
  | ok u => simp [bind, Except.bind, pure, Except.pure, eq_comm]

/-! ### Changes of jobs -/

namespace JobUpdate

variable {u : JobUpdate}

/-- The numbers of a change have 32 bits. -/
structure InWidth (u : JobUpdate) : Prop where
  timeLimit : ∀ n ∈ u.timeLimitMinutes, n ≤ maxCount
  priority : ∀ n ∈ u.priority, n ≤ maxCount

/-- The names of the fields that are set. -/
def setNames (u : JobUpdate) : List String :=
  Json.namesOf [("name", u.name.isSome), ("partition", u.partition.isSome), ("qos", u.qos.isSome),
    ("comment", u.comment.isSome), ("time_limit", u.timeLimitMinutes.isSome),
    ("priority", u.priority.isSome), ("hold", u.hold.isSome)]

/-- The fields that a change may have. -/
def fieldNames : List String := ["name", "partition", "qos", "comment", "time_limit", "priority", "hold"]

/-- Reads what the members of a change say. -/
def ofDescription? (v : Json) : Option JobUpdate := do
  let r ← Json.Record.read fieldNames v
  let name ← r.setting "name" Json.readText
  let partition ← r.setting "partition" Json.readText
  let qos ← r.setting "qos" Json.readText
  let comment ← r.setting "comment" Json.readText
  let timeLimit ← r.setting "time_limit" (Quantity.read 1)
  let priority ← r.setting "priority" (Quantity.read 1)
  let hold ← r.setting "hold" Json.readBool
  return {
    name, partition, qos, comment, hold
    timeLimitMinutes := Quantity.nat32? timeLimit
    priority := Quantity.nat32? priority }

/-- What the members of a change's body say: something, one thing for each field that is set, and just
    what was asked for. -/
structure Tells (u : JobUpdate) (members : List (String × Json)) : Prop where
  nonempty : members ≠ []
  names : (members.map Prod.fst).Perm u.setNames
  values : ofDescription? (.obj members) = some u

def fields (u : JobUpdate) : List (String × Option Json) := [
  ("name", u.name.map .str),
  ("partition", u.partition.map .str),
  ("qos", u.qos.map .str),
  ("comment", u.comment.map .str),
  ("time_limit", u.timeLimitMinutes.map .ofQuantity),
  ("priority", u.priority.map .ofQuantity),
  ("hold", u.hold.map .bool)]

/-- The record that is read from the members of a change. -/
def record (u : JobUpdate) : Json.Record := .ofFields fieldNames u.fields

theorem nodup_fields (u : JobUpdate) : (u.fields.map Prod.fst).Nodup := by simp [fields]

theorem body_eq_ok_iff {v : Json} : u.body = .ok v ↔ u.validate = .ok () ∧ v = u.description :=
  checked_eq_ok_iff

theorem whole_description (hw : u.InWidth) : u.description.Whole := by
  refine Json.whole_ofSet fun m hm => ?_
  simp only [List.mem_cons, List.not_mem_nil, or_false] at hm
  rcases hm with rfl | rfl | rfl | rfl | rfl | rfl | rfl
  · exact whole_map fun _ _ => trivial
  · exact whole_map fun _ _ => trivial
  · exact whole_map fun _ _ => trivial
  · exact whole_map fun _ _ => trivial
  · exact whole_map fun n hn => whole_quantity (inWord_count (hw.timeLimit n hn))
  · exact whole_map fun n hn => whole_quantity (inWord_count (hw.priority n hn))
  · exact whole_map fun _ _ => trivial

theorem perm_setNames {members : List (String × Json)} (h : members.Perm (Json.setMembers u.fields)) :
    (members.map Prod.fst).Perm u.setNames :=
  Json.perm_namesOf h (by simp only [fields, List.map_cons, List.map_nil, Option.isSome_map])

/-- The members of a change are read as that change, in whatever order they are. -/
theorem ofDescription?_of_perm {members : List (String × Json)} (hw : u.InWidth)
    (hmembers : members.Perm (Json.setMembers u.fields)) :
    ofDescription? (.obj members) = some u := by
  have hread : Json.Record.read fieldNames (.obj members) = some u.record :=
    Json.read_of_setMembers u.nodup_fields hmembers _
  have hname : u.record.setting "name" Json.readText = some u.name := setting_text (by decide) rfl
  have hpartition : u.record.setting "partition" Json.readText = some u.partition :=
    setting_text (by decide) rfl
  have hqos : u.record.setting "qos" Json.readText = some u.qos := setting_text (by decide) rfl
  have hcomment : u.record.setting "comment" Json.readText = some u.comment :=
    setting_text (by decide) rfl
  have htime : u.record.setting "time_limit" (Quantity.read 1) =
      some (u.timeLimitMinutes.map fun n : Nat => .ofInt n) :=
    setting_quantity (by decide) (by decide) rfl fun n hn => inWord_count (hw.timeLimit n hn)
  have hpriority : u.record.setting "priority" (Quantity.read 1) =
      some (u.priority.map fun n : Nat => .ofInt n) :=
    setting_quantity (by decide) (by decide) rfl fun n hn => inWord_count (hw.priority n hn)
  have hhold : u.record.setting "hold" Json.readBool = some u.hold :=
    Json.setting_of_eq (by decide) rfl fun b _ => ⟨by simp [Json.canonical], rfl⟩
  simp only [ofDescription?, hread, bind, Option.bind_some, hname, hpartition, hqos, hcomment, htime,
    hpriority, hhold, Quantity.nat32?_map hw.timeLimit, Quantity.nat32?_map hw.priority]
  rfl

/-- A change without members would be none, and is refused. -/
theorem members_ne_nil {members : List (String × Json)} (hv : u.validate = .ok ())
    (h : ofDescription? (.obj members) = some u) : members ≠ [] := by
  rintro rfl
  have hnone : ofDescription? (.obj []) = some {} := rfl
  obtain rfl : {} = u := Option.some.inj (hnone.symm.trans h)
  cases hv

theorem ofBytes?_body {v : Json} (hw : u.InWidth) (h : u.body = .ok v) :
    ∃ members, Json.ofBytes? v.toBytes = some (.obj members) ∧
      members.Perm (Json.setMembers u.fields) := by
  rw [(body_eq_ok_iff.mp h).2]
  exact Json.ofBytes?_ofSet u.nodup_fields (whole_description hw)

end JobUpdate

/-! ### Changes of nodes -/

namespace NodeUpdate

variable {u : NodeUpdate}

/-- The names of the fields that are set. -/
def setNames (u : NodeUpdate) : List String :=
  Json.namesOf [("state", u.state.isSome), ("reason", u.reason.isSome),
    ("features", u.features.isSome), ("comment", u.comment.isSome)]

/-- The fields that a change may have. -/
def fieldNames : List String := ["state", "reason", "features", "comment"]

/-- Reads a state that is written as a list of one text. -/
def readState (v : Json) : Option String :=
  match Json.readTexts 1 v with
  | some [state] => some state
  | _ => none

/-- Reads what the members of a change say. -/
def ofDescription? (v : Json) : Option NodeUpdate := do
  let r ← Json.Record.read fieldNames v
  let state ← r.setting "state" readState
  let reason ← r.setting "reason" Json.readText
  let features ← r.setting "features" (Json.readTexts 1)
  let comment ← r.setting "comment" Json.readText
  return { state, reason, features, comment }

/-- A change as it is sent: with its state in upper case. -/
def sent (u : NodeUpdate) : NodeUpdate := { u with state := u.state.map Text.upper }

/-- What the members of a change's body say: something, one thing for each field that is set, and just
    what was asked for. -/
structure Tells (u : NodeUpdate) (members : List (String × Json)) : Prop where
  nonempty : members ≠ []
  names : (members.map Prod.fst).Perm u.setNames
  values : ofDescription? (.obj members) = some u.sent
  /-- A node is not taken out of service without a word. -/
  reason : ∀ state ∈ ["DRAIN", "DOWN"], ("state", .ofTexts [state]) ∈ members →
    ∃ reason : String, ("reason", .str reason) ∈ members ∧ ∃ c ∈ reason.toList, Text.isBlank c = false

def fields (u : NodeUpdate) : List (String × Option Json) := [
  ("state", u.state.map fun s => .ofTexts [Text.upper s]),
  ("reason", u.reason.map .str),
  ("features", u.features.map .ofTexts),
  ("comment", u.comment.map .str)]

/-- The record that is read from the members of a change. -/
def record (u : NodeUpdate) : Json.Record := .ofFields fieldNames u.fields

theorem nodup_fields (u : NodeUpdate) : (u.fields.map Prod.fst).Nodup := by simp [fields]

theorem body_eq_ok_iff {v : Json} : u.body = .ok v ↔ u.validate = .ok () ∧ v = u.description :=
  checked_eq_ok_iff

theorem whole_description (u : NodeUpdate) : u.description.Whole := by
  refine Json.whole_ofSet fun m hm => ?_
  simp only [List.mem_cons, List.not_mem_nil, or_false] at hm
  rcases hm with rfl | rfl | rfl | rfl
  · exact whole_map fun s _ => Json.wholeList_map_str [Text.upper s]
  · exact whole_map fun _ _ => trivial
  · exact whole_map fun features _ => Json.wholeList_map_str features
  · exact whole_map fun _ _ => trivial

theorem perm_setNames {members : List (String × Json)} (h : members.Perm (Json.setMembers u.fields)) :
    (members.map Prod.fst).Perm u.setNames :=
  Json.perm_namesOf h (by simp only [fields, List.map_cons, List.map_nil, Option.isSome_map])

/-- The members of a change are read as the change that was sent, in whatever order they are. -/
theorem ofDescription?_of_perm {members : List (String × Json)}
    (hmembers : members.Perm (Json.setMembers u.fields)) :
    ofDescription? (.obj members) = some u.sent := by
  have hread : Json.Record.read fieldNames (.obj members) = some u.record :=
    Json.read_of_setMembers u.nodup_fields hmembers _
  have hstate : u.record.setting "state" readState = some (u.state.map Text.upper) := by
    refine Json.setting_ofFields (by decide) rfl fun s _ => ?_
    refine ⟨by simp [Json.ofTexts, Json.canonical], ?_⟩
    rw [readState, readTexts_ofTexts (by decide)]
  have hreason : u.record.setting "reason" Json.readText = some u.reason := setting_text (by decide) rfl
  have hfeatures : u.record.setting "features" (Json.readTexts 1) = some u.features :=
    Json.setting_of_eq (by decide) rfl fun features _ =>
      ⟨by simp [Json.ofTexts, Json.canonical], readTexts_ofTexts (by decide) features⟩
  have hcomment : u.record.setting "comment" Json.readText = some u.comment :=
    setting_text (by decide) rfl
  simp only [ofDescription?, hread, bind, Option.bind_some, hstate, hreason, hfeatures, hcomment]
  rfl

/-- A change without members would be none, and is refused. -/
theorem members_ne_nil {members : List (String × Json)} (hv : u.validate = .ok ())
    (h : ofDescription? (.obj members) = some u.sent) : members ≠ [] := by
  rintro rfl
  have hnone : ofDescription? (.obj []) = some {} := rfl
  have hsent : {} = u.sent := Option.some.inj (hnone.symm.trans h)
  obtain rfl : u = {} := by
    obtain ⟨state, reason, features, comment⟩ := u
    simp only [sent, mk.injEq] at hsent ⊢
    obtain ⟨hstate, rfl, rfl, rfl⟩ := hsent
    exact ⟨Option.map_eq_none_iff.mp hstate.symm, rfl, rfl, rfl⟩
  cases hv

theorem ofBytes?_body {v : Json} (h : u.body = .ok v) :
    ∃ members, Json.ofBytes? v.toBytes = some (.obj members) ∧
      members.Perm (Json.setMembers u.fields) := by
  rw [(body_eq_ok_iff.mp h).2]
  exact Json.ofBytes?_ofSet u.nodup_fields u.whole_description

/-- A state that needs a reason passes the check only with one that says something. -/
theorem exists_reason {state : String} (hv : u.validate = .ok ()) (hstate : u.state = some state)
    (hneeds : needsReason state = true) :
    ∃ reason, u.reason = some reason ∧ ∃ c ∈ reason.toList, Text.isBlank c = false := by
  rw [validate] at hv
  split at hv
  · cases hv
  · split at hv
    · cases hv
    · next hreason =>
      rw [hstate, Option.any_some, hneeds, Bool.true_and] at hreason
      cases hr : u.reason with
      | none => simp [hr] at hreason
      | some reason =>
        refine ⟨reason, rfl, ?_⟩
        simpa [hr, Text.allBlank] using hreason

theorem needsReason_of_upper {state : String} (h : Text.upper state ∈ ["DRAIN", "DOWN"]) :
    needsReason state = true := by
  have hdrain : Text.upper "DRAIN" = "DRAIN" := by decide
  have hdown : Text.upper "DOWN" = "DOWN" := by decide
  simpa [needsReason, Text.sameLetters, hdrain, hdown] using h

/-- What a node's change sends for its state is the state in upper case. -/
theorem exists_state {members : List (String × Json)} {text : String}
    (hmembers : members.Perm (Json.setMembers u.fields)) (h : ("state", .ofTexts [text]) ∈ members) :
    ∃ state, u.state = some state ∧ Text.upper state = text := by
  obtain ⟨f, hf, hmember⟩ := List.mem_filterMap.mp (hmembers.mem_iff.mp h)
  obtain ⟨v, hv, hcanonical⟩ := Option.map_eq_some_iff.mp hmember
  obtain ⟨hname, hvalue⟩ := Prod.mk.inj hcanonical
  simp only [fields, List.mem_cons, List.not_mem_nil, or_false] at hf
  rcases hf with rfl | rfl | rfl | rfl
  · obtain ⟨state, hstate, rfl⟩ := Option.map_eq_some_iff.mp hv
    rw [canonical_ofTexts] at hvalue
    exact ⟨state, hstate, by simpa [Json.ofTexts] using hvalue⟩
  · simp at hname
  · simp at hname
  · simp at hname

theorem tells {members : List (String × Json)} (hv : u.validate = .ok ())
    (hmembers : members.Perm (Json.setMembers u.fields)) : u.Tells members where
  nonempty := members_ne_nil hv (ofDescription?_of_perm hmembers)
  names := perm_setNames hmembers
  values := ofDescription?_of_perm hmembers
  reason := by
    rintro text htext hin
    obtain ⟨state, hstate, rfl⟩ := exists_state hmembers hin
    obtain ⟨reason, hreason, hword⟩ := exists_reason hv hstate (needsReason_of_upper htext)
    refine ⟨reason, hmembers.mem_iff.mpr ?_, hword⟩
    exact List.mem_filterMap.mpr
      ⟨("reason", u.reason.map .str), by simp [fields], by simp [hreason, Json.canonical]⟩

end NodeUpdate

/-! ### Changes and their bodies -/

namespace Command

/-- A change is sent just if it passes its check. Its body has a member for each field that is set, and no
    other, and says all that was asked for, with the state of a node in upper case: two changes of jobs
    with one body are the same. No node is drained or taken down without a reason. -/
theorem updates_exact (revision : Revision) :
    (∀ u : JobUpdate, u.InWidth → ((∃ v, u.body = .ok v) ↔ u.validate = .ok ()) ∧
      ∀ v, u.body = .ok v →
        (∀ id, (updateJob id u).posted revision = some v.toBytes) ∧
        (∃ members, Json.ofBytes? v.toBytes = some (.obj members) ∧ u.Tells members) ∧
        ∀ (other : JobUpdate) (w : Json), other.InWidth → other.body = .ok w → w.toBytes = v.toBytes →
          other = u) ∧
    ∀ u : NodeUpdate, ((∃ v, u.body = .ok v) ↔ u.validate = .ok ()) ∧
      ∀ v, u.body = .ok v →
        (∀ name, (updateNode name u).posted revision = some v.toBytes) ∧
        ∃ members, Json.ofBytes? v.toBytes = some (.obj members) ∧ u.Tells members := by
  refine ⟨fun u hw => ⟨?_, fun v hv => ?_⟩, fun u => ⟨?_, fun v hv => ?_⟩⟩
  · simp [JobUpdate.body_eq_ok_iff]
  · obtain ⟨members, hbytes, hmembers⟩ := JobUpdate.ofBytes?_body hw hv
    have hvalid := (JobUpdate.body_eq_ok_iff.mp hv).1
    have hread := JobUpdate.ofDescription?_of_perm hw hmembers
    refine ⟨fun id => posted_eq (by rw [draft, hv]), ⟨members, hbytes, ?_⟩, ?_⟩
    · exact ⟨JobUpdate.members_ne_nil hvalid hread, JobUpdate.perm_setNames hmembers, hread⟩
    · intro other w hwidth hbody heq
      obtain ⟨others, hothers, hperm⟩ := JobUpdate.ofBytes?_body hwidth hbody
      rw [heq, hbytes] at hothers
      obtain rfl : members = others := by simpa using hothers
      rw [JobUpdate.ofDescription?_of_perm hwidth hperm] at hread
      exact Option.some.inj hread
  · simp [NodeUpdate.body_eq_ok_iff]
  · obtain ⟨members, hbytes, hmembers⟩ := NodeUpdate.ofBytes?_body hv
    have hvalid := (NodeUpdate.body_eq_ok_iff.mp hv).1
    exact ⟨fun name => posted_eq (by rw [draft, hv]), members, hbytes, NodeUpdate.tells hvalid hmembers⟩

/-- A job that is let go with a shorter time, and a node that is drained by a state in lower case. -/
theorem updates_exact_drained :
    let u : JobUpdate := { timeLimitMinutes := some 30, hold := some false }
    let n : NodeUpdate := { state := some "drain", reason := some "disk", features := some [] }
    (∃ v members, u.body = .ok v ∧ Json.ofBytes? v.toBytes = some (.obj members) ∧ u.Tells members) ∧
    ∃ v members, n.body = .ok v ∧ Json.ofBytes? v.toBytes = some (.obj members) ∧ n.Tells members := by
  intro u n
  obtain ⟨hjobs, hnodes⟩ := updates_exact .v42
  obtain ⟨hsent, hbody⟩ := hjobs u ⟨by simp [u, maxCount], by simp [u]⟩
  obtain ⟨hsent', hbody'⟩ := hnodes n
  obtain ⟨v, hv⟩ := hsent.mpr (by decide)
  obtain ⟨v', hv'⟩ := hsent'.mpr (by decide)
  obtain ⟨-, ⟨members, htells⟩, -⟩ := hbody v hv
  obtain ⟨-, members', htells'⟩ := hbody' v' hv'
  exact ⟨⟨v, members, hv, htells⟩, v', members', hv', htells'⟩

end Command

end SlurmLink
