import SlurmLink.Command.Basic
import SlurmLink.Proofs.Canonical

/-!
A resource that is written and listed again. Creating or changing a resource posts a document, and the
message that lists resources of its sort has the same shape, so the document can be read as one:

    resource ──draft──▶ document ──toBytes──▶ bytes ──decode──▶ list of one

What comes back is the resource as it is listed (`asListed`): an empty text counts as none, times are
cut to whole seconds, and the coordinators of an account are not sent. A resource in which nothing of
this applies comes back as it is (`posted_reads_back`).
-/

namespace SlurmLink

/-- The bytes that a document is sent as: its canonical text in UTF-8. -/
def Json.toBytes (v : Json) : List UInt8 := Text.Utf8.encode v.canonical.compress.toList

/-- The greatest count of 32 bits. -/
def maxCount : Nat := 4294967295

theorem Json.ofBytes?_toBytes {v : Json} (h : v.Whole) : ofBytes? v.toBytes = some v.canonical :=
  ofBytes?_compress (whole_canonical h)

/-- The bytes of an object of set fields hold these fields, in some order. -/
theorem Json.ofBytes?_ofSet {fields : List (String × Option Json)}
    (hnodup : (fields.map Prod.fst).Nodup) (hwhole : (ofSet fields).Whole) :
    ∃ members, ofBytes? (ofSet fields).toBytes = some (.obj members) ∧
      members.Perm (setMembers fields) := by
  obtain ⟨members, hmembers, hperm⟩ := exists_canonical_ofSet hnodup
  exact ⟨members, by rw [ofBytes?_toBytes hwhole, hmembers], hperm⟩

namespace Command

/-- The bytes that a command posts to a revision, if it posts any. -/
def posted (revision : Revision) (c : Command) : Option (List UInt8) :=
  match c.draft revision with
  | .ok (some d) => d.body.map Json.toBytes
  | _ => none

theorem decode_toBytes {α : Type} {what : String} {read : Json → Option α} {v : Json} {a : α}
    (hw : v.Whole) (hr : read v.canonical = some a) : decode what read v.toBytes = .ok a := by
  rw [decode, Json.ofBytes?_toBytes hw, Option.bind_some, hr]

end Command

/-! ### Shapes of values -/

/-- A signed integer of 64 bits. -/
def InWord (n : Int) : Prop := -9223372036854775808 ≤ n ∧ n ≤ 9223372036854775807

theorem InWord.fits {n : Int} (h : InWord n) : Json.fits n = true := by
  simp only [Json.fits, Bool.and_eq_true, decide_eq_true_eq]
  exact ⟨h.1, Int.le_trans h.2 (by decide)⟩

theorem inWord_count {n : Nat} (h : n ≤ maxCount) : InWord n := by
  simp only [maxCount] at h
  simp only [InWord]
  omega

theorem inWord_time {t : Timestamp} (h : Timestamp.inRange t.seconds = true) :
    InWord t.seconds := by
  simp only [Timestamp.inRange, Bool.and_eq_true, decide_eq_true_eq] at h
  simp only [Timestamp.minSeconds, Timestamp.maxSeconds] at h
  simp only [InWord]
  omega

theorem whole_quantity {q : Quantity} (h : InWord q.number) : q.toJson.Whole :=
  ⟨trivial, trivial, h.fits, trivial⟩

theorem canonical_of_fits {q : Quantity} (h : Json.fits q.number = true) : q.toJson.canonical =
    .obj [("infinite", .bool q.infinite), ("number", .int q.number), ("set", .bool q.set)] := by
  have infinite_lt_set : "infinite" < "set" := by decide
  have number_not_lt : ¬ "number" < "infinite" := by decide
  have number_ne : "number" ≠ "infinite" := by decide
  have number_lt_set : "number" < "set" := by decide
  simp only [Quantity.toJson, Json.canonical, Json.canonicalMembers, Json.putMember, h,
    if_true, if_pos infinite_lt_set, if_neg number_not_lt, if_neg number_ne, if_pos number_lt_set]

theorem canonical_quantity {q : Quantity} (h : InWord q.number) : q.toJson.canonical =
    .obj [("infinite", .bool q.infinite), ("number", .int q.number), ("set", .bool q.set)] :=
  canonical_of_fits h.fits

theorem Quantity.read_canonical {q : Quantity} {level : Nat} (hl : level < Json.maxDepth)
    (h : InWord q.number) : Quantity.read level q.toJson.canonical = some q := by
  have hkept : Json.isKept level (.obj [("infinite", .bool q.infinite), ("number", .int q.number),
      ("set", .bool q.set)]) = true := decide_eq_true hl
  have hnumber : -9223372036854775808 ≤ q.number ∧ q.number ≤ 9223372036854775807 := h
  rw [canonical_quantity h, Quantity.read, hkept]
  simp [Json.Record.read, Json.Record.slotOf, Json.Record.withDefault, Json.Record.slot,
    List.lookup_cons, Json.readBool, Json.readInt64, Json.readInt, hnumber]

theorem canonicalList_map_str : ∀ texts : List String,
    Json.canonicalList (texts.map .str) = texts.map .str
  | [] => rfl
  | s :: texts => by
    rw [List.map_cons, Json.canonicalList, canonicalList_map_str texts]
    rfl

theorem canonical_ofTexts (texts : List String) :
    (Json.ofTexts texts).canonical = .ofTexts texts := by
  rw [Json.ofTexts, Json.canonical, canonicalList_map_str]

theorem mapM_readText : ∀ texts : List String, (texts.map Json.str).mapM Json.readText = some texts
  | [] => rfl
  | s :: texts => by
    rw [List.map_cons, List.mapM_cons, mapM_readText texts]
    rfl

theorem readableList_map_str : ∀ texts : List String, Json.readableList (texts.map .str) = true
  | [] => rfl
  | _ :: texts => readableList_map_str texts

theorem depthList_map_str : ∀ texts : List String, Json.depthList (texts.map .str) = 0
  | [] => rfl
  | s :: texts => by
    rw [List.map_cons, Json.depthList, depthList_map_str texts]
    rfl

theorem isKept_ofTexts {level : Nat} (hl : level < Json.maxDepth) (texts : List String) :
    (Json.ofTexts texts).isKept level = true := by
  simp only [Json.isKept, Json.ofTexts, Json.readable, readableList_map_str, Json.depth,
    depthList_map_str, Bool.true_and]
  exact decide_eq_true hl

/-- A list of texts is read item by item, whatever the texts are: with commas, blank or empty. -/
theorem readTexts_ofTexts {level : Nat} (hl : level < Json.maxDepth) (texts : List String) :
    Json.readTexts level (Json.ofTexts texts).canonical = some texts := by
  rw [canonical_ofTexts, Json.readTexts.eq_def, isKept_ofTexts hl]
  exact mapM_readText texts

theorem canonical_single {key : String} {v : Json} :
    (Json.obj [(key, v)]).canonical = .obj [(key, v.canonical)] := by
  simp [Json.canonical, Json.canonicalMembers, Json.putMember]

theorem canonical_record {key : String} {v : Json} :
    (Json.obj [(key, .arr [v])]).canonical = .obj [(key, .arr [v.canonical])] := by
  rw [canonical_single, Json.canonical, Json.canonicalList, Json.canonicalList]

/-- A message with one record lists what the record says. -/
theorem readRecords_canonical {α : Type} {key : String} {read : Json → Option (Option α)} {v : Json}
    {a : α} (h : read v.canonical = some (some a)) :
    readRecords key read (Json.obj [(key, .arr [v])]).canonical = some [a] := by
  rw [canonical_record]
  simp [readRecords, Json.Record.read, Json.Record.slotOf, Json.Record.withDefault,
    Json.Record.slot, Json.readList, h]

theorem not_isEmpty_of_checkName {sort name : String} (h : checkName sort name = .ok ()) :
    name.isEmpty = false := by
  cases he : name.isEmpty with
  | false => rfl
  | true =>
    rw [String.isEmpty_iff.mp he] at h
    cases h

/-! ### Fields of documents -/

section Fields

variable {names : List String} {fields : List (String × Option Json)} {name : String}

theorem setting_text {s : Option String} (hn : name ∈ names)
    (hf : (fields.lookup name).join = s.map .str) :
    (Json.Record.ofFields names fields).setting name Json.readText = some s :=
  Json.setting_of_eq hn hf fun s _ => ⟨by simp [Json.canonical], rfl⟩

theorem withDefault_text {s default : String} (hn : name ∈ names)
    (hf : (fields.lookup name).join = some (.str s)) :
    (Json.Record.ofFields names fields).withDefault name default Json.readText = some s :=
  Json.withDefault_of_some hn hf rfl

/-- A quantity that is written where it is set. -/
theorem setting_quantity {α : Type} {o : Option α} {f : α → Quantity} {level : Nat}
    (hl : level < Json.maxDepth) (hn : name ∈ names)
    (hf : (fields.lookup name).join = o.map fun a => (f a).toJson)
    (hw : ∀ a ∈ o, InWord (f a).number) :
    (Json.Record.ofFields names fields).setting name (Quantity.read level) = some (o.map f) :=
  Json.setting_ofFields hn hf fun a ha =>
    ⟨by simp [Quantity.toJson, Json.canonical], Quantity.read_canonical hl (hw a ha)⟩

theorem withDefault_texts {level : Nat} {texts : List String} (hl : level < Json.maxDepth)
    (hn : name ∈ names) (hf : (fields.lookup name).join = Reservation.someTexts texts) :
    (Json.Record.ofFields names fields).withDefault name [] (Json.readTexts level) = some texts := by
  cases texts with
  | nil => exact Json.withDefault_of_none hn hf
  | cons s texts => exact Json.withDefault_of_some hn hf (readTexts_ofTexts hl (s :: texts))

end Fields

theorem Quantity.nat32?_map {n : Option Nat} (h : ∀ k ∈ n, k ≤ maxCount) :
    Quantity.nat32? (n.map fun k : Nat => .ofInt k) = n := by
  cases n with
  | none => rfl
  | some k =>
    have hk : 0 ≤ (k : Int) ∧ (k : Int) ≤ ((4294967295 : Nat) : Int) :=
      ⟨Int.natCast_nonneg k, Int.ofNat_le.mpr (h k rfl)⟩
    exact if_pos hk

theorem nonEmpty_eq_self {s : Option String} (h : s ≠ some "") : nonEmpty s = s := by
  cases s with
  | none => rfl
  | some t =>
    have ht : t.isEmpty = false := by
      rw [String.isEmpty_eq_false_iff]
      exact fun he => h (he ▸ rfl)
    rw [nonEmpty, Option.filter_some, ht]
    rfl

theorem whole_map {α : Type} {o : Option α} {write : α → Json} (h : ∀ a ∈ o, (write a).Whole) :
    ∀ v ∈ o.map write, v.Whole := by
  intro v hv
  obtain ⟨a, ha, rfl⟩ := Option.map_eq_some_iff.mp hv
  exact h a ha

theorem whole_someTexts {texts : List String} :
    ∀ v ∈ Reservation.someTexts texts, v.Whole := by
  intro v hv
  cases texts with
  | nil => cases hv
  | cons s texts =>
    cases hv
    exact Json.wholeList_map_str (s :: texts)

/-! ### Qualities of service -/

namespace Qos

/-- The numbers of a quality are counts of 32 bits. -/
def InWidth (q : Qos) : Prop :=
  (∀ n ∈ q.priority, n ≤ maxCount) ∧ ∀ n ∈ q.maxWallMinutesPerJob, n ≤ maxCount

/-- A quality as it is listed. -/
def asListed (q : Qos) : Qos := { q with description := nonEmpty q.description }

def fields (q : Qos) : List (String × Option Json) := [
  ("name", some (.str q.name)),
  ("description", q.description.map .str),
  ("priority", q.priority.map .ofQuantity),
  ("limits", q.maxWallMinutesPerJob.map limits),
  ("flags", Reservation.someTexts q.flags)]

theorem canonical_limits {n : Nat} : (limits n).canonical =
    .obj [("max", .obj [("wall_clock", .obj [("per", .obj [("job", (Json.ofQuantity n).canonical)])])])]
    := by
  simp [limits, Json.canonical, Json.canonicalMembers, Json.putMember]

theorem readLimits_limits {n : Nat} (h : n ≤ maxCount) :
    readLimits (limits n).canonical = some (some (.ofInt n)) := by
  have hq : Quantity.read 7 (Json.ofQuantity n).canonical = some (.ofInt n) :=
    Quantity.read_canonical (by decide) (inWord_count h)
  have hobj : ∃ members, (Json.ofQuantity n).canonical = .obj members :=
    ⟨_, canonical_quantity (inWord_count h)⟩
  obtain ⟨members, hobj⟩ := hobj
  rw [canonical_limits, hobj]
  rw [hobj] at hq
  simp [readLimits, readNested, readJobLimit, Json.Record.read, Json.Record.slotOf,
    Json.Record.withDefault, Json.Record.setting, Json.Record.slot, hq]

/-- The record that is read from the document of a quality. -/
def record (q : Qos) : Json.Record :=
  .ofFields ["name", "description", "priority", "limits", "flags"] q.fields

theorem whole_document {q : Qos} (hw : q.InWidth) : q.document.Whole := by
  refine ⟨⟨Json.whole_ofSet fun m hm => ?_, trivial⟩, trivial⟩
  simp only [List.mem_cons, List.not_mem_nil, or_false] at hm
  rcases hm with rfl | rfl | rfl | rfl | rfl
  · exact whole_map (o := some q.name) fun _ _ => trivial
  · exact whole_map fun _ _ => trivial
  · exact whole_map fun n hn => whole_quantity (inWord_count (hw.1 n hn))
  · exact whole_map fun n hn =>
      ⟨⟨⟨⟨whole_quantity (inWord_count (hw.2 n hn)), trivial⟩, trivial⟩, trivial⟩, trivial⟩
  · exact whole_someTexts

theorem ofWire_fields {q : Qos} (hv : q.validate = .ok ()) (hw : q.InWidth) :
    ofWire (Json.ofSet q.fields).canonical = some (some q.asListed) := by
  have hread : Json.Record.read ["name", "description", "priority", "limits", "flags"]
      (Json.ofSet q.fields).canonical = some q.record := Json.read_ofSet (by simp [fields]) _
  have hname : q.record.withDefault "name" "" Json.readText = some q.name :=
    withDefault_text (by decide) rfl
  have hdescription : q.record.setting "description" Json.readText = some q.description :=
    setting_text (by decide) rfl
  have hpriority : q.record.setting "priority" (Quantity.read 3) =
      some (q.priority.map fun n : Nat => .ofInt n) :=
    setting_quantity (by decide) (by decide) rfl fun n hn => inWord_count (hw.1 n hn)
  have hlimit : q.record.withDefault "limits" none readLimits =
      some ((q.maxWallMinutesPerJob.map fun n : Nat => some (.ofInt n)).getD none) :=
    Json.withDefault_ofFields (by decide) rfl fun n hn => readLimits_limits (hw.2 n hn)
  have hflags : q.record.withDefault "flags" [] (Json.readTexts 3) = some q.flags :=
    withDefault_texts (by decide) (by decide) rfl
  have hminutes : (q.maxWallMinutesPerJob.map fun n : Nat => some (Quantity.ofInt n)).getD none =
      q.maxWallMinutesPerJob.map fun n : Nat => .ofInt n := by
    cases q.maxWallMinutesPerJob <;> rfl
  simp only [ofWire, hread, bind, Option.bind_some, hname, hdescription, hpriority, hlimit, hflags,
    hminutes, Quantity.nat32?_map hw.1, Quantity.nat32?_map hw.2, not_isEmpty_of_checkName hv]
  rfl

/-- The document of a checked quality is listed as that quality. -/
theorem decode_document {q : Qos} (hv : q.validate = .ok ()) (hw : q.InWidth) :
    Command.decode "qos" listOfWire q.document.toBytes = .ok [q.asListed] :=
  Command.decode_toBytes (whole_document hw) (readRecords_canonical (ofWire_fields hv hw))

end Qos

/-! ### Users -/

namespace User

/-- A user as it is listed. -/
def asListed (u : User) : User :=
  { u with defaultAccount := nonEmpty u.defaultAccount, defaultWckey := nonEmpty u.defaultWckey }

def defaultFields (u : User) : List (String × Option Json) := [
  ("account", u.defaultAccount.map .str),
  ("wckey", u.defaultWckey.map .str)]

def fields (u : User) : List (String × Option Json) := [
  ("name", some (.str u.name)),
  ("default", u.defaults),
  ("administrator_level", u.adminLevel.map fun level => .ofTexts [level])]

/-- The record that is read from the document of a user. -/
def record (u : User) : Json.Record :=
  .ofFields ["name", "default", "administrator_level"] u.fields

theorem readDefaults_fields (u : User) : readDefaults (Json.ofSet u.defaultFields).canonical =
    some (u.defaultAccount, u.defaultWckey) := by
  have hread : Json.Record.read ["account", "wckey"] (Json.ofSet u.defaultFields).canonical =
      some (.ofFields ["account", "wckey"] u.defaultFields) :=
    Json.read_ofSet (by simp [defaultFields]) _
  have haccount : (Json.Record.ofFields ["account", "wckey"] u.defaultFields).setting "account"
      Json.readText = some u.defaultAccount := setting_text (by decide) rfl
  have hwckey : (Json.Record.ofFields ["account", "wckey"] u.defaultFields).setting "wckey"
      Json.readText = some u.defaultWckey := setting_text (by decide) rfl
  simp only [readDefaults, hread, bind, Option.bind_some, haccount, hwckey]
  rfl

/-- Defaults are written if there is one, and read as none if there is none. -/
theorem withDefault_defaults (u : User) : u.record.withDefault "default" (none, none) readDefaults =
    some (u.defaultAccount, u.defaultWckey) := by
  cases hd : u.defaultAccount.isNone && u.defaultWckey.isNone with
  | true =>
    have hlookup : (u.fields.lookup "default").join = none := if_pos hd
    rw [Bool.and_eq_true, Option.isNone_iff_eq_none, Option.isNone_iff_eq_none] at hd
    rw [hd.1, hd.2]
    exact Json.withDefault_of_none (by decide) hlookup
  | false =>
    have hlookup : (u.fields.lookup "default").join = some (.ofSet u.defaultFields) :=
      if_neg (Bool.eq_false_iff.mp hd)
    exact Json.withDefault_of_some (by decide) hlookup (readDefaults_fields u)

theorem whole_document (u : User) : u.document.Whole := by
  refine ⟨⟨Json.whole_ofSet fun m hm => ?_, trivial⟩, trivial⟩
  simp only [List.mem_cons, List.not_mem_nil, or_false] at hm
  rcases hm with rfl | rfl | rfl
  · exact whole_map (o := some u.name) fun _ _ => trivial
  · intro v hv
    rw [defaults, Option.mem_def] at hv
    split at hv
    · cases hv
    · cases hv
      refine Json.whole_ofSet fun m hm => ?_
      simp only [List.mem_cons, List.not_mem_nil, or_false] at hm
      rcases hm with rfl | rfl <;> exact whole_map fun _ _ => trivial
  · exact whole_map fun level _ => Json.wholeList_map_str [level]

theorem ofWire_fields {u : User} (hv : u.validate = .ok ()) :
    ofWire (Json.ofSet u.fields).canonical = some (some u.asListed) := by
  have hread : Json.Record.read ["name", "default", "administrator_level"]
      (Json.ofSet u.fields).canonical = some u.record := Json.read_ofSet (by simp [fields]) _
  have hname : u.record.withDefault "name" "" Json.readText = some u.name :=
    withDefault_text (by decide) rfl
  have hlevels : u.record.withDefault "administrator_level" [] (Json.readTexts 3) =
      some ((u.adminLevel.map fun level => [level]).getD []) :=
    Json.withDefault_ofFields (by decide) rfl fun level _ => readTexts_ofTexts (by decide) [level]
  have hhead : ((u.adminLevel.map fun level => [level]).getD []).head? = u.adminLevel := by
    cases u.adminLevel <;> rfl
  simp only [ofWire, hread, bind, Option.bind_some, hname, withDefault_defaults, hlevels, hhead,
    not_isEmpty_of_checkName hv]
  rfl

/-- The document of a checked user is listed as that user. -/
theorem decode_document {u : User} (hv : u.validate = .ok ()) :
    Command.decode "users" listOfWire u.document.toBytes = .ok [u.asListed] :=
  Command.decode_toBytes (whole_document u) (readRecords_canonical (ofWire_fields hv))

end User

/-! ### Reservations -/

namespace Reservation

/-- The count of a reservation has 32 bits, and its times are in the range of years. -/
def InWidth (r : Reservation) : Prop :=
  (∀ n ∈ r.nodeCount, n ≤ maxCount) ∧
    ∀ t, t ∈ r.startTime ∨ t ∈ r.endTime → Timestamp.inRange t.seconds = true

/-- A time as it is listed: a whole second after 1970 began. -/
def listedTime (t : Option Timestamp) : Option Timestamp :=
  t.bind fun t => if 0 < t.seconds then some ⟨t.seconds, 0⟩ else none

/-- A reservation as it is listed. -/
def asListed (r : Reservation) : Reservation :=
  { r with
    nodeList := nonEmpty r.nodeList
    partition := nonEmpty r.partition
    startTime := listedTime r.startTime
    endTime := listedTime r.endTime }

def fields (r : Reservation) : List (String × Option Json) := [
  ("name", some (.str r.name)),
  ("start_time", r.startTime.map fun t => (Quantity.ofTime t).toJson),
  ("end_time", r.endTime.map fun t => (Quantity.ofTime t).toJson),
  ("node_list", r.nodeList.map .str),
  ("node_count", r.nodeCount.map .ofQuantity),
  ("partition", r.partition.map .str),
  ("users", someTexts r.users),
  ("accounts", someTexts r.accounts),
  ("flags", someTexts r.flags)]

/-- The record that is read from the document of a reservation. -/
def record (r : Reservation) : Json.Record :=
  .ofFields ["name", "node_list", "node_count", "start_time", "end_time", "users", "accounts",
    "partition", "flags"] r.fields

theorem time?_map {t : Option Timestamp}
    (h : ∀ p ∈ t, Timestamp.inRange p.seconds = true) :
    Quantity.time? (t.map .ofTime) = listedTime t := by
  cases t with
  | none => rfl
  | some t =>
    show (if 0 < t.seconds then Timestamp.ofSeconds? t.seconds else none) =
      if 0 < t.seconds then some ⟨t.seconds, 0⟩ else none
    rw [Timestamp.ofSeconds?, if_pos (h t rfl)]

theorem whole_description {r : Reservation} (hw : r.InWidth) : r.description.Whole := by
  refine Json.whole_ofSet fun m hm => ?_
  simp only [List.mem_cons, List.not_mem_nil, or_false] at hm
  rcases hm with rfl | rfl | rfl | rfl | rfl | rfl | rfl | rfl | rfl
  · exact whole_map (o := some r.name) fun _ _ => trivial
  · exact whole_map fun t ht => whole_quantity (inWord_time (hw.2 t (Or.inl ht)))
  · exact whole_map fun t ht => whole_quantity (inWord_time (hw.2 t (Or.inr ht)))
  · exact whole_map fun _ _ => trivial
  · exact whole_map fun n hn => whole_quantity (inWord_count (hw.1 n hn))
  · exact whole_map fun _ _ => trivial
  · exact whole_someTexts
  · exact whole_someTexts
  · exact whole_someTexts

theorem whole_document {r : Reservation} (hw : r.InWidth) : r.document.Whole :=
  ⟨⟨whole_description hw, trivial⟩, trivial⟩

theorem ofWire_fields {r : Reservation} (hv : checkName "reservation" r.name = .ok ())
    (hw : r.InWidth) : ofWire (Json.ofSet r.fields).canonical = some (some r.asListed) := by
  have hread : Json.Record.read ["name", "node_list", "node_count", "start_time", "end_time",
      "users", "accounts", "partition", "flags"] (Json.ofSet r.fields).canonical = some r.record :=
    Json.read_ofSet (by simp [fields]) _
  have hname : r.record.withDefault "name" "" Json.readText = some r.name :=
    withDefault_text (by decide) rfl
  have hnodes : r.record.setting "node_list" Json.readText = some r.nodeList :=
    setting_text (by decide) rfl
  have hcount : r.record.setting "node_count" (Quantity.read 3) =
      some (r.nodeCount.map fun n : Nat => .ofInt n) :=
    setting_quantity (by decide) (by decide) rfl fun n hn => inWord_count (hw.1 n hn)
  have hstart : r.record.setting "start_time" (Quantity.read 3) = some (r.startTime.map .ofTime) :=
    setting_quantity (by decide) (by decide) rfl fun t ht => inWord_time (hw.2 t (Or.inl ht))
  have hend : r.record.setting "end_time" (Quantity.read 3) = some (r.endTime.map .ofTime) :=
    setting_quantity (by decide) (by decide) rfl fun t ht => inWord_time (hw.2 t (Or.inr ht))
  have husers : r.record.withDefault "users" [] (Json.readTexts 3) = some r.users :=
    withDefault_texts (by decide) (by decide) rfl
  have haccounts : r.record.withDefault "accounts" [] (Json.readTexts 3) = some r.accounts :=
    withDefault_texts (by decide) (by decide) rfl
  have hpartition : r.record.setting "partition" Json.readText = some r.partition :=
    setting_text (by decide) rfl
  have hflags : r.record.withDefault "flags" [] (Json.readTexts 3) = some r.flags :=
    withDefault_texts (by decide) (by decide) rfl
  simp only [ofWire, hread, bind, Option.bind_some, hname, hnodes, hcount, hstart, hend, husers,
    haccounts, hpartition, hflags, Quantity.nat32?_map hw.1, time?_map fun t ht => hw.2 t (Or.inl ht),
    time?_map fun t ht => hw.2 t (Or.inr ht), not_isEmpty_of_checkName hv]
  rfl

theorem checkName_of_validate {r : Reservation} (h : r.validate = .ok ()) :
    checkName "reservation" r.name = .ok () := by
  rw [validate] at h
  cases hc : checkName "reservation" r.name with
  | error e => rw [hc] at h; cases h
  | ok u => rfl

/-- The document that changes a checked reservation is listed as that reservation. -/
theorem decode_document {r : Reservation} (hv : r.validate = .ok ()) (hw : r.InWidth) :
    Command.decode "reservations" listOfWire r.document.toBytes = .ok [r.asListed] :=
  Command.decode_toBytes (whole_document hw)
    (readRecords_canonical (ofWire_fields (checkName_of_validate hv) hw))

end Reservation

/-! ### Accounts -/

namespace Account

/-- An account as it is listed after it was written: its coordinators are not sent. -/
def asListed (a : Account) : Account := { a with coordinators := [] }

def fields (a : Account) : List (String × Option Json) := [
  ("name", some (.str a.name)),
  ("description", some (.str a.description)),
  ("organization", some (.str a.organization))]

/-- The record that is read from the document of an account. -/
def record (a : Account) : Json.Record :=
  .ofFields ["name", "description", "organization", "coordinators"] a.fields

theorem ofWire_fields {a : Account} (hv : checkName "account" a.name = .ok ()) :
    ofWire (Json.ofSet a.fields).canonical = some (some a.asListed) := by
  have hread : Json.Record.read ["name", "description", "organization", "coordinators"]
      (Json.ofSet a.fields).canonical = some a.record := Json.read_ofSet (by simp [fields]) _
  have hname : a.record.withDefault "name" "" Json.readText = some a.name :=
    withDefault_text (by decide) rfl
  have hdescription : a.record.withDefault "description" "" Json.readText = some a.description :=
    withDefault_text (by decide) rfl
  have horganization : a.record.withDefault "organization" "" Json.readText =
      some a.organization := withDefault_text (by decide) rfl
  have hcoordinators : a.record.withDefault "coordinators" [] (Json.readList readCoordinator) =
      some [] := Json.withDefault_of_none (by decide) rfl
  simp only [ofWire, hread, bind, Option.bind_some, hname, hdescription, horganization,
    hcoordinators, not_isEmpty_of_checkName hv]
  rfl

theorem checkName_of_validate {a : Account} (h : a.validate = .ok ()) :
    checkName "account" a.name = .ok () := by
  rw [validate] at h
  cases hc : checkName "account" a.name with
  | error e => rw [hc] at h; cases h
  | ok u => rfl

/-- The document of a checked account is listed as that account without coordinators. -/
theorem decode_document {a : Account} (hv : a.validate = .ok ()) :
    Command.decode "accounts" listOfWire a.document.toBytes = .ok [a.asListed] :=
  Command.decode_toBytes ⟨⟨⟨trivial, trivial, trivial, trivial⟩, trivial⟩, trivial⟩
    (readRecords_canonical (ofWire_fields (checkName_of_validate hv)))

end Account

/-! ### Commands -/

theorem Reservation.asListed_eq_self {r : Reservation} (hnodes : r.nodeList ≠ some "")
    (hpartition : r.partition ≠ some "")
    (htimes : ∀ t, t ∈ r.startTime ∨ t ∈ r.endTime → t.nanos = 0 ∧ 0 < t.seconds) :
    r.asListed = r := by
  have hlisted : ∀ o : Option Timestamp, (∀ t ∈ o, t.nanos = 0 ∧ 0 < t.seconds) →
      listedTime o = o := by
    intro o ho
    cases o with
    | none => rfl
    | some t =>
      obtain ⟨hnanos, hpos⟩ := ho t rfl
      rw [listedTime, Option.bind_some, if_pos hpos, ← hnanos]
  rw [asListed, nonEmpty_eq_self hnodes, nonEmpty_eq_self hpartition,
    hlisted r.startTime fun t ht => htimes t (Or.inl ht),
    hlisted r.endTime fun t ht => htimes t (Or.inr ht)]

namespace Command

theorem posted_eq {revision : Revision} {c : Command} {plugin : Plugin} {path : List String}
    {v : Json} (h : c.draft revision = post plugin path (.ok v)) :
    c.posted revision = some v.toBytes := by
  rw [posted, h]
  rfl

/-- What creating or changing a resource posts is listed as that resource: a quality of service, a
    user or a changed reservation comes back as it is if no optional text of it is empty and its times
    are whole seconds after 1970 began, and an account comes back without its coordinators. The texts
    in its lists may be any. -/
theorem posted_reads_back (revision : Revision) :
    (∀ q : Qos, q.validate = .ok () → q.InWidth → q.description ≠ some "" →
      ∀ c ∈ [createQos q, updateQos q], ∃ body, c.posted revision = some body ∧
        decode "qos" Qos.listOfWire body = .ok [q]) ∧
    (∀ u : User, u.validate = .ok () → u.defaultAccount ≠ some "" → u.defaultWckey ≠ some "" →
      ∀ c ∈ [createUser u, updateUser u], ∃ body, c.posted revision = some body ∧
        decode "users" User.listOfWire body = .ok [u]) ∧
    (∀ r : Reservation, r.validate = .ok () → r.InWidth → r.nodeList ≠ some "" →
      r.partition ≠ some "" →
      (∀ t, t ∈ r.startTime ∨ t ∈ r.endTime → t.nanos = 0 ∧ 0 < t.seconds) →
      ∃ body, (updateReservation r).posted revision = some body ∧
        decode "reservations" Reservation.listOfWire body = .ok [r]) ∧
    ∀ a : Account, a.validate = .ok () →
      ∀ c ∈ [createAccount a, updateAccount a], ∃ body, c.posted revision = some body ∧
        decode "accounts" Account.listOfWire body = .ok [{ a with coordinators := [] }] := by
  refine ⟨fun q hv hw hdescription c hc => ?_, fun u hv haccount hwckey c hc => ?_,
    fun r hv hw hnodes hpartition htimes => ?_, fun a hv c hc => ?_⟩
  · have hself : q.asListed = q := by rw [Qos.asListed, nonEmpty_eq_self hdescription]
    have hbody : q.body = .ok q.document := by rw [Qos.body, hv]; rfl
    have hdraft : c.draft revision = post .slurmdb ["qos"] (.ok q.document) := by
      simp only [List.mem_cons, List.not_mem_nil, or_false] at hc
      rcases hc with rfl | rfl <;> rw [draft, hbody]
    have hlisted := Qos.decode_document hv hw
    rw [hself] at hlisted
    exact ⟨_, posted_eq hdraft, hlisted⟩
  · have hself : u.asListed = u := by
      rw [User.asListed, nonEmpty_eq_self haccount, nonEmpty_eq_self hwckey]
    have hbody : u.body = .ok u.document := by rw [User.body, hv]; rfl
    have hdraft : c.draft revision = post .slurmdb ["users"] (.ok u.document) := by
      simp only [List.mem_cons, List.not_mem_nil, or_false] at hc
      rcases hc with rfl | rfl <;> rw [draft, hbody]
    have hlisted := User.decode_document hv
    rw [hself] at hlisted
    exact ⟨_, posted_eq hdraft, hlisted⟩
  · have hself := Reservation.asListed_eq_self hnodes hpartition htimes
    have hbody : r.updateBody = .ok r.document := by rw [Reservation.updateBody, hv]; rfl
    have hdraft : (updateReservation r).draft revision =
        post .slurm ["reservations"] (.ok r.document) := by rw [draft, hbody]
    have hlisted := Reservation.decode_document hv hw
    rw [hself] at hlisted
    exact ⟨_, posted_eq hdraft, hlisted⟩
  · have hbody : a.body = .ok a.document := by rw [Account.body, hv]; rfl
    have hdraft : c.draft revision = post .slurmdb ["accounts"] (.ok a.document) := by
      simp only [List.mem_cons, List.not_mem_nil, or_false] at hc
      rcases hc with rfl | rfl <;> rw [draft, hbody]
    exact ⟨_, posted_eq hdraft, Account.decode_document hv⟩

/-- A quality of service, a user, a reservation and an account that come back, with commas, blanks and
    empty texts in their lists. -/
theorem posted_reads_back_lists :
    let q : Qos := {
      name := "long", priority := some 7, maxWallMinutesPerJob := some 1440
      flags := ["a,b", " ", ""] }
    let u : User := { name := "ada", defaultAccount := some "lab", adminLevel := some "" }
    let r : Reservation := {
      name := "night", nodeCount := some 2, startTime := some ⟨1, 0⟩
      users := ["", "x, y"], accounts := [","] }
    let a : Account := {
      name := "lab", description := "d", organization := "o", coordinators := ["eve"] }
    (∃ body, (updateQos q).posted .v42 = some body ∧ decode "qos" Qos.listOfWire body = .ok [q]) ∧
    (∃ body, (createUser u).posted .v42 = some body ∧
      decode "users" User.listOfWire body = .ok [u]) ∧
    (∃ body, (updateReservation r).posted .v42 = some body ∧
      decode "reservations" Reservation.listOfWire body = .ok [r]) ∧
    ∃ body, (createAccount a).posted .v42 = some body ∧
      decode "accounts" Account.listOfWire body = .ok [{ a with coordinators := [] }] := by
  obtain ⟨hqos, huser, hreservation, haccount⟩ := posted_reads_back .v42
  refine ⟨hqos _ rfl ⟨?_, ?_⟩ (by decide) _ (by simp), huser _ rfl (by decide) (by decide) _ (by simp),
    hreservation _ rfl ⟨?_, ?_⟩ (by decide) (by decide) ?_, haccount _ rfl _ (by simp)⟩
  · simp [maxCount]
  · simp [maxCount]
  · simp [maxCount]
  · simp [Timestamp.inRange, Timestamp.minSeconds, Timestamp.maxSeconds]
  · simp

end Command

end SlurmLink
