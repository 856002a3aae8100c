import SlurmLink.Proofs.Document

/-!
The window of a reservation on its way to the server. It is checked as two instants and sent as two
numbers of seconds, and a number that is not positive is read as no time at all:

    start ≤ ····· < stop        checked, in nanoseconds
      │             │
      ▼             ▼
    start.seconds ≤ stop.seconds        sent, and read back where they are positive

So the order survives, but not that it is strict, and a window that was accepted may be empty or without
a time for those who read it. `Reservation.ShowsWindow` says of a description that neither happened.
-/

namespace SlurmLink

theorem Timestamp.seconds_le_of_before {a b : Timestamp} (h : a.before b = true) :
    a.seconds ≤ b.seconds := by
  simp only [Timestamp.before, Bool.or_eq_true, Bool.and_eq_true, decide_eq_true_eq,
    beq_iff_eq] at h
  omega

namespace Reservation

variable {r : Reservation}

/-- The number that a description gives for a time. -/
def sentNumber? (description : Json) (field : String) : Option Int :=
  match description.path? [field, "number"] with
  | some (.int n) => some n
  | _ => none

/-- A description that shows a window: its numbers ascend, and both times are there for its reader. -/
structure ShowsWindow (description : Json) : Prop where
  ascending : ∃ start stop, sentNumber? description "start_time" = some start ∧
    sentNumber? description "end_time" = some stop ∧ start < stop
  readable : ∃ seen, ofWire description = some (some seen) ∧ seen.startTime.isSome = true ∧
    seen.endTime.isSome = true

/-! ### What is checked -/

theorem before_of_validate {start stop : Timestamp} (h : r.validate = .ok ())
    (hstart : r.startTime = some start) (hstop : r.endTime = some stop) :
    start.before stop = true := by
  rw [validate, checkName_of_validate h] at h
  by_contra hbefore
  have hempty : r.windowIsEmpty = true := by
    rw [windowIsEmpty, hstart, hstop]
    simpa using hbefore
  rw [hempty] at h
  cases h

/-! ### What is sent -/

theorem nodup_fields (r : Reservation) : (r.fields.map Prod.fst).Nodup := by simp [fields]

/-- A time is sent as the number of its whole seconds. -/
theorem sentNumber?_description {field : String} {t : Timestamp}
    (hfield : (r.fields.lookup field).join = some (Quantity.ofTime t).toJson)
    (ht : Timestamp.inRange t.seconds = true) :
    sentNumber? r.description.canonical field = some t.seconds := by
  have hmember : r.description.canonical.member? field = _ := Json.member?_ofSet r.nodup_fields hfield
  rw [canonical_quantity (inWord_time ht)] at hmember
  rw [sentNumber?, Json.path?, hmember]
  rfl

theorem sentNumber?_start {start : Timestamp} (hstart : r.startTime = some start) (hw : r.InWidth) :
    sentNumber? r.description.canonical "start_time" = some start.seconds :=
  sentNumber?_description (by rw [fields, hstart]; rfl) (hw.2 start (Or.inl hstart))

theorem sentNumber?_stop {stop : Timestamp} (hstop : r.endTime = some stop) (hw : r.InWidth) :
    sentNumber? r.description.canonical "end_time" = some stop.seconds :=
  sentNumber?_description (by rw [fields, hstop]; rfl) (hw.2 stop (Or.inr hstop))

theorem canonical_document (r : Reservation) :
    r.document.canonical = .obj [("reservations", .arr [r.description.canonical])] := by
  simp only [document, Json.canonical, Json.canonicalMembers, Json.putMember, Json.canonicalList]

/-! ### What is read -/

/-- A description is read as the reservation is listed, which cuts its times to whole seconds. -/
theorem ofWire_description (hv : r.validate = .ok ()) (hw : r.InWidth) :
    ofWire r.description.canonical = some (some r.asListed) :=
  ofWire_fields (checkName_of_validate hv) hw

theorem isSome_listedTime_iff {t : Timestamp} :
    (listedTime (some t)).isSome = true ↔ 0 < t.seconds := by
  rw [listedTime, Option.bind_some]
  split
  · next h => simp [h]
  · next h => simp [h]

/-- The description of a checked reservation shows its window just if the seconds of its times differ
    and the first of them is positive. -/
theorem showsWindow_iff {start stop : Timestamp} (hstart : r.startTime = some start)
    (hstop : r.endTime = some stop) (hv : r.validate = .ok ()) (hw : r.InWidth) :
    ShowsWindow r.description.canonical ↔ 0 < start.seconds ∧ start.seconds ≠ stop.seconds := by
  have hle := Timestamp.seconds_le_of_before (before_of_validate hv hstart hstop)
  have hseenStart : r.asListed.startTime = listedTime (some start) := by rw [asListed, hstart]
  have hseenStop : r.asListed.endTime = listedTime (some stop) := by rw [asListed, hstop]
  constructor
  · rintro ⟨⟨first, last, hfirst, hlast, hlt⟩, seen, hseen, hset, -⟩
    rw [sentNumber?_start hstart hw, Option.some.injEq] at hfirst
    rw [sentNumber?_stop hstop hw, Option.some.injEq] at hlast
    rw [ofWire_description hv hw, Option.some.injEq, Option.some.injEq] at hseen
    rw [← hseen, hseenStart, isSome_listedTime_iff] at hset
    exact ⟨hset, by omega⟩
  · rintro ⟨hpos, hne⟩
    refine ⟨⟨start.seconds, stop.seconds, sentNumber?_start hstart hw, sentNumber?_stop hstop hw,
      by omega⟩, r.asListed, ofWire_description hv hw, ?_, ?_⟩
    · rw [hseenStart, isSome_listedTime_iff]
      exact hpos
    · -- the end comes later, so it is positive with the start
      rw [hseenStop, isSome_listedTime_iff]
      omega

end Reservation

/-! ### What the server gets -/

namespace Command

variable {r : Reservation}

/-- Creating a checked reservation posts its description, and changing it posts a list of that. -/
theorem posted_description (revision : Revision) (hv : r.validate = .ok ()) (hw : r.InWidth) :
    ((createReservation r).posted revision).bind Json.ofBytes? = some r.description.canonical ∧
    ((updateReservation r).posted revision).bind Json.ofBytes? =
      some (.obj [("reservations", .arr [r.description.canonical])]) := by
  have hcreate : (createReservation r).draft revision =
      post .slurm ["reservation"] (.ok r.description) := by
    rw [draft, Reservation.createBody, hv]
    rfl
  have hupdate : (updateReservation r).draft revision =
      post .slurm ["reservations"] (.ok r.document) := by
    rw [draft, Reservation.updateBody, hv]
    rfl
  rw [posted_eq hcreate, posted_eq hupdate, Option.bind_some, Option.bind_some,
    Json.ofBytes?_toBytes (Reservation.whole_description hw),
    Json.ofBytes?_toBytes (Reservation.whole_document hw), r.canonical_document]
  exact ⟨rfl, rfl⟩

/-- Creating or changing a checked reservation with both times sends one description, in which the times
    are the numbers of their whole seconds. It shows the window to its readers if these differ and the
    first is positive, and only then. -/
theorem window_shown_iff (revision : Revision) {start stop : Timestamp}
    (hstart : r.startTime = some start) (hstop : r.endTime = some stop) (hv : r.validate = .ok ())
    (hw : r.InWidth) : ∃ description,
      ((createReservation r).posted revision).bind Json.ofBytes? = some description ∧
      ((updateReservation r).posted revision).bind Json.ofBytes? =
        some (.obj [("reservations", .arr [description])]) ∧
      Reservation.sentNumber? description "start_time" = some start.seconds ∧
      Reservation.sentNumber? description "end_time" = some stop.seconds ∧
      (∃ seen, Reservation.ofWire description = some (some seen) ∧
        seen.startTime = Reservation.listedTime (some start) ∧
        seen.endTime = Reservation.listedTime (some stop)) ∧
      (Reservation.ShowsWindow description ↔ 0 < start.seconds ∧ start.seconds ≠ stop.seconds) := by
  obtain ⟨hcreate, hupdate⟩ := posted_description revision hv hw
  exact ⟨_, hcreate, hupdate, Reservation.sentNumber?_start hstart hw,
    Reservation.sentNumber?_stop hstop hw,
    ⟨r.asListed, Reservation.ofWire_description hv hw, by rw [Reservation.asListed, hstart],
      by rw [Reservation.asListed, hstop]⟩,
    Reservation.showsWindow_iff hstart hstop hv hw⟩

/-- Nodes that are reserved for their keeper. -/
def maintenance (start stop : Timestamp) : Reservation := {
  name := "maint", nodeList := some "n[1-4]", startTime := some start, endTime := some stop
  users := ["root"] }

theorem inWidth_maintenance {start stop : Timestamp} (hstart : Timestamp.inRange start.seconds = true)
    (hstop : Timestamp.inRange stop.seconds = true) : (maintenance start stop).InWidth := by
  refine ⟨by simp [maintenance], fun t ht => ?_⟩
  rcases ht with ht | ht
  · rwa [← Option.some.inj ht]
  · rwa [← Option.some.inj ht]

/-- A tenth of a second is shown if a second begins within it. -/
theorem window_shown_iff_narrow :
    let r := maintenance ⟨1800000000, 900000000⟩ ⟨1800000001, 0⟩
    r.validate = .ok () ∧ r.InWidth ∧ ∃ description,
      ((createReservation r).posted .v43).bind Json.ofBytes? = some description ∧
      Reservation.ShowsWindow description := by
  have hv : (maintenance ⟨1800000000, 900000000⟩ ⟨1800000001, 0⟩).validate = .ok () := rfl
  have hw : (maintenance ⟨1800000000, 900000000⟩ ⟨1800000001, 0⟩).InWidth :=
    inWidth_maintenance (by decide) (by decide)
  obtain ⟨description, hcreate, -, -, -, -, hshows⟩ := window_shown_iff .v43 rfl rfl hv hw
  exact ⟨hv, hw, description, hcreate, hshows.mpr (by decide)⟩

/-- A window within one second is accepted and sent without any length. -/
theorem window_closes :
    let r := maintenance ⟨1800000000, 200000000⟩ ⟨1800000000, 800000000⟩
    r.validate = .ok () ∧ ∃ description,
      ((createReservation r).posted .v43).bind Json.ofBytes? = some description ∧
      ((updateReservation r).posted .v43).bind Json.ofBytes? =
        some (.obj [("reservations", .arr [description])]) ∧
      Reservation.sentNumber? description "start_time" = some 1800000000 ∧
      Reservation.sentNumber? description "end_time" = some 1800000000 ∧
      ¬ Reservation.ShowsWindow description := by
  have hv : (maintenance ⟨1800000000, 200000000⟩ ⟨1800000000, 800000000⟩).validate = .ok () := rfl
  have hw : (maintenance ⟨1800000000, 200000000⟩ ⟨1800000000, 800000000⟩).InWidth :=
    inWidth_maintenance (by decide) (by decide)
  obtain ⟨hcreate, hupdate⟩ := posted_description .v43 hv hw
  refine ⟨hv, _, hcreate, hupdate, Reservation.sentNumber?_start rfl hw,
    Reservation.sentNumber?_stop rfl hw, fun hshows => ?_⟩
  have hdiffer : (1800000000 : Int) ≠ 1800000000 :=
    ((Reservation.showsWindow_iff rfl rfl hv hw).mp hshows).2
  exact hdiffer rfl

end Command

end SlurmLink
