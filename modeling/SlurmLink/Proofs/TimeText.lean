import Mathlib.Data.Nat.Digits.Defs
import SlurmLink.Proofs.Calendar
import SlurmLink.Proofs.Spelling
import SlurmLink.Time.Timestamp

/-!
A point in time survives its text. The fields of a whole second are written with all their digits, so each is
read up to where it ends, whatever follows:

    2024-02-29T23:59:59Z
    year ─ month ─ day T hour : minute : second Z
    └ takeYear_append    └ takeField_append

The date is that of the day, and a day is told from its date (`Calendar.dayNumber_dateOf`), so what is put
together again is the second that was written (`Whole.ofText?_toText`).
-/

namespace SlurmLink

namespace Text

theorem length_padded {width n : Nat} (h0 : 0 < width) (h : n < 10 ^ width) :
    (padded width n).toList.length = width := by
  have hdigits : (toString n).toList.length ≤ width := by
    rw [Nat.toString_eq_repr, Nat.toList_repr]
    exact Nat.toDigits_length 10 n width h0 h
  rw [padded, String.toList_append, String.toList_ofList, List.length_append, List.length_replicate,
    ← String.length_toList]
  omega

end Text

namespace Timestamp

open Text

/-! ### Fields -/

theorem skipBlanks_of_head? {cs : List Char} (h : ∀ c ∈ cs.head?, isBlank c = false) :
    skipBlanks cs = cs := by
  cases cs with
  | nil => rfl
  | cons c cs => exact List.dropWhile_cons_of_neg (by simp [h c rfl])

/-- Digits are read up to what follows them, or as many as there may be. -/
theorem takeDigits_append {width n : Nat} {digits rest : List Char} (h : Numeral digits n)
    (hlength : digits.length ≤ width)
    (hstop : digits.length = width ∨ ∀ c ∈ rest.head?, isDigit c = false) :
    takeDigits width (digits ++ rest) = some (n, rest) := by
  have hnext : (rest.take (width - digits.length)).takeWhile isDigit = [] := by
    rcases hstop with hfull | hend
    · rw [hfull, Nat.sub_self, List.take_zero, List.takeWhile_nil]
    · cases hk : width - digits.length with
      | zero => rw [List.take_zero, List.takeWhile_nil]
      | succ k =>
        cases rest with
        | nil => rfl
        | cons c rest => exact List.takeWhile_cons_of_neg (by simp [hend c rfl])
  have hdigit : ∀ c ∈ digits, isDigit c = true := h.isDigit
  have hdigits : ((digits ++ rest).take width).takeWhile isDigit = digits := by
    rw [List.take_append, List.take_of_length_le hlength, List.takeWhile_append_of_pos hdigit, hnext,
      List.append_nil]
  rw [takeDigits, hdigits]
  split
  · exact absurd rfl h.ne_nil
  · rw [(numeral_iff.mp h).2, List.drop_left]

theorem skipBlanks_padded (width n : Nat) (rest : List Char) :
    skipBlanks ((padded width n).toList ++ rest) = (padded width n).toList ++ rest := by
  have h := numeral_padded width n
  refine skipBlanks_of_head? fun c hc => not_isBlank_of_isDigit (h.isDigit c ?_)
  rw [List.head?_append_of_ne_nil _ h.ne_nil] at hc
  exact List.mem_of_mem_head? hc

/-- A field with both its digits is read, whatever follows. -/
theorem takeField_append {low high n : Nat} (hlow : low ≤ n) (hhigh : n ≤ high) (hn : n < 100)
    (rest : List Char) : takeField low high ((padded 2 n).toList ++ rest) = some (n, rest) := by
  have hlength : (padded 2 n).toList.length = 2 := length_padded (by decide) hn
  rw [takeField, skipBlanks_padded,
    takeDigits_append (numeral_padded 2 n) hlength.le (Or.inl hlength)]
  exact if_pos ⟨hlow, hhigh⟩

theorem skipBlanks_cons {c : Char} (h : isBlank c = false) (rest : List Char) :
    skipBlanks (c :: rest) = c :: rest :=
  List.dropWhile_cons_of_neg (by simp [h])

theorem takeMark_cons {mark : Char} (h : isBlank mark = false) (rest : List Char) :
    takeMark mark (mark :: rest) = some rest := by
  rw [takeMark, skipBlanks_cons h]
  exact if_pos rfl

/-- A number without a sign is a year if it has four digits at most. -/
theorem takeYear_padded (width n : Nat) (rest : List Char) :
    takeYear ((padded width n).toList ++ rest) =
      (takeDigits 4 ((padded width n).toList ++ rest)).map fun r => ((r.1 : Int), r.2) := by
  obtain ⟨hne, hdigit, -⟩ := numeral_padded width n
  obtain ⟨d, digits, heq⟩ := List.exists_cons_of_ne_nil hne
  have hd : d.isDigit = true := hdigit d (heq ▸ List.mem_cons_self)
  rw [takeYear, skipBlanks_padded, heq, List.cons_append]
  split
  · next hcons =>
    cases hcons
    cases hd
  · next hcons =>
    cases hcons
    cases hd
  · rfl

theorem takeYear_minus (rest : List Char) : takeYear ('-' :: rest) =
    (takeDigits rest.length rest).map fun r => (-(r.1 : Int), r.2) := by
  rw [takeYear, skipBlanks_cons (by decide)]
  rfl

theorem takeYear_plus (rest : List Char) : takeYear ('+' :: rest) =
    (takeDigits rest.length rest).map fun r => ((r.1 : Int), r.2) := by
  rw [takeYear, skipBlanks_cons (by decide)]
  rfl

/-- A year is read up to the dash that follows it, also when it has a sign. -/
theorem takeYear_append (year : Int) (rest : List Char) :
    takeYear ((yearText year).toList ++ '-' :: rest) = some (year, '-' :: rest) := by
  have hdash : ∀ c ∈ ('-' :: rest).head?, isDigit c = false := by
    intro c hc
    cases hc
    rfl
  have hsigned : ∀ n : Nat, takeDigits ((padded 4 n).toList ++ '-' :: rest).length
      ((padded 4 n).toList ++ '-' :: rest) = some (n, '-' :: rest) := fun n =>
    takeDigits_append (numeral_padded 4 n) (by simp) (Or.inr hdash)
  rw [yearText]
  split
  · next hplain =>
    have hlength : (padded 4 year.toNat).toList.length = 4 := length_padded (by decide) (by omega)
    rw [takeYear_padded, takeDigits_append (numeral_padded 4 _) hlength.le (Or.inl hlength),
      Option.map_some, Int.toNat_of_nonneg hplain.1]
  · next hoff =>
    rw [String.toList_append, List.append_assoc]
    split
    · next hneg =>
      have hyear : -(year.natAbs : Int) = year := by omega
      rw [show "-".toList = ['-'] from rfl, List.singleton_append, takeYear_minus, hsigned, Option.map_some,
        hyear]
    · next hpos =>
      have hyear : (year.natAbs : Int) = year := by omega
      rw [show "+".toList = ['+'] from rfl, List.singleton_append, takeYear_plus, hsigned, Option.map_some,
        hyear]

/-! ### Whole seconds -/

/-- How a date and a time of day are written. -/
def written (date : Calendar.Date) (hour minute second : Nat) : List Char :=
  (yearText date.year).toList ++ '-' :: ((padded 2 date.month).toList ++ '-' ::
    ((padded 2 date.day).toList ++ 'T' :: ((padded 2 hour).toList ++ ':' ::
      ((padded 2 minute).toList ++ ':' :: ((padded 2 second).toList ++ ['Z'])))))

theorem toList_toText (seconds : Int) : (toText ⟨seconds, 0⟩).toList =
    let second := (seconds % 86400).toNat
    written (Calendar.dateOf (seconds / 86400)) (second / 3600) (second / 60 % 60) (second % 60) := by
  simp [toText, fractionText, written]

theorem monthLength_le (year : Int) (month : Nat) : Calendar.monthLength year month ≤ 31 := by
  rw [Calendar.monthLength]
  split_ifs <;> decide

/-- What is written of a date that exists and a time of day is read as its second. -/
theorem ofChars?_written {date : Calendar.Date} {hour minute second : Nat} {seconds : Int}
    (hdate : Calendar.isDate date = true) (hh : hour ≤ 23) (hm : minute ≤ 59) (hs : second ≤ 59)
    (hseconds : Calendar.dayNumber date * 86400 + ((hour * 60 + minute) * 60 + second : Nat) = seconds)
    (hrange : inRange seconds = true) :
    ofChars? (written date hour minute second) = some ⟨seconds, 0⟩ := by
  have hfields := hdate
  simp only [Calendar.isDate, Bool.and_eq_true, decide_eq_true_eq] at hfields
  obtain ⟨⟨⟨hfirst, hlast⟩, hday⟩, hlength⟩ := hfields
  have hlength := hlength.trans (monthLength_le date.year date.month)
  have hdash : isBlank '-' = false := by decide
  have hcolon : isBlank ':' = false := by decide
  have hfraction : takeFraction ['Z'] = some (0, ['Z']) := rfl
  have hoffset : takeOffset (skipBlanks ['Z']) = some (0, []) := by decide
  have hleap : ¬ second = 60 := by omega
  refine Option.bind_eq_some_iff.mpr ⟨_, takeYear_append _ _, ?_⟩
  refine Option.bind_eq_some_iff.mpr ⟨_, takeMark_cons hdash _, ?_⟩
  refine Option.bind_eq_some_iff.mpr ⟨_, takeField_append hfirst hlast (by omega) _, ?_⟩
  refine Option.bind_eq_some_iff.mpr ⟨_, takeMark_cons hdash _, ?_⟩
  refine Option.bind_eq_some_iff.mpr ⟨_, takeField_append hday hlength (by omega) _, ?_⟩
  refine (if_pos (Or.inl rfl)).trans (Option.bind_eq_some_iff.mpr ⟨_, rfl, ?_⟩)
  refine Option.bind_eq_some_iff.mpr ⟨_, takeField_append (Nat.zero_le _) hh (by omega) _, ?_⟩
  refine Option.bind_eq_some_iff.mpr ⟨_, takeMark_cons hcolon _, ?_⟩
  refine Option.bind_eq_some_iff.mpr ⟨_, takeField_append (Nat.zero_le _) hm (by omega) _, ?_⟩
  refine Option.bind_eq_some_iff.mpr ⟨_, takeMark_cons hcolon _, ?_⟩
  refine Option.bind_eq_some_iff.mpr ⟨_, takeField_append (Nat.zero_le _) (by omega) (by omega) _, ?_⟩
  refine Option.bind_eq_some_iff.mpr ⟨_, hfraction, ?_⟩
  refine Option.bind_eq_some_iff.mpr ⟨_, hoffset, ?_⟩
  simp only [if_neg hleap, hseconds, hdate, hrange, Int.sub_zero]
  rfl

/-- A whole second within the range of years. -/
structure Whole (t : Timestamp) : Prop where
  whole : t.nanos = 0
  inRange : inRange t.seconds = true

/-- A whole second is read back from its text. -/
theorem Whole.ofText?_toText {t : Timestamp} (h : t.Whole) : ofText? t.toText = some t := by
  obtain ⟨seconds, nanos⟩ := t
  obtain ⟨rfl, hrange⟩ := h
  rw [ofText?, toList_toText]
  have hday : (seconds % 86400).toNat < 86400 := by omega
  refine ofChars?_written (Calendar.isDate_dateOf _) (by omega) (by omega) (by omega) ?_ hrange
  rw [Calendar.dayNumber_dateOf]
  omega

end Timestamp

end SlurmLink
