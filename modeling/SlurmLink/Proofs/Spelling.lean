import Mathlib.Data.List.DropRight
import SlurmLink.Text.Number

/-!
How numbers and words are spelled in a text: blanks around a word, and digits that denote a number.

    blanks   word   blanks          00042
    ───────▶ trim ◀───────          Numeral 42, with any zeros in front

What trimming leaves is told from the text by `trim_append` and `exists_trim`, and what a run of digits
denotes by `Numeral`; the readers of digits accept just the numerals, within their limit.
-/

namespace SlurmLink.Text

/-! ### Blanks around a word -/

/-- Trimming takes nothing but blanks away. -/
theorem exists_trim (cs : List Char) : ∃ before after, cs = before ++ trim cs ++ after ∧
    (∀ c ∈ before, isBlank c = true) ∧ ∀ c ∈ after, isBlank c = true := by
  refine ⟨cs.takeWhile isBlank, (cs.dropWhile isBlank).rtakeWhile isBlank, ?_,
    fun _ => List.mem_takeWhile_imp, fun _ => List.mem_rtakeWhile_imp⟩
  have hafter : trim cs ++ (cs.dropWhile isBlank).rtakeWhile isBlank = cs.dropWhile isBlank :=
    List.rdropWhile_append_rtakeWhile ..
  rw [List.append_assoc, hafter, List.takeWhile_append_dropWhile]

/-- Trimming takes all blanks away from around a word that neither begins nor ends with one. -/
theorem trim_append {before word after : List Char} (hbefore : ∀ c ∈ before, isBlank c = true)
    (hafter : ∀ c ∈ after, isBlank c = true) (hhead : ∀ c ∈ word.head?, isBlank c = false)
    (hlast : ∀ c ∈ word.getLast?, isBlank c = false) : trim (before ++ word ++ after) = word := by
  rw [trim, List.append_assoc, List.dropWhile_append_of_pos hbefore]
  cases word with
  | nil =>
    rw [List.nil_append, List.dropWhile_eq_nil_iff.mpr hafter]
    rfl
  | cons c word =>
    have hdrop : (c :: word ++ after).dropWhile isBlank = c :: word ++ after :=
      List.dropWhile_cons_of_neg (by simp [hhead c rfl])
    have hself : (c :: word).rdropWhile isBlank = c :: word := List.rdropWhile_eq_self_iff.mpr
      fun hne => by simp [hlast _ (List.getLast?_eq_some_getLast hne)]
    rw [hdrop, dropTrailing, List.reverse_append,
      List.dropWhile_append_of_pos fun c hc => hafter c (List.mem_reverse.mp hc)]
    exact hself

/-- Neither the first character nor the last one is a blank. -/
structure Trimmed (cs : List Char) : Prop where
  head : ∀ c ∈ cs.head?, isBlank c = false
  last : ∀ c ∈ cs.getLast?, isBlank c = false

theorem trimmed_trim (cs : List Char) : Trimmed (trim cs) := by
  have htrim : trim cs = (cs.dropWhile isBlank).rdropWhile isBlank := rfl
  constructor
  · intro c hc
    have hprefix := List.rdropWhile_prefix isBlank (cs.dropWhile isBlank)
    have hhead := List.head?_dropWhile_not isBlank cs
    obtain ⟨rest, hrest⟩ := hprefix
    rw [← hrest, List.head?_append, ← htrim, Option.mem_def.mp hc] at hhead
    exact hhead
  · intro c hc
    obtain ⟨hne, rfl⟩ := List.mem_getLast?_eq_getLast hc
    exact Bool.eq_false_iff.mpr (List.rdropWhile_last_not isBlank _ hne)

theorem Trimmed.trim_eq {cs : List Char} (h : Trimmed cs) : trim cs = cs := by
  simpa using trim_append (List.forall_mem_nil _) (List.forall_mem_nil _) h.head h.last

/-- Blanks around a text make no difference once it is trimmed. -/
theorem trim_around {before cs after : List Char} (hbefore : ∀ c ∈ before, isBlank c = true)
    (hafter : ∀ c ∈ after, isBlank c = true) : trim (before ++ cs ++ after) = trim cs := by
  obtain ⟨left, right, hcs, hleft, hright⟩ := exists_trim cs
  have hsplit : before ++ cs ++ after = (before ++ left) ++ trim cs ++ (right ++ after) := by
    conv_lhs => rw [hcs]
    simp only [List.append_assoc]
  rw [hsplit]
  refine trim_append (fun c hc => ?_) (fun c hc => ?_) (trimmed_trim cs).head (trimmed_trim cs).last
  · exact (List.mem_append.mp hc).elim (hbefore c) (hleft c)
  · exact (List.mem_append.mp hc).elim (hright c) (hafter c)

/-! ### Words with a lead -/

theorem exists_stripLead (lead cs : List Char) :
    cs = stripLead lead cs ∨ cs = lead ++ stripLead lead cs := by
  cases lead with
  | nil => exact Or.inl rfl
  | cons p ps =>
    rw [stripLead]
    split
    · next h =>
      obtain ⟨rest, rfl⟩ := List.isPrefixOf_iff_prefix.mp h
      exact Or.inr (by simp)
    · exact Or.inl rfl

theorem stripLead_append (lead cs : List Char) : stripLead lead (lead ++ cs) = cs := by
  cases lead with
  | nil => rfl
  | cons p ps =>
    rw [stripLead, if_pos (List.isPrefixOf_iff_prefix.mpr (List.prefix_append ..))]
    simp

theorem stripLead_of_head?_ne {lead cs : List Char} (h : lead.head? ≠ cs.head?) :
    stripLead lead cs = cs := by
  cases lead with
  | nil => rfl
  | cons p ps =>
    rw [stripLead, if_neg]
    intro hlead
    obtain ⟨rest, rfl⟩ := List.isPrefixOf_iff_prefix.mp hlead
    exact h rfl

/-! ### Digits that denote a number -/

/-- A run of digits that denotes `n`; zeros may stand in front. -/
structure Numeral (cs : List Char) (n : Nat) : Prop where
  ne_nil : cs ≠ []
  isDigit : ∀ c ∈ cs, c.isDigit = true
  value : Nat.ofDigitChars 10 cs 0 = n

theorem not_isBlank_of_isDigit {c : Char} (h : c.isDigit = true) : isBlank c = false := by
  rw [Bool.eq_false_iff]
  intro hblank
  simp only [Char.isDigit, Bool.and_eq_true, decide_eq_true_eq, UInt32.le_iff_toNat_le] at h
  simp only [isBlank, Bool.or_eq_true, Bool.and_eq_true, decide_eq_true_eq, beq_iff_eq] at hblank
  simp only [Char.toNat] at hblank
  have hlow : 48 ≤ c.val.toNat := h.1
  have hhigh : c.val.toNat ≤ 57 := h.2
  omega

theorem isDigits_iff {cs : List Char} :
    isDigits cs = true ↔ cs ≠ [] ∧ ∀ c ∈ cs, c.isDigit = true := by
  rw [isDigits, Bool.and_eq_true, Bool.not_eq_true', List.isEmpty_eq_false_iff, List.all_eq_true]
  exact Iff.rfl

theorem numeral_iff {cs : List Char} {n : Nat} :
    Numeral cs n ↔ isDigits cs = true ∧ digitsValue cs = n := by
  rw [isDigits_iff]
  exact ⟨fun h => ⟨⟨h.ne_nil, h.isDigit⟩, h.value⟩, fun h => ⟨h.1.1, h.1.2, h.2⟩⟩

theorem numeral_toDigits (n : Nat) : Numeral (Nat.toDigits 10 n) n :=
  ⟨Nat.toDigits_ne_nil, fun _ => Nat.isDigit_of_mem_toDigits (by decide) (by decide),
    Nat.ofDigitChars_toDigits (by decide) (by decide)⟩

/-- Zeros in front make no difference. -/
theorem Numeral.replicate_append {cs : List Char} {n : Nat} (h : Numeral cs n) (k : Nat) :
    Numeral (List.replicate k '0' ++ cs) n := by
  refine ⟨List.append_ne_nil_of_right_ne_nil _ h.ne_nil, fun c hc => ?_, ?_⟩
  · rcases List.mem_append.mp hc with hzero | hc
    · rw [List.eq_of_mem_replicate hzero]
      rfl
    · exact h.isDigit c hc
  · rw [Nat.ofDigitChars_append, Nat.ofDigitChars_replicate_zero, Nat.mul_zero, h.value]

theorem numeral_toString (n : Nat) : Numeral (toString n).toList n := by
  rw [Nat.toString_eq_repr, Nat.toList_repr]
  exact numeral_toDigits n

theorem numeral_padded (width n : Nat) : Numeral (padded width n).toList n := by
  rw [padded, String.toList_append, String.toList_ofList]
  exact (numeral_toString n).replicate_append _

/-! ### Readers of digits -/

theorem readDigits_eq {limit : Nat} : ∀ {cs : List Char} {n : Nat},
    (∀ c ∈ cs, c.isDigit = true) → Nat.ofDigitChars 10 cs n ≤ limit →
      readDigits limit n cs = .ok (Nat.ofDigitChars 10 cs n)
  | [], _, _, _ => rfl
  | c :: cs, n, hdigits, hlimit => by
    have hdigit : isDigit c = true := hdigits c List.mem_cons_self
    rw [Nat.ofDigitChars_cons] at hlimit ⊢
    have hgrows : 10 * n + digitValue c ≤ Nat.ofDigitChars 10 cs (10 * n + digitValue c) := by
      rw [Nat.ofDigitChars_eq_ofDigitChars_zero]
      exact Nat.le_trans (Nat.le_mul_of_pos_left _ (Nat.pow_pos (by decide))) (Nat.le_add_right ..)
    rw [readDigits, hdigit, Bool.not_true, if_neg Bool.false_ne_true,
      if_neg (Nat.not_lt.mpr (Nat.le_trans hgrows hlimit))]
    exact readDigits_eq (fun d hd => hdigits d (List.mem_cons_of_mem _ hd)) hlimit

/-- A numeral is read as the number that it denotes, up to the limit. -/
theorem readUnsigned_of_numeral {limit n : Nat} {cs : List Char} (h : Numeral cs n) (hn : n ≤ limit) :
    readUnsigned limit cs = .ok n := by
  have hread : readDigits limit 0 cs = .ok n := by
    rw [readDigits_eq h.isDigit (h.value ▸ hn), h.value]
  have hplus : '+' ∉ cs := fun hmem => absurd (h.isDigit '+' hmem) (by decide)
  rw [readUnsigned.eq_def]
  split
  · exact absurd rfl h.ne_nil
  · exact absurd List.mem_cons_self hplus
  · exact absurd List.mem_cons_self hplus
  · exact hread

end SlurmLink.Text
