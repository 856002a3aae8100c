import SlurmLink.Proofs.Spelling
import SlurmLink.Version

/-!
What counts as a version, and what a version is written as. A text is taken from outside to inside:

    blanks   v        00   .   0   .   42    blanks          the tag may be missing
    blanks   Slurm-   24   .   05  .   1     blanks

`Triple.Writes` is this grammar, for either tag: three numerals of 32 bits with dots between them, and
nothing between the tag and the first. Reading accepts just the texts that it describes, and what a
version is written as is one of them, whether the second component is padded or not.
-/

namespace SlurmLink

open Text

namespace Triple

variable {cs : List Char} {t : Triple}

/-! ### Components between dots -/

theorem readComponent_eq_ok_iff {c : Component} {part : Option (List Char)} {n : UInt32} :
    readComponent c part = .ok n ↔ ∃ digits, part = some digits ∧ Numeral digits n.toNat := by
  cases part with
  | none =>
    constructor
    · intro h
      cases h
    · rintro ⟨digits, ⟨⟩, _⟩
  | some digits =>
    have hsome : (∃ ds, some digits = some ds ∧ Numeral ds n.toNat) ↔ Numeral digits n.toNat := by
      simp
    rw [hsome, numeral_iff, readComponent]
    split
    · next hnot =>
      rw [Bool.not_eq_true'] at hnot
      simp [hnot]
    · next hdigits =>
      rw [Bool.not_eq_true', Bool.not_eq_false] at hdigits
      have hbound := n.toNat_lt
      split
      · next hlarge =>
        constructor
        · intro h
          cases h
        · rintro ⟨-, hvalue⟩
          omega
      · next hfits =>
        have hword : (digitsValue digits).toUInt32.toNat = digitsValue digits :=
          Nat.mod_eq_of_lt (show digitsValue digits < 4294967296 by omega)
        constructor
        · rintro ⟨⟩
          exact ⟨hdigits, hword.symm⟩
        · rintro ⟨-, hvalue⟩
          rw [← UInt32.toNat_inj.mp (hword.trans hvalue)]

/-- The components of a version, with dots between them. -/
def Dotted (cs : List Char) (t : Triple) : Prop :=
  ∃ major minor patch, cs = major ++ '.' :: (minor ++ '.' :: patch) ∧
    Numeral major t.major.toNat ∧ Numeral minor t.minor.toNat ∧ Numeral patch t.patch.toNat

theorem not_mem_of_numeral {digits : List Char} {n : Nat} (h : Numeral digits n) : '.' ∉ digits :=
  fun hmem => absurd (h.isDigit '.' hmem) (by decide)

theorem eq_of_pieces {a b c : List Char} (h : pieces '.' cs = [a, b, c]) :
    cs = a ++ '.' :: (b ++ '.' :: c) := by
  rw [pieces_eq_splitOn] at h
  have hjoin : ['.'].intercalate (cs.splitOn '.') = cs := List.intercalate_splitOn '.'
  rw [← hjoin, h]
  simp [List.intercalate]

theorem pieces_dotted {a b c : List Char} (ha : '.' ∉ a) (hb : '.' ∉ b) (hc : '.' ∉ c) :
    pieces '.' (a ++ '.' :: (b ++ '.' :: c)) = [a, b, c] := by
  rw [pieces_eq_splitOn, List.splitOn_append_cons_self_of_not_mem ha,
    List.splitOn_append_cons_self_of_not_mem hb, List.splitOn_eq_singleton hc]

theorem bind_eq_ok_iff {ε α β : Type} {x : Except ε α} {f : α → Except ε β} {b : β} :
    x >>= f = .ok b ↔ ∃ a, x = .ok a ∧ f a = .ok b := by
  cases x with
  | error e => simp [bind, Except.bind]
  | ok a => simp [bind, Except.bind]

theorem read_eq_ok : read cs = .ok t ↔ cs ≠ [] ∧
    readComponent .major (pieces '.' cs)[0]? = .ok t.major ∧
    readComponent .minor (pieces '.' cs)[1]? = .ok t.minor ∧
    readComponent .patch (pieces '.' cs)[2]? = .ok t.patch ∧ (pieces '.' cs).length ≤ 3 := by
  have hempty : cs.isEmpty = true ↔ cs = [] := List.isEmpty_iff
  rw [read]
  split
  · next h =>
    constructor
    · intro hok
      cases hok
    · exact fun hok => absurd (hempty.mp h) hok.1
  · next h =>
    rw [hempty] at h
    constructor
    · intro hok
      obtain ⟨major, hmajor, hok⟩ := bind_eq_ok_iff.mp hok
      obtain ⟨minor, hminor, hok⟩ := bind_eq_ok_iff.mp hok
      obtain ⟨patch, hpatch, hok⟩ := bind_eq_ok_iff.mp hok
      dsimp only at hok
      split at hok
      · cases hok
      · next hlength =>
        cases hok
        exact ⟨h, hmajor, hminor, hpatch, Nat.le_of_not_lt hlength⟩
    · rintro ⟨-, hmajor, hminor, hpatch, hlength⟩
      refine bind_eq_ok_iff.mpr ⟨_, hmajor, bind_eq_ok_iff.mpr ⟨_, hminor,
        bind_eq_ok_iff.mpr ⟨_, hpatch, ?_⟩⟩⟩
      dsimp only
      rw [if_neg (Nat.not_lt.mpr hlength)]
      rfl

/-- Reading accepts three numerals between dots, and nothing else. -/
theorem read_eq_ok_iff : read cs = .ok t ↔ Dotted cs t := by
  rw [read_eq_ok]
  constructor
  · rintro ⟨-, hmajor, hminor, hpatch, hlength⟩
    obtain ⟨a, ha, hmajor⟩ := readComponent_eq_ok_iff.mp hmajor
    obtain ⟨b, hb, hminor⟩ := readComponent_eq_ok_iff.mp hminor
    obtain ⟨c, hc, hpatch⟩ := readComponent_eq_ok_iff.mp hpatch
    -- fewer pieces lack a component, and more of them are refused
    have hparts : pieces '.' cs = [a, b, c] := by
      match hp : pieces '.' cs with
      | [] => simp [hp] at ha
      | [_] => simp [hp] at hb
      | [_, _] => simp [hp] at hc
      | [_, _, _] =>
        rw [hp] at ha hb hc
        cases ha
        cases hb
        cases hc
        rfl
      | _ :: _ :: _ :: _ :: _ =>
        rw [hp] at hlength
        simp only [List.length_cons] at hlength
        omega
    exact ⟨a, b, c, eq_of_pieces hparts, hmajor, hminor, hpatch⟩
  · rintro ⟨a, b, c, rfl, hmajor, hminor, hpatch⟩
    rw [pieces_dotted (not_mem_of_numeral hmajor) (not_mem_of_numeral hminor)
      (not_mem_of_numeral hpatch)]
    exact ⟨by simp, readComponent_eq_ok_iff.mpr ⟨a, rfl, hmajor⟩,
      readComponent_eq_ok_iff.mpr ⟨b, rfl, hminor⟩, readComponent_eq_ok_iff.mpr ⟨c, rfl, hpatch⟩,
      Nat.le_refl 3⟩

theorem Dotted.isDigit_of_mem_head? (h : Dotted cs t) : ∀ c ∈ cs.head?, c.isDigit = true := by
  obtain ⟨major, minor, patch, rfl, hmajor, -, -⟩ := h
  intro c hc
  rw [List.head?_append_of_ne_nil _ hmajor.ne_nil] at hc
  exact hmajor.isDigit c (List.mem_of_mem_head? hc)

theorem Dotted.isDigit_of_mem_getLast? (h : Dotted cs t) : ∀ c ∈ cs.getLast?, c.isDigit = true := by
  obtain ⟨major, minor, patch, rfl, -, -, hpatch⟩ := h
  intro c hc
  have hsplit : major ++ '.' :: (minor ++ '.' :: patch) = major ++ '.' :: (minor ++ ['.']) ++ patch := by
    simp
  rw [hsplit, List.getLast?_append_of_ne_nil _ hpatch.ne_nil] at hc
  exact hpatch.isDigit c (List.mem_of_mem_getLast? hc)

theorem Dotted.isDigit_or_eq_dot (h : Dotted cs t) : ∀ c ∈ cs, c.isDigit = true ∨ c = '.' := by
  obtain ⟨major, minor, patch, rfl, hmajor, hminor, hpatch⟩ := h
  intro c hc
  simp only [List.mem_append, List.mem_cons] at hc
  rcases hc with hc | hdot | hc | hdot | hc
  · exact Or.inl (hmajor.isDigit c hc)
  · exact Or.inr hdot
  · exact Or.inl (hminor.isDigit c hc)
  · exact Or.inr hdot
  · exact Or.inl (hpatch.isDigit c hc)

/-! ### Around the components -/

/-- The text `cs` is a writing of `t`: blanks, the tag or nothing, the components, blanks. -/
def Writes (tag cs : List Char) (t : Triple) : Prop :=
  ∃ before lead dotted after, cs = before ++ (lead ++ dotted) ++ after ∧
    (∀ c ∈ before, isBlank c = true) ∧ (∀ c ∈ after, isBlank c = true) ∧
    (lead = [] ∨ lead = tag) ∧ Dotted dotted t

/-- After blanks and the tag were taken off, reading accepts the writings of a version. The tag must
    begin with a mark that is neither taken off as a blank nor read as a digit. -/
theorem read_eq_ok_iff_writes {mark : Char} {rest : List Char} (hblank : isBlank mark = false)
    (hdigit : mark.isDigit = false) :
    read (stripLead (mark :: rest) (trim cs)) = .ok t ↔ Writes (mark :: rest) cs t := by
  rw [read_eq_ok_iff]
  constructor
  · intro hdotted
    obtain ⟨before, after, hcs, hbefore, hafter⟩ := exists_trim cs
    rcases exists_stripLead (mark :: rest) (trim cs) with hbare | hled
    · exact ⟨before, [], _, after, by rw [List.nil_append, ← hbare, ← hcs], hbefore, hafter,
        Or.inl rfl, hdotted⟩
    · exact ⟨before, _, _, after, by rw [← hled, ← hcs], hbefore, hafter, Or.inr rfl, hdotted⟩
  · rintro ⟨before, lead, dotted, after, rfl, hbefore, hafter, hlead, hdotted⟩
    have hne : dotted ≠ [] := (read_eq_ok.mp (read_eq_ok_iff.mpr hdotted)).1
    have hlast : ∀ c ∈ (lead ++ dotted).getLast?, isBlank c = false := fun c hc =>
      not_isBlank_of_isDigit
        (hdotted.isDigit_of_mem_getLast? c (List.getLast?_append_of_ne_nil _ hne ▸ hc))
    -- the word begins with a digit or with the mark, so neither cut takes more than its own part
    rcases hlead with rfl | rfl
    · have hhead : ∀ c ∈ dotted.head?, isBlank c = false := fun c hc =>
        not_isBlank_of_isDigit (hdotted.isDigit_of_mem_head? c hc)
      rw [List.nil_append, trim_append hbefore hafter hhead hlast, stripLead_of_head?_ne]
      · exact hdotted
      · intro heq
        have hmark := hdotted.isDigit_of_mem_head? mark (heq ▸ rfl)
        rw [hdigit] at hmark
        cases hmark
    · have hhead : ∀ c ∈ (mark :: rest ++ dotted).head?, isBlank c = false := fun c hc => by
        rwa [← Option.some.inj hc]
      rw [trim_append hbefore hafter hhead hlast, stripLead_append]
      exact hdotted

/-- Components between dots are a writing as they stand, and so are they behind the tag. -/
theorem Dotted.writes {tag lead : List Char} (hlead : lead = [] ∨ lead = tag) (h : Dotted cs t) :
    Writes tag (lead ++ cs) t :=
  ⟨[], lead, cs, [], by simp, by simp, by simp, hlead, h⟩

theorem Dotted.writes_bare {tag : List Char} (h : Dotted cs t) : Writes tag cs t := by
  have hwrites : Writes tag ([] ++ cs) t := h.writes (Or.inl rfl)
  rwa [List.nil_append] at hwrites

end Triple

/-! ### Versions as they are read and written -/

theorem ApiVersion.parse_eq_ok_iff {s : String} {v : ApiVersion} :
    ApiVersion.parse s = .ok v ↔ Triple.Writes ['v'] s.toList v.triple := by
  rw [← Triple.read_eq_ok_iff_writes rfl rfl, ApiVersion.parse]
  cases Triple.read (stripLead ['v'] (trim s.toList)) with
  | error fault => simp
  | ok t => rw [Except.ok.injEq, Except.ok.injEq, ← ApiVersion.mk.injEq]

theorem ProductVersion.parse_eq_ok_iff {s : String} {v : ProductVersion} :
    ProductVersion.parse s = .ok v ↔ Triple.Writes "Slurm-".toList s.toList v.triple := by
  have htag : "Slurm-".toList = 'S' :: "lurm-".toList := by simp
  rw [htag, ← Triple.read_eq_ok_iff_writes rfl rfl, ProductVersion.parse, htag]
  cases Triple.read (stripLead ('S' :: "lurm-".toList) (trim s.toList)) with
  | error fault => simp
  | ok t => rw [Except.ok.injEq, Except.ok.injEq, ← ProductVersion.mk.injEq]

theorem ApiVersion.parse_total (s : String) :
    (∃ v, ApiVersion.parse s = .ok v) ∨ ∃ fault, ApiVersion.parse s = .error ⟨s, fault⟩ := by
  rw [ApiVersion.parse]
  cases Triple.read (stripLead ['v'] (trim s.toList)) with
  | error fault => exact Or.inr ⟨fault, rfl⟩
  | ok t => exact Or.inl ⟨⟨t⟩, rfl⟩

theorem ProductVersion.parse_total (s : String) :
    (∃ v, ProductVersion.parse s = .ok v) ∨ ∃ fault, ProductVersion.parse s = .error ⟨s, fault⟩ := by
  rw [ProductVersion.parse]
  cases Triple.read (stripLead "Slurm-".toList (trim s.toList)) with
  | error fault => exact Or.inr ⟨fault, rfl⟩
  | ok t => exact Or.inl ⟨⟨t⟩, rfl⟩

/-- What a revision is written as: the tag in front of the components. -/
theorem ApiVersion.writes_toText (v : ApiVersion) :
    Triple.Writes ['v'] v.toText.toList v.triple := by
  have hdotted : Triple.Dotted ((toString v.triple.major.toNat).toList ++ '.' ::
      ((toString v.triple.minor.toNat).toList ++ '.' :: (toString v.triple.patch.toNat).toList))
      v.triple :=
    ⟨_, _, _, rfl, numeral_toString _, numeral_toString _, numeral_toString _⟩
  have htext : Triple.Writes ['v'] (['v'] ++ _) v.triple := hdotted.writes (Or.inr rfl)
  simpa [ApiVersion.toText] using htext

/-- What a release is written as: its components, the second padded with zeros. -/
theorem ProductVersion.dotted_toText (v : ProductVersion) :
    Triple.Dotted v.toText.toList v.triple :=
  ⟨_, _, _, by simp [ProductVersion.toText], numeral_toString _, numeral_padded 2 _,
    numeral_toString _⟩

/-- A version is read from the texts of its grammar and from no other, a text that is refused is
    reported as it was given, and what a version is written as is read back. -/
theorem version_grammar (s : String) (a : ApiVersion) (p : ProductVersion) :
    (ApiVersion.parse s = .ok a ↔ Triple.Writes ['v'] s.toList a.triple) ∧
    (ProductVersion.parse s = .ok p ↔ Triple.Writes "Slurm-".toList s.toList p.triple) ∧
    ((∃ v, ApiVersion.parse s = .ok v) ∨ ∃ fault, ApiVersion.parse s = .error ⟨s, fault⟩) ∧
    ((∃ v, ProductVersion.parse s = .ok v) ∨ ∃ fault, ProductVersion.parse s = .error ⟨s, fault⟩) ∧
    ApiVersion.parse a.toText = .ok a ∧ ProductVersion.parse p.toText = .ok p := by
  have hrevision : ApiVersion.parse a.toText = .ok a :=
    ApiVersion.parse_eq_ok_iff.mpr a.writes_toText
  have hrelease : ProductVersion.parse p.toText = .ok p :=
    ProductVersion.parse_eq_ok_iff.mpr p.dotted_toText.writes_bare
  exact ⟨ApiVersion.parse_eq_ok_iff, ProductVersion.parse_eq_ok_iff, ApiVersion.parse_total s,
    ProductVersion.parse_total s, hrevision, hrelease⟩

-- A blank behind the tag is not around the version.
example : ApiVersion.parse "\u2003v00.0.042 " = .ok ⟨⟨0, 0, 42⟩⟩ ∧
    ApiVersion.parse "v 0.0.42" = .error ⟨"v 0.0.42", .notANumber .major⟩ := by decide

end SlurmLink
