import SlurmLink.Discovery
import SlurmLink.Proofs.JsonText
import SlurmLink.Proofs.VersionText

/-!
The release that an interface document reports, in whichever of the three forms a server gives it:

    info.x-slurm.release   "24.05.1"                               if it is a text
    info.x-slurm.version   major 24   minor "05"   micro 1         else, if it is whole
    info.version           "Slurm-24.05.1&openapi/slurmctld"       else

The forms meet in one text that is parsed as a release. `Discovery.Declares` says what each of them asks
of a document; the rest of the document, the order of members and the forms behind the one in use do not
matter.
-/

namespace SlurmLink.Discovery

open Text

/-! ### One component -/

/-- The member `key` is the number `n`, as an integer or in digits. -/
def Gives (version : Json) (key : String) (n : Nat) : Prop :=
  version.member? key = some (.int n) ∨
    ∃ digits, version.member? key = some (.str digits) ∧ Numeral digits.toList n

theorem Gives.component_eq {version : Json} {key : String} {n : Nat} (h : Gives version key n)
    (hn : n ≤ 18446744073709551615) : component version key = some n := by
  rcases h with hint | ⟨digits, hstr, hdigits⟩
  · have hnat : (Json.int n).natUpTo? 18446744073709551615 = some n := by
      rw [Json.natUpTo?, if_pos ⟨by omega, by omega⟩, Int.toNat_natCast]
    rw [component, hint, Option.bind_some, hnat, Option.some_or]
  · rw [component, hstr, Option.bind_some, Json.text?, Option.bind_some,
      readUnsigned_of_numeral hdigits hn]
    rfl

theorem Gives.component_eq_word {version : Json} {key : String} {n : UInt32}
    (h : Gives version key n.toNat) : component version key = some n.toNat :=
  h.component_eq (by have := n.toNat_lt; omega)

/-! ### The version text -/

theorem ofVersionText_append {lead rest : String} (hne : lead ≠ "") (hlead : '&' ∉ lead.toList)
    (hrest : ∀ c ∈ rest.toList.head?, c = '&') : ofVersionText (lead ++ rest) = some lead := by
  have hinside : ∀ c ∈ lead.toList, (c != '&') = true := fun c hc =>
    bne_iff_ne.mpr (ne_of_mem_of_not_mem hc hlead)
  have htake : (lead ++ rest).toList.takeWhile (· != '&') = lead.toList := by
    rw [String.toList_append, List.takeWhile_append_of_pos hinside]
    cases h : rest.toList with
    | nil => simp
    | cons c cs => simp [hrest c (h ▸ rfl)]
  rw [ofVersionText, htake, String.ofList_toList]
  exact if_neg (by simpa using hne)

/-- What a release is written as, with the tag or without it, holds no plugins. -/
theorem mark_not_mem {lead : String} (hlead : lead = "" ∨ lead = "Slurm-") (p : ProductVersion) :
    '&' ∉ (lead ++ p.toText).toList := by
  rw [String.toList_append, List.mem_append]
  rintro (hmem | hmem)
  · revert hmem
    rcases hlead with rfl | rfl <;> decide
  · rcases p.dotted_toText.isDigit_or_eq_dot _ hmem with hdigit | hdot
    · exact absurd hdigit (by decide)
    · exact absurd hdot (by decide)

/-! ### The forms of a document -/

/-- The document reports the release `p`, in the first form that yields anything. -/
inductive Declares (document : Json) (p : ProductVersion) : Prop
  /-- The release is named outright. -/
  | outright {text : String}
      (release : document.path? ["info", "x-slurm", "release"] = some (.str text))
      (parses : ProductVersion.parse text = .ok p)
  /-- No text names the release, and its components are given. -/
  | components {version : Json}
      (unnamed : (document.path? ["info", "x-slurm", "release"]).bind Json.text? = none)
      (version_eq : document.path? ["info", "x-slurm", "version"] = some version)
      (major : Gives version "major" p.triple.major.toNat)
      (minor : Gives version "minor" p.triple.minor.toNat)
      (micro : Gives version "micro" p.triple.patch.toNat)
  /-- Neither yields a release, and the version text begins with it. -/
  | versionText {lead rest : String}
      (unnamed : (document.path? ["info", "x-slurm", "release"]).bind Json.text? = none)
      (unbuilt : (document.path? ["info", "x-slurm", "version"]).bind ofComponents = none)
      (lead_eq : lead = "" ∨ lead = "Slurm-")
      (rest_eq : rest = "" ∨ ∃ plugins, rest = "&" ++ plugins)
      (version : document.path? ["info", "version"] = some (.str (lead ++ p.toText ++ rest)))

theorem reportedRelease_eq (document : Json) : reportedRelease document =
    ((document.path? ["info", "x-slurm", "release"]).bind Json.text?).or
      (((document.path? ["info", "x-slurm", "version"]).bind ofComponents).or
        (((document.path? ["info", "version"]).bind Json.text?).bind ofVersionText)) := by
  rw [reportedRelease]
  cases h : document.member? "info" with
  | none => simp [Json.path?, h]
  | some info => simp [Json.path?, h]

theorem ofComponents_eq {version : Json} {t : Triple} (hmajor : Gives version "major" t.major.toNat)
    (hminor : Gives version "minor" t.minor.toNat) (hmicro : Gives version "micro" t.patch.toNat) :
    ∃ text, ofComponents version = some text ∧ Triple.Dotted text.toList t := by
  have htext : ofComponents version = some (toString t.major.toNat ++ "." ++
      toString t.minor.toNat ++ "." ++ toString t.patch.toNat) := by
    rw [ofComponents, hmajor.component_eq_word, hminor.component_eq_word, hmicro.component_eq_word]
    rfl
  exact ⟨_, htext, _, _, _, by simp, numeral_toString _, numeral_toString _, numeral_toString _⟩

/-- Each form comes to a text that is parsed as the release. -/
theorem Declares.exists_text {document : Json} {p : ProductVersion} (h : Declares document p) :
    ∃ text, reportedRelease document = some text ∧ ProductVersion.parse text = .ok p := by
  rw [reportedRelease_eq]
  cases h with
  | @outright text release parses => exact ⟨text, by rw [release]; rfl, parses⟩
  | components unnamed version_eq major minor micro =>
    obtain ⟨text, htext, hdotted⟩ := ofComponents_eq major minor micro
    exact ⟨text, by rw [unnamed, version_eq, Option.bind_some, htext]; rfl,
      ProductVersion.parse_eq_ok_iff.mpr hdotted.writes_bare⟩
  | @versionText lead rest unnamed unbuilt lead_eq rest_eq version =>
    have hlead : lead.toList = [] ∨ lead.toList = "Slurm-".toList := by
      rcases lead_eq with rfl | rfl
      · exact Or.inl rfl
      · exact Or.inr rfl
    have hwrites : Triple.Writes "Slurm-".toList (lead.toList ++ p.toText.toList) p.triple :=
      p.dotted_toText.writes hlead
    rw [← String.toList_append] at hwrites
    have hparse := ProductVersion.parse_eq_ok_iff.mpr hwrites
    have hne : lead ++ p.toText ≠ "" := fun he => by rw [he] at hparse; cases hparse
    have hrest : ∀ c ∈ rest.toList.head?, c = '&' := by
      rcases rest_eq with rfl | ⟨plugins, rfl⟩
      · simp
      · simp
    have htext := ofVersionText_append hne (mark_not_mem lead_eq p) hrest
    exact ⟨lead ++ p.toText, by rw [unnamed, unbuilt, version]; exact htext, hparse⟩

/-- Every form of a release is read as that release: it is the text that the document reports and what
    the text is parsed as, and so it is the release in the body of an answer. -/
theorem forms_agree {document : Json} {p : ProductVersion} (h : Declares document p) :
    (∃ text, reportedRelease document = some text ∧ ProductVersion.parse text = .ok p) ∧
    ∀ endpoint body, readDocument body = some document → release endpoint body = .ok p := by
  obtain ⟨text, htext, hparse⟩ := h.exists_text
  refine ⟨⟨text, htext, hparse⟩, fun endpoint body hbody => ?_⟩
  rw [release, hbody]
  dsimp only
  rw [htext]
  dsimp only
  rw [hparse]

/-- A document that leaves the name of its release open and has other things to say in its version. -/
def evasiveDocument : Json :=
  .obj [("info", .obj [("version", .str "Slurm-23.11.0&openapi/slurmctld"),
    ("x-slurm", .obj [("release", .null),
      ("version", .obj [("micro", .str "3"), ("minor", .str "05"), ("major", .int 24)])])])]

theorem forms_agree_evasive : Declares evasiveDocument ⟨⟨24, 5, 3⟩⟩ ∧
    release "http://slurm.test:6820" (Utf8.encode evasiveDocument.compress.toList) =
      .ok ⟨⟨24, 5, 3⟩⟩ := by
  have hdigits : Numeral "05".toList 5 ∧ Numeral "3".toList 3 :=
    ⟨numeral_iff.mpr (by decide), numeral_iff.mpr (by decide)⟩
  have h : Declares evasiveDocument ⟨⟨24, 5, 3⟩⟩ :=
    .components rfl rfl (Or.inl rfl) (Or.inr ⟨_, rfl, hdigits.1⟩) (Or.inr ⟨_, rfl, hdigits.2⟩)
  have hwhole : Json.Whole evasiveDocument := by
    simp [evasiveDocument, Json.Whole, Json.WholeMembers, Json.fits, Json.greatestWord]
  have hbody : readDocument (Utf8.encode evasiveDocument.compress.toList) = some evasiveDocument := by
    rw [readDocument, Json.ofBytes?_compress hwhole]
    rfl
  exact ⟨h, (forms_agree h).2 _ _ hbody⟩

end SlurmLink.Discovery
