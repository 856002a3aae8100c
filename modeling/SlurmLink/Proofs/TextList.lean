import SlurmLink.Proofs.Document
import SlurmLink.Proofs.Spelling

/-!
Lists of texts in two shapes. A message has a list of texts as an array, or as one text with commas
between the items:

    ["IDLE", "DRAIN"]      " IDLE ,DRAIN"
            │                     │ pieces
            │               " IDLE "  "DRAIN"
            │                     │ trim, and no empty ones
            ▼                     ▼
    ["IDLE", "DRAIN"]      ["IDLE", "DRAIN"]

Both are read as the same list if its items can stand in such a text (`Text.Item`), whatever blanks are
put around them (`readTexts_agree`); and cutting any text gives items of this kind, so a second cut after
they were joined changes nothing.
-/

namespace SlurmLink

namespace Text

/-! ### Items -/

/-- An item that can stand in a text with commas. -/
structure Item (cs : List Char) : Prop where
  ne_nil : cs ≠ []
  noComma : ',' ∉ cs
  trimmed : Trimmed cs

instance (cs : List Char) : Decidable (Item cs) :=
  decidable_of_iff (cs ≠ [] ∧ ',' ∉ cs ∧ cs.head?.any isBlank = false ∧ cs.getLast?.any isBlank = false)
    ⟨fun h => ⟨h.1, h.2.1, (Option.any_eq_false ..).mp h.2.2.1, (Option.any_eq_false ..).mp h.2.2.2⟩,
      fun h => ⟨h.ne_nil, h.noComma, (Option.any_eq_false ..).mpr h.trimmed.head,
        (Option.any_eq_false ..).mpr h.trimmed.last⟩⟩

/-- A piece of text is an item with blanks around it. -/
def Pads (item piece : List Char) : Prop :=
  ∃ before after, piece = before ++ item ++ after ∧ (∀ c ∈ before, isBlank c = true) ∧
    ∀ c ∈ after, isBlank c = true

/-- A text joins items with commas, with any blanks around each of them. -/
def Joins (items : List (List Char)) (text : List Char) : Prop :=
  ∃ padded, List.Forall₂ Pads items padded ∧ text = [','].intercalate padded

theorem pads_self (item : List Char) : Pads item item :=
  ⟨[], [], by simp, by simp, by simp⟩

theorem joins_self : ∀ items : List (List Char), Joins items ([','].intercalate items) :=
  fun items => ⟨items, List.forall₂_same.mpr fun item _ => pads_self item, rfl⟩

theorem toList_joinWith : ∀ items : List String,
    (joinWith "," items).toList = [','].intercalate (items.map String.toList)
  | [] => rfl
  | [s] => by simp [joinWith]
  | s :: t :: rest => by
    have hjoin : joinWith "," (s :: t :: rest) = s ++ "," ++ joinWith "," (t :: rest) := rfl
    rw [hjoin, String.toList_append, String.toList_append, toList_joinWith (t :: rest), List.map_cons,
      List.map_cons, List.map_cons, List.intercalate_cons_cons]
    rfl

theorem Pads.trim_eq {item piece : List Char} (h : Pads item piece) : trim piece = trim item := by
  obtain ⟨before, after, rfl, hbefore, hafter⟩ := h
  exact trim_around hbefore hafter

theorem pads_trim (cs : List Char) : Pads (trim cs) cs := by
  obtain ⟨before, after, hcs, hbefore, hafter⟩ := exists_trim cs
  exact ⟨before, after, hcs, hbefore, hafter⟩

/-- Neither an item nor a blank has a comma. -/
theorem Pads.noComma {item piece : List Char} (h : Pads item piece) (hitem : Item item) :
    ',' ∉ piece := by
  obtain ⟨before, after, rfl, hbefore, hafter⟩ := h
  have hblank : isBlank ',' = false := by decide
  simp only [List.mem_append, not_or]
  refine ⟨⟨fun hc => ?_, hitem.noComma⟩, fun hc => ?_⟩
  · rw [hbefore _ hc] at hblank
    cases hblank
  · rw [hafter _ hc] at hblank
    cases hblank

/-! ### Cutting -/

theorem map_trim {items padded : List (List Char)} (h : List.Forall₂ Pads items padded)
    (hitems : ∀ item ∈ items, Item item) : padded.map trim = items := by
  induction h with
  | nil => rfl
  | cons hpad _ ih =>
    rw [List.map_cons, hpad.trim_eq, (hitems _ List.mem_cons_self).trimmed.trim_eq,
      ih fun item hitem => hitems item (List.mem_cons_of_mem _ hitem)]

theorem noComma_padded {items padded : List (List Char)} (h : List.Forall₂ Pads items padded)
    (hitems : ∀ item ∈ items, Item item) : ∀ piece ∈ padded, ',' ∉ piece := by
  induction h with
  | nil => simp
  | cons hpad _ ih =>
    rw [List.forall_mem_cons]
    exact ⟨hpad.noComma (hitems _ List.mem_cons_self),
      ih fun item hitem => hitems item (List.mem_cons_of_mem _ hitem)⟩

/-- A text that joins items is cut into these items. -/
theorem splitList_of_joins {items : List (List Char)} {text : List Char}
    (hitems : ∀ item ∈ items, Item item) (h : Joins items text) : splitList text = items := by
  obtain ⟨padded, hpads, rfl⟩ := h
  have hkeep : items.filter (fun item => !item.isEmpty) = items :=
    List.filter_eq_self.mpr fun item hitem => by
      rw [Bool.not_eq_true', List.isEmpty_eq_false_iff]
      exact (hitems item hitem).ne_nil
  cases hpads with
  | nil => rfl
  | cons hpad hrest =>
    rw [splitList, pieces_eq_splitOn, List.splitOn_intercalate ',' (noComma_padded (.cons hpad hrest) hitems)
      (List.cons_ne_nil _ _), map_trim (.cons hpad hrest) hitems, hkeep]

theorem not_mem_of_mem_pieces {sep : Char} : ∀ {cs piece : List Char}, piece ∈ pieces sep cs → sep ∉ piece
  | [], piece, h => by
    rw [pieces, List.mem_singleton] at h
    rw [h]
    exact List.not_mem_nil
  | c :: cs, piece, h => by
    rw [pieces] at h
    split at h
    · rcases List.mem_cons.mp h with rfl | h
      · exact List.not_mem_nil
      · exact not_mem_of_mem_pieces h
    · next hc =>
      cases hcs : pieces sep cs with
      | nil => exact absurd hcs (pieces_ne_nil sep cs)
      | cons p ps =>
        rw [hcs] at h
        rcases List.mem_cons.mp h with rfl | h
        · have hp : sep ∉ p := not_mem_of_mem_pieces (hcs ▸ List.mem_cons_self)
          simpa [hp] using Ne.symm hc
        · exact not_mem_of_mem_pieces (hcs ▸ List.mem_cons_of_mem _ h)

theorem mem_of_mem_trim {c : Char} {cs : List Char} (h : c ∈ trim cs) : c ∈ cs := by
  obtain ⟨before, after, hcs, -, -⟩ := exists_trim cs
  rw [hcs]
  simp [h]

/-- Whatever a text is, cutting it gives items. -/
theorem item_of_mem_splitList {cs item : List Char} (h : item ∈ splitList cs) : Item item := by
  obtain ⟨hmem, hne⟩ := List.mem_filter.mp h
  obtain ⟨piece, hpiece, rfl⟩ := List.mem_map.mp hmem
  rw [Bool.not_eq_true', List.isEmpty_eq_false_iff] at hne
  exact ⟨hne, fun hc => not_mem_of_mem_pieces hpiece (mem_of_mem_trim hc), trimmed_trim piece⟩

end Text

namespace Json

theorem readTexts_str {level : Nat} (hlevel : level ≤ maxDepth) (text : String) :
    readTexts level (.str text) = some ((Text.splitList text.toList).map String.ofList) := by
  have hkept : (Json.str text).isKept level = true := decide_eq_true hlevel
  rw [readTexts, hkept]
  rfl

/-- The two shapes of a list of texts agree. A list of texts that are not empty, have no comma and neither
    begin nor end with a blank is read as itself from an array of them, and from every text that joins them
    with commas and any blanks around each of them. And whatever a text is, the items read from it are of
    this kind, and the text that joins them with commas is read as the same items. -/
theorem readTexts_agree {level : Nat} (hlevel : level < maxDepth) :
    (∀ items : List String, (∀ item ∈ items, Text.Item item.toList) →
      readTexts level (.ofTexts items) = some items ∧
      ∀ text : String, Text.Joins (items.map String.toList) text.toList →
        readTexts level (.str text) = some items) ∧
    ∀ text : String, ∃ items, readTexts level (.str text) = some items ∧
      (∀ item ∈ items, Text.Item item.toList) ∧
      readTexts level (.str (Text.joinWith "," items)) = some items := by
  have hjoined : ∀ items : List String, (∀ item ∈ items, Text.Item item.toList) →
      ∀ text : String, Text.Joins (items.map String.toList) text.toList →
        readTexts level (.str text) = some items := by
    intro items hitems text htext
    have hitems : ∀ item ∈ items.map String.toList, Text.Item item := by
      simpa using hitems
    rw [readTexts_str hlevel.le, Text.splitList_of_joins hitems htext, List.map_map]
    simp
  refine ⟨fun items hitems => ⟨?_, hjoined items hitems⟩, fun text => ?_⟩
  · rw [← canonical_ofTexts]
    exact readTexts_ofTexts hlevel items
  · have hitems : ∀ item ∈ (Text.splitList text.toList).map String.ofList, Text.Item item.toList := by
      intro item hitem
      obtain ⟨cs, hcs, rfl⟩ := List.mem_map.mp hitem
      rw [String.toList_ofList]
      exact Text.item_of_mem_splitList hcs
    refine ⟨_, readTexts_str hlevel.le text, hitems, hjoined _ hitems _ ?_⟩
    rw [Text.toList_joinWith]
    exact Text.joins_self _

/-- Blanks of several kinds around two items, and a text whose pieces are in part empty. -/
theorem readTexts_agree_padded : 3 < maxDepth ∧
    (∀ item ∈ ["IDLE", "NOT RESPONDING"], Text.Item item.toList) ∧
    readTexts 3 (.ofTexts ["IDLE", "NOT RESPONDING"]) = some ["IDLE", "NOT RESPONDING"] ∧
    readTexts 3 (.str "\tIDLE ,\u3000NOT RESPONDING\n") = some ["IDLE", "NOT RESPONDING"] ∧
    ∃ items, readTexts 3 (.str " , a b,,c ,") = some items ∧
      readTexts 3 (.str (Text.joinWith "," items)) = some items := by
  have hlevel : 3 < maxDepth := by decide
  have hitems : ∀ item ∈ ["IDLE", "NOT RESPONDING"], Text.Item item.toList := by decide
  obtain ⟨hboth, hany⟩ := readTexts_agree hlevel
  obtain ⟨hlist, htext⟩ := hboth ["IDLE", "NOT RESPONDING"] hitems
  obtain ⟨items, hread, -, hagain⟩ := hany " , a b,,c ,"
  refine ⟨hlevel, hitems, hlist, htext _ ?_, items, hread, hagain⟩
  exact ⟨["\tIDLE ".toList, "\u3000NOT RESPONDING\n".toList],
    .cons ⟨['\t'], [' '], by decide, List.forall_mem_singleton.mpr rfl, List.forall_mem_singleton.mpr rfl⟩
      (.cons ⟨['\u3000'], ['\n'], by decide, List.forall_mem_singleton.mpr rfl,
        List.forall_mem_singleton.mpr rfl⟩ .nil), by decide⟩

end Json

end SlurmLink
