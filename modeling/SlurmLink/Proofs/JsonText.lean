import SlurmLink.Json.Canonical
import SlurmLink.Json.Printer
import SlurmLink.Json.Reader
import SlurmLink.Proofs.Percent

/-!
JSON text loses nothing of a value whose numbers are integers of 64 bits. What is written for such a
value is read as that value, up to the bracket or comma after it:

    value ──compress──▶ text ──encode──▶ bytes ──ofBytes?──▶ value

`value_compress` goes by recursion over the value, with one lemma for each kind of token in front of it:
strings (`string_quote`) and numbers (`number_toString`).
-/

namespace SlurmLink.Json

mutual

/-- All numbers in a value are integers of 64 bits, and all of it can be read. -/
def Whole : Json → Prop
  | .int n => fits n = true
  | .decimal _ => False
  | .garbled => False
  | .arr items => WholeList items
  | .obj members => WholeMembers members
  | _ => True

def WholeList : List Json → Prop
  | [] => True
  | v :: vs => Whole v ∧ WholeList vs

def WholeMembers : List (String × Json) → Prop
  | [] => True
  | (_, v) :: ms => Whole v ∧ WholeMembers ms

end

namespace Reader

/-! ### Strings -/

/-- The item that a character of a string is written as. -/
def itemOf (c : Char) : Item :=
  if c.toNat < 0x20 ∧ c ≠ '\n' ∧ c ≠ '\r' ∧ c ≠ '\t' ∧ c ≠ '\x08' ∧ c ≠ '\x0c' then .unit c.toNat
  else .char c

theorem hexValue_hexDigit {n : Nat} (h : n < 16) : Text.hexValue (hexDigit n) = some n := by
  have all : ∀ m ∈ List.range 16, Text.hexValue (hexDigit m) = some m := by decide
  exact all n (List.mem_range.mpr h)

theorem hexUnit_hexDigit {n : Nat} (h : n < 256) :
    hexUnit '0' '0' (hexDigit (n / 16)) (hexDigit (n % 16)) = some n := by
  have hzero : Text.hexValue '0' = some 0 := rfl
  simp only [hexUnit, hzero, hexValue_hexDigit (show n / 16 < 16 by omega),
    hexValue_hexDigit (show n % 16 < 16 by omega), bind, Option.bind]
  congr 1
  omega

/-- A character that is written as it is. -/
theorem items_plain {c : Char} (hquote : c ≠ '"') (hback : c ≠ '\\') (hlow : ¬ c.toNat < 0x20)
    (rest : Input) : items (some c :: rest) = (items rest).map fun r => (.char c :: r.1, r.2) := by
  rw [items.eq_def]
  split
  all_goals simp_all only [List.cons.injEq, Option.some.injEq, reduceCtorEq, false_and,
    if_false]

/-- An escaped character is read as one item. -/
theorem items_escapeChar (c : Char) (rest : Input) :
    items ((escapeChar c).map some ++ rest) = (items rest).map fun r => (itemOf c :: r.1, r.2) := by
  by_cases hshort : c ∈ ['"', '\\', '\n', '\r', '\t', '\x08', '\x0c']
  · simp only [List.mem_cons, List.not_mem_nil, or_false] at hshort
    rcases hshort with rfl | rfl | rfl | rfl | rfl | rfl | rfl <;> rfl
  · simp only [List.mem_cons, List.not_mem_nil, or_false, not_or] at hshort
    obtain ⟨hquote, hback, hn, hr, ht, hb, hf⟩ := hshort
    simp only [escapeChar, if_neg hquote, if_neg hback, if_neg hn, if_neg hr, if_neg ht, if_neg hb,
      if_neg hf]
    by_cases hlow : c.toNat < 0x20
    · have hitem : itemOf c = .unit c.toNat := if_pos ⟨hlow, hn, hr, ht, hb, hf⟩
      simp only [if_pos hlow, hitem, List.map_cons, List.map_nil, List.cons_append, List.nil_append]
      rw [items, hexUnit_hexDigit (by omega)]
    · have hitem : itemOf c = .char c := if_neg fun h => hlow h.1
      simp only [if_neg hlow, hitem, List.map_cons, List.map_nil, List.cons_append, List.nil_append]
      exact items_plain hquote hback hlow rest

theorem items_flatMap_escapeChar (rest : Input) : ∀ cs : List Char,
    items ((cs.flatMap escapeChar).map some ++ some '"' :: rest) = some (cs.map itemOf, rest)
  | [] => rfl
  | c :: cs => by
    rw [List.flatMap_cons, List.map_append, List.append_assoc, items_escapeChar,
      items_flatMap_escapeChar rest cs]
    rfl

/-- A unit that is no half of a pair makes a character, whatever comes next. -/
theorem assemble_unit {u : Nat} (hhigh : isHigh u = false) (hlow : isLow u = false)
    (rest : List Item) :
    assemble (.unit u :: rest) = (assemble rest).map (Char.ofNat u :: ·) := by
  cases rest with
  | nil => simp only [assemble, hhigh, hlow, Bool.or_self, Bool.false_eq_true, if_false]
  | cons item rest =>
    cases item <;>
      simp only [assemble, hhigh, hlow, Bool.or_self, Bool.false_eq_true, if_false, Option.map_none]

/-- The items of a text make up that text. No item of it is half of a pair of units. -/
theorem assemble_map_itemOf : ∀ cs : List Char, assemble (cs.map itemOf) = some cs
  | [] => rfl
  | c :: cs => by
    have ih := assemble_map_itemOf cs
    rw [List.map_cons, itemOf]
    split
    · next h =>
      have hhigh : isHigh c.toNat = false := by
        simp only [isHigh, Bool.and_eq_false_iff, decide_eq_false_iff_not]; omega
      have hlow : isLow c.toNat = false := by
        simp only [isLow, Bool.and_eq_false_iff, decide_eq_false_iff_not]; omega
      rw [assemble_unit hhigh hlow, ih, Char.ofNat_toNat]; rfl
    · rw [assemble, ih]; rfl

/-- A string is read back from between its quotes. -/
theorem string_quote (s : String) (rest : Input) :
    string ((s.toList.flatMap escapeChar).map some ++ some '"' :: rest) = some (some s, rest) := by
  simp only [string, items_flatMap_escapeChar, assemble_map_itemOf, Option.map_some,
    String.ofList_toList]

/-! ### Numbers -/

/-- What may come after a value: nothing, a comma or a closing bracket. -/
def Stops (rest : Input) : Prop :=
  ∀ c, rest.head? = some c → c = some ',' ∨ c = some ']' ∨ c = some '}'

theorem spanDigits_append {rest : Input} (hr : Stops rest) : ∀ {ds : List Char},
    (∀ c ∈ ds, Text.isDigit c = true) → spanDigits (ds.map some ++ rest) = (ds, rest)
  | [], _ => by
    cases rest with
    | nil => rfl
    | cons c rest =>
      rcases hr c rfl with rfl | rfl | rfl <;> rfl
  | d :: ds, hd => by
    have ih := spanDigits_append hr fun c hc => hd c (List.mem_cons_of_mem _ hc)
    rw [List.map_cons, List.cons_append, spanDigits, if_pos (hd d List.mem_cons_self), ih]

theorem isDigit_toDigits {n : Nat} : ∀ c ∈ Nat.toDigits 10 n, Text.isDigit c = true := by
  intro c hc
  have h := Nat.isDigit_of_mem_toDigits (by decide) (by decide) hc
  simp only [Char.isDigit, Text.isDigit, Bool.and_eq_true, decide_eq_true_eq] at h ⊢
  exact h

/-- The digits of a number begin with a zero only if there is nothing else to write. -/
theorem head_toDigits (n : Nat) :
    (Nat.toDigits 10 n).head? = some '0' → (Nat.toDigits 10 n).length = 1 := by
  induction n using Nat.strongRecOn with
  | _ n ih =>
    rw [Nat.toDigits_eq_if (by decide)]
    split
    · intro; rfl
    · next hn =>
      intro h
      rw [List.head?_append, Option.or_of_isSome
        (List.isSome_head?.mpr Nat.toDigits_ne_nil)] at h
      have hlen := ih (n / 10) (by omega) h
      rw [Nat.toDigits_eq_if (by decide)] at h hlen
      split at h
      · next hlt =>
        have all : ∀ m ∈ List.range 10, m.digitChar = '0' → m = 0 := by decide
        have := all (n / 10) (List.mem_range.mpr hlt) (Option.some.inj h)
        omega
      · next hge =>
        rw [if_neg hge, List.length_append, List.length_singleton] at hlen
        have := Nat.length_toDigits_pos (b := 10) (n := n / 10 / 10)
        omega

/-- Digits are gathered as long as 64 bits hold the number. -/
theorem gather_eq : ∀ (cs : List Char) (n : Nat),
    cs.foldl (fun n c => 10 * n + Text.digitValue c) n ≤ greatestWord →
    gather n cs = (cs.foldl (fun n c => 10 * n + Text.digitValue c) n, 0)
  | [], _, _ => rfl
  | c :: cs, n, h => by
    have hgrows : ∀ (ds : List Char) (m : Nat),
        m ≤ ds.foldl (fun n c => 10 * n + Text.digitValue c) m := by
      intro ds
      induction ds with
      | nil => exact fun m => Nat.le_refl m
      | cons d ds ih =>
        exact fun m => Nat.le_trans (show m ≤ 10 * m + Text.digitValue d by omega) (ih _)
    rw [List.foldl_cons] at h ⊢
    rw [gather, if_pos (Nat.le_trans (hgrows cs _) h), gather_eq cs _ h]

/-- The number that a run of digits denotes is in the range of doubles if 64 bits hold it. -/
theorem doubleOfParts?_isSome {whole : List Char} (negative : Bool)
    (h : Text.digitsValue whole ≤ greatestWord) :
    (doubleOfParts? negative whole [] 0).isNone = false := by
  have hsig : significand whole [] = (Text.digitsValue whole, 0) := by
    simp only [significand, gather_eq whole 0 h, Text.digitsValue, gather]
    rfl
  simp only [doubleOfParts?, hsig, scaled?]
  rfl

/-- An integer is read back from its digits, with or without a sign in front. -/
theorem number_digits {n : Nat} (h : n ≤ greatestWord) {rest : Input} (hr : Stops rest) :
    number ((Nat.toDigits 10 n).map some ++ rest) = some (.int n, rest) ∧
      (n ≠ 0 → number (some '-' :: ((Nat.toDigits 10 n).map some ++ rest)) =
        some (.int (-(n : Int)), rest)) := by
  have hvalue : Text.digitsValue (Nat.toDigits 10 n) = n :=
    Nat.ofDigitChars_toDigits (by decide) (by decide)
  have hspan := spanDigits_append hr (isDigit_toDigits (n := n))
  have hempty : (Nat.toDigits 10 n).isEmpty = false := by
    rw [List.isEmpty_eq_false_iff]; exact Nat.toDigits_ne_nil
  have hlead : ((Nat.toDigits 10 n).head? == some '0' &&
      decide (1 < (Nat.toDigits 10 n).length)) = false := by
    rw [Bool.and_eq_false_iff, beq_eq_false_iff_ne, decide_eq_false_iff_not]
    by_cases hz : (Nat.toDigits 10 n).head? = some '0'
    · exact Or.inr (by rw [head_toDigits n hz]; decide)
    · exact Or.inl hz
  have hfraction : fractionPart rest = some ([], rest) := by
    cases rest with
    | nil => rfl
    | cons c rest => rcases hr c rfl with rfl | rfl | rfl <;> rfl
  have hexponent : exponentPart rest = some (none, rest) := by
    cases rest with
    | nil => rfl
    | cons c rest => rcases hr c rfl with rfl | rfl | rfl <;> rfl
  have hzero : n ≠ 0 → (Nat.toDigits 10 n == ['0']) = false := by
    intro hn
    rw [beq_eq_false_iff_ne]
    intro he
    rw [he] at hvalue
    exact hn hvalue.symm
  have hdouble : ∀ negative, (doubleOfParts? negative (Nat.toDigits 10 n) [] 0).isNone = false :=
    fun negative => doubleOfParts?_isSome negative (by rw [hvalue]; exact h)
  have hpower : ((Text.digitsValue [] : Nat) : Int) = 0 := rfl
  constructor
  · rw [number]
    · simp only [hspan, hempty, hlead, Bool.or_self, Bool.false_eq_true, if_false, bind, Option.bind,
        hfraction, hexponent, Option.getD_none, hpower, hdouble, hvalue, List.isEmpty_nil,
        Option.isNone_none, Bool.and_self, Bool.false_and, Bool.not_false, if_true]
    · intro rest' he
      cases hd : Nat.toDigits 10 n with
      | nil => exact absurd hd Nat.toDigits_ne_nil
      | cons d ds =>
        rw [hd] at he
        cases he
        exact absurd (isDigit_toDigits (n := n) '-' (by rw [hd]; exact List.mem_cons_self))
          (by decide)
  · intro hn
    rw [number]
    simp only [hspan, hempty, hlead, Bool.or_self, Bool.false_eq_true, if_false, bind, Option.bind,
      hfraction, hexponent, Option.getD_none, hpower, hdouble, hvalue, List.isEmpty_nil,
      Option.isNone_none, Bool.and_self, hzero hn, Bool.and_false, Bool.not_false, if_true]

/-- An integer of 64 bits is read back from its text. -/
theorem number_toString {n : Int} (h : fits n = true) {rest : Input} (hr : Stops rest) :
    number ((toString n).toList.map some ++ rest) = some (.int n, rest) := by
  simp only [fits, Bool.and_eq_true, decide_eq_true_eq] at h
  rw [Int.toString_eq_repr, Int.repr_eq_if]
  split
  · next hpos =>
    have hnat := (number_digits (n := n.toNat) (by omega) hr).1
    rw [Nat.toList_repr, hnat, Int.toNat_of_nonneg hpos]
  · next hneg =>
    have hle : (-n).toNat ≤ greatestWord := by simp only [greatestWord] at h ⊢; omega
    have hnat := (number_digits hle hr).2 (by omega)
    rw [String.toList_append, Nat.toList_repr]
    rw [Int.toNat_of_nonneg (by omega), Int.neg_neg] at hnat
    exact hnat

/-! ### Values -/

theorem skipSpace_cons {c : Char} (h : isSpace c = false) (rest : Input) :
    skipSpace (some c :: rest) = some c :: rest := by
  rw [skipSpace, h]
  rfl

mutual

/-- How many steps the reader takes at most for the text of a value. -/
def steps : Json → Nat
  | .arr items => stepsList items + 1
  | .obj members => stepsMembers members + 1
  | _ => 1

def stepsList : List Json → Nat
  | [] => 0
  | v :: vs => max (steps v) (stepsList vs) + 1

def stepsMembers : List (String × Json) → Nat
  | [] => 0
  | (_, v) :: ms => max (steps v) (stepsMembers ms) + 1

end

/-- The texts of the items of an array, with commas between them. -/
def itemsText (vs : List Json) : List Char := (Text.joinWith "," (compressList vs)).toList

/-- The texts of the members of an object, with commas between them. -/
def membersText (ms : List (String × Json)) : List Char :=
  (Text.joinWith "," (compressMembers ms)).toList

theorem toList_quote (s : String) :
    (quote s).toList = '"' :: (s.toList.flatMap escapeChar ++ ['"']) := by
  rw [quote, String.toList_ofList]
  rfl

theorem toList_compress_arr (vs : List Json) :
    (compress (.arr vs)).toList = '[' :: (itemsText vs ++ [']']) := by
  simp only [compress, String.toList_append, itemsText]
  rfl

theorem toList_compress_obj (ms : List (String × Json)) :
    (compress (.obj ms)).toList = '{' :: (membersText ms ++ ['}']) := by
  simp only [compress, String.toList_append, membersText]
  rfl

theorem itemsText_cons (v w : Json) (vs : List Json) :
    itemsText (v :: w :: vs) = (compress v).toList ++ ',' :: itemsText (w :: vs) := by
  simp only [itemsText, compressList, Text.joinWith, String.toList_append, List.append_assoc]
  rfl

theorem memberText_eq (key : String) (v : Json) : membersText [(key, v)] =
    '"' :: (key.toList.flatMap escapeChar ++ '"' :: ':' :: (compress v).toList) := by
  simp only [membersText, compressMembers, Text.joinWith, String.toList_append, toList_quote,
    List.append_assoc, List.cons_append]
  rfl

theorem membersText_cons (m m' : String × Json) (ms : List (String × Json)) :
    membersText (m :: m' :: ms) = membersText [m] ++ ',' :: membersText (m' :: ms) := by
  simp only [membersText, compressMembers, Text.joinWith, String.toList_append, List.append_assoc]
  rfl

/-- The text of an integer begins with a minus sign or a digit. -/
theorem exists_head_int (n : Int) : ∃ c cs, (compress (.int n)).toList = c :: cs ∧
    ∀ d, d ≠ '-' → Text.isDigit d = false → c ≠ d := by
  rw [compress, Int.toString_eq_repr, Int.repr_eq_if]
  split
  · rw [Nat.toList_repr]
    cases h : Nat.toDigits 10 n.toNat with
    | nil => exact absurd h Nat.toDigits_ne_nil
    | cons c cs =>
      refine ⟨c, cs, rfl, ?_⟩
      rintro d - hd rfl
      rw [isDigit_toDigits c (by rw [h]; exact List.mem_cons_self)] at hd
      cases hd
  · rw [String.toList_append]
    exact ⟨'-', _, rfl, fun d hd _ => Ne.symm hd⟩

/-- How the text of a value begins: not with a blank, and not with what ends an array. -/
theorem exists_head : ∀ {v : Json}, Whole v → ∃ c cs, (compress v).toList = c :: cs ∧
    isSpace c = false ∧ c ≠ ']'
  | .null, _ => ⟨_, _, rfl, by decide, by decide⟩
  | .bool true, _ => ⟨_, _, rfl, by decide, by decide⟩
  | .bool false, _ => ⟨_, _, rfl, by decide, by decide⟩
  | .int n, _ => by
    obtain ⟨c, cs, h, hne⟩ := exists_head_int n
    refine ⟨c, cs, h, ?_, hne _ (by decide) (by decide)⟩
    simp only [isSpace, Bool.or_eq_false_iff, beq_eq_false_iff_ne]
    exact ⟨⟨⟨hne _ (by decide) (by decide), hne _ (by decide) (by decide)⟩,
      hne _ (by decide) (by decide)⟩, hne _ (by decide) (by decide)⟩
  | .str s, _ => ⟨_, _, by rw [compress, toList_quote], by decide, by decide⟩
  | .arr vs, _ => ⟨_, _, toList_compress_arr vs, by decide, by decide⟩
  | .obj ms, _ => ⟨_, _, toList_compress_obj ms, by decide, by decide⟩

theorem stops_comma (rest : Input) : Stops (some ',' :: rest) := fun _ h => by
  cases h; exact Or.inl rfl

theorem stops_bracket (rest : Input) : Stops (some ']' :: rest) := fun _ h => by
  cases h; exact Or.inr (Or.inl rfl)

theorem stops_brace (rest : Input) : Stops (some '}' :: rest) := fun _ h => by
  cases h; exact Or.inr (Or.inr rfl)

/-- The members of an object all have texts as keys. -/
theorem object_map (ms : List (String × Json)) :
    object (ms.map fun m => (some m.1, m.2)) = .obj ms := by
  have h : (ms.map fun m : String × Json => (some m.1, m.2)).mapM
      (fun m => m.1.map (fun key => (key, m.2))) = some ms := by
    induction ms with
    | nil => rfl
    | cons m ms ih => rw [List.map_cons, List.mapM_cons, ih]; rfl
  rw [object, h]

/-- An array that is not empty is read item by item. -/
theorem value_bracket {v : Json} (hv : Whole v) {text : List Char}
    (htext : ∃ more, text = (compress v).toList ++ more) (n : Nat) (rest : Input) :
    value (n + 1) (some '[' :: (text.map some ++ rest)) =
      (elements n (text.map some ++ rest)).map fun r => (.arr r.1, r.2) := by
  obtain ⟨more, rfl⟩ := htext
  obtain ⟨c, cs, hc, hspace, hne⟩ := exists_head hv
  rw [value]
  simp only [skipSpace_cons (c := '[') (by decide), hc, List.cons_append, List.map_cons,
    skipSpace_cons hspace]
  split
  · next he => cases he; exact absurd rfl hne
  · rfl

/-- An object that is not empty is read member by member. -/
theorem value_brace (n : Nat) (rest : Input) : value (n + 1) (some '{' :: some '"' :: rest) =
    (members n (some '"' :: rest)).map fun r => (object r.1, r.2) := by
  rw [value]
  simp only [skipSpace_cons (c := '{') (by decide), skipSpace_cons (c := '"') (by decide)]
  rfl

/-- What begins like a number is read as one. -/
theorem value_number {c : Char} (hne : ∀ d, d ≠ '-' → Text.isDigit d = false → c ≠ d) (n : Nat)
    (rest : Input) : value (n + 1) (some c :: rest) = number (some c :: rest) := by
  have hspace : isSpace c = false := by
    simp only [isSpace, Bool.or_eq_false_iff, beq_eq_false_iff_ne]
    exact ⟨⟨⟨hne _ (by decide) (by decide), hne _ (by decide) (by decide)⟩,
      hne _ (by decide) (by decide)⟩, hne _ (by decide) (by decide)⟩
  have hobject := hne '{' (by decide) (by decide)
  have harray := hne '[' (by decide) (by decide)
  have hstring := hne '"' (by decide) (by decide)
  have htrue := hne 't' (by decide) (by decide)
  have hfalse := hne 'f' (by decide) (by decide)
  have hnull := hne 'n' (by decide) (by decide)
  rw [value, skipSpace_cons hspace]
  split <;> simp_all only [ne_eq, List.cons.injEq, Option.some.injEq, false_and]

/-- A member is read as its key and its value. -/
theorem members_key {n : Nat} {key : String} {v : Json} {mark : Char} {rest : Input}
    (hspace : isSpace mark = false)
    (hv : value n ((compress v).toList.map some ++ some mark :: rest) = some (v, some mark :: rest)) :
    members (n + 1) ((membersText [(key, v)]).map some ++ some mark :: rest) =
      match some mark :: rest with
      | some ',' :: rest => (members n rest).map fun r => ((some key, v) :: r.1, r.2)
      | some '}' :: rest => some ([(some key, v)], rest)
      | _ => none := by
  rw [memberText_eq, List.map_cons, List.cons_append, members, skipSpace_cons (by decide)]
  simp only [List.map_append, List.map_cons, List.append_assoc, List.cons_append, string_quote,
    skipSpace_cons (c := ':') (by decide), hv, skipSpace_cons hspace]
  rfl

mutual

/-- A value is read back from its text, up to what ends it. -/
theorem value_compress : ∀ (v : Json) (n : Nat) (rest : Input), Whole v → steps v ≤ n → Stops rest →
    value n ((compress v).toList.map some ++ rest) = some (v, rest)
  | v, 0, rest, _, hn, _ => by cases v <;> simp [steps] at hn
  | .null, n + 1, rest, _, _, _ => rfl
  | .bool true, n + 1, rest, _, _, _ => rfl
  | .bool false, n + 1, rest, _, _, _ => rfl
  | .int i, n + 1, rest, hw, _, hr => by
    obtain ⟨c, cs, htext, hne⟩ := exists_head_int i
    have h := number_toString hw hr
    rw [← compress, htext, List.map_cons, List.cons_append] at h
    rw [htext, List.map_cons, List.cons_append, value_number hne, h]
  | .str s, n + 1, rest, _, _, _ => by
    rw [compress, toList_quote, List.map_cons, List.cons_append, List.map_append, List.append_assoc,
      value, skipSpace_cons (by decide)]
    simp only [List.map_cons, List.map_nil, List.cons_append, List.nil_append, string_quote,
      Option.map_some, Option.getD_some]
  | .arr [], n + 1, rest, _, _, _ => rfl
  | .arr (v :: vs), n + 1, rest, hw, hn, _ => by
    have hmore : ∃ more, itemsText (v :: vs) = (compress v).toList ++ more := by
      cases vs with
      | nil => exact ⟨[], (List.append_nil _).symm⟩
      | cons w vs => exact ⟨_, itemsText_cons v w vs⟩
    rw [toList_compress_arr, List.map_cons, List.cons_append, List.map_append, List.append_assoc,
      value_bracket hw.1 hmore]
    have h := elements_itemsText v vs n rest hw.1 hw.2 (Nat.le_of_succ_le_succ hn)
    rw [List.map_singleton, List.singleton_append, h]
    rfl
  | .obj [], n + 1, rest, _, _, _ => rfl
  | .obj (m :: ms), n + 1, rest, hw, hn, _ => by
    have hquote : ∃ more, membersText (m :: ms) = '"' :: more := by
      cases ms with
      | nil => exact ⟨_, memberText_eq m.1 m.2⟩
      | cons m' ms => rw [membersText_cons, memberText_eq]; exact ⟨_, rfl⟩
    have h := members_membersText m ms n rest hw.1 hw.2 (Nat.le_of_succ_le_succ hn)
    obtain ⟨more, hmore⟩ := hquote
    rw [toList_compress_obj, List.map_cons, List.cons_append, List.map_append, List.append_assoc]
    rw [List.map_singleton, List.singleton_append, hmore, List.map_cons, List.cons_append,
      value_brace]
    rw [hmore, List.map_cons, List.cons_append] at h
    rw [h, Option.map_some, object_map]

theorem elements_itemsText : ∀ (v : Json) (vs : List Json) (n : Nat) (rest : Input), Whole v →
    WholeList vs → stepsList (v :: vs) ≤ n →
    elements n ((itemsText (v :: vs)).map some ++ some ']' :: rest) = some (v :: vs, rest)
  | v, vs, 0, rest, _, _, hn => by simp [stepsList] at hn
  | v, [], n + 1, rest, hv, _, hn => by
    simp only [stepsList] at hn
    have h := value_compress v n (some ']' :: rest) hv (by omega) (stops_bracket rest)
    have htext : itemsText [v] = (compress v).toList := rfl
    rw [htext, elements]
    simp only [h, skipSpace_cons (c := ']') (by decide)]
  | v, w :: vs, n + 1, rest, hv, hvs, hn => by
    simp only [stepsList] at hn
    have ih := elements_itemsText w vs n rest hvs.1 hvs.2 (by simp only [stepsList]; omega)
    have h := value_compress v n (some ',' :: ((itemsText (w :: vs)).map some ++ some ']' :: rest)) hv
      (by omega) (stops_comma _)
    rw [itemsText_cons, List.map_append, List.append_assoc, List.map_cons, List.cons_append, elements]
    simp only [h, skipSpace_cons (c := ',') (by decide), ih, Option.map_some]

theorem members_membersText : ∀ (m : String × Json) (ms : List (String × Json)) (n : Nat)
    (rest : Input), Whole m.2 → WholeMembers ms → stepsMembers (m :: ms) ≤ n →
    members n ((membersText (m :: ms)).map some ++ some '}' :: rest) =
      some ((m :: ms).map fun m => (some m.1, m.2), rest)
  | m, ms, 0, rest, _, _, hn => by simp [stepsMembers] at hn
  | (key, v), [], n + 1, rest, hv, _, hn => by
    simp only [stepsMembers] at hn
    have h := value_compress v n (some '}' :: rest) hv (by omega) (stops_brace rest)
    rw [members_key (by decide) h]
    rfl
  | (key, v), m' :: ms, n + 1, rest, hv, hvs, hn => by
    simp only [stepsMembers] at hn
    have ih := members_membersText m' ms n rest hvs.1 hvs.2 (by simp only [stepsMembers]; omega)
    have h := value_compress v n (some ',' :: ((membersText (m' :: ms)).map some ++ some '}' :: rest))
      hv (by omega) (stops_comma _)
    rw [membersText_cons, List.map_append, List.append_assoc, List.map_cons, List.cons_append,
      members_key (by decide) h]
    simp only [ih, Option.map_some, List.map_cons]

end

/-! ### Documents -/

mutual

theorem steps_le : ∀ v : Json, Whole v → steps v ≤ 2 * (compress v).toList.length
  | .arr vs, hw => by
    have := stepsList_le vs hw
    simp only [steps, toList_compress_arr, List.length_cons, List.length_append]
    omega
  | .obj ms, hw => by
    have := stepsMembers_le ms hw
    simp only [steps, toList_compress_obj, List.length_cons, List.length_append]
    omega
  | .null, _ => by decide
  | .bool true, _ => by decide
  | .bool false, _ => by decide
  | .int n, _ => by
    obtain ⟨c, cs, htext, -⟩ := exists_head_int n
    simp only [htext, steps, List.length_cons]
    omega
  | .str s, _ => by
    simp only [compress, toList_quote, steps, List.length_cons]
    omega

theorem stepsList_le : ∀ vs : List Json, WholeList vs →
    stepsList vs ≤ 2 * (itemsText vs).length + 1
  | [], _ => Nat.zero_le _
  | [v], h => by
    have := steps_le v h.1
    have htext : itemsText [v] = (compress v).toList := rfl
    rw [htext, stepsList, stepsList]
    omega
  | v :: w :: vs, h => by
    have := steps_le v h.1
    have := stepsList_le (w :: vs) h.2
    rw [itemsText_cons, stepsList, List.length_append, List.length_cons]
    omega

theorem stepsMembers_le : ∀ ms : List (String × Json), WholeMembers ms →
    stepsMembers ms ≤ 2 * (membersText ms).length + 1
  | [], _ => Nat.zero_le _
  | [(key, v)], h => by
    have := steps_le v h.1
    simp only [memberText_eq, stepsMembers, List.length_cons, List.length_append]
    omega
  | (key, v) :: m :: ms, h => by
    have := steps_le v h.1
    have := stepsMembers_le (m :: ms) h.2
    rw [membersText_cons, stepsMembers, List.length_append, List.length_cons]
    simp only [memberText_eq, List.length_cons, List.length_append]
    omega

end

/-- A document is read back from its text. -/
theorem document_compress {v : Json} (h : Whole v) :
    document ((compress v).toList.map some) = some v := by
  have hsteps := steps_le v h
  have hvalue := value_compress v (2 * ((compress v).toList.map some).length + 2) [] h
    (by rw [List.length_map]; omega) (fun c hc => by cases hc)
  rw [List.append_nil] at hvalue
  rw [document, hvalue]
  rfl

end Reader

/-- A value is read back from the bytes of its text. -/
theorem ofBytes?_compress {v : Json} (h : Whole v) :
    ofBytes? (Text.Utf8.encode (compress v).toList) = some v := by
  rw [ofBytes?, Text.Utf8.decode_encode, Reader.document_compress h]

end SlurmLink.Json
