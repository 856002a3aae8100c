/-!
White space and the small cuts of text that use it: trimming at both ends, cutting at a separator,
and reading comma-separated lists.

A character is blank when Unicode gives it the property `White_Space`; the set is wider than that of
`Char.isWhitespace`, and every cut below goes by it.
-/

namespace SlurmLink.Text

/-- The characters with the Unicode property `White_Space`. -/
def isBlank (c : Char) : Bool :=
  let n := c.toNat
  (9 ≤ n && n ≤ 13) || n == 0x20 || n == 0x85 || n == 0xA0 || n == 0x1680 ||
    (0x2000 ≤ n && n ≤ 0x200A) || n == 0x2028 || n == 0x2029 || n == 0x202F || n == 0x205F ||
    n == 0x3000

/-- Leaves out the characters at the end that satisfy `p`. -/
def dropTrailing (p : Char → Bool) (cs : List Char) : List Char :=
  (cs.reverse.dropWhile p).reverse

/-- Leaves out the blanks at both ends. -/
def trim (cs : List Char) : List Char :=
  dropTrailing isBlank (cs.dropWhile isBlank)

/-- Holds when there is nothing but blanks. -/
def allBlank (cs : List Char) : Bool := cs.all isBlank

/-- Leaves out `lead` once if the text starts with it. -/
def stripLead : List Char → List Char → List Char
  | [], cs => cs
  | p :: ps, cs => if (p :: ps).isPrefixOf cs then cs.drop (ps.length + 1) else cs

/-- The pieces between the occurrences of `sep`; there is always one more piece than separators. -/
def pieces (sep : Char) : List Char → List (List Char)
  | [] => [[]]
  | c :: cs =>
    if c = sep then [] :: pieces sep cs
    else match pieces sep cs with
      | [] => [[c]]
      | p :: ps => (c :: p) :: ps

theorem pieces_eq_splitOn (sep : Char) : ∀ cs : List Char, pieces sep cs = cs.splitOn sep
  | [] => rfl
  | c :: cs => by
    rw [pieces, List.splitOn_cons_eq_if_modifyHead, pieces_eq_splitOn sep cs]
    by_cases hc : c = sep
    · rw [if_pos hc, if_pos (beq_iff_eq.mpr hc)]
    · rw [if_neg hc, if_neg (by simpa using hc)]
      cases h : cs.splitOn sep with
      | nil => exact absurd h (List.splitOn_ne_nil sep cs)
      | cons p ps => rfl

theorem pieces_ne_nil (sep : Char) (cs : List Char) : pieces sep cs ≠ [] := by
  rw [pieces_eq_splitOn]
  exact List.splitOn_ne_nil sep cs

/-- Splits a list written in one text: cut at commas, trim every item, and leave out the empty
    ones. -/
def splitList (cs : List Char) : List (List Char) :=
  ((pieces ',' cs).map trim).filter (fun item => !item.isEmpty)

/-- Joins texts with a separator between neighbours. -/
def joinWith (sep : String) : List String → String
  | [] => ""
  | [s] => s
  | s :: rest => s ++ sep ++ joinWith sep rest

/-- Upper case for the letters `a` to `z`; every other character stays. -/
def upper (s : String) : String := String.ofList (s.toList.map Char.toUpper)

/-- Equality up to the case of the letters `A` to `Z`. -/
def sameLetters (a b : String) : Bool := upper a == upper b

end SlurmLink.Text
