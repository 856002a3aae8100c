import SlurmLink.Proofs.Address
import SlurmLink.Proofs.Authority

/-!
Reading a URL with something after it. What stood at the edge of the text then stands in the middle of
it, where blanks count; an authority that had not ended goes on to the next mark (`authority_append`,
`authority_append_mark`); and the last segment of a path is one that others follow:

                           read alone            read with others after it
    ..                     above kept, ""        above kept
    .                      kept, ""              kept
    s                      kept, s               kept, s

so that the path below which others are added is the same, unless the last segment is empty or has
gained a blank (`readPath_append_iff`).
-/

namespace SlurmLink

namespace Url

/-! ### Texts with something after them -/

/-- What counts in a text after which something else stands. -/
def opening (cs : List Char) : List Char :=
  (cs.dropWhile isEdge).filter fun c => !isIgnored c

/-- A blank at the end counts when something follows it. -/
theorem opening_eq (cs : List Char) : ∃ blanks, opening cs = core cs ++ blanks ∧
    ∀ c ∈ blanks, c.toNat ≤ 0x20 := by
  set middle := cs.dropWhile isEdge with hmiddle
  have hsplit : Text.dropTrailing isEdge middle ++ (middle.reverse.takeWhile isEdge).reverse =
      middle := by
    rw [Text.dropTrailing, ← List.reverse_append, List.takeWhile_append_dropWhile,
      List.reverse_reverse]
  refine ⟨((middle.reverse.takeWhile isEdge).reverse).filter fun c => !isIgnored c, ?_, ?_⟩
  · rw [opening, core, ← hmiddle, ← List.filter_append, hsplit]
  · intro c hc
    have hmem := List.mem_reverse.mp (List.mem_of_mem_filter hc)
    exact of_decide_eq_true (List.all_eq_true.mp List.all_takeWhile c hmem)

theorem core_append {cs after : List Char} (hcs : core cs ≠ []) {c : Char}
    (hlast : after.getLast? = some c) (hc : 0x20 < c.toNat)
    (hclean : ∀ c ∈ after, isIgnored c = false) : core (cs ++ after) = opening cs ++ after := by
  have hmiddle : (cs.dropWhile isEdge).isEmpty = false := by
    rw [List.isEmpty_eq_false_iff]
    intro hnil
    exact hcs (by rw [core, hnil]; rfl)
  have hedge : isEdge c = false := decide_eq_false (Nat.not_le.mpr hc)
  obtain ⟨front, rfl⟩ := List.getLast?_eq_some_iff.mp hlast
  rw [core, opening, List.dropWhile_append, hmiddle, if_neg Bool.false_ne_true, Text.dropTrailing,
    ← List.append_assoc, List.reverse_append, List.reverse_singleton, List.singleton_append,
    List.dropWhile_cons_of_neg (by rw [hedge]; exact Bool.false_ne_true), List.reverse_cons,
    List.reverse_reverse, List.append_assoc, List.filter_append]
  congr 1
  exact List.filter_eq_self.mpr fun d hd => by rw [hclean d hd]; rfl

/-- The last character that counts is no blank. -/
theorem getLast?_core {cs : List Char} {c : Char} (h : (core cs).getLast? = some c) :
    0x20 < c.toNat := by
  rw [core, List.getLast?_filter, Text.dropTrailing, List.reverse_reverse] at h
  have hhead := List.head?_dropWhile_not isEdge (cs.dropWhile isEdge).reverse
  cases hd : (cs.dropWhile isEdge).reverse.dropWhile isEdge with
  | nil => rw [hd] at h; cases h
  | cons d rest =>
    rw [hd] at h hhead
    have hlt : 0x20 < d.toNat := Nat.not_le.mp (of_decide_eq_false hhead)
    have hkept : (!isIgnored d) = true := by
      by_contra hignored
      simp only [Bool.not_eq_true', Bool.not_eq_false, isIgnored, Bool.or_eq_true,
        beq_iff_eq] at hignored
      rcases hignored with (rfl | rfl) | rfl <;> exact absurd hlt (by decide)
    simp only [List.find?_cons, hkept, Option.some.injEq] at h
    exact h ▸ hlt

/-- A scheme is a letter and more letters, digits and marks, up to a colon. -/
theorem splitScheme_eq_some {cs rest : List Char} {scheme : String} :
    splitScheme cs = some (scheme, rest) ↔ ∃ c name, cs.takeWhile isSchemeChar = c :: name ∧
      cs.drop (c :: name).length = ':' :: rest ∧ c.isAlpha = true ∧
      scheme = String.ofList ((c :: name).map Char.toLower) := by
  constructor
  · intro h
    rw [splitScheme] at h
    split at h
    · next c name rest' hname hrest =>
      split at h
      · next hc =>
        cases h
        exact ⟨c, name, hname, hname ▸ hrest, hc, by rw [hname]⟩
      · cases h
    · cases h
  · rintro ⟨c, name, hname, hrest, hc, rfl⟩
    simp only [splitScheme, hname, hrest, hc, if_true]

theorem splitScheme_append {cs rest : List Char} {scheme : String}
    (h : splitScheme cs = some (scheme, rest)) (after : List Char) :
    splitScheme (cs ++ after) = some (scheme, rest ++ after) := by
  obtain ⟨c, name, hname, hrest, hc, hscheme⟩ := splitScheme_eq_some.mp h
  have hshort : (c :: name).length < cs.length := by
    by_contra hlong
    rw [List.drop_eq_nil_of_le (Nat.not_lt.mp hlong)] at hrest
    cases hrest
  refine splitScheme_eq_some.mpr ⟨c, name, ?_, ?_, hc, hscheme⟩
  · rw [List.takeWhile_append, hname, if_neg (Nat.ne_of_lt hshort)]
  · rw [List.drop_append_of_le_length (Nat.le_of_lt hshort), hrest]
    rfl

/-- What a text with a scheme consists of. -/
theorem eq_append_of_splitScheme {cs rest : List Char} {scheme : String}
    (h : splitScheme cs = some (scheme, rest)) :
    ∃ name, cs = name ++ ':' :: rest ∧ ∀ c ∈ name, isSchemeChar c = true := by
  obtain ⟨c, name, hname, hrest, -, -⟩ := splitScheme_eq_some.mp h
  refine ⟨c :: name, ?_, fun d hd => ?_⟩
  · have hname' : cs.take (c :: name).length = c :: name := by
      rw [← hname]
      exact (List.prefix_iff_eq_take.mp (List.takeWhile_prefix _)).symm
    have hall := List.take_append_drop (c :: name).length cs
    rw [hname', hrest] at hall
    exact hall.symm
  · rw [← hname] at hd
    exact List.all_eq_true.mp List.all_takeWhile d hd

/-! ### The authority -/

theorem afterAuthority_eq (cs : List Char) :
    afterAuthority cs = (cs.dropWhile isSlash).dropWhile fun c => !endsAuthority true c := by
  rw [afterAuthority, authorityOf]
  nth_rewrite 2 [← List.takeWhile_append_dropWhile (p := fun c => !endsAuthority true c)
    (l := cs.dropWhile isSlash)]
  exact List.drop_left

/-- What follows the scheme are slashes, the authority, and the rest. -/
theorem eq_append_authority (cs : List Char) :
    cs = cs.takeWhile isSlash ++ (authorityOf cs ++ afterAuthority cs) := by
  rw [afterAuthority_eq, authorityOf, List.takeWhile_append_dropWhile,
    List.takeWhile_append_dropWhile]

theorem not_ends_of_mem_authority {cs : List Char} {c : Char} (h : c ∈ authorityOf cs) :
    endsAuthority true c = false := by
  have hq := List.all_eq_true.mp List.all_takeWhile c h
  rwa [Bool.not_eq_true'] at hq

/-- When the authority has ended, something more does not change it. -/
theorem authority_append {cs : List Char} (h : afterAuthority cs ≠ []) (more : List Char) :
    authorityOf (cs ++ more) = authorityOf cs ∧
      afterAuthority (cs ++ more) = afterAuthority cs ++ more := by
  rw [afterAuthority_eq] at h
  have hrest : ((cs.dropWhile isSlash).dropWhile fun c => !endsAuthority true c).isEmpty = false :=
    List.isEmpty_eq_false_iff.mpr h
  have hbody : (cs.dropWhile isSlash).isEmpty = false := by
    rw [List.isEmpty_eq_false_iff]
    intro hnil
    rw [hnil] at h
    exact h rfl
  have hslash : (cs ++ more).dropWhile isSlash = cs.dropWhile isSlash ++ more := by
    rw [List.dropWhile_append, hbody, if_neg Bool.false_ne_true]
  have hshort : ((cs.dropWhile isSlash).takeWhile fun c => !endsAuthority true c).length ≠
      (cs.dropWhile isSlash).length := by
    intro hlength
    have hall := congrArg List.length
      (List.takeWhile_append_dropWhile (p := fun c => !endsAuthority true c) (l := cs.dropWhile isSlash))
    rw [List.length_append, hlength, Nat.add_eq_left, List.length_eq_zero_iff] at hall
    exact h hall
  rw [afterAuthority_eq, afterAuthority_eq, authorityOf, authorityOf, hslash]
  exact ⟨by rw [List.takeWhile_append, if_neg hshort],
    by rw [List.dropWhile_append, hrest, if_neg Bool.false_ne_true]⟩

/-- When the authority has not ended, it goes on to the next mark that ends it. -/
theorem authority_append_mark {cs : List Char} (hne : authorityOf cs ≠ []) (h : afterAuthority cs = [])
    {more : List Char} (hmore : ∀ c ∈ more, endsAuthority true c = false) {mark : Char}
    (hmark : endsAuthority true mark = true) (tail : List Char) :
    authorityOf (cs ++ (more ++ mark :: tail)) = authorityOf cs ++ more ∧
      afterAuthority (cs ++ (more ++ mark :: tail)) = mark :: tail := by
  have hall : authorityOf cs = cs.dropWhile isSlash := by
    rw [afterAuthority_eq] at h
    have hsplit := List.takeWhile_append_dropWhile (p := fun c => !endsAuthority true c)
      (l := cs.dropWhile isSlash)
    rwa [h, List.append_nil] at hsplit
  have hbody : (cs.dropWhile isSlash).isEmpty = false := by
    rw [List.isEmpty_eq_false_iff, ← hall]
    exact hne
  have hslash : (cs ++ (more ++ mark :: tail)).dropWhile isSlash =
      (authorityOf cs ++ more) ++ mark :: tail := by
    rw [List.dropWhile_append, hbody, if_neg Bool.false_ne_true, hall, List.append_assoc]
  have hpass : ∀ c ∈ authorityOf cs ++ more, (!endsAuthority true c) = true := by
    intro c hc
    rw [Bool.not_eq_true']
    rcases List.mem_append.mp hc with hc | hc
    · exact not_ends_of_mem_authority hc
    · exact hmore c hc
  rw [afterAuthority_eq, authorityOf, hslash]
  constructor
  · rw [List.takeWhile_append_of_pos hpass, List.takeWhile_cons_of_neg (by simp [hmark]),
      List.append_nil]
  · rw [List.dropWhile_append_of_pos hpass, List.dropWhile_cons_of_neg (by simp [hmark])]

/-! ### Pieces -/

end Url

namespace Text

variable {sep : Char}

theorem pieces_append_sep (xs ys : List Char) :
    pieces sep (xs ++ sep :: ys) = pieces sep xs ++ pieces sep ys := by
  simp only [pieces_eq_splitOn, List.splitOn_append_cons_self]

theorem pieces_of_not_mem {xs : List Char} (h : sep ∉ xs) : pieces sep xs = [xs] := by
  rw [pieces_eq_splitOn, List.splitOn_eq_singleton h]

/-- The last piece of a text: it goes on when the text does. It is empty at the very start, and after a
    separator. -/
theorem exists_last_piece (sep : Char) (xs : List Char) : ∃ before last,
    (∀ ys, sep ∉ ys → pieces sep (xs ++ ys) = before ++ [last ++ ys]) ∧
      (last = [] ↔ xs = [] ∨ xs.getLast? = some sep) := by
  by_cases hmem : sep ∈ xs
  · obtain ⟨as, bs, hrev, has⟩ := List.eq_append_cons_of_mem (List.mem_reverse.mpr hmem)
    have hxs : xs = bs.reverse ++ sep :: as.reverse := by
      rw [← List.reverse_reverse xs, hrev]
      simp
    have hlast : sep ∉ as.reverse := fun h => has (List.mem_reverse.mp h)
    refine ⟨pieces sep bs.reverse, as.reverse, fun ys hys => ?_, ?_⟩
    · have hwhole : sep ∉ as.reverse ++ ys := fun h => (List.mem_append.mp h).elim hlast hys
      rw [hxs, List.append_assoc, List.cons_append, pieces_append_sep, pieces_of_not_mem hwhole]
    · have hend : xs.getLast? = (as ++ sep :: bs).head? := by rw [← hrev, List.head?_reverse]
      rw [hend]
      cases as with
      | nil => simp
      | cons a as =>
        have hne : a ≠ sep := fun he => has (he ▸ List.mem_cons_self)
        have hxs' : xs ≠ [] := by
          rintro rfl
          cases hmem
        simp [hne, hxs']
  · refine ⟨[], xs, fun ys hys => ?_, ?_⟩
    · exact pieces_of_not_mem fun h => (List.mem_append.mp h).elim hmem hys
    · exact ⟨.inl, fun h => h.resolve_right fun hsep => hmem (List.mem_of_getLast? hsep)⟩

end Text

/-! ### Paths -/

namespace Url

/-- What a segment does to the segments before it, when others follow. -/
def walk (kept : List String) (s : List Char) : List String :=
  if isDoubleDot s then above kept else if isDot s then kept else kept ++ [String.ofList s]

/-- What the last segment does to the segments before it. -/
def finish (kept : List String) (s : List Char) : List String :=
  if isDoubleDot s then above kept ++ [""]
  else if isDot s then kept ++ [""]
  else kept ++ [String.ofList s]

theorem resolve_concat : ∀ (segments : List (List Char)) (kept : List String) (s : List Char),
    resolve kept (segments ++ [s]) = finish (segments.foldl walk kept) s
  | [], kept, s => rfl
  | [t], kept, s => by
    rw [List.singleton_append, List.foldl_cons, List.foldl_nil, walk, resolve]
    · split
      · rfl
      · split <;> rfl
    · simp
  | t :: t' :: segments, kept, s => by
    have ih := fun kept => resolve_concat (t' :: segments) kept s
    rw [List.cons_append, List.foldl_cons, ← ih, walk, resolve]
    · split
      · rfl
      · split <;> rfl
    · simp

theorem length_above_le (path : List String) : (above path).length ≤ path.length := by
  rw [above]
  split
  · exact Nat.le_refl _
  · exact List.length_dropLast ▸ Nat.sub_le _ _

theorem root_prefix (path : List String) : root path <+: path := by
  rw [root]
  split
  · exact List.nil_prefix
  · rw [popIfEmpty]
    split
    · exact List.dropLast_prefix path
    · exact List.prefix_refl path

/-- Below a path that ends in a segment, others are added where others that follow would be. -/
theorem walk_eq_root_iff {s : List Char} (hs : s ≠ []) (kept : List String) :
    walk kept s = root (finish kept s) ↔ finish kept s ≠ ["", ""] := by
  have hne : String.ofList s ≠ "" := fun he => hs (String.ofList_injective he)
  have hdirectory : ∀ base : List String, base = root (base ++ [""]) ↔ base ++ [""] ≠ ["", ""] := by
    refine fun base => ⟨fun h hroot => ?_, fun h => ?_⟩
    · obtain rfl : base = [""] := List.append_cancel_right (hroot : _ = [""] ++ [""])
      exact absurd h (by decide)
    · rw [root_eq_stem h, stem, List.getLast?_concat, if_pos rfl, List.dropLast_concat]
  rw [walk, finish]
  split
  · exact hdirectory _
  · split
    · exact hdirectory _
    · have hpath : kept ++ [String.ofList s] ≠ ["", ""] := by
        intro h
        have hlast := congrArg List.getLast? h
        rw [List.getLast?_concat] at hlast
        exact hne (Option.some.inj hlast)
      refine ⟨fun _ => hpath, fun _ => ?_⟩
      rw [root_eq_stem hpath, stem, List.getLast?_concat,
        if_neg fun h => hne (Option.some.inj h)]

/-- An empty segment at the end is one too many. -/
theorem walk_nil_ne_root (kept : List String) : walk kept [] ≠ root (finish kept []) := by
  have hwalk : walk kept [] = kept ++ [""] := rfl
  have hfinish : finish kept [] = kept ++ [""] := rfl
  intro h
  rw [hwalk, hfinish] at h
  by_cases hpath : kept ++ [""] = ["", ""]
  · rw [hpath] at h
    exact absurd h (by decide)
  · rw [root_eq_stem hpath, stem, List.getLast?_concat, if_pos rfl, List.dropLast_concat] at h
    simpa using congrArg List.length h

/-- A segment that is no dots, and is not the one that the path ends in, is not found there. -/
theorem walk_ne_root {s s' : List Char} (hdots : isDoubleDot s' = false) (hdot : isDot s' = false)
    (hempty : s' ≠ []) (hne : s' ≠ s) (kept : List String) : walk kept s' ≠ root (finish kept s) := by
  have hwalk : walk kept s' = kept ++ [String.ofList s'] := by
    rw [walk, hdots, hdot, if_neg Bool.false_ne_true, if_neg Bool.false_ne_true]
  have hempty' : String.ofList s' ≠ "" := fun he => hempty (String.ofList_injective he)
  intro h
  obtain ⟨rest, hrest⟩ := root_prefix (finish kept s)
  rw [← h, hwalk, finish] at hrest
  split at hrest
  · have hlength := congrArg List.length hrest
    have hle := length_above_le kept
    simp only [List.length_append, List.length_cons, List.length_nil] at hlength
    obtain rfl : rest = [] := List.length_eq_zero_iff.mp (by omega)
    rw [List.append_nil] at hrest
    obtain ⟨-, hlast⟩ := List.append_inj' hrest rfl
    exact hempty' (List.cons.inj hlast).1
  · rw [List.append_assoc] at hrest
    split at hrest
    · exact hempty' (List.cons.inj (List.append_cancel_left hrest)).1
    · exact hne (String.ofList_injective (List.cons.inj (List.append_cancel_left hrest)).1)

/-- A segment that ends in the escape of a blank is none that stands for a directory. -/
theorem not_dots_of_escape {h₁ h₂ : Char} (hdot : h₂.toLower ≠ '.')
    (hescape : h₁.toLower = '2' → h₂.toLower ≠ 'e') (cs : List Char) :
    isDoubleDot (cs ++ ['%', h₁, h₂]) = false ∧ isDot (cs ++ ['%', h₁, h₂]) = false := by
  have hlower : (cs ++ ['%', h₁, h₂]).map Char.toLower =
      cs.map Char.toLower ++ ['%', h₁.toLower, h₂.toLower] := List.map_append
  have hend : ∀ front a b c, cs.map Char.toLower ++ ['%', h₁.toLower, h₂.toLower] =
      front ++ [a, b, c] → h₁.toLower = b ∧ h₂.toLower = c := by
    intro front a b c he
    obtain ⟨-, htail⟩ := List.append_inj' he rfl
    simpa using (List.cons.inj htail).2
  have hlong : 3 ≤ (cs ++ ['%', h₁, h₂]).length := by simp
  have hdirect : ∀ ds : List Char, ds.length < 3 →
      cs.map Char.toLower ++ ['%', h₁.toLower, h₂.toLower] ≠ ds := by
    rintro ds hds rfl
    rw [← hlower, List.length_map] at hds
    omega
  have hsingle : cs ++ ['%', h₁, h₂] ≠ ['.'] := by
    intro he
    rw [he] at hlong
    exact absurd hlong (by decide)
  have hmark : ∀ front, cs.map Char.toLower ++ ['%', h₁.toLower, h₂.toLower] ≠
      front ++ ['%', '2', 'e'] := by
    intro front he
    obtain ⟨h2, he⟩ := hend _ _ _ _ he
    exact hescape h2 he
  constructor
  · simp only [isDoubleDot, hlower, Bool.or_eq_false_iff, decide_eq_false_iff_not]
    exact ⟨⟨⟨hdirect _ (by decide), hmark ['.']⟩, fun he => hdot (hend ['%'] _ _ _ he).2⟩,
      hmark ['%', '2', 'e']⟩
  · simp only [isDot, hlower, Bool.or_eq_false_iff, decide_eq_false_iff_not]
    exact ⟨hsingle, hmark []⟩

/-- A path with a blank at its end, when others follow. -/
theorem not_dots_of_blank {b : Char} (hb : b.toNat ≤ 0x20) (cs : List Char) :
    isDoubleDot (encodeWith inPath (cs ++ [b])) = false ∧
      isDot (encodeWith inPath (cs ++ [b])) = false := by
  have hpath : inPath b = true := by
    rcases Nat.lt_or_eq_of_le hb with hlt | heq
    · rw [inPath, inFragment, isControl, decide_eq_true hlt]
      rfl
    · rw [← Char.ofNat_toNat b, heq]
      rfl
  have hescape : encodeWith inPath [b] = ['%', upperHex (b.toNat / 16), upperHex (b.toNat % 16)] := by
    rw [encodeWith, List.flatMap_singleton, if_pos hpath, Text.Utf8.encodeChar, if_pos (by omega),
      List.flatMap_singleton, escapeByte, Text.Utf8.toNat_toUInt8 (by omega)]
  have hdigits : ∀ n ∈ List.range 33, (upperHex (n % 16)).toLower ≠ '.' ∧
      ((upperHex (n / 16)).toLower = '2' → (upperHex (n % 16)).toLower ≠ 'e') := by decide
  obtain ⟨hdot, hmark⟩ := hdigits b.toNat (List.mem_range.mpr (Nat.lt_succ_of_le hb))
  rw [show encodeWith inPath (cs ++ [b]) = encodeWith inPath cs ++ encodeWith inPath [b] from
    List.flatMap_append, hescape]
  exact not_dots_of_escape hdot hmark _

/-- All slashes in one form. -/
def unify (c : Char) : Char := if isSlash c then '/' else c

theorem readPath_slash {x : Char} (hx : isSlash x = true) (cs : List Char) :
    readPath (x :: cs) = resolve [] ((Text.pieces '/' (cs.map unify)).map (encodeWith inPath)) := by
  simp only [readPath, hx, if_true]
  rfl

theorem unify_eq_slash {c : Char} : unify c = '/' ↔ isSlash c = true := by
  rw [unify]
  split
  · next h => exact ⟨fun _ => h, fun _ => rfl⟩
  · next h =>
    refine ⟨fun he => ?_, fun hc => absurd hc h⟩
    rw [he] at h
    exact absurd rfl h

theorem unify_of_blank {b : Char} (hb : b.toNat ≤ 0x20) : unify b = b := by
  rw [unify, isSlash, beq_eq_false_iff_ne.mpr (ne_of_blank hb (by decide)),
    beq_eq_false_iff_ne.mpr (ne_of_blank hb (by decide))]
  rfl

theorem map_unify_append (cs : List Char) {blanks : List Char} (hblanks : ∀ c ∈ blanks, c.toNat ≤ 0x20) :
    (cs ++ (blanks ++ "/openapi/v3".toList)).map unify =
      (cs.map unify ++ blanks) ++ '/' :: "openapi/v3".toList := by
  have hsame : blanks.map unify = blanks :=
    (List.map_congr_left fun c hc => unify_of_blank (hblanks c hc)).trans (List.map_id blanks)
  have htail : "/openapi/v3".toList.map unify = '/' :: "openapi/v3".toList := by decide
  rw [List.map_append, List.map_append, hsame, htail, List.append_assoc]

/-- Two segments that follow a path are added to it as they are. -/
theorem resolve_append (before : List (List Char)) (s : List Char) :
    resolve [] (before ++ [s] ++ ["openapi".toList, "v3".toList]) =
      walk (before.foldl walk []) s ++ ["openapi", "v3"] := by
  have hwalk : ∀ kept, walk kept "openapi".toList = kept ++ ["openapi"] := fun kept => rfl
  have hfinish : ∀ kept, finish kept "v3".toList = kept ++ ["v3"] := fun kept => rfl
  rw [List.append_cons _ "openapi".toList, resolve_concat, List.foldl_append, List.foldl_append]
  simp only [List.foldl_cons, List.foldl_nil, hwalk, hfinish, List.append_assoc, List.singleton_append]

/-- The last segment of a path: what it does when it is read alone, and with others after it. -/
theorem exists_last_segment {x : Char} (hx : isSlash x = true) (cs : List Char) : ∃ kept last,
    readPath (x :: cs) = finish kept (encodeWith inPath last) ∧
    (∀ blanks : List Char, (∀ c ∈ blanks, c.toNat ≤ 0x20) →
      readPath (x :: cs ++ (blanks ++ "/openapi/v3".toList)) =
        walk kept (encodeWith inPath (last ++ blanks)) ++ ["openapi", "v3"]) ∧
    (last = [] ↔ ∃ c, (x :: cs).getLast? = some c ∧ isSlash c = true) := by
  obtain ⟨before, last, hpieces, hempty⟩ := Text.exists_last_piece '/' (cs.map unify)
  refine ⟨(before.map (encodeWith inPath)).foldl walk [], last, ?_, fun blanks hblanks => ?_, ?_⟩
  · have hp := hpieces [] List.not_mem_nil
    rw [List.append_nil, List.append_nil] at hp
    rw [readPath_slash hx, hp, List.map_append, List.map_singleton, resolve_concat]
  · have hnoslash : '/' ∉ blanks := fun h => absurd (hblanks '/' h) (by decide)
    have htail : (Text.pieces '/' "openapi/v3".toList).map (encodeWith inPath) =
        ["openapi".toList, "v3".toList] := by decide
    rw [List.cons_append, readPath_slash hx, map_unify_append cs hblanks, Text.pieces_append_sep,
      hpieces blanks hnoslash, List.map_append, List.map_append, htail, List.map_singleton,
      resolve_append]
  · rw [hempty]
    rcases List.eq_nil_or_concat cs with rfl | ⟨ds, d, rfl⟩
    · exact ⟨fun _ => ⟨x, rfl, hx⟩, fun _ => Or.inl rfl⟩
    · rw [List.concat_eq_append, List.map_append, List.map_singleton, List.getLast?_concat,
        ← List.cons_append, List.getLast?_concat]
      simp [unify_eq_slash]

/-- The path below which commands are is the path of the text with others after it, exactly if the text
    does not end in a slash, no blank has come between, and the path is not `//`. -/
theorem readPath_append_iff {x : Char} (hx : isSlash x = true) (cs : List Char) {blanks : List Char}
    (hblanks : ∀ c ∈ blanks, c.toNat ≤ 0x20) :
    readPath (x :: cs ++ (blanks ++ "/openapi/v3".toList)) =
        root (readPath (x :: cs)) ++ ["openapi", "v3"] ↔
      blanks = [] ∧ (∀ c, (x :: cs).getLast? = some c → isSlash c = false) ∧
        readPath (x :: cs) ≠ ["", ""] := by
  obtain ⟨kept, last, halone, hmore, hslash⟩ := exists_last_segment hx cs
  rw [halone, hmore blanks hblanks, List.append_left_inj]
  rcases List.eq_nil_or_concat blanks with rfl | ⟨bs, b, rfl⟩
  · rw [List.append_nil]
    by_cases hlast : last = []
    · obtain ⟨c, hc, hend⟩ := hslash.mp hlast
      subst hlast
      exact ⟨fun h => absurd h (walk_nil_ne_root kept),
        fun h => absurd (hend.symm.trans (h.2.1 c hc)) nofun⟩
    · have hend : ∀ c, (x :: cs).getLast? = some c → isSlash c = false := by
        intro c hc
        rw [Bool.eq_false_iff]
        exact fun h => hlast (hslash.mpr ⟨c, hc, h⟩)
      rw [walk_eq_root_iff fun h => hlast (eq_nil_of_encodeWith h)]
      exact ⟨fun h => ⟨rfl, hend, h⟩, fun h => h.2.2⟩
  -- a blank that has come between makes another segment of the last one
  · have hb : b.toNat ≤ 0x20 := hblanks b (by simp)
    rw [List.concat_eq_append, ← List.append_assoc]
    obtain ⟨hdots, hdot⟩ := not_dots_of_blank hb (last ++ bs)
    have hne : encodeWith inPath (last ++ bs ++ [b]) ≠ encodeWith inPath last := by
      intro he
      rw [List.append_assoc, encodeWith_append, List.append_right_eq_self] at he
      exact absurd (eq_nil_of_encodeWith he) (by simp)
    refine ⟨fun h => absurd h (walk_ne_root hdots hdot ?_ hne kept), fun h => absurd h.1 (by simp)⟩
    exact fun he => absurd (eq_nil_of_encodeWith he) (by simp)

end Url

end SlurmLink
