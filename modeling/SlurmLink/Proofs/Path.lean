import Mathlib.Data.List.Forall2
import Mathlib.Data.List.Induction
import SlurmLink.Proofs.Percent
import SlurmLink.Url.Basic

/-!
The path of a URL, and what becomes of it when segments are added. Adding a segment makes the path
longer by one at most:

    plain text      p ──▶ p ++ [t]      and t stands for the text
    other text      p ──▶ p ++ [t]      and t stands for something else
                    p ──▶ p'            and p' is as long as p

so that a path which has grown by as many segments as there were texts has kept them all in order
(`plain_of_foldl`). No segment has a mark in it that ends a segment or a path (`Whole`), so the written
form of a path can be taken apart in one way only (`pathText_injective`).
-/

namespace SlurmLink

namespace Url

/-! ### Segments -/

/-- Nothing in the text ends a segment or a path. -/
def Whole (t : String) : Prop := ∀ mark ∈ ['/', '?', '#'], mark ∉ t.toList

/-- Neither of the dots that stand for directories, and without tabs and line breaks. -/
def Plain (s : String) : Prop := s ≠ "." ∧ s ≠ ".." ∧ ∀ c ∈ s.toList, isIgnored c = false

/-- A segment stands for a text. -/
def Spells (segment s : String) : Prop := Text.Utf8.decode? (decode segment.toList) = some s.toList

instance (t : String) : Decidable (Whole t) := List.decidableBAll _ _

instance (s : String) : Decidable (Plain s) :=
  letI : Decidable (∀ c ∈ s.toList, isIgnored c = false) := List.decidableBAll _ _
  inferInstanceAs (Decidable (_ ∧ _ ∧ _))

instance (segment s : String) : Decidable (Spells segment s) :=
  inferInstanceAs (Decidable (_ = _))

theorem whole_empty : Whole "" := by decide

theorem mark_ne_upperHex {mark : Char} (h : mark ∈ ['/', '?', '#']) :
    mark ≠ '%' ∧ ∀ n < 16, mark ≠ upperHex n := by
  simp only [List.mem_cons, List.not_mem_nil, or_false] at h
  rcases h with rfl | rfl | rfl <;> decide

/-- What is added to a path is whole. -/
theorem whole_segmentText (s : String) : Whole (segmentText s) := by
  intro mark hmark
  obtain ⟨hpercent, hhex⟩ := mark_ne_upperHex hmark
  have hspecial : ∀ mark ∈ ['/', '?', '#'], inSegment mark = true := List.all_eq_true.mp rfl
  rw [segmentText, String.toList_ofList]
  exact not_mem_encodeWith (Or.inr (hspecial mark hmark)) hpercent hhex

/-- A segment that is added stands for the text without its tabs and line breaks. -/
theorem decode?_segmentText (s : String) : Text.Utf8.decode? (decode (segmentText s).toList) =
    some (s.toList.filter fun c => !isIgnored c) := by
  rw [segmentText, String.toList_ofList, decode_encodeWith rfl, Text.Utf8.decode?_encode]

theorem spells_segmentText_iff {s : String} :
    Spells (segmentText s) s ↔ ∀ c ∈ s.toList, isIgnored c = false := by
  rw [Spells, decode?_segmentText, Option.some.injEq, List.filter_eq_self]
  simp only [Bool.not_eq_true']

theorem Spells.unique {t a b : String} (ha : Spells t a) (hb : Spells t b) : a = b := by
  rw [Spells] at ha hb
  exact String.toList_inj.mp (Option.some.inj (ha.symm.trans hb))

/-- The empty segment stands for nothing else than the empty text. -/
theorem eq_empty_of_spells {s : String} (h : Spells "" s) : s = "" :=
  h.unique (show Spells "" "" from rfl)

/-! ### Adding segments -/

/-- A plain text becomes the last segment. -/
theorem pushSegment_plain {s : String} (h : Plain s) (path : List String) :
    pushSegment path s = (if path = [""] then [] else path) ++ [segmentText s] := by
  obtain ⟨hdot, hdots, hclean⟩ := h
  have hspells : Spells (segmentText s) s := spells_segmentText_iff.mpr hclean
  have hne : segmentText s ≠ ".." := by
    intro he
    rw [he] at hspells
    exact hdots (hspells.unique (by decide : Spells ".." ".."))
  have hne' : segmentText s ≠ "." := by
    intro he
    rw [he] at hspells
    exact hdot (hspells.unique (by decide : Spells "." "."))
  simp only [pushSegment, hdot, hdots, or_self, if_false, hne, hne']

/-- What a text that is not plain does to a path: it makes it longer by a segment that stands for
    something else, or leaves it as long as it was. -/
theorem pushSegment_not_plain {s : String} (h : ¬ Plain s) {path : List String} (hpath : path ≠ [""]) :
    (∃ t, pushSegment path s = path ++ [t] ∧ ¬ Spells t s) ∨
      (pushSegment path s).length = path.length := by
  rw [pushSegment]
  by_cases hdots : s = "." ∨ s = ".."
  · rw [if_pos hdots]
    exact Or.inr rfl
  have hignored : ¬ ∀ c ∈ s.toList, isIgnored c = false := by
    intro hclean
    rw [not_or] at hdots
    exact h ⟨hdots.1, hdots.2, hclean⟩
  have hempty : ¬ Spells "" s := by
    intro hspells
    rw [eq_empty_of_spells hspells] at hignored
    exact hignored (List.forall_mem_nil _)
  simp only [if_neg hdots, if_neg hpath]
  split
  · rw [above]
    split
    · exact Or.inl ⟨"", rfl, hempty⟩
    · cases path with
      | nil => exact Or.inl ⟨"", rfl, hempty⟩
      | cons t rest =>
        refine Or.inr ?_
        rw [List.length_append, List.length_dropLast]
        rfl
  · split
    · exact Or.inl ⟨"", rfl, hempty⟩
    · exact Or.inl ⟨_, rfl, fun hspells => hignored (spells_segmentText_iff.mp hspells)⟩

/-- A path grows by one segment, or keeps its length. -/
theorem length_pushSegment (s : String) {path : List String} (hpath : path ≠ [""]) :
    (pushSegment path s).length = path.length ∨ ∃ t, pushSegment path s = path ++ [t] := by
  by_cases h : Plain s
  · rw [pushSegment_plain h, if_neg hpath]
    exact Or.inr ⟨_, rfl⟩
  · rcases pushSegment_not_plain h hpath with ⟨t, ht, -⟩ | hsame
    · exact Or.inr ⟨t, ht⟩
    · exact Or.inl hsame

/-- A path of two segments or more has as many still, and grows no faster than texts are added. -/
theorem length_foldl_pushSegment : ∀ (names : List String) {path : List String}, 2 ≤ path.length →
    2 ≤ (names.foldl pushSegment path).length ∧
      (names.foldl pushSegment path).length ≤ path.length + names.length
  | [], _, h => ⟨h, Nat.le_refl _⟩
  | s :: names, path, h => by
    have hpath : path ≠ [""] := fun he => by rw [he] at h; exact absurd h (by decide)
    have hstep : path.length ≤ (pushSegment path s).length ∧
        (pushSegment path s).length ≤ path.length + 1 := by
      rcases length_pushSegment s hpath with hsame | ⟨t, ht⟩
      · omega
      · rw [ht, List.length_append, List.length_singleton]
        omega
    obtain ⟨htwo, hle⟩ := length_foldl_pushSegment names (Nat.le_trans h hstep.1)
    exact ⟨htwo, by rw [List.length_cons]; exact Nat.le_trans hle (by omega)⟩

/-- Plain texts become one segment each. -/
theorem foldl_pushSegment_plain : ∀ {names : List String} {path : List String}, 2 ≤ path.length →
    (∀ n ∈ names, Plain n) → names.foldl pushSegment path = path ++ names.map segmentText
  | [], path, _, _ => (List.append_nil path).symm
  | s :: names, path, h, hplain => by
    have hpath : path ≠ [""] := fun he => by rw [he] at h; exact absurd h (by decide)
    have hlength : 2 ≤ (path ++ [segmentText s]).length := by
      rw [List.length_append]
      exact Nat.le_add_right_of_le h
    rw [List.foldl_cons, pushSegment_plain (hplain s List.mem_cons_self), if_neg hpath,
      foldl_pushSegment_plain hlength fun n hn => hplain n (List.mem_cons_of_mem _ hn),
      List.append_assoc, List.map_cons, List.singleton_append]

/-- Only plain texts become one segment each that stands for them. -/
theorem plain_of_foldl {path : List String} (h : 2 ≤ path.length) (names : List String) :
    ∀ {texts : List String}, names.foldl pushSegment path = path ++ texts →
      List.Forall₂ Spells texts names → ∀ n ∈ names, Plain n := by
  induction names using List.reverseRecOn with
  | nil => exact fun _ _ n hn => absurd hn List.not_mem_nil
  | append_singleton names s ih =>
    intro texts hfold hspells
    obtain ⟨before, t, rfl, hbefore, ht⟩ : ∃ before t, texts = before ++ [t] ∧
        List.Forall₂ Spells before names ∧ Spells t s := by
      have hlast := List.forall₂_drop_append texts names [s] hspells
      obtain ⟨t, rest, ht, hnil, hdrop⟩ := List.forall₂_cons_right_iff.mp hlast
      rw [List.forall₂_nil_right_iff.mp hnil] at hdrop
      refine ⟨_, t, ?_, List.forall₂_take_append texts names [s] hspells, ht⟩
      rw [← hdrop, List.take_append_drop]
    rw [List.foldl_append, List.foldl_cons, List.foldl_nil, ← List.append_assoc] at hfold
    obtain ⟨htwo, hle⟩ := length_foldl_pushSegment names h
    have hpath : names.foldl pushSegment path ≠ [""] := by
      intro he
      rw [he] at htwo
      exact absurd htwo (by decide)
    have hlength : (names.foldl pushSegment path).length <
        (pushSegment (names.foldl pushSegment path) s).length := by
      rw [hfold, List.length_append, List.length_append, hbefore.length_eq]
      exact Nat.lt_succ_of_le hle
    have hplain : Plain s := by
      by_contra hs
      rcases pushSegment_not_plain hs hpath with ⟨t', ht', hnot⟩ | hsame
      · rw [ht'] at hfold
        obtain ⟨-, heq⟩ := List.append_inj' hfold rfl
        cases heq
        exact hnot ht
      · omega
    rw [pushSegment_plain hplain, if_neg hpath] at hfold
    obtain ⟨hrest, -⟩ := List.append_inj' hfold rfl
    intro n hn
    rcases List.mem_append.mp hn with hn | hn
    · exact ih hrest hbefore n hn
    · exact List.mem_singleton.mp hn ▸ hplain

/-- Every text shares what it does to a path with another one: the dots with each other, and any other
    text with itself and a tab. -/
theorem exists_alias (s : String) : ∃ s', s' ≠ s ∧ ∀ path, pushSegment path s' = pushSegment path s := by
  by_cases hdots : s = "." ∨ s = ".."
  · have hskip : ∀ d : String, d = "." ∨ d = ".." → ∀ path, pushSegment path d = path :=
      fun d hd path => by rw [pushSegment, if_pos hd]
    rcases hdots with rfl | rfl
    · exact ⟨"..", by decide, fun path => by rw [hskip _ (.inr rfl), hskip _ (.inl rfl)]⟩
    · exact ⟨".", by decide, fun path => by rw [hskip _ (.inl rfl), hskip _ (.inr rfl)]⟩
  · have hlist : (s ++ "\t").toList = s.toList ++ ['\t'] := String.toList_append
    have htab : ∀ d : String, '\t' ∉ d.toList → s ++ "\t" ≠ d := by
      intro d hd he
      rw [← he, hlist] at hd
      exact hd (List.mem_append_right _ List.mem_cons_self)
    have hdots' : ¬ (s ++ "\t" = "." ∨ s ++ "\t" = "..") :=
      not_or.mpr ⟨htab "." (by decide), htab ".." (by decide)⟩
    have htext : segmentText (s ++ "\t") = segmentText s := by
      rw [segmentText, segmentText, hlist, List.filter_append]
      exact congrArg (fun cs => String.ofList (encodeWith inSegment cs)) (List.append_nil _)
    refine ⟨s ++ "\t", fun he => ?_, fun path => ?_⟩
    · have hlength := congrArg List.length (hlist.symm.trans (congrArg String.toList he))
      simp at hlength
    · simp only [pushSegment, if_neg hdots, if_neg hdots', htext]

/-! ### Reading paths -/

theorem not_mem_of_mem_pieces {sep : Char} : ∀ {cs piece : List Char}, piece ∈ Text.pieces sep cs →
    sep ∉ piece
  | [], piece, h => by
    rw [Text.pieces, List.mem_singleton] at h
    exact h ▸ List.not_mem_nil
  | c :: cs, piece, h => by
    rw [Text.pieces] at h
    split at h
    · rcases List.mem_cons.mp h with rfl | h
      · exact List.not_mem_nil
      · exact not_mem_of_mem_pieces h
    · next hc =>
      split at h
      · next hnil => exact absurd hnil (Text.pieces_ne_nil sep cs)
      · next p ps hpieces =>
        have hp : ∀ q ∈ p :: ps, sep ∉ q := fun q hq => not_mem_of_mem_pieces (hpieces ▸ hq)
        rcases List.mem_cons.mp h with rfl | h
        · intro hmem
          rcases List.mem_cons.mp hmem with he | hmem
          · exact hc he.symm
          · exact hp p List.mem_cons_self hmem
        · exact hp piece (List.mem_cons_of_mem _ h)

theorem mem_of_mem_above {t : String} {path : List String} (h : t ∈ above path) : t ∈ path := by
  rw [above] at h
  split at h
  · exact h
  · exact (List.dropLast_sublist path).subset h

/-- Resolving a path keeps only segments that were there, and empty ones. -/
theorem mem_resolve {t : String} : ∀ {segments : List (List Char)} {kept : List String},
    t ∈ resolve kept segments → t ∈ kept ∨ t = "" ∨ ∃ cs ∈ segments, t = String.ofList cs
  | [], _, h => Or.inl h
  | [cs], kept, h => by
    simp only [resolve] at h
    split at h
    · rcases List.mem_append.mp h with h | h
      · exact Or.inl (mem_of_mem_above h)
      · exact Or.inr (Or.inl (List.mem_singleton.mp h))
    · split at h <;> rcases List.mem_append.mp h with h | h
      · exact Or.inl h
      · exact Or.inr (Or.inl (List.mem_singleton.mp h))
      · exact Or.inl h
      · exact Or.inr (Or.inr ⟨cs, List.mem_cons_self, List.mem_singleton.mp h⟩)
  | cs :: cs' :: rest, kept, h => by
    have hmore : (∃ ds ∈ cs' :: rest, t = String.ofList ds) →
        ∃ ds ∈ cs :: cs' :: rest, t = String.ofList ds :=
      fun ⟨ds, hds, he⟩ => ⟨ds, List.mem_cons_of_mem _ hds, he⟩
    simp only [resolve] at h
    split at h
    · rcases mem_resolve h with h | h | h
      · exact Or.inl (mem_of_mem_above h)
      · exact Or.inr (Or.inl h)
      · exact Or.inr (Or.inr (hmore h))
    · split at h <;> rcases mem_resolve h with h | h | h
      · exact Or.inl h
      · exact Or.inr (Or.inl h)
      · exact Or.inr (Or.inr (hmore h))
      · rcases List.mem_append.mp h with h | h
        · exact Or.inl h
        · exact Or.inr (Or.inr ⟨cs, List.mem_cons_self, List.mem_singleton.mp h⟩)
      · exact Or.inr (Or.inl h)
      · exact Or.inr (Or.inr (hmore h))

/-- The segments of a path that was read are whole. -/
theorem whole_of_mem_readPath {t : String} {cs : List Char} (h : t ∈ readPath cs) : Whole t := by
  rcases mem_resolve h with h | rfl | ⟨piece, hpiece, rfl⟩
  · cases h
  · exact whole_empty
  · obtain ⟨q, hq, rfl⟩ := List.mem_map.mp hpiece
    intro mark hmark
    obtain ⟨hpercent, hhex⟩ := mark_ne_upperHex hmark
    rw [String.toList_ofList]
    refine not_mem_encodeWith ?_ hpercent hhex
    simp only [List.mem_cons, List.not_mem_nil, or_false] at hmark
    rcases hmark with rfl | rfl | rfl
    · exact Or.inl (not_mem_of_mem_pieces hq)
    · exact Or.inr rfl
    · exact Or.inr rfl

/-! ### Written paths -/

/-- The text of a path. -/
def pathText (path : List String) : List Char := path.flatMap fun t => '/' :: t.toList

/-- What stands before the path of a URL. -/
def front (u : Url) : String :=
  u.scheme.name ++ "://" ++
    (if u.userinfo.isEmpty then "" else u.userinfo ++ "@") ++ u.host.toText ++
    (match u.port with | some p => ":" ++ toString p | none => "")

/-- What stands after the path of a URL. -/
def back (u : Url) : String :=
  (match u.query with | some q => "?" ++ q | none => "") ++
    (match u.fragment with | some f => "#" ++ f | none => "")

theorem toText_eq (u : Url) : u.toText = u.front ++ String.ofList (pathText u.path) ++ u.back := by
  have hpath : String.join (u.path.map ("/" ++ ·)) = String.ofList (pathText u.path) := by
    rw [← String.toList_inj, String.toList_join, String.toList_ofList, pathText, List.flatMap_map]
    exact List.flatMap_congr fun t _ => String.toList_append
  rw [toText, front, back, hpath]
  exact String.append_assoc

/-- A segment of a written path ends where the next slash stands. -/
theorem takeWhile_segment {t : String} (h : Whole t) (path : List String) :
    (t.toList ++ pathText path).takeWhile (· != '/') = t.toList := by
  have hnext : (pathText path).takeWhile (· != '/') = [] := by cases path <;> rfl
  rw [List.takeWhile_append_of_pos, hnext, List.append_nil]
  intro c hc
  refine bne_iff_ne.mpr fun he => ?_
  rw [he] at hc
  exact h '/' List.mem_cons_self hc

/-- Different paths are written differently. -/
theorem pathText_injective : ∀ {path path' : List String}, (∀ t ∈ path, Whole t) →
    (∀ t ∈ path', Whole t) → pathText path = pathText path' → path = path'
  | [], [], _, _, _ => rfl
  | [], _ :: _, _, _, h => by cases h
  | _ :: _, [], _, _, h => by cases h
  | t :: path, t' :: path', hw, hw', h => by
    rw [pathText, pathText, List.flatMap_cons, List.flatMap_cons] at h
    have htext : t.toList ++ pathText path = t'.toList ++ pathText path' := List.tail_eq_of_cons_eq h
    have ht : t.toList = t'.toList := by
      rw [← takeWhile_segment (hw t List.mem_cons_self) path, htext,
        takeWhile_segment (hw' t' List.mem_cons_self) path']
    rw [ht] at htext
    have hrest := pathText_injective (fun s hs => hw s (List.mem_cons_of_mem _ hs))
      (fun s hs => hw' s (List.mem_cons_of_mem _ hs)) (List.append_cancel_left htext)
    rw [String.toList_inj.mp ht, hrest]

/-- URLs that differ in their paths alone are written differently. -/
theorem toText_injective {u : Url} {path path' : List String} (hw : ∀ t ∈ path, Whole t)
    (hw' : ∀ t ∈ path', Whole t) (h : { u with path }.toText = { u with path := path' }.toText) :
    path = path' := by
  rw [toText_eq, toText_eq] at h
  have hpath := (String.append_right_inj _).mp ((String.append_left_inj _).mp h)
  exact pathText_injective hw hw' (String.ofList_injective hpath)

end Url

end SlurmLink
