import SlurmLink.Proofs.Percent
import SlurmLink.Url.Basic

/-!
A blank at the end of an authority. Blanks and controls at the edges of a URL do not count, but one that
has come to stand between the authority and the path does. It goes through all that is done to a host,
and at the end of it no host may hold it:

    host ++ [b] ──decode──▶ bytes ++ [b] ──decode?──▶ text ++ [b] ──fold, compose──▶ ... ++ [b]   refused

so that such an authority has no reading (`readHostPort_concat`).
-/

namespace SlurmLink

/-! ### Blanks -/

/-- Neither a blank nor a control is as great as a character that can be seen. -/
theorem not_le_of_blank {b c : Char} (hb : b.toNat ≤ 0x20) (hc : 0x20 < c.toNat) : ¬ c ≤ b :=
  fun h => absurd (UInt32.le_iff_toNat_le.mp h) (Nat.not_le.mpr (Nat.lt_of_le_of_lt hb hc))

theorem ne_of_blank {b c : Char} (hb : b.toNat ≤ 0x20) (hc : 0x20 < c.toNat) : b ≠ c :=
  fun h => absurd hb (Nat.not_le.mpr (h ▸ hc))

theorem hexValue_of_blank {b : Char} (hb : b.toNat ≤ 0x20) : Text.hexValue b = none := by
  rw [Text.hexValue, if_neg fun h => not_le_of_blank hb (by decide) h.1,
    if_neg fun h => not_le_of_blank hb (by decide) h.1,
    if_neg fun h => not_le_of_blank hb (by decide) h.1]

theorem isDigit_of_blank {b : Char} (hb : b.toNat ≤ 0x20) : Text.isDigit b = false := by
  rw [Text.isDigit, decide_eq_false (not_le_of_blank hb (by decide)), Bool.false_and]

theorem toLower_of_blank {b : Char} (hb : b.toNat ≤ 0x20) : b.toLower = b :=
  dif_neg fun h => not_le_of_blank hb (by decide) h.1

/-! ### Bytes -/

namespace Text.Utf8

theorem low_of_start {b : Nat} {p : Pending} (h : start b = .inr p) : 0x80 ≤ p.low := by
  rw [start] at h
  repeat' split at h
  all_goals cases h
  all_goals simp only
  all_goals omega

/-- A byte below 0x80 at the end is a character of its own, whatever stands before it. -/
theorem decodeFrom_concat {n : UInt8} (hn : n.toNat < 0x80) : ∀ (bs : List UInt8) {p : Option Pending},
    (∀ q, p = some q → 0x80 ≤ q.low) →
      decodeFrom p (bs ++ [n]) = decodeFrom p bs ++ [some (Char.ofNat n.toNat)]
  | [], none, _ => by
    simp only [List.nil_append, decodeFrom, start, if_pos hn]
  | [], some q, h => by
    have hlow := h q rfl
    have hout : ¬ (q.low ≤ n.toNat ∧ n.toNat ≤ q.high) := by omega
    simp only [List.nil_append, decodeFrom, if_neg hout, start, if_pos hn, List.singleton_append]
  | b :: bs, none, _ => by
    have hrest := decodeFrom_concat hn bs (p := none) fun q hq => by cases hq
    simp only [List.cons_append, decodeFrom]
    cases hs : start b.toNat with
    | inl item => simp only [hrest, List.cons_append]
    | inr p => exact decodeFrom_concat hn bs fun q hq => by cases hq; exact low_of_start hs
  | b :: bs, some q, h => by
    have hrest := decodeFrom_concat hn bs (p := none) fun q hq => by cases hq
    simp only [List.cons_append, decodeFrom]
    split
    · split
      · rw [hrest, List.cons_append]
      · refine decodeFrom_concat hn bs fun q' hq => ?_
        obtain rfl := Option.some.inj hq
        exact Nat.le_refl 0x80
    · cases hs : start b.toNat with
      | inl item => simp only [hrest, List.cons_append]
      | inr p =>
        have hmore := decodeFrom_concat hn bs (p := some p)
          fun q hq => by cases hq; exact low_of_start hs
        simp only [hmore, List.cons_append]

/-- If bytes with a byte below 0x80 at the end are a text, that byte is its last character. -/
theorem eq_concat_of_decode? {n : UInt8} (hn : n.toNat < 0x80) {bs : List UInt8} {cs : List Char}
    (h : decode? (bs ++ [n]) = some cs) : ∃ ds, cs = ds ++ [Char.ofNat n.toNat] := by
  have hitems := decodeFrom_concat hn bs (p := none) fun q hq => by cases hq
  rw [decode?, decode, hitems, List.mapM_append] at h
  cases hd : (decodeFrom none bs).mapM id with
  | none => rw [hd] at h; cases h
  | some ds => rw [hd] at h; cases h; exact ⟨ds, rfl⟩

end Text.Utf8

namespace Url

variable {b : Char}

/-- A percent sign with less than two characters after it is kept. -/
theorem decode_percent {rest : List Char} (h : rest.length < 2) :
    decode ('%' :: rest) = Text.Utf8.encodeChar '%' ++ decode rest := by
  rw [decode]
  rintro a c cs - rfl
  rw [List.length_cons, List.length_cons] at h
  omega

/-- A percent sign without two digits after it is kept. -/
theorem decode_not_escape {a c : Char} (h : Text.hexValue c = none) (rest : List Char) :
    decode ('%' :: a :: c :: rest) = Text.Utf8.encodeChar '%' ++ decode (a :: c :: rest) := by
  simp only [decode, h]
  cases Text.hexValue a <;> rfl

/-- A character that is no part of an escape stands for itself at the end of a text. -/
theorem decode_concat (hb : Text.hexValue b = none) (hne : b ≠ '%') : ∀ cs : List Char,
    decode (cs ++ [b]) = decode cs ++ Text.Utf8.encodeChar b
  | [] => (decode_cons hne []).trans (List.append_nil _)
  | c :: cs => by
    by_cases hc : c = '%'
    · subst hc
      match cs with
      | [] =>
        rw [List.singleton_append, decode_percent (by simp), decode_percent (by simp),
          List.append_assoc, ← decode_concat hb hne []]
        rfl
      | [a] =>
        show decode ['%', a, b] = _
        rw [decode_not_escape hb, decode_percent (by simp), List.append_assoc,
          ← decode_concat hb hne [a]]
        rfl
      | a :: d :: cs =>
        simp only [List.cons_append, decode]
        split
        · rw [decode_concat hb hne cs]
          rfl
        · rw [List.append_assoc, ← decode_concat hb hne (a :: d :: cs)]
          rfl
    · rw [List.cons_append, decode_cons hc, decode_cons hc, decode_concat hb hne cs,
        List.append_assoc]

end Url

/-! ### Domain names -/

namespace Unicode

variable {b : Char}

theorem place_concat (hb : combiningClass b = 0) (c : Char) : ∀ cs : List Char,
    place c (cs ++ [b]) = place c cs ++ [b]
  | [] => by
    simp only [List.nil_append, place, hb, ne_eq, not_true_eq_false, false_and, if_false,
      List.singleton_append]
  | d :: cs => by
    rw [List.cons_append, place, place]
    split
    · exact congrArg (d :: ·) (place_concat hb c cs)
    · rfl

theorem reorder_concat (hb : combiningClass b = 0) : ∀ cs : List Char,
    reorder (cs ++ [b]) = reorder cs ++ [b]
  | [] => rfl
  | c :: cs => by
    have ih := reorder_concat hb cs
    rw [reorder, List.cons_append, List.foldr_cons]
    rw [reorder] at ih
    rw [ih, place_concat hb]
    rfl

/-- What joins nothing before it is still there in the end. -/
theorem mem_composeAfter_concat (hb : combiningClass b = 0) (hjoin : ∀ base, join? base b = none) :
    ∀ (cs : List Char) (base : Char) (kept : List Char), b ∈ composeAfter base kept (cs ++ [b])
  | [], base, kept => by
    simp only [List.nil_append, composeAfter, hjoin, ite_self, hb, if_true]
    exact List.mem_append_right _ List.mem_cons_self
  | c :: cs, base, kept => by
    rw [List.cons_append, composeAfter]
    split
    · exact mem_composeAfter_concat hb hjoin cs _ kept
    · split
      · exact List.mem_append_right _ (mem_composeAfter_concat hb hjoin cs c [])
      · exact mem_composeAfter_concat hb hjoin cs base (kept ++ [c])

theorem mem_compose_concat (hb : combiningClass b = 0) (hjoin : ∀ base, join? base b = none) :
    ∀ cs : List Char, b ∈ compose (cs ++ [b])
  | [] => by
    simp only [List.nil_append, compose, hb, if_true, composeAfter]
    exact List.mem_cons_self
  | c :: cs => by
    rw [List.cons_append, compose]
    split
    · exact mem_composeAfter_concat hb hjoin cs c []
    · exact List.mem_cons_of_mem _ (mem_compose_concat hb hjoin cs)

/-- A character of ASCII at the end is still there in the composed form. -/
theorem mem_normalize_concat (hb : b.toNat < 0x80) (cs : List Char) : b ∈ normalize (cs ++ [b]) := by
  have hclass : combiningClass b = 0 := by rw [combiningClass, if_pos (by omega)]
  have hjoin : ∀ base, join? base b = none := fun base => by rw [join?, if_pos (by omega)]
  have hparts : parts b = [b] := by
    simp only [parts, partsWithin, split?, if_pos (show b.toNat < 0xC0 by omega)]
  rw [normalize, List.flatMap_append, List.flatMap_singleton, hparts, reorder_concat hclass]
  exact mem_compose_concat hclass hjoin _

end Unicode

namespace Domain

variable {b : Char}

theorem fold_concat (hb : b.toNat ≤ 0x20) (cs : List Char) :
    fold (cs ++ [b]) = (fold cs).map (· ++ [b]) := by
  have hchar : foldChar b = some [b] := by
    rw [foldChar, if_pos (by omega), toLower_of_blank hb]
  rw [fold, fold, List.mapM_append]
  cases hcs : cs.mapM foldChar with
  | none => rfl
  | some parts =>
    simp only [List.mapM_cons, List.mapM_nil, hchar]
    simp

/-- No domain name ends in a blank. -/
theorem ascii?_concat (hb : b.toNat ≤ 0x20) (cs : List Char) : ascii? (cs ++ [b]) = none := by
  have hlabels : labels? (cs ++ [b]) = none := by
    rw [labels?, fold_concat hb]
    cases hf : fold cs with
    | none => rfl
    | some text =>
      have hany : (Unicode.normalize (text ++ [b])).any isForbidden = true := by
        refine List.any_eq_true.mpr ⟨b, Unicode.mem_normalize_concat (by omega) text, ?_⟩
        rw [isForbidden, decide_eq_true hb, Bool.true_or, Bool.true_or]
      show (if _ then _ else _) = _
      rw [if_pos hany]
  rw [ascii?, hlabels]
  rfl

end Domain

/-! ### Hosts and ports -/

namespace Url

variable {b : Char}

theorem host_read_concat (hb : b.toNat ≤ 0x20) (cs : List Char) :
    ∃ fault, Host.read (cs ++ [b]) = .error fault := by
  have hname : (Text.Utf8.decode? (decode (cs ++ [b]))).bind Domain.ascii? = none := by
    have hbytes : Text.Utf8.encodeChar b = [b.toNat.toUInt8] := by
      rw [Text.Utf8.encodeChar, if_pos (by omega)]
    have hn : b.toNat.toUInt8.toNat = b.toNat := Text.Utf8.toNat_toUInt8 (by omega)
    rw [decode_concat (hexValue_of_blank hb) (ne_of_blank hb (by decide)), hbytes]
    cases hd : Text.Utf8.decode? (decode cs ++ [b.toNat.toUInt8]) with
    | none => rfl
    | some ds =>
      obtain ⟨es, rfl⟩ := Text.Utf8.eq_concat_of_decode? (by omega) hd
      rw [hn, Char.ofNat_toNat]
      exact Domain.ascii?_concat hb es
  by_cases hcons : ∃ rest, cs ++ [b] = '[' :: rest
  · obtain ⟨rest, hcons⟩ := hcons
    have hlast : rest.getLast? ≠ some ']' := by
      intro hbracket
      have hb' := congrArg List.getLast? hcons
      rw [List.getLast?_concat, List.getLast?_cons, hbracket] at hb'
      exact ne_of_blank hb (by decide) (Option.some.inj hb')
    rw [hcons, Host.read, if_neg hlast]
    exact ⟨_, rfl⟩
  · rw [Host.read, hname]
    · exact ⟨_, rfl⟩
    · exact fun hnil => by simp at hnil
    · exact fun rest hrest => hcons ⟨rest, hrest⟩

/-- The host is all there is, or something of the port is left that is not all digits. -/
theorem hostPart_concat (hb : b ≠ ':') : ∀ (cs : List Char) (inside : Bool),
    hostPart inside (cs ++ [b]) = cs ++ [b] ∨
      ∃ ds, (cs ++ [b]).drop (hostPart inside (cs ++ [b])).length = ':' :: (ds ++ [b])
  | [], inside => by
    left
    simp [hostPart, hb]
  | c :: cs, inside => by
    rw [List.cons_append, hostPart]
    split
    · next hc =>
      obtain ⟨rfl, -⟩ := hc
      exact Or.inr ⟨cs, rfl⟩
    · rcases hostPart_concat hb cs (if c = '[' then true else if c = ']' then false else inside)
        with hall | ⟨ds, hds⟩
      · exact Or.inl (congrArg (c :: ·) hall)
      · exact Or.inr ⟨ds, hds⟩

/-- An authority that ends in a blank has no reading. -/
theorem readHostPort_concat (hb : b.toNat ≤ 0x20) (cs : List Char) :
    ∃ fault, readHostPort (cs ++ [b]) = .error fault := by
  rw [readHostPort]
  rcases hostPart_concat (ne_of_blank hb (by decide)) cs false with hall | ⟨ds, hds⟩
  · obtain ⟨fault, hfault⟩ := host_read_concat hb cs
    rw [hall, hfault]
    exact ⟨fault, rfl⟩
  · have hport : readPort (':' :: (ds ++ [b])) = .error .invalidPort := by
      have hdigits : (ds ++ [b]).all Text.isDigit = false := by
        rw [List.all_append, List.all_cons, isDigit_of_blank hb, Bool.false_and, Bool.and_false]
      rw [readPort, if_neg (by simp), hdigits, Bool.false_and, if_neg Bool.false_ne_true]
    rw [hds, hport]
    cases Host.read (hostPart false (cs ++ [b])) with
    | error fault => exact ⟨fault, rfl⟩
    | ok host => exact ⟨_, rfl⟩

/-- What follows the user in an authority ends as the authority does. -/
theorem splitUser_concat (hb : b ≠ '@') (cs : List Char) :
    ∃ ds, (splitUser (cs ++ [b])).2 = ds ++ [b] := by
  rw [splitUser]
  split
  · refine ⟨(cs.reverse.takeWhile (· != '@')).reverse, ?_⟩
    simp [hb]
  · exact ⟨cs, rfl⟩

end Url

end SlurmLink
