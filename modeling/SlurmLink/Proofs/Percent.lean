import SlurmLink.Url.Percent

/-!
Escaping loses nothing. A text comes back from its bytes, and its bytes come back from the escaped text:

    text ──encode──▶ bytes ──decode?──▶ text
      │                ▲
      └──encodeWith──▶ escaped text ──decode─┘

The second way round needs the percent sign itself to be escaped, as it is in a segment of a path.
-/

namespace SlurmLink

namespace Text.Utf8

theorem toNat_toUInt8 {n : Nat} (h : n < 256) : n.toUInt8.toNat = n := by
  rw [Nat.toUInt8, UInt8.toNat_ofNat', Nat.mod_eq_of_lt h]

/-- A byte that may follow a pending character, and completes it. -/
theorem decodeFrom_last {p : Pending} {n : Nat} {bs : List UInt8} (hlow : p.low ≤ n) (hhigh : n ≤ p.high)
    (hn : n < 256) (howed : p.owed ≤ 1) : decodeFrom (some p) (n.toUInt8 :: bs) =
      some (Char.ofNat (p.bits * 64 + (n - 0x80))) :: decodeFrom none bs := by
  rw [decodeFrom, toNat_toUInt8 hn, if_pos ⟨hlow, hhigh⟩]
  simp only [if_pos howed]

/-- A byte that may follow a pending character, which stays incomplete. -/
theorem decodeFrom_more {p : Pending} {n : Nat} {bs : List UInt8} (hlow : p.low ≤ n) (hhigh : n ≤ p.high)
    (hn : n < 256) (howed : 1 < p.owed) : decodeFrom (some p) (n.toUInt8 :: bs) =
      decodeFrom (some ⟨p.owed - 1, 0x80, 0xBF, p.bits * 64 + (n - 0x80)⟩) bs := by
  rw [decodeFrom, toNat_toUInt8 hn, if_pos ⟨hlow, hhigh⟩]
  simp only [if_neg (Nat.not_le.mpr howed)]

/-- The first byte of a character that takes more than one. -/
theorem decodeFrom_start {p : Pending} {n : Nat} {bs : List UInt8} (hn : n < 256)
    (h : start n = .inr p) : decodeFrom none (n.toUInt8 :: bs) = decodeFrom (some p) bs := by
  rw [decodeFrom, toNat_toUInt8 hn, h]

theorem toNat_valid (c : Char) : c.toNat < 0xD800 ∨ 0xDFFF < c.toNat ∧ c.toNat < 0x110000 := c.valid

/-- The bytes of a character are read as that character, whatever follows. -/
theorem decodeFrom_encodeChar (c : Char) (bs : List UInt8) :
    decodeFrom none (encodeChar c ++ bs) = some c :: decodeFrom none bs := by
  have hvalid := toNat_valid c
  have hc : Char.ofNat c.toNat = c := Char.ofNat_toNat c
  simp only [encodeChar]
  generalize c.toNat = n at hvalid hc
  by_cases h₁ : n < 0x80
  · rw [if_pos h₁, List.singleton_append, decodeFrom, toNat_toUInt8 (by omega), start, if_pos h₁, hc]
  rw [if_neg h₁]
  by_cases h₂ : n < 0x800
  · have hs : start (0xC0 + n / 64) = .inr ⟨1, 0x80, 0xBF, n / 64⟩ := by
      rw [start, if_neg (by omega), if_neg (by omega), if_pos (by omega), Nat.add_sub_cancel_left]
    rw [if_pos h₂, List.cons_append, List.singleton_append, decodeFrom_start (by omega) hs,
      decodeFrom_last (by simp only; omega) (by simp only; omega) (by omega) (by simp)]
    rw [show n / 64 * 64 + (0x80 + n % 64 - 0x80) = n by omega, hc]
  rw [if_neg h₂]
  by_cases h₃ : n < 0x10000
  · have hs : start (0xE0 + n / 4096) = .inr ⟨2, if 0xE0 + n / 4096 = 0xE0 then 0xA0 else 0x80,
        if 0xE0 + n / 4096 = 0xED then 0x9F else 0xBF, n / 4096⟩ := by
      rw [start, if_neg (by omega), if_neg (by omega), if_neg (by omega), if_pos (by omega),
        Nat.add_sub_cancel_left]
    rw [if_pos h₃, List.cons_append, List.cons_append, List.singleton_append,
      decodeFrom_start (by omega) hs,
      decodeFrom_more (by simp only; split <;> omega) (by simp only; split <;> omega) (by omega)
        (by simp),
      decodeFrom_last (by simp only; omega) (by simp only; omega) (by omega) (by simp)]
    rw [show (n / 4096 * 64 + (0x80 + n / 64 % 64 - 0x80)) * 64 + (0x80 + n % 64 - 0x80) = n by
      omega, hc]
  · have hs : start (0xF0 + n / 262144) = .inr ⟨3, if 0xF0 + n / 262144 = 0xF0 then 0x90 else 0x80,
        if 0xF0 + n / 262144 = 0xF4 then 0x8F else 0xBF, n / 262144⟩ := by
      rw [start, if_neg (by omega), if_neg (by omega), if_neg (by omega), if_neg (by omega),
        if_pos (by omega), Nat.add_sub_cancel_left]
    rw [if_neg h₃, List.cons_append, List.cons_append, List.cons_append, List.singleton_append,
      decodeFrom_start (by omega) hs,
      decodeFrom_more (by simp only; split <;> omega) (by simp only; split <;> omega) (by omega)
        (by simp),
      decodeFrom_more (by simp only; omega) (by simp only; omega) (by omega) (by simp),
      decodeFrom_last (by simp only; omega) (by simp only; omega) (by omega) (by simp)]
    rw [show ((n / 262144 * 64 + (0x80 + n / 4096 % 64 - 0x80)) * 64 +
      (0x80 + n / 64 % 64 - 0x80)) * 64 + (0x80 + n % 64 - 0x80) = n by omega, hc]

theorem decode_encode : ∀ cs : List Char, decode (encode cs) = cs.map some
  | [] => rfl
  | c :: cs => by
    rw [encode, List.flatMap_cons, decode, decodeFrom_encodeChar, List.map_cons]
    exact congrArg (some c :: ·) (decode_encode cs)

/-- A text is read back from its bytes. -/
theorem decode?_encode (cs : List Char) : decode? (encode cs) = some cs := by
  rw [decode?, decode_encode]
  induction cs with
  | nil => rfl
  | cons c cs ih => rw [List.map_cons, List.mapM_cons, ih]; rfl

end Text.Utf8

namespace Url

theorem hexValue_upperHex {n : Nat} (h : n < 16) : Text.hexValue (upperHex n) = some n := by
  have all : ∀ m ∈ List.range 16, Text.hexValue (upperHex m) = some m := by decide
  exact all n (List.mem_range.mpr h)

/-- An escaped byte is read as that byte. -/
theorem decode_escapeByte (b : UInt8) (rest : List Char) :
    decode (escapeByte b ++ rest) = b :: decode rest := by
  have hb : b.toNat < 256 := b.toNat_lt
  simp only [escapeByte, List.cons_append, List.nil_append, decode,
    hexValue_upperHex (show b.toNat / 16 < 16 by omega),
    hexValue_upperHex (show b.toNat % 16 < 16 by omega)]
  rw [show 16 * (b.toNat / 16) + b.toNat % 16 = b.toNat by omega]
  exact congrArg (· :: decode rest) UInt8.ofNat_toNat

theorem decode_escapeBytes : ∀ (bs : List UInt8) (rest : List Char),
    decode (bs.flatMap escapeByte ++ rest) = bs ++ decode rest
  | [], _ => rfl
  | b :: bs, rest => by
    rw [List.flatMap_cons, List.append_assoc, decode_escapeByte, decode_escapeBytes bs rest,
      List.cons_append]

/-- A character that is no percent sign stands for itself. -/
theorem decode_cons {c : Char} (h : c ≠ '%') (rest : List Char) :
    decode (c :: rest) = Text.Utf8.encodeChar c ++ decode rest := by
  rw [decode]
  rintro _ _ _ he
  exact absurd he h

/-- A text is read back from its escaped form, when the percent sign is escaped too. -/
theorem decode_encodeWith {special : Char → Bool} (h : special '%' = true) : ∀ cs : List Char,
    decode (encodeWith special cs) = Text.Utf8.encode cs
  | [] => rfl
  | c :: cs => by
    rw [encodeWith, List.flatMap_cons, Text.Utf8.encode, List.flatMap_cons]
    have ih : decode (cs.flatMap _) = cs.flatMap _ := decode_encodeWith h cs
    by_cases hc : special c = true
    · rw [if_pos hc, decode_escapeBytes, ih]
    · have hne : c ≠ '%' := fun he => hc (he ▸ h)
      rw [if_neg hc, List.singleton_append, decode_cons hne, ih]

theorem encodeWith_append (special : Char → Bool) (cs ds : List Char) :
    encodeWith special (cs ++ ds) = encodeWith special cs ++ encodeWith special ds :=
  List.flatMap_append

/-- Nothing is left out when a text is escaped. -/
theorem eq_nil_of_encodeWith {special : Char → Bool} : ∀ {cs : List Char},
    encodeWith special cs = [] → cs = []
  | [], _ => rfl
  | c :: cs, h => by
    have hbytes : Text.Utf8.encodeChar c ≠ [] := by
      rw [Text.Utf8.encodeChar]
      repeat' split
      all_goals exact List.cons_ne_nil _ _
    rw [encodeWith, List.flatMap_cons] at h
    have hfirst := List.append_eq_nil_iff.mp h |>.1
    split at hfirst
    · cases hc : Text.Utf8.encodeChar c with
      | nil => exact absurd hc hbytes
      | cons b bs => rw [hc, List.flatMap_cons] at hfirst; cases hfirst
    · cases hfirst

/-- A character of an escaped text is one that need not be escaped, or part of an escape. -/
theorem mem_encodeWith {special : Char → Bool} {c : Char} {cs : List Char}
    (h : c ∈ encodeWith special cs) :
    (c ∈ cs ∧ special c = false) ∨ c = '%' ∨ ∃ n < 16, c = upperHex n := by
  obtain ⟨d, hd, hc⟩ := List.mem_flatMap.mp h
  split at hc
  · obtain ⟨b, -, hb⟩ := List.mem_flatMap.mp hc
    have hlt : b.toNat < 256 := b.toNat_lt
    simp only [escapeByte, List.mem_cons, List.not_mem_nil, or_false] at hb
    rcases hb with rfl | rfl | rfl
    · exact Or.inr (Or.inl rfl)
    · exact Or.inr (Or.inr ⟨_, by omega, rfl⟩)
    · exact Or.inr (Or.inr ⟨_, by omega, rfl⟩)
  · next hspecial =>
    obtain rfl := List.mem_singleton.mp hc
    exact Or.inl ⟨hd, Bool.eq_false_iff.mpr hspecial⟩

/-- Escaping brings in no mark that is neither a percent sign nor a digit of an escape. -/
theorem not_mem_encodeWith {special : Char → Bool} {c : Char} {cs : List Char}
    (hc : c ∉ cs ∨ special c = true) (hpercent : c ≠ '%') (hhex : ∀ n < 16, c ≠ upperHex n) :
    c ∉ encodeWith special cs := by
  intro h
  rcases mem_encodeWith h with ⟨hmem, hspecial⟩ | rfl | ⟨n, hn, rfl⟩
  · rcases hc with hc | hc
    · exact hc hmem
    · exact absurd (hc.symm.trans hspecial) nofun
  · exact hpercent rfl
  · exact hhex n hn rfl

end Url

end SlurmLink
