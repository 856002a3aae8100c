import SlurmLink.Proofs.Rounding

/-!
Powers of doubles. A power is made of squares, from the lowest bit of the exponent up:

    exponent 13      1           0        1           1
    squares          a           a²       a⁴          a⁸
    power       1 ─▶ a ────────▶ a ─────▶ a · a⁴ ───▶ (a · a⁴) · a⁸

Every product on the way is rounded, so a power is in general not that of the numbers. For a base of at
least one it still grows with the exponent (`size_pow_mono`): up to any bit it is at most the square that
belongs to the next one. What holds of the one and of the base and is kept by products, with the exponents
added, holds of every power (`pow_induction`); so a power of whole numbers is exact while it has 53 bits
(`follows_pow`), and it overflows between the powers of two around it.
-/

namespace SlurmLink

namespace Binary64

variable {a x y : Binary64}

/-! ### Bit by bit -/

/-- The base squared as often as said. -/
def square (a : Binary64) : ℕ → Binary64
  | 0 => a
  | j + 1 => (square a j).mul (square a j)

/-- The power for the lowest bits of an exponent. -/
def lowPower (a : Binary64) (n : ℕ) : ℕ → Binary64
  | 0 => one
  | j + 1 => if n / 2 ^ j % 2 = 1 then (lowPower a n j).mul (square a j) else lowPower a n j

theorem lowPower_of_le {n j : ℕ} (hn : n / 2 ^ j = 0) : ∀ k, lowPower a n (j + k) = lowPower a n j
  | 0 => rfl
  | k + 1 => by
    have hzero : n / 2 ^ (j + k) = 0 := by rw [pow_add, ← Nat.div_div_eq_div_mul, hn, Nat.zero_div]
    rw [← Nat.add_assoc, lowPower, hzero, if_neg (by decide), lowPower_of_le hn k]

/-- The loop has the power for the bits before the present one, and goes on to those that are left. -/
theorem powLoop_eq (n : ℕ) : ∀ steps j, n / 2 ^ j < 2 ^ steps →
    powLoop steps (lowPower a n j) (square a j) (n / 2 ^ j) = lowPower a n (j + steps)
  | 0, _, _ => rfl
  | steps + 1, j, h => by
    have hnext : (if n / 2 ^ j % 2 = 1 then (lowPower a n j).mul (square a j) else lowPower a n j) =
        lowPower a n (j + 1) := rfl
    have hhalf : n / 2 ^ j / 2 = n / 2 ^ (j + 1) := by rw [Nat.div_div_eq_div_mul, ← pow_succ]
    rw [powLoop]
    simp only [hnext, hhalf]
    split
    · next hzero => rw [show j + (steps + 1) = j + 1 + steps by omega, lowPower_of_le hzero]
    · rw [show j + (steps + 1) = j + 1 + steps by omega, ← powLoop_eq n steps (j + 1) (by omega)]
      rfl

theorem pow_eq (a : Binary64) (n : ℕ) : a.pow n = lowPower a (min n maxPower) 32 := by
  have h := powLoop_eq (a := a) (min n maxPower) 32 0 (by simp only [maxPower]; omega)
  rwa [pow_zero, Nat.div_one, Nat.zero_add] at h

/-- The bits up to the next one. -/
theorem mod_two_pow_succ (n j : ℕ) : n % 2 ^ (j + 1) = n % 2 ^ j + n / 2 ^ j % 2 * 2 ^ j := by
  rw [pow_succ, Nat.mod_mul, Nat.mul_comm (2 ^ j)]

/-- What products keep, with the exponents added, holds of every power. -/
theorem pow_induction {R : ℕ → Binary64 → Prop} (hone : R 0 one) (ha : R 1 a)
    (hmul : ∀ i j x y, R i x → R j y → R (i + j) (x.mul y)) (n : ℕ) :
    R (min n maxPower) (a.pow n) := by
  have hsquare : ∀ j, R (2 ^ j) (square a j) := by
    intro j
    induction j with
    | zero => exact ha
    | succ j ih =>
      rw [pow_succ, Nat.mul_two]
      exact hmul _ _ _ _ ih ih
  have hlow : ∀ j, R (min n maxPower % 2 ^ j) (lowPower a (min n maxPower) j) := by
    intro j
    induction j with
    | zero =>
      rw [pow_zero, Nat.mod_one]
      exact hone
    | succ j ih =>
      rw [mod_two_pow_succ, lowPower]
      split
      · next hbit =>
        rw [hbit, Nat.one_mul]
        exact hmul _ _ _ _ ih (hsquare j)
      · next hbit =>
        rw [Nat.mod_two_ne_one.mp hbit, Nat.zero_mul, Nat.add_zero]
        exact ih
  have hall := hlow 32
  rwa [Nat.mod_eq_of_lt (by simp only [maxPower]; omega), ← pow_eq] at hall

theorem atLeastOne_pow (ha : AtLeastOne a) (n : ℕ) : AtLeastOne (a.pow n) :=
  pow_induction (R := fun _ x => AtLeastOne x) atLeastOne_one ha (fun _ _ _ _ hx hy => hx.mul hy) n

/-! ### Growth -/

theorem atLeastOne_square (ha : AtLeastOne a) : ∀ j, AtLeastOne (square a j)
  | 0 => ha
  | j + 1 => (atLeastOne_square ha j).mul (atLeastOne_square ha j)

theorem atLeastOne_lowPower (ha : AtLeastOne a) (n : ℕ) : ∀ j, AtLeastOne (lowPower a n j)
  | 0 => atLeastOne_one
  | j + 1 => by
    rw [lowPower]
    split
    · exact (atLeastOne_lowPower ha n j).mul (atLeastOne_square ha j)
    · exact atLeastOne_lowPower ha n j

theorem rounded_lowPower (ha : AtLeastOne a) (n : ℕ) : ∀ j, Rounded (lowPower a n j)
  | 0 => rounded_ofRatio 1 Nat.one_pos
  | j + 1 => by
    rw [lowPower]
    split
    · exact rounded_mul (atLeastOne_lowPower ha n j) (atLeastOne_square ha j)
    · exact rounded_lowPower ha n j

/-- The power for the bits before one is at most the square for that bit. -/
theorem lowPower_le_square (ha : AtLeastOne a) (n : ℕ) : ∀ j,
    size (lowPower a n j) ≤ size (square a j)
  | 0 => by
    rw [lowPower, one, size_ofNat (by decide), Nat.cast_one]
    exact ha.one_le
  | j + 1 => by
    have hlow := atLeastOne_lowPower ha n j
    have hsquare := atLeastOne_square ha j
    have ih := lowPower_le_square ha n j
    rw [lowPower, square]
    split
    · exact size_mul_mono hlow hsquare hsquare hsquare ih le_rfl
    · exact (rounded_lowPower ha n j).le_size_mul hsquare hsquare ih

/-- The greater exponent makes the greater power, bit by bit. -/
theorem lowPower_mono (ha : AtLeastOne a) {n n' : ℕ} : ∀ {j}, n % 2 ^ j ≤ n' % 2 ^ j →
    size (lowPower a n j) ≤ size (lowPower a n' j)
  | 0, _ => le_rfl
  | j + 1, h => by
    have hlow := atLeastOne_lowPower ha n j
    have hlow' := atLeastOne_lowPower ha n' j
    have hsquare := atLeastOne_square ha j
    have hmod := Nat.mod_lt n (Nat.two_pow_pos j)
    have hmod' := Nat.mod_lt n' (Nat.two_pow_pos j)
    rw [mod_two_pow_succ, mod_two_pow_succ] at h
    simp only [lowPower]
    rcases Nat.mod_two_eq_zero_or_one (n / 2 ^ j) with hbit | hbit <;>
      rcases Nat.mod_two_eq_zero_or_one (n' / 2 ^ j) with hbit' | hbit' <;>
      rw [hbit, hbit'] at h
    · rw [if_neg (by omega), if_neg (by omega)]
      exact lowPower_mono ha (by omega)
    -- only the greater exponent has the bit
    · rw [if_neg (by omega), if_pos hbit']
      exact (rounded_lowPower ha n j).le_size_mul hlow' hsquare (lowPower_le_square ha n j)
    · omega
    · rw [if_pos hbit, if_pos hbit']
      exact size_mul_mono hlow hsquare hlow' hsquare (lowPower_mono ha (by omega)) le_rfl

/-- A power of a number of at least one grows with the exponent. -/
theorem size_pow_mono (ha : AtLeastOne a) {m n : ℕ} (h : m ≤ n) : size (a.pow m) ≤ size (a.pow n) := by
  rw [pow_eq, pow_eq]
  refine lowPower_mono ha ?_
  rw [Nat.mod_eq_of_lt (by simp only [maxPower]; omega), Nat.mod_eq_of_lt (by simp only [maxPower]; omega)]
  omega

/-! ### Powers of two -/

theorem representable_two_pow (k : ℕ) : Representable (2 ^ k) :=
  ⟨1, k, by rw [Nat.cast_one, one_mul, zpow_natCast], by decide, by simp only [minExponent]; omega⟩

theorem clip_two_pow_of_lt {k : ℕ} (h : k < 1024) : clip (2 ^ k) = ((2 ^ k : ℚ) : WithTop ℚ) := by
  rw [← zpow_natCast]
  exact clip_two_zpow_of_lt (by omega)

theorem clip_two_pow_of_le {k : ℕ} (h : 1024 ≤ k) : clip (2 ^ k) = ⊤ := by
  rw [← zpow_natCast]
  exact clip_two_zpow_of_le (by omega)

theorem coe_le_of_clip_le {v : ℚ} (h : clip v ≤ size x) : (v : WithTop ℚ) ≤ size x := by
  rw [clip] at h
  split at h
  · exact h
  · exact le_trans le_top h

theorem clip_two_pow_le_size_ofNat {j m : ℕ} (h : 2 ^ j ≤ m) : clip (2 ^ j) ≤ size (ofNat m) := by
  rw [← size_ofRatio_of_representable (s := false) (n := 2 ^ j) Nat.one_pos (by simp)
    (representable_two_pow j)]
  refine size_ofRatio_mono Nat.one_pos Nat.one_pos ?_
  gcongr

theorem size_ofNat_le_clip_two_pow {j m : ℕ} (h : m ≤ 2 ^ j) : size (ofNat m) ≤ clip (2 ^ j) := by
  rw [← size_ofRatio_of_representable (s := false) (n := 2 ^ j) Nat.one_pos (by simp)
    (representable_two_pow j)]
  refine size_ofRatio_mono Nat.one_pos Nat.one_pos ?_
  gcongr

theorem atLeastOne_ofNat {m : ℕ} (hm : 0 < m) : AtLeastOne (ofNat m) :=
  ⟨unsigned_ofNat m, by
    have h := coe_le_of_clip_le (clip_two_pow_le_size_ofNat (j := 0) (m := m) hm)
    rwa [pow_zero] at h⟩

/-! ### Whole numbers -/

/-- The double is the whole number `n`, or both are `2 ^ 53` at least. -/
structure Follows (x : Binary64) (n : ℕ) : Prop where
  exact : n < 2 ^ 53 → size x = ((n : ℚ) : WithTop ℚ)
  beyond : 2 ^ 53 ≤ n → ((2 ^ 53 : ℚ) : WithTop ℚ) ≤ size x

theorem follows_ofNat (n : ℕ) : Follows (ofNat n) n :=
  ⟨fun hlt => size_ofNat hlt.le, fun hle => coe_le_of_clip_le (clip_two_pow_le_size_ofNat hle)⟩

theorem Follows.le_size {n : ℕ} (h : Follows x n) : ((min n (2 ^ 53) : ℕ) : ℚ) ≤ size x := by
  rcases Nat.lt_or_ge n (2 ^ 53) with hlt | hge
  · rw [h.exact hlt, Nat.min_eq_left hlt.le]
  · rw [Nat.min_eq_right hge]
    exact_mod_cast h.beyond hge

/-- A product of whole numbers is exact while it has 53 bits. -/
theorem Follows.mul {m n : ℕ} (hx : AtLeastOne x) (hy : AtLeastOne y) (hm : 0 < m) (hn : 0 < n)
    (hxm : Follows x m) (hyn : Follows y n) : Follows (x.mul y) (m * n) := by
  have h53 : ((2 ^ 53 : ℕ) : ℚ) < 2 ^ (1024 : ℤ) := by
    rw [Nat.cast_pow, Nat.cast_ofNat, ← zpow_natCast]
    exact zpow_lt_zpow_right₀ (by norm_num) (by norm_num)
  constructor
  · intro hlt
    have hmlt : m < 2 ^ 53 := lt_of_le_of_lt (Nat.le_mul_of_pos_right m hn) hlt
    have hnlt : n < 2 ^ 53 := lt_of_le_of_lt (Nat.le_mul_of_pos_left n hm) hlt
    have hsx := hxm.exact hmlt
    have hsy := hyn.exact hnlt
    have hrep : Representable ((m * n : ℕ) : ℚ) :=
      ⟨m * n, 0, by rw [zpow_zero, mul_one], hlt.le, by decide⟩
    have hclip : clip ((m * n : ℕ) : ℚ) = (((m * n : ℕ) : ℚ) : WithTop ℚ) :=
      if_pos (lt_trans (Nat.cast_lt.mpr hlt) h53)
    refine le_antisymm ?_ ?_
    · rw [← hclip]
      exact size_mul_le_clip hx hy hsx.le hsy.le hrep (by rw [Nat.cast_mul])
    · rw [← hclip]
      exact clip_le_size_mul hx hy (Nat.cast_nonneg m) hsx.ge hsy.ge hrep (by rw [Nat.cast_mul])
  · intro hge
    have hrep : Representable ((2 ^ 53 : ℕ) : ℚ) :=
      ⟨2 ^ 53, 0, by rw [zpow_zero, mul_one], le_rfl, by decide⟩
    have hle := clip_le_size_mul hx hy (Nat.cast_nonneg _) hxm.le_size hyn.le_size hrep (by
      rw [← Nat.cast_mul, Nat.cast_le]
      -- either factor is capped, or none is
      rcases Nat.le_total m (2 ^ 53) with hm' | hm' <;> rcases Nat.le_total n (2 ^ 53) with hn' | hn'
      · rwa [Nat.min_eq_left hm', Nat.min_eq_left hn']
      · rw [Nat.min_eq_left hm', Nat.min_eq_right hn']
        exact Nat.le_mul_of_pos_left _ hm
      · rw [Nat.min_eq_right hm', Nat.min_eq_left hn']
        exact Nat.le_mul_of_pos_right _ hn
      · rw [Nat.min_eq_right hm', Nat.min_eq_right hn']
        exact Nat.le_mul_of_pos_right _ (Nat.two_pow_pos 53))
    rw [clip, if_pos h53] at hle
    exact_mod_cast hle

theorem follows_pow {m : ℕ} (hm : 0 < m) (ha : AtLeastOne a) (hfollows : Follows a m) (n : ℕ) :
    Follows (a.pow n) (m ^ min n maxPower) := by
  have hall := pow_induction (R := fun i x => AtLeastOne x ∧ Follows x (m ^ i))
    ⟨atLeastOne_one, by rw [pow_zero]; exact follows_ofNat 1⟩
    ⟨ha, by rw [pow_one]; exact hfollows⟩
    (fun i j x y hx hy => ⟨hx.1.mul hy.1, by
      rw [pow_add]
      exact hx.2.mul hx.1 hy.1 (pow_pos hm i) (pow_pos hm j) hy.2⟩) n
  exact hall.2

/-! ### Overflow -/

/-- A power of a number of at least `2 ^ j` is at least the power of that. -/
theorem clip_le_size_pow {j : ℕ} (ha : AtLeastOne a) (h : clip (2 ^ j) ≤ size a) (n : ℕ) :
    clip (2 ^ (j * min n maxPower)) ≤ size (a.pow n) := by
  have hall := pow_induction (R := fun i x => AtLeastOne x ∧ clip (2 ^ (j * i)) ≤ size x)
    ⟨atLeastOne_one, by
      rw [Nat.mul_zero]
      exact clip_two_pow_le_size_ofNat (by decide)⟩
    ⟨ha, by rwa [Nat.mul_one]⟩
    (fun i k x y hx hy => ⟨hx.1.mul hy.1, by
      refine clip_le_size_mul hx.1 hy.1 (by positivity) (coe_le_of_clip_le hx.2)
        (coe_le_of_clip_le hy.2) (representable_two_pow _) ?_
      rw [Nat.mul_add, pow_add]⟩) n
  exact hall.2

/-- A power of a number of at most `2 ^ j` is at most the power of that. -/
theorem size_pow_le_clip {j : ℕ} (ha : AtLeastOne a) (h : size a ≤ clip (2 ^ j)) (n : ℕ) :
    size (a.pow n) ≤ clip (2 ^ (j * min n maxPower)) := by
  have hall := pow_induction (R := fun i x => AtLeastOne x ∧ size x ≤ clip (2 ^ (j * i)))
    ⟨atLeastOne_one, by
      rw [Nat.mul_zero]
      exact size_ofNat_le_clip_two_pow (by decide)⟩
    ⟨ha, by rwa [Nat.mul_one]⟩
    (fun i k x y hx hy => ⟨hx.1.mul hy.1, by
      rcases Nat.lt_or_ge (j * (i + k)) 1024 with hlt | hge
      · rw [Nat.mul_add] at hlt
        have hleft : clip (2 ^ (j * i)) = ((2 ^ (j * i) : ℚ) : WithTop ℚ) :=
          clip_two_pow_of_lt (by omega)
        have hright : clip (2 ^ (j * k)) = ((2 ^ (j * k) : ℚ) : WithTop ℚ) :=
          clip_two_pow_of_lt (by omega)
        refine size_mul_le_clip hx.1 hy.1 (hleft ▸ hx.2) (hright ▸ hy.2) (representable_two_pow _) ?_
        rw [Nat.mul_add, pow_add]
      · rw [clip_two_pow_of_le hge]
        exact le_top⟩) n
  exact hall.2

/-- Below `2 ^ 1024` by the power of two above, powers of whole numbers are finite. -/
theorem isFinite_pow {j m n : ℕ} (hm : 0 < m) (h : m ≤ 2 ^ j) (hn : j * n < 1024) :
    ((ofNat m).pow n).isFinite = true := by
  have hle := size_pow_le_clip (atLeastOne_ofNat hm) (size_ofNat_le_clip_two_pow h) n
  rw [clip_two_pow_of_lt (lt_of_le_of_lt (Nat.mul_le_mul_left j (Nat.min_le_left _ _)) hn)] at hle
  exact isFinite_iff.mpr (ne_top_of_le_ne_top WithTop.coe_ne_top hle)

/-- From `2 ^ 1024` on by the power of two below, powers of whole numbers overflow. -/
theorem not_isFinite_pow {j m n : ℕ} (h : 2 ^ j ≤ m) (hn : 1024 ≤ j * n) :
    ((ofNat m).pow n).isFinite = false := by
  have hm : 0 < m := lt_of_lt_of_le (Nat.two_pow_pos j) h
  have hbits : 1024 ≤ j * min n maxPower := by
    rcases Nat.le_total n maxPower with hle | hle
    · rwa [Nat.min_eq_left hle]
    · have hj : 0 < j := Nat.pos_of_ne_zero fun hz => by simp [hz] at hn
      rw [Nat.min_eq_right hle]
      exact le_trans (by decide) (Nat.le_mul_of_pos_left maxPower hj)
  have hle := clip_le_size_pow (atLeastOne_ofNat hm) (clip_two_pow_le_size_ofNat h) n
  rw [clip_two_pow_of_le hbits] at hle
  exact Bool.eq_false_iff.mpr fun hfinite => isFinite_iff.mp hfinite (top_le_iff.mp hle)

end Binary64

end SlurmLink
