import Mathlib.Algebra.Order.Field.Power
import Mathlib.Algebra.Order.Floor.Semifield
import Mathlib.Algebra.Order.Monoid.WithTop
import Mathlib.Data.Int.Log
import Mathlib.Data.Rat.Floor
import Mathlib.Tactic.FieldSimp
import Mathlib.Tactic.Linarith
import Mathlib.Tactic.Positivity
import SlurmLink.Proofs.Backoff

/-!
Rounding keeps the order. Every operation on doubles computes an exact quotient and rounds it once, to
a multiple of a power of two that depends on the quotient, and gives an infinity from `2 ^ 1024` on:

    quotient ──exponentOf──▶ spacing ──divEven──▶ multiple of it ──clip──▶ size of the double

Each of these steps keeps the order, so the greater quotient makes the greater double
(`size_ofRatio_mono`), and what is a double already stays as it is (`size_ofRatio_of_representable`).
From the two follows on which side of a double a rounded result lies, without a look at the rounding.
-/

namespace SlurmLink

namespace Binary64

/-! ### Sizes -/

/-- The size of a number, whatever its sign; what is no finite number counts as infinite. -/
def size : Binary64 → WithTop ℚ
  | .finite _ m e => ((m * 2 ^ e : ℚ) : WithTop ℚ)
  | _ => ⊤

/-- Infinite from `2 ^ 1024` on. -/
def clip (v : ℚ) : WithTop ℚ := if v < 2 ^ (1024 : ℤ) then (v : WithTop ℚ) else ⊤

theorem clip_mono {v w : ℚ} (h : v ≤ w) : clip v ≤ clip w := by
  simp only [clip]
  split
  · split
    · exact WithTop.coe_le_coe.mpr h
    · exact le_top
  · next hv => rw [if_neg fun hw => hv (lt_of_le_of_lt h hw)]

theorem clip_of_le {v : ℚ} (h : 2 ^ (1024 : ℤ) ≤ v) : clip v = ⊤ := if_neg (not_lt.mpr h)

theorem clip_two_zpow_of_lt {i : ℤ} (h : i < 1024) : clip (2 ^ i) = ((2 ^ i : ℚ) : WithTop ℚ) :=
  if_pos (zpow_lt_zpow_right₀ (by norm_num) h)

theorem clip_two_zpow_of_le {i : ℤ} (h : 1024 ≤ i) : clip (2 ^ i) = ⊤ :=
  clip_of_le (zpow_le_zpow_right₀ (by norm_num) h)

theorem up_eq (e : ℤ) : (up e : ℚ) = 2 ^ e * down e := by
  have hsplit : (e.toNat : ℤ) = e + ((-e).toNat : ℤ) := by omega
  rw [up, down, Nat.pow_eq, Nat.pow_eq, Nat.cast_pow, Nat.cast_pow, Nat.cast_ofNat, ← zpow_natCast,
    ← zpow_natCast (2 : ℚ) (-e).toNat, hsplit, zpow_add₀ two_ne_zero]

theorem up_div_down (e : ℤ) : (up e : ℚ) / down e = 2 ^ e := by
  have hpos : (down e : ℚ) ≠ 0 := Nat.cast_ne_zero.mpr (down_pos e).ne'
  rw [up_eq, mul_div_cancel_right₀ _ hpos]

/-! ### The nearest whole number -/

theorem le_divEven {n d M : ℕ} (hd : 0 < d) (h : M * d ≤ n) : M ≤ divEven n d := by
  have hq : M ≤ n / d := (Nat.le_div_iff_mul_le hd).mpr h
  rw [divEven]
  split
  · exact hq
  · split
    · omega
    · split <;> omega

theorem divEven_mul {M d : ℕ} (hd : 0 < d) : divEven (M * d) d = M :=
  Nat.le_antisymm (divEven_le hd (Nat.le_refl _)) (le_divEven hd (Nat.le_refl _))

/-- A rounded quotient is off by a half at most, and by just a half only if it is even. -/
theorem divEven_spec (n : ℕ) {d : ℕ} (hd : 0 < d) :
    2 * divEven n d * d ≤ 2 * n + d ∧ 2 * n ≤ (2 * divEven n d + 1) * d ∧
      (2 * divEven n d * d = 2 * n + d ∨ 2 * n = (2 * divEven n d + 1) * d →
        divEven n d % 2 = 0) := by
  have hdiv := Nat.div_add_mod n d
  have hmod := Nat.mod_lt n hd
  have hbelow : ∀ q, 2 * q * d = 2 * (d * q) ∧ (2 * q + 1) * d = 2 * (d * q) + d ∧
      2 * (q + 1) * d = 2 * (d * q) + 2 * d ∧ (2 * (q + 1) + 1) * d = 2 * (d * q) + 3 * d :=
    fun q => ⟨by ring, by ring, by ring, by ring⟩
  obtain ⟨h1, h2, h3, h4⟩ := hbelow (n / d)
  rw [divEven]
  split
  · rw [h1, h2]; omega
  · split
    · rw [h3, h4]; omega
    · split
      · rw [h1, h2]; omega
      · rw [h3, h4]; omega

theorem divEven_mono {n d n' d' : ℕ} (hd : 0 < d) (hd' : 0 < d') (h : n * d' ≤ n' * d) :
    divEven n d ≤ divEven n' d' := by
  obtain ⟨hlow, -, heven⟩ := divEven_spec n hd
  obtain ⟨-, hhigh, heven'⟩ := divEven_spec n' hd'
  generalize divEven n d = m at *
  generalize divEven n' d' = m' at *
  by_contra hlt
  have hpos : 0 < d * d' := Nat.mul_pos hd hd'
  -- both quotients lie on the half between two neighbours, of which only one is even
  have hle : (2 * m) * (d * d') ≤ (2 * m' + 2) * (d * d') := by
    calc 2 * m * (d * d') = 2 * m * d * d' := by ring
      _ ≤ (2 * n + d) * d' := Nat.mul_le_mul_right _ hlow
      _ = 2 * (n * d') + d * d' := by ring
      _ ≤ 2 * (n' * d) + d * d' := by omega
      _ = 2 * n' * d + d * d' := by ring
      _ ≤ (2 * m' + 1) * d' * d + d * d' := by gcongr
      _ = (2 * m' + 2) * (d * d') := by ring
  have hm : m = m' + 1 := by
    have := Nat.le_of_mul_le_mul_right hle hpos
    omega
  subst hm
  have hhalf : 2 * (m' + 1) * d = 2 * n + d := by
    refine Nat.le_antisymm hlow (Nat.le_of_mul_le_mul_right ?_ hd')
    calc (2 * n + d) * d' = 2 * (n * d') + d * d' := by ring
      _ ≤ 2 * (n' * d) + d * d' := by omega
      _ = 2 * n' * d + d * d' := by ring
      _ ≤ (2 * m' + 1) * d' * d + d * d' := by gcongr
      _ = 2 * (m' + 1) * d * d' := by ring
  have hhalf' : 2 * n' = (2 * m' + 1) * d' := by
    refine Nat.le_antisymm hhigh (Nat.le_of_mul_le_mul_right ?_ hd)
    calc (2 * m' + 1) * d' * d = (2 * (m' + 1) * d) * d' - d * d' := by
          rw [show 2 * (m' + 1) * d * d' = (2 * m' + 1) * d' * d + d * d' by ring,
            Nat.add_sub_cancel]
      _ = (2 * n + d) * d' - d * d' := by rw [hhalf]
      _ = 2 * (n * d') := by rw [Nat.add_mul, Nat.add_sub_cancel, Nat.mul_assoc]
      _ ≤ 2 * (n' * d) := by omega
      _ = 2 * n' * d := by ring
  have := heven (Or.inl hhalf)
  have := heven' (Or.inr hhalf')
  omega

/-! ### The spacing -/

theorem two_zpow_log2_le {n : ℕ} (hn : n ≠ 0) : (2 : ℚ) ^ (Nat.log2 n : ℤ) ≤ n := by
  rw [zpow_natCast]
  exact_mod_cast Nat.log2_self_le hn

theorem lt_two_zpow_log2 (n : ℕ) : (n : ℚ) < 2 ^ ((Nat.log2 n : ℤ) + 1) := by
  rw [show (Nat.log2 n : ℤ) + 1 = (Nat.log2 n + 1 : ℕ) by omega, zpow_natCast]
  exact_mod_cast Nat.lt_log2_self

theorem ratio_pos {n d : ℕ} (hn : n ≠ 0) (hd : 0 < d) : (0 : ℚ) < n / d :=
  div_pos (Nat.cast_pos.mpr (Nat.pos_of_ne_zero hn)) (Nat.cast_pos.mpr hd)

/-- The logarithm of a quotient is the difference of the two logarithms, or one less. -/
theorem log_ratio_le {n d : ℕ} (hn : n ≠ 0) (hd : 0 < d) :
    Int.log 2 (n / d : ℚ) ≤ (Nat.log2 n : ℤ) - Nat.log2 d := by
  have hdlow := two_zpow_log2_le hd.ne'
  refine Int.lt_add_one_iff.mp ((Int.lt_zpow_iff_log_lt (by decide) (ratio_pos hn hd)).mp ?_)
  rw [Nat.cast_ofNat, div_lt_iff₀ (Nat.cast_pos.mpr hd)]
  calc (n : ℚ) < 2 ^ ((Nat.log2 n : ℤ) + 1) := lt_two_zpow_log2 n
    _ = 2 ^ ((Nat.log2 n : ℤ) - Nat.log2 d + 1) * 2 ^ (Nat.log2 d : ℤ) := by
      rw [← zpow_add₀ two_ne_zero]
      congr 1
      ring
    _ ≤ 2 ^ ((Nat.log2 n : ℤ) - Nat.log2 d + 1) * d := by gcongr

theorem le_log_ratio {n d : ℕ} (hn : n ≠ 0) (hd : 0 < d) :
    (Nat.log2 n : ℤ) - Nat.log2 d - 1 ≤ Int.log 2 (n / d : ℚ) := by
  have hdhigh := lt_two_zpow_log2 d
  refine (Int.zpow_le_iff_le_log (by decide) (ratio_pos hn hd)).mp ?_
  rw [Nat.cast_ofNat, le_div_iff₀ (Nat.cast_pos.mpr hd)]
  calc 2 ^ ((Nat.log2 n : ℤ) - Nat.log2 d - 1) * (d : ℚ)
      ≤ 2 ^ ((Nat.log2 n : ℤ) - Nat.log2 d - 1) * 2 ^ ((Nat.log2 d : ℤ) + 1) := by gcongr
    _ = 2 ^ (Nat.log2 n : ℤ) := by
      rw [← zpow_add₀ two_ne_zero]
      congr 1
      ring
    _ ≤ n := two_zpow_log2_le hn

theorem mul_down_lt_iff {n d : ℕ} (hn : n ≠ 0) (hd : 0 < d) (k : ℤ) :
    n * down k < d * up k ↔ Int.log 2 (n / d : ℚ) < k := by
  have hdown : (0 : ℚ) < down k := Nat.cast_pos.mpr (down_pos k)
  rw [← Int.lt_zpow_iff_log_lt (by decide) (ratio_pos hn hd), Nat.cast_ofNat, ← up_div_down,
    div_lt_div_iff₀ (Nat.cast_pos.mpr hd) hdown, ← Nat.cast_mul, ← Nat.cast_mul, Nat.cast_lt,
    Nat.mul_comm d]

/-- The spacing leaves 53 bits of a quotient, but it is never finer than the least one. -/
theorem exponentOf_eq {n d : ℕ} (hn : n ≠ 0) (hd : 0 < d) :
    exponentOf n d = max minExponent (Int.log 2 (n / d : ℚ) - 52) := by
  have hle := log_ratio_le hn hd
  have hge := le_log_ratio hn hd
  simp only [exponentOf]
  split
  · next h =>
    have := (mul_down_lt_iff hn hd _).mp h
    omega
  · next h =>
    have := mt (mul_down_lt_iff hn hd _).mpr h
    omega

theorem minExponent_le_exponentOf (n d : ℕ) : minExponent ≤ exponentOf n d := Int.le_max_left ..

theorem exponentOf_mono {n d n' d' : ℕ} (hn : n ≠ 0) (hd : 0 < d) (hd' : 0 < d')
    (h : (n / d : ℚ) ≤ n' / d') : exponentOf n d ≤ exponentOf n' d' := by
  have hq := ratio_pos hn hd
  have hn' : n' ≠ 0 := by
    rintro rfl
    rw [Nat.cast_zero, zero_div] at h
    exact absurd h (not_le.mpr hq)
  rw [exponentOf_eq hn hd, exponentOf_eq hn' hd']
  have := Int.log_mono_right (b := 2) hq h
  omega

/-- The multiple of the spacing that a quotient is rounded to. -/
def multiple (n d : ℕ) : ℕ := divEven (n * down (exponentOf n d)) (d * up (exponentOf n d))

theorem multiple_le {n d : ℕ} (hn : n ≠ 0) (hd : 0 < d) : multiple n d ≤ 2 * leastFull := by
  have hdpos : (0 : ℚ) < d := Nat.cast_pos.mpr hd
  have hlog := Int.lt_zpow_succ_log_self (b := 2) (by decide) (n / d : ℚ)
  have hexp := exponentOf_eq hn hd
  refine divEven_le (Nat.mul_pos hd (up_pos _)) ?_
  generalize exponentOf n d = e at *
  have hpow : (n / d : ℚ) ≤ 2 ^ (53 + e) :=
    hlog.le.trans (zpow_le_zpow_right₀ (by norm_num) (by omega))
  rw [zpow_add₀ two_ne_zero, ← up_div_down e, ← mul_div_assoc, div_le_div_iff₀ hdpos
    (Nat.cast_pos.mpr (down_pos e))] at hpow
  have hwhole : ((n * down e : ℕ) : ℚ) ≤ (2 * leastFull * (d * up e) : ℕ) := by
    push_cast [leastFull]
    linarith
  exact Nat.cast_le.mp hwhole

theorem leastFull_le_multiple {n d : ℕ} (hn : n ≠ 0) (hd : 0 < d)
    (hexp : minExponent < exponentOf n d) : leastFull ≤ multiple n d := by
  have hdpos : (0 : ℚ) < d := Nat.cast_pos.mpr hd
  have hlog := Int.zpow_log_le_self (b := 2) (by decide) (ratio_pos hn hd)
  have heq := exponentOf_eq hn hd
  refine le_divEven (Nat.mul_pos hd (up_pos _)) ?_
  generalize exponentOf n d = e at *
  have hpow : (2 : ℚ) ^ (52 + e) ≤ n / d :=
    le_trans (zpow_le_zpow_right₀ (by norm_num) (by omega)) hlog
  rw [zpow_add₀ two_ne_zero, ← up_div_down e, ← mul_div_assoc, div_le_div_iff₀
    (Nat.cast_pos.mpr (down_pos e)) hdpos] at hpow
  have hwhole : ((leastFull * (d * up e) : ℕ) : ℚ) ≤ (n * down e : ℕ) := by
    push_cast [leastFull]
    linarith
  exact Nat.cast_le.mp hwhole

/-! ### Rounding -/

theorem leastFull_mul_two_zpow (i : ℤ) : (leastFull : ℚ) * 2 ^ i = 2 ^ (52 + i) := by
  rw [zpow_add₀ two_ne_zero]
  norm_num [leastFull]

/-- Multiples with 53 bits of a spacing that is too wide are infinite, and all others are not. -/
theorem clip_mul_two_zpow {m : ℕ} {e : ℤ} (hhigh : m < 2 * leastFull)
    (hlow : maxExponent < e → leastFull ≤ m) : clip (m * 2 ^ e) =
      if maxExponent < e then ⊤ else ((m * 2 ^ e : ℚ) : WithTop ℚ) := by
  have hmax : maxExponent = 971 := rfl
  split
  · next hover =>
    refine clip_of_le ?_
    calc (2 : ℚ) ^ (1024 : ℤ) ≤ 2 ^ (52 + e) := zpow_le_zpow_right₀ (by norm_num) (by omega)
      _ = leastFull * 2 ^ e := (leastFull_mul_two_zpow e).symm
      _ ≤ m * 2 ^ e := by
        have hcast : (leastFull : ℚ) ≤ m := Nat.cast_le.mpr (hlow hover)
        gcongr
  · next hover =>
    refine if_pos ?_
    calc (m : ℚ) * 2 ^ e < (2 * leastFull : ℕ) * 2 ^ e := by gcongr
      _ = 2 * 2 ^ (52 + e) := by
        rw [← leastFull_mul_two_zpow]
        push_cast
        ring
      _ = 2 ^ (52 + e + 1) := by rw [zpow_add_one₀ two_ne_zero, mul_comm]
      _ ≤ 2 ^ (1024 : ℤ) := zpow_le_zpow_right₀ (by norm_num) (by omega)

/-- A rounded quotient is a multiple of its spacing, or infinite if that is too large. -/
theorem size_ofRatio {s : Bool} {n d : ℕ} (hn : n ≠ 0) (hd : 0 < d) :
    size (ofRatio s n d) = clip (multiple n d * 2 ^ exponentOf n d) := by
  have hhigh := multiple_le hn hd
  have hlow := leastFull_le_multiple hn hd
  have hmax : maxExponent = 971 := rfl
  have hmin : minExponent = -1074 := rfl
  rw [ofRatio, if_neg hn]
  simp only [show divEven (n * down (exponentOf n d)) (d * up (exponentOf n d)) = multiple n d from rfl]
  generalize multiple n d = m at *
  generalize exponentOf n d = e at *
  split
  · -- the multiple is the next power of two
    next hcarry =>
    have hvalue : (m : ℚ) * 2 ^ e = 2 ^ (52 + (e + 1)) := by
      rw [hcarry, ← leastFull_mul_two_zpow, zpow_add₀ two_ne_zero]
      push_cast
      ring
    rw [hvalue]
    split
    · rw [clip_two_zpow_of_le (by omega)]
      rfl
    · rw [clip_two_zpow_of_lt (by omega), size, leastFull_mul_two_zpow]
  · next hcarry =>
    rw [clip_mul_two_zpow (by omega) fun hover => hlow (by omega)]
    split <;> rfl

theorem size_ofRatio_zero {s : Bool} {d : ℕ} : size (ofRatio s 0 d) = 0 := by
  rw [ofRatio, if_pos rfl, size]
  simp

theorem size_nonneg (x : Binary64) : 0 ≤ size x := by
  cases x with
  | finite s m e => exact WithTop.coe_le_coe.mpr (by positivity)
  | _ => exact le_top

/-- The greater quotient makes the greater double. -/
theorem size_ofRatio_mono {s s' : Bool} {n d n' d' : ℕ} (hd : 0 < d) (hd' : 0 < d')
    (h : (n / d : ℚ) ≤ n' / d') : size (ofRatio s n d) ≤ size (ofRatio s' n' d') := by
  rcases Nat.eq_zero_or_pos n with rfl | hn
  · rw [size_ofRatio_zero]
    exact size_nonneg _
  have hn' : n' ≠ 0 := by
    rintro rfl
    rw [Nat.cast_zero, zero_div] at h
    exact absurd h (not_le.mpr (div_pos (Nat.cast_pos.mpr hn) (Nat.cast_pos.mpr hd)))
  rw [size_ofRatio hn.ne' hd, size_ofRatio hn' hd']
  refine clip_mono ?_
  rcases (exponentOf_mono hn.ne' hd hd' h).lt_or_eq with hlt | heq
  · -- the spacing is wider, and the multiples of it are beyond those of the narrower one
    have hm : (multiple n d : ℚ) ≤ 2 * leastFull := by
      exact_mod_cast multiple_le hn.ne' hd
    have hm' : (leastFull : ℚ) ≤ multiple n' d' := Nat.cast_le.mpr
      (leastFull_le_multiple hn' hd' (lt_of_le_of_lt (minExponent_le_exponentOf n d) hlt))
    calc (multiple n d : ℚ) * 2 ^ exponentOf n d
        ≤ 2 * leastFull * 2 ^ exponentOf n d := by gcongr
      _ = leastFull * 2 ^ (exponentOf n d + 1) := by rw [zpow_add_one₀ two_ne_zero]; ring
      _ ≤ leastFull * 2 ^ exponentOf n' d' := by
        gcongr
        · norm_num
        · omega
      _ ≤ multiple n' d' * 2 ^ exponentOf n' d' := by gcongr
  · have hdown : (0 : ℚ) < down (exponentOf n' d') := Nat.cast_pos.mpr (down_pos _)
    have hm : multiple n d ≤ multiple n' d' := by
      rw [multiple, multiple, heq]
      generalize exponentOf n' d' = e at *
      refine divEven_mono (Nat.mul_pos hd (up_pos e)) (Nat.mul_pos hd' (up_pos e)) ?_
      have hcross : n * d' ≤ n' * d := by
        rw [div_le_div_iff₀ (Nat.cast_pos.mpr hd) (Nat.cast_pos.mpr hd')] at h
        exact_mod_cast h
      calc n * down e * (d' * up e) = n * d' * (down e * up e) := by ring
        _ ≤ n' * d * (down e * up e) := Nat.mul_le_mul_right _ hcross
        _ = n' * down e * (d * up e) := by ring
    rw [heq]
    gcongr

/-- A multiple of a spacing that is not too fine, with 53 bits at most, or the next power of two. -/
def Representable (v : ℚ) : Prop :=
  ∃ (m : ℕ) (e : ℤ), v = m * 2 ^ e ∧ m ≤ 2 ^ 53 ∧ minExponent ≤ e

/-- What is a double already is a multiple of its own spacing. -/
theorem exists_multiple_of_representable {n d : ℕ} (hn : n ≠ 0) (hd : 0 < d)
    (hr : Representable (n / d)) : ∃ k : ℕ, (n / d : ℚ) = k * 2 ^ exponentOf n d := by
  obtain ⟨m, e, hv, hm, he⟩ := hr
  rcases Nat.lt_or_eq_of_le hm with hlt | rfl
  · have hlog : Int.log 2 (n / d : ℚ) < 53 + e := by
      refine (Int.lt_zpow_iff_log_lt (by decide) (ratio_pos hn hd)).mp ?_
      rw [hv, Nat.cast_ofNat, zpow_add₀ two_ne_zero]
      have : (m : ℚ) < 2 ^ (53 : ℤ) := by exact_mod_cast hlt
      gcongr
    have hle : exponentOf n d ≤ e := by
      rw [exponentOf_eq hn hd]
      omega
    refine ⟨m * 2 ^ (e - exponentOf n d).toNat, ?_⟩
    rw [hv, Nat.cast_mul, Nat.cast_pow, Nat.cast_ofNat, ← zpow_natCast, mul_assoc,
      ← zpow_add₀ two_ne_zero]
    congr 2
    omega
  · have hpow : (n / d : ℚ) = ((2 : ℕ) : ℚ) ^ (53 + e) := by
      rw [hv, Nat.cast_pow, Nat.cast_ofNat, zpow_add₀ two_ne_zero]
      norm_num
    have hle : exponentOf n d ≤ 53 + e := by
      rw [exponentOf_eq hn hd, hpow, Int.log_zpow (by decide)]
      omega
    refine ⟨2 ^ (53 + e - exponentOf n d).toNat, ?_⟩
    rw [hpow, Nat.cast_pow, Nat.cast_ofNat, ← zpow_natCast, ← zpow_add₀ two_ne_zero]
    congr 1
    omega

theorem multiple_eq {n d k : ℕ} (hd : 0 < d) (hk : (n / d : ℚ) = k * 2 ^ exponentOf n d) :
    multiple n d = k := by
  have hdpos : (d : ℚ) ≠ 0 := Nat.cast_ne_zero.mpr hd.ne'
  have hsplit : n * down (exponentOf n d) = k * (d * up (exponentOf n d)) := by
    rw [← up_div_down, ← mul_div_assoc, div_eq_div_iff hdpos
      (Nat.cast_ne_zero.mpr (down_pos _).ne')] at hk
    have hcast : ((n * down (exponentOf n d) : ℕ) : ℚ) = (k * (d * up (exponentOf n d)) : ℕ) := by
      push_cast
      linarith
    exact_mod_cast hcast
  rw [multiple, hsplit, divEven_mul (Nat.mul_pos hd (up_pos _))]

/-- What is a double already stays as it is. -/
theorem size_ofRatio_of_representable {s : Bool} {n d : ℕ} {v : ℚ} (hd : 0 < d)
    (hv : (n / d : ℚ) = v) (hr : Representable v) : size (ofRatio s n d) = clip v := by
  rcases Nat.eq_zero_or_pos n with rfl | hn
  · rw [size_ofRatio_zero, ← hv, clip, if_pos] <;> simp
  · obtain ⟨k, hk⟩ := exists_multiple_of_representable hn.ne' hd (hv ▸ hr)
    rw [size_ofRatio hn.ne' hd, multiple_eq hd hk, ← hk, hv]

/-! ### Numbers without a sign -/

/-- A number or an infinity without a sign. -/
def Unsigned : Binary64 → Prop
  | .nan => False
  | .infinite s => s = false
  | .finite s _ _ => s = false

theorem unsigned_ofRatio (n d : ℕ) : Unsigned (ofRatio false n d) := by
  rw [ofRatio]
  split
  · rfl
  · simp only
    by_cases hcarry : divEven (n * down (exponentOf n d)) (d * up (exponentOf n d)) = 2 * leastFull
    · rw [if_pos hcarry]
      split <;> rfl
    · rw [if_neg hcarry]
      split <;> rfl

theorem isFinite_iff {x : Binary64} : x.isFinite = true ↔ size x ≠ ⊤ := by
  cases x with
  | finite s m e => exact iff_of_true rfl WithTop.coe_ne_top
  | _ => exact iff_of_false Bool.false_ne_true fun h => h rfl

theorem unsigned_ofNat (n : ℕ) : Unsigned (ofNat n) := unsigned_ofRatio n 1

/-- A whole number of 53 bits is a double. -/
theorem size_ofNat {n : ℕ} (h : n ≤ 2 ^ 53) : size (ofNat n) = ((n : ℚ) : WithTop ℚ) := by
  have hlimit : (n : ℚ) < 2 ^ (1024 : ℤ) := by
    calc (n : ℚ) ≤ 2 ^ (53 : ℤ) := by exact_mod_cast h
      _ < 2 ^ (1024 : ℤ) := zpow_lt_zpow_right₀ (by norm_num) (by norm_num)
  rw [ofNat, size_ofRatio_of_representable Nat.one_pos (v := n) (by rw [Nat.cast_one, div_one])
    ⟨n, 0, by rw [zpow_zero, mul_one], h, by decide⟩, clip, if_pos hlimit]

/-- The order of numbers without a sign is that of their sizes. -/
theorem le_iff_size_le {x y : Binary64} (hx : Unsigned x) (hy : Unsigned y) :
    le x y = true ↔ size x ≤ size y := by
  match x, y with
  | .infinite _, .infinite _ => cases hx; cases hy; simp [le, size]
  | .finite _ m e, .infinite _ => cases hx; cases hy; simp [le, size]
  | .infinite _, .finite _ n f =>
    cases hx
    exact iff_of_false Bool.false_ne_true fun h => WithTop.coe_ne_top (top_le_iff.mp h)
  | .finite _ m e, .finite _ n f =>
    cases hx
    cases hy
    have hscale : ∀ (k : ℕ) (i : ℤ), min e f ≤ i →
        ((k * up (i - min e f) : ℕ) : ℚ) * 2 ^ min e f = k * 2 ^ i := fun k i hi => by
      have hup : (up (i - min e f) : ℚ) = 2 ^ (i - min e f) := by
        rw [up_eq, down_of_nonneg (by omega), Nat.cast_one, mul_one]
      rw [Nat.cast_mul, hup, mul_assoc, ← zpow_add₀ two_ne_zero, Int.sub_add_cancel]
    have hpos : (0 : ℚ) < 2 ^ min e f := by positivity
    simp only [le, scaled, Bool.false_eq_true, if_false, decide_eq_true_eq, Int.ofNat_le, size,
      WithTop.coe_le_coe]
    rw [← hscale m e (by omega), ← hscale n f (by omega), mul_le_mul_iff_left₀ hpos, Nat.cast_le]

theorem size_least {x y : Binary64} (hx : Unsigned x) (hy : Unsigned y) :
    size (least x y) = min (size x) (size y) := by
  rw [least]
  split
  · next h => rw [min_eq_right ((le_iff_size_le hy hx).mp h)]
  · next h => rw [min_eq_left (le_of_not_ge (mt (le_iff_size_le hy hx).mpr h))]

theorem unsigned_least {x y : Binary64} (hx : Unsigned x) (hy : Unsigned y) :
    Unsigned (least x y) := by
  rw [least]
  split
  · exact hy
  · exact hx

/-- The nearest whole number is found by adding a half. -/
theorem toNatUpTo_eq {x : Binary64} {v : ℚ} {limit : ℕ} (hx : Unsigned x) (hv : size x = v) :
    x.toNatUpTo limit = min limit ⌊v + 1 / 2⌋₊ := by
  match x with
  | .infinite _ => cases hv
  | .finite _ m e =>
    cases hx
    cases hv
    have hdown : (down e : ℚ) ≠ 0 := Nat.cast_ne_zero.mpr (down_pos e).ne'
    have hquotient : (m * 2 ^ e + 1 / 2 : ℚ) = ((2 * m * up e + down e : ℕ) : ℚ) /
        ((2 * down e : ℕ) : ℚ) := by
      rw [← up_div_down]
      push_cast
      field_simp
    rw [hquotient, Nat.floor_div_eq_div]
    rfl

/-! ### Products of numbers of at least one -/

/-- A number of at least one, or an infinity without a sign. -/
structure AtLeastOne (x : Binary64) : Prop where
  unsigned : Unsigned x
  one_le : ((1 : ℚ) : WithTop ℚ) ≤ size x

theorem atLeastOne_one : AtLeastOne one :=
  ⟨unsigned_ofNat 1, by rw [one, size_ofNat (by decide), Nat.cast_one]⟩

/-- A product is the rounded product of the sizes, or infinite if one of them is. -/
theorem mul_cases {x y : Binary64} (hx : AtLeastOne x) (hy : AtLeastOne y) :
    (∃ (v w : ℚ) (n d : ℕ), size x = v ∧ size y = w ∧ 0 < d ∧ (n / d : ℚ) = v * w ∧
      x.mul y = ofRatio false n d) ∨
    (size x = ⊤ ∨ size y = ⊤) ∧ x.mul y = .infinite false := by
  obtain ⟨hx, hxone⟩ := hx
  obtain ⟨hy, hyone⟩ := hy
  have hne : ∀ {m : ℕ} {e : ℤ}, ((1 : ℚ) : WithTop ℚ) ≤ size (.finite false m e) → m ≠ 0 := by
    rintro m e h rfl
    simp only [size, Nat.cast_zero, zero_mul, WithTop.coe_le_coe] at h
    exact absurd h (by norm_num)
  match x, y with
  | .infinite _, .infinite _ => cases hx; cases hy; exact Or.inr ⟨Or.inl rfl, rfl⟩
  | .finite _ m e, .infinite _ =>
    cases hx
    cases hy
    exact Or.inr ⟨Or.inr rfl, if_neg (hne hxone)⟩
  | .infinite _, .finite _ n f =>
    cases hx
    cases hy
    exact Or.inr ⟨Or.inl rfl, if_neg (hne hyone)⟩
  | .finite _ m e, .finite _ n f =>
    cases hx
    cases hy
    refine Or.inl ⟨_, _, m * n * up (e + f), down (e + f), rfl, rfl, down_pos _, ?_, rfl⟩
    rw [Nat.cast_mul, Nat.cast_mul, mul_div_assoc, up_div_down, zpow_add₀ two_ne_zero]
    ring

variable {x y x' y' : Binary64} {a b v : ℚ}

/-- Greater factors make the greater product. -/
theorem size_mul_mono (hx : AtLeastOne x) (hy : AtLeastOne y) (hx' : AtLeastOne x')
    (hy' : AtLeastOne y') (hxx : size x ≤ size x') (hyy : size y ≤ size y') :
    size (x.mul y) ≤ size (x'.mul y') := by
  rcases mul_cases hx' hy' with ⟨v', w', n', d', hv', hw', hd', hq', hmul'⟩ | ⟨-, hmul'⟩
  · rcases mul_cases hx hy with ⟨v, w, n, d, hv, hw, hd, hq, hmul⟩ | ⟨htop, -⟩
    · rw [hmul, hmul']
      refine size_ofRatio_mono hd hd' ?_
      have hw0 : (0 : ℚ) ≤ w := WithTop.coe_le_coe.mp (hw ▸ size_nonneg y)
      have hv0 : (0 : ℚ) ≤ v' := WithTop.coe_le_coe.mp (hv' ▸ size_nonneg x')
      rw [hv, hv'] at hxx
      rw [hw, hw'] at hyy
      rw [hq, hq']
      exact mul_le_mul (WithTop.coe_le_coe.mp hxx) (WithTop.coe_le_coe.mp hyy) hw0 hv0
    · rcases htop with htop | htop
      · rw [htop, hv'] at hxx
        exact absurd hxx (by simp)
      · rw [htop, hw'] at hyy
        exact absurd hyy (by simp)
  · rw [hmul']
    exact le_top

/-- A product is not below a double that the product of the factors is not below. -/
theorem clip_le_size_mul (hx : AtLeastOne x) (hy : AtLeastOne y) (ha : 0 ≤ a) (hax : a ≤ size x)
    (hby : b ≤ size y) (hv : Representable v) (hle : v ≤ a * b) : clip v ≤ size (x.mul y) := by
  rcases mul_cases hx hy with ⟨vx, vy, n, d, hvx, hvy, hd, hq, hmul⟩ | ⟨-, hmul⟩
  · obtain ⟨m, e, rfl, hm, he⟩ := hv
    rw [hvx] at hax
    rw [hvy] at hby
    have hvy0 : (0 : ℚ) ≤ vy := WithTop.coe_le_coe.mp (hvy ▸ size_nonneg y)
    have hquotient : ((m * up e : ℕ) / (down e : ℕ) : ℚ) = m * 2 ^ e := by
      rw [Nat.cast_mul, mul_div_assoc, up_div_down]
    rw [hmul, ← size_ofRatio_of_representable (s := false) (down_pos e) hquotient
      ⟨m, e, rfl, hm, he⟩]
    refine size_ofRatio_mono (down_pos e) hd ?_
    rw [hquotient, hq]
    calc (m : ℚ) * 2 ^ e ≤ a * b := hle
      _ ≤ a * vy := mul_le_mul_of_nonneg_left (WithTop.coe_le_coe.mp hby) ha
      _ ≤ vx * vy := mul_le_mul_of_nonneg_right (WithTop.coe_le_coe.mp hax) hvy0
  · rw [hmul]
    exact le_top

/-- A product is not above a double that the product of the factors is not above. -/
theorem size_mul_le_clip (hx : AtLeastOne x) (hy : AtLeastOne y) (hxa : size x ≤ a)
    (hyb : size y ≤ b) (hv : Representable v) (hle : a * b ≤ v) : size (x.mul y) ≤ clip v := by
  rcases mul_cases hx hy with ⟨vx, vy, n, d, hvx, hvy, hd, hq, hmul⟩ | ⟨htop, -⟩
  · obtain ⟨m, e, rfl, hm, he⟩ := hv
    rw [hvx] at hxa
    rw [hvy] at hyb
    have hvy0 : (0 : ℚ) ≤ vy := WithTop.coe_le_coe.mp (hvy ▸ size_nonneg y)
    have ha0 : (0 : ℚ) ≤ a := le_trans (WithTop.coe_le_coe.mp (hvx ▸ size_nonneg x))
      (WithTop.coe_le_coe.mp hxa)
    have hquotient : ((m * up e : ℕ) / (down e : ℕ) : ℚ) = m * 2 ^ e := by
      rw [Nat.cast_mul, mul_div_assoc, up_div_down]
    rw [hmul, ← size_ofRatio_of_representable (s := false) (down_pos e) hquotient
      ⟨m, e, rfl, hm, he⟩]
    refine size_ofRatio_mono hd (down_pos e) ?_
    rw [hquotient, hq]
    calc vx * vy ≤ a * vy := mul_le_mul_of_nonneg_right (WithTop.coe_le_coe.mp hxa) hvy0
      _ ≤ a * b := mul_le_mul_of_nonneg_left (WithTop.coe_le_coe.mp hyb) ha0
      _ ≤ m * 2 ^ e := hle
  · rcases htop with htop | htop
    · rw [htop] at hxa
      exact absurd hxa (by simp)
    · rw [htop] at hyb
      exact absurd hyb (by simp)

theorem AtLeastOne.mul (hx : AtLeastOne x) (hy : AtLeastOne y) : AtLeastOne (x.mul y) := by
  constructor
  · rcases mul_cases hx hy with ⟨_, _, n, d, _, _, _, _, hmul⟩ | ⟨-, hmul⟩
    · rw [hmul]
      exact unsigned_ofRatio n d
    · rw [hmul]
      rfl
  · have h := clip_le_size_mul hx hy zero_le_one hx.one_le hy.one_le
      (v := 1) ⟨1, 0, by norm_num, by norm_num, by decide⟩ (by norm_num)
    rwa [clip, if_pos (one_lt_zpow₀ (by norm_num) (by norm_num))] at h

/-- The size of a rounded number. -/
def Rounded (x : Binary64) : Prop := ∃ v, Representable v ∧ size x = clip v

theorem rounded_ofRatio {s : Bool} (n : ℕ) {d : ℕ} (hd : 0 < d) : Rounded (ofRatio s n d) := by
  rcases Nat.eq_zero_or_pos n with rfl | hn
  · exact ⟨0, ⟨0, 0, by norm_num, by norm_num, by decide⟩, by
      rw [size_ofRatio_zero, clip, if_pos (by norm_num), WithTop.coe_zero]⟩
  · exact ⟨_, ⟨_, _, rfl, multiple_le hn.ne' hd, minExponent_le_exponentOf n d⟩,
      size_ofRatio hn.ne' hd⟩

theorem rounded_mul (hx : AtLeastOne x) (hy : AtLeastOne y) : Rounded (x.mul y) := by
  rcases mul_cases hx hy with ⟨_, _, n, d, _, _, hd, _, hmul⟩ | ⟨-, hmul⟩
  · rw [hmul]
    exact rounded_ofRatio n hd
  · refine ⟨2 ^ (1024 : ℤ), ⟨1, 1024, by norm_num, by norm_num, by decide⟩, ?_⟩
    rw [hmul, clip, if_neg (lt_irrefl _)]
    rfl

/-- Another factor of at least one does not take a product below a rounded number. -/
theorem Rounded.le_size_mul {r : Binary64} (hr : Rounded r) (hx : AtLeastOne x) (hy : AtLeastOne y)
    (hle : size r ≤ size y) : size r ≤ size (x.mul y) := by
  obtain ⟨v, hv, hsize⟩ := hr
  rcases mul_cases hx hy with ⟨vx, vy, n, d, hvx, hvy, hd, hq, hmul⟩ | ⟨-, hmul⟩
  · have hvle : v ≤ vy := by
      rw [hsize, hvy, clip] at hle
      split at hle
      · exact WithTop.coe_le_coe.mp hle
      · exact absurd hle (by simp)
    rw [hsize]
    exact clip_le_size_mul hx hy zero_le_one hx.one_le hvy.ge hv (by rw [one_mul]; exact hvle)
  · rw [hmul]
    exact le_top

end Binary64

end SlurmLink
