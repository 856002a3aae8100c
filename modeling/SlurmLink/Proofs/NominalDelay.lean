import SlurmLink.Proofs.Power

/-!
How the wait between attempts grows. The documented wait is `min maxDelay (baseDelay * multiplier ^ k)`;
it is computed in doubles, where the power may overflow:

    baseDelay > 0      product up to 2 ^ 53      beyond, or infinite
                       exact                     at least maxDelay, so it is cut off
    baseDelay = 0      zero                      zero times infinity: no number, taken for maxDelay

For a whole multiplier and delays of at most `2 ^ 52` nanoseconds the documented wait comes out, but for a
base delay of zero only while the power is finite (`nominalDelay_exact`).
-/

namespace SlurmLink

open Binary64

namespace RetryPolicy

variable {p : RetryPolicy} {m : ℕ}

theorem validate_eq_ok_iff : p.validate = .ok () ↔ 1 ≤ p.maxAttempts ∧
    (p.multiplier.isFinite = true ∧ p.multiplier.lt .one = false) ∧
    (Binary64.le (.ofNat 0) p.jitterFraction && p.jitterFraction.le .one) = true ∧
    p.baseDelay.nanos ≤ p.maxDelay.nanos := by
  rw [validate]
  split_ifs with hattempts hmultiplier hjitter hdelays
  · simp only [false_iff]
    omega
  · rw [Bool.or_eq_true, Bool.not_eq_true'] at hmultiplier
    rcases hmultiplier with hm | hm <;> simp [hm]
  · rw [Bool.not_eq_true'] at hjitter
    simp [hjitter]
  · simp only [false_iff]
    omega
  · rw [Bool.or_eq_true, not_or, Bool.not_eq_true', Bool.not_eq_false, Bool.not_eq_true] at hmultiplier
    rw [Bool.not_eq_true', Bool.not_eq_false] at hjitter
    simp only [true_iff]
    exact ⟨by omega, hmultiplier, hjitter, by omega⟩

/-- A checked policy never shrinks its waits. -/
theorem atLeastOne_multiplier (h : p.validate = .ok ()) : AtLeastOne p.multiplier := by
  obtain ⟨-, ⟨hfinite, hlt⟩, -⟩ := validate_eq_ok_iff.mp h
  generalize p.multiplier = x at *
  have hone : one = .finite false 4503599627370496 (-52) := by decide +kernel
  match x with
  | .finite true m e =>
    have hbelow : (Binary64.finite true m e).lt one = true := by
      have hpos : 0 < up (-52 - min e (-52)) := up_pos _
      have hpos' : 0 < up (-52 - min (-52) e) := up_pos _
      simp only [hone, lt, le, scaled, if_true, Bool.false_eq_true, if_false, Bool.and_eq_true,
        decide_eq_true_eq, Bool.not_eq_true', decide_eq_false_iff_not]
      constructor
      · omega
      · omega
    rw [hbelow] at hlt
    cases hlt
  | .finite false m e =>
    refine ⟨rfl, ?_⟩
    have hx : Unsigned (.finite false m e) := rfl
    have hsize : size one = ((1 : ℚ) : WithTop ℚ) := by
      rw [one, size_ofNat (by decide), Nat.cast_one]
    rw [← hsize]
    rw [lt, Bool.and_eq_false_iff, Bool.not_eq_false'] at hlt
    rcases hlt with hlt | hle
    · refine le_of_not_ge fun hge => ?_
      rw [(le_iff_size_le hx atLeastOne_one.unsigned).mpr hge] at hlt
      cases hlt
    · exact (le_iff_size_le atLeastOne_one.unsigned hx).mp hle

/-- Once the power has overflowed, it does so for every later attempt. -/
theorem isFinite_pow_of_le (h : p.validate = .ok ()) {j k : ℕ} (hjk : j ≤ k)
    (hfinite : (p.multiplier.pow k).isFinite = true) : (p.multiplier.pow j).isFinite = true := by
  have hle := size_pow_mono (atLeastOne_multiplier h) hjk
  exact isFinite_iff.mpr (ne_top_of_le_ne_top (isFinite_iff.mp hfinite) hle)

/-! ### The wait before it is a whole number -/

/-- The wait in doubles. -/
def grown (p : RetryPolicy) (k : ℕ) : Binary64 :=
  (ofNat p.baseDelay.nanos).mul (p.multiplier.pow k)

/-- The wait in doubles, cut off. -/
def cut (p : RetryPolicy) (k : ℕ) : Binary64 :=
  if (p.grown k).isFinite then (p.grown k).least (ofNat p.maxDelay.nanos) else ofNat p.maxDelay.nanos

theorem nanos_nominalDelay (p : RetryPolicy) (k : ℕ) :
    (p.nominalDelay k).nanos = (p.cut k).toNatUpTo maxNanos := rfl

theorem cut_of_pos (h : p.validate = .ok ()) (hbase : 0 < p.baseDelay.nanos) (k : ℕ) :
    Unsigned (p.cut k) ∧ size (p.cut k) = min (size (p.grown k)) (size (ofNat p.maxDelay.nanos)) := by
  have hgrown : AtLeastOne (p.grown k) :=
    (atLeastOne_ofNat hbase).mul (atLeastOne_pow (atLeastOne_multiplier h) k)
  rw [cut]
  split
  · exact ⟨unsigned_least hgrown.unsigned (unsigned_ofNat _),
      size_least hgrown.unsigned (unsigned_ofNat _)⟩
  · next hinfinite =>
    have htop : size (p.grown k) = ⊤ := by
      by_contra hne
      exact hinfinite (isFinite_iff.mpr hne)
    rw [htop, min_eq_right le_top]
    exact ⟨unsigned_ofNat _, rfl⟩

/-- Without a base delay nothing grows, until the power overflows. -/
theorem cut_of_zero (h : p.validate = .ok ()) (hbase : p.baseDelay.nanos = 0) (k : ℕ) :
    Unsigned (p.cut k) ∧ size (p.cut k) =
      if (p.multiplier.pow k).isFinite then 0 else size (ofNat p.maxDelay.nanos) := by
  have hpow := (atLeastOne_pow (atLeastOne_multiplier h) k).unsigned
  have hzero : ofNat 0 = .finite false 0 0 := rfl
  rw [cut, grown, hbase, hzero]
  generalize p.multiplier.pow k = x at *
  match x with
  | .infinite _ =>
    cases hpow
    exact ⟨unsigned_ofNat _, rfl⟩
  | .finite _ n f =>
    cases hpow
    have hproduct : (Binary64.finite false 0 0).mul (.finite false n f) = .finite false 0 0 := by
      rw [mul, Nat.zero_mul, Nat.zero_mul, ofRatio, if_pos rfl]
      rfl
    have hsize : size (.finite false 0 0) = 0 := by
      rw [size, Nat.cast_zero, zero_mul, WithTop.coe_zero]
    rw [hproduct, isFinite, if_pos rfl, isFinite, if_pos rfl]
    have hnothing : Unsigned (.finite false 0 0) := rfl
    refine ⟨unsigned_least hnothing (unsigned_ofNat _), ?_⟩
    rw [size_least hnothing (unsigned_ofNat _), hsize, min_eq_left (size_nonneg _)]

/-- The greater number has the greater nearest whole number. -/
theorem toNatUpTo_mono {x y : Binary64} {limit : ℕ} (hx : Unsigned x) (hy : Unsigned y)
    (h : size x ≤ size y) : x.toNatUpTo limit ≤ y.toNatUpTo limit := by
  cases hsize : size y with
  | top =>
    have hfull : y.toNatUpTo limit = limit := by
      match y with
      | .infinite _ =>
        cases hy
        rfl
      | .finite _ _ _ => cases hsize
    rw [hfull]
    exact toNatUpTo_le limit x
  | coe w =>
    rw [hsize] at h
    obtain ⟨v, hv, hvw⟩ := WithTop.le_coe_iff.mp h
    rw [toNatUpTo_eq hx hv, toNatUpTo_eq hy hsize]
    have := Nat.floor_mono (add_le_add_left hvw (1 / 2))
    omega

/-- The waits of a checked policy never get shorter from one attempt to the next. -/
theorem nominalDelay_mono (h : p.validate = .ok ()) {j k : ℕ} (hjk : j ≤ k) :
    (p.nominalDelay j).nanos ≤ (p.nominalDelay k).nanos := by
  have hpow : size (p.multiplier.pow j) ≤ size (p.multiplier.pow k) :=
    size_pow_mono (atLeastOne_multiplier h) hjk
  rw [nanos_nominalDelay, nanos_nominalDelay]
  rcases Nat.eq_zero_or_pos p.baseDelay.nanos with hbase | hbase
  · obtain ⟨hj, hsj⟩ := cut_of_zero h hbase j
    obtain ⟨hk, hsk⟩ := cut_of_zero h hbase k
    refine toNatUpTo_mono hj hk ?_
    rw [hsj, hsk]
    split
    · split
      · exact le_rfl
      · exact size_nonneg _
    · next hinfinite => rw [if_neg fun hfinite => hinfinite (isFinite_pow_of_le h hjk hfinite)]
  · obtain ⟨hj, hsj⟩ := cut_of_pos h hbase j
    obtain ⟨hk, hsk⟩ := cut_of_pos h hbase k
    have hmultiplier := atLeastOne_multiplier h
    have hbase := atLeastOne_ofNat hbase
    refine toNatUpTo_mono hj hk ?_
    rw [hsj, hsk]
    exact min_le_min (size_mul_mono hbase (atLeastOne_pow hmultiplier j) hbase
      (atLeastOne_pow hmultiplier k) le_rfl hpow) le_rfl

/-! ### The documented wait -/

theorem toNatUpTo_of_size {x : Binary64} {n : ℕ} (hx : Unsigned x) (hn : n ≤ 2 ^ 52)
    (hsize : size x = ((n : ℚ) : WithTop ℚ)) : x.toNatUpTo maxNanos = n := by
  have hhalf : ⌊(n : ℚ) + 1 / 2⌋₊ = n := by
    rw [Nat.floor_eq_iff (by positivity)]
    constructor <;> linarith
  rw [toNatUpTo_eq hx hsize, hhalf, Nat.min_eq_right]
  exact hn.trans (by simp only [maxNanos]; omega)

/-- An exponent that is cut off makes no difference below the limit. -/
theorem min_pow_maxPower {base limit : ℕ} (hbase : 0 < base) (hm : 0 < m) (hlimit : limit ≤ 2 ^ 52)
    (k : ℕ) : min limit (base * m ^ min k maxPower) = min limit (base * m ^ k) := by
  rcases Nat.le_total k maxPower with hk | hk
  · rw [Nat.min_eq_left hk]
  · rcases Nat.eq_or_lt_of_le (Nat.succ_le_of_lt hm) with rfl | htwo
    · simp only [Nat.succ_eq_add_one, Nat.zero_add, one_pow]
    · have hbig : ∀ n, 52 ≤ n → limit ≤ base * m ^ n := fun n hn => by
        calc limit ≤ 2 ^ 52 := hlimit
          _ ≤ m ^ 52 := Nat.pow_le_pow_left htwo 52
          _ ≤ m ^ n := Nat.pow_le_pow_right hm hn
          _ ≤ base * m ^ n := Nat.le_mul_of_pos_left _ hbase
      have hmax : 52 ≤ maxPower := by decide
      rw [Nat.min_eq_left (hbig _ (by omega)), Nat.min_eq_left (hbig _ (by omega))]

theorem nominalDelay_of_pos (h : p.validate = .ok ()) (hm : p.multiplier = ofNat m) (hpos : 0 < m)
    (hbase : 0 < p.baseDelay.nanos) (hmax : p.maxDelay.nanos ≤ 2 ^ 52) (k : ℕ) :
    (p.nominalDelay k).nanos = min p.maxDelay.nanos (p.baseDelay.nanos * m ^ k) := by
  obtain ⟨hunsigned, hsize⟩ := cut_of_pos h hbase k
  have hlimit : size (ofNat p.maxDelay.nanos) = ((p.maxDelay.nanos : ℚ) : WithTop ℚ) :=
    size_ofNat (hmax.trans (by decide))
  have hpow := atLeastOne_pow (atLeastOne_multiplier h) k
  have hgrown : Follows (p.grown k) (p.baseDelay.nanos * m ^ min k maxPower) := by
    refine (follows_ofNat _).mul (atLeastOne_ofNat hbase) hpow hbase (pow_pos hpos _) ?_
    rw [hm]
    exact follows_pow hpos (atLeastOne_ofNat hpos) (follows_ofNat m) k
  rw [← min_pow_maxPower hbase hpos hmax k, nanos_nominalDelay]
  refine toNatUpTo_of_size hunsigned ((Nat.min_le_left _ _).trans hmax) ?_
  rw [hsize, hlimit]
  generalize p.baseDelay.nanos * m ^ min k maxPower = n at *
  rcases Nat.lt_or_ge n (2 ^ 53) with hlt | hge
  · rw [hgrown.exact hlt, ← WithTop.coe_min, ← Nat.cast_min, Nat.min_comm]
  · have hfar : ((p.maxDelay.nanos : ℚ) : WithTop ℚ) ≤ size (p.grown k) := by
      refine le_trans (WithTop.coe_le_coe.mpr ?_) (hgrown.beyond hge)
      exact_mod_cast hmax.trans (by decide)
    rw [min_eq_right hfar, Nat.min_eq_left (hmax.trans (le_trans (by decide) hge))]

theorem nominalDelay_of_zero (h : p.validate = .ok ()) (hbase : p.baseDelay.nanos = 0)
    (hmax : p.maxDelay.nanos ≤ 2 ^ 52) (k : ℕ) : (p.nominalDelay k).nanos =
      if (p.multiplier.pow k).isFinite then 0 else p.maxDelay.nanos := by
  obtain ⟨hunsigned, hsize⟩ := cut_of_zero h hbase k
  rw [nanos_nominalDelay]
  split at hsize
  · next hfinite =>
    rw [if_pos hfinite]
    exact toNatUpTo_of_size hunsigned (Nat.zero_le _) (by rw [hsize, Nat.cast_zero, WithTop.coe_zero])
  · next hinfinite =>
    rw [if_neg hinfinite]
    exact toNatUpTo_of_size hunsigned hmax (by rw [hsize, size_ofNat (hmax.trans (by decide))])

/-- The first attempt for which the power overflows. -/
theorem exists_overflow (h : p.validate = .ok ()) (hm : p.multiplier = ofNat m) (htwo : 2 ≤ m) :
    ∃ edge, (∀ k, (p.multiplier.pow k).isFinite = true ↔ k < edge) ∧
      ∀ j, (m ≤ 2 ^ j → 1024 ≤ j * edge) ∧ (2 ^ j ≤ m → j * (edge - 1) < 1024) := by
  have hpos : 0 < m := by omega
  have hsome : ∃ k, ¬ (p.multiplier.pow k).isFinite = true := ⟨1024, by
    rw [hm, not_isFinite_pow (j := 1) htwo (by decide)]
    decide⟩
  obtain ⟨edge, hedge⟩ : ∃ edge, ∀ k, (p.multiplier.pow k).isFinite = true ↔ k < edge := by
    classical
    exact ⟨Nat.find hsome, fun k =>
      ⟨fun hfinite => Nat.lt_of_not_le fun hle =>
          Nat.find_spec hsome (isFinite_pow_of_le h hle hfinite),
        fun hlt => not_not.mp (Nat.find_min hsome hlt)⟩⟩
  refine ⟨edge, hedge, fun j => ⟨fun hle => ?_, fun hle => ?_⟩⟩
  · refine Nat.le_of_not_lt fun hlt => Nat.lt_irrefl edge ((hedge edge).mp ?_)
    rw [hm]
    exact isFinite_pow hpos hle hlt
  · refine Nat.lt_of_not_le fun hge => ?_
    have hfirst : edge ≠ 0 := by
      rintro rfl
      exact absurd hge (by rw [Nat.zero_sub, Nat.mul_zero]; decide)
    have hfinite := (hedge (edge - 1)).mpr (by omega)
    rw [hm, not_isFinite_pow hle hge] at hfinite
    cases hfinite

/-- What a checked policy waits, for a whole multiplier and delays that are exact in doubles. It waits
    `min maxDelay (baseDelay * m ^ k)` after attempt `k` just if there is a base delay, or no greatest
    delay either, or the power is finite. It never waits longer than `maxDelay`, and never less than after
    an earlier attempt. Without a base delay it does not wait, for ever if the multiplier is one; for a
    greater one it waits `maxDelay` from the attempt on for which the power overflows, which is the one for
    which it reaches `2 ^ 1024` if the multiplier is a power of two. -/
theorem nominalDelay_exact (h : p.validate = .ok ()) (hm : p.multiplier = ofNat m)
    (hmax : p.maxDelay.nanos ≤ 2 ^ 52) :
    (∀ k, (p.nominalDelay k).nanos = min p.maxDelay.nanos (p.baseDelay.nanos * m ^ k) ↔
      p.baseDelay.nanos ≠ 0 ∨ p.maxDelay.nanos = 0 ∨ (p.multiplier.pow k).isFinite = true) ∧
    (∀ k, (p.nominalDelay k).nanos ≤ p.maxDelay.nanos) ∧
    (∀ j k, j ≤ k → (p.nominalDelay j).nanos ≤ (p.nominalDelay k).nanos) ∧
    (p.baseDelay.nanos = 0 →
      (m = 1 → ∀ k, (p.nominalDelay k).nanos = 0) ∧
      (2 ≤ m → ∃ edge, (∀ k, (p.nominalDelay k).nanos = if k < edge then 0 else p.maxDelay.nanos) ∧
        ∀ j, (m ≤ 2 ^ j → 1024 ≤ j * edge) ∧ (2 ^ j ≤ m → j * (edge - 1) < 1024))) := by
  have hpos : 0 < m := by
    refine Nat.pos_of_ne_zero fun hzero => ?_
    have hone := (atLeastOne_multiplier h).one_le
    rw [hm, hzero, size_ofNat (by decide)] at hone
    exact absurd (WithTop.coe_le_coe.mp hone) (by norm_num)
  have hzero := nominalDelay_of_zero h
  refine ⟨fun k => ?_, fun k => ?_, fun j k hjk => nominalDelay_mono h hjk, fun hnone => ⟨?_, ?_⟩⟩
  · rcases Nat.eq_zero_or_pos p.baseDelay.nanos with hnone | hsome
    · rw [hzero hnone hmax k, hnone, Nat.zero_mul, Nat.min_zero]
      split
      · next hfinite => simp [hfinite]
      · next hinfinite => simp [hinfinite]
    · simp [nominalDelay_of_pos h hm hpos hsome hmax k, hsome.ne']
  · rcases Nat.eq_zero_or_pos p.baseDelay.nanos with hnone | hsome
    · rw [hzero hnone hmax k]
      split
      · exact Nat.zero_le _
      · exact Nat.le_refl _
    · rw [nominalDelay_of_pos h hm hpos hsome hmax k]
      exact Nat.min_le_left _ _
  · rintro rfl k
    rw [hzero hnone hmax k, hm, isFinite_pow (j := 0) hpos (by decide) (by omega), if_pos rfl]
  · intro htwo
    obtain ⟨edge, hedge, hbounds⟩ := exists_overflow h hm htwo
    refine ⟨edge, fun k => ?_, hbounds⟩
    rw [hzero hnone hmax k]
    simp only [hedge]

/-- Five seconds at most, without a base delay, and doubling. -/
def idle : RetryPolicy := { baseDelay := .ofMillis 0, maxDelay := .ofSeconds 5, multiplier := ofNat 2 }

/-- The last attempt after which the policy does not wait, and the first one after which it waits the
    full five seconds. -/
theorem nominalDelay_exact_idle :
    idle.validate = .ok () ∧ idle.maxDelay.nanos ≤ 2 ^ 52 ∧
    (idle.nominalDelay 1023).nanos = min idle.maxDelay.nanos (idle.baseDelay.nanos * 2 ^ 1023) ∧
    (idle.nominalDelay 1024).nanos ≠ min idle.maxDelay.nanos (idle.baseDelay.nanos * 2 ^ 1024) ∧
    ∃ edge, (∀ k, (idle.nominalDelay k).nanos = if k < edge then 0 else 5000000000) ∧
      1024 ≤ 1 * edge ∧ 1 * (edge - 1) < 1024 := by
  have hvalid : idle.validate = .ok () := by rfl
  have hmax : idle.maxDelay.nanos ≤ 2 ^ 52 := by decide
  have hlast : (idle.multiplier.pow 1023).isFinite = true := by decide +kernel
  have hfirst : ¬ (idle.multiplier.pow 1024).isFinite = true := by decide +kernel
  obtain ⟨hlaw, -, -, hnone⟩ := nominalDelay_exact (p := idle) (m := 2) hvalid rfl hmax
  obtain ⟨edge, hedge, hbounds⟩ := (hnone rfl).2 (by decide)
  refine ⟨hvalid, hmax, (hlaw 1023).mpr (Or.inr (Or.inr hlast)), fun heq => ?_, edge, hedge,
    (hbounds 1).1 (by decide), (hbounds 1).2 (by decide)⟩
  rcases (hlaw 1024).mp heq with hbase | hlimit | hfinite
  · exact hbase rfl
  · exact absurd hlimit (by decide)
  · exact hfirst hfinite

/-- A policy that passes its check and has no base delay waits as long as it may after enough attempts:
    zero times an infinite power is no number. -/
theorem idle_waits_in_full : idle.validate = .ok () ∧ idle.multiplier = ofNat 2 ∧
    idle.baseDelay.nanos = 0 ∧ idle.maxDelay.nanos ≤ 2 ^ 52 ∧
    (idle.nominalDelay 1024).nanos = 5000000000 ∧
    min idle.maxDelay.nanos (idle.baseDelay.nanos * 2 ^ 1024) = 0 :=
  ⟨by rfl, rfl, rfl, by decide, by decide +kernel, by
    rw [show idle.baseDelay.nanos = 0 from rfl, Nat.zero_mul, Nat.min_zero]⟩

end RetryPolicy

end SlurmLink
