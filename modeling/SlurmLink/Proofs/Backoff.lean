import Mathlib.Tactic.Ring
import SlurmLink.Call

/-!
Waits between attempts can always be computed. A span is made of seconds in double precision, which
fails for negative numbers, for `nan` and for what is too long; a checked policy never gets there:

    nominal wait ──seconds──▶ [0, 2^36] ──times a factor from [0, 2]──▶ [0, 2^37] ──▶ a span

`UpTo k` says that a double is a number from 0 to `2 ^ k`. Rounding does not lead out of such a range,
because its upper end is a double (`upTo_ofRatio`), so each operation has a range of results.
-/

namespace SlurmLink

namespace Binary64

/-! ### Powers of two -/

theorem up_pos (e : Int) : 0 < up e := Nat.two_pow_pos _

theorem down_pos (e : Int) : 0 < down e := Nat.two_pow_pos _

theorem up_mul_up (e f : Int) :
    up e * up f * down (e + f) = up (e + f) * (down e * down f) := by
  simp only [up, down, Nat.pow_eq, ← Nat.pow_add]
  congr 1
  omega

theorem up_sub (e f : Int) : up e * down f * down (e - f) = up (e - f) * (down e * up f) := by
  simp only [up, down, Nat.pow_eq, ← Nat.pow_add]
  congr 1
  omega

theorem down_of_nonneg {e : Int} (h : 0 ≤ e) : down e = 1 := by
  simp only [down, Nat.pow_eq]
  rw [show (-e).toNat = 0 by omega, Nat.pow_zero]

theorem up_mul_down_of_le {e g : Int} (h : g ≤ e) :
    up e * down g = up (e - g) * (down e * up g) := by
  have hup := up_sub e g
  rwa [down_of_nonneg (e := e - g) (by omega), Nat.mul_one] at hup

theorem pow_mul_up {k : Nat} {e : Int} (h : e ≤ k) :
    2 ^ ((k : Int) - e).toNat * up e = 2 ^ k * down e := by
  simp only [up, down, Nat.pow_eq, ← Nat.pow_add]
  congr 1
  omega

/-! ### Rounding within a range -/

/-- A number from 0 to `2 ^ k`. -/
def UpTo (k : Nat) : Binary64 → Prop
  | .finite s m e => (s = true → m = 0) ∧ m * up e ≤ 2 ^ k * down e
  | _ => False

theorem divEven_le {n d M : Nat} (_ : 0 < d) (h : n ≤ M * d) : divEven n d ≤ M := by
  have hq : n / d ≤ M := Nat.div_le_of_le_mul (by rwa [Nat.mul_comm])
  have hn := Nat.div_add_mod n d
  have hnext : n % d ≠ 0 → n / d + 1 ≤ M := by
    intro hr
    by_contra hlt
    have hM : M = n / d := by omega
    rw [hM, Nat.mul_comm] at h
    omega
  rw [divEven]
  split
  · exact hq
  · split
    · exact hnext (by omega)
    · split
      · exact hq
      · exact hnext (by omega)

theorem exponentOf_le {k n d : Nat} (hn : n ≠ 0) (h : n ≤ 2 ^ k * d) :
    exponentOf n d ≤ k := by
  have hlog : Nat.log2 n ≤ k + Nat.log2 d := by
    have hlt : n < 2 ^ (k + Nat.log2 d + 1) := by
      calc n ≤ 2 ^ k * d := h
        _ < 2 ^ k * 2 ^ (Nat.log2 d + 1) :=
          Nat.mul_lt_mul_of_pos_left Nat.lt_log2_self (Nat.two_pow_pos k)
        _ = 2 ^ (k + Nat.log2 d + 1) := by rw [← Nat.pow_add, Nat.add_assoc]
    exact Nat.lt_succ_iff.mp ((Nat.log2_lt hn).mpr hlt)
  simp only [exponentOf, minExponent]
  split <;> omega

/-- The quotient of two numbers is rounded to a number of the same range. -/
theorem upTo_ofRatio {k n d : Nat} {s : Bool} (hk : k ≤ 971) (hs : s = true → n = 0) (hd : 0 < d)
    (h : n ≤ 2 ^ k * d) : UpTo k (ofRatio s n d) := by
  rw [ofRatio]
  split
  · exact ⟨fun _ => rfl, by simp⟩
  · next hn =>
    have he := exponentOf_le hn h
    have hs : s = false := Bool.eq_false_iff.mpr fun ht => hn (hs ht)
    generalize exponentOf n d = e at he
    have hm : divEven (n * down e) (d * up e) ≤ 2 ^ ((k : Int) - e).toNat := by
      refine divEven_le (Nat.mul_pos hd (up_pos e)) ?_
      calc n * down e ≤ 2 ^ k * d * down e := Nat.mul_le_mul_right _ h
        _ = 2 ^ k * down e * d := by ring
        _ = 2 ^ ((k : Int) - e).toNat * (d * up e) := by rw [← pow_mul_up he]; ring
    simp only
    split
    · -- The significand was rounded up to the next power of two.
      next hcarry =>
      have hroom : e + 1 ≤ k := by
        by_contra hlt
        have hzero : ((k : Int) - e).toNat = 0 := by omega
        rw [hcarry, hzero] at hm
        exact absurd hm (by decide)
      have hhalf : leastFull ≤ 2 ^ ((k : Int) - (e + 1)).toNat := by
        rw [hcarry, show ((k : Int) - e).toNat = ((k : Int) - (e + 1)).toNat + 1 by omega,
          Nat.pow_succ] at hm
        omega
      rw [if_neg (by simp only [maxExponent]; omega)]
      refine ⟨fun ht => absurd ht (by rw [hs]; decide), ?_⟩
      exact pow_mul_up hroom ▸ Nat.mul_le_mul_right _ hhalf
    · rw [if_neg (by simp only [maxExponent]; omega)]
      refine ⟨fun ht => absurd ht (by rw [hs]; decide), ?_⟩
      exact pow_mul_up he ▸ Nat.mul_le_mul_right _ hm

theorem upTo_ofNat {k n : Nat} (hk : k ≤ 971) (h : n ≤ 2 ^ k) : UpTo k (ofNat n) :=
  upTo_ofRatio hk (fun h => nomatch h) Nat.one_pos (by rwa [Nat.mul_one])

/-! ### Operations -/

theorem UpTo.mul {j k : Nat} {x y : Binary64} (hx : UpTo j x) (hy : UpTo k y) (hjk : j + k ≤ 971) :
    UpTo (j + k) (x.mul y) := by
  match x, y with
  | .finite s m e, .finite t n f =>
    obtain ⟨hs, hm⟩ := hx
    obtain ⟨ht, hn⟩ := hy
    refine upTo_ofRatio hjk ?_ (down_pos _) ?_
    · intro hst
      have hzero : m * n = 0 := by
        cases s with
        | true => rw [hs rfl, Nat.zero_mul]
        | false =>
          cases t with
          | true => rw [ht rfl, Nat.mul_zero]
          | false => cases hst
      rw [hzero, Nat.zero_mul]
    · refine Nat.le_of_mul_le_mul_right ?_ (Nat.mul_pos (down_pos e) (down_pos f))
      calc m * n * up (e + f) * (down e * down f)
          = m * n * (up (e + f) * (down e * down f)) := by ring
        _ = m * up e * (n * up f) * down (e + f) := by rw [← up_mul_up]; ring
        _ ≤ 2 ^ j * down e * (2 ^ k * down f) * down (e + f) :=
          Nat.mul_le_mul_right _ (Nat.mul_le_mul hm hn)
        _ = 2 ^ (j + k) * down (e + f) * (down e * down f) := by rw [Nat.pow_add]; ring

/-- Dividing by a number of at least one. -/
theorem UpTo.div {k n : Nat} {f : Int} {x : Binary64} (hx : UpTo k x) (hk : k ≤ 971)
    (hy : down f ≤ n * up f) : UpTo k (x.div (.finite false n f)) := by
  have hn : 0 < n := Nat.pos_of_ne_zero fun h => by
    rw [h, Nat.zero_mul] at hy
    exact absurd (down_pos f) (by omega)
  match x with
  | .finite s m e =>
    obtain ⟨hs, hm⟩ := hx
    rw [Binary64.div, if_neg (by omega)]
    refine upTo_ofRatio hk ?_ (Nat.mul_pos hn (down_pos _)) ?_
    · intro hst
      cases s with
      | true => rw [hs rfl, Nat.zero_mul]
      | false => cases hst
    · refine Nat.le_of_mul_le_mul_right ?_ (Nat.mul_pos (down_pos e) (up_pos f))
      calc m * up (e - f) * (down e * up f)
          = m * (up (e - f) * (down e * up f)) := by ring
        _ = m * up e * (down f * down (e - f)) := by rw [← up_sub]; ring
        _ ≤ 2 ^ k * down e * (n * up f * down (e - f)) :=
          Nat.mul_le_mul hm (Nat.mul_le_mul_right _ hy)
        _ = 2 ^ k * (n * down (e - f)) * (down e * up f) := by ring

/-- A number at a smaller exponent. -/
theorem upTo_scaled {k m : Nat} {e g : Int} (hg : g ≤ e) (h : m * up e ≤ 2 ^ k * down e) :
    m * up (e - g) * up g ≤ 2 ^ k * down g := by
  refine Nat.le_of_mul_le_mul_right ?_ (down_pos e)
  have hup := up_mul_down_of_le hg
  calc m * up (e - g) * up g * down e = m * (up (e - g) * (down e * up g)) := by ring
    _ = m * up e * down g := by rw [← hup]; ring
    _ ≤ 2 ^ k * down e * down g := Nat.mul_le_mul_right _ h
    _ = 2 ^ k * down g * down e := by ring

/-- The signed significand of a number that is not negative. -/
theorem scaled_eq {s : Bool} {m : Nat} (hs : s = true → m = 0) (e g : Int) :
    scaled s m e g = (m * up (e - g) : Nat) := by
  cases s with
  | false => rfl
  | true => rw [hs rfl]; simp [scaled]

theorem UpTo.add {k : Nat} {x y : Binary64} (hx : UpTo k x) (hy : UpTo k y) (hk : k + 1 ≤ 971) :
    UpTo (k + 1) (x.add y) := by
  match x, y with
  | .finite s m e, .finite t n f =>
    obtain ⟨hs, hm⟩ := hx
    obtain ⟨ht, hn⟩ := hy
    have hleft := upTo_scaled (g := min e f) (by omega) hm
    have hright := upTo_scaled (g := min e f) (by omega) hn
    simp only [Binary64.add, scaled_eq hs, scaled_eq ht]
    split
    · exact ⟨fun _ => rfl, by simp⟩
    · refine upTo_ofRatio hk (fun hneg => ?_) (down_pos _) ?_
      · exact absurd (of_decide_eq_true hneg) (by omega)
      · rw [← Int.natCast_add, Int.natAbs_natCast, Nat.add_mul, Nat.pow_succ,
          Nat.mul_right_comm (2 ^ k)]
        omega

/-- The difference of two numbers in their order. -/
theorem UpTo.sub {k l : Nat} {x y : Binary64} (hx : UpTo k x) (hy : UpTo l y) (hk : k ≤ 971)
    (hle : le y x = true) : UpTo k (x.sub y) := by
  match x, y with
  | .finite s m e, .finite t n f =>
    obtain ⟨hs, hm⟩ := hx
    obtain ⟨ht, -⟩ := hy
    have hleft := upTo_scaled (g := min e f) (by omega) hm
    have hneg : scaled (!t) n f (min e f) = -(n * up (f - min e f) : Nat) := by
      rw [← scaled_eq ht]
      cases t <;> simp [scaled]
    have horder : n * up (f - min e f) ≤ m * up (e - min e f) := by
      rw [le, min_comm f e, scaled_eq hs, scaled_eq ht] at hle
      exact Int.ofNat_le.mp (of_decide_eq_true hle)
    simp only [Binary64.sub, neg, Binary64.add, scaled_eq hs, hneg]
    split
    · exact ⟨fun _ => rfl, by simp⟩
    · refine upTo_ofRatio hk (fun h => ?_) (down_pos _) ?_
      · exact absurd (of_decide_eq_true h) (by omega)
      · refine Nat.le_trans (Nat.mul_le_mul_right _ ?_) hleft
        omega

/-- What lies between two numbers that are not negative is a number of the range of the greater
    one. -/
theorem upTo_of_le {k l : Nat} {x y z : Binary64} (hx : UpTo k x) (hxy : le x y = true)
    (hyz : le y z = true) (hz : UpTo l z) : UpTo l y := by
  match x, z with
  | .finite s m e, .finite u p h =>
    obtain ⟨hs, -⟩ := hx
    obtain ⟨hu, hp⟩ := hz
    cases y with
    | nan => cases hxy
    | infinite negative => cases negative with
      | true => cases hxy
      | false => cases hyz
    | finite t n f =>
      have ht : t = true → n = 0 := by
        rintro rfl
        rw [le, scaled_eq hs] at hxy
        have hxy := of_decide_eq_true hxy
        simp only [scaled, if_true] at hxy
        have hzero : n * up (f - min e f) = 0 := by omega
        exact (Nat.mul_eq_zero.mp hzero).resolve_right (up_pos _).ne'
      refine ⟨ht, Nat.le_of_mul_le_mul_right ?_ (down_pos (min f h))⟩
      rw [le, scaled_eq ht, scaled_eq hu] at hyz
      have horder := Int.ofNat_le.mp (of_decide_eq_true hyz)
      have hright := upTo_scaled (g := min f h) (by omega) hp
      have hup := up_mul_down_of_le (Int.min_le_left f h)
      calc n * up f * down (min f h)
          = n * up (f - min f h) * up (min f h) * down f := by rw [Nat.mul_assoc, hup]; ring
        _ ≤ p * up (h - min f h) * up (min f h) * down f :=
          Nat.mul_le_mul_right _ (Nat.mul_le_mul_right _ horder)
        _ ≤ 2 ^ l * down (min f h) * down f := Nat.mul_le_mul_right _ hright
        _ = 2 ^ l * down f * down (min f h) := by ring

/-- The order of numbers that are not negative, without a common exponent. -/
theorem le_finite_iff {s t : Bool} {m n : Nat} {e f : Int} (hs : s = true → m = 0)
    (ht : t = true → n = 0) :
    le (.finite s m e) (.finite t n f) = true ↔ m * up e * down f ≤ n * up f * down e := by
  have hleft := up_mul_down_of_le (Int.min_le_left e f)
  have hright := up_mul_down_of_le (Int.min_le_right e f)
  have hpos : 0 < up (min e f) * down e * down f :=
    Nat.mul_pos (Nat.mul_pos (up_pos _) (down_pos _)) (down_pos _)
  have hscaled : m * up (e - min e f) * (up (min e f) * down e * down f) =
      m * up e * down f * down (min e f) := by
    calc m * up (e - min e f) * (up (min e f) * down e * down f)
        = m * (up (e - min e f) * (down e * up (min e f))) * down f := by ring
      _ = m * up e * down f * down (min e f) := by rw [← hleft]; ring
  have hscaled' : n * up (f - min e f) * (up (min e f) * down e * down f) =
      n * up f * down e * down (min e f) := by
    calc n * up (f - min e f) * (up (min e f) * down e * down f)
        = n * (up (f - min e f) * (down f * up (min e f))) * down e := by ring
      _ = n * up f * down e * down (min e f) := by rw [← hright]; ring
  rw [le, scaled_eq hs, scaled_eq ht, decide_eq_true_iff, Int.ofNat_le,
    ← Nat.mul_le_mul_right_iff hpos, hscaled, hscaled', Nat.mul_le_mul_right_iff (down_pos _)]

theorem UpTo.le_trans {j k l : Nat} {x y z : Binary64} (hx : UpTo j x) (hy : UpTo k y)
    (hz : UpTo l z) (hxy : le x y = true) (hyz : le y z = true) : le x z = true := by
  match x, y, z with
  | .finite s m e, .finite t n f, .finite u q g =>
    rw [le_finite_iff hx.1 hy.1] at hxy
    rw [le_finite_iff hy.1 hz.1] at hyz
    rw [le_finite_iff hx.1 hz.1]
    refine Nat.le_of_mul_le_mul_right ?_ (down_pos f)
    calc m * up e * down g * down f = m * up e * down f * down g := by ring
      _ ≤ n * up f * down e * down g := Nat.mul_le_mul_right _ hxy
      _ = n * up f * down g * down e := by ring
      _ ≤ q * up g * down f * down e := Nat.mul_le_mul_right _ hyz
      _ = q * up g * down e * down f := by ring

theorem UpTo.isFinite {k : Nat} {x : Binary64} (h : UpTo k x) : x.isFinite = true := by
  match x with
  | .finite .. => rfl

/-- Whatever is at most one, and is not at most zero, is between them. -/
theorem zero_le_of_not_le {x : Binary64} (hone : x.le one = true) (hzero : ¬ x.le (.ofNat 0) = true) :
    le (.ofNat 0) x = true := by
  match x with
  | .nan => cases hone
  | .infinite true => exact absurd rfl hzero
  | .infinite false => rfl
  | .finite s m e =>
    have h : ofNat 0 = .finite false 0 0 := rfl
    rw [h, le, decide_eq_true_iff, not_le] at hzero
    rw [h, le, decide_eq_true_iff, min_comm]
    exact le_of_lt hzero

theorem toNatUpTo_le (limit : Nat) (x : Binary64) : x.toNatUpTo limit ≤ limit := by
  match x with
  | .nan => exact Nat.zero_le _
  | .infinite true => exact Nat.zero_le _
  | .infinite false => exact Nat.le_refl _
  | .finite true _ _ => exact Nat.zero_le _
  | .finite false _ _ => exact Nat.min_le_left _ _

end Binary64

/-! ### Waits -/

open Binary64 (UpTo)

/-- Seconds of a range that spans cover make a span. -/
theorem Span.isSome_ofSeconds64? {k : Nat} {x : Binary64} (h : UpTo k x) (hk : k < 64) :
    (Span.ofSeconds64? x).isSome = true := by
  match x with
  | .finite s m e =>
    obtain ⟨hs, hm⟩ := h
    have hsign : (s && m != 0) = false := by
      cases s with
      | false => rfl
      | true => rw [hs rfl]; rfl
    have hlimit : ¬ Span.secondsLimit * Binary64.down e ≤ m * Binary64.up e := by
      have hpow : 2 ^ k < Span.secondsLimit :=
        show 2 ^ k < 2 ^ 64 from Nat.pow_lt_pow_right (by decide) hk
      have := Nat.mul_lt_mul_of_pos_right hpow (Binary64.down_pos e)
      omega
    rw [Span.ofSeconds64?, hsign, if_neg (by decide), if_neg hlimit]
    rfl

/-- The seconds of the longest wait and of every shorter one. -/
theorem Span.upTo_seconds {s : Span} (h : s.nanos ≤ RetryPolicy.maxNanos) : UpTo 36 s.seconds := by
  have hbillion : Binary64.ofNat 1000000000 = .finite false 8388608000000000 (-23) := by
    decide +kernel
  have hwhole : UpTo 35 (Binary64.ofNat (s.nanos / 1000000000)) :=
    Binary64.upTo_ofNat (by decide) (by simp only [RetryPolicy.maxNanos] at h; omega)
  have hrest : UpTo 35 (Binary64.ofNat (s.nanos % 1000000000)) :=
    Binary64.upTo_ofNat (by decide) (by omega)
  rw [Span.seconds, hbillion]
  exact hwhole.add (hrest.div (by decide) (by decide)) (by decide)

namespace RetryPolicy

variable {p : RetryPolicy}

theorem upTo_nominal (p : RetryPolicy) (k : Nat) : UpTo 36 (p.nominalDelay k).seconds :=
  Span.upTo_seconds (Binary64.toNatUpTo_le _ _)

theorem upTo_one : UpTo 0 Binary64.one := Binary64.upTo_ofNat (by decide) (by decide)

/-- The waits are spread by a part between 0 and 1. -/
def IsModerate (p : RetryPolicy) : Prop :=
  Binary64.le (.ofNat 0) p.jitterFraction = true ∧ p.jitterFraction.le .one = true

theorem isModerate_of_validate (h : p.validate = .ok ()) : p.IsModerate := by
  rw [validate] at h
  split at h
  · cases h
  · split at h
    · cases h
    · split at h
      · cases h
      · next hj =>
        rwa [Bool.not_eq_true, Bool.not_eq_false', Bool.and_eq_true] at hj

theorem upTo_jitter (h : p.IsModerate) : UpTo 0 p.jitterFraction :=
  Binary64.upTo_of_le (Binary64.upTo_ofNat (k := 0) (by decide) (by decide)) h.1 h.2 upTo_one

/-- The least factor. -/
theorem upTo_low (h : p.IsModerate) : UpTo 0 (Binary64.one.sub p.jitterFraction) :=
  upTo_one.sub (upTo_jitter h) (by decide) h.2

/-- The greatest factor. -/
theorem upTo_high (h : p.IsModerate) : UpTo 1 (Binary64.one.add p.jitterFraction) :=
  upTo_one.add (upTo_jitter h) (by decide)

/-- The bounds of every wait of a checked policy can be computed. -/
theorem isSome_delayBounds (h : p.validate = .ok ()) (k : Nat) :
    (p.delayBounds k).isSome = true := by
  have hj := isModerate_of_validate h
  obtain ⟨low, hlow⟩ := Option.isSome_iff_exists.mp
    (Span.isSome_ofSeconds64? ((upTo_nominal p k).mul (upTo_low hj) (by decide)) (by decide))
  obtain ⟨high, hhigh⟩ := Option.isSome_iff_exists.mp
    (Span.isSome_ofSeconds64? ((upTo_nominal p k).mul (upTo_high hj) (by decide)) (by decide))
  simp only [delayBounds, hlow, hhigh, bind, Option.bind_some, pure, Option.isSome_some]

/-- What chance may draw is a number of the range. -/
theorem upTo_of_draws (h : p.IsModerate) {factor : Binary64} (hdraw : p.draws factor = true) :
    UpTo 1 factor :=
  have hfactor := Bool.and_eq_true_iff.mp hdraw
  Binary64.upTo_of_le (upTo_low h) hfactor.1 hfactor.2 (upTo_high h)

/-- Where there is a factor between the bounds, one can be drawn. -/
theorem canDraw_of_draws (h : p.IsModerate) {factor : Binary64} (hdraw : p.draws factor = true) :
    p.canDraw = true := by
  obtain ⟨hlow, hhigh⟩ := Bool.and_eq_true_iff.mp hdraw
  have horder := (upTo_low h).le_trans (upTo_of_draws h hdraw) (upTo_high h) hlow hhigh
  exact Bool.and_eq_true_iff.mpr
    ⟨horder, ((upTo_high h).sub (upTo_low h) (by decide) horder).isFinite⟩

/-- There is a wait after every attempt if the waits are spread by no more than themselves, whatever
    factor chance may draw. -/
theorem isSome_delay_of_le_one (h : p.jitterFraction.le .one = true) (k : Nat) {factor : Binary64}
    (hdraw : p.jitterFraction.le (.ofNat 0) = true ∨ p.draws factor = true) :
    (p.delay factor k).isSome = true := by
  rw [delay]
  split
  · rfl
  · next hzero =>
    have hj : p.IsModerate := ⟨Binary64.zero_le_of_not_le h hzero, h⟩
    have hfactor := hdraw.resolve_left hzero
    rw [if_pos (canDraw_of_draws hj hfactor)]
    exact Span.isSome_ofSeconds64? ((upTo_nominal p k).mul (upTo_of_draws hj hfactor) (by decide))
      (by decide)

/-- Every wait of a checked policy can be computed, whatever factor chance draws between the least and
    the greatest. -/
theorem isSome_delay (h : p.validate = .ok ()) (k : Nat) {factor : Binary64}
    (hlow : Binary64.le (Binary64.one.sub p.jitterFraction) factor = true)
    (hhigh : factor.le (Binary64.one.add p.jitterFraction) = true) :
    (p.delay factor k).isSome = true :=
  isSome_delay_of_le_one (isModerate_of_validate h).2 k
    (Or.inr (Bool.and_eq_true_iff.mpr ⟨hlow, hhigh⟩))

end RetryPolicy

namespace CallPolicy

variable {p : CallPolicy}

theorem exists_delay (hj : p.retry.jitterFraction.le .one = true)
    (hdraw : p.retry.jitterFraction.le (.ofNat 0) = true ∨ ∀ i, p.retry.draws (p.draw i) = true)
    (pause k : Nat) : ∃ wait, p.retry.delay (p.draw pause) k = some wait :=
  Option.isSome_iff_exists.mp
    (RetryPolicy.isSome_delay_of_le_one hj k (hdraw.imp_right fun h => h pause))

theorem rest?_ne_none (hj : p.retry.jitterFraction.le .one = true)
    (hdraw : p.retry.jitterFraction.le (.ofNat 0) = true ∨ ∀ i, p.retry.draws (p.draw i) = true)
    (pause k : Nat) : p.rest? pause k ≠ none := by
  obtain ⟨wait, hwait⟩ := exists_delay hj hdraw pause k
  rw [rest?, hwait]
  exact Option.some_ne_none _

end CallPolicy

end SlurmLink
