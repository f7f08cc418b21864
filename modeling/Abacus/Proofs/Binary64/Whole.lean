import Abacus.Proofs.Binary64.Normal

/-!
# Doubles that are integers

An integer of at most `2 ^ 53` has a double in normal form. So sums, differences and products of doubles are exact as
long as they are such integers, and rounding a numeral is.

Results:
* `holds_add`, `holds_sub`, `holds_mul`, `holds_neg`: operators on doubles that are exact.
* `holds_ofNat?`: a small number has a double that holds it.
* `Holds.truncated`: the integer part of a double that is an integer.
-/

namespace Abacus.Binary64

open Float.Model UnpackedFloat

/-! ## Integers that have a double -/

/-- The largest integer up to which all integers have a double. -/
def wholeLimit : ℕ := 2 ^ 53

/-- A small integer with a significand of 53 bits. -/
theorem exists_significand {n : ℕ} (hpos : 0 < n) (hle : n ≤ wholeLimit) :
    ∃ (m : ℕ) (e : ℤ), 2 ^ 52 ≤ m ∧ m < 2 ^ 53 ∧ -52 ≤ e ∧ e ≤ 1 ∧ (n : ℚ) * 2 ^ (0 : ℤ) = m * 2 ^ e := by
  rcases Nat.lt_or_eq_of_le hle with hlt | heq
  · have hlog : n.log2 ≤ 52 := Nat.lt_succ_iff.mp ((Nat.log2_lt (by omega)).mpr hlt)
    obtain ⟨hlow, hhigh⟩ := (Nat.log2_eq_iff (by omega)).mp (rfl : n.log2 = n.log2)
    obtain ⟨d, hd⟩ : ∃ d, n.log2 + d = 52 := ⟨52 - n.log2, by omega⟩
    refine ⟨n * 2 ^ d, -d, ?_, ?_, by omega, by omega, ?_⟩
    · calc 2 ^ 52 = 2 ^ n.log2 * 2 ^ d := by rw [← pow_add, hd]
        _ ≤ n * 2 ^ d := Nat.mul_le_mul_right _ hlow
    · calc n * 2 ^ d < 2 ^ (n.log2 + 1) * 2 ^ d := Nat.mul_lt_mul_of_pos_right hhigh (by positivity)
        _ = 2 ^ 53 := by rw [← pow_add, show n.log2 + 1 + d = 53 by omega]
    · rw [zpow_zero, mul_one, zpow_neg, zpow_natCast]
      push_cast
      rw [mul_assoc, mul_inv_cancel₀ (by positivity), mul_one]
  · refine ⟨2 ^ 52, 1, le_rfl, by norm_num, by norm_num, le_rfl, ?_⟩
    rw [heq, wholeLimit]
    norm_num

theorem apply_eq_mul (s : Sign) (m : ℕ) : s.apply m = s.apply 1 * m := by
  cases s <;> simp [Sign.apply]

theorem apply_mul_congr (s : Sign) {m m' : ℕ} {q q' : ℚ} (h : (m : ℚ) * q = m' * q') :
    (s.apply m : ℚ) * q = s.apply m' * q' := by
  rw [apply_eq_mul s m, apply_eq_mul s m']
  push_cast
  rw [mul_assoc, mul_assoc, h]

/-- The signs of a product. -/
theorem apply_mul_apply (s s' : Sign) (m m' : ℕ) : s.apply m * s'.apply m' = (s * s').apply (m * m' : ℕ) := by
  have hsign : (s * s').apply 1 = s.apply 1 * s'.apply 1 := by
    cases s <;> cases s' <;> rfl
  rw [apply_eq_mul s m, apply_eq_mul s' m', apply_eq_mul (s * s'), hsign]
  push_cast
  ring

/-- The sign and the size of an integer that is given by its sign. -/
theorem exists_size {s : Sign} {m : ℕ} {e n : ℤ} (hm : 0 < m) (h : (s.apply m : ℚ) * 2 ^ e = n) :
    ∃ k : ℕ, n = s.apply k ∧ 0 < k ∧ (m : ℚ) * 2 ^ e = k := by
  have hpos : (0 : ℚ) < m * 2 ^ e := by positivity
  cases s with
  | negative =>
    have hvalue : (m : ℚ) * 2 ^ e = ((-n : ℤ) : ℚ) := by
      push_cast
      rw [← h]
      simp [Sign.apply]
    have hneg : 0 < -n := by
      rw [hvalue] at hpos
      exact_mod_cast hpos
    obtain ⟨k, hk⟩ := Int.eq_ofNat_of_zero_le hneg.le
    refine ⟨k, ?_, by omega, ?_⟩
    · show n = -(k : ℤ)
      omega
    · rw [hvalue, hk]
      norm_cast
  | positive =>
    have hvalue : (m : ℚ) * 2 ^ e = n := h
    have hnonneg : 0 < n := by
      rw [hvalue] at hpos
      exact_mod_cast hpos
    obtain ⟨k, rfl⟩ := Int.eq_ofNat_of_zero_le hnonneg.le
    exact ⟨k, rfl, by omega, by exact_mod_cast hvalue⟩

theorem natAbs_apply (s : Sign) (k : ℕ) : (s.apply k).natAbs = k := by
  cases s
  · show (-(k : ℤ)).natAbs = k
    omega
  · rfl

/-- A small integer is rounded to itself. -/
theorem normal_round (s : Sign) {m : ℕ} {e n : ℤ} (hm : 0 < m) (hle : n.natAbs ≤ wholeLimit)
    (h : (s.apply m : ℚ) * 2 ^ e = n) : Normal (UnpackedFloat.round .binary64 s m e) n := by
  obtain ⟨k, rfl, hpos, hk⟩ := exists_size hm h
  rw [natAbs_apply] at hle
  obtain ⟨m', e', hlow, hhigh, hmin, hmax, hvalue⟩ := exists_significand hpos hle
  have hleast : minExponent ≤ e' := by
    have hbound : minExponent = -1074 := rfl
    omega
  rw [zpow_zero, mul_one] at hvalue
  have hsame := hk.trans hvalue
  rw [round_exact s hlow hhigh hleast hsame, ← h, apply_mul_congr s hsame]
  exact .finite s (by omega) hlow hhigh hleast (by omega)

/-- So it is if its sign comes with the significand. -/
theorem normal_normalize {m n : ℤ} {e : ℤ} (hle : n.natAbs ≤ wholeLimit) (h : (m : ℚ) * 2 ^ e = n) (s : Sign) :
    Normal (UnpackedFloat.normalize .binary64 m e s) n := by
  rcases lt_trichotomy m 0 with hm | rfl | hm
  · have hcompare : compare m 0 = .lt := compare_lt_iff_lt.mpr hm
    have hsign : Sign.negative.apply ((-m).toNat : ℤ) = m := by
      show -((-m).toNat : ℤ) = m
      omega
    rw [UnpackedFloat.normalize, hcompare]
    exact normal_round .negative (by omega) hle (by rw [hsign, h])
  · have hzero : n = 0 := by
      rw [Int.cast_zero, zero_mul] at h
      exact_mod_cast h.symm
    rw [hzero, Int.cast_zero]
    exact .zero s
  · have hcompare : compare m 0 = .gt := compare_gt_iff_gt.mpr hm
    have hsign : Sign.positive.apply (m.toNat : ℤ) = m := by
      show (m.toNat : ℤ) = m
      omega
    rw [UnpackedFloat.normalize, hcompare]
    exact normal_round .positive (by omega) hle (by rw [hsign, h])

/-! ## Operators on decoded doubles -/

section Operators

variable {u v : UnpackedFloat} {p q : ℚ} {n : ℤ}

theorem decreaseExponent_value (s : Sign) (m : ℕ) {e e' : ℤ} (hle : e' ≤ e) :
    (s.apply (decreaseExponent m e e').1 : ℚ) * 2 ^ e' = s.apply m * 2 ^ e := by
  apply apply_mul_congr
  have hsplit : e = e' + ((e - e').toNat : ℤ) := by omega
  rw [decreaseExponent, Nat.shiftLeft_eq]
  conv_rhs => rw [hsplit, zpow_add₀ two_ne_zero, zpow_natCast]
  push_cast
  ring

theorem Normal.neg (h : Normal u p) : Normal u.neg (-p) := by
  cases h with
  | zero s =>
    rw [neg_zero]
    exact .zero (-s)
  | @finite s m e hm hlow hhigh hmin hmax =>
    have hsign : -((s.apply m : ℚ) * 2 ^ e) = (-s).apply m * 2 ^ e := by
      cases s <;> simp [Sign.apply]
    rw [hsign]
    exact .finite (-s) hm hlow hhigh hmin hmax

theorem normal_add (hu : Normal u p) (hv : Normal v q) (hn : p + q = n) (hle : n.natAbs ≤ wholeLimit) :
    Normal (UnpackedFloat.add .binary64 u v) n := by
  rw [← hn]
  cases hu with
  | zero s =>
    rw [zero_add]
    cases hv with
    | zero s' =>
      rw [UnpackedFloat.add]
      split
      · exact .zero s
      · exact .zero .positive
    | finite s' hm' hlow' hhigh' hmin' hmax' => exact .finite s' hm' hlow' hhigh' hmin' hmax'
  | @finite s m e hm hlow hhigh hmin hmax =>
    cases hv with
    | zero s' =>
      rw [add_zero]
      exact .finite s hm hlow hhigh hmin hmax
    | @finite s' m' e' hm' hlow' hhigh' hmin' hmax' =>
      rw [hn]
      refine normal_normalize hle ?_ .positive
      rw [← hn]
      rw [Int.cast_add, add_mul]
      exact congrArg₂ (· + ·) (decreaseExponent_value s m (min_le_left e e'))
        (decreaseExponent_value s' m' (min_le_right e e'))

/-- A difference is the sum with the opposite. -/
theorem sub_eq_add_opposite (u v : UnpackedFloat) :
    UnpackedFloat.sub .binary64 u v = UnpackedFloat.add .binary64 u v.neg := by
  cases u with
  | finite s m e hm =>
    cases v with
    | finite s' m' e' hm' =>
      have hopposite (k : ℕ) : (-s').apply k = -s'.apply k := by
        cases s' <;> simp [Sign.apply]
      simp only [UnpackedFloat.sub, UnpackedFloat.add, UnpackedFloat.neg, hopposite]
      rw [sub_eq_add_neg]
    | zero | infinity | notANumber => rfl
  | zero | infinity | notANumber => cases v <;> rfl

theorem normal_sub (hu : Normal u p) (hv : Normal v q) (hn : p - q = n) (hle : n.natAbs ≤ wholeLimit) :
    Normal (UnpackedFloat.sub .binary64 u v) n := by
  rw [sub_eq_add_neg] at hn
  rw [sub_eq_add_opposite]
  exact normal_add hu hv.neg hn hle

/-- A significand of 53 bits or more is long enough to be rounded as it is. -/
theorem round_eq_roundWithAccuracy (s : Sign) {m : ℕ} {e : ℤ} (hlow : 2 ^ 52 ≤ m) :
    UnpackedFloat.round .binary64 s m e = roundWithAccuracy .binary64 s m e .exact := by
  have hlog : 52 ≤ m.log2 := (Nat.le_log2 (by omega)).mpr hlow
  have htarget : e ≤ Format.binary64.targetExponent (totalExponent m e) := by
    rw [targetExponent_eq]
    omega
  have hstay : (e - Format.binary64.targetExponent (totalExponent m e)).toNat = 0 := by omega
  simp only [UnpackedFloat.round, decreaseExponent, hstay, Nat.shiftLeft_zero, Nat.cast_zero, sub_zero]

theorem normal_mul (hu : Normal u p) (hv : Normal v q) (hn : p * q = n) (hle : n.natAbs ≤ wholeLimit) :
    Normal (UnpackedFloat.mul .binary64 u v) n := by
  rw [← hn]
  cases hu with
  | zero s =>
    rw [zero_mul]
    cases hv <;> exact .zero _
  | @finite s m e hm hlow hhigh hmin hmax =>
    cases hv with
    | zero s' =>
      rw [mul_zero]
      exact .zero _
    | @finite s' m' e' hm' hlow' hhigh' hmin' hmax' =>
      have hvalue : ((s * s').apply (m * m' : ℕ) : ℚ) * 2 ^ (e + e') = n := by
        rw [← hn, ← apply_mul_apply, zpow_add₀ two_ne_zero]
        push_cast
        ring
      have hlong : 2 ^ 52 ≤ m * m' := by nlinarith
      rw [hn, UnpackedFloat.mul, ← round_eq_roundWithAccuracy _ hlong]
      exact normal_round _ (by omega) hle hvalue

end Operators

/-! ## Doubles that hold a number -/

/-- A double with this value. -/
def Holds (x : Float) (q : ℚ) : Prop :=
  Normal (UnpackedFloat.unpack .binary64 x.toBits.toBitVec) q

/-- The integer part of a number that is an integer. -/
theorem truncated_finite (negative : Bool) {m k : ℕ} {e : ℤ} (hk : (m : ℚ) * 2 ^ e = k) :
    (finite negative m e).truncated = some (if negative then -(k : ℤ) else k) := by
  rw [← mul_one (k : ℚ), ← zpow_zero (2 : ℚ)] at hk
  have hsize : (if 0 ≤ e then m * Nat.pow 2 e.toNat else m / Nat.pow 2 (-e).toNat) = k := by
    split
    · next hle =>
      rw [eq_mul_two_pow hk.symm hle, sub_zero]
      rfl
    · next hlt =>
      rw [eq_mul_two_pow hk (by omega), zero_sub]
      exact Nat.mul_div_cancel _ (Nat.two_pow_pos _)
  rw [truncated]
  simp only [hsize]

theorem Normal.truncated_decoded {u : UnpackedFloat} {n : ℤ} (h : Normal u n) : (decoded u).truncated = some n := by
  obtain ⟨q, hq⟩ : ∃ q : ℚ, q = n := ⟨_, rfl⟩
  rw [← hq] at h
  cases h with
  | zero s =>
    obtain rfl : n = 0 := by exact_mod_cast hq.symm
    rw [decoded, @truncated_finite _ 0 0 minExponent (by simp)]
    cases s <;> rfl
  | @finite s m e hm hlow hhigh hmin hmax =>
    obtain ⟨k, rfl, -, hk⟩ := exists_size hm hq
    rw [decoded, truncated_finite _ hk, apply_eq_ite]

section Holds

variable {x y : Float} {p q : ℚ} {n : ℤ}

theorem Holds.value? (h : Holds x q) : (ofFloat x).value? = some q := by
  rw [ofFloat, ofBits_eq_decoded]
  exact Normal.value?_decoded h

theorem Holds.truncated (h : Holds x n) : (ofFloat x).truncated = some n := by
  rw [ofFloat, ofBits_eq_decoded]
  exact Normal.truncated_decoded h

theorem holds_add (hx : Holds x p) (hy : Holds y q) (hn : p + q = n) (hle : n.natAbs ≤ wholeLimit) :
    Holds (x + y) n := by
  have h := normal_add hx hy hn hle
  unfold Holds
  rw [← unpack_pack h] at h
  exact h

theorem holds_sub (hx : Holds x p) (hy : Holds y q) (hn : p - q = n) (hle : n.natAbs ≤ wholeLimit) :
    Holds (x - y) n := by
  have h := normal_sub hx hy hn hle
  rw [← unpack_pack h] at h
  exact h

theorem holds_mul (hx : Holds x p) (hy : Holds y q) (hn : p * q = n) (hle : n.natAbs ≤ wholeLimit) :
    Holds (x * y) n := by
  have h := normal_mul hx hy hn hle
  rw [← unpack_pack h] at h
  exact h

theorem holds_neg (hx : Holds x p) : Holds (-x) (-p) := by
  have h := Normal.neg hx
  rw [← unpack_pack h] at h
  exact h

end Holds

/-! ## The doubles of small numbers -/

theorem roundDiv_mul (q : ℕ) {den : ℕ} (hden : 0 < den) : roundDiv (q * den) den = q := by
  rw [roundDiv, Nat.mul_div_cancel _ hden, Nat.mul_mod_left]
  simp only [mul_zero]
  rw [if_neg (by omega)]

/-- The position of the first bit of a number with a significand of 53 bits. -/
theorem log2_of_significand {n m : ℕ} {e : ℤ} (hlow : 2 ^ 52 ≤ m) (hhigh : m < 2 ^ 53)
    (h : (n : ℚ) * 2 ^ (0 : ℤ) = m * 2 ^ e) : n ≠ 0 ∧ (n.log2 : ℤ) = 52 + e := by
  have hlog := log2_significand hlow hhigh
  rcases le_total 0 e with hle | hle
  · have hn := eq_mul_two_pow h hle
    have hm : m ≠ 0 := by omega
    refine ⟨?_, ?_⟩
    · rw [hn]
      exact mul_ne_zero hm (by positivity)
    · rw [hn, log2_mul_two_pow hm, hlog]
      omega
  · have hm := eq_mul_two_pow h.symm hle
    have hn : n ≠ 0 := by
      rintro rfl
      omega
    rw [hm, log2_mul_two_pow hn] at hlog
    exact ⟨hn, by omega⟩

section Significand

variable {n m : ℕ} {e : ℤ} (hlow : 2 ^ 52 ≤ m) (hhigh : m < 2 ^ 53) (hmin : -52 ≤ e)
  (h : (n : ℚ) * 2 ^ (0 : ℤ) = m * 2 ^ e)
include hlow hhigh hmin h

theorem unitExponent_one : unitExponent n 1 = e := by
  obtain ⟨hn, hlog⟩ := log2_of_significand hlow hhigh h
  have hone : (Nat.log2 1 : ℤ) = 0 := rfl
  have hleast : minExponent = -1074 := rfl
  have hnotBelow : ¬n < 1 * Nat.pow 2 n.log2 := by
    rw [one_mul]
    exact Nat.not_lt.mpr (Nat.log2_self_le hn)
  rw [unitExponent]
  simp only [hone, sub_zero, Int.natCast_nonneg, if_true, Int.toNat_natCast, hnotBelow, if_false]
  omega

/-- No bit is lost, and so there is nothing to round. -/
theorem nearestBits_one : nearestBits n 1 = (e + 1074).toNat * 2 ^ 52 + m := by
  obtain ⟨hn, -⟩ := log2_of_significand hlow hhigh h
  have hrounded : (if 0 ≤ e then roundDiv n (1 * Nat.pow 2 e.toNat)
      else roundDiv (n * Nat.pow 2 (-e).toNat) 1) = m := by
    split
    · next hle =>
      rw [eq_mul_two_pow h hle, sub_zero, one_mul]
      exact roundDiv_mul m (Nat.two_pow_pos _)
    · next hlt =>
      have hm := eq_mul_two_pow h.symm (by omega)
      have hround := roundDiv_mul m one_pos
      rw [zero_sub] at hm
      rw [mul_one] at hround
      rwa [hm] at hround ⊢
  rw [nearestBits, if_neg hn]
  simp only [unitExponent_one hlow hhigh hmin h, hrounded]
  rfl

end Significand

/-- The bits of a double in normal form. -/
theorem ofBits_normal {biased m : ℕ} (hbiased : biased < 2 ^ 11 - 2) (hlow : 2 ^ 52 ≤ m) (hhigh : m < 2 ^ 53) :
    ofBits (biased * 2 ^ 52 + m).toUInt64 = finite false m ((biased : ℤ) - 1074) := by
  obtain ⟨n, hn⟩ : ∃ n, biased * 2 ^ 52 + m = n := ⟨_, rfl⟩
  have hrange : n < 2 ^ 64 := by omega
  have hbits : n.toUInt64.toNat = n := Nat.mod_eq_of_lt hrange
  have hexponent : n / Nat.pow 2 52 % Nat.pow 2 11 = biased + 1 := by
    show n / 2 ^ 52 % 2 ^ 11 = biased + 1
    omega
  have hsign : decide (Nat.pow 2 63 ≤ n) = false := by
    apply decide_eq_false
    show ¬2 ^ 63 ≤ n
    omega
  have hwhole : Nat.pow 2 52 + n % Nat.pow 2 52 = m := by
    show 2 ^ 52 + n % 2 ^ 52 = m
    omega
  rw [hn]
  unfold ofBits
  simp only [hbits]
  rw [hexponent, hsign, hwhole, if_neg (by omega), if_neg (by omega)]
  congr 1
  omega

/-- A small number has a double that holds it. -/
theorem holds_ofNat? {k : ℕ} (hle : k ≤ wholeLimit) : ∃ x, ofNat? k = some x ∧ Holds x k := by
  rcases Nat.eq_zero_or_pos k with rfl | hpos
  · refine ⟨Float.ofBits 0, rfl, ?_⟩
    rw [Nat.cast_zero]
    exact .zero .positive
  · -- The bits are those of the normal form, and decoding them gives it back.
    obtain ⟨m, e, hlow, hhigh, hmin, hmax, hvalue⟩ := exists_significand hpos hle
    obtain ⟨biased, hbiased⟩ : ∃ biased : ℕ, (e + 1074).toNat = biased := ⟨_, rfl⟩
    have hbits := nearestBits_one hlow hhigh hmin hvalue
    rw [hbiased] at hbits
    have hsmall : nearestBits k 1 < infinityBits := by
      rw [hbits]
      show biased * 2 ^ 52 + m < 0x7FF * 2 ^ 52
      omega
    have hdecoded := @ofBits_normal biased m (by omega) hlow hhigh
    rw [ofBits_eq_decoded, show (biased : ℤ) - 1074 = e by omega] at hdecoded
    have hleast : minExponent = -1074 := rfl
    have hnormal := normal_of_decoded hdecoded hlow hhigh (by omega) (by omega)
    rw [← hvalue, zpow_zero, mul_one, ← unpack_pack hnormal, ← hbits] at hnormal
    refine ⟨Float.ofBits (nearestBits k 1).toUInt64, ?_, hnormal⟩
    rw [ofNat?]
    exact if_pos hsmall

end Abacus.Binary64
