import Abacus.Proofs.Binary64.Finite
import Mathlib

/-!
# Doubles in normal form

A decoded double in normal form is zero or has a significand of 53 bits. It is encoded without a loss, and rounding
gives it back from whatever significand and exponent its value comes with.

Results:
* `ofBits_eq_decoded`: the decoding of this library against that of the float model.
* `unpack_pack`: a normal form is decoded as it was encoded.
* `round_exact`: rounding leaves a number alone that has a double in normal form.
-/

namespace Abacus.Binary64

open Float.Model UnpackedFloat

/-! ## Decoding -/

theorem toNat_unpackMantissa (bits : BitVec Format.binary64.numBits) :
    (unpackMantissa bits).toNat = bits.toNat % Nat.pow 2 52 := by
  simp [unpackMantissa, Format.binary64]

/-- The sign of a decoded double. -/
def isMinus : Sign → Bool
  | .negative => true
  | .positive => false

theorem isMinus_unpackSign (bits : BitVec Format.binary64.numBits) :
    isMinus (Sign.ofBitVec (unpackSign bits)) = decide (Nat.pow 2 63 ≤ bits.toNat) := by
  have hsign : (unpackSign bits).toNat = bits.toNat / 2 ^ 63 % 2 := by
    simp [unpackSign, Nat.shiftRight_eq_div_pow, Format.binary64]
  have hrange : bits.toNat < 2 ^ 64 := bits.isLt
  have hpow : Nat.pow 2 63 = 2 ^ 63 := rfl
  rw [hpow, Sign.ofBitVec]
  split
  · next h =>
    rw [h] at hsign
    have hnone : (0#1).toNat = 0 := rfl
    symm
    apply decide_eq_false
    omega
  · next h =>
    have hsome : (unpackSign bits).toNat ≠ 0 := by
      intro hzero
      exact h (BitVec.eq_of_toNat_eq hzero)
    symm
    apply decide_eq_true
    omega

/-- A decoded double in the terms of this library. -/
def decoded : UnpackedFloat → Binary64
  | .zero s => finite (isMinus s) 0 minExponent
  | .finite s m e _ => finite (isMinus s) m e
  | .infinity s => infinite (isMinus s)
  | .notANumber => nan

section Fields

variable (bits : BitVec Format.binary64.numBits)

theorem unpackExponent_eq_neg_one_iff :
    unpackExponent bits = -1#_ ↔ bits.toNat / Nat.pow 2 52 % Nat.pow 2 11 = 0x7FF := by
  rw [← toNat_unpackExponent, ← BitVec.toNat_inj]
  rfl

theorem unpackExponent_eq_zero_iff :
    unpackExponent bits = 0#_ ↔ bits.toNat / Nat.pow 2 52 % Nat.pow 2 11 = 0 := by
  rw [← toNat_unpackExponent, ← BitVec.toNat_inj]
  rfl

theorem unpackMantissa_eq_zero_iff : unpackMantissa bits = 0#_ ↔ bits.toNat % Nat.pow 2 52 = 0 := by
  rw [← toNat_unpackMantissa, ← BitVec.toNat_inj]
  rfl

end Fields

/-- Both decodings agree. -/
theorem ofBits_eq_decoded (bits : UInt64) : ofBits bits = decoded (UnpackedFloat.unpack .binary64 bits.toBitVec) := by
  have hbias : (Format.binary64.exponentBias : ℤ) = 1023 := rfl
  have hwidth : (Format.binary64.mantissaBitsWithoutImplicit : ℤ) = 52 := rfl
  have hsign := isMinus_unpackSign bits.toBitVec
  have hexponent := toNat_unpackExponent bits.toBitVec
  have hmantissa := toNat_unpackMantissa bits.toBitVec
  have hall := unpackExponent_eq_neg_one_iff bits.toBitVec
  have hnone := unpackExponent_eq_zero_iff bits.toBitVec
  have hzero := unpackMantissa_eq_zero_iff bits.toBitVec
  rw [UInt64.toNat_toBitVec] at hsign hexponent hmantissa hall hnone hzero
  unfold ofBits
  simp only [← hsign]
  split
  · next h =>
    rw [UnpackedFloat.unpack, if_pos (hall.mpr h)]
    split
    · next h' =>
      rw [if_pos (hzero.mpr h')]
      rfl
    · next h' =>
      rw [if_neg (mt hzero.mp h')]
      rfl
  · next h =>
    rw [UnpackedFloat.unpack, if_neg (mt hall.mp h)]
    split
    · next hsub =>
      rw [if_pos (hnone.mpr hsub)]
      split
      · next h' =>
        rw [decoded, hzero.mp h']
      · rw [decoded, hmantissa, hexponent, hsub, hbias, hwidth]
        rfl
    · next hnormal =>
      rw [if_neg (mt hnone.mp hnormal), decoded, BitVec.toNat_append,
        ← Nat.shiftLeft_add_eq_or_of_lt (BitVec.isLt _), hmantissa, hexponent, hbias, hwidth]
      rfl

/-! ## Normal forms -/

/-- A decoded double in normal form, and its value. -/
inductive Normal : UnpackedFloat → ℚ → Prop
  | zero (s : Sign) : Normal (.zero s) 0
  | finite (s : Sign) {m : ℕ} {e : ℤ} (hm : 0 < m) (hlow : 2 ^ 52 ≤ m) (hhigh : m < 2 ^ 53) (hmin : minExponent ≤ e)
    (hmax : e ≤ 971) : Normal (.finite s m e hm) (s.apply m * 2 ^ e)

theorem log2_significand {m : ℕ} (hlow : 2 ^ 52 ≤ m) (hhigh : m < 2 ^ 53) : m.log2 = 52 :=
  (Nat.log2_eq_iff (by omega)).mpr ⟨hlow, hhigh⟩

/-- The significand without its leading bit, and with the bit put back. -/
theorem toNat_append_significand {m : ℕ} (hlow : 2 ^ 52 ≤ m) (hhigh : m < 2 ^ 53) :
    (1#1 ++ BitVec.ofNat 52 m).toNat = m := by
  rw [BitVec.toNat_append, ← Nat.shiftLeft_add_eq_or_of_lt (BitVec.isLt _), BitVec.toNat_ofNat]
  simp only [BitVec.toNat_ofNat, Nat.shiftLeft_eq]
  omega

section Encoding

variable (s : Sign) {m biased : ℕ} (hm : 0 < m) (hlow : 2 ^ 52 ≤ m) (hhigh : m < 2 ^ 53) (hbiased : biased < 2 ^ 11 - 1)
include hlow hhigh hbiased

theorem pack_finite {e : ℤ} (he : e + 1075 = biased) :
    UnpackedFloat.pack .binary64 (.finite s m e hm) =
      packComponents .binary64 s (BitVec.ofNat 11 biased) (BitVec.ofNat 52 m) := by
  have hcode : (e + 1023 + 52).toNat = biased := by omega
  have hbits : m.log2 + 1 = Format.binary64.mantissaBits := by
    rw [log2_significand hlow hhigh]
    rfl
  rw [pack_of_le (by omega), if_pos hbits, hcode]

theorem unpack_packComponents (hpos : 0 < biased) :
    UnpackedFloat.unpack .binary64 (packComponents .binary64 s (BitVec.ofNat 11 biased) (BitVec.ofNat 52 m)) =
      .finite s m ((biased : ℤ) - 1075) hm := by
  have hcode : (BitVec.ofNat 11 biased).toNat = biased := by
    rw [BitVec.toNat_ofNat]
    omega
  have hnotAll : BitVec.ofNat 11 biased ≠ -1#_ := by
    intro heq
    have htop : (BitVec.ofNat 11 biased).toNat = 2 ^ 11 - 1 := congrArg BitVec.toNat heq
    omega
  have hnotNone : BitVec.ofNat 11 biased ≠ 0#_ := by
    intro heq
    have hbottom : (BitVec.ofNat 11 biased).toNat = 0 := congrArg BitVec.toNat heq
    omega
  rw [UnpackedFloat.unpack]
  simp only [unpackExponent_packComponents, unpackMantissa_packComponents, unpackSign_packComponents,
    Sign.ofBitVec_toBitVec, if_neg hnotAll, if_neg hnotNone, hcode, toNat_append_significand hlow hhigh]
  rfl

end Encoding

/-- A normal form is decoded as it was encoded. -/
theorem unpack_pack {u : UnpackedFloat} {q : ℚ} (h : Normal u q) :
    UnpackedFloat.unpack .binary64 (UnpackedFloat.pack .binary64 u) = u := by
  cases h with
  | zero s => exact unpack_packedZero
  | @finite s m e hm hlow hhigh hmin hmax =>
    have hleast : minExponent = -1074 := rfl
    obtain ⟨biased, hbiased⟩ : ∃ biased : ℕ, e + 1075 = biased := ⟨(e + 1075).toNat, by omega⟩
    rw [pack_finite s hm hlow hhigh (by omega) hbiased, unpack_packComponents s hm hlow hhigh (by omega) (by omega)]
    congr 1
    omega

/-- The value of a finite number. -/
def value? : Binary64 → Option ℚ
  | finite negative m e => some ((if negative then -(m : ℚ) else m) * 2 ^ e)
  | _ => none

theorem apply_eq_ite (s : Sign) (m : ℕ) : s.apply m = if isMinus s then -(m : ℤ) else m := by
  cases s <;> rfl

theorem Normal.value?_decoded {u : UnpackedFloat} {q : ℚ} (h : Normal u q) : (decoded u).value? = some q := by
  cases h with
  | zero s =>
    rw [decoded, value?]
    simp
  | finite s hm hlow hhigh hmin hmax =>
    rw [decoded, value?, apply_eq_ite]
    push_cast
    rfl

theorem normal_of_decoded {u : UnpackedFloat} {m : ℕ} {e : ℤ} (h : decoded u = finite false m e) (hlow : 2 ^ 52 ≤ m)
    (hhigh : m < 2 ^ 53) (hmin : minExponent ≤ e) (hmax : e ≤ 971) : Normal u (m * 2 ^ e) := by
  cases u with
  | zero s =>
    injection h with _ hm _
    omega
  | finite s m' e' hm' =>
    injection h with hs hm he
    subst hm he
    cases s with
    | positive => exact .finite .positive hm' hlow hhigh hmin hmax
    | negative => cases hs
  | infinity s => cases h
  | notANumber => cases h

/-! ## Rounding -/

/-- Dropping zeros at the end of a significand leaves no rest. -/
theorem shiftRight_mul_two_pow (m d : ℕ) :
    (⟨m * 2 ^ d, false, false⟩ : ExtendedMantissa) >>> d = ⟨m, false, false⟩ := by
  induction d generalizing m with
  | zero =>
    rw [pow_zero, mul_one]
    rfl
  | succ d ih =>
    have hstep : (⟨m * 2 ^ (d + 1), false, false⟩ : ExtendedMantissa) >>> (d + 1) =
        ((⟨m * 2 * 2 ^ d, false, false⟩ : ExtendedMantissa) >>> d).shiftRightOne := by
      rw [pow_succ', ← mul_assoc]
      rfl
    rw [hstep, ih, ExtendedMantissa.shiftRightOne]
    simp

theorem log2_mul_two_pow {m : ℕ} (hm : m ≠ 0) (d : ℕ) : (m * 2 ^ d).log2 = m.log2 + d := by
  induction d with
  | zero => rw [pow_zero, mul_one, Nat.add_zero]
  | succ d ih =>
    have hne : m * 2 ^ d ≠ 0 := mul_ne_zero hm (by positivity)
    rw [pow_succ, ← mul_assoc, mul_comm, Nat.log2_two_mul hne, ih, Nat.add_assoc]

/-- The exponent at which a significand with a given number of bits has 53. -/
theorem targetExponent_eq (m : ℕ) (e : ℤ) :
    Format.binary64.targetExponent (totalExponent m e) = max (m.log2 + 1 + e - 53) minExponent := rfl

theorem shiftToTargetExponent_eq {m d : ℕ} {e : ℤ} (hlow : 2 ^ 52 ≤ m) (hhigh : m < 2 ^ 53)
    (hmin : minExponent ≤ e + d) :
    shiftToTargetExponent .binary64 (m * 2 ^ d) e .exact = (⟨m, false, false⟩, e + d) := by
  have htarget : Format.binary64.targetExponent (totalExponent (m * 2 ^ d) e) = e + d := by
    rw [targetExponent_eq, log2_mul_two_pow (by omega), log2_significand hlow hhigh]
    push_cast
    rw [max_eq_left (by omega)]
    omega
  have hshift : (e + d - e).toNat = d := by omega
  rw [shiftToTargetExponent, htarget, shiftToExponent]
  simp only [hshift, ExtendedMantissa.ofMantissaAndAccuracy, shiftRight_mul_two_pow]

/-- Rounding drops zeros at the end of a significand, and nothing else. -/
theorem roundWithAccuracy_exact (s : Sign) {m d : ℕ} {e : ℤ} (hlow : 2 ^ 52 ≤ m) (hhigh : m < 2 ^ 53)
    (hmin : minExponent ≤ e + d) :
    roundWithAccuracy .binary64 s (m * 2 ^ d) e .exact = .finite s m (e + d) (by omega) := by
  have hagain := @shiftToTargetExponent_eq m 0 (e + d) hlow hhigh (by simpa using hmin)
  rw [pow_zero, mul_one] at hagain
  have hrounded : (⟨m, false, false⟩ : ExtendedMantissa).roundedMantissa = m := rfl
  have hpos : m ≠ 0 := by omega
  simp only [roundWithAccuracy, shiftToTargetExponent_eq hlow hhigh hmin, hrounded, hagain, dif_neg hpos]
  simp

/-- Two ways to write a number, the first one with the smaller exponent. -/
theorem eq_mul_two_pow {m m' : ℕ} {e e' : ℤ} (h : (m : ℚ) * 2 ^ e = m' * 2 ^ e') (hle : e ≤ e') :
    m = m' * 2 ^ (e' - e).toNat := by
  have hsplit : e' = e + ((e' - e).toNat : ℤ) := by omega
  have hpow : (2 : ℚ) ^ e ≠ 0 := zpow_ne_zero e two_ne_zero
  rw [hsplit, zpow_add₀ two_ne_zero, zpow_natCast, mul_comm ((2 : ℚ) ^ e), ← mul_assoc] at h
  have hcast := mul_right_cancel₀ hpow h
  exact_mod_cast hcast

/-- Rounding leaves a number alone that has a double. -/
theorem round_exact (s : Sign) {m m' : ℕ} {e e' : ℤ} (hlow : 2 ^ 52 ≤ m') (hhigh : m' < 2 ^ 53)
    (hmin : minExponent ≤ e') (h : (m : ℚ) * 2 ^ e = m' * 2 ^ e') :
    UnpackedFloat.round .binary64 s m e = .finite s m' e' (by omega) := by
  have hlog := log2_significand hlow hhigh
  rcases le_total e e' with hle | hle
  · -- The significand is too long, and it ends in zeros.
    obtain ⟨d, hd⟩ : ∃ d : ℕ, e' = e + d := ⟨(e' - e).toNat, by omega⟩
    have hm : m = m' * 2 ^ d := by
      have hm := eq_mul_two_pow h hle
      rwa [show (e' - e).toNat = d by omega] at hm
    have htarget : Format.binary64.targetExponent (totalExponent m e) = e' := by
      rw [targetExponent_eq, hm, log2_mul_two_pow (by omega), hlog]
      push_cast
      rw [max_eq_left (by omega)]
      omega
    have hstay : (e - e').toNat = 0 := by omega
    simp only [UnpackedFloat.round, htarget, decreaseExponent, hstay, Nat.shiftLeft_zero, Nat.cast_zero, sub_zero]
    rw [hm, roundWithAccuracy_exact s hlow hhigh (by omega)]
    simp only [hd]
  · -- The significand is too short, and zeros are put behind it.
    obtain ⟨d, hd⟩ : ∃ d : ℕ, e = e' + d := ⟨(e - e').toNat, by omega⟩
    have hm : m' = m * 2 ^ d := by
      have hm := eq_mul_two_pow h.symm hle
      rwa [show (e - e').toNat = d by omega] at hm
    have hne : m ≠ 0 := by
      rintro rfl
      omega
    have htarget : Format.binary64.targetExponent (totalExponent m e) = e' := by
      rw [hm, log2_mul_two_pow hne] at hlog
      rw [targetExponent_eq, max_eq_left (by omega)]
      omega
    have hmove : (e - e').toNat = d := by omega
    have hback : e - (d : ℤ) = e' := by omega
    have hexact := @roundWithAccuracy_exact s m' 0 e' hlow hhigh (by simpa using hmin)
    rw [pow_zero, mul_one] at hexact
    simp only [UnpackedFloat.round, htarget, decreaseExponent, hmove, hback, Nat.shiftLeft_eq, ← hm, hexact]
    simp

end Abacus.Binary64
