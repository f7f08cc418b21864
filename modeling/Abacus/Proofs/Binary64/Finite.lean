import Abacus.Binary64.Basic
import Mathlib.Algebra.Group.Nat.Defs

/-!
# Finite doubles

A double is finite unless all bits of its exponent are set. Negation keeps the exponent, and the double of a
number that is small enough has a smaller one, so both are finite. The significand of a finite
double has 53 bits and its unit is at most `2 ^ 971`, which bounds its integer part.

Results:
* `isFinite_ofFloat_iff`: what is finite, by the bits of the exponent.
* `isFinite_neg`, `isFinite_of_ofNat?`: the negation of a finite double, and the double of a number.
* `truncated_of_isFinite`: a finite double has an integer part, of at most `integerBits` bits.
-/

namespace Abacus.Binary64

open Float.Model UnpackedFloat

/-! ## Exponents -/

/-- Not all bits of the exponent are set. -/
def FiniteBits (bits : BitVec Format.binary64.numBits) : Prop :=
  unpackExponent bits ≠ -1#_

theorem toNat_unpackExponent (bits : BitVec Format.binary64.numBits) :
    (unpackExponent bits).toNat = bits.toNat / Nat.pow 2 52 % Nat.pow 2 11 := by
  simp [unpackExponent, Nat.shiftRight_eq_div_pow, Format.binary64]

theorem finiteBits_iff {bits : BitVec Format.binary64.numBits} :
    FiniteBits bits ↔ (unpackExponent bits).toNat ≠ 0x7FF := by
  rw [FiniteBits, Ne, ← BitVec.toNat_inj]
  rfl

theorem isFinite_ofFloat_iff {x : Float} :
    (ofFloat x).isFinite = true ↔ FiniteBits x.toBits.toBitVec := by
  rw [finiteBits_iff, toNat_unpackExponent, ofFloat, ofBits]
  simp only [UInt64.toNat_toBitVec]
  split
  · next h => split <;> simp [isFinite, h]
  · next h =>
    refine iff_of_true ?_ h
    split <;> rfl

/-! ## What keeps a double finite -/

/-- A decoded double that is finite and whose exponent fits. -/
def Fits : UnpackedFloat → Prop
  | .zero _ => True
  | .finite _ _ e _ => e ≤ 971
  | _ => False

theorem fits_unpack {bits : BitVec Format.binary64.numBits} (h : FiniteBits bits) :
    Fits (UnpackedFloat.unpack .binary64 bits) := by
  have hexponent := finiteBits_iff.mp h
  have hbound : (unpackExponent bits).toNat < 2 ^ 11 := (unpackExponent bits).isLt
  have hbias : Format.binary64.exponentBias = 1023 := rfl
  have hfraction : Format.binary64.mantissaBitsWithoutImplicit = 52 := rfl
  change Fits (if unpackExponent bits = -1#_ then _ else if unpackExponent bits = 0#_ then
    if hzero : unpackMantissa bits = 0#_ then .zero _ else .finite _ _ _ _ else .finite _ _ _ _)
  rw [if_neg h]
  by_cases hnone : unpackExponent bits = 0#_
  · have hcode : (unpackExponent bits).toNat = 0 := congrArg BitVec.toNat hnone
    rw [if_pos hnone]
    by_cases hzero : unpackMantissa bits = 0#_
    · rw [dif_pos hzero]
      trivial
    · rw [dif_neg hzero]
      change _ + 1 ≤ (971 : Int)
      omega
  · rw [if_neg hnone]
    change _ ≤ (971 : Int)
    omega

theorem Fits.neg {u : UnpackedFloat} (h : Fits u) : Fits u.neg := by
  cases u <;> exact h

/-- The bits of a finite double whose exponent is small enough. -/
theorem pack_of_small {spec : Format} {s : Sign} {m : Nat} {e : Int} {hm : 0 < m}
    (hsmall : ¬2 ^ spec.exponentBits ≤ (e + spec.exponentBias + spec.mantissaBitsWithoutImplicit).toNat + 1) :
    pack spec (.finite s m e hm) =
      if m.log2 + 1 = spec.mantissaBits then
        packComponents spec s (.ofNat _ (e + spec.exponentBias + spec.mantissaBitsWithoutImplicit).toNat) (.ofNat _ m)
      else packComponents spec s 0 (.ofNat _ m) :=
  if_neg hsmall

theorem pack_of_le {s : Sign} {m : Nat} {e : Int} {hm : 0 < m} (he : e ≤ 971) :
    pack .binary64 (.finite s m e hm) =
      if m.log2 + 1 = Format.binary64.mantissaBits then
        packComponents .binary64 s (.ofNat _ (e + 1023 + 52).toNat) (.ofNat _ m)
      else packComponents .binary64 s 0 (.ofNat _ m) := by
  have hsmall : ¬2 ^ Format.binary64.exponentBits ≤
      (e + Format.binary64.exponentBias + Format.binary64.mantissaBitsWithoutImplicit).toNat + 1 := by
    change ¬2 ^ 11 ≤ (e + 1023 + 52).toNat + 1
    omega
  exact pack_of_small hsmall

theorem Fits.finiteBits {u : UnpackedFloat} (h : Fits u) :
    FiniteBits (UnpackedFloat.pack .binary64 u) := by
  have hzero : (0#11) ≠ -1#_ := by decide
  cases u with
  | zero s =>
    change FiniteBits (packComponents .binary64 s 0 0)
    rw [FiniteBits, unpackExponent_packComponents]
    exact hzero
  | finite s m e hm =>
    have hexponent : e ≤ 971 := h
    rw [pack_of_le hexponent, FiniteBits]
    split
    · rw [unpackExponent_packComponents]
      intro heq
      have hall : (e + 1023 + 52).toNat % 2 ^ 11 = 2 ^ 11 - 1 := congrArg BitVec.toNat heq
      omega
    · rw [unpackExponent_packComponents]
      exact hzero
  | infinity s => exact h.elim
  | notANumber => exact h.elim

theorem isFinite_neg {x : Float} (h : (ofFloat x).isFinite = true) : (ofFloat (-x)).isFinite = true := by
  rw [isFinite_ofFloat_iff] at h ⊢
  exact (fits_unpack h).neg.finiteBits

theorem isFinite_float_ofBits {bits : UInt64} (h : FiniteBits bits.toBitVec) :
    (ofFloat (Float.ofBits bits)).isFinite = true := by
  rw [isFinite_ofFloat_iff]
  exact (fits_unpack h).finiteBits

theorem isFinite_of_ofNat? {n : Nat} {x : Float} (h : ofNat? n = some x) : (ofFloat x).isFinite = true := by
  rw [ofNat?] at h
  obtain ⟨hsmall, hx⟩ : nearestBits n 1 < infinityBits ∧
      Float.ofBits (nearestBits n 1).toUInt64 = x := by simpa using h
  have hbits : (nearestBits n 1).toUInt64.toNat = nearestBits n 1 :=
    Nat.mod_eq_of_lt (Nat.lt_trans hsmall (by decide))
  rw [← hx]
  refine isFinite_float_ofBits (finiteBits_iff.mpr ?_)
  rw [toNat_unpackExponent, UInt64.toNat_toBitVec, hbits]
  have hlt : nearestBits n 1 / Nat.pow 2 52 < 0x7FF := Nat.div_lt_of_lt_mul (Nat.mul_comm .. ▸ hsmall)
  rw [Nat.mod_eq_of_lt (Nat.lt_trans hlt (by decide))]
  exact Nat.ne_of_lt hlt

/-! ## Integer parts -/

/-- The number of bits that the integer part of a finite double may have. -/
def integerBits : Nat := 53 + 971

/-- A decoded double has a significand of 53 bits, and its exponent is at most 971. -/
theorem bounds_of_ofBits {bits : UInt64} {negative : Bool} {m : Nat} {e : Int}
    (h : ofBits bits = .finite negative m e) : m < 2 ^ 53 ∧ e ≤ 971 := by
  have hfraction : bits.toNat % Nat.pow 2 52 < 2 ^ 52 := Nat.mod_lt _ (by decide)
  have hbiased : bits.toNat / Nat.pow 2 52 % Nat.pow 2 11 < 2 ^ 11 := Nat.mod_lt _ (by decide)
  have hone : Nat.pow 2 52 = 2 ^ 52 := rfl
  unfold ofBits at h
  simp only at h
  split at h
  · split at h <;> cases h
  · split at h
    · cases h
      exact ⟨by omega, by decide⟩
    · cases h
      exact ⟨by omega, by omega⟩

/-- The significand and its unit have `bits` bits together, and the significand alone has no more. -/
theorem natAbs_truncated_lt {negative : Bool} {m bits : Nat} {e : Int} (hm : m < 2 ^ 53) (hbits : 53 ≤ bits)
    (he : e + 53 ≤ bits) :
    ∃ n : Int, (finite negative m e).truncated = some n ∧ n.natAbs < 2 ^ bits := by
  refine ⟨_, rfl, ?_⟩
  have hpow {k : Nat} (h : k ≤ bits) : 2 ^ k ≤ 2 ^ bits := Nat.pow_le_pow_right (by decide) h
  have hmagnitude : (if 0 ≤ e then m * Nat.pow 2 e.toNat else m / Nat.pow 2 (-e).toNat) < 2 ^ bits := by
    split
    · next hle =>
      have hunit : 53 + e.toNat ≤ bits := by omega
      calc m * 2 ^ e.toNat < 2 ^ 53 * 2 ^ e.toNat := Nat.mul_lt_mul_of_pos_right hm (Nat.two_pow_pos _)
        _ = 2 ^ (53 + e.toNat) := (Nat.pow_add 2 53 e.toNat).symm
        _ ≤ 2 ^ bits := hpow hunit
    · have hquotient : m / Nat.pow 2 (-e).toNat ≤ m := Nat.div_le_self _ _
      exact Nat.lt_of_lt_of_le (Nat.lt_of_le_of_lt hquotient hm) (hpow hbits)
  cases negative with
  | false => exact hmagnitude
  | true =>
    apply lt_of_eq_of_lt _ hmagnitude
    exact Int.natAbs_neg _

/-- A finite double has an integer part, which is not too long. -/
theorem truncated_of_isFinite {x : Float} (h : (ofFloat x).isFinite = true) :
    ∃ n : Int, (ofFloat x).truncated = some n ∧ n.natAbs < 2 ^ integerBits := by
  cases hx : ofFloat x with
  | finite negative m e =>
    obtain ⟨hm, he⟩ := bounds_of_ofBits hx
    have hunit : e + 53 ≤ (integerBits : Int) := Int.add_le_of_le_sub_right he
    exact natAbs_truncated_lt hm (by decide) hunit
  | infinite negative =>
    rw [hx] at h
    cases h
  | nan =>
    rw [hx] at h
    cases h

theorem isFinite_of_truncated {x : Binary64} {n : Int} (h : x.truncated = some n) : x.isFinite = true := by
  cases x with
  | finite negative m e => rfl
  | infinite negative => cases h
  | nan => cases h

end Abacus.Binary64
