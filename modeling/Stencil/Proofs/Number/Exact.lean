import Mathlib
import Stencil.Number.Binary

/-! # What doubles are worth

The format of doubles says what a bit pattern is worth: a sign, a mantissa and a power of two
(`exactValue?`).  `Parts.ofFloat` takes a double apart by dividing its bit pattern as a natural
number, and finds the same sign, mantissa and exponent (`Parts.ofFloat_eq`).

So the operations on the parts are about the exact value: it is an integer if and only if
`isInteger` says so, and then `truncate` is that integer (`exactValue?_eq_integer_iff`); its sign is
the one that a comparison with zero finds (`lt_zero_iff`).
-/
namespace Stencil.Number
open Float.Model (UnpackedFloat Format)
open Float.Model.UnpackedFloat (Sign unpackMantissa unpackMantissa_def unpackExponent
  unpackExponent_def unpackSign unpackSign_def)

/-- What a double is worth; infinities and what is no number are worth nothing. -/
def exactValue? (x : Float) : Option ℚ :=
  match x.toModel.unpack with
  | .notANumber | .infinity _ => none
  | .zero _ => some 0
  | .finite .positive m e _ => some (m * 2 ^ e)
  | .finite .negative m e _ => some (-(m * 2 ^ e))

/-- The parts of a double that was taken apart by the rules of its format. -/
def Parts.ofUnpacked : UnpackedFloat → Parts
  | .notANumber => .nan
  | .infinity s => .infinite (s == .negative)
  | .zero s => .finite (s == .negative) 0 (-1074)
  | .finite s m e _ => .finite (s == .negative) m e

/-! ## Fields of a bit pattern -/

section Fields
variable (b : BitVec 64)

theorem toNat_unpackMantissa : (@unpackMantissa .binary64 b).toNat = b.toNat % 2 ^ 52 := by
  rw [unpackMantissa_def, BitVec.extractLsb'_toNat, Nat.shiftRight_zero]

theorem toNat_unpackExponent :
    (@unpackExponent .binary64 b).toNat = b.toNat / 2 ^ 52 % 2 ^ 11 := by
  rw [unpackExponent_def, BitVec.extractLsb'_toNat, Nat.shiftRight_eq_div_pow]

theorem toNat_unpackSign : (@unpackSign .binary64 b).toNat = b.toNat / 2 ^ 63 := by
  have hlt : b.toNat / 2 ^ 63 < 2 ^ 1 := Nat.div_lt_of_lt_mul b.isLt
  rw [unpackSign_def, BitVec.extractLsb'_toNat, Nat.shiftRight_eq_div_pow]
  exact Nat.mod_eq_of_lt hlt

theorem ofBitVec_unpackSign_eq_negative :
    (Sign.ofBitVec (@unpackSign .binary64 b) == .negative) = (b.toNat / 2 ^ 63 == 1) := by
  have hflag : ∀ v : BitVec 1, (Sign.ofBitVec v == .negative) = (v.toNat == 1) := by decide
  rw [hflag, toNat_unpackSign]

/-- The leading bit that a bit pattern leaves out. -/
theorem toNat_implicit (m : BitVec 52) : (1#1 ++ m).toNat = 2 ^ 52 + m.toNat := by
  rw [BitVec.toNat_append, BitVec.toNat_ofNat, ← Nat.shiftLeft_add_eq_or_of_lt m.isLt]
  rfl

theorem Parts.ofUnpacked_unpack :
    ofUnpacked (.unpack .binary64 b) =
      let negative := Sign.ofBitVec (@unpackSign .binary64 b) == .negative
      let biased := (@unpackExponent .binary64 b).toNat
      let fraction := (@unpackMantissa .binary64 b).toNat
      if biased = 2047 then
        if fraction = 0 then .infinite negative else .nan
      else if biased = 0 then .finite negative fraction (-1074)
      else .finite negative (2 ^ 52 + fraction) ((biased : Int) - 1075) := by
  have hbias : (Format.binary64.exponentBias : Int) = 1023 := by decide
  have hspecial : @unpackExponent .binary64 b = -1#11 ↔
      (@unpackExponent .binary64 b).toNat = 2047 := BitVec.toNat_eq
  have hsmall : @unpackExponent .binary64 b = 0#11 ↔
      (@unpackExponent .binary64 b).toNat = 0 := BitVec.toNat_eq
  have hround : @unpackMantissa .binary64 b = 0#52 ↔
      (@unpackMantissa .binary64 b).toNat = 0 := BitVec.toNat_eq
  rw [UnpackedFloat.unpack]
  split
  · rename_i h
    rw [if_pos (hspecial.mp h)]
    split
    · rename_i h
      exact (if_pos (hround.mp h)).symm
    · rename_i h
      exact (if_neg (mt hround.mpr h)).symm
  · rename_i h
    rw [if_neg (mt hspecial.mpr h)]
    split
    · rename_i h
      rw [if_pos (hsmall.mp h)]
      split
      -- A zero has the parts of the number without mantissa and with the least exponent.
      · rename_i h
        rw [hround.mp h]
        rfl
      · rw [ofUnpacked, hsmall.mp h, hbias]
        rfl
    · rename_i h
      rw [if_neg (mt hsmall.mpr h), ofUnpacked, toNat_implicit, hbias]
      rfl

end Fields

/-- Taking a double apart follows the rules of its format. -/
theorem Parts.ofFloat_eq (x : Float) : Parts.ofFloat x = .ofUnpacked x.toModel.unpack := by
  rw [Float.Model.unpack, ofUnpacked_unpack, toNat_unpackMantissa, toNat_unpackExponent,
    ofBitVec_unpackSign_eq_negative]
  rfl

/-! ## Values -/

theorem exactValue?_eq_some_iff {x : Float} {q : ℚ} :
    exactValue? x = some q ↔ ∃ negative m e, Parts.ofFloat x = .finite negative m e ∧
      (if negative then -(m * 2 ^ e : ℚ) else m * 2 ^ e) = q := by
  rw [exactValue?, Parts.ofFloat_eq]
  rcases x.toModel.unpack with s | _ | s | ⟨s, m, e, -⟩
  · simp [Parts.ofUnpacked]
  · simp [Parts.ofUnpacked]
  · simp [Parts.ofUnpacked]
  · cases s <;> simp [Parts.ofUnpacked]

/-- The sign of a number is the sign of its exact value. -/
theorem lt_zero_iff {x : Float} {q : ℚ} (h : exactValue? x = some q) : x < 0 ↔ q < 0 := by
  have hlt : x < 0 ↔ x.toModel.unpack.lt (.zero .positive) = true := decide_eq_true_iff
  rw [hlt]
  rw [exactValue?] at h
  rcases hx : x.toModel.unpack with s | _ | s | ⟨s, m, e, hm⟩ <;> rw [hx] at h
  · cases h
  · cases h
  · cases h
    cases s <;> simp [UnpackedFloat.lt, UnpackedFloat.compare]
  · have hsize : (0 : ℚ) < m * 2 ^ e := by positivity
    cases s
    · cases h
      simpa [UnpackedFloat.lt, UnpackedFloat.compare] using hsize
    · cases h
      simpa [UnpackedFloat.lt, UnpackedFloat.compare] using hsize.le

/-- A magnitude is an integer if it has no fraction, and then it is its integer part. -/
theorem mul_two_pow_eq_iff {m : Nat} {e i : Int} :
    (m * 2 ^ e : ℚ) = i ↔ isWhole m e = true ∧ wholePart m e = i := by
  cases e with
  | ofNat e =>
    have hcast : (m * 2 ^ Int.ofNat e : ℚ) = ((m * 2 ^ e : Nat) : Int) := by
      push_cast
      rfl
    rw [hcast, Int.cast_inj]
    simp [isWhole, wholePart]
  | negSucc e =>
    have hpow : (2 ^ (e + 1) : ℚ) ≠ 0 := by positivity
    have hmul : (m * 2 ^ Int.negSucc e : ℚ) = i ↔ (m : Int) = i * 2 ^ (e + 1) := by
      rw [zpow_negSucc, ← div_eq_mul_inv, div_eq_iff hpow]
      exact_mod_cast Iff.rfl
    rw [hmul, isWhole, wholePart, beq_iff_eq, Nat.pow_eq]
    constructor
    · intro h
      have hdvd : 2 ^ (e + 1) ∣ m := by exact_mod_cast Dvd.intro_left i h.symm
      refine ⟨Nat.mod_eq_zero_of_dvd hdvd, ?_⟩
      push_cast
      exact Int.ediv_eq_of_eq_mul_left (by positivity) h
    · rintro ⟨hmod, rfl⟩
      exact_mod_cast (Nat.div_mul_cancel (Nat.dvd_of_mod_eq_zero hmod)).symm

/-- **Which doubles are integers, and which integers they are.** -/
theorem exactValue?_eq_integer_iff {x : Float} {i : Int} :
    exactValue? x = some (i : ℚ) ↔ isInteger x = true ∧ truncate x = i := by
  rw [exactValue?_eq_some_iff, isInteger, truncate]
  cases Parts.ofFloat x with
  | nan => simp
  | infinite => simp
  | finite negative m e =>
    have hneg : -(m * 2 ^ e : ℚ) = i ↔ isWhole m e = true ∧ -(wholePart m e : Int) = i := by
      rw [neg_eq_iff_eq_neg, ← Int.cast_neg, mul_two_pow_eq_iff, neg_eq_iff_eq_neg]
    cases negative
    · simpa using mul_two_pow_eq_iff
    · simpa using hneg

end Stencil.Number
