import Mathlib
import Whiteboard.Number.Scalar

/-!
# Whiteboard — whole numbers as scalars

An audit compares opacities and versions as scalars. That says what it should only if
whole numbers are in the same order as scalars: this holds in exact arithmetic, and in
floating point for numbers of up to 53 bits, which need no rounding.

Main results:

* `unpack_ofNat` — a whole number of up to 53 bits as a float: its leading digits,
  without rounding.
* `LawfulScalar Float`, `LawfulScalar Rat` — whole numbers compare as they should.
-/

namespace Whiteboard

/-- Scalars among which whole numbers of 53 bits are in order, and which read the bounds
that an audit compares with, a zero after their points, as whole numbers. -/
class LawfulScalar (S : Type) [Scalar S] : Prop where
  ofInt_le_ofInt_iff : ∀ {m n : Nat}, m < 2 ^ 53 → n < 2 ^ 53 →
    ((Scalar.ofInt m : S) ≤ Scalar.ofInt n ↔ m ≤ n)
  ofScientific_whole : ∀ n ∈ [0, 1, 3, 100],
    (OfScientific.ofScientific (10 * n) true 1 : S) = Scalar.ofInt (n : Nat)

/-! ## Floating point -/

namespace WholeFloat

open Float.Model (Format UnpackedFloat totalExponent)
open Float.Model.UnpackedFloat

/-! ### Rounding what fits -/

/-- Shifting out zeros loses nothing. -/
theorem shiftRight_mul_two_pow (m shift : Nat) :
    ExtendedMantissa.ofMantissaAndAccuracy (m * 2 ^ shift) .exact >>> shift =
      ExtendedMantissa.ofMantissaAndAccuracy m .exact := by
  show Nat.repeat ExtendedMantissa.shiftRightOne shift ⟨m * 2 ^ shift, false, false⟩ =
    ⟨m, false, false⟩
  induction shift generalizing m with
  | zero => rw [pow_zero, mul_one]; rfl
  | succ shift ih =>
    rw [Nat.repeat, pow_succ', ← mul_assoc, ih (m * 2)]
    simp [ExtendedMantissa.shiftRightOne]

/-- A significand of 53 bits stays where it is. -/
theorem targetExponent_normal {m : Nat} {e : Int} (hlow : 2 ^ 52 ≤ m) (hhigh : m < 2 ^ 53)
    (shift : Nat) (he : -1074 ≤ e) :
    Format.binary64.targetExponent (totalExponent (m * 2 ^ shift) (e - shift)) = e := by
  have hlog : (m * 2 ^ shift).log2 = 52 + shift := by
    refine (Nat.log2_eq_iff (by positivity)).mpr ⟨?_, ?_⟩
    · rw [pow_add]
      exact Nat.mul_le_mul_right _ hlow
    · rw [add_right_comm, pow_add]
      exact Nat.mul_lt_mul_of_pos_right hhigh (Nat.two_pow_pos shift)
  rw [Format.targetExponent, totalExponent, hlog]
  simp only [Format.mantissaBits, Format.minExponent]
  omega

/-- Rounding a significand of 53 bits with zeros behind it drops the zeros. -/
theorem roundWithAccuracy_normal {m : Nat} {e : Int} (hlow : 2 ^ 52 ≤ m) (hhigh : m < 2 ^ 53)
    (shift : Nat) (he : -1074 ≤ e) :
    roundWithAccuracy Format.binary64 .positive (m * 2 ^ shift) (e - shift) .exact =
      .finite .positive m e (by omega) := by
  have hshift : ∀ k : Nat, shiftToTargetExponent Format.binary64 (m * 2 ^ k) (e - k) .exact =
      (ExtendedMantissa.ofMantissaAndAccuracy m .exact, e) := by
    intro k
    have hdifference : (e - (e - (k : Int))).toNat = k := by omega
    rw [shiftToTargetExponent, targetExponent_normal hlow hhigh k he]
    simp only [shiftToExponent, hdifference, shiftRight_mul_two_pow, sub_add_cancel]
  -- once rounded, there is nothing more to shift
  have hagain := hshift 0
  rw [pow_zero, mul_one, Nat.cast_zero, sub_zero] at hagain
  have hrounded : (ExtendedMantissa.ofMantissaAndAccuracy m .exact).roundedMantissa = m := rfl
  simp only [roundWithAccuracy, hshift shift, hrounded, hagain]
  exact dif_neg (show m ≠ 0 by omega)

theorem unpackSign_positive (exponent : BitVec 11) (mantissa : BitVec 52) :
    unpackSign (packComponents Format.binary64 .positive exponent mantissa) = 0#1 := by
  show (Sign.positive.toBitVec ++ exponent ++ mantissa).extractLsb' 63 1 = 0#1
  rw [BitVec.extractLsb'_append_eq_of_le (by decide),
    BitVec.extractLsb'_append_eq_of_le (by decide)]
  rfl

/-- Packing keeps a significand of 53 bits and a small exponent. -/
theorem unpack_pack_normal {m : Nat} {e : Int} (hlow : 2 ^ 52 ≤ m) (hhigh : m < 2 ^ 53)
    (hlowest : -52 ≤ e) (hhighest : e ≤ 0) :
    unpack Format.binary64 (pack Format.binary64 (.finite .positive m e (by omega))) =
      .finite .positive m e (by omega) := by
  have hlog : m.log2 = 52 := (Nat.log2_eq_iff (by omega)).mpr ⟨hlow, hhigh⟩
  have hbias : (e + (Format.binary64.exponentBias : Int) + (52 : Nat)).toNat =
      (e + 1075).toNat := by
    show (e + 1023 + 52).toNat = _
    omega
  have hpack : pack Format.binary64 (.finite .positive m e (by omega)) =
      packComponents Format.binary64 .positive (BitVec.ofNat 11 (e + 1075).toNat)
        (BitVec.ofNat 52 m) := by
    have hfits : ¬ 2 ^ 11 ≤ (e + 1075).toNat + 1 := by omega
    simp only [pack, hbias, hlog]
    rw [if_neg hfits]
    exact if_pos rfl
  have hexponent : (BitVec.ofNat 11 (e + 1075).toNat).toNat = (e + 1075).toNat := by
    rw [BitVec.toNat_ofNat]
    omega
  have hordinary : BitVec.ofNat 11 (e + 1075).toNat ≠ -1#11 ∧
      BitVec.ofNat 11 (e + 1075).toNat ≠ 0#11 := by
    constructor
    all_goals
      intro h
      have := congrArg BitVec.toNat h
      rw [hexponent] at this
      simp at this
      omega
  -- the leading digit is not stored
  have hmantissa : (1#1 ++ BitVec.ofNat 52 m).toNat = m := by
    rw [BitVec.toNat_append, BitVec.toNat_ofNat, BitVec.toNat_ofNat, Nat.shiftLeft_eq,
      Nat.or_comm, Nat.one_mod, one_mul, Nat.or_two_pow_eq_add_of_lt (Nat.mod_lt m (by decide))]
    omega
  rw [hpack]
  simp only [unpack, unpackMantissa_packComponents, unpackExponent_packComponents,
    unpackSign_positive]
  rw [if_neg hordinary.1, if_neg hordinary.2]
  simp only [hmantissa, hexponent]
  congr 1
  show ((e + 1075).toNat : Int) - (1023 + 52) = e
  omega

/-! ### Whole numbers -/

/-- The significand of a whole number: its digits, the leading one at the 53rd bit. -/
theorem significand_bounds {n : Nat} (hpos : 0 < n) (h : n < 2 ^ 53) :
    2 ^ 52 ≤ n * 2 ^ (52 - n.log2) ∧ n * 2 ^ (52 - n.log2) < 2 ^ 53 := by
  obtain ⟨hlow, hhigh⟩ := (Nat.log2_eq_iff hpos.ne').mp rfl
  have hlog : n.log2 ≤ 52 := by
    by_contra hlarge
    have := Nat.pow_le_pow_right (n := 2) (by decide) (show 53 ≤ n.log2 by omega)
    omega
  constructor
  · calc 2 ^ 52 = 2 ^ n.log2 * 2 ^ (52 - n.log2) := by rw [← pow_add, Nat.add_sub_cancel' hlog]
      _ ≤ n * 2 ^ (52 - n.log2) := Nat.mul_le_mul_right _ hlow
  · calc n * 2 ^ (52 - n.log2) < 2 ^ (n.log2 + 1) * 2 ^ (52 - n.log2) :=
          Nat.mul_lt_mul_of_pos_right hhigh (Nat.two_pow_pos _)
      _ = 2 ^ 53 := by rw [← pow_add]; congr 1; omega

/-- The nearest float to a whole number of 53 bits, before it is packed. -/
theorem ofNat_normal {n : Nat} (hpos : 0 < n) (h : n < 2 ^ 53) :
    UnpackedFloat.ofNat Format.binary64 n = .finite .positive (n * 2 ^ (52 - n.log2))
      ((n.log2 : Int) - 52) (by have := (significand_bounds hpos h).1; omega) := by
  obtain ⟨hlow, hhigh⟩ := significand_bounds hpos h
  have hlog : n.log2 ≤ 52 := Nat.le_of_lt_succ ((Nat.log2_lt hpos.ne').mpr h)
  have htarget : Format.binary64.targetExponent (totalExponent n 0) = (n.log2 : Int) - 52 := by
    rw [Format.targetExponent, totalExponent]
    simp only [Format.mantissaBits, Format.minExponent]
    omega
  have hamount : (0 - ((n.log2 : Int) - 52)).toNat = 52 - n.log2 := by omega
  have hexponent : (0 : Int) - (52 - n.log2 : Nat) = (n.log2 : Int) - 52 := by omega
  have hcompare : compare (n : Int) 0 = .gt := compare_gt_iff_gt.mpr (by exact_mod_cast hpos)
  simp only [UnpackedFloat.ofNat, UnpackedFloat.ofInt, UnpackedFloat.normalize, hcompare,
    Int.toNat_natCast, UnpackedFloat.round, htarget, decreaseExponent, hamount, hexponent,
    Nat.shiftLeft_eq]
  have hround := roundWithAccuracy_normal (e := (n.log2 : Int) - 52) hlow hhigh 0 (by omega)
  rwa [pow_zero, mul_one, Nat.cast_zero, sub_zero] at hround

/-- **Whole numbers need no rounding.** A whole number of up to 53 bits as a float is its
digits, the leading one at the 53rd bit. -/
theorem unpack_ofNat {n : Nat} (hpos : 0 < n) (h : n < 2 ^ 53) :
    (Float.ofNat n).toModel.unpack = .finite .positive (n * 2 ^ (52 - n.log2))
      ((n.log2 : Int) - 52) (by have := (significand_bounds hpos h).1; omega) := by
  obtain ⟨hlow, hhigh⟩ := significand_bounds hpos h
  have hlog : n.log2 ≤ 52 := Nat.le_of_lt_succ ((Nat.log2_lt hpos.ne').mpr h)
  have hunpack := unpack_pack_normal (e := (n.log2 : Int) - 52) hlow hhigh (by omega) (by omega)
  have hword : n.toUInt64.toNat = n := by
    rw [Nat.toUInt64, UInt64.toNat_ofNat']
    omega
  have hfloat : n.toUInt64.toFloat.toModel.unpack = .finite .positive (n * 2 ^ (52 - n.log2))
      ((n.log2 : Int) - 52) (by omega) := by
    have hwhole := ofNat_normal hpos h
    show unpack Format.binary64 (pack Format.binary64
      (UnpackedFloat.ofNat Format.binary64 n.toUInt64.toNat)) = _
    simp only [hword, hwhole, hunpack]
  -- it is multiplied by the power of ten of its exponent, which is one
  have hone : (Float.ofBits 4607182418800017408).toModel.unpack =
      .finite .positive (2 ^ 52) (-52) (by decide) := rfl
  have hproduct : Float.ofNat n = n.toUInt64.toFloat * Float.ofBits 4607182418800017408 := by
    show Float.ofScientific n false 0 = _
    rw [Float.ofScientific, dif_pos ⟨h, by decide⟩]
    rfl
  have hround := roundWithAccuracy_normal (e := (n.log2 : Int) - 52) hlow hhigh 52 (by omega)
  rw [hproduct]
  show unpack Format.binary64 (pack Format.binary64 (UnpackedFloat.mul Format.binary64
    n.toUInt64.toFloat.toModel.unpack (Float.ofBits 4607182418800017408).toModel.unpack)) = _
  rw [hfloat, hone]
  show unpack Format.binary64 (pack Format.binary64 (roundWithAccuracy Format.binary64 .positive
    (n * 2 ^ (52 - n.log2) * 2 ^ 52) ((n.log2 : Int) - 52 - (52 : Nat)) .exact)) = _
  rw [hround, hunpack]

/-- Significands and exponents are in the order of the numbers. -/
theorem compare_normal {m n : Nat} (hm : 0 < m) (hn : 0 < n) :
    (((compare ((m.log2 : Int) - 52) ((n.log2 : Int) - 52)).then
      (compare (m * 2 ^ (52 - m.log2)) (n * 2 ^ (52 - n.log2)))).isLE = true) ↔ m ≤ n := by
  obtain ⟨hmlow, hmhigh⟩ := (Nat.log2_eq_iff hm.ne').mp rfl
  obtain ⟨hnlow, hnhigh⟩ := (Nat.log2_eq_iff hn.ne').mp rfl
  have hpow : ∀ {a b : Nat}, a < b → 2 ^ (a + 1) ≤ 2 ^ b := fun h =>
    Nat.pow_le_pow_right (by decide) h
  rcases Nat.lt_trichotomy m.log2 n.log2 with hlog | hlog | hlog
  · have hcompare : compare ((m.log2 : Int) - 52) ((n.log2 : Int) - 52) = .lt :=
      compare_lt_iff_lt.mpr (by omega)
    have := hpow hlog
    rw [hcompare]
    exact iff_of_true rfl (by omega)
  · -- of two numbers with as many digits the significands decide
    have hcompare : compare ((m.log2 : Int) - 52) ((n.log2 : Int) - 52) = .eq :=
      compare_eq_iff_eq.mpr (by omega)
    rw [hcompare, hlog]
    show (compare (m * 2 ^ (52 - n.log2)) (n * 2 ^ (52 - n.log2))).isLE = true ↔ m ≤ n
    rw [Nat.isLE_compare]
    exact Nat.mul_le_mul_right_iff (Nat.two_pow_pos _)
  · have hcompare : compare ((m.log2 : Int) - 52) ((n.log2 : Int) - 52) = .gt :=
      compare_gt_iff_gt.mpr (by omega)
    have := hpow hlog
    rw [hcompare]
    exact iff_of_false Bool.false_ne_true (by omega)

theorem ofNat_le_ofNat_iff {m n : Nat} (hm : m < 2 ^ 53) (hn : n < 2 ^ 53) :
    Float.ofNat m ≤ Float.ofNat n ↔ m ≤ n := by
  have hle : Float.ofNat m ≤ Float.ofNat n ↔
      (Float.ofNat m).toModel.unpack.le (Float.ofNat n).toModel.unpack = true := by
    show decide ((Float.ofNat m).toModel.le (Float.ofNat n).toModel = true) = true ↔ _
    rw [decide_eq_true_iff]
    rfl
  have hzero : (Float.ofNat 0).toModel.unpack = .zero .positive := rfl
  rw [hle]
  rcases Nat.eq_zero_or_pos m with rfl | hmpos
  · rcases Nat.eq_zero_or_pos n with rfl | hnpos
    · rw [hzero]
      exact iff_of_true rfl le_rfl
    · rw [hzero, unpack_ofNat hnpos hn]
      exact iff_of_true rfl hnpos.le
  · rcases Nat.eq_zero_or_pos n with rfl | hnpos
    · rw [hzero, unpack_ofNat hmpos hm]
      exact iff_of_false Bool.false_ne_true (by omega)
    · rw [unpack_ofNat hmpos hm, unpack_ofNat hnpos hn]
      exact compare_normal hmpos hnpos

end WholeFloat

instance : LawfulScalar Float where
  ofInt_le_ofInt_iff := WholeFloat.ofNat_le_ofNat_iff
  ofScientific_whole := by decide +kernel

/-! ## Exact arithmetic -/

instance : LawfulScalar Rat where
  ofInt_le_ofInt_iff _ _ := by
    show (((_ : Int) : Rat) ≤ ((_ : Int) : Rat)) ↔ _
    norm_num
  ofScientific_whole n _ := by
    show Rat.ofScientific (10 * n) true 1 = ((n : Int) : Rat)
    rw [Rat.ofScientific_true_def, Rat.mkRat_eq_div]
    push_cast
    exact mul_div_cancel_left₀ _ (by decide)

end Whiteboard
