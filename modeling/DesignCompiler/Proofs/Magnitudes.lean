import DesignCompiler.Proofs.Doubles
import Mathlib.Order.Compare

/-!
The order of doubles. Without its sign, the stored form of a number counts the doubles between it and zero, so
numbers compare like these counts with their signs. A form beyond that of the infinities is undefined, and
compares with nothing.
-/
namespace DesignCompiler.Binary64

open Float.Model Float.Model.UnpackedFloat

section Fields

variable (bits : BitVec 64)

theorem toNat_unpackMantissa : (@unpackMantissa .binary64 bits).toNat = bits.toNat % 2 ^ 52 := by
  rw [unpackMantissa, BitVec.toNat_cast, BitVec.extractLsb_toNat, Nat.shiftRight_zero]
  rfl

theorem toNat_unpackExponent : (@unpackExponent .binary64 bits).toNat = bits.toNat / 2 ^ 52 % 2 ^ 11 := by
  rw [unpackExponent, BitVec.toNat_cast, BitVec.extractLsb_toNat, Nat.shiftRight_eq_div_pow]
  rfl

theorem ofBitVec_unpackSign : Sign.ofBitVec (@unpackSign .binary64 bits) =
    if bits.toNat < 2 ^ 63 then .positive else .negative := by
  have field : (@unpackSign .binary64 bits).toNat = bits.toNat / 2 ^ 63 % 2 := by
    delta unpackSign
    rw [BitVec.toNat_cast, BitVec.extractLsb_toNat, Nat.shiftRight_eq_div_pow]
    rfl
  have bound := bits.isLt
  rw [Sign.ofBitVec]
  refine if_congr ?_ rfl rfl
  rw [BitVec.toNat_eq, field]
  change bits.toNat / 2 ^ 63 % 2 = 0 ↔ _
  omega

end Fields

def sign (x : Float) : Sign := if x.toBits.toNat < 2 ^ 63 then .positive else .negative

/-- How far a double is from zero, counted in doubles. -/
def magnitude (x : Float) : Nat := x.toBits.toNat % 2 ^ 63

/-- The place of a double among all of them. Zero is in one place with either sign. -/
def rank (x : Float) : Int := (sign x).apply (magnitude x)

theorem rank_zero : rank 0 = 0 := rfl

theorem rank_one : rank 1 = 1023 * 2 ^ 52 := rfl

/-- How far the infinities are from zero. -/
def horizon : Nat := 2047 * 2 ^ 52

theorem sign_eq (x : Float) : sign x = Sign.ofBitVec (@unpackSign .binary64 x.toBits.toBitVec) :=
  (ofBitVec_unpackSign _).symm

theorem magnitude_eq (x : Float) : magnitude x =
    (@unpackExponent .binary64 x.toBits.toBitVec).toNat * 2 ^ 52 +
      (@unpackMantissa .binary64 x.toBits.toBitVec).toNat := by
  rw [toNat_unpackMantissa, toNat_unpackExponent, magnitude]
  change x.toBits.toBitVec.toNat % 2 ^ 63 = _
  omega

/-- A mantissa and an exponent that a double other than zero is stored with. -/
structure Fits (mantissa : Nat) (exponent : Int) : Prop extends Stored mantissa exponent where
  positive : 0 < mantissa
  highest : exponent ≤ 971

/-- What a double stands for, by its sign and its distance from zero. -/
inductive Stands (sign : Sign) : Nat → UnpackedFloat → Prop where
  | undefined {size : Nat} (beyond : horizon < size) : Stands sign size .notANumber
  | infinite : Stands sign horizon (.infinity sign)
  | zero : Stands sign 0 (.zero sign)
  | finite {mantissa : Nat} {exponent : Int} (fits : Fits mantissa exponent) :
      Stands sign ((exponent + 1074).toNat * 2 ^ 52 + mantissa)
        (.finite sign mantissa exponent fits.positive)

theorem Stands.of_finite {sign : Sign} {size mantissa : Nat} {exponent : Int} {positive : 0 < mantissa}
    (fits : Fits mantissa exponent) (same : size = (exponent + 1074).toNat * 2 ^ 52 + mantissa) :
    Stands sign size (.finite sign mantissa exponent positive) := same ▸ .finite fits

theorem stands_unpack (bits : BitVec 64) : Stands (Sign.ofBitVec (@unpackSign .binary64 bits))
    ((@unpackExponent .binary64 bits).toNat * 2 ^ 52 + (@unpackMantissa .binary64 bits).toNat)
    (UnpackedFloat.unpack .binary64 bits) := by
  have power : (@unpackExponent .binary64 bits).toNat < 2 ^ 11 := (@unpackExponent .binary64 bits).isLt
  have fraction : (@unpackMantissa .binary64 bits).toNat < 2 ^ 52 := (@unpackMantissa .binary64 bits).isLt
  have bias : (Format.binary64.exponentBias : Int) + Format.binary64.mantissaBitsWithoutImplicit = 1075 := rfl
  have blank : @unpackMantissa .binary64 bits = 0#52 ↔ (@unpackMantissa .binary64 bits).toNat = 0 :=
    BitVec.toNat_eq
  delta UnpackedFloat.unpack
  rw [bias]
  by_cases full : @unpackExponent .binary64 bits = -1#11
  · have most : (@unpackExponent .binary64 bits).toNat = 2047 := by rw [full]; rfl
    rw [if_pos full]
    split
    · rename_i none
      rw [most, none]
      exact .infinite
    · rename_i some
      refine .undefined ?_
      have rest := blank.not.mp some
      rw [most, horizon]
      omega
  · have less : (@unpackExponent .binary64 bits).toNat ≠ 2047 := fun same => full (BitVec.eq_of_toNat_eq same)
    rw [if_neg full]
    by_cases least : @unpackExponent .binary64 bits = 0#11
    · have none : (@unpackExponent .binary64 bits).toNat = 0 := by rw [least]; rfl
      rw [if_pos least]
      by_cases bare : @unpackMantissa .binary64 bits = 0#52
      · rw [dif_pos bare, none, bare]
        exact .zero
      · have rest := blank.not.mp bare
        rw [dif_neg bare]
        refine .of_finite ⟨⟨?_, ?_, ?_⟩, ?_, ?_⟩ ?_ <;> omega
    · have some : (@unpackExponent .binary64 bits).toNat ≠ 0 := fun same =>
        least (BitVec.eq_of_toNat_eq same)
      have joined : (1#1 ++ @unpackMantissa .binary64 bits).toNat =
          2 ^ 52 + (@unpackMantissa .binary64 bits).toNat := by
        rw [BitVec.toNat_append, ← Nat.shiftLeft_add_eq_or_of_lt fraction]
        rfl
      rw [if_neg least]
      refine .of_finite ⟨⟨?_, ?_, ?_⟩, ?_, ?_⟩ ?_ <;> omega

theorem stands (x : Float) : Stands (sign x) (magnitude x) x.toModel.unpack := by
  rw [sign_eq, magnitude_eq]
  exact stands_unpack x.toBits.toBitVec

/-- A double that is not undefined. -/
def IsNumber (x : Float) : Prop := ofFloat x ≠ .undefined

instance (x : Float) : Decidable (IsNumber x) := inferInstanceAs (Decidable (_ ≠ _))

theorem isNumber_zero : IsNumber 0 := by decide

theorem isNumber_one : IsNumber 1 := by decide

theorem ofFloat_cases (x : Float) : ofFloat x = .undefined ∧ horizon < magnitude x ∨
    (∃ negative, ofFloat x = .infinite negative) ∧ magnitude x = horizon ∨
    (∃ negative mantissa exponent, ofFloat x = .finite negative mantissa exponent) ∧
      magnitude x < horizon := by
  have unit : hiddenUnit = 2 ^ 52 := rfl
  have whole : x.toBits.toNat % 2 ^ 63 =
      x.toBits.toNat / 2 ^ 52 % 2048 * 2 ^ 52 + x.toBits.toNat % 2 ^ 52 := by omega
  simp only [ofFloat, magnitude, horizon, Nat.shiftRight_eq_div_pow, unit, whole]
  split
  · split
    · exact .inr (.inl ⟨⟨_, rfl⟩, by omega⟩)
    · exact .inl ⟨rfl, by omega⟩
  · refine .inr (.inr ⟨?_, by omega⟩)
    split
    · exact ⟨_, _, _, rfl⟩
    · exact ⟨_, _, _, rfl⟩

theorem isNumber_iff_magnitude (x : Float) : IsNumber x ↔ magnitude x ≤ horizon := by
  rw [IsNumber]
  rcases ofFloat_cases x with ⟨form, size⟩ | ⟨⟨_, form⟩, size⟩ | ⟨⟨_, _, _, form⟩, size⟩
  · exact iff_of_false (fun other => other form) (Nat.not_le.mpr size)
  · exact iff_of_true (fun same => nomatch form.symm.trans same) size.le
  · exact iff_of_true (fun same => nomatch form.symm.trans same) size.le

theorem isFinite_iff_magnitude (x : Float) : isFinite x = true ↔ magnitude x < horizon := by
  rw [isFinite]
  rcases ofFloat_cases x with ⟨form, size⟩ | ⟨⟨_, form⟩, size⟩ | ⟨⟨_, _, _, form⟩, size⟩
  · rw [form]
    exact iff_of_false Bool.false_ne_true size.not_gt
  · rw [form]
    exact iff_of_false Bool.false_ne_true size.not_lt
  · rw [form]
    exact iff_of_true rfl size

namespace Fits

variable {m n : Nat} {e f : Int}

/-- The exponents decide, and then the mantissas. -/
theorem compare (one : Fits m e) (other : Fits n f) : (Ord.compare e f).then (Ord.compare m n) =
    Ord.compare (((e + 1074).toNat * 2 ^ 52 + m : Nat) : Int) ((f + 1074).toNat * 2 ^ 52 + n : Nat) := by
  obtain ⟨⟨width, lowest, full⟩, _, _⟩ := one
  obtain ⟨⟨width', lowest', full'⟩, _, _⟩ := other
  rcases lt_trichotomy e f with less | rfl | greater
  · have apart : (((e + 1074).toNat * 2 ^ 52 + m : Nat) : Int) < ((f + 1074).toNat * 2 ^ 52 + n : Nat) := by
      omega
    rw [compare_lt_iff_lt.mpr less, compare_lt_iff_lt.mpr apart]
    rfl
  · rw [compare_eq_iff_eq.mpr rfl]
    change Ord.compare m n = _
    rcases lt_trichotomy m n with less | rfl | greater
    · rw [compare_lt_iff_lt.mpr less, compare_lt_iff_lt.mpr (by omega)]
    · rw [compare_eq_iff_eq.mpr rfl, compare_eq_iff_eq.mpr rfl]
    · rw [compare_gt_iff_gt.mpr greater, compare_gt_iff_gt.mpr (by omega)]
  · have apart : ((f + 1074).toNat * 2 ^ 52 + n : Nat) < (((e + 1074).toNat * 2 ^ 52 + m : Nat) : Int) := by
      omega
    rw [compare_gt_iff_gt.mpr greater, compare_gt_iff_gt.mpr apart]
    rfl

theorem lt_horizon (fits : Fits m e) : (e + 1074).toNat * 2 ^ 52 + m < horizon := by
  obtain ⟨⟨width, lowest, full⟩, _, highest⟩ := fits
  rw [horizon]
  omega

end Fits

section Compare

variable {a b : Int}

theorem some_lt (less : a < b) : some .lt = some (compare a b) :=
  congrArg some (compare_lt_iff_lt.mpr less).symm

theorem some_gt (greater : b < a) : some .gt = some (compare a b) :=
  congrArg some (compare_gt_iff_gt.mpr greater).symm

theorem swap_compare (a b : Int) : (compare a b).swap = compare (-a) (-b) := by
  rcases lt_trichotomy a b with less | rfl | greater
  · rw [compare_lt_iff_lt.mpr less, compare_gt_iff_gt.mpr (Int.neg_lt_neg less)]
    rfl
  · rw [compare_eq_iff_eq.mpr rfl, compare_eq_iff_eq.mpr rfl]
    rfl
  · rw [compare_gt_iff_gt.mpr greater, compare_lt_iff_lt.mpr (Int.neg_lt_neg greater)]
    rfl

end Compare

/-- Two numbers compare like their distances from zero, with their signs. -/
theorem Stands.compare {s t : Sign} {a b : Nat} {u v : UnpackedFloat} (one : Stands s a u)
    (other : Stands t b v) (number : u ≠ .notANumber) (number' : v ≠ .notANumber) :
    u.compare v = some (Ord.compare (s.apply a) (t.apply b)) := by
  -- the horizon is farther from zero than any finite number, so it stands for infinity here
  have far : 0 < horizon := by decide
  cases one with
  | undefined => exact absurd rfl number
  | infinite =>
    cases other with
    | undefined => exact absurd rfl number'
    | infinite => cases s <;> cases t <;> rfl
    | zero => cases s <;> cases t <;> rfl
    | finite fits =>
      have near := fits.lt_horizon
      cases s
      · exact some_lt (by cases t <;> simp only [Sign.apply] <;> omega)
      · exact some_gt (by cases t <;> simp only [Sign.apply] <;> omega)
  | zero =>
    cases other with
    | undefined => exact absurd rfl number'
    | infinite => cases t <;> cases s <;> rfl
    | zero => cases s <;> cases t <;> rfl
    | finite fits =>
      have apart := fits.positive
      cases t
      · exact some_gt (by cases s <;> simp only [Sign.apply] <;> omega)
      · exact some_lt (by cases s <;> simp only [Sign.apply] <;> omega)
  | finite fits =>
    have near := fits.lt_horizon
    have apart := fits.positive
    cases other with
    | undefined => exact absurd rfl number'
    | infinite =>
      cases t
      · exact some_gt (by cases s <;> simp only [Sign.apply] <;> omega)
      · exact some_lt (by cases s <;> simp only [Sign.apply] <;> omega)
    | zero =>
      cases s
      · exact some_lt (by cases t <;> simp only [Sign.apply] <;> omega)
      · exact some_gt (by cases t <;> simp only [Sign.apply] <;> omega)
    | finite fits' =>
      have apart' := fits'.positive
      cases s <;> cases t
      · exact congrArg some ((congrArg Ordering.swap (fits.compare fits')).trans (swap_compare _ _))
      · exact some_lt (by simp only [Sign.apply]; omega)
      · exact some_gt (by simp only [Sign.apply]; omega)
      · exact congrArg some (fits.compare fits')

theorem isNumber_iff_unpack (x : Float) : IsNumber x ↔ x.toModel.unpack ≠ .notANumber := by
  have far : 0 ≤ horizon := by decide
  have form := stands x
  rw [isNumber_iff_magnitude]
  generalize magnitude x = size at form
  generalize x.toModel.unpack = value at form
  cases form with
  | undefined beyond => exact iff_of_false (Nat.not_le.mpr beyond) (fun other => other rfl)
  | infinite => exact iff_of_true le_rfl nofun
  | zero => exact iff_of_true far nofun
  | finite fits => exact iff_of_true fits.lt_horizon.le nofun

section Order

variable {x y : Float}

theorem compare_unpack (number : IsNumber x) (number' : IsNumber y) :
    x.toModel.unpack.compare y.toModel.unpack = some (compare (rank x) (rank y)) :=
  (stands x).compare (stands y) ((isNumber_iff_unpack x).mp number) ((isNumber_iff_unpack y).mp number')

theorem compare_unpack_eq_none (undefined : ¬ (IsNumber x ∧ IsNumber y)) :
    x.toModel.unpack.compare y.toModel.unpack = none := by
  rw [isNumber_iff_unpack, isNumber_iff_unpack, not_and_or, not_not, not_not] at undefined
  rcases undefined with one | other
  · rw [one]
    rfl
  · rw [other]
    cases x.toModel.unpack with
    | infinity s => cases s <;> rfl
    | notANumber | zero s => rfl
    | finite s m e h => cases s <;> rfl

theorem lt_iff : x < y ↔ IsNumber x ∧ IsNumber y ∧ rank x < rank y := by
  have unfolded : x < y ↔ (x.toModel.unpack.compare y.toModel.unpack == some Ordering.lt) = true :=
    decide_eq_true_iff
  rw [unfolded, ← and_assoc]
  by_cases numbers : IsNumber x ∧ IsNumber y
  · rw [compare_unpack numbers.1 numbers.2, and_iff_right numbers, beq_iff_eq, Option.some.injEq,
      compare_lt_iff_lt]
  · rw [compare_unpack_eq_none numbers]
    exact iff_of_false (by decide) (fun both => numbers both.1)

theorem le_iff : x ≤ y ↔ IsNumber x ∧ IsNumber y ∧ rank x ≤ rank y := by
  have unfolded : x ≤ y ↔ (x.toModel.unpack.compare y.toModel.unpack).any (·.isLE) = true :=
    decide_eq_true_iff
  rw [unfolded, ← and_assoc]
  by_cases numbers : IsNumber x ∧ IsNumber y
  · rw [compare_unpack numbers.1 numbers.2, and_iff_right numbers, Option.any_some, Std.isLE_compare]
  · rw [compare_unpack_eq_none numbers]
    exact iff_of_false (by decide) (fun both => numbers both.1)

theorem beq_iff : (x == y) = true ↔ IsNumber x ∧ IsNumber y ∧ rank x = rank y := by
  have unfolded : (x == y) = true ↔
      (x.toModel.unpack.compare y.toModel.unpack == some Ordering.eq) = true := Iff.rfl
  rw [unfolded, ← and_assoc]
  by_cases numbers : IsNumber x ∧ IsNumber y
  · rw [compare_unpack numbers.1 numbers.2, and_iff_right numbers, beq_iff_eq, Option.some.injEq,
      compare_eq_iff_eq]
  · rw [compare_unpack_eq_none numbers]
    exact iff_of_false (by decide) (fun both => numbers both.1)

theorem le_of_lt (less : x < y) : x ≤ y := by
  obtain ⟨number, number', below⟩ := lt_iff.mp less
  exact le_iff.mpr ⟨number, number', Int.le_of_lt below⟩

theorem le_refl (number : IsNumber x) : x ≤ x := le_iff.mpr ⟨number, number, Int.le_refl _⟩

theorem le_trans {z : Float} (one : x ≤ y) (other : y ≤ z) : x ≤ z := by
  obtain ⟨number, _, low⟩ := le_iff.mp one
  obtain ⟨_, number', high⟩ := le_iff.mp other
  exact le_iff.mpr ⟨number, number', low.trans high⟩

theorem lt_of_not_le (number : IsNumber x) (number' : IsNumber y) (failing : ¬ x ≤ y) : y < x :=
  lt_iff.mpr ⟨number', number, Int.not_le.mp fun below => failing (le_iff.mpr ⟨number, number', below⟩)⟩

/-- Numbers are all comparable. -/
theorem le_of_not_lt (number : IsNumber x) (number' : IsNumber y) (failing : ¬ x < y) : y ≤ x :=
  le_iff.mpr ⟨number', number, not_lt.mp fun less => failing (lt_iff.mpr ⟨number, number', less⟩)⟩

/-- The order that tells all doubles apart agrees with that of their places. -/
theorem rank_le_of_orderKey (order : orderKey x ≤ orderKey y) : rank x ≤ rank y := by
  have bound := x.toBits.toNat_lt
  have bound' := y.toBits.toNat_lt
  unfold orderKey at order
  unfold rank sign magnitude
  simp only at order
  split <;> split <;> simp only [Sign.apply] <;> split at order <;> split at order <;> omega

/-- What is sorted is in the order of its places. -/
theorem pairwise_rank_mergeSort {β : Type} (place : β → Float) (values : List β) :
    (values.mergeSort fun a b => Scalar.order (place a) (place b) != .gt).Pairwise
      (fun a b => rank (place a) ≤ rank (place b)) := by
  have same : ∀ a b, (Scalar.order (place a) (place b) != .gt) = true ↔
      orderKey (place a) ≤ orderKey (place b) := fun a b => bne_iff_ne.trans compare_le_iff_le
  refine (List.pairwise_mergeSort ?_ ?_ values).imp fun ordered => rank_le_of_orderKey ((same _ _).mp ordered)
  · intro a b c one other
    exact (same a c).mpr (((same a b).mp one).trans ((same b c).mp other))
  · intro a b
    exact (Bool.or_eq_true ..).mpr ((Int.le_total ..).imp (same a b).mpr (same b a).mpr)

theorem one_nonneg : (0 : Float) ≤ 1 := le_iff.mpr ⟨isNumber_zero, isNumber_one, by decide⟩

theorem beq_self (number : IsNumber x) : (x == x) = true := beq_iff.mpr ⟨number, number, rfl⟩

/-- A number that is held within zero and one is within them. -/
theorem unit_within (number : IsNumber x) : 0 ≤ Scalar.unit x ∧ Scalar.unit x ≤ 1 := by
  change 0 ≤ (if x < 0 then 0 else if 1 < x then 1 else x) ∧ (if x < 0 then 0 else if 1 < x then 1 else x) ≤ 1
  split
  · exact ⟨le_refl isNumber_zero, one_nonneg⟩
  · rename_i nonneg
    split
    · exact ⟨one_nonneg, le_refl isNumber_one⟩
    · rename_i within
      exact ⟨le_of_not_lt number isNumber_zero nonneg, le_of_not_lt isNumber_one number within⟩

theorem isNumber_unit : IsNumber (Scalar.unit x) ↔ IsNumber x := by
  refine ⟨fun number => ?_, fun number => (le_iff.mp (unit_within number).1).2.1⟩
  by_contra undefined
  have below : ¬ x < 0 := fun less => undefined (lt_iff.mp less).1
  have above : ¬ 1 < x := fun less => undefined (lt_iff.mp less).2.1
  have same : Scalar.unit x = x := (if_neg below).trans (if_neg above)
  exact undefined (same ▸ number)

end Order

end DesignCompiler.Binary64
