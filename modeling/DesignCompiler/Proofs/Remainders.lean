import DesignCompiler.Proofs.Magnitudes

/-!
What is left of one. Less a number between zero and one, one rounds to a number between zero and one; less any
number up to one, it does not round to one below zero. Differences and products of finite doubles may leave
the finite ones, but they are never undefined.
-/
namespace DesignCompiler.Binary64

open Float.Model Float.Model.UnpackedFloat

/-- A number with a sign. -/
def Signed (s : Sign) : UnpackedFloat → Prop
  | .notANumber => False
  | .infinity t | .zero t | .finite t _ _ _ => t = s

theorem ofBitVec_packed_sign (s : Sign) (exponent : BitVec 11) (mantissa : BitVec 52) :
    Sign.ofBitVec (unpackSign (packComponents .binary64 s exponent mantissa)) = s := by
  delta unpackSign packComponents BitVec.extractLsb
  rw [BitVec.extractLsb'_append_eq_of_le (by decide), BitVec.extractLsb'_append_eq_of_le (by decide)]
  cases s <;> rfl

theorem of_packComponents {x : Float} {s : Sign} {exponent : BitVec 11} {mantissa : BitVec 52}
    (stored : x.toBits.toBitVec = packComponents .binary64 s exponent mantissa) :
    sign x = s ∧ magnitude x = exponent.toNat * 2 ^ 52 + mantissa.toNat := by
  rw [sign_eq, magnitude_eq, stored, ofBitVec_packed_sign, unpackExponent_packComponents,
    unpackMantissa_packComponents]
  exact ⟨rfl, rfl⟩

/-- The double that a computation comes to. -/
def packed (value : UnpackedFloat) : Float := .ofModel (.pack value)

theorem sub_eq (x y : Float) :
    x - y = packed (UnpackedFloat.sub .binary64 x.toModel.unpack y.toModel.unpack) := rfl

theorem mul_eq (x y : Float) :
    x * y = packed (UnpackedFloat.mul .binary64 x.toModel.unpack y.toModel.unpack) := rfl

theorem packed_finite (s : Sign) {mantissa : Nat} (exponent : Int) (positive : 0 < mantissa) :
    sign (packed (.finite s mantissa exponent positive)) = s ∧
      (2047 ≤ (exponent + 1075).toNat ∧ magnitude (packed (.finite s mantissa exponent positive)) = horizon ∨
        (exponent + 1075).toNat < 2047 ∧ magnitude (packed (.finite s mantissa exponent positive)) ≤
          (exponent + 1075).toNat * 2 ^ 52 + mantissa % 2 ^ 52) := by
  have bits : (packed (.finite s mantissa exponent positive)).toBits.toBitVec =
      UnpackedFloat.pack .binary64 (.finite s mantissa exponent positive) := rfl
  have biased : (exponent + (Format.binary64.exponentBias : Int) +
      Format.binary64.mantissaBitsWithoutImplicit).toNat = (exponent + 1075).toNat :=
    congrArg Int.toNat (Int.add_assoc exponent 1023 52)
  have short : (BitVec.ofNat 52 mantissa).toNat = mantissa % 2 ^ 52 := BitVec.toNat_ofNat ..
  delta UnpackedFloat.pack at bits
  dsimp only at bits
  rw [biased] at bits
  generalize packed (.finite s mantissa exponent positive) = value at bits ⊢
  split at bits
  · rename_i far
    obtain ⟨same, size⟩ := of_packComponents bits
    exact ⟨same, .inl ⟨Nat.le_of_succ_le_succ far, size⟩⟩
  · rename_i near
    have near : (exponent + 1075).toNat < 2047 := Nat.lt_of_succ_lt_succ (Nat.lt_of_not_le near)
    split at bits
    · obtain ⟨same, size⟩ := of_packComponents bits
      have kept : (BitVec.ofNat 11 (exponent + 1075).toNat).toNat = (exponent + 1075).toNat :=
        (BitVec.toNat_ofNat ..).trans (Nat.mod_eq_of_lt (by omega))
      exact ⟨same, .inr ⟨near, (size.trans (congrArg₂ (· * 2 ^ 52 + ·) kept short)).le⟩⟩
    · obtain ⟨same, size⟩ := of_packComponents bits
      have size : magnitude value = 0 * 2 ^ 52 + mantissa % 2 ^ 52 :=
        size.trans (congrArg₂ (· * 2 ^ 52 + ·) rfl short)
      exact ⟨same, .inr ⟨near, by omega⟩⟩

/-- What is packed stays a number, with its sign. -/
theorem Signed.packed {s : Sign} {value : UnpackedFloat} (signed : Signed s value) :
    IsNumber (packed value) ∧ sign (packed value) = s := by
  rw [isNumber_iff_magnitude]
  cases value with
  | notANumber => cases signed
  | infinity t =>
    obtain rfl : t = s := signed
    have bits : (Binary64.packed (.infinity t)).toBits.toBitVec =
        packComponents .binary64 t (-1#11) 0#52 := rfl
    obtain ⟨same, size⟩ := of_packComponents bits
    have far : (-1#11).toNat * 2 ^ 52 + (0#52).toNat = horizon := by decide
    exact ⟨(size.trans far).le, same⟩
  | zero t =>
    obtain rfl : t = s := signed
    have bits : (Binary64.packed (.zero t)).toBits.toBitVec = packComponents .binary64 t 0#11 0#52 := rfl
    obtain ⟨same, size⟩ := of_packComponents bits
    exact ⟨size.trans_le (Nat.zero_le _), same⟩
  | finite t mantissa exponent positive =>
    obtain rfl : t = s := signed
    obtain ⟨same, ⟨_, size⟩ | ⟨near, size⟩⟩ := packed_finite t exponent positive
    · exact ⟨size.le, same⟩
    · refine ⟨size.trans ?_, same⟩
      rw [horizon]
      omega

theorem signed_roundWithAccuracy (s : Sign) (mantissa : Nat) (exponent : Int) (accuracy : Accuracy) :
    Signed s (roundWithAccuracy .binary64 s mantissa exponent accuracy) := by
  rw [roundWithAccuracy]
  dsimp only
  generalize shiftToTargetExponent .binary64 _ _ .exact = shifted
  by_cases nothing : shifted.1.mantissa = 0
  · rw [dif_pos nothing]
    rfl
  · rw [dif_neg nothing]
    rfl

theorem exists_signed_normalize (mantissa exponent : Int) :
    ∃ s, Signed s (normalize .binary64 mantissa exponent .positive) := by
  rw [UnpackedFloat.normalize]
  split
  · exact ⟨_, signed_roundWithAccuracy ..⟩
  · exact ⟨_, rfl⟩
  · exact ⟨_, signed_roundWithAccuracy ..⟩

/-- What is not below zero is rounded to a number of positive sign. -/
theorem signed_normalize {mantissa : Int} (nonneg : 0 ≤ mantissa) (exponent : Int) :
    Signed .positive (normalize .binary64 mantissa exponent .positive) := by
  rw [UnpackedFloat.normalize]
  split
  · rename_i below
    exact absurd (compare_lt_iff_lt.mp below) nonneg.not_gt
  · rfl
  · exact signed_roundWithAccuracy ..

theorem mantissa_shiftRight (extended : ExtendedMantissa) (count : Nat) :
    (extended >>> count).mantissa = extended.mantissa / 2 ^ count := by
  induction count with
  | zero => exact (Nat.div_one _).symm
  | succ count ih =>
    have step : (extended >>> (count + 1)).mantissa = (extended >>> count).mantissa / 2 := rfl
    rw [step, ih, Nat.div_div_eq_div_mul, Nat.pow_succ]

theorem roundedMantissa_le (extended : ExtendedMantissa) :
    extended.roundedMantissa ≤ extended.mantissa + 1 := by
  obtain ⟨mantissa, half, sticky⟩ := extended
  cases half <;> cases sticky <;>
    simp [ExtendedMantissa.roundedMantissa, ExtendedMantissa.accuracy, Accuracy.roundToNearestEven]
  omega

/-- The exponent at which a mantissa has 53 digits, or the least one. -/
theorem targetExponent_eq (mantissa : Nat) (exponent : Int) :
    Format.binary64.targetExponent (totalExponent mantissa exponent) =
      max ((mantissa.log2 : Int) + exponent - 52) (-1074) := by
  have width : (Format.binary64.mantissaBits : Int) = 53 := rfl
  have least : Format.binary64.minExponent = -1074 := rfl
  rw [Format.targetExponent, totalExponent, width, least]
  omega

section Shift

variable (mantissa : Nat) (exponent : Int) (accuracy : Accuracy)

theorem shiftToTargetExponent_fst :
    (shiftToTargetExponent .binary64 mantissa exponent accuracy).1.mantissa =
      mantissa / 2 ^ (max ((mantissa.log2 : Int) + exponent - 52) (-1074) - exponent).toNat := by
  rw [← targetExponent_eq]
  refine (mantissa_shiftRight _ _).trans (congrArg (· / _) ?_)
  rw [ExtendedMantissa.ofMantissaAndAccuracy.eq_def]
  split <;> rfl

theorem shiftToTargetExponent_snd : (shiftToTargetExponent .binary64 mantissa exponent accuracy).2 =
    max exponent (max ((mantissa.log2 : Int) + exponent - 52) (-1074)) := by
  rw [← targetExponent_eq]
  change exponent + ((_ - exponent).toNat : Int) = _
  omega

/-- After the first shift at most 53 digits are left. -/
theorem shiftToTargetExponent_short :
    (shiftToTargetExponent .binary64 mantissa exponent accuracy).1.mantissa < 2 ^ 53 := by
  rw [shiftToTargetExponent_fst, Nat.div_lt_iff_lt_mul (Nat.two_pow_pos _), ← Nat.pow_add]
  refine Nat.lt_log2_self.trans_le (Nat.pow_le_pow_right (by decide) ?_)
  omega

end Shift

theorem magnitude_round_le {mantissa : Nat} {exponent : Int} (s : Sign) (accuracy : Accuracy)
    (below : (mantissa.log2 : Int) + exponent < 0) (fine : exponent ≤ -53) :
    magnitude (packed (roundWithAccuracy .binary64 s mantissa exponent accuracy)) ≤ magnitude 1 := by
  have one : magnitude 1 = 1023 * 2 ^ 52 := rfl
  have nothing : magnitude (packed (.zero s)) ≤ magnitude 1 := by cases s <;> decide
  have first := shiftToTargetExponent_snd mantissa exponent accuracy
  have rounded := (roundedMantissa_le _).trans (shiftToTargetExponent_short mantissa exponent accuracy)
  rw [roundWithAccuracy]
  generalize shiftToTargetExponent .binary64 mantissa exponent accuracy = shifted at first rounded
  obtain ⟨extended, power⟩ := shifted
  dsimp only at first rounded ⊢
  generalize extended.roundedMantissa = digits at rounded
  have last := shiftToTargetExponent_snd digits power .exact
  have again := shiftToTargetExponent_fst digits power .exact
  generalize shiftToTargetExponent .binary64 digits power .exact = shifted at last again
  obtain ⟨final, power'⟩ := shifted
  dsimp only at last again ⊢
  by_cases none : final.mantissa = 0
  · rw [dif_pos none]
    exact nothing
  · rw [dif_neg none]
    have step : power' = power ∨ power' = power + 1 ∧ final.mantissa = 2 ^ 52 := by
      rcases Nat.lt_or_ge digits (2 ^ 53) with short | long
      · have width : digits.log2 ≤ 52 := by
          rcases Nat.eq_zero_or_pos digits with rfl | positive
          · decide
          · exact Nat.lt_succ_iff.mp ((Nat.log2_lt positive.ne').mpr short)
        exact .inl (by omega)
      · -- the rounding has carried into one more digit
        have full : digits = 2 ^ 53 := Nat.le_antisymm rounded long
        have width : digits.log2 = 53 := full ▸ Nat.log2_two_pow
        have shift : (max ((digits.log2 : Int) + power - 52) (-1074) - power).toNat = 1 := by omega
        rw [shift, full] at again
        exact .inr ⟨by omega, again.trans (by decide)⟩
    obtain ⟨_, ⟨far, _⟩ | ⟨_, size⟩⟩ := packed_finite s power' (Nat.pos_of_ne_zero none)
    · omega
    · rw [one]
      refine size.trans ?_
      rcases step with rfl | ⟨rfl, carried⟩
      · omega
      · rw [carried]
        omega

/-- What is below one, at any precision, is rounded to at most one. -/
theorem magnitude_normalize_le {mantissa exponent : Int} (nonneg : 0 ≤ mantissa)
    (below : mantissa < 2 ^ (-exponent).toNat) (fine : exponent ≤ 0) :
    magnitude (packed (normalize .binary64 mantissa exponent .positive)) ≤ magnitude 1 := by
  rw [UnpackedFloat.normalize]
  split
  · rename_i negative
    exact absurd (compare_lt_iff_lt.mp negative) nonneg.not_gt
  · decide
  · rename_i positive
    have positive : 0 < mantissa := compare_gt_iff_gt.mp positive
    obtain ⟨size, rfl⟩ := Int.eq_ofNat_of_zero_le nonneg
    have below : size < 2 ^ (-exponent).toNat := by exact_mod_cast below
    have nonzero : size ≠ 0 := by omega
    have width := (Nat.log2_lt nonzero).mpr below
    rw [UnpackedFloat.round, Int.toNat_natCast]
    simp only [targetExponent_eq, decreaseExponent]
    generalize shift : (exponent - max ((size.log2 : Int) + exponent - 52) (-1074)).toNat = count
    have longer : size <<< count < 2 ^ ((-exponent).toNat + count) := by
      rw [Nat.shiftLeft_eq, Nat.pow_add]
      exact (Nat.mul_lt_mul_right (Nat.two_pow_pos count)).mpr below
    have still : size <<< count ≠ 0 := by
      rw [Nat.shiftLeft_eq]
      exact (Nat.mul_pos (Nat.pos_of_ne_zero nonzero) (Nat.two_pow_pos count)).ne'
    have width' := (Nat.log2_lt still).mpr longer
    exact magnitude_round_le .positive .exact (by omega) (by omega)

/-- A finite double is zero, or stored with a mantissa. -/
theorem finite_unpack {x : Float} (finite : isFinite x = true) : ∃ s, x.toModel.unpack = .zero s ∨
    ∃ mantissa exponent positive, x.toModel.unpack = .finite s mantissa exponent positive := by
  have form := stands x
  have size := (isFinite_iff_magnitude x).mp finite
  generalize magnitude x = size' at form size
  generalize x.toModel.unpack = value at form
  cases form with
  | undefined beyond => exact absurd beyond size.not_gt
  | infinite => exact absurd size (Nat.lt_irrefl _)
  | zero => exact ⟨_, .inl rfl⟩
  | finite fits => exact ⟨_, .inr ⟨_, _, _, rfl⟩⟩

theorem exists_signed_sub {u v : UnpackedFloat} (defined : u ≠ .notANumber) (defined' : v ≠ .notANumber)
    (near : ∀ s t, ¬ (u = .infinity s ∧ v = .infinity t)) :
    ∃ s, Signed s (UnpackedFloat.sub .binary64 u v) := by
  cases u with
  | notANumber => exact absurd rfl defined
  | infinity s =>
    cases v with
    | notANumber => exact absurd rfl defined'
    | infinity t => exact absurd ⟨rfl, rfl⟩ (near s t)
    | zero | finite => exact ⟨_, rfl⟩
  | zero s =>
    cases v with
    | notANumber => exact absurd rfl defined'
    | infinity | finite => exact ⟨_, rfl⟩
    | zero t => cases s <;> cases t <;> exact ⟨_, rfl⟩
  | finite =>
    cases v with
    | notANumber => exact absurd rfl defined'
    | infinity | zero => exact ⟨_, rfl⟩
    | finite => exact exists_signed_normalize ..

theorem unpack_ne_infinity {x : Float} (finite : isFinite x = true) (s : Sign) :
    x.toModel.unpack ≠ .infinity s := by
  obtain ⟨t, same | ⟨mantissa, exponent, positive, same⟩⟩ := finite_unpack finite <;> rw [same] <;> nofun

/-- Numbers of which one is finite have a difference. -/
theorem isNumber_sub {x y : Float} (number : IsNumber x) (number' : IsNumber y)
    (finite : isFinite x = true ∨ isFinite y = true) : IsNumber (x - y) := by
  have signed : ∃ s, Signed s (UnpackedFloat.sub .binary64 x.toModel.unpack y.toModel.unpack) := by
    refine exists_signed_sub ((isNumber_iff_unpack x).mp number) ((isNumber_iff_unpack y).mp number') ?_
    rintro s t ⟨same, same'⟩
    rcases finite with finite | finite
    · exact unpack_ne_infinity finite s same
    · exact unpack_ne_infinity finite t same'
  rw [sub_eq]
  exact signed.choose_spec.packed.1

/-- What is undefined is not left of anything, and leaves nothing that is defined. -/
theorem isNumber_of_sub {x y : Float} (number : IsNumber (x - y)) : IsNumber x ∧ IsNumber y := by
  have nothing : ¬ IsNumber (packed .notANumber) := by decide
  rw [sub_eq] at number
  constructor <;> by_contra undefined <;> rw [isNumber_iff_unpack, not_not] at undefined
  · rw [undefined] at number
    exact nothing number
  · rw [undefined] at number
    cases same : x.toModel.unpack <;> rw [same] at number <;> exact nothing number

/-- An infinite double leaves an infinite one, or nothing that is defined. -/
theorem sub_of_infinite {x : Float} (infinite : isFinite x = false) (number : IsNumber x) (y : Float) :
    ¬ IsNumber (x - y) ∨ ∃ s, x - y = packed (.infinity s) := by
  have nothing : ¬ IsNumber (packed .notANumber) := by decide
  have unpacked : ∃ s, x.toModel.unpack = .infinity s := by
    have form := stands x
    have size := (isFinite_iff_magnitude x).not.mp (by simp [infinite])
    generalize magnitude x = size' at form size
    have defined := (isNumber_iff_unpack x).mp number
    generalize x.toModel.unpack = value at form defined
    cases form with
    | undefined => exact absurd rfl defined
    | infinite => exact ⟨_, rfl⟩
    | zero => exact absurd (by decide) size
    | finite fits => exact absurd fits.lt_horizon size
  obtain ⟨s, same⟩ := unpacked
  rw [sub_eq, same]
  cases y.toModel.unpack with
  | notANumber => exact .inl nothing
  | infinity t =>
    cases s <;> cases t
    · exact .inl nothing
    · exact .inr ⟨_, rfl⟩
    · exact .inr ⟨_, rfl⟩
    · exact .inl nothing
  | zero t => exact .inr ⟨_, rfl⟩
  | finite t mantissa exponent positive => exact .inr ⟨_, rfl⟩

/-- What is no further than a finite distance from something is finite. -/
theorem isFinite_of_close {x y reach : Float} (close : Scalar.abs (x - y) ≤ reach)
    (number : IsNumber x) (finite : isFinite reach = true) : isFinite x = true := by
  by_contra infinite
  obtain ⟨defined, _, below⟩ := le_iff.mp close
  have short : rank reach < horizon := by
    have size := (isFinite_iff_magnitude reach).mp finite
    rw [rank]
    cases sign reach <;> simp only [Sign.apply] <;> omega
  rcases sub_of_infinite (by simpa using infinite) number y with undefined | ⟨s, same⟩
  · rw [Scalar.abs, if_neg (fun less => undefined (lt_iff.mp less).1)] at defined
    exact undefined defined
  · rw [same] at below
    have far : (horizon : Int) ≤ rank (Scalar.abs (packed (.infinity s))) := by
      cases s <;> decide
    omega

theorem isNumber_mul {x y : Float} (finite : isFinite x = true) (finite' : isFinite y = true) :
    IsNumber (x * y) := by
  have signed : ∃ s, Signed s (UnpackedFloat.mul .binary64 x.toModel.unpack y.toModel.unpack) := by
    obtain ⟨s, same | ⟨_, _, _, same⟩⟩ := finite_unpack finite <;>
      obtain ⟨t, same' | ⟨_, _, _, same'⟩⟩ := finite_unpack finite' <;> rw [same, same']
    · exact ⟨_, rfl⟩
    · exact ⟨_, rfl⟩
    · exact ⟨_, rfl⟩
    · exact ⟨_, signed_roundWithAccuracy ..⟩
  rw [mul_eq]
  exact signed.choose_spec.packed.1

theorem unpack_one : (1 : Float).toModel.unpack = .finite .positive (2 ^ 52) (-52) (by decide) := rfl

/-- One less what is undefined is undefined, and less a number it is a number. -/
theorem isNumber_one_sub {x : Float} : IsNumber (1 - x) ↔ IsNumber x := by
  refine ⟨fun number => ?_, fun number => isNumber_sub isNumber_one number (.inl rfl)⟩
  by_contra undefined
  rw [isNumber_iff_unpack, not_not] at undefined
  rw [sub_eq, undefined] at number
  exact absurd number (by decide)

/-- The digits of one less those of a number, at the precision of the number. -/
theorem one_sub_finite (s : Sign) {mantissa : Nat} {exponent : Int} (fits : Fits mantissa exponent)
    (coarse : exponent ≤ -52) :
    UnpackedFloat.sub .binary64 (1 : Float).toModel.unpack (.finite s mantissa exponent fits.positive) =
      normalize .binary64 (2 ^ (-exponent).toNat - s.apply mantissa) exponent .positive := by
  have least : min (-52) exponent = exponent := min_eq_right coarse
  have whole : (2 ^ 52 : Nat) <<< (-52 - exponent).toNat = 2 ^ (-exponent).toNat := by
    rw [Nat.shiftLeft_eq, ← Nat.pow_add]
    congr 1
    omega
  have digits : UnpackedFloat.sub .binary64 (1 : Float).toModel.unpack
      (.finite s mantissa exponent fits.positive) = normalize .binary64
        (((2 ^ 52 : Nat) <<< (-52 - min (-52) exponent).toNat : Nat) -
          s.apply (mantissa <<< (exponent - min (-52) exponent).toNat : Nat))
        (min (-52) exponent) .positive := rfl
  rw [digits, least, whole, sub_self, Int.toNat_zero, Nat.shiftLeft_zero]
  push_cast
  rfl

/-- What is at most one has no coarser digits than one, and leaves something of it. -/
theorem Fits.within_one {mantissa : Nat} {exponent : Int} (fits : Fits mantissa exponent)
    (within : (exponent + 1074).toNat * 2 ^ 52 + mantissa ≤ 1023 * 2 ^ 52) :
    exponent ≤ -52 ∧ (mantissa : Int) ≤ 2 ^ (-exponent).toNat := by
  obtain ⟨⟨width, lowest, full⟩, positive, _⟩ := fits
  have coarse : exponent ≤ -52 := by omega
  refine ⟨coarse, ?_⟩
  rcases coarse.lt_or_eq with less | rfl
  · have enough : 53 ≤ (-exponent).toNat := by omega
    exact_mod_cast width.le.trans (Nat.pow_le_pow_right (by decide) enough)
  · change (mantissa : Int) ≤ 2 ^ 52
    omega

/-- What is left of one after a number that is not above it has a positive sign. -/
theorem signed_one_sub {x : Float} (number : IsNumber x) (within : rank x ≤ rank 1) :
    Signed .positive (UnpackedFloat.sub .binary64 (1 : Float).toModel.unpack x.toModel.unpack) := by
  have far : (1023 * 2 ^ 52 : Nat) < horizon := by decide
  have form := stands x
  have defined := (isNumber_iff_unpack x).mp number
  rw [rank_one, rank] at within
  generalize sign x = s at form within
  generalize magnitude x = size at form within
  generalize x.toModel.unpack = value at form defined
  cases form with
  | undefined => exact absurd rfl defined
  | infinite =>
    cases s
    · rfl
    · simp only [Sign.apply] at within
      omega
  | zero => rfl
  | @finite mantissa exponent fits =>
    cases s
    · rw [unpack_one]
      refine signed_normalize ?_ _
      simp only [Sign.apply, sub_neg_eq_add]
      exact Int.add_nonneg (Int.natCast_nonneg _) (Int.natCast_nonneg _)
    · simp only [Sign.apply] at within
      obtain ⟨coarse, left⟩ := fits.within_one (by omega)
      rw [one_sub_finite _ fits coarse]
      exact signed_normalize (sub_nonneg_of_le left) _

/-- What is left of one after a part of it is not further from zero than one. -/
theorem magnitude_one_sub_le {x : Float} (nonneg : 0 ≤ rank x) (within : rank x ≤ rank 1) :
    magnitude (1 - x) ≤ magnitude 1 := by
  have far : (1023 * 2 ^ 52 : Nat) < horizon := by decide
  have form := stands x
  rw [rank_one, rank] at within
  rw [rank] at nonneg
  rw [sub_eq]
  generalize sign x = s at form within nonneg
  generalize magnitude x = size at form within nonneg
  generalize x.toModel.unpack = value at form
  cases form with
  | undefined | infinite => cases s <;> simp only [Sign.apply] at nonneg within <;> omega
  | zero => exact Nat.le_refl _
  | @finite mantissa exponent fits =>
    have positive := fits.positive
    cases s <;> simp only [Sign.apply] at nonneg within
    · omega
    · obtain ⟨coarse, left⟩ := fits.within_one (by omega)
      rw [one_sub_finite _ fits coarse]
      refine magnitude_normalize_le (sub_nonneg_of_le left) ?_ (by omega)
      simp only [Sign.apply]
      omega

theorem one_sub_nonneg {x : Float} (within : x ≤ 1) : 0 ≤ 1 - x := by
  obtain ⟨number, _, within⟩ := le_iff.mp within
  obtain ⟨defined, positive⟩ := (signed_one_sub number within).packed
  refine le_iff.mpr ⟨isNumber_zero, defined, ?_⟩
  rw [rank_zero, rank, sub_eq, positive]
  exact Int.natCast_nonneg _

theorem one_sub_le_one {x : Float} (nonneg : 0 ≤ x) (within : x ≤ 1) : 1 - x ≤ 1 := by
  obtain ⟨number, _, within⟩ := le_iff.mp within
  obtain ⟨_, _, nonneg⟩ := le_iff.mp nonneg
  obtain ⟨defined, positive⟩ := (signed_one_sub number within).packed
  have own : rank 1 = magnitude 1 := rfl
  refine le_iff.mpr ⟨defined, isNumber_one, ?_⟩
  rw [rank_zero] at nonneg
  rw [own, rank, sub_eq, positive]
  exact Int.ofNat_le.mpr (magnitude_one_sub_le nonneg within)

end DesignCompiler.Binary64
