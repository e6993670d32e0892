import DesignCompiler.Proofs.Digits
import DesignCompiler.Proofs.Writing
import DesignCompiler.Scalar.Double

/-!
The fewest digits of a double tell it from every other one. Around each finite double lie the numbers that
read back as it; these intervals do not overlap, and the digits that are chosen lie in that of their double.
Seventeen digits after the leading one are always enough to find some there.
-/
namespace DesignCompiler.Binary64

/-- A mantissa and an exponent that a double is stored with. -/
structure Stored (mantissa : Nat) (exponent : Int) : Prop where
  width : mantissa < 2 ^ 53
  lowest : -1074 ≤ exponent
  full : -1074 < exponent → 2 ^ 52 ≤ mantissa

theorem stored_of_ofFloat {x : Float} {negative : Bool} {mantissa : Nat} {exponent : Int}
    (form : ofFloat x = .finite negative mantissa exponent) : Stored mantissa exponent := by
  have unit : hiddenUnit = 2 ^ 52 := rfl
  have fraction : x.toBits.toNat % hiddenUnit < 2 ^ 52 := Nat.mod_lt _ (by decide)
  simp only [ofFloat] at form
  split at form
  · split at form <;> cases form
  · split at form
    · cases form
      exact ⟨by omega, by omega, by omega⟩
    · cases form
      exact ⟨by omega, by omega, by omega⟩

theorem toBits_of_ofFloat {x y : Float} {negative : Bool} {mantissa : Nat} {exponent : Int}
    (form : ofFloat x = .finite negative mantissa exponent)
    (form' : ofFloat y = .finite negative mantissa exponent) : x.toBits = y.toBits := by
  have fields : ∀ {x : Float}, ofFloat x = .finite negative mantissa exponent →
      x.toBits.toNat = (if negative then 2 ^ 63 else 0) +
        (if mantissa < 2 ^ 52 then 0 else (exponent + 1075).toNat) * 2 ^ 52 + mantissa % 2 ^ 52 := by
    intro x form
    have unit : hiddenUnit = 2 ^ 52 := rfl
    have bound := x.toBits.toNat_lt
    simp only [ofFloat, Nat.shiftRight_eq_div_pow, unit] at form
    have parts : x.toBits.toNat = x.toBits.toNat / 2 ^ 63 * 2 ^ 63 +
        x.toBits.toNat / 2 ^ 52 % 2048 * 2 ^ 52 + x.toBits.toNat % 2 ^ 52 := by omega
    have single : x.toBits.toNat / 2 ^ 63 ≤ 1 := by omega
    have short : x.toBits.toNat % 2 ^ 52 < 2 ^ 52 := Nat.mod_lt _ (by decide)
    generalize x.toBits.toNat / 2 ^ 63 = sign at *
    generalize x.toBits.toNat / 2 ^ 52 % 2048 = power at *
    generalize x.toBits.toNat % 2 ^ 52 = fraction at *
    obtain rfl | rfl : sign = 0 ∨ sign = 1 := by omega
    all_goals
      split at form
      · split at form <;> cases form
      · split at form
        · rename_i zero
          cases form
          rw [parts, zero, if_pos short, Nat.mod_eq_of_lt short]
          rfl
        · cases form
          have unbiased : ((power : Int) - 1075 + 1075).toNat = power := by omega
          rw [parts, if_neg (show ¬2 ^ 52 + fraction < 2 ^ 52 by omega), unbiased, Nat.add_mod_left,
            Nat.mod_eq_of_lt short]
          rfl
  exact UInt64.toNat_inj.mp ((fields form).trans (fields form').symm)

/-- Half the way to the next lesser double. -/
def lowEnd (mantissa : Nat) (exponent : Int) : ℚ :=
  (4 * mantissa - (if mantissa = 2 ^ 52 ∧ -1074 < exponent then 1 else 2)) * (2 : ℚ) ^ exponent / 4

/-- Half the way to the next greater double. -/
def highEnd (mantissa : Nat) (exponent : Int) : ℚ := (4 * mantissa + 2) * (2 : ℚ) ^ exponent / 4

/-- A number reads back as a double: at the ends only if the mantissa is even. -/
structure ReadsAs (mantissa : Nat) (exponent : Int) (number : ℚ) : Prop where
  above : lowEnd mantissa exponent ≤ number
  below : number ≤ highEnd mantissa exponent
  inside : mantissa % 2 ≠ 0 → lowEnd mantissa exponent < number ∧ number < highEnd mantissa exponent

/-- One double is less than another of the same sign. -/
def Lesser (mantissa : Nat) (exponent : Int) (mantissa' : Nat) (exponent' : Int) : Prop :=
  exponent < exponent' ∨ exponent = exponent' ∧ mantissa < mantissa'

variable {mantissa mantissa' : Nat} {exponent exponent' : Int} {number : ℚ}

/-- The intervals of two doubles meet at most at an end, and then one mantissa is odd. -/
theorem ends_apart (stored : Stored mantissa exponent) (stored' : Stored mantissa' exponent')
    (lesser : Lesser mantissa exponent mantissa' exponent') :
    highEnd mantissa exponent ≤ lowEnd mantissa' exponent' ∧
      (mantissa % 2 = 0 → mantissa' % 2 = 0 → highEnd mantissa exponent < lowEnd mantissa' exponent') := by
  have unit : (0 : ℚ) < 2 ^ exponent := by positivity
  -- across exponents the greatest mantissa below meets the least one above; within one, neighbours meet
  rcases lesser with coarser | ⟨rfl, less⟩
  · have least : ((2 ^ 54 - 1 : ℚ)) * (2 * 2 ^ exponent) / 4 ≤ lowEnd mantissa' exponent' := by
      have lowest := stored.lowest
      have full : (2 ^ 52 : ℚ) ≤ mantissa' := by exact_mod_cast stored'.full (by omega)
      have units : (2 : ℚ) * 2 ^ exponent ≤ 2 ^ exponent' := by
        rw [mul_comm, ← zpow_add_one₀ (by norm_num)]
        exact zpow_le_zpow_right₀ (by norm_num) (by omega)
      have mantissas : (2 ^ 54 - 1 : ℚ) ≤
          4 * mantissa' - (if mantissa' = 2 ^ 52 ∧ -1074 < exponent' then 1 else 2) := by
        split
        · linarith
        · rename_i other
          have more : 2 ^ 52 + 1 ≤ mantissa' := by
            have full := stored'.full (by omega)
            omega
          have more' : (2 ^ 52 + 1 : ℚ) ≤ mantissa' := by exact_mod_cast more
          linarith
      have bound := mul_le_mul mantissas units (by positivity) (by linarith)
      rw [lowEnd]
      exact div_le_div_of_nonneg_right bound (by norm_num)
    have reach : ∀ most : Nat, mantissa ≤ most →
        highEnd mantissa exponent ≤ (4 * most + 2) * 2 ^ exponent / 4 := by
      intro most small
      have small' : (mantissa : ℚ) ≤ most := by exact_mod_cast small
      rw [highEnd]
      gcongr
    have width := stored.width
    constructor
    · have high := reach (2 ^ 53 - 1) (by omega)
      norm_num at high least ⊢
      linarith
    · intro even _
      have high := reach (2 ^ 53 - 2) (by omega)
      norm_num at high least ⊢
      linarith
  · have least : ∀ some : Nat, some ≤ mantissa' →
        (4 * some - 2) * (2 : ℚ) ^ exponent / 4 ≤ lowEnd mantissa' exponent := by
      intro some small
      have small' : (some : ℚ) ≤ mantissa' := by exact_mod_cast small
      rw [lowEnd]
      gcongr
      split <;> norm_num
    rw [highEnd]
    constructor
    · have low := least (mantissa + 1) less
      push_cast at low
      linarith
    · intro even even'
      have low := least (mantissa + 2) (by omega)
      push_cast at low
      linarith

theorem not_lesser_of_readsAs (stored : Stored mantissa exponent) (stored' : Stored mantissa' exponent')
    (reads : ReadsAs mantissa exponent number) (reads' : ReadsAs mantissa' exponent' number) :
    ¬Lesser mantissa exponent mantissa' exponent' := by
  intro lesser
  obtain ⟨apart, strict⟩ := ends_apart stored stored' lesser
  have within := reads.below
  have within' := reads'.above
  by_cases even : mantissa % 2 = 0
  · by_cases even' : mantissa' % 2 = 0
    · have := strict even even'
      linarith
    · have := (reads'.inside even').1
      linarith
  · have := (reads.inside even).2
    linarith

theorem eq_of_readsAs (stored : Stored mantissa exponent) (stored' : Stored mantissa' exponent')
    (reads : ReadsAs mantissa exponent number) (reads' : ReadsAs mantissa' exponent' number) :
    mantissa = mantissa' ∧ exponent = exponent' := by
  have least := not_lesser_of_readsAs stored stored' reads reads'
  have greatest := not_lesser_of_readsAs stored' stored reads' reads
  simp only [Lesser, not_or, not_and] at least greatest
  omega

section Search

variable {tie : Tie} {closed : Bool} {low value high scale : Nat} {power leading : Int} {digits : Nat}

theorem divideNear_near (tie : Tie) (n : Nat) {d : Nat} (positive : 0 < d) :
    2 * (divideNear tie n d * d) ≤ 2 * n + d ∧ 2 * n ≤ 2 * (divideNear tie n d * d) + d := by
  have parts : n / d * d + n % d = n := Nat.div_add_mod' n d
  have rest : n % d < d := Nat.mod_lt _ positive
  have next : (n / d + 1) * d = n / d * d + d := Nat.succ_mul _ _
  simp only [divideNear]
  split
  · omega
  · split
    · omega
    · cases tie with
      | away => simp only; omega
      | even =>
        simp only
        split <;> omega

theorem fits_of_first {fits : Nat → Bool} {first second third : Nat}
    (chosen : (if fits first then some first else if fits second then some second
      else if fits third then some third else none) = some digits) : fits digits = true := by
  split at chosen
  · cases chosen
    assumption
  · split at chosen
    · cases chosen
      assumption
    · split at chosen
      · cases chosen
        assumption
      · cases chosen

/-- A candidate that is chosen lies between the bounds, strictly if they are not to be hit. -/
theorem between_of_onGrid (chosen : onGrid tie closed low value high scale power = some digits) :
    low * 10 ^ (-power).toNat ≤ digits * (scale * 10 ^ power.toNat) ∧
      digits * (scale * 10 ^ power.toNat) ≤ high * 10 ^ (-power).toNat ∧
      (closed = false → low * 10 ^ (-power).toNat < digits * (scale * 10 ^ power.toNat) ∧
        digits * (scale * 10 ^ power.toNat) < high * 10 ^ (-power).toNat) := by
  simp only [onGrid, Nat.pow_eq] at chosen
  generalize low * 10 ^ (-power).toNat = least at *
  generalize high * 10 ^ (-power).toNat = most at *
  generalize scale * 10 ^ power.toNat = step at *
  have fits := @fits_of_first digits (fun candidate => if closed = true then
    decide (least ≤ candidate * step) && decide (candidate * step ≤ most)
    else decide (least < candidate * step) && decide (candidate * step < most)) _ _ _ chosen
  cases closed <;> simp at fits ⊢ <;> omega

/-- Where the grid is finer than the room around the value, there is a candidate. -/
theorem onGrid_isSome (positive : 0 < scale)
    (below : scale * 10 ^ power.toNat + 2 * (low * 10 ^ (-power).toNat) < 2 * (value * 10 ^ (-power).toNat))
    (above : scale * 10 ^ power.toNat + 2 * (value * 10 ^ (-power).toNat) < 2 * (high * 10 ^ (-power).toNat)) :
    (onGrid tie closed low value high scale power).isSome := by
  have near := divideNear_near tie (value * 10 ^ (-power).toNat)
    (Nat.mul_pos positive (Nat.pow_pos (by decide)) : 0 < scale * 10 ^ power.toNat)
  simp only [onGrid, Nat.pow_eq]
  rw [if_pos]
  · rfl
  · cases closed <;> simp <;> omega

theorem onGrid_of_shortestFrom {fuel count : Nat}
    (found : shortestFrom tie closed low value high scale leading fuel count = some (digits, power)) :
    onGrid tie closed low value high scale power = some digits := by
  induction fuel generalizing count with
  | zero => cases found
  | succ fuel ih =>
    rw [shortestFrom] at found
    cases chosen : onGrid tie closed low value high scale (leading - count) with
    | some candidate =>
      simp only [chosen, Option.some.injEq, Prod.mk.injEq] at found
      obtain ⟨rfl, rfl⟩ := found
      exact chosen
    | none =>
      simp only [chosen] at found
      exact ih found

theorem shortestFrom_isSome {fuel count : Nat} (more : Nat) (early : more < fuel)
    (chosen : (onGrid tie closed low value high scale (leading - (count + more : Nat))).isSome) :
    (shortestFrom tie closed low value high scale leading fuel count).isSome := by
  induction fuel generalizing count more with
  | zero => omega
  | succ fuel ih =>
    rw [shortestFrom]
    cases here : onGrid tie closed low value high scale (leading - count) with
    | some candidate => rfl
    | none =>
      cases more with
      | zero =>
        rw [Nat.add_zero, here] at chosen
        cases chosen
      | succ more =>
        refine ih more (by omega) ?_
        rwa [Nat.add_right_comm]

/-- The power of ten of the leading digit is not above the number. -/
theorem leadingPower_le {n d : Nat} (positive : 0 < n) (nonzero : 0 < d) :
    (10 : ℚ) ^ leadingPower n d * d ≤ n := by
  rw [leadingPower]
  split
  · rename_i large
    have quotient := Decimal.pow_length_le (Nat.div_pos large nonzero)
    have bound : 10 ^ (Decimal.length (n / d) - 1) * d ≤ n :=
      (Nat.mul_le_mul_right d quotient).trans (Nat.div_mul_le_self n d)
    have power : ((Decimal.length (n / d) : Int) - 1) = (Decimal.length (n / d) - 1 : Nat) := by
      have := Decimal.length_pos (n / d)
      omega
    rw [power, zpow_natCast]
    exact_mod_cast bound
  · have quotient := Decimal.digits_lt_length ((d + n - 1) / n - 1)
    generalize Decimal.length ((d + n - 1) / n - 1) = length at *
    have bound : d ≤ n * 10 ^ length := by
      have shares : (d + n - 1) / n ≤ 10 ^ length := by omega
      have whole := Nat.mul_le_mul_left n shares
      have parts := Nat.div_add_mod (d + n - 1) n
      have rest := Nat.mod_lt (d + n - 1) positive
      omega
    rw [zpow_neg, zpow_natCast, inv_mul_le_iff₀ (by positivity), mul_comm]
    exact_mod_cast bound

end Search

theorem zpow_toNat {base : ℚ} (nonzero : base ≠ 0) (power : Int) :
    base ^ power * base ^ (-power).toNat = base ^ power.toNat := by
  rw [← zpow_natCast, ← zpow_natCast, ← zpow_add₀ nonzero]
  congr 1
  omega

/-- The double, the ends of its interval and one, in units in which all are whole. -/
structure Counted (mantissa : Nat) (exponent : Int) (low value high scale : Nat) : Prop where
  positive : 0 < scale
  low_eq : (low : ℚ) = lowEnd mantissa exponent * scale
  value_eq : (value : ℚ) = mantissa * 2 ^ exponent * scale
  high_eq : (high : ℚ) = highEnd mantissa exponent * scale

theorem counted {mantissa : Nat} (exponent : Int) (positive : 0 < mantissa) :
    Counted mantissa exponent
      (if mantissa = hiddenUnit ∧ exponent > -1074 then (4 * mantissa - 1) * (1 <<< exponent.toNat)
        else (4 * mantissa - 2) * (1 <<< exponent.toNat))
      (4 * mantissa * (1 <<< exponent.toNat)) ((4 * mantissa + 2) * (1 <<< exponent.toNat))
      (4 <<< (-exponent).toNat) := by
  have units : (2 : ℚ) ^ exponent.toNat = 2 ^ exponent * 2 ^ (-exponent).toNat :=
    (zpow_toNat (by norm_num) exponent).symm
  have unit : hiddenUnit = 2 ^ 52 := rfl
  simp only [Nat.shiftLeft_eq, unit, one_mul]
  refine ⟨by positivity, ?_, ?_, ?_⟩
  · rw [lowEnd]
    split
    · rw [Nat.cast_mul, Nat.cast_sub (by omega)]
      push_cast
      rw [units]
      ring
    · rw [Nat.cast_mul, Nat.cast_sub (by omega)]
      push_cast
      rw [units]
      ring
  · push_cast
    rw [units]
    ring
  · rw [highEnd]
    push_cast
    rw [units]
    ring

variable {tie : Tie} {low value high scale : Nat} {power : Int} {digits : Nat}

theorem readsAs_of_onGrid (count : Counted mantissa exponent low value high scale)
    (chosen : onGrid tie (mantissa % 2 = 0) low value high scale power = some digits) :
    ReadsAs mantissa exponent (digits * 10 ^ power) := by
  have unit : (0 : ℚ) < scale * 10 ^ (-power).toNat := by
    have := count.positive
    positivity
  have place : (digits * 10 ^ power : ℚ) * (scale * 10 ^ (-power).toNat) =
      (digits * (scale * 10 ^ power.toNat) : Nat) := by
    push_cast
    rw [← zpow_toNat (by norm_num) power]
    ring
  have bottom : lowEnd mantissa exponent * (scale * 10 ^ (-power).toNat) =
      (low * 10 ^ (-power).toNat : Nat) := by
    push_cast
    rw [count.low_eq]
    ring
  have top : highEnd mantissa exponent * (scale * 10 ^ (-power).toNat) =
      (high * 10 ^ (-power).toNat : Nat) := by
    push_cast
    rw [count.high_eq]
    ring
  obtain ⟨above, below, inside⟩ := between_of_onGrid chosen
  refine ⟨?_, ?_, fun odd => ?_⟩
  · rw [← mul_le_mul_iff_of_pos_right unit, place, bottom]
    exact_mod_cast above
  · rw [← mul_le_mul_iff_of_pos_right unit, place, top]
    exact_mod_cast below
  · obtain ⟨above, below⟩ := inside (decide_eq_false odd)
    constructor
    · rw [← mul_lt_mul_iff_of_pos_right unit, place, bottom]
      exact_mod_cast above
    · rw [← mul_lt_mul_iff_of_pos_right unit, place, top]
      exact_mod_cast below

/-- On a grid of less than half the last digit there are digits for the double. -/
theorem onGrid_of_fine (count : Counted mantissa exponent low value high scale) {closed : Bool}
    (fine : (10 : ℚ) ^ power * 2 < 2 ^ exponent) :
    (onGrid tie closed low value high scale power).isSome := by
  have unit : (0 : ℚ) < scale * 10 ^ (-power).toNat := by
    have := count.positive
    positivity
  have step : ((scale * 10 ^ power.toNat : Nat) : ℚ) = 10 ^ power * (scale * 10 ^ (-power).toNat) := by
    push_cast
    rw [← zpow_toNat (by norm_num) power]
    ring
  have room : 10 ^ power + 2 * lowEnd mantissa exponent < 2 * (mantissa * 2 ^ exponent) := by
    have last : (0 : ℚ) < 2 ^ exponent := by positivity
    rw [lowEnd]
    split <;> linarith
  have room' : 10 ^ power + 2 * (mantissa * 2 ^ exponent) < 2 * highEnd mantissa exponent := by
    have grid : (0 : ℚ) < 10 ^ power := by positivity
    rw [highEnd]
    linarith
  refine onGrid_isSome count.positive ?_ ?_
  · have scaled := mul_lt_mul_of_pos_right room unit
    have scaled' : ((scale * 10 ^ power.toNat + 2 * (low * 10 ^ (-power).toNat) : Nat) : ℚ) <
        (2 * (value * 10 ^ (-power).toNat) : Nat) := by
      push_cast at step ⊢
      rw [step, count.low_eq, count.value_eq]
      linarith
    exact_mod_cast scaled'
  · have scaled := mul_lt_mul_of_pos_right room' unit
    have scaled' : ((scale * 10 ^ power.toNat + 2 * (value * 10 ^ (-power).toNat) : Nat) : ℚ) <
        (2 * (high * 10 ^ (-power).toNat) : Nat) := by
      push_cast at step ⊢
      rw [step, count.high_eq, count.value_eq]
      linarith
    exact_mod_cast scaled'

/-- Eighteen digits are enough, since a double has no more than sixteen before the point. -/
theorem shortestFrom_finds (tie : Tie) (closed : Bool) (stored : Stored mantissa exponent) (some : 0 < mantissa)
    (count : Counted mantissa exponent low value high scale) :
    (shortestFrom tie closed low value high scale (leadingPower value scale) 18 0).isSome := by
  refine shortestFrom_isSome 17 (by decide) (onGrid_of_fine count ?_)
  have scale_pos : (0 : ℚ) < scale := by exact_mod_cast count.positive
  have mantissa_pos : (0 : ℚ) < mantissa := by exact_mod_cast some
  have last : (0 : ℚ) < 2 ^ exponent := by positivity
  have value_pos : 0 < value := by
    have positive : (0 : ℚ) < value := by
      rw [count.value_eq]
      positivity
    exact_mod_cast positive
  have leading : (10 : ℚ) ^ leadingPower value scale ≤ mantissa * 2 ^ exponent := by
    have bound := leadingPower_le value_pos count.positive
    rw [count.value_eq] at bound
    exact le_of_mul_le_mul_right bound scale_pos
  have width : (mantissa : ℚ) * 2 ^ exponent < 2 ^ 53 * 2 ^ exponent := by
    have width : (mantissa : ℚ) < 2 ^ 53 := by exact_mod_cast stored.width
    gcongr
  rw [Nat.zero_add, zpow_sub₀ (by norm_num)]
  norm_num at width ⊢
  linarith

/-- The digits of a finite double have its sign and read back as it. -/
theorem shortest_spec (tie : Tie) {x : Float} {negative : Bool}
    (form : ofFloat x = .finite negative mantissa exponent) :
    ∃ d, shortest tie x = some d ∧ d.negative = negative ∧ d.Normal ∧
      ReadsAs mantissa exponent d.size := by
  have stored := stored_of_ofFloat form
  rw [shortest, form]
  rcases Nat.eq_zero_or_pos mantissa with rfl | positive
  · refine ⟨_, rfl, rfl, .inr ⟨rfl, rfl⟩, ?_⟩
    have last : (0 : ℚ) < 2 ^ exponent := by positivity
    rw [Decimal.size, Nat.cast_zero, zero_mul]
    refine ⟨?_, ?_, fun odd => absurd rfl odd⟩
    · rw [lowEnd, if_neg (by omega)]
      norm_num
      linarith
    · rw [highEnd]
      norm_num
      linarith
  · have count := counted exponent positive
    obtain ⟨⟨digits, power⟩, found⟩ := Option.isSome_iff_exists.mp
      (shortestFrom_finds tie (mantissa % 2 = 0) stored positive count)
    refine ⟨Decimal.normalize ⟨negative, digits, power⟩, ?_, Decimal.normalize_negative _,
      Decimal.normal_normalize _, ?_⟩
    · simp only [if_neg positive.ne', found]
    · rw [Decimal.size_normalize]
      exact readsAs_of_onGrid count (onGrid_of_shortestFrom found)

/-- The bits of a finite double. -/
def bits? (x : Float) : Option UInt64 := if isFinite x then some x.toBits else none

theorem finite_cases (tie : Tie) (x : Float) :
    (∃ negative mantissa exponent, ofFloat x = .finite negative mantissa exponent ∧
      bits? x = some x.toBits) ∨ shortest tie x = none ∧ bits? x = none := by
  rw [bits?, isFinite, shortest]
  split
  · exact .inl ⟨_, _, _, ‹_›, rfl⟩
  · exact .inr ⟨rfl, rfl⟩

theorem normal_of_shortest {tie : Tie} {x : Float} {d : Decimal} (digits : shortest tie x = some d) :
    d.Normal := by
  rcases finite_cases tie x with ⟨_, _, _, form, _⟩ | ⟨none, _⟩
  · obtain ⟨e, digits', -, normal, -⟩ := shortest_spec tie form
    obtain rfl : d = e := Option.some.inj (digits.symm.trans digits')
    exact normal
  · rw [none] at digits
    cases digits

theorem bits?_of_shortest (tie : Tie) {x y : Float} (same : shortest tie x = shortest tie y) :
    bits? x = bits? y := by
  rcases finite_cases tie x with ⟨negative, mantissa, exponent, form, bits⟩ | ⟨none, bits⟩ <;>
    rcases finite_cases tie y with ⟨negative', mantissa', exponent', form', bits'⟩ | ⟨none', bits'⟩
  · obtain ⟨d, digits, rfl, -, reads⟩ := shortest_spec tie form
    obtain ⟨e, digits', rfl, -, reads'⟩ := shortest_spec tie form'
    obtain rfl : d = e := Option.some.inj (digits.symm.trans (same.trans digits'))
    obtain ⟨rfl, rfl⟩ := eq_of_readsAs (stored_of_ofFloat form) (stored_of_ofFloat form') reads reads'
    rw [bits, bits', toBits_of_ofFloat form form']
  · obtain ⟨_, digits, -⟩ := shortest_spec tie form
    rw [digits, none'] at same
    cases same
  · obtain ⟨_, digits, -⟩ := shortest_spec tie form'
    rw [digits, none] at same
    cases same
  · rw [bits, bits']

theorem bits?_of_written : bits?.FactorsThrough (Scalar.written (α := Float)) := by
  intro x y same
  refine bits?_of_shortest .even ?_
  rw [← Scalar.canonical_json, ← Scalar.canonical_json, Scalar.json_eq, Scalar.json_eq] at same
  have texts : ((shortest .even x).map Json.Number.decimal).map Json.Number.text =
      ((shortest .even y).map Json.Number.decimal).map Json.Number.text := Json.canonical_number? same
  rw [Option.map_map, Option.map_map] at texts
  cases digits : shortest .even x <;> cases digits' : shortest .even y <;> rw [digits, digits'] at texts
  · cases texts
  · cases texts
  · have equal := Decimal.dataText_inj (Option.some.inj texts)
    rw [Decimal.normalize_of_normal (normal_of_shortest digits),
      Decimal.normalize_of_normal (normal_of_shortest digits')] at equal
    rw [equal]

end DesignCompiler.Binary64
