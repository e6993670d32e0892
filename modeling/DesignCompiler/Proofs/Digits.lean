import DesignCompiler.Proofs.JsonText
import Mathlib.Algebra.Order.Field.Power
import Mathlib.Tactic.FieldSimp
import Mathlib.Tactic.Linarith
import Mathlib.Tactic.Ring

/-!
What the text of a decimal tells. Data files show every digit and the place of the point, so two decimals
with the same text are the same but for trailing zeros.
-/
namespace DesignCompiler.Decimal

/-- The number apart from its sign. -/
def size (d : Decimal) : ℚ := d.digits * (10 : ℚ) ^ d.exponent

/-- The last digit is not zero, unless the number is. -/
def Normal (d : Decimal) : Prop := d.digits % 10 ≠ 0 ∨ d.digits = 0 ∧ d.exponent = 0

theorem stripZeros_spec (fuel digits : Nat) (exponent : Int) (some : 0 < digits)
    (short : digits < 10 ^ fuel) :
    (stripZeros fuel digits exponent).1 % 10 ≠ 0 ∧
      ((stripZeros fuel digits exponent).1 : ℚ) * 10 ^ (stripZeros fuel digits exponent).2 =
        digits * 10 ^ exponent := by
  induction fuel generalizing digits exponent with
  | zero => omega
  | succ fuel ih =>
    rw [stripZeros]
    split
    · rename_i zero
      obtain ⟨tenth, rfl⟩ : 10 ∣ digits := Nat.dvd_of_mod_eq_zero zero
      rw [Nat.mul_div_cancel_left _ (by decide)]
      obtain ⟨last, same⟩ := ih tenth (exponent + 1) (by omega) (by rw [pow_succ] at short; omega)
      refine ⟨last, same.trans ?_⟩
      rw [zpow_add_one₀ (by norm_num)]
      push_cast
      ring
    · exact ⟨‹_›, rfl⟩

theorem length_pos (n : Nat) : 0 < length n := List.length_pos_iff.mpr Nat.toDigits_ne_nil

theorem digits_lt_length (n : Nat) : n < 10 ^ length n :=
  (Nat.length_toDigits_le_iff (by decide) (length_pos n)).mp (Nat.le_refl _)

theorem pow_length_le {n : Nat} (positive : 0 < n) : 10 ^ (length n - 1) ≤ n := by
  by_contra less
  rcases Nat.eq_zero_or_pos (length n - 1) with single | several
  · rw [single] at less
    omega
  · have shorter : length n ≤ length n - 1 :=
      (Nat.length_toDigits_le_iff (by decide) several).mpr (Nat.lt_of_not_le less)
    omega

theorem normalize_negative (d : Decimal) : d.normalize.negative = d.negative := by
  rw [normalize]
  split <;> rfl

theorem normal_normalize (d : Decimal) : d.normalize.Normal := by
  rw [normalize]
  split
  · rename_i zero
    exact .inr ⟨zero, rfl⟩
  · rename_i some
    exact .inl (stripZeros_spec _ _ _ (Nat.pos_of_ne_zero some) (digits_lt_length _)).1

theorem size_normalize (d : Decimal) : d.normalize.size = d.size := by
  rw [normalize]
  split
  · rename_i zero
    simp [size, zero]
  · rename_i some
    exact (stripZeros_spec _ _ _ (Nat.pos_of_ne_zero some) (digits_lt_length _)).2

/-- A number whose last digit is not zero has no coarser digits. -/
theorem exponent_le_of_size {d e : Decimal} (last : d.digits % 10 ≠ 0) (same : d.size = e.size) :
    e.exponent ≤ d.exponent := by
  by_contra coarser
  obtain ⟨places, apart⟩ : ∃ places : Nat, e.exponent = d.exponent + (places + 1) :=
    ⟨(e.exponent - d.exponent - 1).toNat, by omega⟩
  have positive : (0 : ℚ) < 10 ^ d.exponent := by positivity
  have digits : d.digits = e.digits * 10 ^ places * 10 := by
    rw [size, size, apart, zpow_add₀ (by norm_num), zpow_add_one₀ (by norm_num), zpow_natCast] at same
    have scaled : (d.digits : ℚ) * 10 ^ d.exponent =
        ((e.digits * 10 ^ places * 10 : Nat) : ℚ) * 10 ^ d.exponent := by
      rw [same]
      push_cast
      ring
    exact_mod_cast mul_right_cancel₀ positive.ne' scaled
  omega

theorem digits_eq_zero_of_size {d e : Decimal} (zero : d.digits = 0) (same : d.size = e.size) :
    e.digits = 0 := by
  have positive : (0 : ℚ) < 10 ^ e.exponent := by positivity
  rw [size, size, zero, Nat.cast_zero, zero_mul] at same
  exact_mod_cast (mul_eq_zero.mp same.symm).resolve_right positive.ne'

/-- Without trailing zeros the digits can be told from the number. -/
theorem normal_inj {d e : Decimal} (normal : d.Normal) (normal' : e.Normal) (same : d.size = e.size) :
    d.digits = e.digits ∧ d.exponent = e.exponent := by
  rcases normal with last | ⟨zero, least⟩
  · rcases normal' with last' | ⟨zero', _⟩
    · have exponents := le_antisymm (exponent_le_of_size last' same.symm) (exponent_le_of_size last same)
      have positive : (0 : ℚ) < 10 ^ e.exponent := by positivity
      rw [size, size, exponents] at same
      exact ⟨by exact_mod_cast mul_right_cancel₀ positive.ne' same, exponents⟩
    · have zero := digits_eq_zero_of_size zero' same.symm
      omega
  · have zero' := digits_eq_zero_of_size zero same
    rcases normal' with last' | ⟨_, least'⟩
    · omega
    · exact ⟨zero.trans zero'.symm, least.trans least'.symm⟩

theorem normalize_of_normal {d : Decimal} (normal : d.Normal) : d.normalize = d := by
  obtain ⟨digits, exponent⟩ := normal_inj (normal_normalize d) normal (size_normalize d)
  calc d.normalize = ⟨d.normalize.negative, d.normalize.digits, d.normalize.exponent⟩ := rfl
    _ = d := by rw [normalize_negative, digits, exponent]

/-- A text of nothing but digits. -/
def Digits (text : List Char) : Prop := ∀ c ∈ text, c.isDigit = true

theorem digits_toDigits (n : Nat) : Digits (Nat.toDigits 10 n) :=
  fun _ member => Nat.isDigit_of_mem_toDigits (by decide) (by decide) member

theorem digits_zeros (n : Nat) : Digits (List.replicate n '0') := by
  intro c member
  rw [List.eq_of_mem_replicate member]
  decide

theorem toDigits_inj {m n : Nat} (same : Nat.toDigits 10 m = Nat.toDigits 10 n) : m = n := by
  have value : ∀ n, Nat.ofDigitChars 10 (Nat.toDigits 10 n) 0 = n := fun n =>
    Nat.ofDigitChars_toDigits (by decide) (by decide)
  rw [← value m, same, value]

theorem ofDigitChars_zeros (places value : Nat) :
    Nat.ofDigitChars 10 (List.replicate places '0') value = value * 10 ^ places := by
  induction places generalizing value with
  | zero => simp [Nat.ofDigitChars]
  | succ places ih =>
    rw [List.replicate_succ, Nat.ofDigitChars_cons, ih, pow_succ]
    simp only [Nat.sub_self, Nat.add_zero]
    ring

/-- The text of a number in full: digits before and behind the point, which tell the number together with
the place of the point. -/
structure InFull (d : Decimal) (text whole fraction : List Char) : Prop where
  text_eq : text = whole ++ '.' :: fraction
  whole_digits : Digits whole
  fraction_digits : Digits fraction
  places : -d.exponent ≤ fraction.length
  value : Nat.ofDigitChars 10 (whole ++ fraction) 0 = d.digits * 10 ^ (d.exponent + fraction.length).toNat

theorem inFull_positional (d : Decimal) : ∃ whole fraction,
    d.InFull (d.positional ++ if d.exponent ≥ 0 then ".0" else "").toList whole fraction := by
  have shown := digits_toDigits d.digits
  have value : Nat.ofDigitChars 10 (Nat.toDigits 10 d.digits) 0 = d.digits :=
    Nat.ofDigitChars_toDigits (by decide) (by decide)
  by_cases integral : d.exponent ≥ 0
  · refine ⟨Nat.toDigits 10 d.digits ++ List.replicate d.exponent.toNat '0', ['0'],
      ⟨?_, ?_, ?_, ?_, ?_⟩⟩
    · rw [if_pos integral, positional, if_pos integral]
      simp [natText, zeros]
    · exact List.forall_mem_append.mpr ⟨shown, digits_zeros _⟩
    · simp [Digits]
    · simp only [List.length_singleton]
      omega
    · have zero : ['0'] = List.replicate 1 '0' := rfl
      rw [Nat.ofDigitChars_append, Nat.ofDigitChars_append, value, zero, ofDigitChars_zeros,
        ofDigitChars_zeros, List.length_replicate, Int.toNat_add integral (by omega), pow_add, mul_assoc]
      rfl
  · have places : d.exponent + ((-d.exponent).toNat : Int) = 0 := by omega
    rw [if_neg integral]
    by_cases long : (-d.exponent).toNat < (Nat.toDigits 10 d.digits).length
    · refine ⟨(Nat.toDigits 10 d.digits).take ((Nat.toDigits 10 d.digits).length - (-d.exponent).toNat),
        (Nat.toDigits 10 d.digits).drop ((Nat.toDigits 10 d.digits).length - (-d.exponent).toNat),
        ⟨?_, ?_, ?_, ?_, ?_⟩⟩
      · simp [positional, if_neg integral, if_pos long]
      · exact fun c member => shown c (List.mem_of_mem_take member)
      · exact fun c member => shown c (List.mem_of_mem_drop member)
      · rw [List.length_drop]
        omega
      · rw [List.take_append_drop, value, List.length_drop, Nat.sub_sub_self (Nat.le_of_lt long), places]
        simp
    -- all digits stand behind the point, after as many zeros as are missing
    · have length : (List.replicate ((-d.exponent).toNat - (Nat.toDigits 10 d.digits).length) '0' ++
          Nat.toDigits 10 d.digits).length = (-d.exponent).toNat := by
        rw [List.length_append, List.length_replicate]
        omega
      refine ⟨['0'], List.replicate ((-d.exponent).toNat - (Nat.toDigits 10 d.digits).length) '0' ++
        Nat.toDigits 10 d.digits, ⟨?_, ?_, ?_, ?_, ?_⟩⟩
      · simp [positional, if_neg integral, if_neg long, natText, zeros]
      · simp [Digits]
      · exact List.forall_mem_append.mpr ⟨digits_zeros _, shown⟩
      · rw [length]
        omega
      · have zero : ['0'] = List.replicate 1 '0' := rfl
        rw [length, places, Nat.ofDigitChars_append, Nat.ofDigitChars_append, zero, ofDigitChars_zeros,
          ofDigitChars_zeros, Nat.zero_mul, Nat.zero_mul, value]
        simp

theorem not_mem_digits {text : List Char} (digits : Digits text) {c : Char} (other : c.isDigit = false) :
    c ∉ text := by
  intro member
  rw [digits c member] at other
  cases other

/-- The digits of a text may be found by leaving out the point. -/
theorem filter_digits {text : List Char} (digits : Digits text) : text.filter Char.isDigit = text :=
  List.filter_eq_self.mpr digits

/-- A text of digits, with a point somewhere or without. -/
def Pointed (text : List Char) : Prop := ∀ c ∈ text, c.isDigit = true ∨ c = '.'

theorem not_mem_pointed {text : List Char} (pointed : Pointed text) {c : Char} (other : c.isDigit = false)
    (mark : c ≠ '.') : c ∉ text := by
  intro member
  rcases pointed c member with digit | rfl
  · rw [digit] at other
    cases other
  · exact mark rfl

theorem InFull.pointed {d : Decimal} {text whole fraction : List Char}
    (full : d.InFull text whole fraction) : Pointed text := by
  rw [full.text_eq]
  refine List.forall_mem_append.mpr ⟨fun c member => .inl (full.whole_digits c member), ?_⟩
  exact List.forall_mem_cons.mpr ⟨.inr rfl, fun c member => .inl (full.fraction_digits c member)⟩

/-- What follows the letter in front of a power of ten. -/
def raise (power : Int) : List Char :=
  (if power < 0 then '-' else '+') :: Nat.toDigits 10 power.natAbs

theorem not_mem_raise (power : Int) : 'e' ∉ raise power := by
  rw [raise, List.mem_cons, not_or]
  refine ⟨?_, not_mem_digits (digits_toDigits _) rfl⟩
  split <;> decide

theorem raise_inj {power other : Int} (same : raise power = raise other) : power = other := by
  obtain ⟨signs, powers⟩ := List.cons.inj same
  have sizes := toDigits_inj powers
  split at signs <;> split at signs <;> first | omega | exact absurd signs (by decide)

/-- A text with a power of ten shows the digits before it. -/
theorem scientific_eq (d : Decimal) : ∃ front, front.filter Char.isDigit = Nat.toDigits 10 d.digits ∧
    Pointed front ∧ d.scientific.toList = front ++ 'e' :: raise d.leading := by
  have shown := digits_toDigits d.digits
  have raised : ((if d.leading < 0 then "e-" else "e+") ++ natText d.leading.natAbs : String).toList =
      'e' :: raise d.leading := by
    rw [raise]
    split <;> simp [natText]
  simp only [scientific, String.append_assoc, String.toList_append]
  rw [String.toList_append] at raised
  rw [raised]
  split
  · rename_i none
    exact absurd none Nat.toDigits_ne_nil
  · rename_i digit single
    rw [single] at shown ⊢
    exact ⟨[digit], filter_digits shown, fun c member => .inl (shown c member), by simp⟩
  · rename_i digit rest _ several
    rw [several] at shown ⊢
    obtain ⟨first, others⟩ := List.forall_mem_cons.mp shown
    refine ⟨digit :: '.' :: rest, ?_, ?_, by simp⟩
    · rw [List.filter_cons, if_pos first, List.filter_cons, if_neg (by decide), filter_digits others]
    · exact List.forall_mem_cons.mpr ⟨.inl first, List.forall_mem_cons.mpr
        ⟨.inr rfl, fun c member => .inl (others c member)⟩⟩

/-- The text of a number without trailing zeros, apart from its sign. -/
def unsigned (d : Decimal) : String :=
  if -5 ≤ d.leading ∧ d.leading ≤ 15 then d.positional ++ (if d.exponent ≥ 0 then ".0" else "")
  else d.scientific

theorem dataText_eq (d : Decimal) : d.dataText = d.normalize.sign ++ d.normalize.unsigned := rfl

theorem InFull.size_eq {d e : Decimal} {text whole fraction whole' fraction' : List Char}
    (full : d.InFull text whole fraction) (full' : e.InFull text whole' fraction') : d.size = e.size := by
  have texts := full.text_eq.symm.trans full'.text_eq
  have point : ('.' : Char).isDigit = false := rfl
  obtain ⟨rfl, -, rfl⟩ := (List.append_cons_inj_of_notMem (not_mem_digits full.whole_digits point)
    (not_mem_digits full.fraction_digits point)).mp texts
  have sized : ∀ {d : Decimal}, d.InFull text whole fraction →
      d.size * 10 ^ fraction.length = (Nat.ofDigitChars 10 (whole ++ fraction) 0 : ℚ) := by
    intro d full
    have places := full.places
    rw [full.value, size, mul_assoc, ← zpow_natCast, ← zpow_add₀ (by norm_num)]
    push_cast
    rw [← zpow_natCast, Int.toNat_of_nonneg (by omega)]
  exact mul_right_cancel₀ (by positivity) ((sized full).trans (sized full').symm)

/-- A number is written in full or with a power of ten. -/
theorem unsigned_cases (d : Decimal) :
    (∃ whole fraction, d.InFull d.unsigned.toList whole fraction) ∨
      ∃ front, front.filter Char.isDigit = Nat.toDigits 10 d.digits ∧ Pointed front ∧
        d.unsigned.toList = front ++ 'e' :: raise d.leading := by
  by_cases moderate : -5 ≤ d.leading ∧ d.leading ≤ 15
  · rw [unsigned, if_pos moderate]
    exact .inl (inFull_positional d)
  · rw [unsigned, if_neg moderate]
    exact .inr (scientific_eq d)

theorem unsigned_inj {d e : Decimal} (normal : d.Normal) (normal' : e.Normal)
    (same : d.unsigned = e.unsigned) : d.digits = e.digits ∧ d.exponent = e.exponent := by
  have texts := congrArg String.toList same
  have letter : 'e' ∉ d.unsigned.toList ↔ 'e' ∉ e.unsigned.toList := by rw [same]
  rcases unsigned_cases d with ⟨whole, fraction, full⟩ | ⟨front, digits, pointed, text⟩ <;>
    rcases unsigned_cases e with ⟨whole', fraction', full'⟩ | ⟨front', digits', pointed', text'⟩
  · rw [texts] at full
    exact normal_inj normal normal' (full.size_eq full')
  · refine absurd (letter.mp (not_mem_pointed full.pointed rfl (by decide))) ?_
    simp [text']
  · refine absurd (letter.mpr (not_mem_pointed full'.pointed rfl (by decide))) ?_
    simp [text]
  · rw [text, text'] at texts
    obtain ⟨rfl, -, raised⟩ := (List.append_cons_inj_of_notMem (not_mem_pointed pointed rfl (by decide))
      (not_mem_raise _)).mp texts
    have same_digits := toDigits_inj (digits.symm.trans digits')
    have leadings := raise_inj raised
    rw [leading, leading, same_digits] at leadings
    exact ⟨same_digits, by omega⟩

/-- What is written apart from the sign does not begin with one. -/
theorem unsigned_ne_minus (d : Decimal) (rest : List Char) : d.unsigned.toList ≠ '-' :: rest := by
  intro begins
  rcases unsigned_cases d with ⟨whole, fraction, full⟩ | ⟨front, digits, pointed, text⟩
  · have absent := not_mem_pointed full.pointed (c := '-') rfl (by decide)
    simp [begins] at absent
  · have absent := not_mem_pointed pointed (c := '-') rfl (by decide)
    rw [begins] at text
    cases front with
    | nil => cases text
    | cons first front =>
      obtain ⟨rfl, -⟩ := List.cons.inj text
      simp at absent

/-- From the text of a decimal all of it can be told but trailing zeros. -/
theorem dataText_inj {d e : Decimal} (same : d.dataText = e.dataText) : d.normalize = e.normalize := by
  have texts := congrArg String.toList same
  rw [dataText_eq, dataText_eq, String.toList_append, String.toList_append] at texts
  obtain ⟨negatives, bodies⟩ : d.normalize.negative = e.normalize.negative ∧
      d.normalize.unsigned.toList = e.normalize.unsigned.toList := by
    rw [sign, sign] at texts
    cases negative : d.normalize.negative <;> cases negative' : e.normalize.negative <;>
      rw [negative, negative'] at texts
    · exact ⟨rfl, texts⟩
    · exact absurd texts (unsigned_ne_minus _ _)
    · exact absurd texts.symm (unsigned_ne_minus _ _)
    · exact ⟨rfl, List.tail_eq_of_cons_eq texts⟩
  obtain ⟨digits, exponents⟩ :=
    unsigned_inj (normal_normalize d) (normal_normalize e) (String.toList_inj.mp bodies)
  calc d.normalize = ⟨d.normalize.negative, d.normalize.digits, d.normalize.exponent⟩ := rfl
    _ = e.normalize := by rw [negatives, digits, exponents]

end DesignCompiler.Decimal
