import DesignCompiler.Proofs.Calendar
import DesignCompiler.Proofs.Digits

/-!
Moments are read back from their text, and whatever is read is a moment that can be written.
-/
namespace DesignCompiler.Timestamp

open Reader

theorem isBlank_of_digit {c : Char} (digit : Text.isAsciiDigit c = true) : Text.isBlank c = false := by
  simp only [Text.isAsciiDigit, Bool.and_eq_true, decide_eq_true_eq] at digit
  have low : 48 ≤ c.toNat := digit.1
  have high : c.toNat ≤ 57 := digit.2
  rw [Text.isBlank, Text.inRanges, List.any_eq_false]
  intro range member
  simp only [Text.blankRanges, List.mem_cons, List.not_mem_nil, or_false] at member
  simp only [Bool.and_eq_true, decide_eq_true_eq]
  rcases member with rfl | rfl | rfl | rfl | rfl | rfl | rfl | rfl | rfl | rfl <;> dsimp only <;> omega

/-- The text of a number: digits that tell it. -/
structure Spelt (n : Nat) (text : List Char) : Prop where
  digits : ∀ c ∈ text, Text.isAsciiDigit c = true
  value : Reader.value text = n
  some : text ≠ []

theorem value_eq (text : List Char) : value text = Nat.ofDigitChars 10 text 0 := by
  rw [value, Nat.ofDigitChars]
  congr 1
  funext sum c
  rw [Nat.mul_comm]

theorem toList_padded (width n : Nat) : (padded width n).toList =
    List.replicate (width - (Nat.toDigits 10 n).length) '0' ++ Nat.toDigits 10 n := by
  rw [padded, String.toList_append, Decimal.zeros, Decimal.natText, String.toList_ofList,
    String.toList_ofList, String.length_ofList]

theorem spelt_padded (width n : Nat) : Spelt n (padded width n).toList where
  digits := by
    rw [toList_padded]
    refine List.forall_mem_append.mpr ⟨fun c member => ?_, fun c member => ?_⟩
    · rw [List.eq_of_mem_replicate member]
      decide
    · exact (Decimal.digits_toDigits n c member)
  value := by
    rw [toList_padded, value_eq, Nat.ofDigitChars_append, Decimal.ofDigitChars_zeros, Nat.zero_mul]
    exact Nat.ofDigitChars_toDigits (by decide) (by decide)
  some := by
    rw [toList_padded]
    simp [Nat.toDigits_ne_nil]

theorem length_padded {width n : Nat} (some : 0 < width) (short : n < 10 ^ width) :
    (padded width n).toList.length = width := by
  have fits : (Nat.toDigits 10 n).length ≤ width := (Nat.length_toDigits_le_iff (by decide) some).mpr short
  rw [toList_padded, List.length_append, List.length_replicate]
  omega

namespace Spelt

variable {n width : Nat} {text rest : List Char} (spelt : Spelt n text)

include spelt

/-- Digits are read up to the width, or up to what is no digit. -/
theorem read (fits : text.length ≤ width)
    (stop : text.length = width ∨ ∀ c ∈ rest.head?, Text.isAsciiDigit c = false) :
    Reader.digits width (text ++ rest) = .some (text, rest) := by
  have more : (rest.take (width - text.length)).takeWhile Text.isAsciiDigit = [] := by
    rcases stop with whole | stop
    · rw [whole, Nat.sub_self, List.take_zero, List.takeWhile_nil]
    · cases rest with
      | nil => rw [List.take_nil, List.takeWhile_nil]
      | cons c rest =>
        cases width - text.length with
        | zero => rfl
        | succ left => rw [List.take_succ_cons, List.takeWhile_cons_of_neg (by simp [stop c rfl])]
  have found : ((text ++ rest).take width).takeWhile Text.isAsciiDigit = text := by
    rw [List.take_append, List.take_of_length_le fits, List.takeWhile_append_of_pos spelt.digits, more,
      List.append_nil]
  rw [Reader.digits, found]
  simp [spelt.some]

theorem skipBlank : Reader.skipBlank (text ++ rest) = text ++ rest := by
  obtain ⟨c, more, rfl⟩ := List.exists_cons_of_ne_nil spelt.some
  rw [Reader.skipBlank, List.cons_append, List.dropWhile_cons_of_neg]
  simp [isBlank_of_digit (spelt.digits c List.mem_cons_self)]

end Spelt

theorem field_padded {low high n : Nat} (from_low : low ≤ n) (to_high : n ≤ high) (short : n < 100)
    (rest : List Char) : field low high ((padded 2 n).toList ++ rest) = some (n, rest) := by
  have spelt := spelt_padded 2 n
  have length : (padded 2 n).toList.length = 2 := length_padded (by decide) short
  rw [field, spelt.skipBlank, spelt.read (by omega) (.inl length)]
  simp [spelt.value, from_low, to_high]

/-- Four digits, if they are enough, are read as they are. -/
theorem year_plain {n : Nat} (short : n < 10000) (rest : List Char) :
    Reader.year ((padded 4 n).toList ++ rest) = some ((n : Int), rest) := by
  have spelt := spelt_padded 4 n
  have length : (padded 4 n).toList.length = 4 := length_padded (by decide) short
  have read : Reader.digits 4 ((padded 4 n).toList ++ rest) = some ((padded 4 n).toList, rest) :=
    spelt.read (Nat.le_of_eq length) (.inl length)
  obtain ⟨c, more, same⟩ := List.exists_cons_of_ne_nil spelt.some
  have digit := spelt.digits c (same ▸ List.mem_cons_self)
  have front : Reader.year ((padded 4 n).toList ++ rest) =
      (Reader.digits 4 ((padded 4 n).toList ++ rest)).map fun found => ((value found.1 : Int), found.2) := by
    rw [Reader.year, spelt.skipBlank, same, List.cons_append]
    split
    · rename_i minus
      obtain ⟨rfl, _⟩ := List.cons.inj minus
      cases digit
    · rename_i plus
      obtain ⟨rfl, _⟩ := List.cons.inj plus
      cases digit
    · rfl
  rw [front, read, Option.map_some, spelt.value]

/-- Behind a sign all digits are read. -/
theorem year_signed (n : Nat) (rest : List Char) :
    Reader.year ('-' :: ((padded 4 n).toList ++ '-' :: rest)) = some (-(n : Int), '-' :: rest) ∧
      Reader.year ('+' :: ((padded 4 n).toList ++ '-' :: rest)) = some ((n : Int), '-' :: rest) := by
  have spelt := spelt_padded 4 n
  have stop : ∀ c ∈ ('-' :: rest).head?, Text.isAsciiDigit c = false := by
    rintro c ⟨⟩
    decide
  have minus (text : List Char) : Reader.year ('-' :: text) =
      (Reader.digits text.length text).map fun found => (-(value found.1 : Int), found.2) := rfl
  have plus (text : List Char) : Reader.year ('+' :: text) =
      (Reader.digits text.length text).map fun found => ((value found.1 : Int), found.2) := rfl
  rw [minus, plus, spelt.read (by simp) (.inr stop), Option.map_some, Option.map_some, spelt.value]
  exact ⟨rfl, rfl⟩

theorem year_yearText (year : Int) (rest : List Char) :
    Reader.year ((yearText year).toList ++ '-' :: rest) = some (year, '-' :: rest) := by
  obtain ⟨minus, plus⟩ := year_signed year.natAbs rest
  rw [yearText]
  split
  · rename_i plain
    rw [year_plain (by omega), Int.toNat_of_nonneg plain.1]
  · split
    · rename_i negative
      have sign : "-".toList = ['-'] := rfl
      rw [String.toList_append, sign, List.append_assoc, List.singleton_append, minus,
        Int.ofNat_natAbs_of_nonpos (by omega), Int.neg_neg]
    · rename_i positive
      have sign : "+".toList = ['+'] := rfl
      rw [String.toList_append, sign, List.append_assoc, List.singleton_append, plus,
        Int.natAbs_of_nonneg (by omega)]

/-- What is written of the nanoseconds is read back. -/
theorem fraction_fractionText {nanos : Nat} (short : nanos < 1000000000) (rest : List Char) :
    Reader.fraction ((fractionText nanos).toList ++ 'Z' :: rest) = some (nanos, 'Z' :: rest) := by
  have stop : ∀ c ∈ ('Z' :: rest).head?, Text.isAsciiDigit c = false := by
    rintro c ⟨⟩
    decide
  have point {width n : Nat} (some' : 0 < width) (short : n < 10 ^ width) (fits : width ≤ 9) :
      Reader.fraction (("." ++ padded width n).toList ++ 'Z' :: rest) =
        some (n * Nat.pow 10 (9 - width), 'Z' :: rest) := by
    have spelt := spelt_padded width n
    have length := length_padded some' short
    have behind : ('Z' :: rest).dropWhile Text.isAsciiDigit = 'Z' :: rest := rfl
    have mark : ".".toList = ['.'] := rfl
    rw [String.toList_append, mark, List.append_assoc, List.singleton_append, Reader.fraction,
      spelt.read (by omega) (.inr stop)]
    simp only [Option.bind_eq_bind, Option.bind_some, spelt.value, length, behind]
    rfl
  -- no digits, or as many as thousandths, millionths or billionths of a second take
  rw [fractionText]
  split
  · rename_i none
    rw [none]
    rfl
  · split
    · rw [point (by decide) (by omega) (by decide)]
      congr 2
      show nanos / 1000000 * 1000000 = nanos
      omega
    · split
      · rw [point (by decide) (by omega) (by decide)]
        congr 2
        show nanos / 1000 * 1000 = nanos
        omega
      · rw [point (by decide) (by omega) (by decide)]
        congr 2
        exact Nat.mul_one nanos

/-- A moment of the calendar: its year can be held, and a leap second ends its minute. -/
structure Valid (moment : Timestamp) : Prop where
  year : holdsYear (dateOf (moment.seconds.fdiv 86400)).1 = true
  nanos : moment.nanos < 1000000000 ∨ moment.nanos < 2000000000 ∧ moment.seconds % 60 = 59

/-- The second of the day. -/
def secondOf (moment : Timestamp) : Nat := (moment.seconds - moment.seconds.fdiv 86400 * 86400).toNat

theorem seconds_eq (moment : Timestamp) :
    moment.seconds = moment.seconds.fdiv 86400 * 86400 + moment.secondOf ∧ moment.secondOf < 86400 := by
  have low := Int.fmod_nonneg_of_pos moment.seconds (b := 86400) (by decide)
  have high := Int.fmod_lt_of_pos moment.seconds (b := 86400) (by decide)
  rw [Int.fmod_def] at low high
  unfold secondOf
  omega

theorem toList_text (moment : Timestamp) {year : Int} {month day : Nat}
    (date : dateOf (moment.seconds.fdiv 86400) = (year, month, day)) : moment.text.toList =
      (yearText year).toList ++ '-' :: ((padded 2 month).toList ++ '-' :: ((padded 2 day).toList ++ 'T' ::
        ((padded 2 (moment.secondOf / 3600)).toList ++ ':' ::
          ((padded 2 (moment.secondOf % 3600 / 60)).toList ++ ':' ::
            ((padded 2 (moment.secondOf % 60 + moment.nanos / 1000000000)).toList ++
              ((fractionText (moment.nanos % 1000000000)).toList ++ ['Z'])))))) := by
  rw [text]
  simp only [date]
  simp [secondOf]

theorem mark_front {c : Char} (visible : Text.isBlank c = false) (rest : List Char) :
    mark c (c :: rest) = some rest := by
  rw [mark, Reader.skipBlank, List.dropWhile_cons_of_neg (by simp [visible])]
  simp

theorem date_written {year : Int} {month day : Nat} (month_in : 1 ≤ month ∧ month ≤ 12)
    (day_in : 1 ≤ day ∧ day ≤ 31) (calendar : day ≤ daysInMonth year month) (held : holdsYear year = true)
    (rest : List Char) : Reader.date ((yearText year).toList ++ '-' :: ((padded 2 month).toList ++
      '-' :: ((padded 2 day).toList ++ rest))) = some ((year, month, day), rest) := by
  have dash : Text.isBlank '-' = false := by decide
  rw [Reader.date, year_yearText]
  simp only [Option.bind_eq_bind, Option.bind_some, mark_front dash,
    field_padded month_in.1 month_in.2 (by omega), field_padded day_in.1 day_in.2 (by omega), held,
    decide_eq_true calendar, Bool.and_self, if_true]
  rfl

theorem timeOfDay_written {hour minute second nanos : Nat} (hours : hour ≤ 23) (minutes : minute ≤ 59)
    (seconds : second ≤ 60) (short : nanos < 1000000000) (rest : List Char) :
    Reader.timeOfDay ((padded 2 hour).toList ++ ':' :: ((padded 2 minute).toList ++
      ':' :: ((padded 2 second).toList ++ ((fractionText nanos).toList ++ 'Z' :: rest)))) =
      some ((hour * 3600 + minute * 60 + (second - second / 60), nanos + second / 60 * 1000000000),
        'Z' :: rest) := by
  have colon : Text.isBlank ':' = false := by decide
  rw [Reader.timeOfDay, field_padded (Nat.zero_le hour) hours (by omega)]
  simp only [Option.bind_eq_bind, Option.bind_some, mark_front colon,
    field_padded (Nat.zero_le minute) minutes (by omega), field_padded (Nat.zero_le second) seconds (by omega),
    fraction_fractionText short]
  rfl

/-- A moment is read back from its text. -/
theorem parse_text {moment : Timestamp} (valid : moment.Valid) : parse moment.text = some moment := by
  obtain ⟨year, month, day, date⟩ : ∃ year month day,
      dateOf (moment.seconds.fdiv 86400) = (year, month, day) := ⟨_, _, _, rfl⟩
  obtain ⟨whole, short⟩ := moment.seconds_eq
  have calendar := dateOf_valid (moment.seconds.fdiv 86400)
  have told := daysOf_dateOf (moment.seconds.fdiv 86400)
  have held := valid.year
  rw [date] at calendar told held
  have leap := valid.nanos
  have seconds : daysOf year month day * 86400 + ((moment.secondOf / 3600 * 3600 +
      moment.secondOf % 3600 / 60 * 60 + (moment.secondOf % 60 + moment.nanos / 1000000000 -
        (moment.secondOf % 60 + moment.nanos / 1000000000) / 60) : Nat) : Int) - 0 = moment.seconds := by
    dsimp only at told
    omega
  have nanos : moment.nanos % 1000000000 +
      (moment.secondOf % 60 + moment.nanos / 1000000000) / 60 * 1000000000 = moment.nanos := by
    omega
  rw [parse, toList_text moment date, date_written calendar.1 calendar.2.1 calendar.2.2 held]
  simp only [Option.bind_eq_bind, Option.bind_some, Reader.divider]
  rw [timeOfDay_written (by omega) (by omega) (by omega) (by omega)]
  have universal : Reader.offset (Reader.skipBlank ['Z']) = some (0, []) := rfl
  have done : (Reader.skipBlank []).isEmpty = true := rfl
  have year := valid.year
  simp only [Option.bind_some, universal, done, seconds, nanos, year, Bool.and_self, if_true]
  rfl

theorem foldl_digits_lt {text : List Char} (digits : ∀ c ∈ text, Text.isAsciiDigit c = true)
    (front : Nat) : text.foldl (fun value c => value * 10 + (c.toNat - '0'.toNat)) front <
      (front + 1) * 10 ^ text.length := by
  induction text generalizing front with
  | nil =>
    rw [List.foldl_nil, List.length_nil, Nat.pow_zero]
    omega
  | cons c text ih =>
    obtain ⟨digit, digits⟩ := List.forall_mem_cons.mp digits
    simp only [Text.isAsciiDigit, Bool.and_eq_true, decide_eq_true_eq] at digit
    have high : c.toNat ≤ 57 := digit.2
    have zero : '0'.toNat = 48 := rfl
    have step : front * 10 + (c.toNat - '0'.toNat) + 1 ≤ (front + 1) * 10 := by omega
    rw [List.foldl_cons, List.length_cons, Nat.pow_succ, Nat.mul_comm (10 ^ _), ← Nat.mul_assoc]
    exact Nat.lt_of_lt_of_le (ih digits _) (Nat.mul_le_mul_right _ step)

theorem value_lt {text : List Char} (digits : ∀ c ∈ text, Text.isAsciiDigit c = true) :
    value text < 10 ^ text.length := by
  have bound := foldl_digits_lt digits 0
  rwa [Nat.zero_add, Nat.one_mul] at bound

theorem fraction_lt {text rest : List Char} {nanos : Nat}
    (read : Reader.fraction text = some (nanos, rest)) : nanos < 1000000000 := by
  unfold Reader.fraction at read
  split at read
  · rename_i behind
    obtain ⟨⟨found, more⟩, taken, read⟩ := Option.bind_eq_some_iff.mp read
    obtain ⟨rfl, _⟩ := Prod.mk.inj (Option.some.inj read)
    rw [Reader.digits] at taken
    split at taken
    · cases taken
    · obtain ⟨rfl, _⟩ := Prod.mk.inj (Option.some.inj taken)
      have front := List.takeWhile_prefix (p := Text.isAsciiDigit) (l := behind.take 9)
      have fits := front.length_le.trans (List.length_take_le 9 behind)
      have small : value ((behind.take 9).takeWhile Text.isAsciiDigit) < _ :=
        value_lt (List.all_eq_true.mp List.all_takeWhile)
      generalize (behind.take 9).takeWhile Text.isAsciiDigit = found at fits small
      have whole : (1000000000 : Nat) = 10 ^ found.length * 10 ^ (9 - found.length) := by
        rw [← Nat.pow_add, Nat.add_sub_cancel' fits]
      rw [whole]
      exact Nat.mul_lt_mul_of_pos_right small (Nat.pow_pos (by decide))
  · obtain ⟨rfl, _⟩ := Prod.mk.inj (Option.some.inj read)
    decide

theorem field_le {low high n : Nat} {text rest : List Char}
    (read : Reader.field low high text = some (n, rest)) : n ≤ high := by
  obtain ⟨⟨found, more⟩, _, read⟩ := Option.bind_eq_some_iff.mp read
  dsimp only at read
  split at read
  · rename_i within
    obtain ⟨rfl, _⟩ := Prod.mk.inj (Option.some.inj read)
    exact within.2
  · cases read

theorem offset_minutes {text rest : List Char} {ahead : Int}
    (read : Reader.offset text = some (ahead, rest)) : ahead % 60 = 0 := by
  unfold Reader.offset at read
  split at read
  · obtain ⟨rfl, _⟩ := Prod.mk.inj (Option.some.inj read)
    rfl
  · obtain ⟨rfl, _⟩ := Prod.mk.inj (Option.some.inj read)
    rfl
  · cases read
  · split at read
    · obtain ⟨rfl, _⟩ := Prod.mk.inj (Option.some.inj read)
      rfl
    · obtain ⟨sign, _, read⟩ := Option.bind_eq_some_iff.mp read
      obtain ⟨⟨hours, _⟩, _, read⟩ := Option.bind_eq_some_iff.mp read
      obtain ⟨⟨minutes, _⟩, _, read⟩ := Option.bind_eq_some_iff.mp read
      dsimp only at read
      split at read
      · obtain ⟨rfl, _⟩ := Prod.mk.inj (Option.some.inj read)
        have whole : ((hours * 3600 + minutes * 60 : Nat) : Int) = 60 * (hours * 60 + minutes) := by omega
        rw [whole, ← Int.mul_assoc, Int.mul_comm sign, Int.mul_assoc]
        exact Int.mul_emod_right _ _
      · cases read

/-- A leap second is the last of its minute. -/
theorem timeOfDay_nanos {text rest : List Char} {second nanos : Nat}
    (read : Reader.timeOfDay text = some ((second, nanos), rest)) :
    nanos < 1000000000 ∨ nanos < 2000000000 ∧ second % 60 = 59 := by
  obtain ⟨⟨hour, _⟩, _, read⟩ := Option.bind_eq_some_iff.mp read
  obtain ⟨_, _, read⟩ := Option.bind_eq_some_iff.mp read
  obtain ⟨⟨minute, _⟩, _, read⟩ := Option.bind_eq_some_iff.mp read
  obtain ⟨_, _, read⟩ := Option.bind_eq_some_iff.mp read
  obtain ⟨⟨inMinute, _⟩, found, read⟩ := Option.bind_eq_some_iff.mp read
  obtain ⟨⟨part, _⟩, fraction, read⟩ := Option.bind_eq_some_iff.mp read
  obtain ⟨same, _⟩ := Prod.mk.inj (Option.some.inj read)
  obtain ⟨rfl, rfl⟩ := Prod.mk.inj same
  have short := fraction_lt fraction
  rcases Nat.lt_or_eq_of_le (field_le found) with plain | leap
  · omega
  · omega

/-- Whatever is read can be written. -/
theorem valid_of_parse {text : String} {moment : Timestamp} (read : parse text = some moment) :
    moment.Valid := by
  rw [parse] at read
  obtain ⟨⟨⟨year, month, day⟩, _⟩, _, read⟩ := Option.bind_eq_some_iff.mp read
  obtain ⟨_, _, read⟩ := Option.bind_eq_some_iff.mp read
  obtain ⟨⟨⟨second, nanos⟩, _⟩, clock, read⟩ := Option.bind_eq_some_iff.mp read
  obtain ⟨⟨ahead, _⟩, distance, read⟩ := Option.bind_eq_some_iff.mp read
  dsimp only at clock distance read
  split at read
  · rename_i held
    obtain rfl := Option.some.inj read
    rw [Bool.and_eq_true] at held
    have minutes := offset_minutes distance
    have leap := timeOfDay_nanos clock
    exact ⟨held.2, by dsimp only; omega⟩
  · cases read

end DesignCompiler.Timestamp
