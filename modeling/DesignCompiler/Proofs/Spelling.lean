import DesignCompiler.Proofs.Reordering
import DesignCompiler.Proofs.Rereading

/-!
Texts that spell a value, and their reading. Blanks may stand between the marks of a text; whatever is read
from any such text is the value itself, as far as all of it is looked at, it is not nested too deep and its
numbers are read back. The two layouts of the printer are spellings.
-/
namespace DesignCompiler

namespace Json

open Reader (digits power skipBlank value items members digit?)

/-- The characters that a number can end before. -/
def closers : List Char := [',', ']', '\x7d', ' ', '\n', '\t', '\r']

/-- Where a text ends, or goes on without making a number in front of it longer. -/
def Closing (rest : List Char) : Prop := ∀ c ∈ rest.head?, c ∈ closers

section Numbers

variable {rest : List Char}

theorem digit?_closer {c : Char} (closes : c ∈ closers) : digit? c = none := by
  have none : closers.all (fun c => (digit? c).isNone) = true := by decide
  simpa using List.all_eq_true.mp none c closes

theorem digits_append (closing : Closing rest) (value count : Nat) (text : List Char) :
    digits value count (text ++ rest) = ((digits value count text).1, (digits value count text).2.1,
      (digits value count text).2.2 ++ rest) := by
  induction text generalizing value count with
  | nil =>
    cases rest with
    | nil => rfl
    | cons c tail => simp [digits, digit?_closer (closing c rfl)]
  | cons c text ih =>
    rw [List.cons_append, digits, digits]
    cases digit? c with
    | none => rfl
    | some d => exact ih _ _

theorem digits_suffix (value count : Nat) (text : List Char) : (digits value count text).2.2 <:+ text := by
  induction text generalizing value count with
  | nil => exact List.suffix_refl _
  | cons c text ih =>
    rw [digits]
    cases digit? c with
    | none => exact List.suffix_refl _
    | some d => exact (ih _ _).trans (List.suffix_cons _ _)

/-- The sign of a number, and the text behind it. -/
def signOf : List Char → Bool × List Char
  | '-' :: rest => (true, rest)
  | rest => (false, rest)

/-- The digits of a number, how many of them are behind a point, and whether there is one. -/
def fractionOf (whole : Nat) : List Char → Option (Nat × Nat × Bool × List Char)
  | '.' :: rest =>
    let (value, places, rest) := digits whole 0 rest
    if places = 0 then none else some (value, places, true, rest)
  | rest => some (whole, 0, false, rest)

/-- The power of ten of a number, and whether it is written. -/
def scaleOf : List Char → Option (Int × Bool × List Char)
  | 'e' :: rest => (power rest).map fun (n, rest) => (n, true, rest)
  | 'E' :: rest => (power rest).map fun (n, rest) => (n, true, rest)
  | rest => some (0, false, rest)

/-- A number is read in parts: its sign, the digits before a point and behind it, and a power of ten. -/
theorem number_eq (strict : Bool) (text : List Char) : Reader.number strict text =
    match signOf text with
    | (negative, text) =>
      match digits 0 0 text with
      | (whole, count, rest) =>
        if count = 0 ∨ (count > 1 ∧ text.head? = some '0') then none
        else match fractionOf whole rest with
          | none => none
          | some (value, places, pointed, rest) =>
            match scaleOf rest with
            | none => none
            | some (exponent, raised, rest) =>
              match (if pointed || raised then Number.ofDigits? negative value places exponent
                else Number.ofInteger? negative value) with
              | some value => some (value, rest)
              | none => if strict then none else some (.integer 0, rest) := rfl

/-- The sign of a power of ten, and the text behind it. -/
def powerSignOf : List Char → Bool × List Char
  | '-' :: rest => (true, rest)
  | '+' :: rest => (false, rest)
  | rest => (false, rest)

theorem power_eq (text : List Char) : power text =
    match powerSignOf text with
    | (negative, text) =>
      match digits 0 0 text with
      | (value, count, rest) =>
        if count = 0 then none else some (if negative then -(value : Int) else value, rest) := rfl

/-- What does not begin a text does not begin it with something behind that closes it. -/
theorem append_ne (closing : Closing rest) {c : Char} (other : c ∉ closers) {text : List Char}
    (plain : ∀ behind, text ≠ c :: behind) (behind : List Char) : text ++ rest ≠ c :: behind := by
  intro same
  cases text with
  | nil =>
    obtain rfl : rest = c :: behind := same
    exact other (closing c rfl)
  | cons first text => exact plain text (by rw [(List.cons.inj same).1])

theorem signOf_append (closing : Closing rest) (text : List Char) :
    signOf (text ++ rest) = ((signOf text).1, (signOf text).2 ++ rest) := by
  fun_cases signOf text with
  | case1 behind => rfl
  | case2 text plain =>
    rw [signOf]
    exact append_ne closing (by decide) plain

theorem powerSignOf_append (closing : Closing rest) (text : List Char) :
    powerSignOf (text ++ rest) = ((powerSignOf text).1, (powerSignOf text).2 ++ rest) := by
  fun_cases powerSignOf text with
  | case1 behind => rfl
  | case2 behind => rfl
  | case3 text minus plus =>
    rw [powerSignOf]
    · exact append_ne closing (by decide) minus
    · exact append_ne closing (by decide) plus

theorem power_append (closing : Closing rest) (text : List Char) :
    power (text ++ rest) = (power text).map fun (n, left) => (n, left ++ rest) := by
  rw [power_eq, power_eq, powerSignOf_append closing]
  obtain ⟨negative, text⟩ := powerSignOf text
  dsimp only
  rw [digits_append closing]
  obtain ⟨value, count, left⟩ := digits 0 0 text
  dsimp only
  split <;> rfl

theorem fractionOf_append (closing : Closing rest) (whole : Nat) (text : List Char) :
    fractionOf whole (text ++ rest) = (fractionOf whole text).map fun (value, places, pointed, left) =>
      (value, places, pointed, left ++ rest) := by
  fun_cases fractionOf whole text with
  | case1 behind value left found =>
    simp only [List.cons_append, fractionOf, digits_append closing, found, ↓reduceIte, Option.map_none]
  | case2 behind value places left found some =>
    simp only [List.cons_append, fractionOf, digits_append closing, found, if_neg some, Option.map_some]
  | case3 text plain =>
    rw [fractionOf]
    · rfl
    · exact append_ne closing (by decide) plain

theorem scaleOf_append (closing : Closing rest) (text : List Char) :
    scaleOf (text ++ rest) = (scaleOf text).map fun (exponent, raised, left) =>
      (exponent, raised, left ++ rest) := by
  fun_cases scaleOf text with
  | case1 behind => rw [List.cons_append, scaleOf, power_append closing, Option.map_map, Option.map_map]; rfl
  | case2 behind => rw [List.cons_append, scaleOf, power_append closing, Option.map_map, Option.map_map]; rfl
  | case3 text small large =>
    rw [scaleOf]
    · rfl
    · exact append_ne closing (by decide) small
    · exact append_ne closing (by decide) large

/-- A number is read alike whatever closes it. -/
theorem number_append (closing : Closing rest) (strict : Bool) (text : List Char) :
    Reader.number strict (text ++ rest) =
      (Reader.number strict text).map fun (found, left) => (found, left ++ rest) := by
  rw [number_eq, number_eq, signOf_append closing]
  obtain ⟨negative, text⟩ := signOf text
  -- whether the number begins with a zero does not depend on what closes it
  have front : (text ++ rest).head? = some '0' ↔ text.head? = some '0' := by
    cases text with
    | nil =>
      have other : rest.head? ≠ some '0' := fun zero => absurd (closing _ zero) (by decide)
      simp [other]
    | cons c text => rfl
  simp only [digits_append closing, front]
  generalize digits 0 0 text = found
  obtain ⟨whole, count, left⟩ := found
  dsimp only
  split
  · rfl
  · rw [fractionOf_append closing]
    cases fractionOf whole left with
    | none => rfl
    | some found =>
      obtain ⟨value, places, pointed, left⟩ := found
      simp only [Option.map_some, scaleOf_append closing]
      cases scaleOf left with
      | none => rfl
      | some found =>
        obtain ⟨exponent, raised, left⟩ := found
        simp only [Option.map_some]
        split
        · rfl
        · cases strict <;> rfl

theorem signOf_suffix (text : List Char) : (signOf text).2 <:+ text := by
  fun_cases signOf text with
  | case1 behind => exact List.suffix_cons _ _
  | case2 text plain => exact List.suffix_refl _

theorem power_suffix {text left : List Char} {n : Int} (found : power text = some (n, left)) :
    left <:+ text := by
  have sign : (powerSignOf text).2 <:+ text := by
    fun_cases powerSignOf text with
    | case1 behind => exact List.suffix_cons _ _
    | case2 behind => exact List.suffix_cons _ _
    | case3 text minus plus => exact List.suffix_refl _
  rw [power_eq] at found
  have digits := digits_suffix 0 0 (powerSignOf text).2
  dsimp only at found
  split at found
  · cases found
  · cases found
    exact digits.trans sign

theorem fractionOf_suffix {whole value places : Nat} {text left : List Char} {pointed : Bool}
    (found : fractionOf whole text = some (value, places, pointed, left)) : left <:+ text := by
  fun_cases fractionOf whole text with
  | case1 behind value' left' none => simp [fractionOf, none] at found
  | case2 behind value' places' left' digits some =>
    have rest := digits_suffix whole 0 behind
    simp only [fractionOf, digits, if_neg some, Option.some.injEq, Prod.mk.injEq] at found
    rw [digits] at rest
    exact found.2.2.2 ▸ rest.trans (List.suffix_cons _ _)
  | case3 text plain =>
    rw [fractionOf.eq_2 _ _ plain] at found
    cases found
    exact List.suffix_refl _

theorem scaleOf_suffix {text left : List Char} {exponent : Int} {raised : Bool}
    (found : scaleOf text = some (exponent, raised, left)) : left <:+ text := by
  have raising : ∀ {letter behind}, (power behind).map (fun (n, rest) => (n, true, rest)) =
      some (exponent, raised, left) → left <:+ letter :: behind := by
    intro letter behind found
    obtain ⟨⟨n, rest⟩, read, same⟩ := Option.map_eq_some_iff.mp found
    cases same
    exact (power_suffix read).trans (List.suffix_cons _ _)
  fun_cases scaleOf text with
  | case1 behind => exact raising found
  | case2 behind => exact raising found
  | case3 text small large =>
    rw [scaleOf.eq_3 _ small large] at found
    cases found
    exact List.suffix_refl _

/-- What a number leaves is an end of the text. -/
theorem number_suffix {strict : Bool} {text left : List Char} {number : Number}
    (found : Reader.number strict text = some (number, left)) : left <:+ text := by
  rw [number_eq] at found
  have sign := signOf_suffix text
  have whole := digits_suffix 0 0 (signOf text).2
  dsimp only at found
  split at found
  · cases found
  · split at found
    · cases found
    · rename_i value places pointed rest fraction
      split at found
      · cases found
      · rename_i exponent raised left' scale
        have taken := (scaleOf_suffix scale).trans ((fractionOf_suffix fraction).trans (whole.trans sign))
        split at found
        · cases found
          exact taken
        · split at found
          · cases found
          · cases found
            exact taken

/-- The text of a number is read as the number. -/
def Number.ReadsBack (number : Number) : Prop := parse number.text = some (.number number)

/-- The number that a value is. -/
def number? : Json → Option Number
  | .number value => some value
  | _ => none

theorem number?_eq_some {held : Json} {value : Number} :
    number? held = some value ↔ held = .number value := by
  cases held <;> simp [number?]

instance (number : Number) : Decidable number.ReadsBack :=
  decidable_of_iff ((parse number.text).bind number? = some number) <| by
    simp only [Option.bind_eq_some_iff, number?_eq_some, exists_eq_right, Number.ReadsBack]

end Numbers

def blankMarks : List Char := [' ', '\n', '\t', '\r']

/-- Blanks, which may stand between the marks of a text. -/
def Blanks (gap : List Char) : Prop := ∀ c ∈ gap, c ∈ blankMarks

mutual

/-- A text spells a value: it is the text of the printer, but for blanks between its marks. -/
inductive Spells : Json → List Char → Prop where
  | null : Spells .null "null".toList
  | yes : Spells (.bool true) "true".toList
  | no : Spells (.bool false) "false".toList
  | number (value : Number) : Spells (.number value) value.text.toList
  | string (value : String) : Spells (.string value) (quote value).toList
  | array {items : List Json} {inner : List Char} (spells : SpellsItems items inner) :
      Spells (.array items) ('[' :: (inner ++ [']']))
  | object {members : List (String × Json)} {inner : List Char} (spells : SpellsMembers members inner) :
      Spells (.object members) ('\x7b' :: (inner ++ ['\x7d']))

/-- A text spells the items of an array, a comma between them. -/
inductive SpellsItems : List Json → List Char → Prop where
  | none {gap : List Char} (blanks : Blanks gap) : SpellsItems [] gap
  | last {item : Json} {before own after : List Char} (blanks : Blanks before) (spells : Spells item own)
      (blanks' : Blanks after) : SpellsItems [item] (before ++ (own ++ after))
  | more {item next : Json} {rest : List Json} {before own after others : List Char}
      (blanks : Blanks before) (spells : Spells item own) (blanks' : Blanks after)
      (later : SpellsItems (next :: rest) others) :
      SpellsItems (item :: next :: rest) (before ++ (own ++ (after ++ ',' :: others)))

/-- A text spells the members of an object, a colon behind each key and a comma between them. -/
inductive SpellsMembers : List (String × Json) → List Char → Prop where
  | none {gap : List Char} (blanks : Blanks gap) : SpellsMembers [] gap
  | last {key : String} {value : Json} {before gap own after : List Char} (blanks : Blanks before)
      (gaps : Blanks gap) (spells : Spells value own) (blanks' : Blanks after) :
      SpellsMembers [(key, value)] (before ++ ((quote key).toList ++ ':' :: (gap ++ (own ++ after))))
  | more {key : String} {value : Json} {next : String × Json} {rest : List (String × Json)}
      {before gap own after others : List Char} (blanks : Blanks before) (gaps : Blanks gap)
      (spells : Spells value own) (blanks' : Blanks after)
      (later : SpellsMembers (next :: rest) others) :
      SpellsMembers ((key, value) :: next :: rest)
        (before ++ ((quote key).toList ++ ':' :: (gap ++ (own ++ (after ++ ',' :: others)))))

end

mutual

/-- How deep a value is nested. -/
def depth : Json → Nat
  | .array items => depthOfItems items + 1
  | .object members => depthOfMembers members + 1
  | _ => 0

def depthOfItems : List Json → Nat
  | [] => 0
  | item :: rest => max item.depth (depthOfItems rest)

def depthOfMembers : List (String × Json) → Nat
  | [] => 0
  | (_, value) :: rest => max value.depth (depthOfMembers rest)

end

mutual

/-- All of a value is looked at. -/
def Regarded (shape : Shape) : Json → Prop
  | .array items => shape.isIgnored = false ∧ RegardedItems shape 0 items
  | .object members => shape.isIgnored = false ∧ RegardedMembers shape members
  | _ => shape.isIgnored = false

def RegardedItems (shape : Shape) (position : Nat) : List Json → Prop
  | [] => True
  | item :: rest => item.Regarded (shape.item position) ∧ RegardedItems shape (position + 1) rest

def RegardedMembers (shape : Shape) : List (String × Json) → Prop
  | [] => True
  | (key, value) :: rest => value.Regarded (shape.field key) ∧ RegardedMembers shape rest

end

section Reading

variable {depth : Nat} {shape : Shape} {gap text rest : List Char}

theorem skipBlank_blanks (blanks : Blanks gap) (text : List Char) :
    skipBlank (gap ++ text) = skipBlank text := by
  induction gap with
  | nil => rfl
  | cons c gap ih =>
    obtain ⟨blank, others⟩ := List.forall_mem_cons.mp blanks
    simp only [blankMarks, List.mem_cons, List.not_mem_nil, or_false] at blank
    rcases blank with rfl | rfl | rfl | rfl <;> exact ih others

theorem skipBlank_of_mark {c : Char} (mark : c ∉ blankMarks) (text : List Char) :
    skipBlank (c :: text) = c :: text := by
  simp only [blankMarks, List.mem_cons, List.not_mem_nil, or_false, not_or] at mark
  obtain ⟨space, line, tab, back⟩ := mark
  rw [skipBlank]
  · exact fun _ same => space (List.cons.inj same).1
  · exact fun _ same => line (List.cons.inj same).1
  · exact fun _ same => tab (List.cons.inj same).1
  · exact fun _ same => back (List.cons.inj same).1

theorem skipBlank_skipBlank (text : List Char) : skipBlank (skipBlank text) = skipBlank text := by
  fun_induction skipBlank text with
  | case1 | case2 | case3 | case4 => assumption
  | case5 text space line tab back => rw [skipBlank] <;> assumption

theorem value_skipBlank (fuel : Nat) (text : List Char) :
    value fuel depth shape (skipBlank text) = value fuel depth shape text := by
  cases fuel with
  | zero => rw [value, value]
  | succ fuel => rw [value, value, skipBlank_skipBlank]

theorem items_skipBlank (fuel position : Nat) (taken : List Json) (text : List Char) :
    items fuel depth shape position taken (skipBlank text) = items fuel depth shape position taken text := by
  cases fuel with
  | zero => rw [items, items]
  | succ fuel => rw [items, items, value_skipBlank]

theorem members_skipBlank (fuel : Nat) (taken : List (String × Json)) (text : List Char) :
    members fuel depth shape taken (skipBlank text) = members fuel depth shape taken text := by
  cases fuel with
  | zero => rw [members, members]
  | succ fuel => rw [members, members, skipBlank_skipBlank]

theorem value_blanks (blanks : Blanks gap) (fuel : Nat) (text : List Char) :
    value fuel depth shape (gap ++ text) = value fuel depth shape text := by
  rw [← value_skipBlank, skipBlank_blanks blanks, value_skipBlank]

theorem items_blanks (blanks : Blanks gap) (fuel position : Nat) (taken : List Json) (text : List Char) :
    items fuel depth shape position taken (gap ++ text) = items fuel depth shape position taken text := by
  rw [← items_skipBlank, skipBlank_blanks blanks, items_skipBlank]

theorem members_blanks (blanks : Blanks gap) (fuel : Nat) (taken : List (String × Json))
    (text : List Char) :
    members fuel depth shape taken (gap ++ text) = members fuel depth shape taken text := by
  rw [← members_skipBlank, skipBlank_blanks blanks, members_skipBlank]

theorem closing_blanks (blanks : Blanks gap) (closing : Closing rest) : Closing (gap ++ rest) := by
  cases gap with
  | nil => exact closing
  | cons c gap =>
    have blank := blanks c List.mem_cons_self
    rintro c ⟨⟩
    exact List.mem_append_right [',', ']', '\x7d'] blank

theorem closing_cons {c : Char} (closes : c ∈ closers) (text : List Char) : Closing (c :: text) := by
  rintro c ⟨⟩
  exact closes

theorem numeral_ne {c mark : Char} (numeral : Decimal.isNumeral c = true)
    (other : Decimal.isNumeral mark = false) : c ≠ mark := by
  rintro rfl
  rw [numeral] at other
  cases other

theorem numeral_not_blank {c : Char} (numeral : Decimal.isNumeral c = true) : c ∉ blankMarks := by
  have none : blankMarks.all (!Decimal.isNumeral ·) = true := by decide
  intro blank
  simpa [numeral] using List.all_eq_true.mp none c blank

/-- A text that begins with a numeral is that of a number. -/
theorem value_of_numeral {c : Char} (numeral : Decimal.isNumeral c = true) (fuel : Nat) :
    value (fuel + 1) depth shape (c :: text) =
      (Reader.number (!shape.isIgnored) (c :: text)).map fun (read, rest) => (.number read, rest) := by
  rw [value, skipBlank_of_mark (numeral_not_blank numeral)]
  dsimp only
  split
  case h_7 => rfl
  all_goals
    rename_i same
    exact absurd (List.cons.inj same).1 (numeral_ne numeral (by decide))

theorem skipBlank_of_numerals (numerals : Decimal.Numerals text) : skipBlank text = text := by
  cases text with
  | nil => rfl
  | cons c text =>
    exact skipBlank_of_mark (numeral_not_blank (numerals c List.mem_cons_self)) text

/-- A number that is read back is read back from the front of a text. -/
theorem Number.ReadsBack.number_append {number : Number} (back : number.ReadsBack) (closing : Closing rest) :
    Reader.number true (number.text.toList ++ rest) = some (number, rest) := by
  have numerals := number.numerals_text
  rw [ReadsBack, parse, Reader.read, Reader.readWithin] at back
  cases chars : number.text.toList with
  | nil => exact absurd chars number.text_ne_nil
  | cons c text =>
    rw [chars] at numerals back
    rw [value_of_numeral (numerals c List.mem_cons_self)] at back
    cases found : Reader.number true (c :: text) with
    | none => simp [Shape.isIgnored, found] at back
    | some read =>
      obtain ⟨other, left⟩ := read
      have behind : Decimal.Numerals left :=
        fun d member => numerals d ((number_suffix found).subset member)
      simp only [Shape.isIgnored, Bool.not_false, found, Option.map_some, skipBlank_of_numerals behind]
        at back
      split at back
      · rename_i empty
        obtain rfl := List.isEmpty_iff.mp empty
        cases back
        rw [Json.number_append closing, found]
        rfl
      · cases back

/-- A value begins neither with a blank nor with the end of a list or an object. -/
theorem Spells.front {held : Json} {own : List Char} (spells : Spells held own) :
    ∃ c behind, own = c :: behind ∧ c ∉ blankMarks ∧ c ≠ ']' ∧ c ≠ '\x7d' := by
  cases spells with
  | number value =>
    cases chars : value.text.toList with
    | nil => exact absurd chars value.text_ne_nil
    | cons c behind =>
      have numeral := value.numerals_text c (by rw [chars]; exact List.mem_cons_self)
      exact ⟨c, behind, rfl, numeral_not_blank numeral, numeral_ne numeral (by decide),
        numeral_ne numeral (by decide)⟩
  | string value => exact ⟨'"', _, toList_quote value, by decide⟩
  | null | yes | no => exact ⟨_, _, rfl, by decide⟩
  | array | object => exact ⟨_, _, rfl, by decide⟩

/-- All numbers in a value are read back. -/
def ReadsBack (held : Json) : Prop := ∀ number ∈ held.numbers, number.ReadsBack

theorem Regarded.isIgnored {held : Json} (regarded : held.Regarded shape) : shape.isIgnored = false := by
  cases held <;> first | exact regarded.1 | exact regarded

/-- How the reading of an array goes on behind an item. -/
def afterItem (fuel depth : Nat) (shape : Shape) (position : Nat) (taken : List Json) :
    List Char → Option (List Json × List Char)
  | ',' :: rest => items fuel depth shape position taken rest
  | ']' :: rest => some (taken.reverse, rest)
  | _ => none

theorem items_step {fuel position : Nat} {taken : List Json} {item : Json}
    (read : value fuel depth (shape.item position) text = some (item, rest)) :
    items (fuel + 1) depth shape position taken text =
      afterItem fuel depth shape (position + 1) (item :: taken) (skipBlank rest) := by
  rw [items, read]
  rfl

/-- Some items do not begin like the end of an array. -/
theorem SpellsItems.front {held : List Json} (spells : SpellsItems held text) (nonempty : held ≠ [])
    (rest : List Char) : ∃ c behind, skipBlank (text ++ rest) = c :: behind ∧ c ≠ ']' := by
  have begins : ∀ {item before own} (after : List Char), Blanks before → Spells item own →
      ∃ c behind, skipBlank (before ++ (own ++ after)) = c :: behind ∧ c ≠ ']' := by
    intro item before own after blanks spells
    obtain ⟨c, behind, rfl, mark, open_, _⟩ := spells.front
    exact ⟨c, behind ++ after, (skipBlank_blanks blanks _).trans (skipBlank_of_mark mark _), open_⟩
  cases spells with
  | none => exact absurd rfl nonempty
  | last blanks spells =>
    simp only [List.append_assoc]
    exact begins _ blanks spells
  | more blanks spells =>
    simp only [List.append_assoc]
    exact begins _ blanks spells

theorem SpellsMembers.front {held : List (String × Json)} (spells : SpellsMembers held text)
    (nonempty : held ≠ []) (rest : List Char) : ∃ behind, skipBlank (text ++ rest) = '"' :: behind := by
  have begins : ∀ {before} (key : String) (after : List Char), Blanks before →
      ∃ behind, skipBlank (before ++ ((quote key).toList ++ after)) = '"' :: behind := by
    intro before key after blanks
    rw [skipBlank_blanks blanks, toList_quote]
    exact ⟨_, skipBlank_of_mark (by decide) _⟩
  cases spells with
  | none => exact absurd rfl nonempty
  | last blanks =>
    simp only [List.append_assoc]
    exact begins _ _ blanks
  | more blanks =>
    simp only [List.append_assoc]
    exact begins _ _ blanks

theorem members_key {fuel : Nat} {taken : List (String × Json)} {key : String} {held : Json}
    {behind : List Char} (regarded : (shape.field key).isIgnored = false)
    (read : value fuel depth (shape.field key) behind = some (held, rest)) :
    members (fuel + 1) depth shape taken ((quote key).toList ++ ':' :: behind) =
      afterMember fuel depth shape ((key, held) :: taken) (skipBlank rest) := by
  have front : skipBlank ((quote key).toList ++ ':' :: behind) =
      '"' :: (key.toList.flatMap escapeChar ++ '"' :: ':' :: behind) := by
    rw [toList_quote, List.cons_append, List.append_assoc]
    exact skipBlank_of_mark (by decide) _
  have colon : skipBlank (':' :: behind) = ':' :: behind := skipBlank_of_mark (by decide) _
  rw [members, front]
  simp only [stringBody_escape, List.reverse_nil, List.nil_append, String.ofList_toList, colon, read,
    regarded, Bool.false_eq_true, if_false]
  rfl

mutual

/-- A value is read from any of its spellings, whatever closes it. -/
theorem value_of_spells : {held : Json} → {text : List Char} → Spells held text →
    {depth : Nat} → {shape : Shape} → held.Regarded shape → held.depth ≤ depth → held.ReadsBack →
    (fuel : Nat) → (rest : List Char) → text.length ≤ fuel → Closing rest →
    value fuel depth shape (text ++ rest) = some (held, rest)
  | _, _, .null, _, _, _, _, _, fuel + 1, _, _, _ => by
    rw [value]
    rfl
  | _, _, .yes, _, _, _, _, _, fuel + 1, _, _, _ => by
    rw [value]
    rfl
  | _, _, .no, _, _, _, _, _, fuel + 1, _, _, _ => by
    rw [value]
    rfl
  | _, _, .number n, _, shape, regarded, _, back, fuel, rest, enough, closing => by
    have read := (back n (List.mem_singleton_self n)).number_append closing
    cases chars : n.text.toList with
    | nil => exact absurd chars n.text_ne_nil
    | cons c behind =>
      have numeral := n.numerals_text c (by rw [chars]; exact List.mem_cons_self)
      rw [chars] at enough read
      obtain ⟨fuel, rfl⟩ := Nat.exists_eq_add_of_le' (Nat.le_trans (Nat.le_add_left 1 _) enough)
      have strict : shape.isIgnored = false := regarded
      rw [List.cons_append, value_of_numeral numeral, strict]
      exact congrArg (Option.map _) read
  | _, _, .string text, _, shape, regarded, _, _, fuel, rest, enough, closing => by
    rw [toList_quote] at enough ⊢
    obtain ⟨fuel, rfl⟩ := Nat.exists_eq_add_of_le' (Nat.le_trans (Nat.le_add_left 1 _) enough)
    rw [List.cons_append, List.append_assoc, List.singleton_append, value,
      skipBlank_of_mark (by decide)]
    show (Reader.stringBody _ none [] (text.toList.flatMap escapeChar ++ '"' :: rest)).map _ = _
    rw [stringBody_escape, List.reverse_nil, List.nil_append, String.ofList_toList]
    rfl
  | _, _, @Spells.array held inner spells, depth + 1, shape, regarded, shallow, back,
      fuel + 1, rest, enough, closing => by
    simp only [List.cons_append, List.length_cons, List.length_append, List.length_nil,
      List.append_assoc, List.nil_append] at enough ⊢
    rw [value, skipBlank_of_mark (by decide)]
    simp only [Nat.add_one_ne_zero, decide_false, Bool.and_false, Bool.false_eq_true, if_false,
      Nat.add_one_sub_one]
    by_cases empty : held = []
    · subst empty
      cases spells with
      | none blanks =>
        rw [skipBlank_blanks blanks, skipBlank_of_mark (by decide)]
        rfl
    · have read := items_of_spells spells empty 0 regarded.2 (Nat.le_of_succ_le_succ shallow) back
        fuel [] rest (by omega)
      -- the reader looks for the end of the array before it looks for an item
      obtain ⟨c, behind, front, other⟩ := spells.front empty (']' :: rest)
      rw [← items_skipBlank, front] at read
      rw [front]
      split
      · rename_i same
        exact absurd (List.cons.inj same).1 other
      · exact congrArg (Option.map _) read
  | _, _, @Spells.object held inner spells, depth + 1, shape, regarded, shallow, back,
      fuel + 1, rest, enough, closing => by
    simp only [List.cons_append, List.length_cons, List.length_append, List.length_nil,
      List.append_assoc, List.nil_append] at enough ⊢
    rw [value, skipBlank_of_mark (by decide)]
    simp only [Nat.add_one_ne_zero, decide_false, Bool.and_false, Bool.false_eq_true, if_false,
      Nat.add_one_sub_one]
    by_cases empty : held = []
    · subst empty
      cases spells with
      | none blanks =>
        rw [skipBlank_blanks blanks, skipBlank_of_mark (by decide)]
        rfl
    · have read := members_of_spells spells empty regarded.2 (Nat.le_of_succ_le_succ shallow) back
        fuel [] rest (by omega)
      obtain ⟨behind, front⟩ := spells.front empty ('\x7d' :: rest)
      rw [← members_skipBlank, front] at read
      rw [front]
      exact congrArg (Option.map _) read

theorem items_of_spells : {held : List Json} → {text : List Char} → SpellsItems held text →
    held ≠ [] → {depth : Nat} → {shape : Shape} → (position : Nat) → RegardedItems shape position held →
    depthOfItems held ≤ depth → (∀ number ∈ numbersOfItems held, number.ReadsBack) →
    (fuel : Nat) → (taken : List Json) → (rest : List Char) → text.length < fuel →
    items fuel depth shape position taken (text ++ ']' :: rest) = some (taken.reverse ++ held, rest)
  | _, _, .none _, nonempty, _, _, _, _, _, _, _, _, _, _ => absurd rfl nonempty
  | _, _, @SpellsItems.last item before own after blanks spells blanks', _, depth, shape, position,
      regarded, shallow, back, fuel + 1, taken, rest, enough => by
    have closing := closing_blanks blanks' (closing_cons (by decide : ']' ∈ closers) rest)
    simp only [numbersOfItems, List.append_nil, depthOfItems, Nat.max_le] at back shallow
    simp only [List.length_append] at enough
    have read := value_of_spells spells regarded.1 shallow.1 back fuel _ (by omega) closing
    rw [List.append_assoc, items_blanks blanks, List.append_assoc, items_step read,
      skipBlank_blanks blanks', skipBlank_of_mark (by decide)]
    simp [afterItem]
  | _, _, @SpellsItems.more item next _ before own after others blanks spells blanks' later, _, depth,
      shape, position, regarded, shallow, back, fuel + 1, taken, rest, enough => by
    have closing := closing_blanks blanks' (closing_cons (by decide : ',' ∈ closers)
      (others ++ ']' :: rest))
    rw [numbersOfItems, List.forall_mem_append] at back
    rw [depthOfItems, Nat.max_le] at shallow
    simp only [List.length_append, List.length_cons] at enough
    have read := value_of_spells spells regarded.1 shallow.1 back.1 fuel _ (by omega) closing
    have behind := items_of_spells later (List.cons_ne_nil _ _) (position + 1) regarded.2 shallow.2
      back.2 fuel (item :: taken) rest (by omega)
    simp only [List.append_assoc, List.cons_append]
    rw [items_blanks blanks, items_step read, skipBlank_blanks blanks', skipBlank_of_mark (by decide)]
    simpa [afterItem] using behind

theorem members_of_spells : {held : List (String × Json)} → {text : List Char} →
    SpellsMembers held text → held ≠ [] → {depth : Nat} → {shape : Shape} → RegardedMembers shape held →
    depthOfMembers held ≤ depth → (∀ number ∈ numbersOfMembers held, number.ReadsBack) →
    (fuel : Nat) → (taken : List (String × Json)) → (rest : List Char) → text.length < fuel →
    members fuel depth shape taken (text ++ '\x7d' :: rest) = some (taken.reverse ++ held, rest)
  | _, _, .none _, nonempty, _, _, _, _, _, _, _, _, _ => absurd rfl nonempty
  | _, _, @SpellsMembers.last key held before gap own after blanks gaps spells blanks', _, depth, shape,
      regarded, shallow, back, fuel + 1, taken, rest, enough => by
    have closing := closing_blanks blanks' (closing_cons (by decide : '\x7d' ∈ closers) rest)
    simp only [numbersOfMembers, List.append_nil, depthOfMembers, Nat.max_le] at back shallow
    simp only [List.length_append, List.length_cons] at enough
    have read := value_of_spells spells regarded.1 shallow.1 back fuel _ (by omega) closing
    rw [← value_blanks gaps] at read
    simp only [List.append_assoc, List.cons_append]
    rw [members_blanks blanks, members_key regarded.1.isIgnored read, skipBlank_blanks blanks',
      skipBlank_of_mark (by decide)]
    simp [afterMember]
  | _, _, @SpellsMembers.more key held next _ before gap own after others blanks gaps spells blanks'
      later, _, depth, shape, regarded, shallow, back, fuel + 1, taken, rest, enough => by
    have closing := closing_blanks blanks' (closing_cons (by decide : ',' ∈ closers)
      (others ++ '\x7d' :: rest))
    rw [numbersOfMembers, List.forall_mem_append] at back
    rw [depthOfMembers, Nat.max_le] at shallow
    simp only [List.length_append, List.length_cons] at enough
    have read := value_of_spells spells regarded.1 shallow.1 back.1 fuel _ (by omega) closing
    have behind := members_of_spells later (List.cons_ne_nil _ _) regarded.2 shallow.2
      back.2 fuel ((key, held) :: taken) rest (by omega)
    rw [← value_blanks gaps] at read
    simp only [List.append_assoc, List.cons_append]
    rw [members_blanks blanks, members_key regarded.1.isIgnored read, skipBlank_blanks blanks',
      skipBlank_of_mark (by decide)]
    simpa [afterMember] using behind

end

end Reading

theorem blanks_nil : Blanks [] := List.forall_mem_nil _

mutual

/-- The text on one line spells the value. -/
theorem spells_compact : (held : Json) → Spells held held.compact.toList
  | .null => .null
  | .bool true => .yes
  | .bool false => .no
  | .number value => .number value
  | .string value => .string value
  | .array items => by
    simpa [compact] using Spells.array (spellsItems_compact items)
  | .object members => by
    simpa [compact] using Spells.object (spellsMembers_compact members)

theorem spellsItems_compact : (items : List Json) → SpellsItems items (compactItems items).toList
  | [] => .none blanks_nil
  | [item] => by
    simpa [compactItems] using SpellsItems.last blanks_nil (spells_compact item) blanks_nil
  | item :: next :: rest => by
    simpa [compactItems] using SpellsItems.more blanks_nil (spells_compact item) blanks_nil
      (spellsItems_compact (next :: rest))

theorem spellsMembers_compact : (members : List (String × Json)) →
    SpellsMembers members (compactMembers members).toList
  | [] => .none blanks_nil
  | [(key, value)] => by
    simpa [compactMembers] using SpellsMembers.last blanks_nil blanks_nil (spells_compact value) blanks_nil
  | (key, value) :: next :: rest => by
    simpa [compactMembers] using SpellsMembers.more blanks_nil blanks_nil (spells_compact value) blanks_nil
      (spellsMembers_compact (next :: rest))

end

theorem blanks_indent (level : Nat) : Blanks (indent level).toList := by
  intro c member
  rw [indent, String.toList_ofList] at member
  rw [List.eq_of_mem_replicate member]
  decide

theorem blanks_append {gap others : List Char} (blanks : Blanks gap) (more : Blanks others) :
    Blanks (gap ++ others) :=
  List.forall_mem_append.mpr ⟨blanks, more⟩

theorem blanks_space : Blanks [' '] := List.forall_mem_singleton.mpr (by decide)

theorem blanks_line {gap : List Char} (blanks : Blanks gap) : Blanks ('\n' :: gap) :=
  List.forall_mem_cons.mpr ⟨by decide, blanks⟩

mutual

/-- The indented text spells the value. -/
theorem spells_prettyAt : (level : Nat) → (held : Json) → Spells held (held.prettyAt level).toList
  | _, .null => .null
  | _, .bool true => .yes
  | _, .bool false => .no
  | _, .number value => .number value
  | _, .string value => .string value
  | _, .array [] => by
    simpa [prettyAt] using Spells.array (.none blanks_nil)
  | _, .object [] => by
    simpa [prettyAt] using Spells.object (.none blanks_nil)
  | level, .array (item :: rest) => by
    simpa [prettyAt] using Spells.array
      (spellsItems_pretty (level + 1) (blanks_line blanks_nil) (blanks_line (blanks_indent level))
        (item :: rest) (List.cons_ne_nil _ _))
  | level, .object (entry :: rest) => by
    simpa [prettyAt] using Spells.object
      (spellsMembers_pretty (level + 1) (blanks_line blanks_nil) (blanks_line (blanks_indent level))
        (entry :: rest) (List.cons_ne_nil _ _))

theorem spellsItems_pretty (level : Nat) {before after : List Char} (first : Blanks before)
    (final : Blanks after) : (items : List Json) → items ≠ [] →
    SpellsItems items (before ++ ((prettyItems level items).toList ++ after))
  | [], nonempty => absurd rfl nonempty
  | [item], _ => by
    simpa [prettyItems] using SpellsItems.last (blanks_append first (blanks_indent level))
      (spells_prettyAt level item) final
  | item :: next :: rest, _ => by
    simpa [prettyItems] using SpellsItems.more (blanks_append first (blanks_indent level))
      (spells_prettyAt level item) blanks_nil
      (spellsItems_pretty level (blanks_line blanks_nil) final (next :: rest) (List.cons_ne_nil _ _))

theorem spellsMembers_pretty (level : Nat) {before after : List Char} (first : Blanks before)
    (final : Blanks after) : (members : List (String × Json)) → members ≠ [] →
    SpellsMembers members (before ++ ((prettyMembers level members).toList ++ after))
  | [], nonempty => absurd rfl nonempty
  | [(key, value)], _ => by
    simpa [prettyMembers] using SpellsMembers.last (blanks_append first (blanks_indent level))
      blanks_space (spells_prettyAt level value) final
  | (key, value) :: next :: rest, _ => by
    simpa [prettyMembers] using SpellsMembers.more (blanks_append first (blanks_indent level))
      blanks_space (spells_prettyAt level value) blanks_nil
      (spellsMembers_pretty level (blanks_line blanks_nil) final (next :: rest) (List.cons_ne_nil _ _))

end

/-- A value is read from any of its spellings, if all of it is looked at and it is not nested too deep. -/
theorem readWithin_of_spells {held : Json} {text : String} {limit : Nat} {shape : Shape}
    (spells : Spells held text.toList) (regarded : held.Regarded shape) (shallow : held.depth ≤ limit)
    (back : held.ReadsBack) : Reader.readWithin limit shape text = some held := by
  have read := value_of_spells spells regarded shallow back (2 * text.toList.length + 2) [] (by omega)
    (fun _ listed => nomatch listed)
  rw [List.append_nil] at read
  rw [Reader.readWithin, read]
  rfl

end Json
end DesignCompiler
