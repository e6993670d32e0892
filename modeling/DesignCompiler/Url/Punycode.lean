/-!
Labels of domain names with letters beyond ASCII, written in ASCII: the ASCII characters first, then
where to insert which of the others, as numbers of variable length with 36 digits.
-/
namespace DesignCompiler.Url.Punycode

def digit (value : Nat) : Char := Char.ofNat (if value < 26 then 97 + value else 22 + value)

def digitValue? (c : Char) : Option Nat :=
  if 'a' ≤ c ∧ c ≤ 'z' then some (c.toNat - 97)
  else if 'A' ≤ c ∧ c ≤ 'Z' then some (c.toNat - 65)
  else if '0' ≤ c ∧ c ≤ '9' then some (c.toNat - 22)
  else none

/-- A digit below the threshold of its place is the last one of a number. -/
def threshold (bias place : Nat) : Nat := max 1 (min 26 (place - bias))

theorem one_le_threshold (bias place : Nat) : 1 ≤ threshold bias place := Nat.le_max_left ..

/-- The bias that a number of a size calls for. -/
def biasOf (size place : Nat) : Nat :=
  if size ≤ 455 then place + 36 * size / (size + 38) else biasOf (size / 35) (place + 36)
termination_by size
decreasing_by omega

/-- The bias after a number, with the length of the label by then. -/
def adapt (number length : Nat) (isFirst : Bool) : Nat :=
  let size := if isFirst then number / 700 else number / 2
  biasOf (size + size / length) 0

def digits (bias place number : Nat) : List Char :=
  let least := threshold bias place
  if number < least then [digit number]
  else
    digit (least + (number - least) % (36 - least)) ::
      digits bias (place + 36) ((number - least) / (36 - least))
termination_by number
decreasing_by
  have := one_le_threshold bias place
  exact Nat.lt_of_le_of_lt (Nat.div_le_self _ _) (by omega)

/-- A label on its way to ASCII. -/
structure Writing where
  written : List Char
  /-- How many positions were passed since the last insertion. -/
  passed : Nat
  bias : Nat
  /-- How many characters are taken care of. -/
  length : Nat
  isFirst : Bool

/-- Passes a character of the label while those of a code are inserted. -/
def Writing.pass (code : Nat) (state : Writing) (c : Char) : Writing :=
  if c.toNat < code then { state with passed := state.passed + 1 }
  else if c.toNat = code then {
    written := state.written ++ digits state.bias 36 state.passed
    passed := 0
    bias := adapt state.passed (state.length + 1) state.isFirst
    length := state.length + 1
    isFirst := false }
  else state

/-- Inserts the characters of each code, from one code to the next. -/
def Writing.run (label : List Char) (start : Nat) (state : Writing) : List Nat → Writing
  | [] => state
  | code :: rest =>
    let state := { state with passed := state.passed + (code - start) * (state.length + 1) }
    let state := label.foldl (Writing.pass code) state
    run label (code + 1) { state with passed := state.passed + 1 } rest

def insertCode (code : Nat) : List Nat → List Nat
  | [] => [code]
  | held :: rest =>
    if code < held then code :: held :: rest
    else if code = held then held :: rest
    else held :: insertCode code rest

def encode (label : List Char) : List Char :=
  let basic := label.filter (·.toNat < 128)
  let codes := (label.filter (128 ≤ ·.toNat)).foldr (fun c codes => insertCode c.toNat codes) []
  let front := if basic.isEmpty then [] else basic ++ ['-']
  (Writing.run label 128 ⟨front, 0, 72, basic.length, true⟩ codes).written

/-- A label on its way from ASCII. -/
structure Reading where
  label : List Char
  code : Nat
  position : Nat
  bias : Nat
  /-- The number being read, the weight of its next digit, and the place of this digit. -/
  number : Nat
  weight : Nat
  place : Nat

/-- Takes a digit, and inserts a character after the last one of a number. -/
def Reading.step (state : Reading) (c : Char) : Option Reading := do
  let value ← digitValue? c
  let number := state.number + value * state.weight
  let least := threshold state.bias state.place
  if value < least then
    let length := state.label.length + 1
    let sum := state.position + number
    let code := state.code + sum / length
    let position := sum % length
    if code.isValidChar then
      some {
        label := state.label.take position ++ [Char.ofNat code] ++ state.label.drop position
        code
        position := position + 1
        bias := adapt number length (state.label.all (·.toNat < 128))
        number := 0
        weight := 1
        place := 36 }
    else none
  else
    some { state with number, weight := state.weight * (36 - least), place := state.place + 36 }

/-- The label that is written in ASCII, if it is. -/
def decode (written : List Char) : Option (List Char) :=
  let backwards := written.reverse
  let digits := (backwards.takeWhile (· != '-')).reverse
  let basic := ((backwards.dropWhile (· != '-')).drop 1).reverse
  match digits.foldlM Reading.step ⟨basic, 128, 0, 72, 0, 1, 36⟩ with
  | some state => if state.place = 36 then some state.label else none
  | none => none

end DesignCompiler.Url.Punycode
