import DesignCompiler.Binary64
import DesignCompiler.Setting
import DesignCompiler.Text.Class

/-!
Reading TOML. A text is a list of tables with keys and values; keys with dots and the headers of
tables both reach into tables within tables, and no table and no key is defined twice.
-/
namespace DesignCompiler.Toml

/-- What a key holds while a text is read. -/
inductive Entry where
  | value (setting : Setting)
  /-- A table: whether it was only mentioned on the way to another one, and whether by a key with
  dots. -/
  | table (implicit dotted : Bool) (entries : List (String × Entry))
  /-- Tables that each began with a header of their own. -/
  | tables (items : List (List (String × Entry)))
deriving Inhabited

abbrev Entries := List (String × Entry)

mutual

def Entry.setting : Entry → Setting
  | .value setting => setting
  | .table _ _ entries => .table (settings entries)
  | .tables items => .list (tableSettings items)

def settings : Entries → List (String × Setting)
  | [] => []
  | (key, entry) :: rest => (key, entry.setting) :: settings rest

def tableSettings : List Entries → List Setting
  | [] => []
  | entries :: rest => .table (settings entries) :: tableSettings rest

end

/-- Puts an entry in place of the one of the same key, or behind the others. -/
def place (key : String) (entry : Entry) : Entries → Entries
  | [] => [(key, entry)]
  | (other, held) :: rest =>
    if other = key then (key, entry) :: rest else (other, held) :: place key entry rest

/-- Changes the table that a path leads to, making the tables on the way that are missing. A header
goes through any table; a key with dots only through those that no header or value has defined. The
change is told whether its table was made by a key with dots. -/
def change (dotted : Bool) (tableDotted : Bool) (path : List String)
    (edit : Bool → Entries → Option Entries) (entries : Entries) : Option Entries :=
  match path with
  | [] => edit tableDotted entries
  | key :: path => do
    let entry ← match entries.lookup key with
      | none => (change dotted dotted path edit []).map (Entry.table true dotted)
      | some (.value _) => none
      | some (.table implicit made held) =>
        if dotted && !implicit then none
        else (change dotted made path edit held).map (Entry.table implicit made)
      | some (.tables items) =>
        match items.getLast? with
        | none => none
        | some last =>
          (change dotted false path edit last).map fun changed =>
            Entry.tables (items.dropLast ++ [changed])
    return place key entry entries

def define (path : List String) (key : String) (value : Setting) (entries : Entries) :
    Option Entries :=
  change true false path (fun dotted held =>
    if dotted == path.isEmpty || (held.lookup key).isSome then none
    else some (held ++ [(key, .value value)])) entries

/-- Where the lines of a text go: into the table of the last header. -/
structure Reading where
  /-- The tables before this header. -/
  root : Entries
  path : List String
  isItem : Bool
  current : Entries

namespace Reading

def start : Reading := ⟨[], [], false, []⟩

/-- All tables, the last one put where its header says. -/
def close (reading : Reading) : Option Entries :=
  match reading.path.getLast? with
  | none => some reading.current
  | some key =>
    change false false reading.path.dropLast (fun _ held =>
      if reading.isItem then
        match held.lookup key with
        | none => some (place key (.tables [reading.current]) held)
        | some (.tables items) => some (place key (.tables (items ++ [reading.current])) held)
        | some _ => none
      else some (place key (.table false false reading.current) held)) reading.root

/-- The entry that a path leads to, its way gone as by a header. -/
def find? (path : List String) (entries : Entries) : Option Entry :=
  match path with
  | [] => none
  | [key] => entries.lookup key
  | key :: path =>
    match entries.lookup key with
    | some (.table _ _ held) => find? path held
    | some (.tables items) => (items.getLast?).bind (find? path)
    | _ => none

/-- Begins the table of a header. It may have been mentioned before, but not defined. -/
def table (reading : Reading) (path : List String) : Option Reading := do
  let root ← reading.close
  let root ← change false false path.dropLast (fun _ held => some held) root
  match find? path root with
  | none => return ⟨root, path, false, []⟩
  | some (.table true false held) => return ⟨root, path, false, held⟩
  | some _ => none

/-- Begins one more table of a list of tables. -/
def item (reading : Reading) (path : List String) : Option Reading := do
  let root ← reading.close
  let root ← change false false path.dropLast (fun _ held => some held) root
  match find? path root with
  | none | some (.tables _) => return ⟨root, path, true, []⟩
  | some _ => none

def define (reading : Reading) (path : List String) (value : Setting) : Option Reading := do
  return { reading with
    current := ← Toml.define path.dropLast (← path.getLast?) value reading.current }

end Reading

namespace Reader

def isSpace (c : Char) : Bool := c == ' ' || c == '\t'

def skipSpace (text : List Char) : List Char := text.dropWhile isSpace

/-- A character of a comment or a literal text. -/
def isPlain (c : Char) : Bool := c == '\t' || (0x20 ≤ c.toNat && c.toNat != 0x7f)

/-- The rest after the end of a line. -/
def newline? : List Char → Option (List Char)
  | '\n' :: rest => some rest
  | '\r' :: '\n' :: rest => some rest
  | _ => none

/-- The rest after a comment, if there is one. -/
def skipComment : List Char → List Char
  | '#' :: rest => rest.dropWhile isPlain
  | text => text

/-- The rest after the end of a line with nothing but a comment before it. -/
def lineEnd? (text : List Char) : Option (List Char) :=
  match skipComment (skipSpace text) with
  | [] => some []
  | rest => newline? rest

/-- Blanks, comments and ends of lines; at most `fuel` lines. -/
def skipLines : Nat → List Char → List Char
  | 0, text => text
  | fuel + 1, text =>
    match newline? (skipComment (skipSpace text)) with
    | some rest => skipLines fuel rest
    | none => skipComment (skipSpace text)

def hexValue? (c : Char) : Option Nat :=
  if '0' ≤ c ∧ c ≤ '9' then some (c.toNat - '0'.toNat)
  else if 'a' ≤ c ∧ c ≤ 'f' then some (c.toNat - 'a'.toNat + 10)
  else if 'A' ≤ c ∧ c ≤ 'F' then some (c.toNat - 'A'.toNat + 10)
  else none

/-- The character of so many hexadecimal digits. -/
def codeChar (count : Nat) (text : List Char) : Option (Char × List Char) := do
  let digits ← (text.take count).mapM hexValue?
  if digits.length < count then none
  let code := digits.foldl (fun code digit => code * 16 + digit) 0
  if code < 0xd800 ∨ (0xe000 ≤ code ∧ code < 0x110000) then
    return (Char.ofNat code, text.drop count)
  else none

/-- A character after a backslash. -/
def escape : List Char → Option (Char × List Char)
  | 'b' :: rest => some ('\x08', rest)
  | 't' :: rest => some ('\t', rest)
  | 'n' :: rest => some ('\n', rest)
  | 'f' :: rest => some ('\x0c', rest)
  | 'r' :: rest => some ('\r', rest)
  | '"' :: rest => some ('"', rest)
  | '\\' :: rest => some ('\\', rest)
  | 'u' :: rest => codeChar 4 rest
  | 'U' :: rest => codeChar 8 rest
  | _ => none

/-- The rest of a text with escapes on one line. -/
def basic : Nat → List Char → List Char → Option (String × List Char)
  | 0, _, _ => none
  | fuel + 1, taken, text =>
    match text with
    | '"' :: rest => some (String.ofList taken.reverse, rest)
    | '\\' :: rest => do
      let (c, rest) ← escape rest
      basic fuel (c :: taken) rest
    | c :: rest => if isPlain c then basic fuel (c :: taken) rest else none
    | [] => none

/-- The rest of a text without escapes on one line. -/
def literal (taken : List Char) : List Char → Option (String × List Char)
  | '\'' :: rest => some (String.ofList taken.reverse, rest)
  | c :: rest => if isPlain c then literal (c :: taken) rest else none
  | [] => none

/-- Blanks and ends of lines; at most `fuel` lines. -/
def skipBlankLines : Nat → List Char → List Char
  | 0, text => text
  | fuel + 1, text =>
    match newline? (skipSpace text) with
    | some rest => skipBlankLines fuel rest
    | none => skipSpace text

/-- The closing marks of a text of many lines: three, with up to two more that belong to it. -/
def closing? (mark : Char) (text : List Char) : Option (List Char × List Char) :=
  let marks := (text.takeWhile (· == mark)).length
  if marks < 3 then none
  else
    let own := min (marks - 3) 2
    some (List.replicate own mark, text.drop (own + 3))

/-- The rest of a text of many lines, with escapes or without. A backslash at the end of a line joins
the lines. -/
def many (mark : Char) : Nat → List Char → List Char → Option (String × List Char)
  | 0, _, _ => none
  | fuel + 1, taken, text =>
    match closing? mark text with
    | some (own, rest) => some (String.ofList (taken.reverse ++ own), rest)
    | none =>
      match newline? text with
      | some rest => many mark fuel ('\n' :: taken) rest
      | none =>
        match text with
        | '\\' :: rest =>
          if mark == '"' then
            match newline? (skipSpace rest) with
            | some after => many mark fuel taken (skipBlankLines after.length after)
            | none => do
              let (c, rest) ← escape rest
              many mark fuel (c :: taken) rest
          else many mark fuel ('\\' :: taken) rest
        | c :: rest => if isPlain c then many mark fuel (c :: taken) rest else none
        | [] => none

/-- A text that begins here, in any of its four forms. -/
def string (text : List Char) : Option (String × List Char) :=
  let long (mark : Char) (rest : List Char) :=
    many mark (rest.length + 1) [] ((newline? rest).getD rest)
  match text with
  | '"' :: '"' :: '"' :: rest => long '"' rest
  | '\'' :: '\'' :: '\'' :: rest => long '\'' rest
  | '"' :: rest => basic (rest.length + 1) [] rest
  | '\'' :: rest => literal [] rest
  | _ => none

def isBareKey (c : Char) : Bool :=
  Text.isAsciiLetter c || Text.isAsciiDigit c || c == '_' || c == '-'

def keyPart (text : List Char) : Option (String × List Char) :=
  match text with
  | '"' :: rest => basic (rest.length + 1) [] rest
  | '\'' :: rest => literal [] rest
  | _ =>
    let bare := text.takeWhile isBareKey
    if bare.isEmpty then none else some (String.ofList bare, text.drop bare.length)

/-- The number of parts that a key may have, and the depth of a value. -/
def depthLimit : Nat := 80

def keyPath : Nat → List Char → Option (List String × List Char)
  | 0, _ => none
  | fuel + 1, text => do
    let (part, rest) ← keyPart (skipSpace text)
    match skipSpace rest with
    | '.' :: rest => do
      let (path, rest) ← keyPath fuel rest
      return (part :: path, rest)
    | rest => return ([part], rest)

def key (text : List Char) : Option (List String × List Char) := keyPath (depthLimit - 1) text

/-- Digits, single underscores between them left out. -/
def digits (isDigit : Char → Bool) (taken : List Char) : List Char → List Char × List Char
  | '_' :: c :: rest =>
    if isDigit c && !taken.isEmpty then digits isDigit (c :: taken) rest
    else (taken.reverse, '_' :: c :: rest)
  | c :: rest =>
    if isDigit c then digits isDigit (c :: taken) rest else (taken.reverse, c :: rest)
  | [] => (taken.reverse, [])

def number (base : Nat) (digits : List Char) : Nat :=
  digits.foldl (fun value c => value * base + (hexValue? c).getD 0) 0

def word? (value : Int) : Option Setting :=
  if -0x8000000000000000 ≤ value ∧ value < 0x8000000000000000 then some (.integer value) else none

/-- An integer in another base, after its two letters. -/
def based (base : Nat) (text : List Char) : Option (Setting × List Char) :=
  let isDigit (c : Char) : Bool := (hexValue? c).any (decide <| · < base)
  match digits isDigit [] text with
  | ([], _) => none
  | (found, rest) => (word? (number base found)).map (·, rest)

def sign : List Char → Bool × List Char
  | '-' :: rest => (true, rest)
  | '+' :: rest => (false, rest)
  | rest => (false, rest)

/-- The digits of a decimal integer, which begins with zero only where it is zero. -/
def wholeDigits : List Char → Option (List Char × List Char)
  | '0' :: rest => some (['0'], rest)
  | text =>
    match digits Text.isAsciiDigit [] text with
    | ([], _) => none
    | found => some found

/-- The power of ten after its letter. -/
def power (text : List Char) : Option (Int × List Char) :=
  let (negative, text) := sign text
  match digits Text.isAsciiDigit [] text with
  | ([], _) => none
  | (found, rest) => some (if negative then -(number 10 found : Int) else number 10 found, rest)

/-- The digits after a point, if there are any. -/
def fraction? : List Char → Option (List Char × List Char)
  | '.' :: rest =>
    match digits Text.isAsciiDigit [] rest with
    | ([], _) => none
    | found => some found
  | _ => none

def exponent? : List Char → Option (Int × List Char)
  | 'e' :: rest => power rest
  | 'E' :: rest => power rest
  | _ => none

/-- The double of a number with a point or a power of ten. None is too large, if it is above zero. -/
def real? (negative : Bool) (digits : Nat) (exponent : Int) : Option Setting :=
  let value := Binary64.ofDecimal ⟨negative, digits, exponent⟩
  if !negative && !Binary64.isFinite value then none else some (.real value)

def decimal (text : List Char) : Option (Setting × List Char) := do
  let (negative, unsigned) := sign text
  let (whole, rest) ← wholeDigits unsigned
  match fraction? rest with
  | some (places, after) =>
    let value := number 10 (whole ++ places)
    match exponent? after with
    | some (exponent, after) => (real? negative value (exponent - places.length)).map (·, after)
    | none => (real? negative value (-(places.length : Int))).map (·, after)
  | none =>
    match exponent? rest with
    | some (exponent, after) => (real? negative (number 10 whole) exponent).map (·, after)
    | none =>
      let value : Int := number 10 whole
      (word? (if negative then -value else value)).map (·, rest)

/-- A number that is not finite, after its sign. -/
def special (negative : Bool) : List Char → Option (Setting × List Char)
  | 'i' :: 'n' :: 'f' :: rest => some (.real (if negative then -1.0 / 0.0 else 1.0 / 0.0), rest)
  | 'n' :: 'a' :: 'n' :: rest => some (.real (0.0 / 0.0), rest)
  | _ => none

/-- A number of two digits below a bound. -/
def pair (low high : Nat) : List Char → Option (Nat × List Char)
  | a :: b :: rest =>
    if Text.isAsciiDigit a && Text.isAsciiDigit b then
      let value := number 10 [a, b]
      if low ≤ value ∧ value ≤ high then some (value, rest) else none
    else none
  | _ => none

def after (c : Char) : List Char → Option (List Char)
  | d :: rest => if d = c then some rest else none
  | [] => none

def isLeapYear (year : Nat) : Bool := year % 4 == 0 && (year % 100 != 0 || year % 400 == 0)

def daysOf (year month : Nat) : Nat :=
  if month = 2 then (if isLeapYear year then 29 else 28)
  else if [4, 6, 9, 11].contains month then 30 else 31

def date (text : List Char) : Option (List Char) := do
  let (century, rest) ← pair 0 99 text
  let (year, rest) ← pair 0 99 rest
  let (month, rest) ← pair 1 12 (← after '-' rest)
  let (day, rest) ← pair 1 31 (← after '-' rest)
  if day ≤ daysOf (century * 100 + year) month then return rest else none

/-- The rest after a time of day. -/
def time (text : List Char) : Option (List Char) := do
  let (_, rest) ← pair 0 23 text
  let (_, rest) ← pair 0 59 (← after ':' rest)
  let (_, rest) ← pair 0 60 (← after ':' rest)
  match rest with
  | '.' :: c :: more =>
    if Text.isAsciiDigit c then return more.dropWhile Text.isAsciiDigit else return rest
  | _ => return rest

/-- The rest after the distance from universal time, if one is given. -/
def zone (text : List Char) : Option (List Char) :=
  match text with
  | 'Z' :: rest | 'z' :: rest => some rest
  | '+' :: rest | '-' :: rest => do
    let (_, rest) ← pair 0 23 rest
    let (_, rest) ← pair 0 59 (← after ':' rest)
    return rest
  | _ => some text

/-- The rest after a date, with or without a time. -/
def dateTime (text : List Char) : Option (List Char) := do
  let rest ← date text
  match rest with
  | 'T' :: more | 't' :: more => (time more).bind zone
  | ' ' :: more =>
    if (pair 0 99 more).isSome && ((more.drop 2).head? == some ':') then (time more).bind zone
    else return rest
  | _ => return rest

/-- Whether a date or a time begins here; nothing else then does. -/
def startsMoment (text : List Char) : Bool :=
  let four := (text.take 4).filter Text.isAsciiDigit
  (four.length == 4 && text[4]? == some '-') ||
    (((text.take 2).filter Text.isAsciiDigit).length == 2 && text[2]? == some ':')

def moment (text : List Char) : Option (Setting × List Char) := do
  let rest ← if text[2]? == some ':' then time text else dateTime text
  return (.moment (String.ofList (text.take (text.length - rest.length))), rest)

def numeric (text : List Char) : Option (Setting × List Char) :=
  if startsMoment text then moment text
  else match text with
  | '0' :: 'x' :: rest => based 16 rest
  | '0' :: 'o' :: rest => based 8 rest
  | '0' :: 'b' :: rest => based 2 rest
  | _ =>
    let (negative, unsigned) := sign text
    (special negative unsigned).or (decimal text)

mutual

/-- A value that begins here. The first argument bounds the steps, the second the depth. -/
def value : Nat → Nat → List Char → Option (Setting × List Char)
  | 0, _, _ => none
  | fuel + 1, depth, text =>
    match text with
    | '"' :: _ | '\'' :: _ => (string text).map fun (read, rest) => (.text read, rest)
    | '[' :: rest =>
      if depth = 0 then none
      else (items fuel (depth - 1) [] rest).map fun (read, rest) => (.list read, rest)
    | '\x7b' :: rest =>
      if depth = 0 then none
      else match skipSpace rest with
        | '\x7d' :: rest => some (.table [], rest)
        | rest => (members fuel (depth - 1) [] rest).map fun (read, rest) =>
            (.table (settings read), rest)
    | 't' :: 'r' :: 'u' :: 'e' :: rest => some (.bool true, rest)
    | 'f' :: 'a' :: 'l' :: 's' :: 'e' :: rest => some (.bool false, rest)
    | _ => numeric text

/-- The values of a list up to its closing bracket. -/
def items : Nat → Nat → List Setting → List Char → Option (List Setting × List Char)
  | 0, _, _, _ => none
  | fuel + 1, depth, taken, text =>
    match skipLines text.length text with
    | ']' :: rest => some (taken.reverse, rest)
    | text => do
      let (read, rest) ← value fuel depth text
      match skipLines rest.length rest with
      | ',' :: rest => items fuel depth (read :: taken) rest
      | ']' :: rest => return ((read :: taken).reverse, rest)
      | _ => none

/-- The keys and values of a table on one line, up to its closing brace. -/
def members : Nat → Nat → Entries → List Char → Option (Entries × List Char)
  | 0, _, _, _ => none
  | fuel + 1, depth, taken, text => do
    let (path, rest) ← key text
    let (read, rest) ← value fuel depth (skipSpace (← after '=' rest))
    let taken ← define path.dropLast (← path.getLast?) read taken
    match skipSpace rest with
    | ',' :: rest => members fuel depth taken rest
    | '\x7d' :: rest => return (taken, rest)
    | _ => none

end

/-- One line: a header, or a key and its value. -/
def line (reading : Reading) (text : List Char) : Option (Reading × List Char) :=
  match text with
  | '[' :: '[' :: rest => do
    let (path, rest) ← key rest
    return (← reading.item path, ← lineEnd? (← after ']' (← after ']' rest)))
  | '[' :: rest => do
    let (path, rest) ← key rest
    return (← reading.table path, ← lineEnd? (← after ']' rest))
  | _ => do
    let (path, rest) ← key text
    let rest := skipSpace (← after '=' rest)
    let (read, rest) ← value (2 * rest.length + 2) (depthLimit - 1) rest
    return (← reading.define path read, ← lineEnd? rest)

/-- All lines of a text; at most `fuel` of them. -/
def lines : Nat → Reading → List Char → Option Reading
  | 0, _, _ => none
  | fuel + 1, reading, text =>
    match skipLines text.length text with
    | [] => some reading
    | text => do
      let (reading, rest) ← line reading text
      lines fuel reading rest

end Reader

def parse (text : String) : Option Setting := do
  let chars := text.toList
  let chars := if chars.head? = some '\ufeff' then chars.drop 1 else chars
  let reading ← Reader.lines (chars.length + 1) .start chars
  return .table (settings (← reading.close))

end DesignCompiler.Toml
