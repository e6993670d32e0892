import DesignCompiler.Pattern.Expr

/-!
Reading patterns: alternatives, groups with flags, repetitions, sets of characters with their own
operations, and conditions on places. Back references and looking around are refused. The cause of a fault is
given in plain words, without the place in the pattern.
-/
namespace DesignCompiler.Pattern

/-- Why a pattern cannot be used. -/
inductive Fault where
  | malformed (pattern cause : String)
  | tooLarge
deriving DecidableEq, Repr

/-- The number of bytes a compiled pattern may take. -/
def sizeLimit : Nat := 10485760

def Fault.message : Fault → String
  | malformed pattern cause => "regex parse error:\n    " ++ pattern ++ "\nerror: " ++ cause
  | tooLarge => "Compiled regex exceeds size limit of " ++ toString sizeLimit ++ " bytes."

/-- The modes that a pattern can switch on and off. -/
structure Flags where
  ignoreCase : Bool
  multiLine : Bool
  dotAll : Bool
  unicode : Bool
  crlf : Bool
  verbose : Bool
deriving DecidableEq, Repr

def Flags.default : Flags := ⟨false, false, false, true, false, false⟩

namespace Reader

abbrev Result (α : Type) := Except String (α × List Char)

/-- The set with the case variants of its members, if case is ignored. -/
def caseless (flags : Flags) (members : CharClass) : CharClass :=
  if flags.ignoreCase then
    if flags.unicode then .folded members else .foldedAscii members
  else members

def skipComment : List Char → List Char
  | '\n' :: rest => rest
  | _ :: rest => skipComment rest
  | [] => []

/-- In verbose mode, skips blanks and comments. -/
def skipSpace (flags : Flags) : Nat → List Char → List Char
  | 0, text => text
  | fuel + 1, text =>
    if !flags.verbose then text
    else match text with
      | '#' :: rest => skipSpace flags fuel (skipComment rest)
      | c :: rest => if Text.isBlank c then skipSpace flags fuel rest else text
      | [] => []

def space (flags : Flags) (text : List Char) : List Char := skipSpace flags (text.length + 1) text

def isMeta (c : Char) : Bool := "\\.+*?()|[]\x7b\x7d^$#&-~".toList.contains c

/-- A punctuation character that a backslash turns into itself. -/
def isEscapable (c : Char) : Bool :=
  isMeta c || (c.toNat < 128 && !Text.isAsciiLetter c && !Text.isAsciiDigit c && c != '<' && c != '>')

def hexValue? (c : Char) : Option Nat :=
  if '0' ≤ c ∧ c ≤ '9' then some (c.toNat - 48)
  else if 'a' ≤ c ∧ c ≤ 'f' then some (c.toNat - 87)
  else if 'A' ≤ c ∧ c ≤ 'F' then some (c.toNat - 55)
  else none

/-- The code point of hexadecimal digits, if it is one of a character. -/
def codeOfHex? (digits : List Char) : Option Nat := do
  if digits.isEmpty then none
  let code ← digits.foldlM (fun value c => (hexValue? c).map (value * 16 + ·)) 0
  if code < 0x110000 ∧ ¬(0xd800 ≤ code ∧ code < 0xe000) then some code else none

/-- The text up to a mark, and the text after it. -/
def upTo (mark : Char) (text : List Char) : Option (List Char × List Char) :=
  match text.dropWhile (· != mark) with
  | _ :: rest => some (text.takeWhile (· != mark), rest)
  | [] => none

/-- The digits of a code point after `x`, `u` or `U`: in braces, or a fixed number of them. -/
def hexCode (count : Nat) : List Char → Result Nat
  | '\x7b' :: rest =>
    match upTo '\x7d' rest with
    | none => .error "unclosed hexadecimal code"
    | some (digits, rest) =>
      match codeOfHex? digits with
      | some code => .ok (code, rest)
      | none => .error "invalid hexadecimal code"
  | text =>
    let digits := text.take count
    if digits.length < count then .error "incomplete hexadecimal code"
    else match codeOfHex? digits with
      | some code => .ok (code, text.drop count)
      | none => .error "invalid hexadecimal code"

/-- The code after `x`. Two digits without braces name a byte if Unicode is off, and a byte above 127 is
no character. -/
def hexByte (flags : Flags) (text : List Char) : Result Nat :=
  match hexCode 2 text with
  | .error cause => .error cause
  | .ok (code, rest) =>
    if !flags.unicode && text.head? != some '\x7b' && code > 127 then
      .error "pattern can match half a character"
    else .ok (code, rest)

/-- Names of properties are compared in lower case without blanks, hyphens and underscores, and without an `is`
in front. What is left of `isc` would be the name of a category, so that name stays whole. -/
def loose (name : List Char) : String :=
  let keep (text : List Char) := String.ofList
    ((text.filter fun c => c.toNat < 128 && c != ' ' && c != '-' && c != '_').map Char.toLower)
  match name with
  | i :: s :: rest =>
    if i.toLower == 'i' && s.toLower == 's' then
      let kept := keep rest
      if kept = "c" then "isc" else kept
    else keep name
  | _ => keep name

/-- General categories and groups of them by their loose names. -/
def categories : List (String × List Text.Category) :=
  let letters : List Text.Category :=
    [.upperLetter, .lowerLetter, .titleLetter, .modifierLetter, .otherLetter]
  let marks : List Text.Category := [.nonspacingMark, .spacingMark, .enclosingMark]
  let numbers : List Text.Category := [.decimalNumber, .letterNumber, .otherNumber]
  let punctuation : List Text.Category :=
    [.connectorPunctuation, .dashPunctuation, .openPunctuation, .closePunctuation,
      .initialPunctuation, .finalPunctuation, .otherPunctuation]
  let symbols : List Text.Category :=
    [.mathSymbol, .currencySymbol, .modifierSymbol, .otherSymbol]
  let separators : List Text.Category := [.spaceSeparator, .lineSeparator, .paragraphSeparator]
  let others : List Text.Category := [.control, .format, .privateUse, .unassigned]
  let cased : List Text.Category := [.upperLetter, .lowerLetter, .titleLetter]
  [("l", letters), ("letter", letters), ("lc", cased), ("casedletter", cased), ("m", marks),
    ("mark", marks), ("combiningmark", marks), ("n", numbers), ("number", numbers),
    ("p", punctuation), ("punctuation", punctuation), ("punct", punctuation), ("s", symbols),
    ("symbol", symbols), ("z", separators), ("separator", separators), ("c", others),
    ("other", others), ("uppercaseletter", [.upperLetter]), ("lowercaseletter", [.lowerLetter]),
    ("titlecaseletter", [.titleLetter]), ("modifierletter", [.modifierLetter]),
    ("otherletter", [.otherLetter]), ("nonspacingmark", [.nonspacingMark]),
    ("spacingmark", [.spacingMark]), ("enclosingmark", [.enclosingMark]),
    ("decimalnumber", [.decimalNumber]), ("digit", [.decimalNumber]),
    ("letternumber", [.letterNumber]), ("othernumber", [.otherNumber]),
    ("connectorpunctuation", [.connectorPunctuation]), ("dashpunctuation", [.dashPunctuation]),
    ("openpunctuation", [.openPunctuation]), ("closepunctuation", [.closePunctuation]),
    ("initialpunctuation", [.initialPunctuation]), ("finalpunctuation", [.finalPunctuation]),
    ("otherpunctuation", [.otherPunctuation]), ("mathsymbol", [.mathSymbol]),
    ("currencysymbol", [.currencySymbol]), ("modifiersymbol", [.modifierSymbol]),
    ("othersymbol", [.otherSymbol]), ("spaceseparator", [.spaceSeparator]),
    ("lineseparator", [.lineSeparator]), ("paragraphseparator", [.paragraphSeparator]),
    ("control", [.control]), ("cntrl", [.control]), ("format", [.format]),
    ("privateuse", [.privateUse]), ("unassigned", [.unassigned])] ++
  (Text.Category.all.erase .surrogate).map fun category => (category.code.toLower, [category])

def ofProperty (property : Text.Property) : CharClass :=
  .except (.union (.category property.categories) (.ranges property.more)) (.ranges property.less)

/-- The set of a category or of a group of categories. -/
def category? : String → Option CharClass
  | "any" => some .any
  | "assigned" => some (.complement (.category [.unassigned]))
  | "ascii" => some (.range 0 127)
  | name => (categories.lookup name).map .category

/-- The set of a property without a value. -/
def property? (name : String) : Option CharClass :=
  match name with
  | "alphabetic" | "alpha" => some .alphabetic
  | "lowercase" | "lower" => some .lower
  | "uppercase" | "upper" => some .upper
  | "whitespace" | "wspace" | "space" => some .blank
  | name =>
    ((Text.property? name).map ofProperty).or <|
      (category? name).or ((Text.script? name).map fun script => .ranges script.members)

/-- The characters that are used in a script. What is of no script or of the script before it is listed under
the scripts that use it. -/
def usedIn (script : Text.Script) : CharClass :=
  if script.names.contains "zyyy" || script.names.contains "zinh" then
    .except (.ranges script.members) (.ranges (Text.sharedCharacters.flatMap (·.2)))
  else .ranges (script.members ++ script.shared)

/-- The set of a property with a value. -/
def propertyValue? (name value : String) : Option CharClass :=
  match name with
  | "gc" | "generalcategory" => category? value
  | "sc" | "script" => (Text.script? value).map fun script => .ranges script.members
  | "scx" | "scriptextensions" => (Text.script? value).map usedIn
  | _ => none

/-- The set of a property as it stands between braces. -/
def namedProperty? (name : List Char) : Option CharClass :=
  let split (at_ : Nat) (width : Nat) :=
    propertyValue? (loose (name.take at_)) (loose (name.drop (at_ + width)))
  match name.idxOf? '!' with
  | some at_ =>
    if name[at_ + 1]? = some '=' then (split at_ 2).map .complement else none
  | none =>
    match name.idxOf? ':' with
    | some at_ => split at_ 1
    | none =>
      match name.idxOf? '=' with
      | some at_ => split at_ 1
      | none => property? (loose name)

def property (negated : Bool) (flags : Flags) (text : List Char) : Result CharClass :=
  let read : Except String (List Char × List Char) :=
    match text with
    | '\x7b' :: rest =>
      match upTo '\x7d' rest with
      | some found => .ok found
      | none => .error "unclosed property"
    | '\\' :: _ => .error "invalid property"
    | c :: rest => .ok ([c], rest)
    | [] => .error "incomplete property"
  match read with
  | .error cause => .error cause
  | .ok (name, rest) =>
    if !flags.unicode then .error "properties are not allowed here"
    else match namedProperty? name with
      | none => .error "unknown property"
      | some members =>
        let members := caseless flags members
        .ok (if negated then .complement members else members, rest)

/-- A set turned inside out. Without Unicode it would hold bytes that are no characters, which no
pattern may match. -/
def complementIn (flags : Flags) (members : CharClass) : Except String CharClass :=
  if flags.unicode then .ok (.complement members) else .error "pattern can match half a character"

def letterClass? (flags : Flags) (c : Char) : Option (Except String CharClass) :=
  let digits : CharClass := if flags.unicode then .digit else .range 48 57
  let blanks : CharClass := if flags.unicode then .blank else .ranges [(9, 13), (32, 32)]
  let words : CharClass :=
    if flags.unicode then .word else .ranges [(48, 57), (65, 90), (95, 95), (97, 122)]
  match c with
  | 'd' => some (.ok digits)
  | 'D' => some (complementIn flags digits)
  | 's' => some (.ok blanks)
  | 'S' => some (complementIn flags blanks)
  | 'w' => some (.ok words)
  | 'W' => some (complementIn flags words)
  | _ => none

def asciiClass? (name : String) : Option CharClass :=
  match name with
  | "alnum" => some (.ranges [(48, 57), (65, 90), (97, 122)])
  | "alpha" => some (.ranges [(65, 90), (97, 122)])
  | "ascii" => some (.ranges [(0, 127)])
  | "blank" => some (.ranges [(9, 9), (32, 32)])
  | "cntrl" => some (.ranges [(0, 31), (127, 127)])
  | "digit" => some (.ranges [(48, 57)])
  | "graph" => some (.ranges [(33, 126)])
  | "lower" => some (.ranges [(97, 122)])
  | "print" => some (.ranges [(32, 126)])
  | "punct" => some (.ranges [(33, 47), (58, 64), (91, 96), (123, 126)])
  | "space" => some (.ranges [(9, 13), (32, 32)])
  | "upper" => some (.ranges [(65, 90)])
  | "word" => some (.ranges [(48, 57), (65, 90), (95, 95), (97, 122)])
  | "xdigit" => some (.ranges [(48, 57), (65, 70), (97, 102)])
  | _ => none

/-- What a backslash and the text after it stand for. -/
inductive Escape where
  | literal (code : Nat)
  | members (set : CharClass)
  | place (condition : Place)

/-- A condition on a word edge that is named in braces; braces that hold anything else do not belong
to it. -/
def wordEdge (flags : Flags) (text : List Char) : Result Place :=
  let ascii := !flags.unicode
  match text with
  | '\x7b' :: rest =>
    let name := rest.takeWhile fun c => Text.isAsciiLetter c || c == '-'
    match rest.drop name.length with
    | '\x7d' :: after =>
      match String.ofList name with
      | "start" => .ok (.wordStart ascii, after)
      | "end" => .ok (.wordEnd ascii, after)
      | "start-half" => .ok (.wordStartHalf ascii, after)
      | "end-half" => .ok (.wordEndHalf ascii, after)
      | "" => .ok (.wordEdge ascii, text)
      | _ => .error "unknown word edge"
    | _ => if name.isEmpty then .ok (.wordEdge ascii, text) else .error "unclosed word edge"
  | text => .ok (.wordEdge ascii, text)

def escape (flags : Flags) : List Char → Result Escape
  | [] => .error "incomplete escape"
  | c :: rest =>
    let ascii := !flags.unicode
    let literal (code : Nat) : Result Escape := .ok (.literal code, rest)
    match c with
    | 'x' => (hexByte flags rest).map fun (code, rest) => (.literal code, rest)
    | 'u' => (hexCode 4 rest).map fun (code, rest) => (.literal code, rest)
    | 'U' => (hexCode 8 rest).map fun (code, rest) => (.literal code, rest)
    | 'p' => (property false flags rest).map fun (members, rest) => (.members members, rest)
    | 'P' => (property true flags rest).map fun (members, rest) => (.members members, rest)
    | 'a' => literal 0x07
    | 'f' => literal 0x0c
    | 't' => literal 0x09
    | 'n' => literal 0x0a
    | 'r' => literal 0x0d
    | 'v' => literal 0x0b
    | 'A' => .ok (.place .textStart, rest)
    | 'z' => .ok (.place .textEnd, rest)
    | 'b' => (wordEdge flags rest).map fun (place, rest) => (.place place, rest)
    | 'B' => .ok (.place (.noWordEdge ascii), rest)
    | '<' => .ok (.place (.wordStart ascii), rest)
    | '>' => .ok (.place (.wordEnd ascii), rest)
    | c =>
      match letterClass? flags c with
      | some members => members.map fun members => (.members members, rest)
      | none => if isEscapable c then literal c.toNat else .error "unrecognized escape"

/-- A literal or a set within brackets. Without Unicode, brackets hold ASCII alone. -/
def bracketItem (flags : Flags) (text : List Char) : Result Escape :=
  let item : Result Escape :=
    match text with
    | '\\' :: rest => escape flags rest
    | c :: rest => .ok (.literal c.toNat, rest)
    | [] => .error "unclosed brackets"
  match item with
  | .ok (.place _, _) => .error "a place within brackets"
  | .ok (.literal code, rest) =>
    if !flags.unicode && code > 127 then .error "characters beyond ASCII are not allowed here"
    else .ok (.literal code, rest)
  | other => other

def Escape.toClass : Escape → CharClass
  | literal code => .range code code
  | members set => set
  | place _ => .none

/-- A range or a single item within brackets. -/
def bracketRange (flags : Flags) (text : List Char) : Result CharClass :=
  match bracketItem flags text with
  | .error cause => .error cause
  | .ok (first, rest) =>
    match space flags rest with
    | [] => .error "unclosed brackets"
    | '-' :: after =>
      match space flags after with
      | ']' :: _ => .ok (first.toClass, space flags rest)
      | '-' :: _ => .ok (first.toClass, space flags rest)
      | [] => .error "unclosed brackets"
      | upper =>
        match bracketItem flags upper with
        | .error cause => .error cause
        | .ok (last, rest) =>
          match first, last with
          | .literal low, .literal high =>
            if low ≤ high then .ok (.range low high, rest) else .error "range out of order"
          | _, _ => .error "range of sets"
    | rest => .ok (first.toClass, rest)

/-- A named class such as `[:alpha:]`, after its opening bracket. -/
def namedClass? (flags : Flags) : List Char → Option (Result CharClass)
  | ':' :: rest =>
    let (negated, rest) := match rest with
      | '^' :: rest => (true, rest)
      | rest => (false, rest)
    let name := rest.takeWhile (· != ':')
    match rest.drop name.length with
    | ':' :: ']' :: after =>
      (asciiClass? (String.ofList name)).map fun members =>
        let members := caseless flags members
        (if negated then complementIn flags members else .ok members).map (·, after)
    | _ => none
  | _ => none

/-- An operation on two sets within brackets. -/
inductive Operation where
  | both
  | except
  | either

def Operation.apply (flags : Flags) (operation : Operation) (left right : CharClass) : CharClass :=
  let left := caseless flags left
  let right := caseless flags right
  match operation with
  | both => .both left right
  | except => .except left right
  | either => .union (.except left right) (.except right left)

def finish (flags : Flags) (pending : Option (Operation × CharClass)) (members : List CharClass) :
    CharClass :=
  let own := CharClass.ofList members
  match pending with
  | some (operation, left) => operation.apply flags left own
  | none => own

mutual

def brackets : Nat → Flags → List Char → Result CharClass
  | 0, _, _ => .error "pattern too deep"
  | fuel + 1, flags, text =>
    let text := space flags text
    let (negated, text) := match text with
      | '^' :: rest => (true, space flags rest)
      | rest => (false, rest)
    let hyphens := text.takeWhile (· == '-')
    let text := space flags (text.drop hyphens.length)
    let first : List CharClass := if hyphens.isEmpty then [] else [.range 45 45]
    let (first, text) := match text with
      | ']' :: rest => if first.isEmpty then ([CharClass.range 93 93], rest) else (first, text)
      | _ => (first, text)
    match bracketMembers fuel flags none first text with
    | .error cause => .error cause
    | .ok (members, rest) =>
      let members := caseless flags members
      (if negated then complementIn flags members else .ok members).map (·, rest)

/-- The members of a set up to its closing bracket. -/
def bracketMembers : Nat → Flags → Option (Operation × CharClass) → List CharClass → List Char →
    Result CharClass
  | 0, _, _, _, _ => .error "pattern too deep"
  | fuel + 1, flags, pending, members, text =>
    let operate (operation : Operation) (rest : List Char) : Result CharClass :=
      bracketMembers fuel flags (some (operation, finish flags pending members)) [] rest
    match space flags text with
    | [] => .error "unclosed brackets"
    | '[' :: rest =>
      match namedClass? flags rest with
      | some (.error cause) => .error cause
      | some (.ok (named, rest)) => bracketMembers fuel flags pending (named :: members) rest
      | none =>
        match brackets fuel flags rest with
        | .error cause => .error cause
        | .ok (inner, rest) => bracketMembers fuel flags pending (inner :: members) rest
    | ']' :: rest => .ok (finish flags pending members, rest)
    | '&' :: '&' :: rest => operate .both rest
    | '-' :: '-' :: rest => operate .except rest
    | '~' :: '~' :: rest => operate .either rest
    | text =>
      match bracketRange flags text with
      | .error cause => .error cause
      | .ok (item, rest) => bracketMembers fuel flags pending (item :: members) rest

end

/-- Flags after a question mark, up to a colon or a closing parenthesis. -/
def flagLetters : Nat → Flags → Bool → Bool → List Char → List Char →
    Result (Flags × List Char × Bool)
  | 0, _, _, _, _, _ => .error "flags too long"
  | fuel + 1, flags, off, dangling, seen, text =>
    match text with
    | [] => .error "unclosed flags"
    | ':' :: _ => if dangling then .error "dangling negation" else .ok ((flags, seen, off), text)
    | ')' :: _ => if dangling then .error "dangling negation" else .ok ((flags, seen, off), text)
    | '-' :: rest =>
      if off then .error "repeated negation" else flagLetters fuel flags true true seen rest
    | c :: rest =>
      if seen.contains c then .error "repeated flag"
      else
        let on := !off
        let next (flags : Flags) := flagLetters fuel flags off false (c :: seen) rest
        match c with
        | 'i' => next { flags with ignoreCase := on }
        | 'm' => next { flags with multiLine := on }
        | 's' => next { flags with dotAll := on }
        | 'U' => next flags
        | 'u' => next { flags with unicode := on }
        | 'R' => next { flags with crlf := on }
        | 'x' => next { flags with verbose := on }
        | _ => .error "unrecognized flag"

/-- A name of a group, up to its closing angle. -/
def groupName (text : List Char) : Result String :=
  match upTo '>' text with
  | none => .error "unclosed group name"
  | some (name, rest) =>
    match name with
    | [] => .error "empty group name"
    | first :: others =>
      let starts := first == '_' || Text.isAlphabetic first
      let goes (c : Char) :=
        c == '_' || c == '.' || c == '[' || c == ']' || Text.isAlphabetic c || Text.isAsciiDigit c
      if starts && others.all goes then .ok (String.ofList name, rest)
      else .error "invalid group name"

/-- A natural number with blanks around it. -/
def count (text : List Char) : Result Nat :=
  let text := text.dropWhile Text.isBlank
  let digits := text.takeWhile Text.isAsciiDigit
  let rest := (text.drop digits.length).dropWhile Text.isBlank
  if digits.isEmpty then .error "empty repetition count"
  else
    let value := digits.foldl (fun value c => value * 10 + (c.toNat - 48)) 0
    if value < UInt32.size then .ok (value, rest) else .error "invalid repetition count"

/-- The bounds of a repetition after its opening brace. -/
def bounds (text : List Char) : Result (Nat × Option Nat) :=
  match count text with
  | .error cause => .error cause
  | .ok (least, rest) =>
    match rest with
    | '\x7d' :: rest => .ok ((least, some least), rest)
    | ',' :: '\x7d' :: rest => .ok ((least, none), rest)
    | ',' :: rest =>
      match count rest with
      | .error cause => .error cause
      | .ok (most, '\x7d' :: rest) =>
        if least ≤ most then .ok ((least, some most), rest)
        else .error "invalid repetition range"
      | .ok _ => .error "unclosed repetition count"
    | _ => .error "unclosed repetition count"

/-- A part of a sequence: an expression, or flags, which cannot be repeated. -/
abbrev Part := Option Expr

def sequence (parts : List Part) : Expr :=
  (parts.filterMap id).foldl (fun whole part => part.andThen whole) .empty

def choice (branches : List Expr) : Expr :=
  match branches with
  | [] => .empty
  | branch :: rest => rest.foldl (fun whole branch => .alt branch whole) branch

def dot (flags : Flags) : CharClass :=
  if flags.dotAll then .any
  else if flags.crlf then .complement (.ranges [(10, 10), (13, 13)])
  else .complement (.range 10 10)

def lazyMark : List Char → List Char
  | '?' :: rest => rest
  | rest => rest

def nestLimit : Nat := 250

/-- Reads a pattern, or the inside of a group up to its closing parenthesis. The parts of the branch
in hand and the branches before it come latest first. -/
def pattern : Nat → Nat → Flags → List String → List Expr → List Part → List Char →
    Result (Expr × List String)
  | 0, _, _, _, _, _, _ => .error "pattern too deep"
  | fuel + 1, depth, flags, names, branches, parts, text =>
    let close (rest : List Char) : Result (Expr × List String) :=
      .ok ((choice (sequence parts :: branches), names), rest)
    let add (part : Part) (rest : List Char) :=
      pattern fuel depth flags names branches (part :: parts) rest
    let again (least : Nat) (most : Option Nat) (rest : List Char) : Result (Expr × List String) :=
      match parts with
      | some last :: others =>
        pattern fuel depth flags names branches (some (.repeated last least most) :: others)
          (lazyMark rest)
      | _ => .error "repetition of nothing"
    let group (inner : Flags) (names : List String) (rest : List Char) :
        Result (Expr × List String) :=
      if depth ≥ nestLimit then .error "nesting too deep"
      else match pattern fuel (depth + 1) inner names [] [] rest with
        | .error cause => .error cause
        | .ok ((body, names), ')' :: rest) =>
          pattern fuel depth flags names branches (some body :: parts) rest
        | .ok _ => .error "unclosed group"
    match space flags text with
    | [] => close []
    | ')' :: rest => if depth = 0 then .error "unopened group" else close (')' :: rest)
    | '|' :: rest => pattern fuel depth flags names (sequence parts :: branches) [] rest
    | '(' :: rest =>
      match space flags rest with
      | '?' :: '=' :: _ => .error "look-around"
      | '?' :: '!' :: _ => .error "look-around"
      | '?' :: '<' :: '=' :: _ => .error "look-around"
      | '?' :: '<' :: '!' :: _ => .error "look-around"
      | '?' :: 'P' :: '<' :: rest =>
        match groupName rest with
        | .error cause => .error cause
        | .ok (name, rest) =>
          if names.contains name then .error "repeated group name"
          else group flags (name :: names) rest
      | '?' :: '<' :: rest =>
        match groupName rest with
        | .error cause => .error cause
        | .ok (name, rest) =>
          if names.contains name then .error "repeated group name"
          else group flags (name :: names) rest
      | '?' :: rest =>
        match flagLetters (rest.length + 1) flags false false [] rest with
        | .error cause => .error cause
        | .ok ((inner, seen, off), ')' :: rest) =>
          if seen.isEmpty && !off then .error "repetition of nothing"
          else pattern fuel depth inner names branches (none :: parts) rest
        | .ok ((inner, _, _), _ :: rest) => group inner names rest
        | .ok _ => .error "unclosed group"
      | rest => group flags names rest
    | '[' :: rest =>
      match brackets (2 * rest.length + 2) flags rest with
      | .error cause => .error cause
      | .ok (members, rest) => add (some (.char members)) rest
    | '?' :: rest => again 0 (some 1) rest
    | '*' :: rest => again 0 none rest
    | '+' :: rest => again 1 none rest
    | '\x7b' :: rest =>
      match parts with
      | some _ :: _ =>
        match bounds rest with
        | .error cause => .error cause
        | .ok ((least, most), rest) => again least most rest
      | _ => .error "repetition of nothing"
    | '.' :: rest =>
      if flags.unicode then add (some (.char (dot flags))) rest
      else .error "pattern can match half a character"
    | '^' :: rest =>
      add (some (.place (if flags.multiLine then .lineStart flags.crlf else .textStart))) rest
    | '$' :: rest =>
      add (some (.place (if flags.multiLine then .lineEnd flags.crlf else .textEnd))) rest
    | '\\' :: ' ' :: rest => add (some (.char (.range 32 32))) rest
    | '\\' :: rest =>
      match escape flags rest with
      | .error cause => .error cause
      | .ok (.literal code, rest) =>
        add (some (.char (caseless flags (.range code code)))) rest
      | .ok (.members members, rest) => add (some (.char members)) rest
      | .ok (.place place, rest) => add (some (.place place)) rest
    | c :: rest => add (some (.char (caseless flags (.range c.toNat c.toNat)))) rest

end Reader

def Expr.parse (text : String) : Except Fault Expr :=
  let chars := text.toList
  match Reader.pattern (2 * chars.length + 2) 0 .default [] [] [] chars with
  | .error cause => .error (.malformed text cause)
  | .ok ((expr, _), []) => if expr.weight > sizeLimit then .error .tooLarge else .ok expr
  | .ok _ => .error (.malformed text "unopened group")

end DesignCompiler.Pattern
