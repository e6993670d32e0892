import DesignCompiler.Url.Host

/-!
URLs: reading them, and following references from them.
-/
namespace DesignCompiler

namespace Url

/-- Who and where a URL asks. -/
structure Authority where
  user : Option String
  host : Host
  /-- The number behind the host, unless it is the one that the scheme has anyway. -/
  portNumber : Option Nat
deriving DecidableEq, Repr

inductive Path where
  /-- Text without steps, from which no reference can be followed. -/
  | text (whole : String)
  | steps (names : List String)
deriving DecidableEq, Repr

end Url

structure Url where
  scheme : String
  authority : Option Url.Authority
  path : Url.Path
  query : Option String
  fragment : Option String
deriving DecidableEq, Repr

namespace Url

/-- The known schemes, each with the number that a host without one is asked at. -/
def knownSchemes : List (String × Option Nat) :=
  [("http", some 80), ("https", some 443), ("ws", some 80), ("wss", some 443), ("ftp", some 21),
    ("file", none)]

def isKnown (scheme : String) : Bool := (knownSchemes.lookup scheme).isSome

def isSlash (known : Bool) (c : Char) : Bool := c = '/' || (known && c = '\\')

def endsAuthority (known : Bool) (c : Char) : Bool := isSlash known c || c = '?' || c = '#'

/-- The characters that count: none around the text that are blank, and no tabs and line ends. -/
def significant (text : String) : List Char :=
  let chars := text.toList.dropWhile (· ≤ ' ')
  let chars := (chars.reverse.dropWhile (· ≤ ' ')).reverse
  chars.filter fun c => c != '\t' && c != '\n' && c != '\r'

def isSchemeChar (c : Char) : Bool :=
  ('a' ≤ c && c ≤ 'z') || ('A' ≤ c && c ≤ 'Z') || ('0' ≤ c && c ≤ '9') || "+-.".contains c

/-- The scheme in lower case, and what follows its colon. -/
def splitScheme? (chars : List Char) : Option (String × List Char) :=
  match chars.takeWhile isSchemeChar, chars.dropWhile isSchemeChar with
  | first :: name, ':' :: rest =>
    if ('a' ≤ first ∧ first ≤ 'z') ∨ ('A' ≤ first ∧ first ≤ 'Z') then
      some (String.ofList ((first :: name).map Char.toLower), rest)
    else none
  | _, _ => none

/-- The part before the first character that fits, and the rest from there on. -/
def splitAt (test : Char → Bool) (chars : List Char) : List Char × List Char :=
  (chars.takeWhile fun c => !test c, chars.dropWhile fun c => !test c)

/-- The user at the front of an authority, and what comes after the last at sign. -/
def splitUser (known : Bool) (chars : List Char) :
    Except Fault (Option String × List Char) :=
  let (front, rest) := splitAt (endsAuthority known) chars
  if !front.contains '@' then .ok (none, chars)
  else
    let backwards := front.reverse
    let target := (backwards.takeWhile (· != '@')).reverse
    let user := (backwards.dropWhile (· != '@')).tail.reverse
    if user.isEmpty then
      if target.isEmpty && !rest.isEmpty then .error .emptyHost
      else .ok (none, target ++ rest)
    else
      let (name, password) := splitAt (· == ':') user
      let text := escape userReserved name ++
        (match password with
        | [] | [_] => ""
        | _ :: password => ":" ++ escape userReserved password)
      .ok (if text.isEmpty then none else some text, target ++ rest)

/-- The characters of a host; a colon ends it unless it is between brackets. -/
def hostLength (known inBrackets : Bool) : List Char → Nat
  | [] => 0
  | c :: rest =>
    if (c = ':' && !inBrackets) || endsAuthority known c then 0
    else hostLength known (c = '[' || (inBrackets && c != ']')) rest + 1

/-- The number behind a host and in front of a path, if there is one. -/
def splitNumber : List Char → Except Fault (Option Nat × List Char)
  | ':' :: rest =>
    let digits := rest.takeWhile fun c => '0' ≤ c && c ≤ '9'
    let after := rest.drop digits.length
    let value := digits.foldl (fun sum c => sum * 10 + (c.toNat - 48)) 0
    if 65535 < value then .error .portNumber
    else if after.isEmpty || (after.head?.any fun c => endsAuthority true c) then
      .ok (if digits.isEmpty then none else some value, after)
    else .error .portNumber
  | rest => .ok (none, rest)

/-- The authority at the front of some characters. -/
def splitAuthority (scheme : String) (chars : List Char) :
    Except Fault (Authority × List Char) := do
  let known := isKnown scheme
  let (user, rest) ← splitUser known chars
  let length := hostLength known false rest
  let name := rest.take length
  let rest := rest.drop length
  if known && name.isEmpty then throw .emptyHost
  let host ← if known then Host.parse name else Host.parseForeign name
  if host = .name "" ∧ (user.isSome ∨ rest.head? = some ':') then throw .emptyHost
  let (number, rest) ← splitNumber rest
  let usual := (knownSchemes.lookup scheme).bind id
  return (⟨user, host, if number = usual then none else number⟩, rest)

def isDrive : List Char → Bool
  | [letter, mark] =>
    (('a' ≤ letter && letter ≤ 'z') || ('A' ≤ letter && letter ≤ 'Z')) &&
      (mark = ':' || mark = '|')
  | _ => false

/-- The authority of a file, which has a host only. -/
def splitFileHost (chars : List Char) : Except Fault (Authority × List Char) :=
  let (name, rest) := splitAt (endsAuthority true) chars
  if isDrive name then .ok (⟨none, .name "", none⟩, chars)
  else if name.isEmpty then .ok (⟨none, .name "", none⟩, rest)
  else do
    let host ← Host.parse name
    return (⟨none, if host = .name "localhost" then .name "" else host, none⟩, rest)

/-- The query and the fragment at the end of a URL. -/
def queryAndFragment (known : Bool) (chars : List Char) : Option String × Option String :=
  let (query, fragment) := splitAt (· == '#') chars
  (match query with
    | '?' :: query => some (escape (queryReserved known) query)
    | _ => none,
  match fragment with
    | '#' :: fragment => some (escape fragmentReserved fragment)
    | _ => none)

def partsOf (known : Bool) : List Char → List (List Char)
  | [] => [[]]
  | c :: rest =>
    if isSlash known c then [] :: partsOf known rest
    else match partsOf known rest with
      | [] => [[c]]
      | first :: others => (c :: first) :: others

def staysHere (name : String) : Bool := [".", "%2e"].contains (name.map Char.toLower)

def goesUp (name : String) : Bool :=
  ["..", ".%2e", "%2e.", "%2e%2e"].contains (name.map Char.toLower)

/-- Follows names from the steps so far, the last one first. A path that ends in dots ends in a slash. -/
def follow (taken : List String) : List String → List String
  | [] => taken.reverse
  | name :: rest =>
    let next :=
      if goesUp name then taken.tail
      else if staysHere name then taken
      else name :: taken
    if rest.isEmpty ∧ (goesUp name ∨ staysHere name) then ("" :: next).reverse
    else follow next rest

/-- The steps of a path that continues other steps. -/
def stepsFrom (known : Bool) (taken : List String) (chars : List Char) : List String :=
  follow taken.reverse ((partsOf known chars).map (escape pathReserved))

/-- A URL from its scheme and authority, and the text of a path that begins at the root. -/
def ofRooted (scheme : String) (authority : Option Authority) (chars : List Char) : Url :=
  let known := isKnown scheme
  let (path, rest) := splitAt (fun c => c == '?' || c == '#') chars
  let (query, fragment) := queryAndFragment known rest
  let steps :=
    match path with
    | [] => if known then [""] else []
    | c :: rest => stepsFrom known [] (if isSlash known c then rest else path)
  ⟨scheme, authority, .steps steps, query, fragment⟩

/-- A URL from its scheme and what follows the colon. -/
def ofScheme (scheme : String) (chars : List Char) : Except Fault Url :=
  if scheme = "file" then
    match chars with
    | first :: second :: rest =>
      if isSlash true first && isSlash true second then do
        let (authority, rest) ← splitFileHost rest
        return ofRooted scheme (some authority) rest
      else .ok (ofRooted scheme (some ⟨none, .name "", none⟩) chars)
    | _ => .ok (ofRooted scheme (some ⟨none, .name "", none⟩) chars)
  else if isKnown scheme then do
    let (authority, rest) ← splitAuthority scheme (chars.dropWhile (isSlash true))
    return ofRooted scheme (some authority) rest
  else
    match chars with
    | '/' :: '/' :: rest => do
      let (authority, rest) ← splitAuthority scheme rest
      return ofRooted scheme (some authority) rest
    | '/' :: _ => .ok (ofRooted scheme none chars)
    | _ =>
      let (path, rest) := splitAt (fun c => c == '?' || c == '#') chars
      let (query, fragment) := queryAndFragment false rest
      .ok ⟨scheme, none, .text (escape "" path), query, fragment⟩

def parse (text : String) : Except Fault Url :=
  match splitScheme? (significant text) with
  | some (scheme, rest) => ofScheme scheme rest
  | none => .error .relativeWithoutBase

/-- Follows a reference without a scheme from a URL whose path has steps. -/
def follows (base : Url) (steps : List String) (chars : List Char) : Except Fault Url :=
  let known := isKnown base.scheme
  let (path, rest) := splitAt (fun c => c == '?' || c == '#') chars
  let (query, fragment) := queryAndFragment known rest
  match path with
  | [] => .ok { base with query := if rest.head? = some '?' then query else base.query, fragment }
  | [c] =>
    if isSlash known c then .ok (ofRooted base.scheme base.authority chars)
    else .ok { base with path := .steps (stepsFrom known steps.dropLast path), query, fragment }
  | first :: second :: _ =>
    if isSlash known first && isSlash known second then ofScheme base.scheme chars
    else if isSlash known first then .ok (ofRooted base.scheme base.authority chars)
    else .ok { base with path := .steps (stepsFrom known steps.dropLast path), query, fragment }

def join (base : Url) (reference : String) : Except Fault Url :=
  let chars := significant reference
  match splitScheme? chars with
  | some (scheme, rest) =>
    match base.path with
    | .steps steps =>
      if isKnown scheme && scheme == base.scheme && (rest.takeWhile (isSlash true)).length < 2 then
        base.follows steps rest
      else ofScheme scheme rest
    | .text _ => ofScheme scheme rest
  | none =>
    match chars, base.path with
    | '#' :: _, _ => .ok { base with fragment := (queryAndFragment false chars).2 }
    | _, .text _ => .error .relativeWithOpaqueBase
    | _, .steps steps => base.follows steps chars

/-- The path and the query, as a request names them. -/
def target (url : Url) : String :=
  (match url.path with
    | .text whole => whole
    | .steps names => String.join (names.map ("/" ++ ·))) ++
  (match url.query with
    | some query => "?" ++ query
    | none => "")

end Url
end DesignCompiler
