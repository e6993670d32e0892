import DesignCompiler.Text.Case
import DesignCompiler.Url.Fault
import DesignCompiler.Url.Punycode

/-!
Names of domains. Letters count without their case, and wide forms as the plain ones; a name that is
accepted has an ASCII form. Of the tables for the plain forms of other characters there is only this much: what
they map besides, ligatures and circled letters for instance, stays as it is written, and of what they refuse
only what the category tells is refused. Names in ASCII do not depend on them.
-/
namespace DesignCompiler.Url.Domain

def isDenied (c : Char) : Bool := c ≤ ' ' || c = '\x7f' || "%#/:<>?@[\\]^|".contains c

def isIgnored (c : Char) : Bool :=
  c = '\u00ad' || c = '\u200b' || c = '\u2060' || c = '\ufeff' || ('\ufe00' ≤ c && c ≤ '\ufe0f')

/-- The plain form of a character, as far as it is known. -/
def plain (c : Char) : List Char :=
  if isIgnored c then []
  else if c = '\u3002' || c = '\uff0e' || c = '\uff61' then ['.']
  else if '\uff01' ≤ c && c ≤ '\uff5e' then Text.lowerChar (Char.ofNat (c.toNat - 0xfee0))
  else if c = '\u1e9e' then ['s', 's']
  else if Text.Category.of c == .spaceSeparator then [' ']
  else Text.lowerChar c

/-- Whether a plain character may be part of a name. -/
def isAllowed (c : Char) : Bool :=
  if c.toNat < 128 then !isDenied c
  else match Text.Category.of c with
    | .control | .format | .privateUse | .surrogate | .unassigned | .spaceSeparator
    | .lineSeparator | .paragraphSeparator => false
    | _ => true

def isWellBegun : List Char → Bool
  | [] => true
  | c :: _ => !(Text.Category.of c).isMark

/-- The mark of labels that are written in ASCII. -/
def asciiMark : List Char := ['x', 'n', '-', '-']

/-- A label that is written in ASCII stands for one that could not be written otherwise. -/
def isProper (label : List Char) : Bool :=
  label.any (128 ≤ ·.toNat) && label.all (fun c => isAllowed c && plain c == [c]) &&
    isWellBegun label

/-- The ASCII form of a label in plain characters. -/
def asciiLabel (label : List Char) : Option (List Char) :=
  if asciiMark.isPrefixOf label then
    match Punycode.decode (label.drop 4) with
    | some meant => if isProper meant then some label else none
    | none => none
  else if !isWellBegun label then none
  else if label.all (·.toNat < 128) then some label
  else some (asciiMark ++ Punycode.encode label)

def ascii (name : List Char) : Except Fault String :=
  let chars := name.flatMap plain
  if chars.all isAllowed then
    match ((String.ofList chars).splitOn ".").mapM fun label => asciiLabel label.toList with
    | some labels => .ok (".".intercalate (labels.map String.ofList))
    | none => .error .internationalName
  else .error .internationalName

end DesignCompiler.Url.Domain
