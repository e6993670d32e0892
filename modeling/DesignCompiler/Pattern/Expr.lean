import DesignCompiler.Text.Case
import DesignCompiler.Text.Script

/-!
Patterns of text and whether a text holds one. A pattern is matched by its residuals: what is left of
it to match after a character, one for each way of using that character. How large a pattern gets when it is
compiled is estimated.
-/
namespace DesignCompiler.Pattern

/-- A set of characters. -/
inductive CharClass where
  | none
  | any
  | range (low high : Nat)
  | category (members : List Text.Category)
  | ranges (members : List (Nat × Nat))
  | word
  | digit
  | blank
  | alphabetic
  | lower
  | upper
  | union (a b : CharClass)
  | both (a b : CharClass)
  | except (a b : CharClass)
  | complement (a : CharClass)
  /-- The characters that differ from a member at most by case. -/
  | folded (a : CharClass)
  /-- The same, for the letters of ASCII alone. -/
  | foldedAscii (a : CharClass)
deriving DecidableEq, Repr

namespace CharClass

def asciiVariants (code : Nat) : List Nat :=
  if 65 ≤ code ∧ code ≤ 90 then [code, code + 32]
  else if 97 ≤ code ∧ code ≤ 122 then [code, code - 32]
  else [code]

def holds (code : Nat) : CharClass → Bool
  | none => false
  | any => true
  | range low high => low ≤ code && code ≤ high
  | category members => members.contains (Text.Category.of (Char.ofNat code))
  | ranges members => Text.inRanges members code
  | word => Text.isWord (Char.ofNat code)
  | digit => Text.isDecimalDigit (Char.ofNat code)
  | blank => Text.isBlank (Char.ofNat code)
  | alphabetic => Text.isAlphabetic (Char.ofNat code)
  | lower => Text.isLower (Char.ofNat code)
  | upper => Text.isUpper (Char.ofNat code)
  | union a b => a.holds code || b.holds code
  | both a b => a.holds code && b.holds code
  | except a b => a.holds code && !b.holds code
  | complement a => !a.holds code
  | folded a => (code :: Text.caseVariants code).any (holds · a)
  | foldedAscii a => (asciiVariants code).any (holds · a)

def ofList (members : List CharClass) : CharClass := members.foldr union none

/-- About how many bytes a set takes in a compiled pattern. -/
def weight : CharClass → Nat
  | none | any | range .. => 60
  | ranges members => if members.all (·.2 < 128) then 60 else 60 * members.length
  | category members => 6000 * members.length
  | word | alphabetic => 45000
  | lower | upper => 25000
  | digit => 4000
  | blank => 700
  | union a b | both a b | except a b => a.weight + b.weight
  | complement a | folded a | foldedAscii a => a.weight + 60

end CharClass

/-- A condition on a place between two characters. -/
inductive Place where
  | textStart
  | textEnd
  | lineStart (crlf : Bool)
  | lineEnd (crlf : Bool)
  | wordEdge (ascii : Bool)
  | noWordEdge (ascii : Bool)
  | wordStart (ascii : Bool)
  | wordEnd (ascii : Bool)
  | wordStartHalf (ascii : Bool)
  | wordEndHalf (ascii : Bool)
deriving DecidableEq, Repr

namespace Place

def isWordAt (ascii : Bool) : Option Char → Bool
  | some c => if ascii then c.toNat < 128 && Text.isWord c else Text.isWord c
  | none => false

/-- Whether the condition holds between the two characters. -/
def holds (before after : Option Char) : Place → Bool
  | textStart => before.isNone
  | textEnd => after.isNone
  | lineStart crlf =>
    before.isNone || before == some '\n' ||
      (crlf && before == some '\r' && after != some '\n')
  | lineEnd crlf =>
    after.isNone || (after == some '\n' && !(crlf && before == some '\r')) ||
      (crlf && after == some '\r')
  | wordEdge ascii => isWordAt ascii before != isWordAt ascii after
  | noWordEdge ascii => isWordAt ascii before == isWordAt ascii after
  | wordStart ascii => !isWordAt ascii before && isWordAt ascii after
  | wordEnd ascii => isWordAt ascii before && !isWordAt ascii after
  | wordStartHalf ascii => !isWordAt ascii before
  | wordEndHalf ascii => !isWordAt ascii after

end Place

inductive Expr where
  | empty
  | place (condition : Place)
  | char (members : CharClass)
  | seq (first second : Expr)
  | alt (left right : Expr)
  /-- At least so many times, and at most so many if there is a bound. -/
  | repeated (body : Expr) (least : Nat) (most : Option Nat)
deriving DecidableEq, Repr

namespace Expr

/-- Whether the empty text between two characters matches. -/
def matchesEmpty (before after : Option Char) : Expr → Bool
  | empty => true
  | place condition => condition.holds before after
  | char _ => false
  | seq first second => first.matchesEmpty before after && second.matchesEmpty before after
  | alt left right => left.matchesEmpty before after || right.matchesEmpty before after
  | repeated body least _ => least == 0 || body.matchesEmpty before after

def andThen (first second : Expr) : Expr :=
  match first, second with
  | empty, second => second
  | first, empty => first
  | first, second => seq first second

/-- What may be left to match after a character that stands between `before` and what follows. -/
def residuals (before : Option Char) (c : Char) : Expr → List Expr
  | empty => []
  | place _ => []
  | char members => if members.holds c.toNat then [empty] else []
  | seq first second =>
    (first.residuals before c).map (·.andThen second) ++
      if first.matchesEmpty before (some c) then second.residuals before c else []
  | alt left right => left.residuals before c ++ right.residuals before c
  | repeated body least most =>
    if most = some 0 then []
    else
      let least := if body.matchesEmpty before (some c) then 0 else least - 1
      let rest := repeated body least (most.map (· - 1))
      (body.residuals before c).map (·.andThen rest)

/-- Whether one of the patterns in hand, or a new start of the whole, matches up to some place. -/
def foundFrom (whole : Expr) (current : List Expr) (before : Option Char) : List Char → Bool
  | [] => (whole :: current).any (·.matchesEmpty before none)
  | c :: rest =>
    (whole :: current).any (·.matchesEmpty before (some c)) ||
      foundFrom whole ((whole :: current).flatMap (·.residuals before c)).eraseDups (some c) rest

/-- Whether a text holds the pattern anywhere. -/
def isIn (whole : Expr) (text : String) : Bool := foundFrom whole [] none text.toList

def takesNothing : Expr → Bool
  | empty => true
  | place _ => true
  | char _ => false
  | seq first second => first.takesNothing && second.takesNothing
  | alt left right => left.takesNothing && right.takesNothing
  | repeated body _ most => most == some 0 || body.takesNothing

theorem residuals_of_takesNothing {expr : Expr} (nothing : expr.takesNothing = true)
    (before : Option Char) (c : Char) : expr.residuals before c = [] := by
  induction expr with
  | empty => rfl
  | place _ => rfl
  | char _ => cases nothing
  | seq first second ih ih' =>
    rw [takesNothing, Bool.and_eq_true] at nothing
    simp [residuals, ih nothing.1, ih' nothing.2]
  | alt left right ih ih' =>
    rw [takesNothing, Bool.and_eq_true] at nothing
    simp [residuals, ih nothing.1, ih' nothing.2]
  | repeated body least most ih =>
    rw [takesNothing, Bool.or_eq_true, beq_iff_eq] at nothing
    rcases nothing with never | nothing
    · rw [residuals, if_pos never]
    · simp [residuals, ih nothing]

/-- About how many bytes a compiled pattern takes. A pattern that takes no character has no use for a second
time, and is compiled for one. -/
def weight : Expr → Nat
  | empty => 30
  | place _ => 30
  | char members => members.weight
  | seq first second => first.weight + second.weight
  | alt left right => left.weight + right.weight + 40
  | repeated body least most =>
    if most = some 0 then 30
    else if body.takesNothing then body.weight + 40
    else body.weight * max 1 (most.getD (least + 1)) + 40

end Expr
end DesignCompiler.Pattern
