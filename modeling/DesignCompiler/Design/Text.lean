import DesignCompiler.Json.Record
import DesignCompiler.Scalar

/-!
The characters of a text node and their style.
-/
namespace DesignCompiler

variable {α : Type} [Scalar α]

inductive TextAlignHorizontal where
  | left
  | center
  | right
  | justified
deriving DecidableEq, Repr, Inhabited

def TextAlignHorizontal.names : List (String × TextAlignHorizontal) :=
  [("LEFT", .left), ("CENTER", .center), ("RIGHT", .right), ("JUSTIFIED", .justified)]

inductive TextAlignVertical where
  | top
  | center
  | bottom
deriving DecidableEq, Repr, Inhabited

def TextAlignVertical.names : List (String × TextAlignVertical) :=
  [("TOP", .top), ("CENTER", .center), ("BOTTOM", .bottom)]

inductive TextCase where
  | asWritten
  | upper
  | lower
  | title
  | smallCaps
  | smallCapsForced
deriving DecidableEq, Repr, Inhabited

def TextCase.names : List (String × TextCase) :=
  [("ORIGINAL", .asWritten), ("UPPER", .upper), ("LOWER", .lower), ("TITLE", .title),
    ("SMALL_CAPS", .smallCaps), ("SMALL_CAPS_FORCED", .smallCapsForced)]

inductive TextDecoration where
  | none
  | underline
  | strikethrough
deriving DecidableEq, Repr, Inhabited

namespace TextDecoration

def names : List (String × TextDecoration) :=
  [("NONE", .none), ("UNDERLINE", .underline), ("STRIKETHROUGH", .strikethrough)]

/-- The decoration as warnings spell it. -/
def label : TextDecoration → String
  | none => "None"
  | underline => "Underline"
  | strikethrough => "Strikethrough"

end TextDecoration

structure TextStyle (α : Type) where
  fontFamily : String
  fontWeight : α
  fontSize : α
  alignHorizontal : TextAlignHorizontal
  alignVertical : TextAlignVertical
  lineHeight : Option α
  letterSpacing : α
  textCase : TextCase
  decoration : TextDecoration

namespace TextStyle

def keys : List String :=
  ["fontFamily", "fontWeight", "fontSize", "textAlignHorizontal", "textAlignVertical",
    "lineHeightPx", "letterSpacing", "textCase", "textDecoration"]

/-- Plain text of size 14 at the top left. -/
def default : TextStyle α where
  fontFamily := ""
  fontWeight := 400
  fontSize := 14
  alignHorizontal := .left
  alignVertical := .top
  lineHeight := none
  letterSpacing := 0
  textCase := .asWritten
  decoration := .none

def ofJson? (value : Json) : Option (TextStyle α) := do
  let fields ← Json.record? keys value
  let plain : TextStyle α := default
  return {
    fontFamily := ← fields.orElse "fontFamily" plain.fontFamily Json.text?
    fontWeight := ← fields.orElse "fontWeight" plain.fontWeight Scalar.ofJson?
    fontSize := ← fields.orElse "fontSize" plain.fontSize Scalar.ofJson?
    alignHorizontal := ← fields.orElse "textAlignHorizontal" plain.alignHorizontal
      (Json.oneOf? TextAlignHorizontal.names)
    alignVertical := ← fields.orElse "textAlignVertical" plain.alignVertical
      (Json.oneOf? TextAlignVertical.names)
    lineHeight := ← fields.orElse "lineHeightPx" none (Json.optional? Scalar.ofJson?)
    letterSpacing := ← fields.orElse "letterSpacing" plain.letterSpacing Scalar.ofJson?
    textCase := ← fields.orElse "textCase" plain.textCase (Json.oneOf? TextCase.names)
    decoration := ← fields.orElse "textDecoration" plain.decoration
      (Json.oneOf? TextDecoration.names) }

def json (style : TextStyle α) : Json :=
  .object [("fontFamily", .string style.fontFamily),
    ("fontWeight", Scalar.json style.fontWeight),
    ("fontSize", Scalar.json style.fontSize),
    ("textAlignHorizontal",
      .string (Json.nameIn TextAlignHorizontal.names style.alignHorizontal)),
    ("textAlignVertical", .string (Json.nameIn TextAlignVertical.names style.alignVertical)),
    ("lineHeightPx", (style.lineHeight.map Scalar.json).getD .null),
    ("letterSpacing", Scalar.json style.letterSpacing),
    ("textCase", .string (Json.nameIn TextCase.names style.textCase)),
    ("textDecoration", .string (Json.nameIn TextDecoration.names style.decoration))]

end TextStyle

/-- What a text node shows. -/
structure TextContent (α : Type) where
  characters : String
  style : TextStyle α

namespace TextContent

/-- The fields of a text as members of a larger object. -/
def members (text : TextContent α) : List (String × Json) :=
  [("characters", .string text.characters), ("style", text.style.json)]

def ofMembers? (members : List (String × Json)) : Option (TextContent α) := do
  let fields ← Json.knownMembers? ["characters", "style"] members
  return {
    characters := ← fields.required "characters" Json.text?
    style := ← fields.orElse "style" TextStyle.default TextStyle.ofJson? }

end TextContent
end DesignCompiler
