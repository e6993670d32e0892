import DesignCompiler.Arena

/-!
The document of an arena: one element for each instance, which holds its properties and the elements
of its children. Markup characters in texts are written as entities.
-/
namespace DesignCompiler

variable {α : Type} [Scalar α]

namespace Document

/-- A character as it stands in a document. -/
def escapeChar : Char → List Char
  | '&' => "&amp;".toList
  | '<' => "&lt;".toList
  | '>' => "&gt;".toList
  | '"' => "&quot;".toList
  | '\'' => "&apos;".toList
  | c => [c]

def escape (text : String) : String := String.ofList (text.toList.flatMap escapeChar)

/-- A number with at most four decimal places. -/
def number (x : α) : String :=
  let rounded := Scalar.round (x * 10000) / 10000
  if rounded == 0 then "0" else Scalar.plainText rounded

def pixels (x : α) : String := Decimal.intText (Scalar.toInt (-0x8000000000000000) 0x7fffffffffffffff x)

/-- An element with text in it. -/
def element (tag content : String) : String := "<" ++ tag ++ ">" ++ content ++ "</" ++ tag ++ ">"

/-- An element that has a name. -/
def named (tag key content : String) : String :=
  "<" ++ tag ++ " name=\"" ++ key ++ "\">" ++ content ++ "</" ++ tag ++ ">"

def boolText (value : Bool) : String := if value then "true" else "false"

/-- The element of a property. -/
def property (key : String) : Property α → String
  | .string text => named "string" key (escape text)
  | .bool value => named "bool" key (boolText value)
  | .int value => named "int" key (Decimal.intText value)
  | .float value => named "float" key (number value)
  | .token value => named "token" key (Decimal.natText value)
  | .udim value =>
    named "UDim" key (element "S" (number value.scale) ++ element "O" (pixels value.offset))
  | .udim2 value =>
    named "UDim2" key
      (element "XS" (number value.x.scale) ++ element "XO" (pixels value.x.offset) ++
        element "YS" (number value.y.scale) ++ element "YO" (pixels value.y.offset))
  | .vector2 value =>
    named "Vector2" key (element "X" (number value.x) ++ element "Y" (number value.y))
  | .color3 value =>
    named "Color3" key
      (element "R" (number value.r) ++ element "G" (number value.g) ++
        element "B" (number value.b))
  | .content url => named "Content" key (element "url" (escape url))
  | .font family weight italic =>
    named "Font" key
      (element "Family"
          (element "url" ("rbxasset://fonts/families/" ++ escape family ++ ".json")) ++
        element "Weight" (Decimal.natText weight) ++
        element "Style" (if italic then "Italic" else "Normal"))
  | .colorSequence stops =>
    named "ColorSequence" key (String.join (stops.map fun (time, color) =>
      number time ++ " " ++ number color.r ++ " " ++ number color.g ++ " " ++ number color.b ++
        " 0 "))
  | .numberSequence points =>
    named "NumberSequence" key (String.join (points.map fun (time, value) =>
      number time ++ " " ++ number value ++ " 0 "))

def tabs (depth : Nat) : String := String.ofList (List.replicate depth '\t')

def line (depth : Nat) (content : String) : String := tabs depth ++ content ++ "\n"

/-- The lines of an instance before those of its children. -/
def opening (depth referent : Nat) (inst : Instance α) : String :=
  line depth ("<Item class=\"" ++ inst.className ++ "\" referent=\"RBX" ++
    Decimal.natText referent ++ "\">") ++
  line (depth + 1) "<Properties>" ++
  line (depth + 2) (named "string" "Name" (escape inst.name)) ++
  String.join (inst.properties.map fun (key, value) => line (depth + 2) (property key value)) ++
  line (depth + 1) "</Properties>"

/-- The lines of an instance and of all below it. A child stands behind its parent, so the instances
still to come bound the depth. -/
def item (arena : Arena α) : Nat → Nat → Nat → String
  | 0, _, _ => ""
  | fuel + 1, depth, referent =>
    match arena.get? referent with
    | none => ""
    | some inst =>
      opening depth referent inst ++
        String.join ((arena.children referent).map (item arena fuel (depth + 1))) ++
        line depth "</Item>"

def header : String :=
  "<roblox xmlns:xmime=\"http://www.w3.org/2005/05/xmlmime\" " ++
    "xmlns:xsi=\"http://www.w3.org/2001/XMLSchema-instance\" " ++
    "xsi:noNamespaceSchemaLocation=\"http://www.roblox.com/roblox.xsd\" version=\"4\">\n" ++
    line 1 "<External>null</External>" ++ line 1 "<External>nil</External>"

end Document

/-- The document of an arena. -/
def Arena.document (arena : Arena α) : String :=
  Document.header ++ String.join (arena.roots.map (Document.item arena arena.size 1)) ++
    "</roblox>\n"

end DesignCompiler
