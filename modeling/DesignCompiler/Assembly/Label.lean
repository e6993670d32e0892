import DesignCompiler.Assembly.Decoration
import DesignCompiler.Text.Case

/-!
Labels: the font, the letter case, the markup and the paint of a text node.
-/
namespace DesignCompiler.Label

variable {α : Type} [Scalar α]

/-- Families built into the engine, by the family of the design in lower case without separators. -/
def builtinFonts : List (String × String) :=
  [("roboto", "Roboto"), ("robotomono", "RobotoMono"), ("robotocondensed", "RobotoCondensed"),
    ("montserrat", "Montserrat"), ("sourcesanspro", "SourceSansPro"),
    ("sourcesans3", "SourceSansPro"), ("gotham", "GothamSSm"), ("gothamssm", "GothamSSm"),
    ("arial", "Arimo"), ("arimo", "Arimo"), ("helvetica", "Arimo"), ("ubuntu", "Ubuntu"),
    ("oswald", "Oswald"), ("nunito", "Nunito"), ("merriweather", "Merriweather"),
    ("bangers", "Bangers"), ("fredokaone", "FredokaOne"), ("fredoka", "FredokaOne"),
    ("luckiestguy", "LuckiestGuy"), ("permanentmarker", "PermanentMarker"),
    ("pressstart2p", "PressStart2P"), ("creepster", "Creepster"), ("josefinsans", "JosefinSans"),
    ("titilliumweb", "TitilliumWeb"), ("sarpanch", "Sarpanch"), ("specialelite", "SpecialElite"),
    ("kalam", "Kalam"), ("indieflower", "IndieFlower"), ("patrickhand", "PatrickHand"),
    ("amaticsc", "AmaticSC"), ("denkone", "DenkOne"), ("michroma", "Michroma"),
    ("grenzegotisch", "GrenzeGotisch"), ("jura", "Jura"), ("builder", "BuilderSans"),
    ("buildersans", "BuilderSans")]

/-- A family in lower case without blanks, hyphens and underscores. -/
def normalize (family : String) : String :=
  String.ofList ((family.toList.filter fun c => !Text.isBlank c && c != '-' && c != '_').flatMap
    Text.lowerChar)

/-- The engine's family for a family of the design: as configured, or built in. -/
def knownFont? (config : TextConfig) (family : String) : Option String :=
  match config.fonts.lookup family with
  | some mapped => some mapped
  | none => builtinFonts.lookup (normalize family)

/-- The engine's family. A family without one gets the default font and, the first time, a warning;
a blank one just gets the default font. -/
def mapFont (config : TextConfig) (family : String) (log : Diagnostics) : String × Diagnostics :=
  if (Text.trim family).isEmpty then (config.defaultFont, log)
  else match knownFont? config family with
    | some mapped => (mapped, log)
    | none =>
      (config.defaultFont, log.warnOnce .unmappedFont family
        ("font family '" ++ family ++ "' has no engine equivalent; using " ++
          config.defaultFont))

/-- Weights of the engine are hundreds from 100 to 900. -/
def fontWeight (weight : α) : Nat := (Scalar.toInt 1 9 (weight / 100)).toNat * 100

/-- The text with the first letter of each word in upper case. -/
def titleFrom (wordStart : Bool) : List Char → List Char
  | [] => []
  | c :: rest =>
    (if wordStart && Text.isAlphabetic c then Text.upperChar c else [c]) ++
      titleFrom (Text.isBlank c) rest

def transformCase (text : String) : TextCase → String
  | .asWritten => text
  | .upper | .smallCaps | .smallCapsForced => Text.upper text
  | .lower => Text.lower text
  | .title => String.ofList (titleFrom true text.toList)

def escapeRichChar : Char → List Char
  | '&' => "&amp;".toList
  | '<' => "&lt;".toList
  | '>' => "&gt;".toList
  | c => [c]

def escapeRich (text : String) : String := String.ofList (text.toList.flatMap escapeRichChar)

def decorated (decoration : TextDecoration) (text : String) : String :=
  let tag := if decoration = .underline then "u" else "s"
  "<" ++ tag ++ ">" ++ escapeRich text ++ "</" ++ tag ++ ">"

def isRich (config : TextConfig) (style : TextStyle α) : Bool :=
  style.decoration != .none && config.mode == .rich

def content (config : TextConfig) (text : TextContent α) : String :=
  let shown := transformCase text.characters text.style.textCase
  if isRich config text.style then decorated text.style.decoration shown else shown

/-- Warnings about the style of a text that come before its font. -/
def styleWarnings (config : TextConfig) (id : String) (style : TextStyle α) : List Warning :=
  let about := Warning.about .unsupportedTextStyle id
  (if style.textCase = .smallCaps ∨ style.textCase = .smallCapsForced then
    [about "small caps approximated as upper case"] else []) ++
  (if style.decoration ≠ .none ∧ config.mode = .plain then
    [about ("text decoration " ++ style.decoration.label ++ " dropped in plain text mode")]
    else []) ++
  (if style.letterSpacing != 0 then
    [about ("letter spacing " ++ Scalar.plainText style.letterSpacing ++ " is not supported")]
    else [])

def alignHorizontal : TextAlignHorizontal → Nat
  | .left => 0
  | .right => 1
  | .center => 2
  | .justified => 0

def alignVertical : TextAlignVertical → Nat
  | .top => 0
  | .center => 1
  | .bottom => 2

/-- Lines are as high as declared, in units of the font size, where both are above zero. -/
def lineHeight (style : TextStyle α) : List (String × Property α) :=
  match style.lineHeight with
  | some height =>
    if 0 < style.fontSize ∧ 0 < height then
      [("LineHeight", .float (height / style.fontSize))]
    else []
  | none => []

/-- The first visible gradient among the fills. -/
def gradientFill? (layer : Layer α) : Option (GradientShape × GradientPaint α) :=
  layer.visibleFills.findSome? fun
    | .gradient shape paint => some (shape, paint)
    | _ => none

/-- White under a gradient, else the first solid fill, else black. -/
def color (layer : Layer α) : Color α :=
  match gradientFill? layer with
  | some _ => Color.white
  | none => layer.firstSolid.getD Color.black

/-- The properties and decorations of a label. -/
def emit (config : TextConfig) (layer : Layer α) (text : TextContent α) (log : Diagnostics) :
    List (String × Property α) × List (Item α) × Diagnostics :=
  let style := text.style
  let log := log.warnAll (styleWarnings config layer.id style)
  let (family, log) := mapFont config style.fontFamily log
  let log :=
    if style.alignHorizontal = .justified then
      log.warn (.about .unsupportedTextStyle layer.id
        "justified text approximated as left aligned")
    else log
  let color := color layer
  let seeThrough := Decoration.transparency color.a layer.opacity
  let (gradient, warnings) :=
    match gradientFill? layer with
    | some (shape, paint) => Decoration.gradient layer.id shape paint
    | none => ([], [])
  let stroke := (layer.annotations.inferredStroke.map Decoration.textStroke).toList
  ([("Text", .string (content config text)), ("RichText", .bool (isRich config style)),
      ("BackgroundTransparency", .float 1), ("TextSize", .float style.fontSize),
      ("TextWrapped", .bool true), ("TextScaled", .bool false),
      ("FontFace", .font family (fontWeight style.fontWeight) false),
      ("TextXAlignment", .token (alignHorizontal style.alignHorizontal)),
      ("TextYAlignment", .token (alignVertical style.alignVertical))] ++
    lineHeight style ++ [("TextColor3", .color3 color)] ++
    (if 0 < seeThrough then [("TextTransparency", .float seeThrough)] else []),
    gradient ++ stroke, log.warnAll warnings)

end DesignCompiler.Label
