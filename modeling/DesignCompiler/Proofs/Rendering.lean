import DesignCompiler.Proofs.Listing

/-!
Properties as markup. Numbers have no character that is written as an entity; the texts of a design
are the only ones that change when they are written, and entities are read as what they stand for.
-/
namespace DesignCompiler

open Markup (text printAll)

namespace Document

/-- A text that is written as it is. -/
def Unmarked (s : String) : Prop := ∀ c ∈ s.toList, escapeChar c = [c]

instance (s : String) : Decidable (Unmarked s) := List.decidableBAll _ _

theorem escape_of_unmarked {s : String} (unmarked : Unmarked s) : escape s = s := by
  have same : s.toList.flatMap escapeChar = s.toList := by
    rw [Unmarked] at unmarked
    generalize s.toList = chars at unmarked
    induction chars with
    | nil => rfl
    | cons c rest ih =>
      obtain ⟨first, others⟩ := List.forall_mem_cons.mp unmarked
      rw [List.flatMap_cons, first, ih others]
      rfl
  rw [escape, same, String.ofList_toList]

theorem quotable_of_unmarked {s : String} (unmarked : Unmarked s) : Markup.Quotable s :=
  ⟨fun quote => absurd (unmarked _ quote) (by decide),
    fun mark => absurd (unmarked _ mark) (by decide)⟩

theorem unmarked_append {s t : String} (first : Unmarked s) (second : Unmarked t) :
    Unmarked (s ++ t) := by
  intro c member
  rw [String.toList_append] at member
  exact (List.mem_append.mp member).elim (first c) (second c)

theorem unmarked_join {texts : List String} (unmarked : ∀ s ∈ texts, Unmarked s) :
    Unmarked (String.join texts) := by
  intro c member
  rw [String.toList_join] at member
  obtain ⟨s, present, member⟩ := List.mem_flatMap.mp member
  exact unmarked s present c member

theorem unmarked_numerals {s : String} (numerals : Decimal.Numerals s.toList) : Unmarked s := by
  intro c member
  have numeral := numerals c member
  unfold escapeChar
  split
  case h_6 => rfl
  all_goals exact absurd numeral (by decide)

theorem unmarked_natText (n : Nat) : Unmarked (Decimal.natText n) :=
  unmarked_numerals (Decimal.numerals_natText n)

theorem unmarked_intText (value : Int) : Unmarked (Decimal.intText value) :=
  unmarked_numerals (Json.Number.numerals_text (.integer value))

theorem unmarked_plainText (x : Float) : Unmarked (Scalar.plainText x) := by
  change Unmarked (Binary64.plainText x)
  rw [Binary64.plainText]
  split
  · decide
  · split
    · decide
    · decide
  · simp only [Decimal.plainText]
    exact unmarked_append (unmarked_numerals (Decimal.numerals_sign _))
      (unmarked_numerals (Decimal.numerals_positional _))

theorem unmarked_number (x : Float) : Unmarked (number x) := by
  rw [number]
  split
  · decide
  · exact unmarked_plainText _

theorem unmarked_pixels (x : Float) : Unmarked (pixels x) := unmarked_intText _

end Document

namespace Markup

/-- An element with nothing but text in it. -/
def part (tag content : String) : Markup := .element tag [] (text content)

theorem text_append (s t : String) : text (s ++ t) = text s ++ text t := by
  rw [text, String.toList_append, List.map_append]
  rfl

/-- The text is the markup as it is written. -/
def Prints (s : String) (markup : List Markup) : Prop := s.toList = printAll markup

theorem prints_escape (s : String) : Prints (Document.escape s) (text s) := (printAll_text s).symm

theorem prints_unmarked {s : String} (unmarked : Document.Unmarked s) : Prints s (text s) := by
  rw [Prints, printAll_text, Document.escape_of_unmarked unmarked]

theorem Prints.append {s t : String} {front back : List Markup} (first : Prints s front)
    (second : Prints t back) : Prints (s ++ t) (front ++ back) := by
  rw [Prints, String.toList_append, first, second, printAll_append]

theorem prints_join {γ : Type} {items : List γ} {write : γ → String} {markup : γ → List Markup}
    (each : ∀ item ∈ items, Prints (write item) (markup item)) :
    Prints (String.join (items.map write)) (items.flatMap markup) := by
  rw [Prints, String.toList_join]
  induction items with
  | nil => rfl
  | cons first rest ih =>
    obtain ⟨own, others⟩ := List.forall_mem_cons.mp each
    rw [List.map_cons, List.flatMap_cons, List.flatMap_cons, own, ih others, printAll_append]

/-- An element is written between the texts that begin and end it. -/
theorem Prints.between {content : String} {inside : List Markup} (prints : Prints content inside)
    {first last tag : String} {pairs : List (String × String)}
    (begins : first.toList = '<' :: printHead tag pairs) (ends : last.toList = printEnd tag) :
    Prints (first ++ content ++ last) [.element tag pairs inside] := by
  rw [Prints] at prints
  simp [Prints, printAll, print, begins, prints, ends]

theorem toList_end (tag : String) : ("</" ++ tag ++ ">").toList = printEnd tag := by
  simp [printEnd]

theorem Prints.element {content : String} {inside : List Markup} (tag : String)
    (prints : Prints content inside) :
    Prints (Document.element tag content) [.element tag [] inside] := by
  have begins : ("<" ++ tag ++ ">").toList = '<' :: printHead tag [] := by simp [printHead]
  have printed := prints.between begins (toList_end tag)
  simpa only [Document.element, String.append_assoc] using printed

theorem Prints.named {content : String} {inside : List Markup} (tag key : String)
    (prints : Prints content inside) :
    Prints (Document.named tag key content) [.element tag [("name", key)] inside] := by
  have begins : ("<" ++ tag ++ " name=\"" ++ key ++ "\">").toList =
      '<' :: printHead tag [("name", key)] := by
    simp [printHead, printPair]
  have printed := prints.between begins (toList_end tag)
  simpa only [Document.named, String.append_assoc] using printed

theorem Prints.part {content : String} (tag : String) (unmarked : Document.Unmarked content) :
    Prints (Document.element tag content) [.part tag content] :=
  (prints_unmarked unmarked).element tag

end Markup

namespace Property

open Markup (part Prints)

variable {α : Type} [Scalar α]

/-- The tag of a value. -/
def kind : Property α → String
  | .string _ => "string"
  | .bool _ => "bool"
  | .int _ => "int"
  | .float _ => "float"
  | .token _ => "token"
  | .udim _ => "UDim"
  | .udim2 _ => "UDim2"
  | .vector2 _ => "Vector2"
  | .color3 _ => "Color3"
  | .content _ => "Content"
  | .font .. => "Font"
  | .colorSequence _ => "ColorSequence"
  | .numberSequence _ => "NumberSequence"

/-- What a value shows: texts as they are, and everything else in digits and names. -/
def shown : Property α → List Markup
  | .string s => text s
  | .bool value => text (Document.boolText value)
  | .int value => text (Decimal.intText value)
  | .float value => text (Document.number value)
  | .token value => text (Decimal.natText value)
  | .udim value => [part "S" (Document.number value.scale), part "O" (Document.pixels value.offset)]
  | .udim2 value =>
    [part "XS" (Document.number value.x.scale), part "XO" (Document.pixels value.x.offset),
      part "YS" (Document.number value.y.scale), part "YO" (Document.pixels value.y.offset)]
  | .vector2 value => [part "X" (Document.number value.x), part "Y" (Document.number value.y)]
  | .color3 value =>
    [part "R" (Document.number value.r), part "G" (Document.number value.g),
      part "B" (Document.number value.b)]
  | .content url => [part "url" url]
  | .font family weight italic =>
    [.element "Family" [] [part "url" ("rbxasset://fonts/families/" ++ family ++ ".json")],
      part "Weight" (Decimal.natText weight), part "Style" (if italic then "Italic" else "Normal")]
  | .colorSequence stops =>
    text (String.join (stops.map fun (time, color) =>
      Document.number time ++ " " ++ Document.number color.r ++ " " ++ Document.number color.g ++ " " ++
        Document.number color.b ++ " 0 "))
  | .numberSequence points =>
    text (String.join (points.map fun (time, value) =>
      Document.number time ++ " " ++ Document.number value ++ " 0 "))

/-- A property as it is read. -/
def field (key : String) (value : Property α) : Field := ⟨value.kind, key, value.shown⟩

open Document in
/-- The element of a property is written as it is read. -/
theorem prints_field (key : String) (value : Property Float) :
    Prints (Document.property key value) [(value.field key).markup] := by
  have listed {γ : Type} {write : γ → String} (items : List γ)
      (each : ∀ item, Unmarked (write item)) : Unmarked (String.join (items.map write)) :=
    unmarked_join (List.forall_mem_map.mpr fun item _ => each item)
  have spaced {s : String} (unmarked : Unmarked s) (x : Float) : Unmarked (s ++ " " ++ number x) :=
    unmarked_append (unmarked_append unmarked (by decide)) (unmarked_number x)
  cases value with
  | string s => exact (Markup.prints_escape s).named "string" key
  | bool value => exact (Markup.prints_unmarked (by cases value <;> decide)).named "bool" key
  | int value => exact (Markup.prints_unmarked (unmarked_intText value)).named "int" key
  | float value => exact (Markup.prints_unmarked (unmarked_number value)).named "float" key
  | token value => exact (Markup.prints_unmarked (unmarked_natText value)).named "token" key
  | udim value =>
    exact ((Prints.part "S" (unmarked_number _)).append (Prints.part "O" (unmarked_pixels _))).named
      "UDim" key
  | udim2 value =>
    have width := (Prints.part "XS" (unmarked_number value.x.scale)).append
      (Prints.part "XO" (unmarked_pixels value.x.offset))
    have height := (width.append (Prints.part "YS" (unmarked_number value.y.scale))).append
      (Prints.part "YO" (unmarked_pixels value.y.offset))
    exact height.named "UDim2" key
  | vector2 value =>
    exact ((Prints.part "X" (unmarked_number _)).append (Prints.part "Y" (unmarked_number _))).named
      "Vector2" key
  | color3 value =>
    have channels := ((Prints.part "R" (unmarked_number value.r)).append
      (Prints.part "G" (unmarked_number value.g))).append (Prints.part "B" (unmarked_number value.b))
    exact channels.named "Color3" key
  | content url => exact ((Markup.prints_escape url).element "url").named "Content" key
  | font family weight italic =>
    have path : Prints ("rbxasset://fonts/families/" ++ escape family ++ ".json")
        (text ("rbxasset://fonts/families/" ++ family ++ ".json")) := by
      rw [Markup.text_append, Markup.text_append]
      exact ((Markup.prints_unmarked (by decide)).append (Markup.prints_escape family)).append
        (Markup.prints_unmarked (by decide))
    have style : Prints (element "Style" (if italic then "Italic" else "Normal")) _ :=
      Prints.part "Style" (by cases italic <;> decide)
    exact ((((path.element "url").element "Family").append
      (Prints.part "Weight" (unmarked_natText weight))).append style).named "Font" key
  | colorSequence stops =>
    refine (Markup.prints_unmarked (listed stops fun stop => ?_)).named "ColorSequence" key
    have color := spaced (spaced (spaced (unmarked_number stop.1) stop.2.r) stop.2.g) stop.2.b
    exact unmarked_append color (by decide)
  | numberSequence points =>
    refine (Markup.prints_unmarked (listed points fun point => ?_)).named "NumberSequence" key
    exact unmarked_append (spaced (unmarked_number point.1) point.2) (by decide)

/-- What a property shows is sound, whatever the texts in it are. -/
theorem sound_shown (value : Property α) : ∀ markup ∈ value.shown, markup.Sound := by
  have sound {tag : String} (ends : Markup.IsTag tag) (content : String) : (part tag content).Sound :=
    .element ends (by simp) (by simp) (Markup.sound_text content)
  cases value with
  | string | bool | int | float | token | colorSequence | numberSequence => exact Markup.sound_text _
  | udim | vector2 =>
    simp only [shown, List.forall_mem_cons]
    exact ⟨sound (by decide) _, sound (by decide) _, by simp⟩
  | color3 =>
    simp only [shown, List.forall_mem_cons]
    exact ⟨sound (by decide) _, sound (by decide) _, sound (by decide) _, by simp⟩
  | udim2 =>
    simp only [shown, List.forall_mem_cons]
    exact ⟨sound (by decide) _, sound (by decide) _, sound (by decide) _, sound (by decide) _,
      by simp⟩
  | content => exact List.forall_mem_singleton.mpr (sound (by decide) _)
  | font =>
    simp only [shown, List.forall_mem_cons]
    refine ⟨.element (by decide) (by simp) (by simp) ?_, sound (by decide) _,
      sound (by decide) _, by simp⟩
    exact List.forall_mem_singleton.mpr (sound (by decide) _)

omit [Scalar α] in
theorem isTag_kind (value : Property α) : Markup.IsTag value.kind := by
  unfold kind
  split <;> decide

theorem sound_field {key : String} (quotable : Markup.Quotable key) (value : Property α) :
    (value.field key).Sound :=
  ⟨value.isTag_kind, quotable, value.sound_shown⟩

end Property

namespace Listing

open Markup (Prints)

theorem prints_tabs (depth : Nat) : Prints (Document.tabs depth) (text (Document.tabs depth)) := by
  refine Markup.prints_unmarked fun c member => ?_
  rw [Document.tabs, String.toList_ofList] at member
  obtain rfl := List.eq_of_mem_replicate member
  rfl

theorem unmarked_newline : Document.Unmarked "\n" := by decide

theorem prints_line {content : String} {markup : Markup} (depth : Nat)
    (prints : Prints content [markup]) :
    Prints (Document.line depth content) (line depth markup) := by
  have printed := ((prints_tabs depth).append prints).append (Markup.prints_unmarked unmarked_newline)
  rwa [List.append_assoc, List.singleton_append] at printed

/-- The referent of the instance at a position. -/
def referentOf (position : Nat) : String := "RBX" ++ Decimal.natText position

/-- The listing of an instance, over those of its children. -/
def ofInstance {α : Type} [Scalar α] (position : Nat) (inst : Instance α)
    (children : List Listing) : Listing :=
  .item inst.className (referentOf position) inst.name
    (inst.properties.map fun property => property.2.field property.1) children

theorem prints_properties (depth : Nat) (inst : Instance Float) :
    Prints (Document.line (depth + 2) (Document.named "string" "Name" (Document.escape inst.name)) ++
        String.join (inst.properties.map fun (key, value) =>
          Document.line (depth + 2) (Document.property key value)))
      ((Field.naming inst.name ::
          inst.properties.map fun property => property.2.field property.1).flatMap
        fun field => line (depth + 2) field.markup) := by
  rw [List.flatMap_cons, List.flatMap_map]
  refine (prints_line (depth + 2) ((Markup.prints_escape inst.name).named "string" "Name")).append ?_
  exact Markup.prints_join fun property _ => prints_line (depth + 2) (property.2.prints_field property.1)

theorem prints_item {below : String} {depth : Nat} {children : List Listing}
    (prints : Prints below (allMarkup (depth + 1) children)) (position : Nat) (inst : Instance Float) :
    Prints (Document.opening depth position inst ++ below ++ Document.line depth "</Item>")
      ((ofInstance position inst children).markup depth) := by
  have properties := (Markup.prints_unmarked unmarked_newline).append
    ((prints_properties depth inst).append (prints_tabs (depth + 1)))
  have propertiesBegin : "<Properties>".toList = '<' :: Markup.printHead "Properties" [] := rfl
  have propertiesEnd : "</Properties>".toList = Markup.printEnd "Properties" := rfl
  have held := prints_line (depth + 1) (properties.between propertiesBegin propertiesEnd)
  have inside := (Markup.prints_unmarked unmarked_newline).append
    (held.append (prints.append (prints_tabs depth)))
  have begins : ("<Item class=\"" ++ inst.className ++ "\" referent=\"RBX" ++
      Decimal.natText position ++ "\">").toList = '<' :: Markup.printHead "Item"
        [("class", inst.className), ("referent", referentOf position)] := by
    simp [Markup.printHead, Markup.printPair, referentOf]
  have ends : "</Item>".toList = Markup.printEnd "Item" := rfl
  have printed := prints_line depth (inside.between begins ends)
  rw [ofInstance, markup, Listing.properties]
  simpa only [Document.opening, Document.line, String.append_assoc] using printed

/-- The beginning of the root element. -/
def rootBegin : String :=
  "<roblox xmlns:xmime=\"http://www.w3.org/2005/05/xmlmime\" " ++
    "xmlns:xsi=\"http://www.w3.org/2001/XMLSchema-instance\" " ++
    "xsi:noNamespaceSchemaLocation=\"http://www.roblox.com/roblox.xsd\" version=\"4\">"

theorem toList_rootBegin : rootBegin.toList = '<' :: Markup.printHead "roblox" rootPairs := by
  have printed : rootBegin = String.ofList ('<' :: Markup.printHead "roblox" rootPairs) := by
    decide +kernel
  rw [printed, String.toList_ofList]

theorem header_eq : Document.header = rootBegin ++ ("\n" ++
    (Document.line 1 (Document.element "External" "null") ++
      Document.line 1 (Document.element "External" "nil"))) := by
  decide +kernel

theorem root_end : "</roblox>\n" = "</roblox>" ++ "\n" := by decide +kernel

/-- A document is written of the items in it. -/
theorem prints_document {below : String} {forest : List Listing}
    (prints : Prints below (allMarkup 1 forest)) :
    Prints (Document.header ++ below ++ "</roblox>\n") (document forest) := by
  have outside (content : String) (unmarked : Document.Unmarked content) :=
    prints_line 1 ((Markup.prints_unmarked unmarked).element "External")
  have inside := (Markup.prints_unmarked unmarked_newline).append ((outside "null" (by decide)).append
    ((outside "nil" (by decide)).append prints))
  have ends : "</roblox>".toList = Markup.printEnd "roblox" := rfl
  have printed := (inside.between toList_rootBegin ends).append
    (Markup.prints_unmarked unmarked_newline)
  rw [header_eq, root_end, document, ← List.singleton_append]
  simpa only [String.append_assoc] using printed

end Listing
end DesignCompiler
