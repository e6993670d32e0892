import DesignCompiler.Proofs.JsonText
import DesignCompiler.Proofs.Markup
import DesignCompiler.Scalar.Double

/-!
The items of a document as they are read back. Each shows its class, its referent, its name, its
properties and the items below it. A document that is written of items is read as these items.
-/
namespace DesignCompiler

open Markup (text printAll)

/-- A property as it is read. -/
structure Field where
  kind : String
  key : String
  value : List Markup

namespace Field

def markup (field : Field) : Markup := .element field.kind [("name", field.key)] field.value

def read? : Markup → Option Field
  | .char _ => none
  | .element kind pairs value => (pairs.lookup "name").map (⟨kind, ·, value⟩)

@[simp] theorem read?_markup (field : Field) : read? field.markup = some field := rfl

/-- The name of an item is its first property. -/
def naming (name : String) : Field := ⟨"string", "Name", text name⟩

def name? (field : Field) : Option String :=
  if field.kind = "string" ∧ field.key = "Name" then Markup.text? field.value else none

@[simp] theorem name?_naming (name : String) : (naming name).name? = some name := by
  simp [name?, naming, Markup.text?_text]

end Field

/-- An instance as it is read, with all below it. -/
inductive Listing where
  | item (className referent name : String) (fields : List Field) (children : List Listing)

namespace Listing

/-- What stands in a document or in an item. -/
inductive Part where
  | properties (fields : List Field)
  | item (listing : Listing)

def Part.item? : Part → Option Listing
  | .properties _ => none
  | .item listing => some listing

theorem Part.item?_item (listing : Listing) : Part.item? (.item listing) = some listing := rfl

/-- The elements of markup that has no text but blanks. -/
def elements? : List Markup → Option (List Markup)
  | [] => some []
  | .char c :: rest => if c.isWhitespace then elements? rest else none
  | .element tag pairs inside :: rest => (elements? rest).map (.element tag pairs inside :: ·)

/-- An item has its properties first, and then other items. -/
def ofParts? (pairs : List (String × String)) : List Part → Option Listing
  | .properties (first :: fields) :: parts => do
    let className ← pairs.lookup "class"
    let referent ← pairs.lookup "referent"
    let name ← first.name?
    let children ← parts.mapM Part.item?
    some (.item className referent name fields children)
  | _ => none

mutual

/-- The parts that markup stands for. Blanks are none, and references to the outside are none. -/
def parts? : Markup → Option (List Part)
  | .char c => if c.isWhitespace then some [] else none
  | .element tag pairs inside =>
    if tag = "Properties" then do
      let elements ← elements? inside
      let fields ← elements.mapM Field.read?
      some [.properties fields]
    else if tag = "Item" then do
      let parts ← allParts? inside
      let listing ← ofParts? pairs parts
      some [.item listing]
    else if tag = "External" then some []
    else none

def allParts? : List Markup → Option (List Part)
  | [] => some []
  | markup :: rest => do
    let parts ← parts? markup
    let others ← allParts? rest
    some (parts ++ others)

end

/-- The items of a document. -/
def read? (document : String) : Option (List Listing) := do
  let markup ← Markup.read? document
  match ← elements? markup with
  | [.element tag _ inside] =>
    if tag = "roblox" then do
      let parts ← allParts? inside
      parts.mapM Part.item?
    else none
  | _ => none

/-- An element on a line of its own. -/
def line (depth : Nat) (markup : Markup) : List Markup :=
  text (Document.tabs depth) ++ markup :: text "\n"

/-- The element of all properties. -/
def properties (depth : Nat) (fields : List Field) : Markup :=
  .element "Properties" [] (text "\n" ++
    (fields.flatMap (fun field => line (depth + 1) field.markup) ++ text (Document.tabs depth)))

mutual

/-- The lines of an item. -/
def markup (depth : Nat) : Listing → List Markup
  | .item className referent name fields children =>
    line depth (.element "Item" [("class", className), ("referent", referent)] (text "\n" ++
      (line (depth + 1) (properties (depth + 1) (Field.naming name :: fields)) ++
        (allMarkup (depth + 1) children ++ text (Document.tabs depth)))))

def allMarkup (depth : Nat) : List Listing → List Markup
  | [] => []
  | listing :: rest => listing.markup depth ++ allMarkup depth rest

end

/-- The attributes of the root element. -/
def rootPairs : List (String × String) :=
  [("xmlns:xmime", "http://www.w3.org/2005/05/xmlmime"),
    ("xmlns:xsi", "http://www.w3.org/2001/XMLSchema-instance"),
    ("xsi:noNamespaceSchemaLocation", "http://www.roblox.com/roblox.xsd"), ("version", "4")]

/-- The root element, of the lines in it. -/
def document (forest : List Listing) : List Markup :=
  .element "roblox" rootPairs (text "\n" ++ (line 1 (.element "External" [] (text "null")) ++
      (line 1 (.element "External" [] (text "nil")) ++ allMarkup 1 forest))) :: text "\n"

/-- A text that shows nothing. -/
def Blank (s : String) : Prop := ∀ c ∈ s.toList, c.isWhitespace = true

theorem blank_tabs (depth : Nat) : Blank (Document.tabs depth) := by
  intro c member
  rw [Document.tabs, String.toList_ofList] at member
  obtain rfl := List.eq_of_mem_replicate member
  rfl

theorem blank_newline : Blank "\n" := by
  intro c member
  obtain rfl : c = '\n' := List.mem_singleton.mp member
  rfl

theorem elements?_append {front back elements others : List Markup}
    (first : elements? front = some elements) (second : elements? back = some others) :
    elements? (front ++ back) = some (elements ++ others) := by
  induction front generalizing elements with
  | nil =>
    obtain rfl : [] = elements := Option.some.inj first
    exact second
  | cons markup rest ih =>
    cases markup with
    | char c =>
      rw [elements?] at first
      split at first
      case isTrue blank => rw [List.cons_append, elements?, if_pos blank, ih first]
      case isFalse => cases first
    | element tag pairs inside =>
      rw [elements?] at first
      obtain ⟨found, same, rfl⟩ := Option.map_eq_some_iff.mp first
      rw [List.cons_append, elements?, ih same]
      rfl

theorem elements?_blank {s : String} (blank : Blank s) : elements? (text s) = some [] := by
  rw [text]
  rw [Blank] at blank
  generalize s.toList = chars at blank
  induction chars with
  | nil => rfl
  | cons c rest ih =>
    obtain ⟨first, others⟩ := List.forall_mem_cons.mp blank
    rw [List.map_cons, elements?, if_pos first, ih others]

theorem elements?_line (depth : Nat) (tag : String) (pairs : List (String × String))
    (inside : List Markup) :
    elements? (line depth (.element tag pairs inside)) = some [.element tag pairs inside] := by
  refine elements?_append (elements?_blank (blank_tabs depth)) ?_
  rw [elements?, elements?_blank blank_newline]
  rfl

theorem elements?_fields (depth : Nat) (fields : List Field) :
    elements? (fields.flatMap fun field => line depth field.markup) =
      some (fields.map Field.markup) := by
  induction fields with
  | nil => rfl
  | cons field rest ih =>
    rw [List.flatMap_cons]
    exact elements?_append (elements?_line depth ..) ih

theorem allParts?_append {front back : List Markup} {parts others : List Part}
    (first : allParts? front = some parts) (second : allParts? back = some others) :
    allParts? (front ++ back) = some (parts ++ others) := by
  induction front generalizing parts with
  | nil =>
    obtain rfl : [] = parts := Option.some.inj first
    exact second
  | cons markup rest ih =>
    simp only [allParts?, Option.bind_eq_bind, Option.bind_eq_some_iff, Option.some.injEq] at first
    obtain ⟨own, read, below, same, rfl⟩ := first
    simp [allParts?, read, ih same]

theorem allParts?_blank {s : String} (blank : Blank s) : allParts? (text s) = some [] := by
  rw [text]
  rw [Blank] at blank
  generalize s.toList = chars at blank
  induction chars with
  | nil => rfl
  | cons c rest ih =>
    obtain ⟨first, others⟩ := List.forall_mem_cons.mp blank
    simp [allParts?, parts?, first, ih others]

theorem allParts?_line (depth : Nat) {markup : Markup} {parts : List Part}
    (read : parts? markup = some parts) : allParts? (line depth markup) = some parts := by
  refine allParts?_append (allParts?_blank (blank_tabs depth)) ?_
  simp [allParts?, read, allParts?_blank blank_newline]

theorem parts?_properties (depth : Nat) (fields : List Field) :
    parts? (properties depth fields) = some [.properties fields] := by
  have inside := elements?_append (elements?_blank blank_newline)
    (elements?_append (elements?_fields (depth + 1) fields) (elements?_blank (blank_tabs depth)))
  rw [List.nil_append, List.append_nil] at inside
  rw [properties, parts?, if_pos rfl, inside]
  change (List.mapM Field.read? _).bind _ = _
  rw [Markup.mapM_map_eq_some Field.read?_markup]
  rfl

theorem ofParts?_item (className referent name : String) (fields : List Field)
    (children : List Listing) :
    ofParts? [("class", className), ("referent", referent)]
        (.properties (Field.naming name :: fields) :: children.map .item) =
      some (.item className referent name fields children) := by
  have below := Markup.mapM_map_eq_some Part.item?_item children
  have named : (Field.naming name).name? = some name := Field.name?_naming name
  change ((Field.naming name).name?).bind (fun name => ((children.map Part.item).mapM Part.item?).bind
    fun children => some (item className referent name fields children)) = _
  rw [named, below]
  rfl

mutual

/-- The lines of an item are read as the item. -/
theorem allParts?_markup (depth : Nat) : (listing : Listing) →
    allParts? (listing.markup depth) = some [.item listing]
  | .item className referent name fields children => by
    have properties := parts?_properties (depth + 1) (Field.naming name :: fields)
    have inside := allParts?_append (allParts?_blank blank_newline)
      (allParts?_append (allParts?_line (depth + 1) properties)
        (allParts?_append (allParts?_allMarkup (depth + 1) children)
          (allParts?_blank (blank_tabs depth))))
    rw [markup]
    refine allParts?_line depth ?_
    simp only [List.nil_append, List.append_nil, List.cons_append] at inside
    simp [parts?, inside, ofParts?_item]

theorem allParts?_allMarkup (depth : Nat) : (forest : List Listing) →
    allParts? (allMarkup depth forest) = some (forest.map .item)
  | [] => rfl
  | listing :: rest => by
    rw [allMarkup]
    exact allParts?_append (allParts?_markup depth listing) (allParts?_allMarkup depth rest)

end

theorem read?_eq_some {document : String} {forest : List Listing}
    (read : Markup.read? document = some (Listing.document forest)) : read? document = some forest := by
  have outside (content : String) :
      parts? (.element "External" [] (text content)) = some [] := rfl
  have inside := allParts?_append (allParts?_blank blank_newline)
    (allParts?_append (allParts?_line 1 (outside "null"))
      (allParts?_append (allParts?_line 1 (outside "nil")) (allParts?_allMarkup 1 forest)))
  simp only [List.nil_append] at inside
  have items := Markup.mapM_map_eq_some Part.item?_item forest
  simp [read?, read, Listing.document, elements?, elements?_blank blank_newline, inside, items]

end Listing

open Markup (IsTag Quotable)

structure Field.Sound (field : Field) : Prop where
  kind : IsTag field.kind
  key : Quotable field.key
  value : ∀ markup ∈ field.value, markup.Sound

theorem Field.sound_naming (name : String) : (naming name).Sound :=
  ⟨show IsTag "string" by decide, show Quotable "Name" by decide, Markup.sound_text name⟩

theorem Field.Sound.markup {field : Field} (sound : field.Sound) : field.markup.Sound :=
  .element sound.kind (by simp) (by simp [sound.key]) sound.value

namespace Listing

/-- Classes, referents and keys can stand in attributes as they are. -/
inductive Sound : Listing → Prop
  | item {className referent name : String} {fields : List Field} {children : List Listing}
      (classes : Quotable className) (referents : Quotable referent)
      (own : ∀ field ∈ fields, field.Sound) (below : ∀ child ∈ children, child.Sound) :
      Sound (.item className referent name fields children)

theorem sound_append {front back : List Markup} (first : ∀ part ∈ front, part.Sound)
    (second : ∀ part ∈ back, part.Sound) : ∀ part ∈ front ++ back, part.Sound :=
  List.forall_mem_append.mpr ⟨first, second⟩

theorem sound_line (depth : Nat) {markup : Markup} (sound : markup.Sound) :
    ∀ part ∈ line depth markup, part.Sound := by
  apply sound_append
  · exact Markup.sound_text _
  · exact List.forall_mem_cons.mpr ⟨sound, Markup.sound_text _⟩

theorem sound_properties (depth : Nat) {fields : List Field}
    (sound : ∀ field ∈ fields, field.Sound) :
    (properties depth fields).Sound := by
  have lines : ∀ part ∈ fields.flatMap fun field => line (depth + 1) field.markup, part.Sound := by
    intro part member
    obtain ⟨field, present, member⟩ := List.mem_flatMap.mp member
    exact sound_line _ (sound field present).markup part member
  apply Markup.Sound.element (by decide) (by simp) (by simp)
  apply sound_append
  · exact Markup.sound_text _
  · exact sound_append lines (Markup.sound_text _)

theorem mem_allMarkup {depth : Nat} {forest : List Listing} {part : Markup} :
    part ∈ allMarkup depth forest ↔ ∃ listing ∈ forest, part ∈ listing.markup depth := by
  induction forest with
  | nil => simp [allMarkup]
  | cons listing rest ih => simp [allMarkup, ih]

theorem Sound.markup {listing : Listing} (sound : listing.Sound) (depth : Nat) :
    ∀ part ∈ listing.markup depth, part.Sound := by
  induction sound generalizing depth with
  | @item className referent name fields children classes referents own _ ih =>
    have fields : ∀ field ∈ Field.naming name :: fields, field.Sound :=
      List.forall_mem_cons.mpr ⟨Field.sound_naming name, own⟩
    have below : ∀ part ∈ allMarkup (depth + 1) children, part.Sound := by
      intro part member
      obtain ⟨child, present, member⟩ := mem_allMarkup.mp member
      exact ih child present _ part member
    rw [Listing.markup]
    apply sound_line depth
    apply Markup.Sound.element (by decide) (by simp) (by simp [classes, referents])
    apply sound_append
    · exact Markup.sound_text _
    · apply sound_append
      · exact sound_line _ (sound_properties _ fields)
      · exact sound_append below (Markup.sound_text _)

theorem sound_document {forest : List Listing} (sound : ∀ listing ∈ forest, listing.Sound) :
    ∀ part ∈ document forest, part.Sound := by
  have outside (content : String) : (Markup.element "External" [] (text content)).Sound :=
    .element (by decide) (by simp) (by simp) (Markup.sound_text content)
  have items : ∀ part ∈ allMarkup 1 forest, part.Sound := by
    intro part member
    obtain ⟨listing, present, member⟩ := mem_allMarkup.mp member
    exact (sound listing present).markup _ part member
  have lines := sound_append (sound_line 1 (outside "null"))
    (sound_append (sound_line 1 (outside "nil")) items)
  have root : (Markup.element "roblox" rootPairs _).Sound :=
    .element (by decide) (by decide) (by decide) (sound_append (Markup.sound_text "\n") lines)
  exact List.forall_mem_cons.mpr ⟨root, Markup.sound_text _⟩

/-- A document that is written of sound items is read as these items. -/
theorem read?_print {forest : List Listing} (sound : ∀ listing ∈ forest, listing.Sound)
    {document : String} (printed : document.toList = printAll (Listing.document forest)) :
    read? document = some forest :=
  read?_eq_some (Markup.read?_print (sound_document sound) printed)

end Listing
end DesignCompiler
