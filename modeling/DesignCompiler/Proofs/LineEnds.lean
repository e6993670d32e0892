import DesignCompiler.Proofs.Characters

/-!
Documents as a reader takes them in. Before it looks for markup, a reader makes one line feed of every
carriage return, with the line feed behind it if there is one. Between the texts of a document there are no
carriage returns, so it is each text for itself that is changed, and what is read is an arena with the
texts so changed.
-/
namespace DesignCompiler

/-- A line ends with a line feed, whether that came with a carriage return, alone or instead of one. -/
def unifyChars : List Char → List Char
  | [] => []
  | '\r' :: '\n' :: rest => '\n' :: unifyChars rest
  | '\r' :: rest => '\n' :: unifyChars rest
  | c :: rest => c :: unifyChars rest

/-- The text with its line ends unified. -/
def unified (s : String) : String := String.ofList (unifyChars s.toList)

/-- Characters that end no line in a way that is changed. -/
def Steady (c : Char) : Prop := c ≠ '\r'

instance (c : Char) : Decidable (Steady c) := inferInstanceAs (Decidable (_ ≠ _))

theorem steady_of_typed (c : Char) (typed : Typed c) : Steady c := by
  rintro rfl
  revert typed
  decide

theorem unifyChars_cons {c : Char} (steady : Steady c) (rest : List Char) :
    unifyChars (c :: rest) = c :: unifyChars rest := by
  rw [unifyChars]
  · rintro _ rfl
    exact absurd rfl steady
  · exact steady

theorem unifyChars_return {rest : List Char} (alone : rest.head? ≠ some '\n') :
    unifyChars ('\r' :: rest) = '\n' :: unifyChars rest := by
  rw [unifyChars]
  rintro later rfl
  exact alone rfl

theorem unifyChars_append_steady {front : List Char} (steady : ∀ c ∈ front, Steady c) (back : List Char) :
    unifyChars (front ++ back) = front ++ unifyChars back := by
  induction front with
  | nil => rfl
  | cons c rest ih =>
    obtain ⟨first, others⟩ := List.forall_mem_cons.mp steady
    rw [List.cons_append, unifyChars_cons first, ih others, List.cons_append]

/-- A text that does not begin with a line feed ends no line of the text before it. -/
theorem unifyChars_append (front : List Char) {back : List Char} (apart : back.head? ≠ some '\n') :
    unifyChars (front ++ back) = unifyChars front ++ unifyChars back := by
  induction front using unifyChars.induct with
  | case1 => rfl
  | case2 rest ih =>
    rw [List.cons_append, List.cons_append, unifyChars, unifyChars, ih, List.cons_append]
  | case3 rest more ih =>
    have alone : rest.head? ≠ some '\n' := by
      intro first
      obtain ⟨later, rfl⟩ := List.head?_eq_some_iff.mp first
      exact more later rfl
    have both : (rest ++ back).head? ≠ some '\n' := by
      cases rest with
      | nil => exact apart
      | cons c later => exact alone
    rw [List.cons_append, unifyChars_return both, unifyChars_return alone, ih, List.cons_append]
  | case4 c rest _ other ih =>
    have steady : Steady c := other
    rw [List.cons_append, unifyChars_cons steady, unifyChars_cons steady, ih, List.cons_append]

theorem steady_unifyChars (chars : List Char) : ∀ c ∈ unifyChars chars, Steady c := by
  induction chars using unifyChars.induct with
  | case1 => exact List.forall_mem_nil _
  | case2 rest ih =>
    rw [unifyChars]
    exact List.forall_mem_cons.mpr ⟨by decide, ih⟩
  | case3 rest more ih =>
    rw [unifyChars]
    · exact List.forall_mem_cons.mpr ⟨by decide, ih⟩
    · exact more
  | case4 c rest _ other ih =>
    have steady : Steady c := other
    rw [unifyChars_cons steady]
    exact List.forall_mem_cons.mpr ⟨steady, ih⟩

/-- Just the texts without carriage returns are left as they are. -/
theorem unified_eq_iff {s : String} : unified s = s ↔ Throughout Steady s := by
  constructor
  · intro same c member
    rw [← same, unified, String.toList_ofList] at member
    exact steady_unifyChars _ c member
  · intro steady
    have whole := unifyChars_append_steady steady []
    rw [List.append_nil, unifyChars, List.append_nil] at whole
    rw [unified, whole, String.ofList_toList]

theorem head?_escaped {chars : List Char} (apart : chars.head? ≠ some '\n') :
    (chars.flatMap Document.escapeChar).head? ≠ some '\n' := by
  cases chars with
  | nil => exact apart
  | cons c rest =>
    have own : (Document.escapeChar c).head? = some c ∨ (Document.escapeChar c).head? = some '&' := by
      unfold Document.escapeChar
      split <;> simp
    rw [List.flatMap_cons, List.head?_append]
    rcases own with same | mark
    · rw [same]
      exact apart
    · rw [mark, Option.some_or]
      decide

/-- Entities have no part in line ends. -/
theorem unifyChars_escaped (chars : List Char) :
    unifyChars (chars.flatMap Document.escapeChar) = (unifyChars chars).flatMap Document.escapeChar := by
  induction chars using unifyChars.induct with
  | case1 => rfl
  | case2 rest ih =>
    have first : Document.escapeChar '\r' = ['\r'] := rfl
    have second : Document.escapeChar '\n' = ['\n'] := rfl
    simp only [List.flatMap_cons, first, second, List.singleton_append, unifyChars, ih]
  | case3 rest more ih =>
    have alone : rest.head? ≠ some '\n' := by
      intro first
      obtain ⟨later, rfl⟩ := List.head?_eq_some_iff.mp first
      exact more later rfl
    have own : Document.escapeChar '\r' = ['\r'] := rfl
    have feed : Document.escapeChar '\n' = ['\n'] := rfl
    rw [List.flatMap_cons, own, List.singleton_append, unifyChars_return (head?_escaped alone),
      unifyChars_return alone, List.flatMap_cons, feed, ih, List.singleton_append]
  | case4 c rest _ other ih =>
    have steady : Steady c := other
    have own : ∀ d ∈ Document.escapeChar c, Steady d := by
      unfold Document.escapeChar
      split
      case h_6 => exact List.forall_mem_singleton.mpr steady
      all_goals
        change Throughout Steady _
        decide
    rw [List.flatMap_cons, unifyChars_append_steady own, unifyChars_cons steady, List.flatMap_cons, ih]

/-- The first text becomes the second, whatever is behind it. -/
def Unifies (s t : String) : Prop := ∀ rest, unifyChars (s.toList ++ rest) = t.toList ++ unifyChars rest

namespace Unifies

variable {s t s' t' : String}

theorem refl (steady : Throughout Steady s) : Unifies s s := unifyChars_append_steady steady

theorem of_typed (typed : Throughout Typed s) : Unifies s s := refl (typed.mono steady_of_typed)

theorem append (first : Unifies s t) (second : Unifies s' t') : Unifies (s ++ s') (t ++ t') := by
  intro rest
  simp only [String.toList_append, List.append_assoc]
  rw [first, second]

theorem join {γ : Type} {items : List γ} {one other : γ → String}
    (each : ∀ item ∈ items, Unifies (one item) (other item)) :
    Unifies (String.join (items.map one)) (String.join (items.map other)) := by
  intro rest
  rw [String.toList_join, String.toList_join]
  induction items with
  | nil => rfl
  | cons item others ih =>
    obtain ⟨own, each⟩ := List.forall_mem_cons.mp each
    simp only [List.map_cons, List.flatMap_cons, List.append_assoc]
    rw [own, ih each]

/-- What stands behind a text keeps its line ends apart from those that follow. -/
theorem escape (text : String) {back : String} (typed : Throughout Typed back)
    (apart : back.toList.head? ≠ some '\n')
    (shown : back ≠ "") :
    Unifies (Document.escape text ++ back) (Document.escape (unified text) ++ back) := by
  intro rest
  have behind : (back.toList ++ rest).head? ≠ some '\n' := by
    cases split : back.toList with
    | nil => exact absurd (String.toList_eq_nil_iff.mp split) shown
    | cons c later =>
      rw [split] at apart
      exact apart
  simp only [String.toList_append, Document.escape, unified, String.toList_ofList, List.append_assoc]
  rw [unifyChars_append _ behind, unifyChars_escaped, of_typed typed]

theorem closed (unifies : Unifies s t) : Unifies (s ++ "</") (t ++ "</") :=
  unifies.append (.of_typed (by decide))

theorem element (tag : String) (typed : Throughout Typed tag) (closed : Unifies (s ++ "</") (t ++ "</")) :
    Unifies (Document.element tag s) (Document.element tag t) := by
  have front : Unifies ("<" ++ tag ++ ">") _ :=
    ((Unifies.of_typed (by decide)).append (.of_typed typed)).append (.of_typed (by decide))
  have back : Unifies (tag ++ ">") _ := (Unifies.of_typed typed).append (.of_typed (by decide))
  have whole := (front.append closed).append back
  simpa only [Document.element, String.append_assoc] using whole

theorem named (tag : String) {key : String} (typed : Throughout Typed tag) (steady : Throughout Steady key)
    (closed : Unifies (s ++ "</") (t ++ "</")) :
    Unifies (Document.named tag key s) (Document.named tag key t) := by
  have opened : Unifies ("<" ++ tag ++ " name=\"") _ :=
    ((Unifies.of_typed (by decide)).append (.of_typed typed)).append (.of_typed (by decide))
  have front : Unifies ("<" ++ tag ++ " name=\"" ++ key ++ "\">") _ :=
    (opened.append (.refl steady)).append (.of_typed (by decide))
  have back : Unifies (tag ++ ">") _ := (Unifies.of_typed typed).append (.of_typed (by decide))
  have whole := (front.append closed).append back
  simpa only [Document.named, String.append_assoc] using whole

theorem line (unifies : Unifies s t) (depth : Nat) : Unifies (Document.line depth s) (Document.line depth t) :=
  ((of_typed (Document.typed_tabs depth)).append unifies).append (.of_typed (by decide))

theorem unified_eq (unifies : Unifies s t) : unified s = t := by
  have whole := unifies []
  rw [List.append_nil, unifyChars, List.append_nil] at whole
  rw [unified, whole, String.ofList_toList]

end Unifies

namespace Property

variable {α : Type}

/-- The value with the line ends of its texts unified. -/
def unified : Property α → Property α
  | .string text => .string (DesignCompiler.unified text)
  | .content url => .content (DesignCompiler.unified url)
  | .font family weight italic => .font (DesignCompiler.unified family) weight italic
  | value => value

theorem unified_eq_iff {value : Property α} :
    value.unified = value ↔ ∀ text ∈ value.texts, Throughout Steady text := by
  cases value with
  | string text | content text =>
    simp [unified, texts, DesignCompiler.unified_eq_iff]
  | font family weight italic => simp [unified, texts, DesignCompiler.unified_eq_iff]
  | _ => simp [unified, texts]

theorem unifies_property {key : String} (steady : Throughout Steady key) (value : Property Float) :
    Unifies (Document.property key value) (Document.property key value.unified) := by
  have plain (silent : value.texts = []) (same : value.unified = value) :
      Unifies (Document.property key value) (Document.property key value.unified) := by
    rw [same]
    refine .refl ((Document.throughout_property steady_of_typed key value).mpr ⟨steady, ?_⟩)
    rw [silent]
    exact List.forall_mem_nil _
  cases value with
  | string text =>
    exact Unifies.named "string" (by decide) steady (.escape text (by decide) (by decide) (by decide))
  | content url =>
    have inside := Unifies.element "url" (by decide) (.escape url (by decide) (by decide) (by decide))
    exact Unifies.named "Content" (by decide) steady inside.closed
  | font family weight italic =>
    have file : Unifies (Document.escape family ++ ".json") _ :=
      .escape family (by decide) (by decide) (by decide)
    have path := (Unifies.of_typed (show Throughout Typed "rbxasset://fonts/families/" by decide)).append file
    rw [← String.append_assoc, ← String.append_assoc] at path
    have url := Unifies.element "url" (by decide) path.closed
    have first := Unifies.element "Family" (by decide) url.closed
    have weighed : Throughout Typed (Document.element "Weight" _) :=
      Document.typed_element (by decide) (Document.typed_natText weight)
    have styled : Throughout Typed (Document.element "Style" (if italic then "Italic" else "Normal")) :=
      Document.typed_element (by decide) (by cases italic <;> decide)
    exact Unifies.named "Font" (by decide) steady
      ((first.append (.of_typed weighed)).append (.of_typed styled)).closed
  | _ => exact plain rfl rfl

/-- A field shows the text of its value as it is. -/
theorem field_unified_inj [Scalar α] {key : String} {value : Property α}
    (same : value.unified.field key = value.field key) : value.unified = value := by
  have shown : value.unified.shown = value.shown := congrArg Field.value same
  have text_inj {s t : String} (same : Markup.text s = Markup.text t) : s = t := by
    have read := congrArg Markup.text? same
    rw [Markup.text?_text, Markup.text?_text] at read
    exact Option.some.inj read
  cases value with
  | string text => exact congrArg string (text_inj shown)
  | content url =>
    have inside : Markup.text (DesignCompiler.unified url) = Markup.text url := by
      simpa [unified, Property.shown, Markup.part] using shown
    exact congrArg content (text_inj inside)
  | font family weight italic =>
    have inside : Markup.text ("rbxasset://fonts/families/" ++ DesignCompiler.unified family ++ ".json") =
        Markup.text ("rbxasset://fonts/families/" ++ family ++ ".json") := by
      simpa [unified, Property.shown, Markup.part] using shown
    have same : DesignCompiler.unified family = family := by
      simpa using text_inj inside
    rw [unified, same]
  | _ => rfl

end Property

theorem map_eq_self_iff {γ : Type} {change : γ → γ} {items : List γ} :
    items.map change = items ↔ ∀ item ∈ items, change item = item := by
  simpa using List.map_inj_left (f := change) (g := id) (l := items)

namespace Instance

variable {α : Type}

/-- The instance with the line ends of its name and of all its texts unified. -/
def unified (inst : Instance α) : Instance α :=
  { inst with
    name := DesignCompiler.unified inst.name
    properties := inst.properties.map fun property => (property.1, property.2.unified) }

theorem unified_eq_iff {inst : Instance α} : inst.unified = inst ↔
    Throughout Steady inst.name ∧ ∀ property ∈ inst.properties, property.2.unified = property.2 := by
  obtain ⟨className, name, properties, parent⟩ := inst
  simp only [unified, mk.injEq, true_and, and_true, DesignCompiler.unified_eq_iff]
  refine and_congr_right fun _ => ?_
  rw [map_eq_self_iff]
  exact forall₂_congr fun property _ => ⟨fun same => congrArg Prod.snd same, fun same => by rw [same]⟩

end Instance

namespace Arena

variable {α : Type}

/-- The arena with all line ends unified. -/
def unified (arena : Arena α) : Arena α := ⟨arena.instances.map Instance.unified⟩

theorem unified_eq_iff {arena : Arena α} :
    arena.unified = arena ↔ ∀ inst ∈ arena.instances, inst.unified = inst := by
  obtain ⟨instances⟩ := arena
  rw [unified, mk.injEq, map_eq_self_iff]

theorem get?_unified (arena : Arena α) (position : Nat) :
    arena.unified.get? position = (arena.get? position).map Instance.unified := List.getElem?_map ..

theorem withParent_unified (parent : Option Nat) (position : Nat) (instances : List (Instance α)) :
    withParent parent position (instances.map Instance.unified) = withParent parent position instances := by
  induction instances generalizing position with
  | nil => rfl
  | cons inst rest ih =>
    rw [List.map_cons, withParent, withParent, ih]
    rfl

theorem roots_unified (arena : Arena α) : arena.unified.roots = arena.roots :=
  withParent_unified none 0 arena.instances

theorem children_unified (arena : Arena α) (referent : Nat) :
    arena.unified.children referent = arena.children referent := by
  rw [children, unified, ← List.map_drop, withParent_unified]
  rfl

theorem size_unified (arena : Arena α) : arena.unified.size = arena.size := List.length_map ..

theorem Grown.unified {arena : Arena α} (grown : arena.Grown) : arena.unified.Grown where
  parent {position above inst} found below := by
    rw [get?_unified] at found
    obtain ⟨before, foundBefore, rfl⟩ := Option.map_eq_some_iff.mp found
    exact grown.parent foundBefore below
  keys {inst} member := by
    obtain ⟨before, present, rfl⟩ := List.mem_map.mp member
    have same : before.unified.properties.map (·.1) = before.properties.map (·.1) := List.map_map
    rw [same]
    exact grown.keys present

end Arena

namespace Document

open Instance (Spelled)

/-- Nothing else than the texts of an instance is changed in its lines. -/
theorem unifies_opening (depth referent : Nat) {inst : Instance Float} {kind : Char → Prop}
    (literal : inst.Spelled Steady kind) :
    Unifies (opening depth referent inst) (opening depth referent inst.unified) := by
  have head : Throughout Steady
      ("<Item class=\"" ++ inst.className ++ "\" referent=\"RBX" ++ Decimal.natText referent ++ "\">") := by
    simp only [throughout_append]
    have number := (typed_natText referent).mono steady_of_typed
    exact ⟨⟨⟨⟨by decide, literal.className⟩, by decide⟩, number⟩, by decide⟩
  have name : Unifies (named "string" "Name" (escape inst.name)) _ :=
    .named "string" (by decide) (by decide) (.escape inst.name (by decide) (by decide) (by decide))
  have each : ∀ entry ∈ inst.properties, Unifies (line (depth + 2) (property entry.1 entry.2))
      (line (depth + 2) (property entry.1 entry.2.unified)) := fun entry member =>
    (entry.2.unifies_property (literal.keys entry member)).line (depth + 2)
  have properties : inst.unified.properties = inst.properties.map fun entry => (entry.1, entry.2.unified) := rfl
  rw [opening, opening, properties, List.map_map]
  have first := ((Unifies.refl head).line depth).append
    ((Unifies.of_typed (show Throughout Typed "<Properties>" by decide)).line (depth + 1))
  exact ((first.append (name.line (depth + 2))).append (.join each)).append
    ((Unifies.of_typed (by decide)).line (depth + 1))

theorem unifies_item {arena : Arena Float} {kind : Char → Prop}
    (literal : ∀ inst ∈ arena.instances, inst.Spelled Steady kind) (fuel depth referent : Nat) :
    Unifies (item arena fuel depth referent) (item arena.unified fuel depth referent) := by
  induction fuel generalizing depth referent with
  | zero => exact .of_typed (show Throughout Typed "" by decide)
  | succ fuel ih =>
    rw [item, item, Arena.get?_unified]
    cases found : arena.get? referent with
    | none => exact .of_typed (show Throughout Typed "" by decide)
    | some inst =>
      have own := unifies_opening depth referent (literal inst (List.mem_of_getElem? found))
      rw [Option.map_some, Arena.children_unified]
      exact (own.append (.join fun child _ => ih (depth + 1) child)).append
        ((Unifies.of_typed (by decide)).line depth)

end Document

/-- A reader that unifies line ends first, takes in the document of the arena with all line ends unified. -/
theorem Arena.unified_document {arena : Arena Float} {kind : Char → Prop}
    (literal : ∀ inst ∈ arena.instances, inst.Spelled Steady kind) :
    DesignCompiler.unified arena.document = arena.unified.document := by
  have items : Unifies (String.join (arena.roots.map (Document.item arena arena.size 1)))
      (String.join (arena.roots.map (Document.item arena.unified arena.size 1))) :=
    .join fun root _ => Document.unifies_item literal arena.size 1 root
  rw [document, document, roots_unified, size_unified]
  exact (((Unifies.of_typed Document.typed_header).append items).append (.of_typed (by decide))).unified_eq

namespace Listing

def referent : Listing → String
  | .item _ referent _ _ _ => referent

def name : Listing → String
  | .item _ _ name _ _ => name

def fields : Listing → List Field
  | .item _ _ _ fields _ => fields

mutual

/-- An item and all those below it. -/
def whole : Listing → List Listing
  | .item className referent name fields children =>
    .item className referent name fields children :: allWhole children

def allWhole : List Listing → List Listing
  | [] => []
  | listing :: rest => listing.whole ++ allWhole rest

end

mutual

theorem map_referent_whole : (listing : Listing) → listing.whole.map referent = listing.referents
  | .item _ _ _ _ children => by
    rw [whole, List.map_cons, map_referent_allWhole children, referents]
    rfl

theorem map_referent_allWhole : (forest : List Listing) → (allWhole forest).map referent = allReferents forest
  | [] => rfl
  | listing :: rest => by
    rw [allWhole, List.map_append, map_referent_whole listing, map_referent_allWhole rest, allReferents]

end

variable {α : Type} [Scalar α]

/-- The item shows the name and the properties of an instance. -/
structure Shows (inst : Instance α) (listing : Listing) : Prop where
  name : listing.name = inst.name
  fields : listing.fields = inst.properties.map fun property => property.2.field property.1

mutual

theorem exists_shown {edits : List (Edit α)} {position : Nat} : {listing : Listing} →
    Tells edits position listing → ∀ inner ∈ listing.whole, ∃ place arrival,
      (Edit.arrivals edits)[place]? = some arrival ∧ inner.referent = referentOf place ∧
        Shows (Edit.final edits place arrival) inner
  | .item className referent name fields children, tells => by
    rw [Tells] at tells
    obtain ⟨⟨arrival, found, rfl, rfl⟩, rfl, rfl, below⟩ := tells
    rw [whole]
    exact List.forall_mem_cons.mpr ⟨⟨position, arrival, found, rfl, rfl, rfl⟩, exists_allShown below⟩

theorem exists_allShown {edits : List (Edit α)} {positions : List Nat} : {forest : List Listing} →
    AllTell edits positions forest → ∀ inner ∈ allWhole forest, ∃ place arrival,
      (Edit.arrivals edits)[place]? = some arrival ∧ inner.referent = referentOf place ∧
        Shows (Edit.final edits place arrival) inner
  | [], _ => List.forall_mem_nil _
  | listing :: rest, tells => by
    rw [AllTell] at tells
    obtain ⟨position, others, rfl, own, later⟩ := tells
    rw [allWhole]
    exact List.forall_mem_append.mpr ⟨exists_shown own, exists_allShown later⟩

end

variable {arena : Arena α} {forest : List Listing}

omit [Scalar α] in
theorem length_edits (arena : Arena α) : (Edit.arrivals arena.edits).length = arena.size :=
  Edit.length_arrivals arena.instances

/-- There is an item for each instance. -/
theorem Recovers.exists_item (recovers : Recovers arena.edits forest) {position : Nat}
    (present : position < arena.size) :
    ∃ listing ∈ allWhole forest, listing.referent = referentOf position := by
  have listed : referentOf position ∈ allReferents forest := by
    refine recovers.referents.mem_iff.mpr (List.mem_map_of_mem (List.mem_range.mpr ?_))
    rwa [length_edits]
  rwa [← map_referent_allWhole, List.mem_map] at listed

/-- The item of an instance shows it. -/
theorem Recovers.shows (recovers : Recovers arena.edits forest) (grown : arena.Grown) {listing : Listing}
    (member : listing ∈ allWhole forest) {position : Nat} (own : listing.referent = referentOf position)
    {inst : Instance α} (found : arena.get? position = some inst) : Shows inst listing := by
  obtain ⟨place, arrival, arrived, same, shows⟩ := exists_allShown recovers.tells listing member
  obtain rfl := referentOf_injective (own.symm.trans same)
  have built : arena.get? position = some (Edit.final arena.edits position arrival) := by
    rw [← grown.build_edits, Arena.get?, grown.valid.instances_build, List.getElem?_mapIdx, arrived,
      Option.map_some, grown.build_edits]
  obtain rfl := Option.some.inj (built.symm.trans found)
  exact shows

/-- Where line ends are changed, what is read is not what the arena holds. -/
theorem Recovers.unified_iff (recovers : Recovers arena.unified.edits forest) (grown : arena.Grown) :
    Recovers arena.edits forest ↔ arena.unified = arena := by
  constructor
  · intro faithful
    refine Arena.unified_eq_iff.mpr fun inst member => ?_
    obtain ⟨position, found⟩ := List.mem_iff_getElem?.mp member
    obtain ⟨listing, listed, own⟩ := faithful.exists_item (List.getElem?_eq_some_iff.mp found).1
    have changed : arena.unified.get? position = some inst.unified := by
      rw [Arena.get?_unified, Arena.get?, found, Option.map_some]
    have first := faithful.shows grown listed own found
    have second := recovers.shows grown.unified listed own changed
    have names : unified inst.name = inst.name := second.name.symm.trans first.name
    have fields := second.fields.symm.trans first.fields
    rw [Instance.unified, List.map_map] at fields
    exact Instance.unified_eq_iff.mpr ⟨unified_eq_iff.mp names, fun property held =>
      Property.field_unified_inj (List.map_inj_left.mp fields property held)⟩
  · intro same
    rwa [same] at recovers

end Listing

end DesignCompiler
