import DesignCompiler.Design.File
import DesignCompiler.Proofs.Reading
import DesignCompiler.Proofs.Restoring
import DesignCompiler.Scalar.Double

/-!
Files of trees. The members of a node are those of its layer, its tag and those of its kind; their keys do
not mix, and each reader passes over what belongs to the others. So a tree is read from any text that spells
its value: nothing that is left out of a file, or written by a name, is lost on the way.
-/
namespace DesignCompiler

variable {α : Type} [Scalar α]

open Scalar (Legible)

namespace Node

mutual

/-- The numbers that a tree is measured in. -/
def scalars : Node α → List α
  | .text layer content => layer.scalars ++ content.style.scalars
  | .container layer props children => layer.scalars ++ (scalarsAll children ++ props.scalars)
  | .shape layer _ => layer.scalars

def scalarsAll : List (Node α) → List α
  | [] => []
  | node :: rest => node.scalars ++ scalarsAll rest

end

/-- The members of a node behind its tag. -/
def ownMembers : Node α → List (String × Json)
  | .text _ content => content.members
  | .container _ props children => props.members (jsons children)
  | .shape _ _ => []

/-- The keys that members of a kind can have. -/
def ownKeys : List String := ["characters", "style", "children", "layout", "clipsContent"]

theorem json_eq (node : Node α) :
    node.json = .object (node.layer.members ++ ("type", .string node.tag) :: node.ownMembers) := by
  cases node <;> simp [json, ownMembers, tag, layer, ContainerProps.members]

theorem key_own {node : Node α} {entry : String × Json} (member : entry ∈ node.ownMembers) :
    entry.1 ∈ ownKeys := by
  cases node with
  | text layer content =>
    have keys : (content.members.map (·.1)).Sublist ownKeys := List.sublist_append_left _ _
    exact keys.subset (List.mem_map_of_mem member)
  | container layer props children =>
    have keys := (props.keys_members (jsons children)).trans
      (List.sublist_append_right ["characters", "style"] _)
    exact keys.subset (List.mem_map_of_mem member)
  | shape => cases member

/-- The keys of a layer, its tag and the rest of a node do not mix. -/
theorem disjoint_keys : ∀ key ∈ "type" :: ownKeys, key ∉ Layer.keys := by decide

theorem key_behind (node : Node α) {entry : String × Json}
    (member : entry ∈ ("type", .string node.tag) :: node.ownMembers) :
    entry.1 ∈ "type" :: ownKeys := by
  rcases List.mem_cons.mp member with rfl | own
  · exact List.mem_cons_self
  · exact List.mem_cons_of_mem _ (key_own own)

omit [Scalar α] in
theorem tag_known (node : Node α) : tags.contains node.tag = true := by
  cases node with
  | text => rfl
  | container layer props children =>
    have all : ∀ kind, tags.contains (Json.nameIn ContainerKind.names kind) = true := by
      intro kind
      cases kind <;> rfl
    exact all props.kind
  | shape layer kind => cases kind <;> rfl

theorem childrenOf?_append {before rest : List (String × Json)}
    (other : ∀ entry ∈ before, entry.1 ≠ "children") :
    childrenOf? (α := α) (before ++ rest) = childrenOf? rest := by
  induction before with
  | nil => rfl
  | cons entry before ih =>
    obtain ⟨own, others⟩ := List.forall_mem_cons.mp other
    obtain ⟨key, value⟩ := entry
    cases value <;> simp only [List.cons_append, childrenOf?, if_neg own, ih others]

/-- What stands before the members of a kind is not known to it. -/
theorem disjoint_front {node : Node α} {known : List String}
    (others : ∀ key ∈ known, key ∉ "type" :: Layer.keys) {entry : String × Json}
    (member : entry ∈ node.layer.members ++ [("type", .string node.tag)]) : entry.1 ∉ known := by
  intro listed
  refine others _ listed ?_
  rcases List.mem_append.mp member with own | own
  · exact List.mem_cons_of_mem _ (Layer.key_mem own)
  · rw [List.mem_singleton.mp own]
    exact List.mem_cons_self

theorem untagged {node : Node α} :
    ∀ entry ∈ node.layer.members ++ node.ownMembers, entry.1 ≠ "type" := by
  intro entry member
  have others : "type" ∉ Layer.keys ∧ "type" ∉ ownKeys := by decide
  rcases List.mem_append.mp member with own | own
  · exact fun same => others.1 (same ▸ Layer.key_mem own)
  · exact fun same => others.2 (same ▸ key_own own)

/-- The members of a node are read as the node, once its children are. -/
theorem ofMembers?_json {node : Node α} (fresh : node.layer.annotations = .none)
    (legible : ∀ x ∈ node.scalars, Legible x) :
    ofMembers? (node.layer.members ++ ("type", .string node.tag) :: node.ownMembers)
      (some node.children) = some node := by
  have own : ∀ x ∈ node.layer.scalars, Legible x := by
    intro x member
    cases node with
    | text | container => exact legible x (List.mem_append_left _ member)
    | shape => exact legible x member
  have layers := Layer.ofMembers?_members own fun _ member =>
    disjoint_keys _ (key_behind node member)
  have kept : { node.layer with annotations := .none } = node.layer := by rw [← fresh]
  rw [kept] at layers
  have tagged : Json.tagged? tags (.object (node.layer.members ++ ("type", .string node.tag) ::
      node.ownMembers)) = some (some node.tag, .object (node.layer.members ++ node.ownMembers)) := by
    rw [Json.tagged?_between _ _ untagged, tag_known, if_pos rfl]
  -- for the readers of a kind, the layer and the tag are both members that belong to others
  have regroup : ∀ rest : List (String × Json), node.layer.members ++ ("type", .string node.tag) :: rest =
      (node.layer.members ++ [("type", .string node.tag)]) ++ rest := by simp
  refine then_read layers (then_read tagged (then_read rfl ?_))
  cases node with
  | text layer content =>
    have read : TextContent.ofMembers? (layer.members ++ ("type", .string "TEXT") :: content.members) =
        some content := by
      refine (congrArg _ (regroup content.members)).trans
        (TextContent.ofMembers?_members (fun x member => legible x (List.mem_append_right _ member)) ?_)
      exact fun _ => disjoint_front (by decide)
    exact (if_pos rfl).trans (then_read read rfl)
  | container layer props children =>
    have read : ContainerProps.ofMembers? props.kind (layer.members ++ ("type",
        .string (Json.nameIn ContainerKind.names props.kind)) :: props.members (jsons children)) =
          some props := by
      refine (congrArg _ (regroup (props.members (jsons children)))).trans
        (ContainerProps.ofMembers?_members (fun x member => legible x
          (List.mem_append_right _ (List.mem_append_right _ member))) ?_)
      exact fun _ => disjoint_front (by decide)
    have kinds : ∀ kind, Json.nameIn ContainerKind.names kind ≠ "TEXT" ∧
        ShapeKind.names.lookup (Json.nameIn ContainerKind.names kind) = none ∧
        ContainerKind.names.lookup (Json.nameIn ContainerKind.names kind) = some kind := by
      intro kind
      cases kind <;> decide
    obtain ⟨notText, notShape, kind⟩ := kinds props.kind
    refine (if_neg notText).trans ?_
    dsimp only [tag]
    rw [notShape]
    exact then_read kind (then_read read (then_read rfl rfl))
  | shape layer kind =>
    cases kind <;> rfl

/-- The children are found among the members of a node. -/
theorem childrenOf?_own {node : Node α} (below : listOf? (jsons node.children) = some node.children) :
    childrenOf? (node.layer.members ++ ("type", .string node.tag) :: node.ownMembers) =
      some node.children := by
  have others : "children" ∉ Layer.keys := by decide
  rw [childrenOf?_append fun entry member same => others (same ▸ Layer.key_mem member)]
  cases node with
  | text => rfl
  | container => exact below
  | shape => rfl

theorem ofJson?_of_children {node : Node α} (fresh : node.Fresh)
    (legible : ∀ x ∈ node.scalars, Legible x)
    (below : listOf? (jsons node.children) = some node.children) : ofJson? node.json = some node := by
  rw [json_eq, ofJson?, childrenOf?_own below, ofMembers?_json fresh.own legible]

mutual

/-- A tree is read from its value. -/
theorem ofJson?_json : (node : Node α) → node.Fresh → (∀ x ∈ node.scalars, Legible x) →
    ofJson? node.json = some node
  | .text _ _, fresh, legible => ofJson?_of_children fresh legible rfl
  | .container _ _ children, fresh, legible =>
    ofJson?_of_children fresh legible <| listOf?_jsons children (fun _ => fresh.below) fun x member =>
      legible x (List.mem_append_right _ (List.mem_append_left _ member))
  | .shape _ _, fresh, legible => ofJson?_of_children fresh legible rfl

theorem listOf?_jsons : (nodes : List (Node α)) → (∀ node ∈ nodes, node.Fresh) →
    (∀ x ∈ scalarsAll nodes, Legible x) → listOf? (jsons nodes) = some nodes
  | [], _, _ => rfl
  | node :: rest, fresh, legible => by
    obtain ⟨own, others⟩ := List.forall_mem_cons.mp fresh
    obtain ⟨first, later⟩ := List.forall_mem_append.mp legible
    rw [jsons, listOf?, ofJson?_json node own first, listOf?_jsons rest others later]

end

theorem numbers_eq (node : Node α) : node.json.numbers =
    Scalar.numbersOf node.layer.scalars ++ Json.numbersOfMembers node.ownMembers := by
  rw [json_eq, Json.numbers, Json.numbersOfMembers_append, Layer.numbers_members]
  rfl

mutual

/-- A file holds no numbers but those that its tree is measured in. -/
theorem numbers_json : (node : Node α) → node.json.numbers = Scalar.numbersOf node.scalars
  | .text layer content => by
    rw [numbers_eq, scalars, Scalar.numbersOf_append]
    exact congrArg _ content.numbers_members
  | .container layer props children => by
    rw [numbers_eq, scalars, Scalar.numbersOf_append, Scalar.numbersOf_append, ← numbers_jsons children]
    exact congrArg _ (props.numbers_members (jsons children))
  | .shape layer kind => by
    rw [numbers_eq, scalars]
    exact List.append_nil _

theorem numbers_jsons : (nodes : List (Node α)) →
    Json.numbersOfItems (jsons nodes) = Scalar.numbersOf (scalarsAll nodes)
  | [] => rfl
  | node :: rest => by
    rw [jsons, Json.numbersOfItems, numbers_json node, numbers_jsons rest, scalarsAll,
      Scalar.numbersOf_append]

end

theorem readsBack_json {node : Node α} (legible : ∀ x ∈ node.scalars, Legible x) :
    node.json.ReadsBack := by
  intro number member
  rw [numbers_json] at member
  obtain ⟨x, own, written⟩ := List.mem_flatMap.mp member
  obtain ⟨number', finite, back, _⟩ := legible x own
  rw [finite] at written
  rwa [List.mem_singleton.mp written]

theorem field_fileShape {key : String} (others : key ≠ "constraints" ∧ key ≠ "reactions") :
    fileShape.field key = .whole := by
  simp [fileShape, Json.Shape.field, others.1.symm, others.2.symm]

end Node

namespace Json

theorem Shape.field_only {keys : List String} {key : String} (listed : key ∈ keys) :
    (Shape.only keys).field key = .whole := by
  have found : ((keys.map fun known => (known, Shape.whole)).find? (·.1 == key)) = some (key, .whole) := by
    induction keys with
    | nil => cases listed
    | cons known rest ih =>
      by_cases own : known = key
      · simp [own]
      · have later : key ∈ rest := (List.mem_cons.mp listed).resolve_left (Ne.symm own)
        simpa [own] using ih later
  rw [only, field, found]
  rfl

theorem regardedItems_of {shape : Shape} {items : List Json}
    (each : ∀ item ∈ items, ∀ position, item.Regarded (shape.item position)) (position : Nat) :
    RegardedItems shape position items := by
  induction items generalizing position with
  | nil => trivial
  | cons item rest ih =>
    obtain ⟨own, others⟩ := List.forall_mem_cons.mp each
    exact ⟨own position, ih others _⟩

theorem regardedMembers_of {shape : Shape} {members : List (String × Json)}
    (each : ∀ entry ∈ members, entry.2.Regarded (shape.field entry.1)) : RegardedMembers shape members := by
  induction members with
  | nil => trivial
  | cons entry rest ih =>
    obtain ⟨own, others⟩ := List.forall_mem_cons.mp each
    exact ⟨own, ih others⟩

mutual

/-- A shape that is whole looks at all of a value. -/
theorem regarded_whole : (held : Json) → held.Regarded .whole
  | .null | .bool _ | .number _ | .string _ => rfl
  | .array items => ⟨rfl, regardedItems_whole 0 items⟩
  | .object members => ⟨rfl, regardedMembers_whole members⟩

theorem regardedItems_whole (position : Nat) : (items : List Json) → RegardedItems .whole position items
  | [] => trivial
  | item :: rest => ⟨regarded_whole item, regardedItems_whole (position + 1) rest⟩

theorem regardedMembers_whole : (members : List (String × Json)) → RegardedMembers .whole members
  | [] => trivial
  | (_, value) :: rest => ⟨regarded_whole value, regardedMembers_whole rest⟩

end

/-- A shape with the keys of an object looks at all of it. -/
theorem regarded_only {keys : List String} {members : List (String × Json)}
    (listed : ∀ entry ∈ members, entry.1 ∈ keys) : (object members).Regarded (.only keys) := by
  refine ⟨rfl, regardedMembers_of fun entry member => ?_⟩
  rw [Shape.field_only (listed entry member)]
  exact regarded_whole entry.2

end Json

theorem Constraints.regarded_json (constraints : Constraints) : constraints.json.Regarded (.only keys) :=
  Json.regarded_only (by simp [keys])

theorem Reaction.regarded_json (reaction : Reaction α) : reaction.json.Regarded
    (.record [("trigger", .whole), ("destinationId", .whole), ("transition", .only Transition.keys)]
      .ignored) := by
  refine ⟨rfl, Json.regarded_whole _, Json.regarded_whole _, ?_, trivial⟩
  cases reaction.transition with
  | none => rfl
  | some transition => exact Json.regarded_only (by simp [Transition.keys])

namespace Node

theorem regarded_layer {layer : Layer α} {entry : String × Json} (member : entry ∈ layer.members) :
    entry.2.Regarded (fileShape.field entry.1) := by
  obtain ⟨key, value⟩ := entry
  have distinct : (layer.members.map (·.1)).Nodup :=
    List.Nodup.sublist layer.keys_members (by decide)
  have held : layer.members.lookup key = some value := (lookup_eq_some_iff distinct).mpr member
  by_cases constraints : key = "constraints"
  · subst constraints
    obtain rfl : layer.constraints.json = value := Option.some.inj held
    exact Constraints.regarded_json _
  · by_cases reactions : key = "reactions"
    · subst reactions
      rw [layer.lookup_optional.1] at held
      split at held
      · cases held
      · obtain rfl := Option.some.inj held
        refine ⟨rfl, Json.regardedItems_of (fun item member position => ?_) 0⟩
        obtain ⟨reaction, _, rfl⟩ := List.mem_map.mp member
        exact reaction.regarded_json
    · rw [field_fileShape ⟨constraints, reactions⟩]
      exact Json.regarded_whole value

/-- All of a file is looked at: of constraints and reactions just the fields that they have, and of all else
everything. -/
theorem regarded_json (node : Node α) : node.json.Regarded fileShape := by
  rw [json_eq]
  refine ⟨rfl, Json.regardedMembers_of fun entry member => ?_⟩
  rcases List.mem_append.mp member with own | rest
  · exact regarded_layer own
  · have others : ∀ key ∈ "type" :: ownKeys, key ≠ "constraints" ∧ key ≠ "reactions" := by decide
    rw [field_fileShape (others _ (key_behind node rest))]
    exact Json.regarded_whole entry.2

/-- A tree is read from any text that spells its value, as far as its numbers are finite and written so that
they are read as themselves; so writing what was read writes the same text. -/
theorem parse_json {node : Node α} (fresh : node.Fresh) (legible : ∀ x ∈ node.scalars, Legible x)
    (shallow : node.json.depth ≤ Json.Reader.depthLimit) :
    (∀ text : String, Json.Spells node.json text.toList → parse text = some node) ∧
      parse node.json.compact = some node ∧ parse node.json.pretty = some node ∧
      (parse (α := α) node.json.compact).map (·.json.compact) = some node.json.compact ∧
      (parse (α := α) node.json.pretty).map (·.json.pretty) = some node.json.pretty := by
  have reads : ∀ text : String, Json.Spells node.json text.toList → parse text = some node := by
    intro text spells
    have read : Json.Reader.read fileShape text = some node.json :=
      Json.readWithin_of_spells spells node.regarded_json shallow (readsBack_json legible)
    rw [parse, read]
    exact ofJson?_json node fresh legible
  have compact := reads _ (Json.spells_compact node.json)
  have pretty : parse node.json.pretty = some node := reads _ (Json.spells_prettyAt 0 node.json)
  exact ⟨reads, compact, pretty, congrArg _ compact, congrArg _ pretty⟩

end Node

/-! A leaflet, with a line of text and an emblem in a group. -/

def ink : Color Float := ⟨0.1, 0.2, 0.3, 1⟩

def headline : Node Float :=
  .text { Layer.plain "1" "He\"ad\nline" ⟨8, -0.5, 30, 14⟩ with
    visible := false
    fills := [.solid ⟨true, 1, ink⟩, .unsupported]
    effects := [.layerBlur ⟨false, 4⟩, .unsupported]
    sizingHorizontal := .hug }
    ⟨"Grüße \t😀", { TextStyle.default with lineHeight := some 16.5, textCase := .title }⟩

def emblem : Node Float :=
  .shape { Layer.plain "2" "" ⟨0, 20, 1e16, 1e-7⟩ with
    rotation := -45
    corners := .each 1 2 0 0.25
    fills := [.gradient .angular ⟨true, 0.5, [⟨0, ink⟩, ⟨1, .black⟩], [⟨0, 0.5⟩]⟩]
    strokes := [.image ⟨true, 1, some "rose", none⟩]
    effects := [.dropShadow ⟨true, ink, ⟨1, -1⟩, 3, 0⟩, .backgroundBlur ⟨true, 2⟩]
    constraints := ⟨.center, .scale⟩
    reactions := [⟨.onDrag, some "0", some ⟨"DISSOLVE", 300, .gentle⟩⟩, ⟨.other, none, none⟩]
    contentHash := some "rose" } .star

def leaflet : Node Float :=
  .container (Layer.plain "0" "leaflet" ⟨-0.0, 0, 40, 60⟩)
    ⟨.componentInstance, some ⟨.vertical, 4, 1, 2, 3, 4, .spaceBetween, .baseline, true⟩, true⟩
    [headline, .container (Layer.plain "3" "group" ⟨0, 0, 40, 20⟩) ⟨.group, none, false⟩ [emblem]]

theorem Node.parse_leaflet : leaflet.Fresh ∧ (∀ x ∈ leaflet.scalars, Legible x) ∧
    leaflet.json.depth ≤ Json.Reader.depthLimit ∧ parse leaflet.json.compact = some leaflet ∧
    parse leaflet.json.pretty = some leaflet := by
  have fresh : leaflet.Fresh := by
    simp [Fresh, leaflet, headline, emblem, preorder, preorders, layer, Layer.plain]
  have legible : ∀ x ∈ leaflet.scalars, Legible x := by decide +kernel
  have shallow : leaflet.json.depth ≤ Json.Reader.depthLimit := by decide +kernel
  obtain ⟨_, compact, pretty, _⟩ := parse_json fresh legible shallow
  exact ⟨fresh, legible, shallow, compact, pretty⟩

end DesignCompiler
