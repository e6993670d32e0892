import DesignCompiler.Proofs.Recognition
import DesignCompiler.Proofs.Writing
import DesignCompiler.Scalar.Double

/-!
What a fingerprint stands for: nodes have the same one just if they have the same gist, which holds what is
to be seen of a node itself, the hashes of its pictures and the names of its children.
-/
namespace DesignCompiler

variable {α ν : Type} [Scalar α]

namespace Json

theorem alikeItems_of_compact {items others : List Json} (same : items.map compact = others.map compact) :
    AlikeItems items others := by
  induction items generalizing others with
  | nil =>
    rw [List.map_eq_nil_iff.mp same.symm]
    trivial
  | cons item rest ih =>
    cases others with
    | nil => cases same
    | cons other others =>
      obtain ⟨here, later⟩ := List.cons.inj same
      exact ⟨alike_of_compact here, ih later⟩

theorem alikeMembers_of_compact {members others : List (String × Json)}
    (same : members.map (fun entry => (entry.1, entry.2.compact)) =
      others.map fun entry => (entry.1, entry.2.compact)) : AlikeMembers members others := by
  induction members generalizing others with
  | nil =>
    rw [List.map_eq_nil_iff.mp same.symm]
    trivial
  | cons entry rest ih =>
    cases others with
    | nil => cases same
    | cons other others =>
      obtain ⟨here, later⟩ := List.cons.inj same
      obtain ⟨keys, texts⟩ := Prod.mk.inj here
      exact ⟨keys, alike_of_compact texts, ih later⟩

theorem canonical_array {items others : List Json} (same : items.map canonical = others.map canonical) :
    (array items).canonical = (array others).canonical := by
  have texts : (sortedItems items).map compact = (sortedItems others).map compact := by
    rw [sortedItems_eq, sortedItems_eq, List.map_map, List.map_map]
    exact same
  exact compact_of_alike (.array (sortedItems items)) (.array (sortedItems others))
    (alikeItems_of_compact texts)

/-- An object is written from what is written for its members. -/
theorem canonical_object {members others : List (String × Json)}
    (same : members.map (fun entry => (entry.1, entry.2.canonical)) =
      others.map fun entry => (entry.1, entry.2.canonical)) :
    (object members).canonical = (object others).canonical := by
  have texts : ∀ members : List (String × Json), (sortMembers (sortedMembers members)).map
      (fun entry => (entry.1, entry.2.compact)) =
        (members.map fun entry => (entry.1, entry.2.canonical)).mergeSort
          fun a b => decide (a.1 ≤ b.1) := by
    intro members
    rw [sortMembers, List.map_mergeSort (s := fun a b : String × String => decide (a.1 ≤ b.1))
      (fun _ _ _ _ => rfl), sortedMembers_eq, List.map_map]
    rfl
  refine compact_of_alike (.object (sortMembers (sortedMembers members)))
    (.object (sortMembers (sortedMembers others))) (alikeMembers_of_compact ?_)
  rw [texts, texts, same]

/-- Lists of parts with the same views are written alike, if parts with the same view are. -/
theorem canonical_of_map {β γ : Type} {json : β → Json} {view : β → γ}
    (each : ∀ one other, view one = view other → (json one).canonical = (json other).canonical)
    {list others : List β} (same : list.map view = others.map view) :
    (array (list.map json)).canonical = (array (others.map json)).canonical := by
  refine canonical_array ?_
  rw [List.map_map, List.map_map]
  induction list generalizing others with
  | nil => rw [List.map_eq_nil_iff.mp same.symm]
  | cons first rest ih =>
    cases others with
    | nil => cases same
    | cons other others =>
      obtain ⟨here, later⟩ := List.cons.inj same
      rw [List.map_cons, List.map_cons, ih later]
      exact congrArg (· :: _) (each _ _ here)

end Json

open Scalar (written canonical_json)

theorem Color.canonical_of_map {color other : Color α} (same : color.map written = other.map written) :
    color.json.canonical = other.json.canonical := by
  simp only [map, Color.mk.injEq] at same
  obtain ⟨r, g, b, a⟩ := same
  exact Json.canonical_object (by simp [canonical_json, r, g, b, a])

theorem Point.canonical_of_map {point other : Point α} (same : point.map written = other.map written) :
    point.json.canonical = other.json.canonical := by
  simp only [map, Point.mk.injEq] at same
  obtain ⟨x, y⟩ := same
  exact Json.canonical_object (by simp [canonical_json, x, y])

theorem Corners.canonical_of_map {corners other : Corners α}
    (same : corners.map written = other.map written) : corners.json.canonical = other.json.canonical := by
  cases corners with
  | uniform radius =>
    cases other with
    | uniform radius' =>
      simp only [map, Corners.uniform.injEq] at same
      rw [json, json, canonical_json, canonical_json, same]
    | each => cases same
  | each a b c d =>
    cases other with
    | uniform => cases same
    | each a' b' c' d' =>
      simp only [map, Corners.each.injEq] at same
      obtain ⟨first, second, third, fourth⟩ := same
      exact Json.canonical_array (by simp [canonical_json, first, second, third, fourth])

theorem Effect.canonical_of_map {effect other : Effect α}
    (same : effect.map written = other.map written) : effect.json.canonical = other.json.canonical := by
  have shadows : ∀ {tag : String} {shadow other : ShadowEffect α}, shadow.map written = other.map written →
      (Json.object (("type", .string tag) :: shadowMembers shadow)).canonical =
        (Json.object (("type", .string tag) :: shadowMembers other)).canonical := by
    intro tag shadow other same
    simp only [ShadowEffect.map, ShadowEffect.mk.injEq] at same
    obtain ⟨visible, color, offset, radius, spread⟩ := same
    exact Json.canonical_object (by simp [shadowMembers, canonical_json, visible,
      Color.canonical_of_map color, Point.canonical_of_map offset, radius, spread])
  have blurs : ∀ {tag : String} {blur other : BlurEffect α}, blur.map written = other.map written →
      (Json.object (("type", .string tag) :: blurMembers blur)).canonical =
        (Json.object (("type", .string tag) :: blurMembers other)).canonical := by
    intro tag blur other same
    simp only [BlurEffect.map, BlurEffect.mk.injEq] at same
    obtain ⟨visible, radius⟩ := same
    exact Json.canonical_object (by simp [blurMembers, canonical_json, visible, radius])
  cases effect <;> cases other <;> first | cases same; done | skip
  case dropShadow.dropShadow => exact shadows (dropShadow.inj same)
  case innerShadow.innerShadow => exact shadows (innerShadow.inj same)
  case layerBlur.layerBlur => exact blurs (layerBlur.inj same)
  case backgroundBlur.backgroundBlur => exact blurs (backgroundBlur.inj same)
  case unsupported.unsupported => rfl

/-- What is kept of a paint: its shape as a gradient and its opacity are not. -/
inductive PaintGist (ν : Type) where
  | solid (color : String) (alpha : ν)
  /-- Positions, colors and alphas. -/
  | gradient (stops : List (ν × String × ν))
  | image (hash : Option String)
  | other

/-- What a fingerprint keeps of a node. -/
structure Gist (ν : Type) where
  name : String
  width : ν
  height : ν
  fills : List (PaintGist ν)
  strokes : List (PaintGist ν)
  strokeWeight : ν
  effects : List (Effect ν)
  opacity : ν
  corners : Corners ν
  characters : Option String
  raster : Option String
  background : Option String
  childNames : List String

/-- A solid paint takes its opacity into the color. -/
def Paint.gist (read : α → ν) : Paint α → PaintGist ν
  | .solid paint => .solid paint.color.hex (read (Scalar.hundredths (paint.color.a * paint.opacity)))
  | .gradient _ paint => .gradient (paint.stops.map fun stop =>
      (read (Scalar.hundredths stop.position), stop.color.hex, read (Scalar.hundredths stop.color.a)))
  | .image paint => .image paint.imageHash
  | .unsupported => .other

/-- Numbers are taken by a reading, and measures of the node to the hundredth. What is hidden does not
count, and of the children that are live just the names do. -/
def Node.gist (read : α → ν) (node : Node α) : Gist ν where
  name := node.layer.name
  width := read (Scalar.hundredths node.layer.width)
  height := read (Scalar.hundredths node.layer.height)
  fills := node.layer.visibleFills.map (Paint.gist read)
  strokes := (node.layer.strokes.filter Paint.isVisible).map (Paint.gist read)
  strokeWeight := read (Scalar.hundredths node.layer.strokeWeight)
  effects := (node.layer.effects.filter Effect.isVisible).map (Effect.map read)
  opacity := read (Scalar.hundredths node.layer.opacity)
  corners := node.layer.corners.map read
  characters := node.content?.map (·.characters)
  raster := node.layer.annotations.raster.map (·.hash)
  background := node.layer.annotations.background.map (·.hash)
  childNames := node.liveChildren.map (·.layer.name)

/-- A picture before it has its asset. -/
def Picture.unfilled (picture : Picture) : Picture := { picture with asset := none }

/-- A layer without all that its fingerprint does not show: its id and place, what it answers to, the assets
of its pictures and everything hidden about it. -/
def Layer.bare (layer : Layer α) : Layer α :=
  { Layer.plain "" layer.name ⟨0, 0, layer.width, layer.height⟩ with
    corners := layer.corners
    fills := layer.visibleFills
    strokes := layer.strokes.filter Paint.isVisible
    strokeWeight := layer.strokeWeight
    effects := layer.effects.filter Effect.isVisible
    opacity := layer.opacity
    annotations := { Annotations.none with
      raster := layer.annotations.raster.map Picture.unfilled
      background := layer.annotations.background.map Picture.unfilled } }

/-- A shape of which there is nothing to know but the name. -/
def Node.named (name : String) : Node α := .shape (Layer.plain "" name ⟨0, 0, 0, 0⟩) .rectangle

/-- A node without all that its fingerprint does not show: live children are left by name. -/
def Node.bare : Node α → Node α
  | .text layer content => .text layer.bare ⟨content.characters, .default⟩
  | .container layer _ children => .container layer.bare ⟨.frame, none, false⟩
      ((children.filter isLive).map fun child => named child.layer.name)
  | .shape layer _ => .shape layer.bare .rectangle

/-- A stop as it is written in the summary of a gradient. -/
def ColorStop.summary (stop : ColorStop α) : Json :=
  .array [Scalar.json (Scalar.hundredths stop.position), .string stop.color.hex,
    Scalar.json (Scalar.hundredths stop.color.a)]

/-- A stop as it is kept. -/
def ColorStop.gist (read : α → ν) (stop : ColorStop α) : ν × String × ν :=
  (read (Scalar.hundredths stop.position), stop.color.hex, read (Scalar.hundredths stop.color.a))

theorem ColorStop.canonical_summary_iff {stop other : ColorStop α} :
    stop.summary.canonical = other.summary.canonical ↔ stop.gist written = other.gist written := by
  constructor
  · intro same
    have items := Json.canonical_items same
    simp only [List.map_cons, canonical_json, List.cons.injEq] at items
    obtain ⟨position, color, alpha, _⟩ := items
    rw [gist, gist, position, Json.canonical_text color, alpha]
  · intro same
    simp only [gist, Prod.mk.injEq] at same
    obtain ⟨position, color, alpha⟩ := same
    exact Json.canonical_array (by simp [canonical_json, position, color, alpha])

theorem Paint.gist_of_canonical {paint other : Paint α}
    (same : paint.summary.canonical = other.summary.canonical) :
    paint.gist written = other.gist written := by
  cases paint <;> cases other <;>
    first | exact absurd (Json.canonical_tag same (by simp) (by simp)) (by decide) | skip
  case solid.solid paint other =>
    have fields := Json.canonical_fields same rfl (by simp)
    simp only [List.map_cons, canonical_json, List.cons.injEq] at fields
    obtain ⟨_, color, alpha, _⟩ := fields
    rw [gist, gist, Json.canonical_text color, alpha]
  case gradient.gradient shape paint shape' other =>
    have fields := Json.canonical_fields same rfl (by simp)
    simp only [List.map_cons, List.cons.injEq] at fields
    have stops : (Json.array (paint.stops.map ColorStop.summary)).canonical =
      (Json.array (other.stops.map ColorStop.summary)).canonical := fields.2.1
    exact congrArg PaintGist.gradient
      (Json.map_of_canonical (fun _ _ => ColorStop.canonical_summary_iff.mp) stops)
  case image.image paint other =>
    have fields := Json.canonical_fields same rfl (by simp)
    simp only [List.map_cons, List.cons.injEq] at fields
    rw [gist, gist, Json.canonical_ofText? fields.2.1]
  case unsupported.unsupported => rfl

theorem Paint.canonical_of_gist {paint other : Paint α}
    (same : paint.gist written = other.gist written) :
    paint.summary.canonical = other.summary.canonical := by
  cases paint <;> cases other <;> simp only [gist, reduceCtorEq] at same
  case solid.solid paint other =>
    simp only [PaintGist.solid.injEq] at same
    exact Json.canonical_object (by simp [canonical_json, same.1, same.2])
  case gradient.gradient shape paint shape' other =>
    have stops : (Json.array (paint.stops.map ColorStop.summary)).canonical =
        (Json.array (other.stops.map ColorStop.summary)).canonical :=
      Json.canonical_of_map (fun _ _ => ColorStop.canonical_summary_iff.mpr)
        (PaintGist.gradient.inj same)
    exact Json.canonical_object (List.cons_eq_cons.mpr ⟨rfl, List.cons_eq_cons.mpr
      ⟨Prod.ext rfl stops, rfl⟩⟩)
  case image.image paint other =>
    rw [summary, summary, PaintGist.image.inj same]
  case unsupported.unsupported => rfl

namespace Node

theorem gist_of_canonical {node other : Node α} (same : node.facts.canonical = other.facts.canonical) :
    node.gist written = other.gist written := by
  obtain ⟨raster, background⟩ := hashes_of_canonical same
  rw [facts_eq, facts_eq] at same
  have at_key := Json.canonical_member same node.nodup_factMembers other.nodup_factMembers
  have name := at_key "name"
  have width := at_key "width"
  have height := at_key "height"
  have fills := at_key "fills"
  have strokes := at_key "strokes"
  have weight := at_key "strokeWeight"
  have effects := at_key "effects"
  have opacity := at_key "opacity"
  have corners := at_key "cornerRadius"
  have text := at_key "text"
  have children := at_key "childNames"
  simp only [factMembers, facts, List.cons_append, List.nil_append, List.append_assoc, lookup_cons_eq,
    String.reduceEq, ↓reduceIte, List.lookup_append, Json.lookup_member?, List.lookup_nil,
    Option.none_or, Option.or_none, Option.map_map, Option.map_some, Option.some.injEq, canonical_json]
    at name width height fills strokes weight effects opacity corners text children
  have characters : node.content?.map (·.characters) = other.content?.map (·.characters) :=
    Json.option_of_canonical (fun _ _ => Json.canonical_text) text
  have names : (node.liveChildren.map (·.layer.name)).map id =
      (other.liveChildren.map (·.layer.name)).map id :=
    Json.map_of_canonical (fun _ _ => Json.canonical_text) children
  rw [List.map_id, List.map_id] at names
  simp only [gist, Json.canonical_text name, width, height,
    Json.map_of_canonical (fun _ _ => Paint.gist_of_canonical) fills,
    Json.map_of_canonical (fun _ _ => Paint.gist_of_canonical) strokes, weight,
    Json.map_of_canonical (fun _ _ => Effect.map_of_canonical fun _ _ same => same) effects, opacity,
    Corners.map_of_canonical (fun _ _ same => same) corners, characters, raster, background, names]

theorem canonical_of_gist {node other : Node α} (same : node.gist written = other.gist written) :
    node.facts.canonical = other.facts.canonical := by
  simp only [gist, Gist.mk.injEq] at same
  obtain ⟨name, width, height, fills, strokes, weight, effects, opacity, corners, text, raster,
    background, children⟩ := same
  have told : ∀ {β : Type} {one two : Option β} {view : β → String}, one.map view = two.map view →
      one.map (fun held => Json.string (view held)) = two.map fun held => Json.string (view held) := by
    intro β one two view same
    simpa [Function.comp_def] using congrArg (Option.map Json.string) same
  have count : node.liveChildren.length = other.liveChildren.length := by
    simpa using congrArg List.length children
  refine Json.canonical_object ?_
  simp only [List.map_append, List.map_cons, List.map_nil, canonical_json, name, width, height,
    Json.canonical_of_map (fun _ _ => Paint.canonical_of_gist) fills,
    Json.canonical_of_map (fun _ _ => Paint.canonical_of_gist) strokes, weight,
    Json.canonical_of_map (fun _ _ => Effect.canonical_of_map) effects, opacity,
    Corners.canonical_of_map corners, told text, told raster, told background, count, children]

end Node

theorem Node.gist_bare (read : α → ν) (node : Node α) : node.bare.gist read = node.gist read := by
  have layer : node.bare.layer = node.layer.bare := by cases node <;> rfl
  have text : node.bare.content?.map (·.characters) = node.content?.map (·.characters) := by
    cases node <;> rfl
  have names : node.bare.liveChildren.map (·.layer.name) = node.liveChildren.map (·.layer.name) := by
    cases node with
    | container layer props children =>
      have live : ∀ child ∈ (children.filter isLive).map fun child => (named child.layer.name : Node α),
          child.isLive = true := by
        intro child listed
        obtain ⟨_, _, rfl⟩ := List.mem_map.mp listed
        rfl
      rw [bare, liveChildren, Node.children, List.filter_eq_self.mpr live, List.map_map]
      rfl
    | text => rfl
    | shape => rfl
  rw [gist, gist, layer, text, names]
  simp only [Layer.bare, Layer.plain, Layer.visibleFills, List.filter_filter, Bool.and_self,
    Option.map_map]
  rfl

/-- Nodes have the same fingerprint just if they have the same gist, as long as the digest keeps apart what
it is made from; whatever does not show in a fingerprint may be taken away. -/
theorem Node.fingerprint_eq_iff {node other : Node α} (apart : KeepsApart [node] [other]) :
    (node.fingerprint = other.fingerprint ↔ node.gist written = other.gist written) ∧
      node.bare.fingerprint = node.fingerprint := by
  refine ⟨⟨fun same => gist_of_canonical ?_, fun same => ?_⟩, ?_⟩
  · exact apart node (List.mem_singleton_self _) other (List.mem_singleton_self _) same
  · exact congrArg Sha256.hexOfText (canonical_of_gist same)
  · exact congrArg Sha256.hexOfText (canonical_of_gist (gist_bare written node))

/-! A card with a picture, before and after it was moved and its picture has an asset. -/

/-- A card with something hidden in it and something in its inner frame. -/
def card (id : String) (x : Float) (asset : Option String) (hidden : List (Paint Float))
    (deeper : List (Node Float)) : Node Float :=
  .container { Layer.plain id "card" ⟨x, x, 40, 20⟩ with
      fills := .solid ⟨true, 0.5, .black⟩ :: hidden
      reactions := [⟨.onClick, some id, none⟩]
      annotations := { Annotations.none with background := some ⟨"rose", asset⟩ } }
    ⟨.frame, none, false⟩
    [.container (Layer.plain (id ++ "a") "inner" ⟨x, 0, 10, 10⟩) ⟨.group, none, false⟩ deeper,
      .text { Layer.plain (id ++ "b") "note" ⟨0, 0, 10, 10⟩ with visible := false } ⟨id, .default⟩]

theorem card_moved :
    (card "1" 0 none [] []).fingerprint =
      (card "2" 8 (some "101") [.solid ⟨false, 1, .white⟩] [card "3" 1 none [] []]).fingerprint := by
  have same : (card "1" 0 none [] []).gist written =
    (card "2" 8 (some "101") [.solid ⟨false, 1, .white⟩] [card "3" 1 none [] []]).gist written := rfl
  refine (Node.fingerprint_eq_iff ?_).1.mpr same
  intro node listed other listed' _
  rw [List.mem_singleton.mp listed, List.mem_singleton.mp listed']
  exact Node.canonical_of_gist same

end DesignCompiler
