import DesignCompiler.Proofs.Bounds
import DesignCompiler.Proofs.Furnishing

/-!
The rectangles that the instances of an arena take up on a screen, each in that of its parent. A
geometry is read off the properties that were set, and no other property of a node gets in its way.
-/
namespace DesignCompiler

section Reading

variable {α : Type}

/-- The geometry that some properties place an instance by. -/
def Properties.placement? (properties : Properties α) : Option (Geometry α) :=
  match properties.lookup "Position", properties.lookup "Size", properties.lookup "AnchorPoint" with
  | some (.udim2 position), some (.udim2 size), some (.vector2 anchor) => some ⟨position, size, anchor⟩
  | _, _, _ => none

/-- None of some changes sets a position, a size or an anchor. -/
def Unplaced (changes : List (String × Property α)) : Prop :=
  ∀ key ∈ ["Position", "Size", "AnchorPoint"], key ∉ changes.map (·.1)

theorem unplaced_append {front back : List (String × Property α)} (one : Unplaced front)
    (other : Unplaced back) : Unplaced (front ++ back) := by
  intro key member
  rw [List.map_append, List.mem_append, not_or]
  exact ⟨one key member, other key member⟩

theorem Properties.placement?_append (front : List (String × Property α))
    {back : List (String × Property α)} (unplaced : Unplaced back) :
    placement? (setAll [] (front ++ back)) = placement? (setAll [] front) := by
  have kept : ∀ key ∈ ["Position", "Size", "AnchorPoint"],
      (setAll [] (front ++ back)).lookup key = (setAll [] front).lookup key := by
    intro key member
    rw [setAll_append, lookup_setAll (unplaced key member)]
  rw [placement?, kept "Position" (by simp), kept "Size" (by simp), kept "AnchorPoint" (by simp)]
  rfl

end Reading

namespace Assembly

variable {α : Type} [Scalar α] {rules : RuleSet}

theorem unplaced_transparency (opacity : α) : Unplaced (imageTransparency opacity) := by
  rw [imageTransparency]
  split <;> simp [Unplaced]

theorem unplaced_painting (config : TextConfig) (node : Node α) :
    Unplaced (painting rules config node).1 := by
  have others : ∀ key ∈ ["Position", "Size", "AnchorPoint"], key ∉ paintKeys := by decide
  exact fun key member painted => others key member (keys_painting config node painted)

theorem placement?_node (config : TextConfig) (slot : Slot α) (node : Node α) :
    Properties.placement? (Properties.setAll [] (nodeProperties rules config slot node)) =
      some (nodeGeometry rules node slot).1 := by
  rw [nodeProperties, frameProperties]
  simp only [List.append_assoc]
  rw [Properties.placement?_append]
  · rfl
  · refine unplaced_append (by simp [Unplaced]) (unplaced_append ?_ (unplaced_append ?_
      (unplaced_append (by simp [Unplaced]) (unplaced_append (unplaced_painting config node) ?_))))
    · split <;> simp [Unplaced]
    · split <;> simp [Unplaced]
    · split <;> simp [Unplaced]

theorem placement?_shadow (layer : Layer α) (geometry : Geometry α) (zIndex : Int) (url : String) :
    Properties.placement? (shadowItem layer geometry zIndex url).properties = some geometry := by
  rw [shadowItem, Decoration.leaf, Item.properties, List.append_assoc, Properties.placement?_append]
  · rfl
  · refine unplaced_append (by simp [Unplaced]) ?_
    split <;> simp [Unplaced]

/-- Where the picture under the children of a container stands: it takes up the render bounds, unless
it is that of the root. -/
def underlayGeometry (layer : Layer α) (isRoot : Bool) : Geometry α :=
  match layer.annotations.renderBounds with
  | some bounds =>
    if isRoot then .full
    else ⟨.pixels bounds.x bounds.y, .pixels bounds.width bounds.height, .zero⟩
  | none => .full

theorem placement?_underlay (layer : Layer α) (isRoot : Bool) (url : String) :
    Properties.placement? (underlayItem layer isRoot url).properties =
      some (underlayGeometry layer isRoot) := by
  rw [underlayItem, underlayGeometry, Decoration.leaf, Item.properties, List.append_assoc,
    Properties.placement?_append]
  · cases layer.annotations.renderBounds with
    | none => rfl
    | some bounds => cases isRoot <;> rfl
  · exact unplaced_append (by simp [Unplaced]) (unplaced_transparency _)

end Assembly

/-- The rectangle that a picture of a layer takes up: the render bounds, if there are any, counted from
the corner of the layer. -/
def Layer.pictured (layer : Layer Rat) (box : Rect Rat) : Rect Rat :=
  match layer.annotations.renderBounds with
  | some bounds => bounds.within box
  | none => box

namespace Assembly

variable {rules : RuleSet} {outer : Rect Rat}

theorem box_ghost (layer : Layer Rat) (bounds : Rect Rat) :
    (ghost layer bounds).box.within outer = bounds.within (layer.box.within outer) :=
  Rect.within_within bounds layer.box outer

section Free

variable {frame : ParentFrame Rat} (noFlow : frame.flow = false) (width : frame.width = outer.width)
  (height : frame.height = outer.height)

include noFlow width height

/-- A node other than the root takes up its own rectangle, or that of its picture. -/
theorem part_node {slot : Slot Rat} (same : slot.frame = frame) (low : slot.isRoot = false)
    (node : Node Rat) :
    outer.part (nodeGeometry rules node slot).1 =
      if (node.classify rules).needsRaster then node.layer.pictured (node.layer.box.within outer)
      else node.layer.box.within outer := by
  subst same
  rw [nodeGeometry, low, Geometry.part_place rules _ noFlow width height, placedLayer, Layer.pictured, low,
    noFlow]
  cases node.layer.annotations.renderBounds with
  | none => simp
  | some bounds => cases (node.classify rules).needsRaster <;> simp [box_ghost]

/-- A shadow takes up the rectangle of a picture of its node. -/
theorem part_shadow (layer : Layer Rat) :
    outer.part (shadowGeometry rules layer frame).1 = layer.pictured (layer.box.within outer) := by
  rw [shadowGeometry, Geometry.part_place rules _ noFlow width height, box_ghost, Layer.pictured]
  cases layer.annotations.renderBounds with
  | none => exact Rect.within_corner (layer.box.within outer)
  | some bounds => rfl

end Free

/-- The root takes up its own rectangle in the middle of the screen, whether it is a picture or not. -/
theorem part_rootNode {slot : Slot Rat} (top : slot.isRoot = true) (node : Node Rat) :
    outer.part (nodeGeometry rules node slot).1 = node.layer.centered outer := by
  have own : placedLayer node.layer (node.classify rules).needsRaster slot = node.layer := by
    rw [placedLayer, top]
    split <;> simp
  rw [nodeGeometry, own, top, Geometry.part_root]

/-- The picture under the children of a container takes up the rectangle of a picture of it, and that of
the root just the box of the root. -/
theorem part_underlay (layer : Layer Rat) (isRoot : Bool) (box : Rect Rat) :
    box.part (underlayGeometry layer isRoot) = if isRoot then box else layer.pictured box := by
  rw [underlayGeometry, Layer.pictured]
  cases layer.annotations.renderBounds with
  | none => simp [Geometry.part_full]
  | some bounds =>
    cases isRoot with
    | true => simp [Geometry.part_full]
    | false => simp [Geometry.part_pixels]

end Assembly

namespace Arena

/-- The rectangle that an instance takes up in that of its parent. An instance without a parent takes
up the screen. -/
def rect? (arena : Arena Rat) (screen : Rect Rat) (position : Nat) : Option (Rect Rat) := do
  let inst ← arena.get? position
  match inst.parent with
  | none => return screen
  | some high =>
    if _behind : high < position then
      let outer ← rect? arena screen high
      return outer.part (← Properties.placement? inst.properties)
    else none
termination_by position

end Arena

namespace Drawn

/-- The arena that an item makes. -/
abbrev arena {α : Type} (drawn : Drawn α) : Arena α := Arena.empty.plant none drawn.item

mutual

theorem behind_entries {α : Type} {entry : Entry α} (own : Nat) (above : List (Nat × Origin))
    (behind : ∀ host ∈ above, host.1 < own) : (drawn : Drawn α) → entry ∈ drawn.entries own above →
    own ≤ entry.position ∧ ∀ host ∈ entry.above, host.1 < entry.position
  | mk origin className name properties children, member => by
    rw [entries] at member
    rcases List.mem_cons.mp member with rfl | inside
    · exact ⟨Nat.le_refl _, behind⟩
    · have deeper : ∀ host ∈ (own, origin) :: above, host.1 < own + 1 := by
        intro host lies
        rcases List.mem_cons.mp lies with rfl | lies
        · exact Nat.lt_succ_self _
        · exact Nat.lt_succ_of_lt (behind host lies)
      obtain ⟨further, all⟩ := behind_entriesAll (own + 1) ((own, origin) :: above) deeper children inside
      exact ⟨Nat.le_of_succ_le further, all⟩

theorem behind_entriesAll {α : Type} {entry : Entry α} (own : Nat) (above : List (Nat × Origin))
    (behind : ∀ host ∈ above, host.1 < own) : (drawns : List (Drawn α)) →
    entry ∈ entriesAll own above drawns →
    own ≤ entry.position ∧ ∀ host ∈ entry.above, host.1 < entry.position
  | [], member => by simp [entriesAll] at member
  | drawn :: rest, member => by
    rw [entriesAll] at member
    rcases List.mem_append.mp member with inside | later
    · exact behind_entries own above behind drawn inside
    · obtain ⟨further, all⟩ := behind_entriesAll (own + drawn.size) above
        (fun host lies => Nat.lt_add_right _ (behind host lies)) rest later
      exact ⟨Nat.le_trans (Nat.le_add_right _ _) further, all⟩

end

end Drawn

namespace Arena

variable {drawn : Drawn Rat} {entry : Entry Rat} {screen : Rect Rat}

theorem rect?_top (member : entry ∈ drawn.entries 0 []) (top : entry.above = []) :
    drawn.arena.rect? screen entry.position = some screen := by
  have found : drawn.arena.get? entry.position = some entry.row :=
    get?_plant.mpr ⟨entry, member, rfl, rfl⟩
  have parent : entry.row.parent = none := by simp [Entry.row, top]
  rw [rect?, found]
  simp [parent]

/-- An entry takes up the part of the rectangle of the one directly above it that its geometry says. -/
theorem rect?_entry {high : Nat} {origin : Origin} {above : List (Nat × Origin)}
    {outer : Rect Rat} {geometry : Geometry Rat} (member : entry ∈ drawn.entries 0 [])
    (lies : entry.above = (high, origin) :: above)
    (known : drawn.arena.rect? screen high = some outer)
    (placed : Properties.placement? entry.row.properties = some geometry) :
    drawn.arena.rect? screen entry.position = some (outer.part geometry) := by
  have found : drawn.arena.get? entry.position = some entry.row :=
    get?_plant.mpr ⟨entry, member, rfl, rfl⟩
  have parent : entry.row.parent = some high := by simp [Entry.row, lies]
  have behind : high < entry.position :=
    (Drawn.behind_entries 0 [] (by simp) drawn member).2 (high, origin) (by simp [lies])
  rw [rect?, found]
  simp [parent, behind, known, placed]

end Arena
end DesignCompiler
