import DesignCompiler.Proofs.Drawing

/-!
What stands around the paint of a node and shows no picture: modifiers, the records of its reactions and
its click target.
-/
namespace DesignCompiler

variable {α : Type} [Scalar α] {rules : RuleSet}

namespace Assembly

open Decoration (leaf)

/-- The classes that only modify the instance they lie in. -/
def modifiers : List String := ["UICorner", "UIStroke", "UIGradient", "UIListLayout", "UIPadding"]

/-- What a modifier, a record or a click target can set. -/
def furnishingKeys : List String :=
  ["CornerRadius", "Thickness", "Color", "ApplyStrokeMode", "Transparency", "Rotation", "FillDirection",
    "HorizontalAlignment", "VerticalAlignment", "SortOrder", "Padding", "Wraps", "PaddingLeft",
    "PaddingRight", "PaddingTop", "PaddingBottom", "Value", "Position", "Size", "AnchorPoint",
    "BackgroundTransparency", "BorderSizePixel", "Text", "AutoButtonColor", "ZIndex"]

/-- A leaf that helps a node and shows no picture. -/
inductive Furnishing : Item α → Prop where
  | modifier {kind name : String} {changes : List (String × Property α)} (known : kind ∈ modifiers)
      (keys : changes.map (·.1) ⊆ furnishingKeys) : Furnishing (leaf kind name changes)
  | record (text : String) : Furnishing (leaf "StringValue" "Interaction" [("Value", .string text)])
  | target (zIndex : Int) : Furnishing (Decoration.clickTarget zIndex)

theorem Furnishing.children {item : Item α} (furnishing : Furnishing item) : item.children = [] := by
  cases furnishing <;> rfl

theorem Furnishing.keys {item : Item α} (furnishing : Furnishing item) :
    item.properties.map (·.1) ⊆ furnishingKeys := by
  have leaves : ∀ (kind name : String) (changes : List (String × Property α)),
      changes.map (·.1) ⊆ furnishingKeys →
      (leaf kind name changes).properties.map (·.1) ⊆ furnishingKeys := by
    intro kind name changes keys key member
    rw [leaf, Item.properties, Properties.mem_keys_setAll] at member
    exact keys (by simpa using member)
  cases furnishing with
  | modifier known keys => exact leaves _ _ _ keys
  | record text => exact leaves _ _ _ (by simp [furnishingKeys])
  | target zIndex =>
    exact leaves _ _ _ (by simp [Decoration.fillParent, Decoration.placement, furnishingKeys])

theorem Furnishing.imageless {item : Item α} (furnishing : Furnishing item) :
    "Image" ∉ item.properties.map (·.1) :=
  fun member => absurd (furnishing.keys member) (by decide)

theorem Furnishing.unordered {item : Item α} (furnishing : Furnishing item) :
    "LayoutOrder" ∉ item.properties.map (·.1) :=
  fun member => absurd (furnishing.keys member) (by decide)

theorem furnishing_corner (layer : Layer α) :
    ∀ item ∈ (Decoration.corner layer).1, Furnishing item := by
  intro item member
  simp only [Decoration.corner] at member
  split at member
  · simp at member
  · obtain rfl := List.mem_singleton.mp member
    exact .modifier (by decide) (by simp [furnishingKeys])

theorem furnishing_gradient (id : String) (shape : GradientShape) (paint : GradientPaint α) :
    ∀ item ∈ (Decoration.gradient id shape paint).1, Furnishing item := by
  intro item member
  simp only [Decoration.gradient] at member
  split at member
  · simp at member
  · obtain rfl := List.mem_singleton.mp member
    refine .modifier (by decide) ?_
    simp only [List.map_append, List.append_subset]
    refine ⟨⟨by simp [furnishingKeys], ?_⟩, ?_⟩ <;> split <;> simp [furnishingKeys]

theorem furnishing_textStroke (stroke : InferredStroke α) :
    Furnishing (Decoration.textStroke stroke) := by
  refine .modifier (by decide) ?_
  simp only [List.map_append, List.append_subset]
  refine ⟨by simp [furnishingKeys], ?_⟩
  split
  · split <;> simp [furnishingKeys]
  · simp

theorem furnishing_label (config : TextConfig) (layer : Layer α) (text : TextContent α)
    (log : Diagnostics) : ∀ item ∈ (Label.emit config layer text log).2.1, Furnishing item := by
  intro item member
  simp only [Label.emit] at member
  rcases List.mem_append.mp member with gradient | stroke
  · split at gradient
    · exact furnishing_gradient _ _ _ item gradient
    · simp at gradient
  · simp only [Option.mem_toList, Option.map_eq_some_iff] at stroke
    obtain ⟨inferred, _, rfl⟩ := stroke
    exact furnishing_textStroke inferred

/-- The decorations of a node. -/
theorem furnishing_painting (config : TextConfig) (node : Node α) :
    ∀ item ∈ (painting rules config node).2, Furnishing item := by
  intro item member
  rw [painting] at member
  split at member
  · split at member
    · simp at member
    · dsimp only at member
      exact furnishing_label config node.layer _ .empty item member
  · split at member
    · split at member <;> simp at member
    · simp only [framePaint] at member
      split at member
      · simp at member
      · exact furnishing_corner _ item member

theorem furnishing_flowItems (node : Node α) : ∀ item ∈ (flowItems node).1, Furnishing item := by
  intro item member
  rw [flowItems] at member
  split at member
  · simp only [Decoration.listLayout] at member
    rcases List.mem_cons.mp member with rfl | member
    · refine .modifier (by decide) ?_
      simp only [List.map_append, List.append_subset]
      refine ⟨by simp [furnishingKeys], ?_⟩
      split <;> simp [furnishingKeys]
    · split at member
      · obtain rfl := List.mem_singleton.mp member
        exact .modifier (by decide) (by simp [furnishingKeys])
      · simp at member
  · simp at member

theorem furnishing_interactions (layer : Layer α) :
    ∀ item ∈ (Decoration.interactions layer).1, Furnishing item := by
  intro item member
  obtain ⟨reaction, _, rfl⟩ := List.mem_map.mp member
  exact .record _

theorem furnishing_targets (layer : Layer α) (zIndex : Int) :
    ∀ item ∈ targets rules layer zIndex, Furnishing item := by
  intro item member
  rw [targets] at member
  split at member
  · obtain rfl := List.mem_singleton.mp member
    exact .target zIndex
  · simp at member

/-- What the paint of a node can set. -/
def paintKeys : List String :=
  ["Text", "RichText", "BackgroundTransparency", "TextSize", "TextWrapped", "TextScaled", "FontFace",
    "TextXAlignment", "TextYAlignment", "LineHeight", "TextColor3", "TextTransparency", "Image",
    "ScaleType", "ImageTransparency", "BackgroundColor3"]

theorem keys_painting (config : TextConfig) (node : Node α) :
    (painting rules config node).1.map (·.1) ⊆ paintKeys := by
  rw [painting]
  split
  · split
    · simp
    · simp only [Label.emit, Label.lineHeight, List.map_append, List.append_subset]
      refine ⟨⟨⟨by simp [paintKeys], ?_⟩, by simp [paintKeys]⟩, ?_⟩
      · split
        · split <;> simp [paintKeys]
        · simp
      · split <;> simp [paintKeys]
  · split
    · split
      · simp
      · simp only [pictureProperties, imageTransparency, List.map_append, List.append_subset]
        refine ⟨by simp [paintKeys], ?_⟩
        split <;> simp [paintKeys]
    · simp only [framePaint]
      split <;> simp [paintKeys]

end Assembly
end DesignCompiler
