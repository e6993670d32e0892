import DesignCompiler.Proofs.Keypoints
import DesignCompiler.Proofs.Remainders
import DesignCompiler.Proofs.Wording
import DesignCompiler.Stroke

/-!
How much can be seen through a drawing. Alphas under an opacity are held within zero and one before they are
taken from one; the alpha of an outline is taken from one as it is.
-/
namespace DesignCompiler

open Binary64 (IsNumber isFinite)

/-- The keys of how transparent something is. -/
def transparencyKeys : List String :=
  ["BackgroundTransparency", "ImageTransparency", "TextTransparency", "Transparency"]

/-- A part of one. -/
def InUnit (x : Float) : Prop := 0 ≤ x ∧ x ≤ 1

/-- A number between zero and one, or one at each of many points. -/
def Property.UnitRange : Property Float → Prop
  | .float share => InUnit share
  | .numberSequence points => ∀ point ∈ points, InUnit point.2
  | _ => False

/-- All transparencies among some properties lie between zero and one. -/
def Properties.InRange (properties : Properties Float) : Prop :=
  ∀ property ∈ properties, property.1 ∈ transparencyKeys → property.2.UnitRange

namespace Properties

variable {front back : Properties Float} {key : String} {value : Property Float}

theorem inRange_nil : InRange [] := List.forall_mem_nil _

theorem inRange_cons : InRange ((key, value) :: back) ↔
    (key ∈ transparencyKeys → value.UnitRange) ∧ InRange back :=
  List.forall_mem_cons

theorem inRange_append : InRange (front ++ back) ↔ InRange front ∧ InRange back := List.forall_mem_append

/-- Other properties do not matter. -/
theorem inRange_of_other (other : ∀ key ∈ front.map (·.1), key ∉ transparencyKeys) : InRange front :=
  fun _ member listed => absurd listed (other _ (List.mem_map_of_mem member))

theorem InRange.setAll (inRange : InRange front) : InRange (setAll [] front) :=
  fun property member => inRange property (mem_of_mem_setAll member)

/-- Where nothing is set twice, it does not matter that properties are set one after the other. -/
theorem inRange_setAll (distinct : (front.map (·.1)).Nodup) :
    InRange (Properties.setAll [] front) ↔ InRange front := by
  rw [setAll_of_nodup distinct]

end Properties

open Properties (InRange inRange_nil inRange_cons inRange_append inRange_of_other inRange_setAll)

/-- The transparencies that an item sets by itself lie between zero and one. -/
def Item.InRange (item : Item Float) : Prop := Properties.InRange (Properties.setAll [] item.properties)

namespace Drawn

mutual

/-- The transparencies of an item and of those in it lie between zero and one. -/
def InRange : Drawn Float → Prop
  | mk _ _ _ properties children => Properties.InRange (Properties.setAll [] properties) ∧ InRangeAll children

def InRangeAll : List (Drawn Float) → Prop
  | [] => True
  | drawn :: rest => InRange drawn ∧ InRangeAll rest

end

theorem inRangeAll_append {front back : List (Drawn Float)} :
    InRangeAll (front ++ back) ↔ InRangeAll front ∧ InRangeAll back := by
  induction front with
  | nil => simp [InRangeAll]
  | cons drawn rest ih => simp [InRangeAll, ih, and_assoc]

/-- Of items without others in them, each counts by itself. -/
theorem inRangeAll_ofItems {origin : Origin} {items : List (Item Float)}
    (bare : ∀ item ∈ items, item.children = []) :
    InRangeAll (ofItems origin items) ↔ ∀ item ∈ items, item.InRange := by
  induction items with
  | nil => simp [ofItems, InRangeAll]
  | cons item rest ih =>
    obtain ⟨first, others⟩ := List.forall_mem_cons.mp bare
    obtain ⟨className, name, properties, children⟩ := item
    obtain rfl : children = [] := first
    rw [ofItems, InRangeAll, ih others, List.forall_mem_cons, ofItem, ofItems, InRange, InRangeAll, and_true]
    rfl

mutual

theorem inRange_entries (own : Nat) (above : List (Nat × Origin)) : (drawn : Drawn Float) →
    ((∀ entry ∈ drawn.entries own above, Properties.InRange entry.row.properties) ↔ drawn.InRange)
  | mk origin className name properties children => by
    rw [entries, List.forall_mem_cons, InRange, inRange_entriesAll (own + 1) ((own, origin) :: above) children]
    rfl

theorem inRange_entriesAll (own : Nat) (above : List (Nat × Origin)) : (drawns : List (Drawn Float)) →
    ((∀ entry ∈ entriesAll own above drawns, Properties.InRange entry.row.properties) ↔ InRangeAll drawns)
  | [] => by simp [entriesAll, InRangeAll]
  | drawn :: rest => by
    rw [entriesAll, List.forall_mem_append, InRangeAll, inRange_entries own above drawn,
      inRange_entriesAll (own + drawn.size) above rest]

end

/-- The instances of a planted item are those of the item. -/
theorem inRange_plant (drawn : Drawn Float) :
    (∀ inst ∈ (Arena.empty.plant none drawn.item).instances, Properties.InRange inst.properties) ↔
      drawn.InRange := by
  rw [Arena.instances_plant, List.forall_mem_map, inRange_entries]

end Drawn

theorem inUnit_one : InUnit 1 := by
  exact ⟨Binary64.one_nonneg, Binary64.le_refl Binary64.isNumber_one⟩

/-- What is left of one is a share where the whole was held within zero and one, unless it is undefined. -/
theorem inUnit_one_sub_unit {x : Float} : InUnit (1 - Scalar.unit x) ↔ IsNumber x := by
  constructor
  · intro share
    have number := (Binary64.le_iff.mp share.1).2.1
    exact Binary64.isNumber_unit.mp (Binary64.isNumber_one_sub.mp number)
  · intro number
    obtain ⟨nonneg, within⟩ := Binary64.unit_within number
    exact ⟨Binary64.one_sub_nonneg within, Binary64.one_sub_le_one nonneg within⟩

/-- An alpha under an opacity leaves a share, unless both together are undefined. -/
theorem inUnit_transparency {alpha opacity : Float} :
    InUnit (Decoration.transparency alpha opacity) ↔ IsNumber (alpha * opacity) := inUnit_one_sub_unit

/-- If something can be seen through a gradient, the alphas of its stops are numbers under its opacity. -/
def GradientPaint.AlphasDefined (paint : GradientPaint Float) : Prop :=
  (∃ stop ∈ paint.stops, stop.color.a < 1) ∨ paint.opacity < 1 →
    ∀ stop ∈ paint.stops, IsNumber (stop.color.a * paint.opacity)

/-- Nothing that can be seen through an outline has an alpha below zero. -/
def InferredStroke.Bounded (stroke : InferredStroke Float) : Prop :=
  ∀ color, stroke.color = some color → color.a < 1 → 1 - color.a ≤ 1

namespace Assembly

open Decoration (leaf)
open Drawn (InRangeAll inRangeAll_append)

variable {rules : RuleSet}

theorem inRange_leaf {className name : String} {changes : Properties Float} (inRange : InRange changes) :
    (leaf className name changes).InRange := by
  rw [Item.InRange, leaf, Item.properties, Properties.setAll_setAll]
  exact inRange.setAll

theorem inRange_placement (geometry : Geometry Float) : InRange (Decoration.placement geometry) :=
  inRange_of_other (by simp [Decoration.placement, transparencyKeys])

theorem inRange_fillParent : InRange Decoration.fillParent :=
  inRange_append.mpr ⟨inRange_placement _, inRange_cons.mpr
    ⟨fun _ => inUnit_one, inRange_of_other (by simp [transparencyKeys])⟩⟩

theorem inRange_imageTransparency (opacity : Float) : InRange (imageTransparency opacity) := by
  rw [imageTransparency]
  split
  · rename_i faint
    have number : IsNumber opacity := (Binary64.lt_iff.mp faint).1
    exact inRange_cons.mpr ⟨fun _ => inUnit_one_sub_unit.mpr number, inRange_nil⟩
  · exact inRange_nil

theorem inRange_corner (layer : Layer Float) : ∀ item ∈ (Decoration.corner layer).1, item.InRange := by
  intro item member
  simp only [Decoration.corner] at member
  split at member
  · cases member
  · obtain rfl := List.mem_singleton.mp member
    exact inRange_leaf (inRange_of_other (by simp [transparencyKeys]))

theorem inRange_flowItems (node : Node Float) : ∀ item ∈ (flowItems node).1, item.InRange := by
  intro item member
  rw [flowItems] at member
  split at member
  · simp only [Decoration.listLayout] at member
    rcases List.mem_cons.mp member with rfl | member
    · refine inRange_leaf (inRange_append.mpr ⟨inRange_of_other (by simp [transparencyKeys]), ?_⟩)
      split
      · exact inRange_of_other (by simp [transparencyKeys])
      · exact inRange_nil
    · split at member
      · obtain rfl := List.mem_singleton.mp member
        exact inRange_leaf (inRange_of_other (by simp [transparencyKeys]))
      · cases member
  · cases member

theorem inRange_interactions (layer : Layer Float) :
    ∀ item ∈ (Decoration.interactions layer).1, item.InRange :=
  List.forall_mem_map.mpr fun _ _ => inRange_leaf (inRange_of_other (by simp [transparencyKeys]))

theorem inRange_targets (rules : RuleSet) (layer : Layer Float) (zIndex : Int) :
    ∀ item ∈ targets rules layer zIndex, item.InRange := by
  intro item member
  rw [targets] at member
  split at member
  · obtain rfl := List.mem_singleton.mp member
    exact inRange_leaf (inRange_append.mpr ⟨inRange_fillParent, inRange_of_other (by simp [transparencyKeys])⟩)
  · cases member

theorem inRange_backdrop (layer : Layer Float) (isRoot : Bool) :
    ∀ item ∈ backdrop layer isRoot, item.InRange := by
  refine List.forall_mem_map.mpr fun picture _ => inRange_leaf ?_
  refine inRange_append.mpr ⟨inRange_append.mpr ⟨inRange_append.mpr ⟨inRange_fillParent, ?_⟩, ?_⟩, ?_⟩
  · split
    · split
      · exact inRange_nil
      · exact inRange_of_other (by simp [transparencyKeys])
    · exact inRange_nil
  · exact inRange_of_other (by simp [transparencyKeys])
  · exact inRange_imageTransparency layer.opacity

theorem inRange_shade (rules : RuleSet) (layer : Layer Float) (frame : ParentFrame Float) (zIndex : Int) :
    ∀ item ∈ shade rules layer frame zIndex, item.InRange := by
  refine List.forall_mem_map.mpr fun picture _ => inRange_leaf ?_
  refine inRange_append.mpr ⟨inRange_append.mpr ⟨inRange_placement _, ?_⟩, ?_⟩
  · exact inRange_cons.mpr ⟨fun listed => absurd listed (by decide),
      inRange_cons.mpr ⟨fun _ => inUnit_one, inRange_of_other (by simp [transparencyKeys])⟩⟩
  · split
    · exact inRange_of_other (by simp [transparencyKeys])
    · exact inRange_nil

theorem inRange_gradient (id : String) (shape : GradientShape) (paint : GradientPaint Float) :
    (∀ item ∈ (Decoration.gradient id shape paint).1, item.InRange) ↔ paint.AlphasDefined := by
  rw [GradientPaint.AlphasDefined]
  have shares : (∀ point ∈ Decoration.veils paint, InUnit point.2) ↔
      ∀ stop ∈ paint.stops, IsNumber (stop.color.a * paint.opacity) := by
    have colors := (Decoration.colors_keypoints paint.stops
      fun color => ¬ IsNumber (color.a * paint.opacity)).not
    simp only [not_exists, not_and, not_not] at colors
    simp only [Decoration.veils, List.forall_mem_map, inUnit_transparency]
    exact colors
  by_cases stopless : paint.stops = []
  · rw [Decoration.gradient_of_stopless id shape stopless, stopless]
    simp
  · have full : Decoration.keypoints paint.stops ≠ [] := Decoration.keypoints_eq_nil.not.mpr stopless
    have turned := Decoration.turn_cases paint
    have plain : InRange (Decoration.turn paint) := by
      rcases turned with turned | ⟨angle, turned⟩ <;> rw [turned]
      · exact inRange_nil
      · exact inRange_of_other (by simp [transparencyKeys])
    rw [Decoration.gradient_eq id shape full, List.forall_mem_singleton, Item.InRange, Item.properties,
      inRange_setAll, List.cons_append, inRange_cons, inRange_append, and_iff_left plain,
      ← Decoration.seesThrough_iff, ← shares,
      and_iff_right fun listed => absurd listed (by decide)]
    · split
      · rename_i through
        exact ⟨fun inRange _ => (inRange_cons.mp inRange).1 (by decide),
          fun shares => inRange_cons.mpr ⟨fun _ => shares through, inRange_nil⟩⟩
      · rename_i dense
        exact ⟨fun _ through => absurd through dense, fun _ => inRange_nil⟩
    · rcases turned with turned | ⟨angle, turned⟩ <;> rw [turned] <;>
        cases Decoration.seesThrough paint <;> simp

theorem inRange_textStroke (stroke : InferredStroke Float) :
    (Decoration.textStroke stroke).InRange ↔ stroke.Bounded := by
  rw [InferredStroke.Bounded, Decoration.textStroke, Item.InRange, leaf, Item.properties,
    Properties.setAll_setAll, inRange_setAll, inRange_append,
    and_iff_right (inRange_of_other (by simp [transparencyKeys]))]
  · cases stroke.color with
    | none => exact iff_of_true inRange_nil (by simp)
    | some color =>
      simp only [Option.some.injEq, forall_eq']
      split
      · rename_i faint
        rw [inRange_cons, and_iff_left inRange_nil]
        exact ⟨fun share _ => (share (by decide)).2,
          fun within _ => ⟨Binary64.one_sub_nonneg (Binary64.le_of_lt faint), within faint⟩⟩
      · rename_i dense
        exact ⟨fun _ faint => absurd faint dense, fun _ => inRange_nil⟩
  · split
    · split <;> simp
    · simp

theorem exists_content {node : Node Float} (label : node.strategy rules = .text) :
    ∃ text, node.content? = some text := by
  rw [Node.strategy] at label
  split at label
  · cases label
  · cases node with
    | text layer content => exact ⟨content, rfl⟩
    | container layer box children =>
      rw [Node.ownStrategy] at label
      split at label <;> cases label
    | shape layer => cases label

/-- The decorations of a node are those of its label, or they round its corners. -/
theorem inRange_decorations (config : TextConfig) (node : Node Float) :
    (∀ item ∈ (painting rules config node).2, item.InRange) ↔
      (node.strategy rules = .text →
        (∀ fill, Label.gradientFill? node.layer = some fill → fill.2.AlphasDefined) ∧
          ∀ inferred, node.layer.annotations.inferredStroke = some inferred → inferred.Bounded) := by
  rw [painting]
  split
  · rename_i label
    have text : node.strategy rules = .text := label
    obtain ⟨content, found⟩ := exists_content text
    simp only [found, Label.emit, List.forall_mem_append, text, true_imp_iff]
    refine and_congr ?_ ?_
    · cases Label.gradientFill? node.layer with
      | none => simp
      | some fill => simp only [inRange_gradient, Option.some.injEq, forall_eq']
    · cases node.layer.annotations.inferredStroke with
      | none => simp
      | some inferred =>
        simp only [Option.map_some, Option.toList_some, List.forall_mem_singleton, inRange_textStroke,
          Option.some.injEq, forall_eq']
  · rename_i other
    have silent : ¬ node.strategy rules = .text := other
    refine iff_of_true ?_ fun label => absurd label silent
    split
    · split <;> exact List.forall_mem_nil _
    · simp only [framePaint]
      split
      · exact List.forall_mem_nil _
      · exact inRange_corner node.layer

theorem inRange_lineHeight (style : TextStyle Float) : InRange (Label.lineHeight style) := by
  rw [Label.lineHeight]
  split
  · split
    · exact inRange_of_other (by simp [transparencyKeys])
    · exact inRange_nil
  · exact inRange_nil

/-- A label tells its transparency where it has some, and that of its background always. -/
theorem inRange_label (config : TextConfig) (layer : Layer Float) (text : TextContent Float)
    (log : Diagnostics) : InRange (Label.emit config layer text log).1 := by
  simp only [Label.emit]
  refine inRange_append.mpr ⟨inRange_append.mpr ⟨inRange_append.mpr ⟨?_, inRange_lineHeight _⟩, ?_⟩, ?_⟩
  · refine inRange_cons.mpr ⟨fun listed => absurd listed (by decide), inRange_cons.mpr
      ⟨fun listed => absurd listed (by decide), inRange_cons.mpr ⟨fun _ => inUnit_one, ?_⟩⟩⟩
    exact inRange_of_other (by simp [transparencyKeys])
  · exact inRange_of_other (by simp [transparencyKeys])
  · split
    · rename_i faint
      have number := Binary64.isNumber_one_sub.mp (Binary64.lt_iff.mp faint).2.1
      exact inRange_cons.mpr ⟨fun _ => inUnit_one_sub_unit.mpr (Binary64.isNumber_unit.mp number), inRange_nil⟩
    · exact inRange_nil

theorem inRange_pictureProperties (layer : Layer Float) (url : String) :
    InRange (pictureProperties layer url) := by
  refine inRange_append.mpr ⟨?_, inRange_imageTransparency layer.opacity⟩
  refine inRange_cons.mpr ⟨fun listed => absurd listed (by decide), inRange_cons.mpr ⟨fun _ => inUnit_one, ?_⟩⟩
  exact inRange_of_other (by simp [transparencyKeys])

theorem inRange_framePaint (layer : Layer Float) (fill : Option (Color Float)) :
    InRange (framePaint layer fill).1 ↔ ∀ color, fill = some color → IsNumber (color.a * layer.opacity) := by
  cases fill with
  | none => exact iff_of_true (inRange_cons.mpr ⟨fun _ => inUnit_one, inRange_nil⟩) (by simp)
  | some color =>
    simp only [framePaint, inRange_cons, Option.some.injEq, forall_eq']
    rw [and_iff_right fun listed => absurd listed (by decide), and_iff_left inRange_nil]
    exact ⟨fun share => inUnit_transparency.mp (share (by decide)), fun number _ =>
      inUnit_transparency.mpr number⟩

theorem inRange_painting (config : TextConfig) (node : Node Float) :
    InRange (painting rules config node).1 ↔
      ∀ color, (node.classify rules).nativeFill = some color → IsNumber (color.a * node.layer.opacity) := by
  rw [painting]
  split
  · rename_i label
    have text : node.strategy rules = .text := label
    have bare : (node.classify rules).nativeFill = none := by simp [Node.classify, text]
    rw [bare]
    refine iff_of_true ?_ (by simp)
    split
    · exact inRange_nil
    · dsimp only
      exact inRange_label config node.layer _ .empty
  · split
    · rename_i needed
      have bare : (node.classify rules).nativeFill = none := by
        simp only [Classification.needsRaster, Bool.and_eq_true, Option.isNone_iff_eq_none] at needed
        exact needed.1.2
      rw [bare]
      refine iff_of_true ?_ (by simp)
      split
      · exact inRange_nil
      · exact inRange_pictureProperties node.layer _
    · exact inRange_framePaint node.layer _

theorem inRange_nodeProperties (config : TextConfig) (slot : Slot Float) (node : Node Float) :
    InRange (Properties.setAll [] (Properties.setAll [] (nodeProperties rules config slot node))) ↔
      ∀ color, (node.classify rules).nativeFill = some color → IsNumber (color.a * node.layer.opacity) := by
  have frame : InRange (frameProperties (nodeGeometry rules node slot).1 node.layer slot) := by
    have apart : ∀ key ∈ frameKeys, key ∉ transparencyKeys := by decide
    exact inRange_of_other fun key member => apart key ((keys_frameProperties _ _ _).subset member)
  have clips : InRange (if node.strategy rules = .container ∧ node.clips then
      [("ClipsDescendants", Property.bool true)] else []) := by
    split
    · exact inRange_of_other (by simp [transparencyKeys])
    · exact inRange_nil
  rw [Properties.setAll_setAll, inRange_setAll (nodup_nodeProperties config slot node), nodeProperties,
    inRange_append, inRange_append, and_iff_left clips, and_iff_right frame, inRange_painting]

/-- What a node declares keeps what can be seen through its instance and its decorations within bounds. -/
structure AlphasDefined (rules : RuleSet) (node : Node Float) : Prop where
  fill : ∀ color, (node.classify rules).nativeFill = some color → IsNumber (color.a * node.layer.opacity)
  gradient : node.strategy rules = .text → ∀ fill, Label.gradientFill? node.layer = some fill →
    fill.2.AlphasDefined
  outline : node.strategy rules = .text →
    ∀ inferred, node.layer.annotations.inferredStroke = some inferred → inferred.Bounded

theorem alphasDefined_iff {config : TextConfig} {slot : Slot Float} {node : Node Float} :
    AlphasDefined rules node ↔
    InRange (Properties.setAll [] (Properties.setAll [] (nodeProperties rules config slot node))) ∧
      ∀ item ∈ (painting rules config node).2, item.InRange := by
  rw [inRange_nodeProperties, inRange_decorations]
  exact ⟨fun defined => ⟨defined.fill, fun text => ⟨defined.gradient text, defined.outline text⟩⟩,
    fun ⟨fill, label⟩ => ⟨fill, fun text => (label text).1, fun text => (label text).2⟩⟩

theorem inRangeAll_helpers (site : Site Float) (part : Part) {items : List (Item Float)}
    (bare : ∀ item ∈ items, item.children = []) (inRange : ∀ item ∈ items, item.InRange) :
    InRangeAll (helpers site part items) := (Drawn.inRangeAll_ofItems bare).mpr inRange

theorem inRangeAll_decorations (config : TextConfig) (site : Site Float) :
    InRangeAll (helpers site .decoration (painting rules config site.node).2) ↔
      ∀ item ∈ (painting rules config site.node).2, item.InRange :=
  Drawn.inRangeAll_ofItems fun item member => (quiet_painting rules config site.node item member).children

theorem inRangeAll_records (site : Site Float) (layer : Layer Float) :
    InRangeAll (helpers site .record (Decoration.interactions layer).1) :=
  inRangeAll_helpers site .record (List.forall_mem_map.mpr fun _ _ => rfl) (inRange_interactions layer)

theorem inRangeAll_targets (rules : RuleSet) (site : Site Float) (zIndex : Int) :
    InRangeAll (helpers site .target (targets rules site.node.layer zIndex)) :=
  inRangeAll_helpers site .target (fun item member => (quiet_targets _ _ _ item member).children)
    (inRange_targets rules site.node.layer zIndex)

theorem inRangeAll_backdrop (site : Site Float) (isRoot : Bool) :
    InRangeAll (helpers site .background (backdrop site.node.layer isRoot)) :=
  inRangeAll_helpers site .background (List.forall_mem_map.mpr fun _ _ => rfl) (inRange_backdrop _ isRoot)

theorem inRangeAll_shade (rules : RuleSet) (site : Site Float) (frame : ParentFrame Float) (zIndex : Int) :
    InRangeAll (helpers site .shadow (shade rules site.node.layer frame zIndex)) :=
  inRangeAll_helpers site .shadow (List.forall_mem_map.mpr fun _ _ => rfl) (inRange_shade rules _ frame zIndex)

theorem inRangeAll_contents (site : Site Float) (inner : List (Drawn Float)) :
    InRangeAll (contents rules site inner) ↔ InRangeAll inner := by
  have flow := inRangeAll_helpers site .decoration
    (fun item member => (quiet_flowItems site.node item member).children) (inRange_flowItems site.node)
  rw [contents]
  split
  · have frame : InRange (Properties.setAll [] contentProperties) := by
      rw [contentProperties, Properties.setAll_setAll]
      exact (inRange_append.mpr ⟨inRange_fillParent, inRange_of_other (by simp [transparencyKeys])⟩).setAll
    rw [InRangeAll, InRangeAll, and_true, Drawn.InRange, and_iff_right frame, inRangeAll_append,
      and_iff_right flow]
  · rw [inRangeAll_append, and_iff_right flow]

theorem inRangeAll_framed (config : TextConfig) (isRoot : Bool) (site : Site Float)
    (inner : List (Drawn Float)) :
    InRangeAll (framed rules config isRoot site inner) ↔
      (∀ item ∈ (painting rules config site.node).2, item.InRange) ∧ InRangeAll inner := by
  rw [framed, inRangeAll_append, inRangeAll_append, inRangeAll_append, inRangeAll_append,
    inRangeAll_decorations, inRangeAll_contents, and_iff_left (inRangeAll_backdrop site isRoot),
    and_iff_left (inRangeAll_records site site.node.layer), and_iff_left (inRangeAll_targets rules site _)]

theorem inRangeAll_bare (config : TextConfig) (site : Site Float) :
    InRangeAll (bare rules config site) ↔ ∀ item ∈ (painting rules config site.node).2, item.InRange := by
  rw [bare, inRangeAll_append, inRangeAll_append, inRangeAll_decorations,
    and_iff_left (inRangeAll_records site site.node.layer), and_iff_left (inRangeAll_targets rules site _)]

mutual

/-- What is drawn for a node has its transparencies in range if its alphas, and those of all nodes placed
under it, are defined. -/
theorem inRange_draw (config : TextConfig) (slot : Slot Float) : (plot : Plot Float) →
    (plot.site.node.strategy rules ≠ .container → plot.children = []) →
    Plot.Settled rules plot.site.path plot.children →
    ((draw rules config slot plot).InRange ↔ ∀ site ∈ plot.sites, AlphasDefined rules site.node)
  | .mk site notice children, leaf, settled => by
    rw [Plot.sites, List.forall_mem_cons, draw, Drawn.InRange, alphasDefined_iff]
    by_cases container : site.node.strategy rules = .container
    · have inner := inRangeAll_drawAll config (.of site.node) 1 0 children settled
      rw [if_pos container, inRangeAll_framed, inner]
      exact and_assoc.symm
    · obtain rfl : children = [] := leaf container
      rw [if_neg container, inRangeAll_bare, Plot.sitesAll, and_iff_left (List.forall_mem_nil _)]

theorem inRangeAll_drawAll (config : TextConfig) (frame : ParentFrame Float) (zIndex order : Int)
    {host : List Nat} : (plots : List (Plot Float)) → Plot.Settled rules host plots →
    (InRangeAll (drawAll rules config frame zIndex order plots) ↔
      ∀ site ∈ Plot.sitesAll plots, AlphasDefined rules site.node)
  | [], _ => by simp [drawAll, InRangeAll, Plot.sitesAll]
  | .mk site notice children :: rest, settled => by
    cases settled with
    | cons deeper leaf inner others =>
      have own := inRange_draw config (sibling rules frame zIndex order site.node) (.mk site notice children)
        leaf inner
      have later := inRangeAll_drawAll config frame
        (zIndex + (shade rules site.node.layer frame zIndex).length + 1) (order + 1) rest others
      rw [drawAll, inRangeAll_append, InRangeAll, own, later, Plot.sitesAll, List.forall_mem_append,
        and_iff_right (inRangeAll_shade rules site frame zIndex)]

end

/-- Where a node is placed has no part in what can be seen through it. -/
theorem alphasDefined_node {site : Site Float} :
    AlphasDefined rules site.node ↔ AlphasDefined rules site.origin := by
  obtain ⟨path, origin, x, y⟩ := site
  cases origin <;> exact ⟨fun defined => ⟨defined.fill, defined.gradient, defined.outline⟩,
    fun defined => ⟨defined.fill, defined.gradient, defined.outline⟩⟩

theorem inRange_screen {root : Node Float} {children : List (Plot Float)} (config : TextConfig)
    (layout : Placement.Layout rules root children) : (drawScreen rules config root children).InRange ↔
      ∀ path node, Node.Emits rules root path node → AlphasDefined rules node := by
  have top : InRange (Properties.setAll [] (Properties.setAll []
      [("ZIndexBehavior", .token 1), ("ResetOnSpawn", .bool false)])) := by
    rw [Properties.setAll_setAll]
    exact InRange.setAll (inRange_of_other (by simp [transparencyKeys]))
  have drawn := inRange_draw config (rootSlot root) (.mk (Site.start [] root) none children)
    (fun leaf => layout.leaf (by rwa [Plot.site, Site.node_start] at leaf)) layout.settled
  rw [drawScreen, Drawn.InRange, InRangeAll, InRangeAll, and_true, and_iff_right top, drawn,
    ← forall_sites layout]
  exact forall₂_congr fun site _ => alphasDefined_node

/-- The transparencies of an assembled design lie between zero and one if the alphas of all nodes that reach the
output are defined, and only then. -/
theorem transparencies_inRange_iff {config : TextConfig} {root : Node Float} {log log' : Diagnostics}
    {arena : Arena Float} (run : (assemble rules config root).run log = .ok (arena, log')) :
    (∀ inst ∈ arena.instances, ∀ property ∈ inst.properties, property.1 ∈ transparencyKeys →
        property.2.UnitRange) ↔
      ∀ path node, Node.Emits rules root path node → AlphasDefined rules node := by
  obtain ⟨children, layout⟩ := Placement.exists_layout rules root
  obtain ⟨_, rfl⟩ := drawn_of_assemble layout run
  exact (Drawn.inRange_plant _).trans (inRange_screen config layout)

/-- Alphas are defined where they and the opacities are finite and no outline is below zero. -/
theorem AlphasDefined.of_finite {node : Node Float}
    (fill : ∀ color, (node.classify rules).nativeFill = some color →
      isFinite color.a = true ∧ isFinite node.layer.opacity = true)
    (gradient : ∀ fill, Label.gradientFill? node.layer = some fill →
      isFinite fill.2.opacity = true ∧ ∀ stop ∈ fill.2.stops, isFinite stop.color.a = true)
    (outline : ∀ inferred color, node.layer.annotations.inferredStroke = some inferred →
      inferred.color = some color → 0 ≤ color.a) : AlphasDefined rules node where
  fill color found := Binary64.isNumber_mul (fill color found).1 (fill color found).2
  gradient _ declared found _ stop member :=
    Binary64.isNumber_mul ((gradient declared found).2 stop member) (gradient declared found).1
  outline _ inferred found color same faint :=
    Binary64.one_sub_le_one (outline inferred color found same) (Binary64.le_of_lt faint)

/-- Without pictures, nothing is missing. -/
theorem assemble_pictureless (rules : RuleSet) (config : TextConfig) (root : Node Float)
    (pictureless : ∀ path node, Node.Emits rules root path node →
      (node.classify rules).needsRaster = false ∧ node.layer.annotations.background = none ∧
        node.layer.annotations.shadow = none) (log : Diagnostics) :
    ∃ arena log', (assemble rules config root).run log = .ok (arena, log') := by
  refine assemble_total config (fun path node emits => ?_) log
  obtain ⟨plain, bare, unshaded⟩ := pictureless path node emits
  have none {picture : Option Picture} (absent : picture = none) : Filled picture := by
    rintro held found
    rw [absent] at found
    cases found
  have whole : (node.classify rules).needsRaster ≠ true := Bool.eq_false_iff.mp plain
  exact ⟨⟨fun needed => absurd needed whole, fun needed => absurd needed whole, fun _ => none bare⟩,
    none unshaded⟩

theorem listed_of_emits {root node : Node Float} {path : List Nat} (emits : Node.Emits rules root path node) :
    (path, node) ∈ root.emits rules [] :=
  Node.mem_emits.mpr ⟨path, (List.nil_append path).symm, emits⟩

def plainRules : RuleSet := ⟨"", [], []⟩

/-- A title in the colors of dusk, with an outline. -/
def marquee : Node Float :=
  .text { Layer.plain "0" "marquee" ⟨0, 0, 100, 20⟩ with
    fills := [.gradient .linear Decoration.dusk]
    annotations := { Annotations.none with inferredStroke := some ⟨2, some ⟨0, 0, 0, 1 / 2⟩⟩ } }
    ⟨"HOME", .default⟩

def glyph (id : String) : Node Float :=
  .text { Layer.plain id "GO" ⟨0, 0, 30, 14⟩ with
    fills := [.solid ⟨true, 1, ⟨0, 0, 0, -1 / 2⟩⟩] } ⟨"GO", .default⟩

/-- The same letters again and again at one place. -/
def glyphs : List (Node Float) := [glyph "1", glyph "2", glyph "3", glyph "4", glyph "5"]

def logo : Node Float :=
  .container (Layer.plain "0" "logo" ⟨0, 0, 100, 100⟩) ⟨.frame, none, false⟩ glyphs

/-- The outline that the last letter gets has the color of the others. -/
def engraved : Node Float :=
  (glyph "5").annotate fun notes => { notes with inferredStroke := some ⟨2, some ⟨0, 0, 0, -1 / 2 * 1⟩⟩ }

def thresholds : StrokeThresholds Float := .default

theorem collapses_glyphs :
    Stroke.collapses thresholds glyphs = [⟨4, [0, 1, 2, 3], ⟨2, some ⟨0, 0, 0, -1 / 2 * 1⟩⟩⟩] := by
  have sorted : ([0, 0, 0, 0, 0] : List Float).mergeSort (fun x y => Scalar.order x y != .gt) =
      [0, 0, 0, 0, 0] := List.mergeSort_of_pairwise (by decide)
  have middle : Stroke.median ([0, 0, 0, 0, 0] : List Float) = 0 := by
    simp only [Stroke.median, sorted]
    decide
  have members : Stroke.candidates 5 glyphs =
      [[⟨0, (glyph "1").layer⟩, ⟨1, (glyph "2").layer⟩, ⟨2, (glyph "3").layer⟩,
        ⟨3, (glyph "4").layer⟩, ⟨4, (glyph "5").layer⟩]] := rfl
  rw [Stroke.collapses]
  change (Stroke.candidates 5 glyphs).filterMap _ = _
  rw [members]
  simp only [List.filterMap_cons, List.filterMap_nil, Stroke.evaluate, List.map_cons, List.map_nil,
      glyph, Node.layer, Layer.plain, middle]
  rfl

theorem emits_logo : (Stroke.resolve thresholds logo).1.emits plainRules [] =
    [([], (Stroke.resolve thresholds logo).1), ([4], engraved)] := by
  rw [logo, Stroke.resolve, collapses_glyphs]
  rfl

theorem emits_marquee {path : List Nat} {node : Node Float} (emits : Node.Emits plainRules marquee path node) :
    node = marquee := by
  have only : marquee.emits plainRules [] = [([], marquee)] := rfl
  have listed := listed_of_emits emits
  rw [only, List.mem_singleton] at listed
  exact (Prod.mk.inj listed).2

theorem marquee_transparencies : ∃ arena log',
    (assemble plainRules .default marquee).run .empty = .ok (arena, log') ∧
    ∀ inst ∈ arena.instances, ∀ property ∈ inst.properties, property.1 ∈ transparencyKeys →
      property.2.UnitRange := by
  obtain ⟨arena, log', run⟩ := assemble_pictureless plainRules .default marquee
    (fun path node emits => emits_marquee emits ▸ ⟨rfl, rfl, rfl⟩) .empty
  refine ⟨arena, log', run, (transparencies_inRange_iff run).mpr fun path node emits => ?_⟩
  rw [emits_marquee emits]
  refine .of_finite (fun color => nofun) ?_ ?_
  · rintro _ ⟨⟩
    have first : isFinite (1 / 2) = true := rfl
    have second : isFinite 1 = true := rfl
    exact ⟨second, List.forall_mem_cons.mpr ⟨first, List.forall_mem_singleton.mpr second⟩⟩
  · rintro _ _ ⟨⟩ ⟨⟩
    decide

theorem emits_engraving {path : List Nat} {node : Node Float} :
    Node.Emits plainRules (Stroke.resolve thresholds logo).1 path node ↔
      (path, node) = ([], (Stroke.resolve thresholds logo).1) ∨ (path, node) = ([4], engraved) := by
  rw [← List.mem_pair, ← emits_logo]
  constructor
  · exact listed_of_emits
  · intro listed
    obtain ⟨_, rfl, emits⟩ := Node.mem_emits.mp listed
    exact emits

/-- The alpha of an outline is not held within zero and one. -/
theorem logo_transparency_undefined : ∃ arena log',
    (assemble plainRules .default (Stroke.resolve thresholds logo).1).run .empty = .ok (arena, log') ∧
    ∃ inst ∈ arena.instances, ∃ property ∈ inst.properties,
      property.1 ∈ transparencyKeys ∧ ¬ property.2.UnitRange := by
  obtain ⟨arena, log', run⟩ := assemble_pictureless plainRules .default (Stroke.resolve thresholds logo).1
    (fun path node emits => by
      rcases emits_engraving.mp emits with same | same
      · rw [(Prod.mk.inj same).2, logo, Stroke.resolve, collapses_glyphs]
        exact ⟨rfl, rfl, rfl⟩
      · rw [(Prod.mk.inj same).2]
        exact ⟨rfl, rfl, rfl⟩) .empty
  refine ⟨arena, log', run, ?_⟩
  obtain ⟨children, layout⟩ := Placement.exists_layout plainRules (Stroke.resolve thresholds logo).1
  obtain ⟨_, rfl⟩ := drawn_of_assemble layout run
  by_contra within
  push Not at within
  have alphasDefined := (inRange_screen .default layout).mp ((Drawn.inRange_plant _).mp within)
  have last := alphasDefined [4] engraved (emits_engraving.mpr (.inr rfl))
  have faint : (-1 / 2 * 1 : Float) < 1 := by decide
  exact absurd (last.outline rfl _ rfl _ rfl faint) (by decide)

end Assembly
end DesignCompiler
