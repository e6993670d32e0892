import DesignCompiler.Proofs.Characters
import DesignCompiler.Proofs.ShownPictures

/-!
What a drawing has in writing. Classes and keys are words of letters; names, labels, fonts, records and
addresses come from the nodes that reach the output, and all of theirs do.
-/
namespace DesignCompiler

variable {α : Type}

namespace Properties

theorem mem_of_mem_setAll {property : String × Property α} {changes : List (String × Property α)}
    (member : property ∈ setAll [] changes) : property ∈ changes := by
  have found := (lookup_eq_some_iff (nodup_setAll (by simp) changes)).mpr member
  rw [lookup_setAll_reverse] at found
  obtain ⟨front, back, split, _⟩ := List.lookup_eq_some_iff.mp found
  exact List.mem_reverse.mp (split ▸ List.mem_append_right _ List.mem_cons_self)

/-- Where no text is set in the place of another, what holds of all texts that are held holds of all that
were set. -/
theorem forall_texts_setAll {holds : String → Prop} {changes : List (String × Property α)}
    (kept : ∀ change ∈ changes, change.2.texts ≠ [] → (setAll [] changes).lookup change.1 = some change.2) :
    (∀ property ∈ setAll [] changes, ∀ text ∈ property.2.texts, holds text) ↔
      ∀ change ∈ changes, ∀ text ∈ change.2.texts, holds text := by
  constructor
  · intro all change member text inside
    have found := kept change member (List.ne_nil_of_mem inside)
    exact all change ((lookup_eq_some_iff (nodup_setAll (by simp) changes)).mp found) text inside
  · exact fun all property member => all property (mem_of_mem_setAll member)

theorem setAll_of_nodup {changes : Properties α} (distinct : (changes.map (·.1)).Nodup) :
    setAll [] changes = changes := setAll_fresh distinct

/-- Where nothing is set twice, everything set is held. -/
theorem lookup_of_nodup {changes : List (String × Property α)} (distinct : (changes.map (·.1)).Nodup)
    {change : String × Property α} (member : change ∈ changes) :
    (setAll [] changes).lookup change.1 = some change.2 := by
  rw [setAll_of_nodup distinct]
  exact (lookup_eq_some_iff distinct).mpr member

theorem kept_of_nodup {changes : List (String × Property α)} (distinct : (changes.map (·.1)).Nodup) :
    ∀ change ∈ changes, change.2.texts ≠ [] → (setAll [] changes).lookup change.1 = some change.2 :=
  fun _ member _ => lookup_of_nodup distinct member

end Properties

/-- Classes and keys are made of letters and digits. -/
def Wordlike (c : Char) : Prop := c.isAlphanum = true

instance (c : Char) : Decidable (Wordlike c) := inferInstanceAs (Decidable (_ = _))

/-- What an item has in writing itself, apart from those in it: words of letters where the engine has names
of its own, and elsewhere texts of a kind. -/
def Item.Spelled (kind : Char → Prop) (item : Item α) : Prop :=
  Instance.Spelled Wordlike kind ⟨item.className, item.name, Properties.setAll [] item.properties, none⟩

namespace Drawn

mutual

/-- All that an item has in writing, with those in it. -/
def Spelled (kind : Char → Prop) : Drawn α → Prop
  | mk _ className name properties children =>
    Instance.Spelled Wordlike kind ⟨className, name, Properties.setAll [] properties, none⟩ ∧
      SpelledAll kind children

def SpelledAll (kind : Char → Prop) : List (Drawn α) → Prop
  | [] => True
  | drawn :: rest => Spelled kind drawn ∧ SpelledAll kind rest

end

variable {kind : Char → Prop}

theorem spelledAll_append {front back : List (Drawn α)} :
    SpelledAll kind (front ++ back) ↔ SpelledAll kind front ∧ SpelledAll kind back := by
  induction front with
  | nil => simp [SpelledAll]
  | cons drawn rest ih => simp [SpelledAll, ih, and_assoc]

/-- Of items without others in them, each counts by itself. -/
theorem spelledAll_ofItems {origin : Origin} {items : List (Item α)}
    (bare : ∀ item ∈ items, item.children = []) :
    SpelledAll kind (ofItems origin items) ↔ ∀ item ∈ items, item.Spelled kind := by
  induction items with
  | nil => simp [ofItems, SpelledAll]
  | cons item rest ih =>
    obtain ⟨first, others⟩ := List.forall_mem_cons.mp bare
    obtain ⟨className, name, properties, children⟩ := item
    obtain rfl : children = [] := first
    rw [ofItems, SpelledAll, ih others, List.forall_mem_cons, ofItem, ofItems, Spelled, SpelledAll, and_true]
    rfl

mutual

theorem spelled_entries (own : Nat) (above : List (Nat × Origin)) : (drawn : Drawn α) →
    ((∀ entry ∈ drawn.entries own above, entry.row.Spelled Wordlike kind) ↔ drawn.Spelled kind)
  | mk origin className name properties children => by
    rw [entries, List.forall_mem_cons, Spelled,
      spelled_entriesAll (own + 1) ((own, origin) :: above) children]
    exact and_congr_left fun _ => ⟨fun spelled => ⟨spelled.1, spelled.2, spelled.3, spelled.4⟩,
      fun spelled => ⟨spelled.1, spelled.2, spelled.3, spelled.4⟩⟩

theorem spelled_entriesAll (own : Nat) (above : List (Nat × Origin)) : (drawns : List (Drawn α)) →
    ((∀ entry ∈ entriesAll own above drawns, entry.row.Spelled Wordlike kind) ↔ SpelledAll kind drawns)
  | [] => by simp [entriesAll, SpelledAll]
  | drawn :: rest => by
    rw [entriesAll, List.forall_mem_append, SpelledAll, spelled_entries own above drawn,
      spelled_entriesAll (own + drawn.size) above rest]

end

/-- The instances of a planted item are spelled like the item. -/
theorem spelled_plant (drawn : Drawn α) :
    (∀ inst ∈ (Arena.empty.plant none drawn.item).instances, inst.Spelled Wordlike kind) ↔
      drawn.Spelled kind := by
  rw [Arena.instances_plant, List.forall_mem_map, spelled_entries]

end Drawn

namespace Assembly

open Decoration (leaf)
open Drawn (Spelled SpelledAll spelledAll_append)

/-- A leaf is spelled like its name and the texts set in it, where none of these is lost. -/
theorem spelled_leaf {kind : Char → Prop} {className name : String} {changes : List (String × Property α)}
    (word : Throughout Wordlike className) (words : ∀ change ∈ changes, Throughout Wordlike change.1)
    (kept : ∀ change ∈ changes, change.2.texts ≠ [] →
      (Properties.setAll [] changes).lookup change.1 = some change.2) :
    (leaf className name changes).Spelled kind ↔
      Throughout kind name ∧ ∀ change ∈ changes, ∀ text ∈ change.2.texts, Throughout kind text := by
  rw [Item.Spelled, leaf, Item.properties, Properties.setAll_setAll, ← Properties.forall_texts_setAll kept]
  constructor
  · exact fun spelled => ⟨spelled.name, spelled.texts⟩
  · rintro ⟨name, texts⟩
    exact ⟨word, fun property member => words property (Properties.mem_of_mem_setAll member), name, texts⟩

/-- A leaf in which nothing comes from a design. -/
structure Quiet (item : Item α) : Prop where
  children : item.children = []
  spelled : item.Spelled Typed

theorem quiet_leaf {className name : String} {changes : List (String × Property α)}
    (word : Throughout Wordlike className) (plain : Throughout Typed name)
    (words : ∀ change ∈ changes, Throughout Wordlike change.1)
    (plains : ∀ change ∈ changes, ∀ text ∈ change.2.texts, Throughout Typed text) :
    Quiet (leaf className name changes) where
  children := rfl
  spelled := by
    rw [Item.Spelled, leaf, Item.properties, Properties.setAll_setAll]
    exact ⟨word, fun property member => words property (Properties.mem_of_mem_setAll member), plain,
      fun property member => plains property (Properties.mem_of_mem_setAll member)⟩

/-- Changes that set no texts, under words of letters. -/
def Mute (changes : List (String × Property α)) : Prop :=
  ∀ change ∈ changes, Throughout Wordlike change.1 ∧ change.2.texts = []

section Mute

variable {front back : List (String × Property α)} {key : String} {value : Property α}

theorem mute_nil : Mute ([] : List (String × Property α)) := List.forall_mem_nil _

theorem Mute.cons (word : Throughout Wordlike key) (silent : value.texts = []) (mute : Mute back) :
    Mute ((key, value) :: back) := List.forall_mem_cons.mpr ⟨⟨word, silent⟩, mute⟩

theorem mute_single (word : Throughout Wordlike key) (silent : value.texts = []) : Mute [(key, value)] :=
  mute_nil.cons word silent

theorem Mute.append (first : Mute front) (second : Mute back) : Mute (front ++ back) :=
  List.forall_mem_append.mpr ⟨first, second⟩

theorem Mute.quiet {className name : String} (mute : Mute front) (word : Throughout Wordlike className)
    (plain : Throughout Typed name) : Quiet (leaf className name front) := by
  refine quiet_leaf word plain (fun change member => (mute change member).1) ?_
  intro change member text inside
  rw [(mute change member).2] at inside
  cases inside

end Mute

variable [Scalar α] {rules : RuleSet}

theorem quiet_corner (layer : Layer α) : ∀ item ∈ (Decoration.corner layer).1, Quiet item := by
  intro item member
  simp only [Decoration.corner] at member
  split at member
  · simp at member
  · obtain rfl := List.mem_singleton.mp member
    exact (mute_single (by decide) rfl).quiet (by decide) (by decide)

theorem quiet_gradient (id : String) (shape : GradientShape) (paint : GradientPaint α) :
    ∀ item ∈ (Decoration.gradient id shape paint).1, Quiet item := by
  intro item member
  simp only [Decoration.gradient] at member
  split at member
  · simp at member
  · obtain rfl := List.mem_singleton.mp member
    refine Mute.quiet (((mute_single (by decide) rfl).append ?_).append ?_) (by decide) (by decide)
    · split
      · exact mute_single (by decide) rfl
      · exact mute_nil
    · split
      · exact mute_single (by decide) rfl
      · exact mute_nil

theorem quiet_textStroke (stroke : InferredStroke α) : Quiet (Decoration.textStroke stroke) := by
  refine Mute.quiet (.append ?_ ?_) (by decide) (by decide)
  · exact .cons (by decide) rfl (.cons (by decide) rfl (mute_single (by decide) rfl))
  · split
    · split
      · exact mute_single (by decide) rfl
      · exact mute_nil
    · exact mute_nil

/-- The decorations of a node. -/
theorem quiet_painting (rules : RuleSet) (config : TextConfig) (node : Node α) :
    ∀ item ∈ (painting rules config node).2, Quiet item := by
  intro item member
  rw [painting] at member
  split at member
  · split at member
    · simp at member
    · simp only [Label.emit, List.mem_append, Option.mem_toList, Option.map_eq_some_iff] at member
      rcases member with gradient | ⟨inferred, _, rfl⟩
      · split at gradient
        · exact quiet_gradient _ _ _ item gradient
        · simp at gradient
      · exact quiet_textStroke inferred
  · split at member
    · split at member <;> simp at member
    · simp only [framePaint] at member
      split at member
      · simp at member
      · exact quiet_corner _ item member

theorem quiet_flowItems (node : Node α) : ∀ item ∈ (flowItems node).1, Quiet item := by
  intro item member
  rw [flowItems] at member
  split at member
  · simp only [Decoration.listLayout] at member
    rcases List.mem_cons.mp member with rfl | member
    · refine Mute.quiet (.append ?_ ?_) (by decide) (by decide)
      · exact .cons (by decide) rfl (.cons (by decide) rfl (.cons (by decide) rfl (.cons (by decide) rfl
          (mute_single (by decide) rfl))))
      · split
        · exact mute_single (by decide) rfl
        · exact mute_nil
    · split at member
      · obtain rfl := List.mem_singleton.mp member
        refine Mute.quiet ?_ (by decide) (by decide)
        exact .cons (by decide) rfl (.cons (by decide) rfl (.cons (by decide) rfl
          (mute_single (by decide) rfl)))
      · simp at member
  · simp at member

omit [Scalar α] in
theorem mute_placement (geometry : Geometry α) : Mute (Decoration.placement geometry) :=
  .cons (by decide) rfl (.cons (by decide) rfl (mute_single (by decide) rfl))

theorem mute_fillParent : Mute (Decoration.fillParent : List (String × Property α)) :=
  (mute_placement Geometry.full).append (.cons (by decide) rfl (mute_single (by decide) rfl))

theorem quiet_targets (rules : RuleSet) (layer : Layer α) (zIndex : Int) :
    ∀ item ∈ targets rules layer zIndex, Quiet item := by
  intro item member
  rw [targets] at member
  split at member
  · obtain rfl := List.mem_singleton.mp member
    have after : Mute [("AutoButtonColor", Property.bool false), ("ZIndex", (.int zIndex : Property α))] :=
      .cons (by decide) rfl (mute_single (by decide) rfl)
    -- the one text of a click target is empty
    have split : ∀ change ∈ Decoration.fillParent ++ [("Text", .string ""),
        ("AutoButtonColor", .bool false), ("ZIndex", (.int zIndex : Property α))],
        change = ("Text", .string "") ∨ Throughout Wordlike change.1 ∧ change.2.texts = [] := by
      intro change among
      rcases List.mem_append.mp among with first | second
      · exact .inr (mute_fillParent change first)
      · exact (List.mem_cons.mp second).imp_right (after change)
    refine quiet_leaf (by decide) (by decide) ?_ ?_
    · intro change among
      rcases split change among with rfl | plain
      · exact (by decide : Throughout Wordlike "Text")
      · exact plain.1
    · intro change among text inside
      rcases split change among with rfl | plain
      · obtain rfl := List.mem_singleton.mp inside
        decide
      · rw [plain.2] at inside
        cases inside
  · simp at member

/-- What the label of a node shows, and its font. -/
def captions (rules : RuleSet) (config : TextConfig) (node : Node α) : List String :=
  if node.strategy rules = .text then
    node.content?.toList.flatMap fun text =>
      [Label.content config text, (Label.mapFont config text.style.fontFamily .empty).1]
  else []

/-- All texts that come from a node, but for its shadow. -/
def ownInscriptions (rules : RuleSet) (config : TextConfig) (node : Node α) : List String :=
  node.layer.name :: (captions rules config node ++
    node.layer.reactions.map (fun reaction => (Decoration.reactionRecord reaction).compact) ++
    (Plan.ownPlacards node).map fun wanted => address wanted.picture)

/-- All texts that come from a node. -/
def inscriptions (rules : RuleSet) (config : TextConfig) (node : Node α) : List String :=
  node.layer.annotations.shadow.toList.map address ++ ownInscriptions rules config node

/-- The keys that a painted node can have, one list for each way to paint. -/
def paintings : List (List String) :=
  [["Text", "RichText", "BackgroundTransparency", "TextSize", "TextWrapped", "TextScaled", "FontFace",
      "TextXAlignment", "TextYAlignment", "LineHeight", "TextColor3", "TextTransparency"],
    ["Image", "BackgroundTransparency", "ScaleType", "ImageTransparency"],
    ["BackgroundColor3", "BackgroundTransparency"]]

theorem keys_painting_sublist (rules : RuleSet) (config : TextConfig) (node : Node α) :
    ∃ keys ∈ paintings, ((painting rules config node).1.map (·.1)).Sublist keys := by
  rw [painting]
  split
  · refine ⟨_, .head _, ?_⟩
    split
    · exact List.nil_sublist _
    · simp only [Label.emit, Label.lineHeight]
      split
      · split <;> split <;> simp only [List.map_append, List.map_cons, List.map_nil] <;> decide
      · split <;> simp only [List.map_append, List.map_cons, List.map_nil] <;> decide
  · split
    · refine ⟨_, .tail _ (.head _), ?_⟩
      split
      · exact List.nil_sublist _
      · have faint : ((imageTransparency node.layer.opacity).map (·.1)).Sublist ["ImageTransparency"] := by
          rw [imageTransparency]
          split
          · exact .refl _
          · exact List.nil_sublist _
        rw [pictureProperties, List.map_append]
        exact (List.Sublist.refl ["Image", "BackgroundTransparency", "ScaleType"]).append faint
    · refine ⟨_, .tail _ (.tail _ (.head _)), ?_⟩
      simp only [framePaint]
      split <;> simp only [List.map_cons, List.map_nil] <;> decide

/-- The keys that place an instance. -/
def frameKeys : List String :=
  ["Position", "Size", "AnchorPoint", "ZIndex", "LayoutOrder", "Rotation", "BorderSizePixel"]

theorem keys_frameProperties (geometry : Geometry α) (layer : Layer α) (slot : Slot α) :
    ((frameProperties geometry layer slot).map (·.1)).Sublist frameKeys := by
  simp only [frameProperties, Decoration.placement]
  split <;> split <;> simp only [List.map_append, List.map_cons, List.map_nil] <;> decide

theorem mute_frameProperties (geometry : Geometry α) (layer : Layer α) (slot : Slot α) :
    Mute (frameProperties geometry layer slot) := by
  refine (((mute_placement geometry).append (mute_single (by decide) rfl)).append ?_ |>.append ?_).append
    (mute_single (by decide) rfl)
  · split
    · exact mute_single (by decide) rfl
    · exact mute_nil
  · split
    · exact mute_single (by decide) rfl
    · exact mute_nil

/-- No property of a node is set twice. -/
theorem nodup_nodeProperties (config : TextConfig) (slot : Slot α) (node : Node α) :
    ((nodeProperties rules config slot node).map (·.1)).Nodup := by
  obtain ⟨keys, known, painted⟩ := keys_painting_sublist rules config node
  have distinct : ∀ keys ∈ paintings, (frameKeys ++ keys ++ ["ClipsDescendants"]).Nodup := by decide
  have clips : ((if node.strategy rules = .container ∧ node.clips then
      [("ClipsDescendants", Property.bool true)] else ([] : Properties α)).map (·.1)).Sublist
        ["ClipsDescendants"] := by
    split
    · exact .refl _
    · exact List.nil_sublist _
  rw [nodeProperties, List.map_append, List.map_append]
  exact (distinct keys known).sublist (((keys_frameProperties _ _ _).append painted).append clips)

section Kind

variable {kind : Char → Prop}

omit [Scalar α] in
theorem forall_texts_append {front back : List (String × Property α)} :
    (∀ change ∈ front ++ back, ∀ text ∈ change.2.texts, Throughout kind text) ↔
      (∀ change ∈ front, ∀ text ∈ change.2.texts, Throughout kind text) ∧
        ∀ change ∈ back, ∀ text ∈ change.2.texts, Throughout kind text :=
  List.forall_mem_append

omit [Scalar α] in
theorem Mute.forall_texts {changes : List (String × Property α)} (mute : Mute changes) :
    ∀ change ∈ changes, ∀ text ∈ change.2.texts, Throughout kind text := by
  intro change member text inside
  rw [(mute change member).2] at inside
  cases inside

theorem words_painting (config : TextConfig) (node : Node α) :
    ∀ change ∈ (painting rules config node).1, Throughout Wordlike change.1 := by
  obtain ⟨keys, known, painted⟩ := keys_painting_sublist rules config node
  have words : ∀ keys ∈ paintings, ∀ key ∈ keys, Throughout Wordlike key := by decide
  exact fun change member => words keys known _ (painted.subset (List.mem_map_of_mem member))

theorem texts_label (config : TextConfig) (layer : Layer α) (text : TextContent α) (log : Diagnostics) :
    (∀ change ∈ (Label.emit config layer text log).1, ∀ text ∈ change.2.texts, Throughout kind text) ↔
      Throughout kind (Label.content config text) ∧
        Throughout kind (Label.mapFont config text.style.fontFamily .empty).1 := by
  have height : Mute (Label.lineHeight text.style) := by
    rw [Label.lineHeight]
    split
    · split
      · exact mute_single (by decide) rfl
      · exact mute_nil
    · exact mute_nil
  simp only [Label.emit, forall_texts_append, iff_true_intro height.forall_texts]
  simp only [List.forall_mem_cons, Property.texts, List.not_mem_nil, false_imp_iff, implies_true, and_true,
    true_and, mapFont_fst config text.style.fontFamily _ .empty]
  refine and_iff_left ?_
  split <;> simp

omit [Scalar α] in
theorem forall_raster {picture : Option Picture} {holds : Picture → Prop} (absent : picture = none) :
    ∀ held, picture = some held → holds held := by
  rintro held same
  rw [absent] at same
  cases same

/-- The texts that paint a node are its label with its font, or the address of its picture. -/
theorem texts_painting (config : TextConfig) {node : Node α} (matched : Matched rules node) :
    (∀ change ∈ (painting rules config node).1, ∀ text ∈ change.2.texts, Throughout kind text) ↔
      (∀ text ∈ captions rules config node, Throughout kind text) ∧
        ∀ picture, node.layer.annotations.raster = some picture → Throughout kind (address picture) := by
  have bare (plain : (node.classify rules).needsRaster = false) : node.layer.annotations.raster = none := by
    rw [← Option.not_isSome_iff_eq_none, matched.raster, plain]
    exact Bool.false_ne_true
  rw [painting, captions]
  split
  · rename_i label
    have plain : (node.classify rules).needsRaster = false := by
      rw [Bool.eq_false_iff]
      intro needed
      rw [strategy_of_needsRaster needed] at label
      cases label
    rw [if_pos label, and_iff_left (forall_raster (bare plain))]
    cases node.content? with
    | none => simp
    | some text => simpa using texts_label config node.layer text .empty
  · rename_i other
    have silent : ¬ node.strategy rules = .text := other
    rw [if_neg silent]
    split
    · rename_i needed
      have held := matched.raster
      rw [needed] at held
      obtain ⟨picture, found⟩ := Option.isSome_iff_exists.mp held
      have faint : Mute (imageTransparency node.layer.opacity) := by
        rw [imageTransparency]
        split
        · exact mute_single (by decide) rfl
        · exact mute_nil
      simp only [found, pictureProperties, forall_texts_append, iff_true_intro faint.forall_texts]
      simp [Property.texts]
    · rename_i plain
      rw [and_iff_left (forall_raster (bare (by simpa using plain)))]
      simp only [framePaint]
      split <;> simp [Property.texts]

/-- The instance of a node is spelled like its name, its label and its picture. -/
theorem spelled_nodeProperties (config : TextConfig) (slot : Slot α) {node : Node α}
    (matched : Matched rules node) :
    Instance.Spelled Wordlike kind ⟨className (node.classify rules), node.layer.name,
        Properties.setAll [] (Properties.setAll [] (nodeProperties rules config slot node)), none⟩ ↔
      Throughout kind node.layer.name ∧ (∀ text ∈ captions rules config node, Throughout kind text) ∧
        ∀ picture, node.layer.annotations.raster = some picture → Throughout kind (address picture) := by
  have frame := mute_frameProperties (nodeGeometry rules node slot).1 node.layer slot
  have clips : Mute (if node.strategy rules = .container ∧ node.clips then
      [("ClipsDescendants", Property.bool true)] else ([] : Properties α)) := by
    split
    · exact mute_single (by decide) rfl
    · exact mute_nil
  have texts : (∀ change ∈ nodeProperties rules config slot node, ∀ text ∈ change.2.texts,
      Throughout kind text) ↔ (∀ text ∈ captions rules config node, Throughout kind text) ∧
        ∀ picture, node.layer.annotations.raster = some picture → Throughout kind (address picture) := by
    rw [nodeProperties, forall_texts_append, forall_texts_append, texts_painting config matched,
      and_iff_left clips.forall_texts, and_iff_right frame.forall_texts]
  have words : ∀ change ∈ nodeProperties rules config slot node, Throughout Wordlike change.1 := by
    rw [nodeProperties, List.forall_mem_append, List.forall_mem_append]
    exact ⟨⟨fun change member => (frame change member).1, words_painting config node⟩,
      fun change member => (clips change member).1⟩
  have word : Throughout Wordlike (className (node.classify rules)) := by
    rw [className]
    split
    · decide
    · decide
    · split <;> decide
  rw [Properties.setAll_setAll, ← texts,
    ← Properties.forall_texts_setAll (Properties.kept_of_nodup (nodup_nodeProperties config slot node))]
  constructor
  · exact fun spelled => ⟨spelled.name, spelled.texts⟩
  · rintro ⟨name, texts⟩
    exact ⟨word, fun property member => words property (Properties.mem_of_mem_setAll member), name, texts⟩

omit [Scalar α] in
/-- The leaf of a picture is spelled like its name and the address of the picture. -/
theorem spelled_picture {name url : String} {front back : List (String × Property α)} (before : Mute front)
    (after : Mute back) (fresh : "Image" ∉ back.map (·.1)) :
    (leaf "ImageLabel" name (front ++ ("Image", .content url) :: back)).Spelled kind ↔
      Throughout kind name ∧ Throughout kind url := by
  have each {holds : String × Property α → Prop} : (∀ change ∈ front ++ ("Image", .content url) :: back,
      holds change) ↔ (∀ change ∈ front, holds change) ∧ holds ("Image", .content url) ∧
        ∀ change ∈ back, holds change := by
    rw [List.forall_mem_append, List.forall_mem_cons]
  rw [spelled_leaf (by decide)]
  · rw [each, and_iff_right before.forall_texts, and_iff_left after.forall_texts, Property.texts,
      List.forall_mem_singleton]
  · rw [each]
    exact ⟨fun change member => (before change member).1, (by decide : Throughout Wordlike "Image"),
      fun change member => (after change member).1⟩
  · rw [each]
    exact ⟨fun change member texts => absurd (before change member).2 texts,
      fun _ => Properties.lookup_setAll_last front fresh,
      fun change member texts => absurd (after change member).2 texts⟩

omit [Scalar α] in
theorem spelledAll_pictures (site : Site α) (part : Part) {picture : Option Picture} {item : Picture → Item α}
    (bare : ∀ held, (item held).children = []) :
    SpelledAll kind (helpers site part (picture.toList.map item)) ↔
      ∀ held, picture = some held → (item held).Spelled kind := by
  rw [helpers, Drawn.spelledAll_ofItems (List.forall_mem_map.mpr fun held _ => bare held), List.forall_mem_map]
  simp only [Option.mem_toList]

variable (typed : ∀ c, Typed c → kind c)
include typed

omit [Scalar α] in
theorem Quiet.all {item : Item α} (quiet : Quiet item) : item.Spelled kind :=
  ⟨quiet.spelled.className, quiet.spelled.keys, quiet.spelled.name.mono typed,
    fun property member text inside => (quiet.spelled.texts property member text inside).mono typed⟩

omit [Scalar α] in
theorem spelledAll_quiet (site : Site α) (part : Part) {items : List (Item α)}
    (quiet : ∀ item ∈ items, Quiet item) : SpelledAll kind (helpers site part items) :=
  (Drawn.spelledAll_ofItems fun item member => (quiet item member).children).mpr
    fun item member => (quiet item member).all typed

theorem spelledAll_records (site : Site α) (layer : Layer α) :
    SpelledAll kind (helpers site .record (Decoration.interactions layer).1) ↔
      ∀ reaction ∈ layer.reactions, Throughout kind (Decoration.reactionRecord reaction).compact := by
  rw [helpers, Decoration.interactions, Drawn.spelledAll_ofItems (List.forall_mem_map.mpr fun _ _ => rfl),
    List.forall_mem_map]
  refine forall₂_congr fun reaction _ => ?_
  rw [spelled_leaf (by decide) (List.forall_mem_singleton.mpr (by decide : Throughout Wordlike "Value"))
    (Properties.kept_of_nodup (by simp)),
    and_iff_right ((by decide : Throughout Typed "Interaction").mono typed), List.forall_mem_singleton,
    Property.texts, List.forall_mem_singleton]

theorem spelledAll_backdrop (site : Site α) (layer : Layer α) (isRoot : Bool) :
    SpelledAll kind (helpers site .background (backdrop layer isRoot)) ↔
      ∀ picture, layer.annotations.background = some picture → Throughout kind (address picture) := by
  rw [backdrop, spelledAll_pictures site .background fun _ => rfl]
  refine forall₂_congr fun picture _ => ?_
  obtain ⟨bounds, mute, item⟩ : ∃ bounds, Mute bounds ∧ underlayItem layer isRoot (address picture) =
      leaf "ImageLabel" "Background" ((Decoration.fillParent ++ bounds) ++
        ("Image", .content (address picture)) :: ("ZIndex", .int 0) :: imageTransparency layer.opacity) := by
    refine ⟨_, ?_, congrArg (leaf "ImageLabel" "Background") (List.append_assoc ..)⟩
    split
    · split
      · exact mute_nil
      · exact .cons (by decide) rfl (mute_single (by decide) rfl)
    · exact mute_nil
  have after : Mute (("ZIndex", (.int 0 : Property α)) :: imageTransparency layer.opacity) := by
    refine .cons (by decide) rfl ?_
    rw [imageTransparency]
    split
    · exact mute_single (by decide) rfl
    · exact mute_nil
  have fresh : "Image" ∉ (("ZIndex", (.int 0 : Property α)) :: imageTransparency layer.opacity).map (·.1) := by
    rw [imageTransparency]
    split <;> simp
  rw [item, spelled_picture (mute_fillParent.append mute) after fresh]
  exact and_iff_right ((by decide : Throughout Typed "Background").mono typed)

theorem spelledAll_shade (site : Site α) (layer : Layer α) (frame : ParentFrame α) (zIndex : Int) :
    SpelledAll kind (helpers site .shadow (shade rules layer frame zIndex)) ↔
      ∀ picture, layer.annotations.shadow = some picture →
        Throughout kind layer.name ∧ Throughout kind (address picture) := by
  rw [shade, spelledAll_pictures site .shadow fun _ => rfl]
  refine forall₂_congr fun picture _ => ?_
  have after : Mute (("BackgroundTransparency", (.float 1 : Property α)) :: ("BorderSizePixel", .int 0) ::
      ("ZIndex", .int zIndex) ::
      if layer.rotation != 0 then [("Rotation", .float (-layer.rotation))] else []) := by
    refine .cons (by decide) rfl (.cons (by decide) rfl (.cons (by decide) rfl ?_))
    split
    · exact mute_single (by decide) rfl
    · exact mute_nil
  rw [shadowItem, List.append_assoc, List.cons_append, List.cons_append, List.cons_append, List.cons_append,
    List.nil_append, spelled_picture (mute_placement _) after, throughout_append]
  · rw [and_iff_left ((by decide : Throughout Typed "_Shadow").mono typed)]
  · split <;> simp

omit typed in
/-- A painted node, with what it helps itself by, is spelled like its own texts. -/
theorem forall_ownInscriptions (config : TextConfig) (node : Node α) :
    (∀ text ∈ ownInscriptions rules config node, Throughout kind text) ↔
      (Throughout kind node.layer.name ∧ (∀ text ∈ captions rules config node, Throughout kind text) ∧
        ∀ picture, node.layer.annotations.raster = some picture → Throughout kind (address picture)) ∧
      (∀ reaction ∈ node.layer.reactions, Throughout kind (Decoration.reactionRecord reaction).compact) ∧
      ∀ picture, node.layer.annotations.background = some picture → Throughout kind (address picture) := by
  simp only [ownInscriptions, Plan.ownPlacards, List.forall_mem_cons, List.forall_mem_append, List.map_append,
    List.map_map, List.forall_mem_map, Option.mem_toList, Function.comp]
  tauto

theorem spelledAll_contents (site : Site α) (inner : List (Drawn α)) :
    SpelledAll kind (contents rules site inner) ↔ SpelledAll kind inner := by
  have flow := spelledAll_quiet typed site .decoration (quiet_flowItems site.node)
  have content : SpelledAll kind (helpers site .decoration (flowItems site.node).1 ++ inner) ↔
      SpelledAll kind inner := by rw [spelledAll_append, and_iff_right flow]
  rw [contents]
  split
  · have mute : Mute (contentProperties : Properties α) := fun change member =>
      (mute_fillParent.append (mute_single (by decide) rfl)) change (Properties.mem_of_mem_setAll member)
    have quiet : Quiet (leaf "Frame" "Content" contentProperties) := mute.quiet (by decide) (by decide)
    rw [SpelledAll, SpelledAll, and_true, Spelled, content]
    exact and_iff_right (quiet.all typed)
  · exact content

theorem spelledAll_framed (config : TextConfig) (isRoot : Bool) (site : Site α) (inner : List (Drawn α)) :
    SpelledAll kind (framed rules config isRoot site inner) ↔
      ((∀ reaction ∈ site.node.layer.reactions, Throughout kind (Decoration.reactionRecord reaction).compact) ∧
        ∀ picture, site.node.layer.annotations.background = some picture → Throughout kind (address picture)) ∧
      SpelledAll kind inner := by
  have decorations := spelledAll_quiet typed site .decoration (quiet_painting rules config site.node)
  have targets := spelledAll_quiet typed site .target
    (quiet_targets rules site.node.layer (above rules site inner))
  rw [framed, spelledAll_append, spelledAll_append, spelledAll_append, spelledAll_append,
    spelledAll_backdrop typed, spelledAll_contents typed, spelledAll_records typed]
  tauto

theorem spelledAll_bare (config : TextConfig) (site : Site α) :
    SpelledAll kind (bare rules config site) ↔
      ∀ reaction ∈ site.node.layer.reactions, Throughout kind (Decoration.reactionRecord reaction).compact := by
  have decorations := spelledAll_quiet typed site .decoration (quiet_painting rules config site.node)
  have targets := spelledAll_quiet typed site .target (quiet_targets rules site.node.layer 1)
  rw [bare, spelledAll_append, spelledAll_append, spelledAll_records typed]
  tauto

mutual

/-- What is drawn for a node is spelled like its own texts and those of all nodes placed under it. -/
theorem spelled_draw (config : TextConfig) (slot : Slot α) : (plot : Plot α) →
    (plot.site.node.strategy rules ≠ .container → plot.children = []) →
    Plot.Settled rules plot.site.path plot.children → (∀ site ∈ plot.sites, Matched rules site.node) →
    ((draw rules config slot plot).Spelled kind ↔
      (∀ text ∈ ownInscriptions rules config plot.site.node, Throughout kind text) ∧
        ∀ site ∈ Plot.sitesAll plot.children, ∀ text ∈ inscriptions rules config site.node,
          Throughout kind text)
  | .mk site notice children, leaf, settled, matched => by
    rw [Plot.sites, List.forall_mem_cons] at matched
    obtain ⟨own, below⟩ := matched
    rw [draw, Spelled, spelled_nodeProperties config slot own, forall_ownInscriptions]
    by_cases container : site.node.strategy rules = .container
    · have inner := spelledAll_drawAll config (.of site.node) 1 0 children settled below
      rw [if_pos container, spelledAll_framed typed, inner]
      exact and_assoc.symm
    · have none := own.background_eq_none container
      obtain rfl : children = [] := leaf container
      rw [if_neg container, spelledAll_bare typed]
      simp only [Plot.site, Plot.children, Plot.sitesAll, none, reduceCtorEq, false_imp_iff, implies_true,
        List.not_mem_nil, and_true]

/-- What is drawn for siblings is spelled like all texts of theirs and of the nodes placed under them. -/
theorem spelledAll_drawAll (config : TextConfig) (frame : ParentFrame α) (zIndex order : Int)
    {host : List Nat} : (plots : List (Plot α)) → Plot.Settled rules host plots →
    (∀ site ∈ Plot.sitesAll plots, Matched rules site.node) →
    (SpelledAll kind (drawAll rules config frame zIndex order plots) ↔
      ∀ site ∈ Plot.sitesAll plots, ∀ text ∈ inscriptions rules config site.node, Throughout kind text)
  | [], _, _ => by simp [drawAll, SpelledAll, Plot.sitesAll]
  | .mk site notice children :: rest, settled, matched => by
    rw [Plot.sitesAll, List.forall_mem_append] at matched
    cases settled with
    | cons deeper leaf inner others =>
      have own := spelled_draw config (sibling rules frame zIndex order site.node) (.mk site notice children)
        leaf inner matched.1
      have later := spelledAll_drawAll config frame
        (zIndex + (shade rules site.node.layer frame zIndex).length + 1) (order + 1) rest others matched.2
      rw [drawAll, spelledAll_append, SpelledAll, spelledAll_shade typed, own, later, Plot.sitesAll, Plot.sites]
      simp only [Plot.site, Plot.children, List.cons_append, List.forall_mem_cons, List.forall_mem_append,
        inscriptions, List.forall_mem_map, Option.mem_toList]
      have named : (∀ text ∈ ownInscriptions rules config site.node, Throughout kind text) →
          Throughout kind site.node.layer.name := fun all => all _ List.mem_cons_self
      constructor
      · exact fun ⟨shadow, ⟨own, below⟩, later⟩ =>
          ⟨⟨fun picture held => (shadow picture held).2, own⟩, below, later⟩
      · exact fun ⟨⟨shadow, own⟩, below, later⟩ =>
          ⟨fun picture held => ⟨named own, shadow picture held⟩, ⟨own, below⟩, later⟩

end

omit typed in
/-- Where a node is placed has no part in its texts. -/
theorem inscriptions_node (config : TextConfig) (site : Site α) :
    inscriptions rules config site.node = inscriptions rules config site.origin := by
  obtain ⟨path, origin, x, y⟩ := site
  cases origin <;> rfl

omit typed in
/-- The nodes that reach the output are those that are placed. -/
theorem forall_sites {root : Node α} {children : List (Plot α)} (layout : Placement.Layout rules root children)
    {holds : Node α → Prop} :
    (∀ site ∈ (Plot.mk (Site.start [] root) none children).sites, holds site.origin) ↔
      ∀ path node, Node.Emits rules root path node → holds node := by
  have whole : (Plot.mk (Site.start [] root) none children).sites.map Site.occurrence =
      Plot.occurrences [.mk (Site.start [] root) none children] := by
    simp [Plot.occurrences, Plot.sitesAll]
  constructor
  · intro all path node emits
    have listed := layout.perm.mem_iff.mpr (Node.mem_emits.mpr ⟨path, (List.nil_append path).symm, emits⟩)
    rw [← whole] at listed
    obtain ⟨site, member, same⟩ := List.mem_map.mp listed
    have origin : site.origin = node := congrArg Prod.snd same
    exact origin ▸ all site member
  · intro all site member
    have placed := layout.perm.mem_iff.mp (whole ▸ List.mem_map_of_mem member)
    obtain ⟨path, _, emits⟩ := Node.mem_emits.mp placed
    exact all path _ emits

omit [Scalar α] typed in
theorem spelled_top (name : String) :
    Instance.Spelled (α := α) Wordlike kind ⟨"ScreenGui", name, Properties.setAll []
      (Properties.setAll [] [("ZIndexBehavior", .token 1), ("ResetOnSpawn", .bool false)]), none⟩ ↔
        Throughout kind name := by
  have mute : Mute [("ZIndexBehavior", Property.token 1), ("ResetOnSpawn", (.bool false : Property α))] :=
    .cons (by decide) rfl (mute_single (by decide) rfl)
  exact (spelled_leaf (by decide) (fun change member => (mute change member).1)
    (Properties.kept_of_nodup (by simp))).trans (and_iff_left mute.forall_texts)

/-- If the pictures of all nodes that reach the output are those that their emission shows, the arena is
spelled like the texts of these nodes. -/
theorem spelled_screen {root : Node α} {children : List (Plot α)} (config : TextConfig)
    (layout : Placement.Layout rules root children)
    (matched : ∀ path node, Node.Emits rules root path node → Matched rules node)
    (unshaded : root.layer.annotations.shadow = none) :
    (∀ inst ∈ (Arena.empty.plant none (drawScreen rules config root children).item).instances,
      inst.Spelled Wordlike kind) ↔
      ∀ path node, Node.Emits rules root path node →
        ∀ text ∈ inscriptions rules config node, Throughout kind text := by
  have sites : ∀ site ∈ (Plot.mk (Site.start [] root) none children).sites, Matched rules site.node :=
    fun site member => matched_node.mpr ((forall_sites layout).mpr matched site member)
  have top : inscriptions rules config (Site.start [] root).node =
      ownInscriptions rules config (Site.start [] root).node := by
    rw [inscriptions, Site.node_start, unshaded]
    rfl
  have drawn := spelled_draw typed config (rootSlot root) (.mk (Site.start [] root) none children)
    (fun leaf => layout.leaf (by rwa [Plot.site, Site.node_start] at leaf)) layout.settled sites
  rw [Drawn.spelled_plant, drawScreen, Spelled, SpelledAll, SpelledAll, and_true, spelled_top, drawn,
    ← forall_sites layout]
  simp only [← inscriptions_node, Plot.sites, List.forall_mem_cons, Plot.site, Plot.children, top]
  refine and_iff_right_of_imp fun own => own.1 _ ?_
  rw [Site.node_start]
  exact List.mem_cons_self

end Kind

end Assembly
end DesignCompiler
