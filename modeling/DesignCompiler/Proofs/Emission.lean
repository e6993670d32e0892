import DesignCompiler.Proofs.Furnishing
import DesignCompiler.Scalar.Rational
import Mathlib.Data.List.Nodup
import Mathlib.Data.Set.Function

/-!
Emission loses no node and repeats none. Wherever nodes are lifted to, the instances that stand for
nodes are, one to one, the nodes that reach the output, and each lies below the instance of a node
that it lies below in the design.
-/
namespace DesignCompiler

variable {α : Type} [Scalar α] {rules : RuleSet}

/-- An instance that only helps others: the screen, a modifier, the record of a reaction, a click
target, the frame around the children of a flow, or a picture that is not the paint of a node and so
does not say how it scales. -/
inductive Synthetic : String → String → Properties α → Prop where
  | screen : Synthetic "ScreenGui" name properties
  | modifier (known : className ∈ Assembly.modifiers) : Synthetic className name properties
  | record : Synthetic "StringValue" "Interaction" properties
  | target : Synthetic "TextButton" "ClickTarget" properties
  | content : Synthetic "Frame" "Content" Assembly.contentProperties
  | background (unscaled : "ScaleType" ∉ properties.map (·.1)) :
      Synthetic "ImageLabel" "Background" properties
  | shadow (unscaled : "ScaleType" ∉ properties.map (·.1)) :
      Synthetic "ImageLabel" (owner ++ "_Shadow") properties

def Instance.IsSynthetic (inst : Instance α) : Prop :=
  Synthetic inst.className inst.name inst.properties

namespace Drawn

/-- The item stands for a node itself. -/
def isSelf (drawn : Drawn α) : Bool := drawn.origin.part == .self

/-- The instance made of the item only helps others. -/
def IsSynthetic (drawn : Drawn α) : Prop :=
  Synthetic drawn.className drawn.name (Properties.setAll [] drawn.properties)

end Drawn

namespace Assembly

open Decoration (leaf)

/-- A leaf that makes a synthetic instance, without a place in a flow. -/
structure Aids (item : Item α) : Prop where
  childless : item.children = []
  unordered : "LayoutOrder" ∉ item.properties.map (·.1)
  synthetic : Synthetic item.className item.name (Properties.setAll [] item.properties)

theorem aids_leaf {className name : String} {changes : List (String × Property α)}
    (unordered : "LayoutOrder" ∉ changes.map (·.1))
    (synthetic : Synthetic className name (Properties.setAll [] changes)) :
    Aids (leaf className name changes) := by
  refine ⟨rfl, ?_, ?_⟩
  · rw [leaf, Item.properties, Properties.mem_keys_setAll]
    simpa using unordered
  · rw [leaf, Item.properties, Properties.setAll_setAll]
    exact synthetic

theorem aids_of_furnishing {item : Item α} (furnishing : Furnishing item) : Aids item := by
  refine ⟨furnishing.children, furnishing.unordered, ?_⟩
  cases furnishing with
  | modifier known => exact .modifier known
  | record text => exact .record
  | target zIndex => exact .target

theorem aids_backdrop (layer : Layer α) (isRoot : Bool) :
    ∀ item ∈ backdrop layer isRoot, Aids item := by
  intro item member
  obtain ⟨picture, _, rfl⟩ := List.mem_map.mp member
  refine aids_leaf ?_ (.background fun scaled => ?_)
  · simp only [Decoration.fillParent, Decoration.placement, imageTransparency]
    split <;> split <;> simp
  · simp only [Properties.mem_keys_setAll, Decoration.fillParent, Decoration.placement,
      imageTransparency] at scaled
    split at scaled <;> split at scaled <;> simp at scaled

theorem aids_shade (layer : Layer α) (frame : ParentFrame α) (zIndex : Int) :
    ∀ item ∈ shade rules layer frame zIndex, Aids item := by
  intro item member
  obtain ⟨picture, _, rfl⟩ := List.mem_map.mp member
  refine aids_leaf ?_ (.shadow fun scaled => ?_)
  · simp only [Decoration.placement]
    split <;> simp
  · simp only [Properties.mem_keys_setAll, Decoration.placement] at scaled
    split at scaled <;> simp at scaled

/-- A line about an item that helps a node. -/
def Helps (site : Site α) (line : List Origin × Drawn α) : Prop :=
  line.2.origin.path = site.path ∧ line.2.origin.part ≠ .self ∧ line.2.IsSynthetic

theorem helps_helpers {site : Site α} {part : Part} {items : List (Item α)} {above : List Origin}
    {line : List Origin × Drawn α} (other : part ≠ .self) (aids : ∀ item ∈ items, Aids item)
    (member : line ∈ Drawn.linesAll above (helpers site part items)) : Helps site line := by
  obtain ⟨_, item, present, same⟩ :=
    Drawn.mem_linesAll_ofItems (fun item member => (aids item member).childless) member
  rw [Helps, same]
  exact ⟨rfl, other, (aids item present).synthetic⟩

theorem helps_furnishing {site : Site α} {part : Part} {items : List (Item α)} {above : List Origin}
    {line : List Origin × Drawn α} (other : part ≠ .self)
    (furnishing : ∀ item ∈ items, Furnishing item)
    (member : line ∈ Drawn.linesAll above (helpers site part items)) : Helps site line :=
  helps_helpers other (fun item present => aids_of_furnishing (furnishing item present)) member

/-- What lies in a container helps it or belongs to its children. -/
theorem mem_lines_framed {config : TextConfig} {isRoot : Bool} {site : Site α} {inner : List (Drawn α)}
    {above : List Origin} {line : List Origin × Drawn α}
    (member : line ∈ Drawn.linesAll above (framed rules config isRoot site inner)) :
    Helps site line ∨ ∃ between, above ⊆ between ∧ line ∈ Drawn.linesAll between inner := by
  simp only [framed, contents, Drawn.linesAll_append, List.mem_append] at member
  rcases member with (((decoration | background) | content) | record) | target
  · exact .inl (helps_furnishing (by decide) (furnishing_painting config site.node) decoration)
  · exact .inl (helps_helpers (by decide) (aids_backdrop _ _) background)
  · split at content
    · simp only [Drawn.linesAll, Drawn.lines, List.append_nil, Drawn.linesAll_append, List.mem_cons,
        List.mem_append] at content
      rcases content with rfl | flow | child
      · refine .inl ⟨rfl, fun same => Part.noConfusion same, ?_⟩
        have same : Properties.setAll [] (contentProperties : Properties α) = contentProperties :=
          Properties.setAll_setAll _
        simp only [Drawn.IsSynthetic, Drawn.className, Drawn.name, Drawn.properties, same]
        exact .content
      · exact .inl (helps_furnishing (by decide) (furnishing_flowItems site.node) flow)
      · exact .inr ⟨_, List.subset_cons_self _ _, child⟩
    · rcases List.mem_append.mp (Drawn.linesAll_append .. ▸ content) with flow | child
      · exact .inl (helps_furnishing (by decide) (furnishing_flowItems site.node) flow)
      · exact .inr ⟨above, List.Subset.refl _, child⟩
  · exact .inl (helps_furnishing (by decide) (furnishing_interactions _) record)
  · exact .inl (helps_furnishing (by decide) (furnishing_targets _ _) target)

theorem mem_lines_bare {config : TextConfig} {site : Site α} {above : List Origin}
    {line : List Origin × Drawn α}
    (member : line ∈ Drawn.linesAll above (bare rules config site)) : Helps site line := by
  simp only [bare, Drawn.linesAll_append, List.mem_append] at member
  rcases member with (decoration | record) | target
  · exact helps_furnishing (by decide) (furnishing_painting config site.node) decoration
  · exact helps_furnishing (by decide) (furnishing_interactions _) record
  · exact helps_furnishing (by decide) (furnishing_targets _ _) target

/-- What is drawn for a node is the node itself, something that helps it, or drawn for a node placed
under it. -/
theorem mem_lines_draw {config : TextConfig} {slot : Slot α} {site : Site α}
    {notice : Option Warning} {children : List (Plot α)} {above : List Origin}
    {line : List Origin × Drawn α}
    (member : line ∈ (draw rules config slot (.mk site notice children)).lines above) :
    line = (above, draw rules config slot (.mk site notice children)) ∨ Helps site line ∨
      ∃ between, ⟨site.path, .self⟩ ∈ between ∧ above ⊆ between ∧
        line ∈ Drawn.linesAll between (drawAll rules config (.of site.node) 1 0 children) := by
  rw [draw, Drawn.lines] at member
  rcases List.mem_cons.mp member with own | below
  · exact .inl (by rw [own, draw])
  · right
    split at below
    · rcases mem_lines_framed below with helps | ⟨between, wider, child⟩
      · exact .inl helps
      · exact .inr ⟨between, wider List.mem_cons_self,
          fun _ inside => wider (List.mem_cons_of_mem _ inside), child⟩
    · exact .inl (mem_lines_bare below)

theorem synthetic_inv {className name : String} {properties : Properties α}
    (synthetic : Synthetic className name properties) :
    className ∉ ["Frame", "TextLabel", "ImageLabel"] ∨
      (className = "Frame" ∧ properties = contentProperties) ∨
      (className = "ImageLabel" ∧ "ScaleType" ∉ properties.map (·.1)) := by
  cases synthetic with
  | screen => exact .inl (by decide)
  | modifier known =>
    refine .inl fun own => ?_
    simp only [modifiers, List.mem_cons, List.not_mem_nil, or_false] at known own
    rcases known with rfl | rfl | rfl | rfl | rfl <;> simp at own
  | record => exact .inl (by decide)
  | target => exact .inl (by decide)
  | content => exact .inr (.inl ⟨rfl, rfl⟩)
  | background unscaled => exact .inr (.inr ⟨rfl, unscaled⟩)
  | shadow unscaled => exact .inr (.inr ⟨rfl, unscaled⟩)

/-- Among the properties of a node the z-index comes fourth, other than in a frame around
children. -/
theorem nodeProperties_ne_content (config : TextConfig) (slot : Slot α) (node : Node α) :
    Properties.setAll [] (nodeProperties rules config slot node) ≠ contentProperties := by
  intro same
  obtain ⟨rest, split⟩ : ∃ rest, nodeProperties rules config slot node =
      (Decoration.placement (nodeGeometry rules node slot).1 ++ [("ZIndex", .int slot.zIndex)]) ++
        rest := by
    simp only [nodeProperties, frameProperties, List.append_assoc]
    exact ⟨_, rfl⟩
  rw [split, Properties.setAll_append] at same
  obtain ⟨_, keys⟩ := Properties.keys_setAll_prefix
    (Properties.setAll [] (Decoration.placement (nodeGeometry rules node slot).1 ++
      [("ZIndex", .int slot.zIndex)])) rest
  rw [same] at keys
  have fourth := congrArg (·[3]?) keys
  simp [Properties.setAll, Properties.set, Decoration.placement, contentProperties,
    Decoration.fillParent] at fourth

theorem scaled_of_needsRaster {config : TextConfig} {slot : Slot α} {node : Node α}
    (supplied : Supplied rules node) (needed : (node.classify rules).needsRaster = true) :
    "ScaleType" ∈ (Properties.setAll [] (nodeProperties rules config slot node)).map (·.1) := by
  have raster := strategy_of_needsRaster needed
  obtain ⟨picture, found⟩ := Option.isSome_iff_exists.mp (supplied.planned needed)
  rw [Properties.mem_keys_setAll]
  right
  simp [nodeProperties, painting, raster, needed, found, pictureProperties]

theorem not_synthetic_draw {config : TextConfig} {slot : Slot α} {site : Site α}
    (supplied : Supplied rules site.node) (notice : Option Warning) (children : List (Plot α)) :
    ¬ (draw rules config slot (.mk site notice children)).IsSynthetic := by
  intro synthetic
  rw [draw, Drawn.IsSynthetic] at synthetic
  simp only [Drawn.className, Drawn.name, Drawn.properties, Properties.setAll_setAll] at synthetic
  rcases synthetic_inv synthetic with other | ⟨_, content⟩ | ⟨image, unscaled⟩
  · apply other
    rw [className]
    split
    · simp
    · simp
    · split <;> simp
  · exact nodeProperties_ne_content _ _ _ content
  · refine unscaled (scaled_of_needsRaster supplied ?_)
    rw [className] at image
    split at image
    · simp at image
    · simp at image
    · split at image
      · assumption
      · simp at image

mutual

/-- Just those items make synthetic instances that do not stand for a node themselves. -/
theorem synthetic_iff_draw {config : TextConfig} {slot : Slot α} {above : List Origin}
    {line : List Origin × Drawn α} : (plot : Plot α) → Supplied rules plot.site.node →
    Ready rules plot.children → line ∈ (draw rules config slot plot).lines above →
    (line.2.IsSynthetic ↔ line.2.origin.part ≠ .self)
  | .mk site notice children, supplied, ready, member => by
    rcases mem_lines_draw member with rfl | ⟨_, helper, synthetic⟩ | ⟨between, _, _, child⟩
    · refine iff_of_false (not_synthetic_draw supplied notice children) fun other => other ?_
      rw [draw]
      rfl
    · exact iff_of_true synthetic helper
    · exact synthetic_iff_drawAll children ready child

theorem synthetic_iff_drawAll {config : TextConfig} {frame : ParentFrame α} {zIndex order : Int}
    {above : List Origin} {line : List Origin × Drawn α} : (plots : List (Plot α)) →
    Ready rules plots →
    line ∈ Drawn.linesAll above (drawAll rules config frame zIndex order plots) →
    (line.2.IsSynthetic ↔ line.2.origin.part ≠ .self)
  | [], _, member => by simp [drawAll, Drawn.linesAll] at member
  | .mk site notice children :: rest, ready, member => by
    obtain ⟨⟨supplied, _⟩, inner, others⟩ := ready_cons.mp ready
    simp only [drawAll, Drawn.linesAll_append, Drawn.linesAll, List.mem_append] at member
    rcases member with shadow | own | later
    · obtain ⟨_, helper, synthetic⟩ := helps_helpers (by decide) (aids_shade _ _ _) shadow
      exact iff_of_true synthetic helper
    · exact synthetic_iff_draw (.mk site notice children) supplied inner own
    · exact synthetic_iff_drawAll rest others later

end

mutual

/-- The instance of a node lies below that of a node above it in the design, if it is not the
outermost one. -/
theorem under_draw {config : TextConfig} {slot : Slot α} {above : List Origin}
    {line : List Origin × Drawn α} : (plot : Plot α) →
    Plot.Settled rules plot.site.path plot.children →
    line ∈ (draw rules config slot plot).lines above → line.2.origin.part = .self →
    (line.2.origin.path = plot.site.path ∧ line.1 = above) ∨
      ∃ origin ∈ line.1, origin.part = .self ∧ Deeper origin.path line.2.origin.path
  | .mk site notice children, settled, member, self => by
    rcases mem_lines_draw member with rfl | ⟨_, helper, _⟩ | ⟨between, inside, _, child⟩
    · exact .inl ⟨by rw [draw]; rfl, rfl⟩
    · exact absurd self helper
    · exact .inr (under_drawAll children settled inside child self)

theorem under_drawAll {config : TextConfig} {frame : ParentFrame α} {zIndex order : Int}
    {above : List Origin} {host : List Nat} {line : List Origin × Drawn α} :
    (plots : List (Plot α)) → Plot.Settled rules host plots → ⟨host, .self⟩ ∈ above →
    line ∈ Drawn.linesAll above (drawAll rules config frame zIndex order plots) →
    line.2.origin.part = .self →
    ∃ origin ∈ line.1, origin.part = .self ∧ Deeper origin.path line.2.origin.path
  | [], _, _, member, _ => by simp [drawAll, Drawn.linesAll] at member
  | .mk site notice children :: rest, settled, inside, member, self => by
    cases settled with
    | cons deeper leaf inner others =>
      simp only [drawAll, Drawn.linesAll_append, Drawn.linesAll, List.mem_append] at member
      rcases member with shadow | own | later
      · exact absurd self (helps_helpers (by decide) (aids_shade _ _ _) shadow).2.1
      · rcases under_draw (.mk site notice children) inner own self with ⟨path, lies⟩ | found
        · exact ⟨⟨host, .self⟩, lies ▸ inside, rfl, path ▸ deeper⟩
        · exact found
      · exact under_drawAll rest others inside later self

end

/-- What the output keeps of a node: its path, the class it is shown with and its name. -/
def kept (rules : RuleSet) (occurrence : List Nat × Node α) : List Nat × String × String :=
  (occurrence.1, className (occurrence.2.classify rules), occurrence.2.layer.name)

/-- The same of an item. -/
def shown (line : List Origin × Drawn α) : List Nat × String × String :=
  (line.2.origin.path, line.2.className, line.2.name)

/-- The items that stand for nodes themselves. -/
def selves (lines : List (List Origin × Drawn α)) : List (List Nat × String × String) :=
  (lines.filter fun line => line.2.isSelf).map shown

omit [Scalar α] in
theorem selves_append (front back : List (List Origin × Drawn α)) :
    selves (front ++ back) = selves front ++ selves back := by
  simp [selves]

theorem selves_helpers (site : Site α) (part : Part) (other : part ≠ .self)
    {items : List (Item α)} (aids : ∀ item ∈ items, Aids item) (above : List Origin) :
    selves (Drawn.linesAll above (helpers site part items)) = [] := by
  rw [selves, List.map_eq_nil_iff, List.filter_eq_nil_iff]
  intro line member
  simpa [Drawn.isSelf] using (helps_helpers other aids member).2.1

theorem selves_furnishing (site : Site α) (part : Part) (other : part ≠ .self)
    {items : List (Item α)} (furnishing : ∀ item ∈ items, Furnishing item) (above : List Origin) :
    selves (Drawn.linesAll above (helpers site part items)) = [] :=
  selves_helpers site part other (fun item present => aids_of_furnishing (furnishing item present)) above

theorem selves_framed (rules : RuleSet) (config : TextConfig) (isRoot : Bool) (site : Site α)
    (inner : List (Drawn α)) (above : List Origin) : ∃ between,
    selves (Drawn.linesAll above (framed rules config isRoot site inner)) =
      selves (Drawn.linesAll between inner) := by
  simp only [framed, contents, Drawn.linesAll_append, selves_append,
    selves_furnishing site .decoration (by decide) (furnishing_painting config site.node),
    selves_helpers site .background (by decide) (aids_backdrop site.node.layer isRoot),
    selves_furnishing site .record (by decide) (furnishing_interactions site.node.layer),
    selves_furnishing site .target (by decide) (furnishing_targets site.node.layer _), List.nil_append,
    List.append_nil]
  split
  · refine ⟨⟨site.path, .content⟩ :: above, ?_⟩
    simp only [Drawn.linesAll, Drawn.lines, List.append_nil, Drawn.linesAll_append]
    rw [← List.singleton_append, selves_append, selves_append,
      selves_furnishing site .decoration (by decide) (furnishing_flowItems site.node)]
    rfl
  · refine ⟨above, ?_⟩
    rw [Drawn.linesAll_append, selves_append,
      selves_furnishing site .decoration (by decide) (furnishing_flowItems site.node), List.nil_append]

theorem kept_node (site : Site α) : kept rules (site.path, site.node) = kept rules site.occurrence := by
  obtain ⟨path, origin, x, y⟩ := site
  cases origin <;> rfl

mutual

/-- The items that stand for nodes come in the order of the nodes as they are placed, each once. -/
theorem selves_draw (config : TextConfig) (slot : Slot α) (above : List Origin) : (plot : Plot α) →
    (plot.site.node.strategy rules ≠ .container → plot.children = []) →
    Plot.Settled rules plot.site.path plot.children →
    selves ((draw rules config slot plot).lines above) =
      (plot.sites.map Site.occurrence).map (kept rules)
  | .mk site notice children, leaf, settled => by
    rw [draw, Drawn.lines, ← List.singleton_append, selves_append, Plot.sites]
    have own : selves [(above, Drawn.mk ⟨site.path, .self⟩ (className (site.node.classify rules))
        site.node.layer.name (Properties.setAll [] (nodeProperties rules config slot site.node))
        (if site.node.strategy rules = .container then
          framed rules config slot.isRoot site (drawAll rules config (.of site.node) 1 0 children)
        else bare rules config site))] = [kept rules site.occurrence] := by
      rw [← kept_node]
      rfl
    rw [own, List.map_cons, List.map_cons, List.singleton_append]
    congr 1
    by_cases container : site.node.strategy rules = .container
    · rw [if_pos container]
      obtain ⟨between, same⟩ := selves_framed rules config slot.isRoot site
        (drawAll rules config (.of site.node) 1 0 children) (⟨site.path, .self⟩ :: above)
      rw [same, selves_drawAll config _ 1 0 between children settled]
      rfl
    · rw [if_neg container]
      obtain rfl := leaf container
      rw [Plot.sitesAll, List.map_nil, List.map_nil, selves, List.map_eq_nil_iff,
        List.filter_eq_nil_iff]
      intro line member
      simpa [Drawn.isSelf] using (mem_lines_bare member).2.1

theorem selves_drawAll (config : TextConfig) (frame : ParentFrame α) (zIndex order : Int)
    (above : List Origin) {host : List Nat} : (plots : List (Plot α)) →
    Plot.Settled rules host plots →
    selves (Drawn.linesAll above (drawAll rules config frame zIndex order plots)) =
      (Plot.occurrences plots).map (kept rules)
  | [], _ => by rw [drawAll, Drawn.linesAll]; rfl
  | .mk site notice children :: rest, settled => by
    cases settled with
    | cons deeper leaf inner others =>
      rw [drawAll, Drawn.linesAll_append, selves_append,
        selves_helpers site .shadow (by decide) (aids_shade _ _ _), Drawn.linesAll, selves_append,
        selves_draw config _ above (.mk site notice children) leaf inner,
        selves_drawAll config frame _ _ above rest others, List.nil_append, Plot.occurrences,
        Plot.occurrences, Plot.sitesAll, List.map_append, List.map_append]

end

section Screen

variable {root : Node α} {children : List (Plot α)} {config : TextConfig}

/-- The entries of a whole design. -/
abbrev screenEntries (rules : RuleSet) (config : TextConfig) (root : Node α)
    (children : List (Plot α)) : List (Entry α) :=
  (drawScreen rules config root children).entries 0 []

theorem lines_screen :
    (screenEntries rules config root children).map Entry.line =
      ([], drawScreen rules config root children) ::
        (draw rules config (rootSlot root) (.mk (Site.start [] root) none children)).lines
          [⟨[], .screen⟩] := by
  rw [Drawn.map_line_entries, drawScreen, Drawn.lines, Drawn.linesAll, Drawn.linesAll,
    List.append_nil]
  rfl

theorem selves_screen (config : TextConfig) (layout : Placement.Layout rules root children) :
    (selves ((screenEntries rules config root children).map Entry.line)).Perm
      ((root.emits rules []).map (kept rules)) := by
  have screen : selves [(([] : List Origin), drawScreen rules config root children)] = [] := rfl
  rw [lines_screen, ← List.singleton_append, selves_append, screen, List.nil_append,
    selves_draw config _ _ (.mk (Site.start [] root) none children)
      (fun leaf => layout.leaf (by rwa [Plot.site, Site.node_start] at leaf)) layout.settled]
  have whole : (Plot.mk (Site.start [] root) none children).sites.map Site.occurrence =
      Plot.occurrences [.mk (Site.start [] root) none children] := by
    simp [Plot.occurrences, Plot.sitesAll]
  rw [whole]
  exact layout.perm.map _

/-- Every node that reaches the output has an entry of its own. -/
theorem exists_entry (config : TextConfig) (layout : Placement.Layout rules root children) {path : List Nat}
    {node : Node α} (reached : Node.Emits rules root path node) :
    ∃ entry ∈ screenEntries rules config root children,
      entry.drawn.isSelf = true ∧ shown entry.line = kept rules (path, node) := by
  have member : kept rules (path, node) ∈ (root.emits rules []).map (kept rules) :=
    List.mem_map_of_mem (Node.mem_emits.mpr ⟨path, by simp, reached⟩)
  obtain ⟨line, inside, same⟩ := List.mem_map.mp ((selves_screen config layout).mem_iff.mpr member)
  obtain ⟨present, self⟩ := List.mem_filter.mp inside
  obtain ⟨entry, found, rfl⟩ := List.mem_map.mp present
  exact ⟨entry, found, self, same⟩

/-- Every entry that stands for a node stands for one that reaches the output. -/
theorem emits_of_entry (layout : Placement.Layout rules root children) {entry : Entry α}
    (member : entry ∈ screenEntries rules config root children) (self : entry.drawn.isSelf = true) :
    ∃ node, Node.Emits rules root entry.drawn.origin.path node := by
  have inside : shown entry.line ∈ selves ((screenEntries rules config root children).map Entry.line) :=
    List.mem_map_of_mem (List.mem_filter.mpr ⟨List.mem_map_of_mem member, self⟩)
  obtain ⟨⟨path, node⟩, reached, same⟩ := List.mem_map.mp ((selves_screen config layout).mem_iff.mp inside)
  obtain ⟨_, rfl, reached⟩ := Node.mem_emits.mp reached
  have path : path = entry.drawn.origin.path := congrArg (·.1) same
  exact ⟨node, path ▸ reached⟩

theorem entry_eq_of_path (layout : Placement.Layout rules root children)
    {first second : Entry α} (one : first ∈ screenEntries rules config root children)
    (other : second ∈ screenEntries rules config root children)
    (selfOne : first.drawn.isSelf = true) (selfOther : second.drawn.isSelf = true)
    (same : first.drawn.origin.path = second.drawn.origin.path) : first = second := by
  have distinct := ((selves_screen config layout).map (·.1)).nodup_iff.mpr (by
    rw [List.map_map]
    exact Node.emits_nodup rules [] root)
  rw [selves, List.filter_map, List.map_map, List.map_map] at distinct
  exact List.inj_on_of_nodup_map distinct (List.mem_filter.mpr ⟨one, selfOne⟩)
    (List.mem_filter.mpr ⟨other, selfOther⟩) same

/-- An instance is synthetic unless its entry stands for a node. -/
theorem synthetic_iff_entry (supplied : Supplied rules root) (ready : Ready rules children)
    {entry : Entry α} (member : entry ∈ screenEntries rules config root children) :
    entry.row.IsSynthetic ↔ ¬ entry.drawn.isSelf = true := by
  have line : entry.line ∈ (screenEntries rules config root children).map Entry.line :=
    List.mem_map_of_mem member
  have told : entry.drawn.IsSynthetic ↔ entry.drawn.origin.part ≠ .self := by
    rw [lines_screen] at line
    rcases List.mem_cons.mp line with screen | below
    · have drawn : entry.drawn = drawScreen rules config root children := congrArg (·.2) screen
      rw [drawn]
      exact iff_of_true .screen fun same => Part.noConfusion same
    · exact synthetic_iff_draw (.mk (Site.start [] root) none children)
        (by rwa [Plot.site, Site.node_start]) ready below
  rw [Drawn.isSelf, beq_iff_eq]
  exact told

/-- The entry of a node other than the root lies below that of a node above it in the design. -/
theorem under_entry (layout : Placement.Layout rules root children) {entry : Entry α}
    (member : entry ∈ screenEntries rules config root children) (self : entry.drawn.isSelf = true)
    (low : entry.drawn.origin.path ≠ []) :
    ∃ host ∈ screenEntries rules config root children, host.drawn.isSelf = true ∧
      Deeper host.drawn.origin.path entry.drawn.origin.path ∧
      (Arena.empty.plant none (drawScreen rules config root children).item).Below entry.position
        host.position := by
  have line : entry.line ∈ (screenEntries rules config root children).map Entry.line :=
    List.mem_map_of_mem member
  have part : entry.drawn.origin.part = .self := by simpa [Drawn.isSelf] using self
  rw [lines_screen] at line
  rcases List.mem_cons.mp line with screen | below
  · have drawn : entry.drawn = drawScreen rules config root children := congrArg (·.2) screen
    rw [drawn] at part
    exact Part.noConfusion part
  · rcases under_draw (.mk (Site.start [] root) none children) layout.settled below part with
      ⟨top, _⟩ | ⟨origin, inside, selfHost, deeper⟩
    · exact absurd top low
    · obtain ⟨⟨high, _⟩, lies, rfl⟩ := List.mem_map.mp inside
      obtain ⟨host, present, rfl, rfl, hangs⟩ := Arena.below_plant member lies
      exact ⟨host, present, by simpa [Drawn.isSelf] using selfHost, deeper, hangs⟩

/-- Every node that reaches the output has a place, where its entry and no other one stands. -/
theorem exists_place (config : TextConfig) (layout : Placement.Layout rules root children) :
    ∃ place : List Nat → Nat,
      (∀ path node, Node.Emits rules root path node →
        ∃ entry ∈ screenEntries rules config root children, entry.position = place path ∧
          entry.drawn.isSelf = true ∧ shown entry.line = kept rules (path, node)) ∧
      ∀ path node, Node.Emits rules root path node →
        ∀ entry ∈ screenEntries rules config root children, entry.drawn.isSelf = true →
          entry.drawn.origin.path = path → place path = entry.position := by
  have each : ∀ path, ∃ position, ∀ node, Node.Emits rules root path node →
      ∃ entry ∈ screenEntries rules config root children, entry.position = position ∧
        entry.drawn.isSelf = true ∧ shown entry.line = kept rules (path, node) := by
    intro path
    by_cases reached : ∃ node, Node.Emits rules root path node
    · obtain ⟨node, reached⟩ := reached
      obtain ⟨entry, member, self, same⟩ := exists_entry config layout reached
      refine ⟨entry.position, fun other also => ?_⟩
      obtain ⟨second, present, selfSecond, sameSecond⟩ := exists_entry config layout also
      have path : entry.drawn.origin.path = second.drawn.origin.path :=
        (congrArg (·.1) same).trans (congrArg (·.1) sameSecond).symm
      obtain rfl := entry_eq_of_path layout member present self selfSecond path
      exact ⟨entry, member, rfl, self, sameSecond⟩
    · exact ⟨0, fun node also => absurd ⟨node, also⟩ reached⟩
  choose place stands using each
  refine ⟨place, stands, ?_⟩
  intro path node reached entry member self same
  obtain ⟨own, present, position, selfOwn, shown⟩ := stands path node reached
  have paths : own.drawn.origin.path = entry.drawn.origin.path :=
    (congrArg (·.1) shown).trans same.symm
  rw [← position, entry_eq_of_path layout present member selfOwn self paths]

end Screen

/-- The placement ends under every host, whatever is queued and waiting; and if a design is
assembled, the nodes that reach the output and the instances that are not synthetic are the same, one
to one, with the name and the class of each, and each but the root lies below the instance of a node
that it lies below in the design. -/
theorem assemble_conserves (rules : RuleSet) (config : TextConfig) (root : Node α) :
    (∀ (host : Site α) (canLift : Bool) (queue waiting : List (Site α)), ∃ plots lifted,
      Placement.Lifting rules host canLift queue waiting plots lifted ∧
      Placement.outcome rules host.node canLift (queue.map Site.node) (waiting.map Site.node) =
        (Plot.placedAll plots, lifted.map Site.node)) ∧
    ∀ (log log' : Diagnostics) (arena : Arena α),
      (assemble rules config root).run log = .ok (arena, log') →
      ∃ place : List Nat → Nat,
        Set.BijOn place {path | ∃ node, Node.Emits rules root path node}
          {position | ∃ inst, arena.get? position = some inst ∧ ¬ inst.IsSynthetic} ∧
        (∀ path node, Node.Emits rules root path node → ∃ inst,
          arena.get? (place path) = some inst ∧ inst.name = node.layer.name ∧
          inst.className = className (node.classify rules)) ∧
        ∀ path node, Node.Emits rules root path node → path ≠ [] → ∃ above host,
          Node.Emits rules root above host ∧ Deeper above path ∧
          arena.Below (place path) (place above) := by
  refine ⟨Placement.Lifting.ends rules, fun log log' arena done => ?_⟩
  obtain ⟨children, layout⟩ := Placement.exists_layout rules root
  obtain ⟨⟨supplied, ready⟩, rfl⟩ := drawn_of_assemble layout done
  obtain ⟨place, stands, standing⟩ := exists_place config layout
  -- onto the instances that draw a node itself, one to one by the path that each is drawn for
  refine ⟨place, ⟨?_, ?_, ?_⟩, ?_, ?_⟩
  · rintro path ⟨node, reached⟩
    obtain ⟨entry, member, position, self, _⟩ := stands path node reached
    exact ⟨entry.row, Arena.get?_plant.mpr ⟨entry, member, position, rfl⟩,
      fun synthetic => (synthetic_iff_entry supplied ready member).mp synthetic self⟩
  · rintro path ⟨node, reached⟩ other ⟨otherNode, also⟩ same
    obtain ⟨first, one, position, self, shownFirst⟩ := stands path node reached
    obtain ⟨second, two, positionTwo, selfTwo, shownSecond⟩ := stands other otherNode also
    obtain rfl := Arena.entry_unique one two (by rw [position, positionTwo, same])
    exact (congrArg (·.1) shownFirst).symm.trans (congrArg (·.1) shownSecond)
  · rintro position ⟨inst, found, other⟩
    obtain ⟨entry, member, rfl, rfl⟩ := Arena.get?_plant.mp found
    have self : entry.drawn.isSelf = true := by
      rwa [synthetic_iff_entry supplied ready member, not_not] at other
    obtain ⟨node, reached⟩ := emits_of_entry layout member self
    exact ⟨_, ⟨node, reached⟩, standing _ _ reached _ member self rfl⟩
  · intro path node reached
    obtain ⟨entry, member, position, self, shown⟩ := stands path node reached
    exact ⟨entry.row, Arena.get?_plant.mpr ⟨entry, member, position, rfl⟩,
      congrArg (·.2.2) shown, congrArg (·.2.1) shown⟩
  · intro path node reached low
    obtain ⟨entry, member, position, self, shown⟩ := stands path node reached
    have own : entry.drawn.origin.path = path := congrArg (·.1) shown
    obtain ⟨host, present, selfHost, deeper, below⟩ := under_entry layout member self (own ▸ low)
    obtain ⟨above, reachedAbove⟩ := emits_of_entry layout present selfHost
    refine ⟨host.drawn.origin.path, above, reachedAbove, own ▸ deeper, ?_⟩
    rw [← position, standing _ _ reachedAbove _ present selfHost rfl]
    exact below

/-- A click target that reaches out of a container that clips, within another one that clips. -/
private def twiceCut : Node Rat :=
  .container (.plain "0" "root" ⟨0, 0, 100, 100⟩) ⟨.frame, none, false⟩
    [.container (.plain "1" "outer" ⟨0, 0, 50, 50⟩) ⟨.frame, none, true⟩
      [.container (.plain "2" "inner" ⟨0, 0, 20, 20⟩) ⟨.frame, none, true⟩
        [.shape { Layer.plain "3" "target" ⟨60, 0, 10, 10⟩ with
          reactions := [⟨.onClick, none, none⟩] } .rectangle]]]

theorem twiceCut_conserved : ∃ arena log',
    (assemble ⟨"", [], []⟩ .default twiceCut).run .empty = .ok (arena, log') ∧
      ∃ place : List Nat → Nat,
        Set.BijOn place {path | ∃ node, Node.Emits ⟨"", [], []⟩ twiceCut path node}
          {position | ∃ inst, arena.get? position = some inst ∧ ¬ inst.IsSynthetic} := by
  have plain : ∀ entry ∈ twiceCut.emits ⟨"", [], []⟩ [],
      (entry.2.classify ⟨"", [], []⟩).needsRaster = false ∧
        entry.2.layer.annotations.background = none ∧
        entry.2.layer.annotations.shadow = none := by decide
  obtain ⟨arena, log', done⟩ : ∃ arena log',
      (assemble ⟨"", [], []⟩ .default twiceCut).run .empty = .ok (arena, log') := assemble_total .default
    (fun path node (reached : Node.Emits _ twiceCut path node) => by
      obtain ⟨raster, background, shadow⟩ :=
        plain (path, node) (Node.mem_emits.mpr ⟨path, rfl, reached⟩)
      refine ⟨⟨by simp [raster], by simp [raster], ?_⟩, ?_⟩
      · simp [Filled, background]
      · simp [Filled, shadow]) .empty
  obtain ⟨place, bijection, _⟩ := (assemble_conserves ⟨"", [], []⟩ .default twiceCut).2 _ _ _ done
  exact ⟨arena, log', done, place, bijection⟩

end Assembly
end DesignCompiler
