import DesignCompiler.Plan
import DesignCompiler.Proofs.Furnishing

/-!
The pictures of a drawing. The instances that show one are, one to one, the pictures noted for the nodes
that reach the output.
-/
namespace DesignCompiler

variable {α : Type} [Scalar α] {rules : RuleSet}

/-- How an instance shows a picture: its class, its name and what it shows. -/
structure Showing (α : Type) where
  className : String
  name : String
  image : Property α

/-- An instance shows what its property for an image holds. -/
def Instance.showing? (inst : Instance α) : Option (Showing α) :=
  (inst.property? "Image").map fun image => ⟨inst.className, inst.name, image⟩

def Arena.showings (arena : Arena α) : List (Showing α) := arena.instances.filterMap Instance.showing?

namespace Plan

/-- A picture of a node and the name of the instance that is to show it. -/
structure WantedPicture where
  picture : Picture
  name : String

/-- The pictures of a node itself. -/
def ownPlacards (node : Node α) : List WantedPicture :=
  (node.layer.annotations.background.toList.map fun picture => ⟨picture, "Background"⟩) ++
    node.layer.annotations.raster.toList.map fun picture => ⟨picture, node.layer.name⟩

/-- All pictures of a node. -/
def wantedPictures (node : Node α) : List WantedPicture :=
  (node.layer.annotations.shadow.toList.map fun picture => ⟨picture, node.layer.name ++ "_Shadow"⟩) ++
    ownPlacards node

omit [Scalar α] in
theorem map_picture_wantedPictures (node : Node α) : (wantedPictures node).map (·.picture) = pictures node := by
  simp [wantedPictures, ownPlacards, pictures, Function.comp_def]

/-- How a picture is to be shown. -/
def WantedPicture.showing (wanted : WantedPicture) : Showing α :=
  ⟨"ImageLabel", wanted.name, .content (Assembly.address wanted.picture)⟩

end Plan

namespace Drawn

def showing? (drawn : Drawn α) : Option (Showing α) :=
  ((Properties.setAll [] drawn.properties).lookup "Image").map fun image =>
    ⟨drawn.className, drawn.name, image⟩

omit [Scalar α] in
theorem showing_of_imageless {drawn : Drawn α} (imageless : "Image" ∉ drawn.properties.map (·.1)) :
    drawn.showing? = none := by
  rw [showing?, Properties.lookup_setAll imageless]
  rfl

/-- What is shown by the items of some lines. -/
def showings (lines : List (List Origin × Drawn α)) : List (Showing α) :=
  lines.filterMap fun line => line.2.showing?

omit [Scalar α] in
@[simp] theorem showings_append (front back : List (List Origin × Drawn α)) :
    showings (front ++ back) = showings front ++ showings back :=
  List.filterMap_append

end Drawn

namespace Assembly

open Drawn (showings showings_append linesAll)
open Plan (wantedPictures ownPlacards)

/-- The pictures noted for a node are those that its emission shows. -/
structure Matched (rules : RuleSet) (node : Node α) : Prop where
  raster : node.layer.annotations.raster.isSome = (node.classify rules).needsRaster
  background : node.layer.annotations.background.isSome = true → node.strategy rules = .container

/-- A container has no picture for itself. -/
theorem Matched.raster_eq_none {node : Node α} (matched : Matched rules node)
    (container : node.strategy rules = .container) : node.layer.annotations.raster = none := by
  rw [← Option.not_isSome_iff_eq_none, matched.raster]
  intro needed
  rw [strategy_of_needsRaster needed] at container
  cases container

theorem Matched.background_eq_none {node : Node α} (matched : Matched rules node)
    (leaf : node.strategy rules ≠ .container) : node.layer.annotations.background = none := by
  rw [← Option.not_isSome_iff_eq_none]
  exact fun held => leaf (matched.background held)

/-- A node with a picture for itself becomes an image label. -/
theorem Matched.className_eq {node : Node α} {picture : Picture} (matched : Matched rules node)
    (found : node.layer.annotations.raster = some picture) :
    className (node.classify rules) = "ImageLabel" := by
  have needed := matched.raster
  rw [found, Option.isSome_some] at needed
  have raster : (node.classify rules).strategy = .raster := strategy_of_needsRaster needed.symm
  rw [className, raster, ← needed]
  rfl

theorem matched_node {site : Site α} : Matched rules site.node ↔ Matched rules site.origin := by
  obtain ⟨path, origin, x, y⟩ := site
  cases origin <;> exact ⟨fun matched => ⟨matched.raster, matched.background⟩,
    fun matched => ⟨matched.raster, matched.background⟩⟩

theorem showings_furnishing (site : Site α) (part : Part) {items : List (Item α)}
    (furnishing : ∀ item ∈ items, Furnishing item) (above : List Origin) :
    showings (linesAll above (helpers site part items)) = [] := by
  rw [showings, List.filterMap_eq_nil_iff]
  intro line member
  obtain ⟨_, item, present, same⟩ :=
    Drawn.mem_linesAll_ofItems (fun item member => (furnishing item member).children) member
  rw [same]
  exact Drawn.showing_of_imageless (furnishing item present).imageless

omit [Scalar α] in
/-- A leaf with an image shows just that. -/
theorem showings_leaf (site : Site α) (part : Part) (name : String) {image : Property α}
    (front : List (String × Property α)) {back : List (String × Property α)}
    (imageless : "Image" ∉ back.map (·.1)) (above : List Origin) :
    showings (linesAll above (helpers site part
      [Decoration.leaf "ImageLabel" name (front ++ ("Image", image) :: back)])) =
      [⟨"ImageLabel", name, image⟩] := by
  simp only [helpers, Drawn.ofItems, Drawn.ofItem, Decoration.leaf, linesAll, Drawn.lines, showings,
    List.append_nil, List.filterMap_cons, List.filterMap_nil, Drawn.showing?, Drawn.properties,
    Properties.setAll_setAll, Properties.lookup_setAll_last front imageless]
  rfl

theorem showings_backdrop (site : Site α) (part : Part) (layer : Layer α) (isRoot : Bool)
    (above : List Origin) :
    showings (linesAll above (helpers site part (backdrop layer isRoot))) =
      (layer.annotations.background.toList.map fun picture => ⟨picture, "Background"⟩).map
        Plan.WantedPicture.showing := by
  rw [backdrop]
  cases layer.annotations.background with
  | none => rfl
  | some picture =>
    obtain ⟨front, split⟩ : ∃ front, underlayItem layer isRoot (address picture) =
        Decoration.leaf "ImageLabel" "Background" (front ++ ("Image", .content (address picture)) ::
          (("ZIndex", .int 0) :: imageTransparency layer.opacity)) :=
      ⟨_, congrArg (Decoration.leaf "ImageLabel" "Background") (List.append_assoc ..)⟩
    rw [Option.toList_some, List.map_singleton, split, showings_leaf]
    · rfl
    · rw [imageTransparency]
      split <;> simp

theorem showings_shade (site : Site α) (part : Part) (layer : Layer α) (frame : ParentFrame α)
    (zIndex : Int) (above : List Origin) :
    showings (linesAll above (helpers site part (shade rules layer frame zIndex))) =
      (layer.annotations.shadow.toList.map fun picture =>
        ⟨picture, layer.name ++ "_Shadow"⟩).map Plan.WantedPicture.showing := by
  rw [shade]
  cases layer.annotations.shadow with
  | none => rfl
  | some picture =>
    rw [Option.toList_some, List.map_singleton, shadowItem, List.append_assoc]
    rw [List.cons_append, showings_leaf]
    · rfl
    · split <;> simp

/-- A frame placed among others shows nothing by that. -/
theorem imageless_frame (geometry : Geometry α) (layer : Layer α) (slot : Slot α) :
    "Image" ∉ (frameProperties geometry layer slot).map (·.1) := by
  simp only [frameProperties, Decoration.placement, List.map_append, List.mem_append, not_or]
  refine ⟨⟨⟨⟨by simp, by simp⟩, ?_⟩, ?_⟩, by simp⟩
  · split <;> simp
  · split <;> simp

theorem imageless_label (config : TextConfig) (layer : Layer α) (text : TextContent α)
    (log : Diagnostics) : "Image" ∉ (Label.emit config layer text log).1.map (·.1) := by
  simp only [Label.emit, Label.lineHeight, List.map_append, List.mem_append, not_or]
  refine ⟨⟨⟨by simp, ?_⟩, by simp⟩, ?_⟩
  · split
    · split <;> simp
    · simp
  · split <;> simp

/-- A node that needs no picture is painted without one. -/
theorem imageless_painting (config : TextConfig) {node : Node α}
    (plain : (node.classify rules).needsRaster = false) :
    "Image" ∉ (painting rules config node).1.map (·.1) := by
  rw [painting]
  split
  · split
    · simp
    · dsimp only
      exact imageless_label config node.layer _ .empty
  · rw [plain]
    simp only [Bool.false_eq_true, if_false, framePaint]
    split <;> simp

/-- The paint of a node shows its own picture, if it is to have one, and no other. -/
theorem lookup_painted (config : TextConfig) (slot : Slot α) {node : Node α}
    (matched : Matched rules node) :
    (Properties.setAll [] (nodeProperties rules config slot node)).lookup "Image" =
      node.layer.annotations.raster.map fun picture => .content (address picture) := by
  have clips : "Image" ∉ (if node.strategy rules = .container ∧ node.clips then
      [("ClipsDescendants", Property.bool true)] else ([] : Properties α)).map (·.1) := by
    split <;> simp
  have needed := matched.raster
  cases found : node.layer.annotations.raster with
  | none =>
    rw [found, Option.isSome_none] at needed
    rw [Properties.lookup_setAll]
    · rfl
    · simp only [nodeProperties, List.map_append, List.mem_append, not_or]
      exact ⟨⟨imageless_frame _ _ _, imageless_painting config needed.symm⟩, clips⟩
  | some picture =>
    rw [found, Option.isSome_some] at needed
    have raster := strategy_of_needsRaster needed.symm
    have painted : (painting rules config node).1 =
        ("Image", .content (address picture)) :: (("BackgroundTransparency", .float 1) ::
          ("ScaleType", .token (if fits node.layer then 3 else 0)) ::
            imageTransparency node.layer.opacity) := by
      simp only [painting, raster, ← needed, found, if_true, pictureProperties]
      rfl
    rw [nodeProperties, painted, List.append_assoc, List.cons_append, Properties.lookup_setAll_last]
    · rfl
    · rw [List.map_append, List.mem_append, not_or]
      refine ⟨?_, clips⟩
      rw [imageTransparency]
      split <;> simp

theorem showings_framed (rules : RuleSet) (config : TextConfig) (isRoot : Bool) (site : Site α)
    (inner : List (Drawn α)) (above : List Origin) : ∃ between,
    showings (linesAll above (framed rules config isRoot site inner)) =
      (site.node.layer.annotations.background.toList.map fun picture =>
        ⟨picture, "Background"⟩).map Plan.WantedPicture.showing ++ showings (linesAll between inner) := by
  simp only [framed, contents, Drawn.linesAll_append, showings_append, showings_backdrop,
    showings_furnishing site .decoration (furnishing_painting config site.node),
    showings_furnishing site .record (furnishing_interactions site.node.layer),
    showings_furnishing site .target (furnishing_targets site.node.layer _), List.nil_append,
    List.append_nil]
  split
  · refine ⟨⟨site.path, .content⟩ :: above, ?_⟩
    have frame : Drawn.showing? (.mk ⟨site.path, .content⟩ "Frame" "Content" contentProperties
        (helpers site .decoration (flowItems site.node).1 ++ inner)) = none := by
      refine Drawn.showing_of_imageless ?_
      rw [Drawn.properties, contentProperties, Properties.mem_keys_setAll]
      simp [Decoration.fillParent, Decoration.placement]
    simp only [linesAll, Drawn.lines, List.append_nil, showings, List.filterMap_cons, frame]
    rw [← showings, Drawn.linesAll_append, showings_append,
      showings_furnishing site .decoration (furnishing_flowItems site.node), List.nil_append]
    rfl
  · refine ⟨above, ?_⟩
    rw [Drawn.linesAll_append, showings_append,
      showings_furnishing site .decoration (furnishing_flowItems site.node), List.nil_append]

theorem showings_bare (config : TextConfig) (site : Site α) (above : List Origin) :
    showings (linesAll above (bare rules config site)) = [] := by
  simp only [bare, Drawn.linesAll_append, showings_append,
    showings_furnishing site .decoration (furnishing_painting config site.node),
    showings_furnishing site .record (furnishing_interactions site.node.layer),
    showings_furnishing site .target (furnishing_targets site.node.layer _), List.append_nil]

/-- The pictures of some places, as they are to be shown. -/
def exhibits (sites : List (Site α)) : List (Showing α) :=
  sites.flatMap fun site => (wantedPictures site.node).map Plan.WantedPicture.showing

mutual

/-- What is drawn for a node shows its own pictures, and all those of the nodes placed under it. -/
theorem showings_draw (config : TextConfig) (slot : Slot α) (above : List Origin) : (plot : Plot α) →
    (plot.site.node.strategy rules ≠ .container → plot.children = []) →
    Plot.Settled rules plot.site.path plot.children →
    (∀ site ∈ plot.sites, Matched rules site.node) →
    showings ((draw rules config slot plot).lines above) =
      (ownPlacards plot.site.node).map Plan.WantedPicture.showing ++ exhibits (Plot.sitesAll plot.children)
  | .mk site notice children, leaf, settled, matched => by
    rw [Plot.sites, List.forall_mem_cons] at matched
    obtain ⟨own, below⟩ := matched
    have self : Drawn.showing? (draw rules config slot (.mk site notice children)) =
        site.node.layer.annotations.raster.map fun picture =>
          Plan.WantedPicture.showing ⟨picture, site.node.layer.name⟩ := by
      rw [draw, Drawn.showing?, Drawn.properties, Properties.setAll_setAll, lookup_painted config slot own,
        Option.map_map]
      cases found : site.node.layer.annotations.raster with
      | none => rfl
      | some picture =>
        simp only [Option.map_some, Drawn.className, own.className_eq found]
        rfl
    have lines : (draw rules config slot (.mk site notice children)).lines above =
        (above, draw rules config slot (.mk site notice children)) ::
          linesAll (⟨site.path, .self⟩ :: above) (if site.node.strategy rules = .container then
            framed rules config slot.isRoot site (drawAll rules config (.of site.node) 1 0 children)
          else bare rules config site) := by
      rw [draw, Drawn.lines]
    rw [lines, showings, List.filterMap_cons, self, ← showings, ownPlacards]
    by_cases container : site.node.strategy rules = .container
    · have none := own.raster_eq_none container
      obtain ⟨between, same⟩ := showings_framed rules config slot.isRoot site
        (drawAll rules config (.of site.node) 1 0 children) (⟨site.path, .self⟩ :: above)
      rw [if_pos container, same, showings_drawAll config _ 1 0 between children settled below, none]
      simp [Plot.site, Plot.children, none]
    · have none := own.background_eq_none container
      obtain rfl := leaf container
      rw [if_neg container, showings_bare]
      cases found : site.node.layer.annotations.raster <;>
        simp [Plot.site, Plot.children, Plot.sitesAll, exhibits, found, none]

theorem showings_drawAll (config : TextConfig) (frame : ParentFrame α) (zIndex order : Int)
    (above : List Origin) {host : List Nat} : (plots : List (Plot α)) →
    Plot.Settled rules host plots → (∀ site ∈ Plot.sitesAll plots, Matched rules site.node) →
    showings (linesAll above (drawAll rules config frame zIndex order plots)) =
      exhibits (Plot.sitesAll plots)
  | [], _, _ => by rw [drawAll, linesAll]; rfl
  | .mk site notice children :: rest, settled, matched => by
    rw [Plot.sitesAll, List.forall_mem_append] at matched
    cases settled with
    | cons deeper leaf inner others =>
      rw [drawAll, Drawn.linesAll_append, showings_append, showings_shade, linesAll, showings_append,
        showings_draw config _ above (.mk site notice children) leaf inner matched.1,
        showings_drawAll config frame _ _ above rest others matched.2, Plot.sitesAll, Plot.sites,
        exhibits, exhibits, exhibits, List.cons_append, List.flatMap_cons, List.flatMap_append,
        wantedPictures, List.map_append]
      simp only [List.append_assoc, Plot.site, Plot.children]

end

omit [Scalar α] in
/-- Where a node is placed has no part in what it shows. -/
theorem exhibits_eq (sites : List (Site α)) : exhibits sites =
    (sites.map Site.occurrence).flatMap fun entry =>
      (wantedPictures entry.2).map Plan.WantedPicture.showing := by
  rw [exhibits, List.flatMap_map]
  refine List.flatMap_congr fun site _ => ?_
  obtain ⟨path, origin, x, y⟩ := site
  cases origin <;> rfl

omit [Scalar α] in
theorem showings_plant (drawn : Drawn α) :
    (Arena.empty.plant none drawn.item).showings = showings (drawn.lines []) := by
  have lines : (drawn.entries 0 []).map Entry.line = drawn.lines [] := Drawn.map_line_entries 0 [] drawn
  rw [Arena.showings, Arena.instances_plant, List.filterMap_map, ← lines, showings, List.filterMap_map]
  rfl

/-- If the pictures of all nodes that reach the output are those that their emission shows, the arena
shows each of them once, and nothing else. -/
theorem showings_screen {root : Node α} {children : List (Plot α)} (config : TextConfig)
    (layout : Placement.Layout rules root children)
    (matched : ∀ path node, Node.Emits rules root path node → Matched rules node)
    (unshaded : root.layer.annotations.shadow = none) :
    (Arena.empty.plant none (drawScreen rules config root children).item).showings.Perm
      ((root.emits rules []).flatMap fun entry => (wantedPictures entry.2).map Plan.WantedPicture.showing) := by
  let plot : Plot α := .mk (Site.start [] root) none children
  have whole : plot.sites.map Site.occurrence = Plot.occurrences [plot] := by
    simp [Plot.occurrences, Plot.sitesAll]
  have sites : ∀ site ∈ plot.sites, Matched rules site.node := by
    intro site member
    have placed : site.occurrence ∈ Plot.occurrences [plot] := whole ▸ List.mem_map_of_mem member
    obtain ⟨_, _, reached⟩ := Node.mem_emits.mp (layout.perm.mem_iff.mp placed)
    exact matched_node.mpr (matched _ _ reached)
  have screen : Drawn.showing? (drawScreen rules config root children) = none := by
    refine Drawn.showing_of_imageless ?_
    rw [drawScreen, Drawn.properties, Properties.mem_keys_setAll]
    simp
  have none : plot.site.node.layer.annotations.shadow = none := by rwa [Plot.site, Site.node_start]
  have placed : showings ((drawScreen rules config root children).lines []) = exhibits plot.sites := by
    rw [drawScreen, Drawn.lines, showings, List.filterMap_cons, ← drawScreen, screen, ← showings, linesAll,
      linesAll, List.append_nil, showings_draw config _ _ plot
        (fun leaf => layout.leaf (by rwa [Plot.site, Site.node_start] at leaf)) layout.settled sites]
    have all : wantedPictures plot.site.node = ownPlacards plot.site.node := by
      rw [wantedPictures, none]
      rfl
    rw [← all]
    rfl
  rw [showings_plant, placed, exhibits_eq, whole]
  exact layout.perm.flatMap_right _

end Assembly
end DesignCompiler
