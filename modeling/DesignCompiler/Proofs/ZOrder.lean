import DesignCompiler.Proofs.Roles

/-!
The levels that the instances in an instance are drawn at. Modifiers and records are not drawn; whatever
is, takes the next level after the one before it: the picture under the children, the children with their
shadows or the frame around them, the click target.
-/
namespace DesignCompiler

variable {α : Type} [Scalar α] {rules : RuleSet}

namespace Assembly

omit [Scalar α] in
theorem className_item (drawn : Drawn α) : drawn.item.className = drawn.className := by
  cases drawn
  rfl

theorem className_painting (config : TextConfig) (node : Node α) :
    ∀ item ∈ (painting rules config node).2, item.className ∈ ["UICorner", "UIGradient", "UIStroke"] := by
  intro item member
  rw [painting] at member
  split at member
  · split at member
    · simp at member
    · simp only [Label.emit] at member
      rcases List.mem_append.mp member with gradient | stroke
      · split at gradient
        · simp only [Decoration.gradient] at gradient
          split at gradient
          · simp at gradient
          · rw [List.mem_singleton.mp gradient, Decoration.leaf, Item.className]
            decide
        · simp at gradient
      · simp only [Option.mem_toList, Option.map_eq_some_iff] at stroke
        obtain ⟨inferred, _, rfl⟩ := stroke
        rw [Decoration.textStroke, Decoration.leaf, Item.className]
        decide
  · split at member
    · split at member <;> simp at member
    · simp only [framePaint, Decoration.corner] at member
      split at member
      · simp at member
      · split at member
        · simp at member
        · rw [List.mem_singleton.mp member, Decoration.leaf, Item.className]
          decide

theorem className_flowItems (node : Node α) :
    ∀ item ∈ (flowItems node).1, item.className ∈ ["UIListLayout", "UIPadding"] := by
  intro item member
  rw [flowItems] at member
  split at member
  · simp only [Decoration.listLayout] at member
    rcases List.mem_cons.mp member with rfl | member
    · simp [Decoration.leaf, Item.className]
    · split at member
      · rw [List.mem_singleton.mp member, Decoration.leaf, Item.className]
        decide
      · simp at member
  · simp at member

theorem className_interactions (layer : Layer α) :
    ∀ item ∈ (Decoration.interactions layer).1, item.className = "StringValue" := by
  intro item member
  obtain ⟨reaction, _, rfl⟩ := List.mem_map.mp member
  rfl

theorem eq_of_mem_targets {layer : Layer α} {zIndex : Int} {item : Item α}
    (member : item ∈ targets rules layer zIndex) :
    rules.isInteractive layer = true ∧ item = Decoration.clickTarget zIndex := by
  rw [targets] at member
  split at member
  · exact ⟨by assumption, List.mem_singleton.mp member⟩
  · simp at member

omit [Scalar α] in
/-- Helpers of other classes are left out. -/
theorem filter_class_helpers {keep : String → Bool} {site : Site α} {part : Part} {items : List (Item α)}
    (other : ∀ item ∈ items, keep item.className = false) :
    (helpers site part items).filter (fun drawn => keep drawn.className) = [] := by
  rw [List.filter_eq_nil_iff]
  intro drawn member
  obtain ⟨_, item, present, same⟩ := mem_helpers member
  have hidden := other item present
  rw [← same, className_item] at hidden
  simp [hidden]

omit [Scalar α] in
/-- Items of other classes are not drawn. -/
theorem gui_helpers_none {site : Site α} {part : Part} {items : List (Item α)}
    (hidden : ∀ item ∈ items, item.className ∉ guiClasses) :
    (helpers site part items).filter Drawn.isGui = [] :=
  filter_class_helpers fun item member => by simpa using hidden item member

omit [Scalar α] in
theorem gui_helpers_all {site : Site α} {part : Part} {items : List (Item α)}
    (drawable : ∀ item ∈ items, item.className ∈ guiClasses) :
    (helpers site part items).filter Drawn.isGui = helpers site part items := by
  rw [List.filter_eq_self]
  intro drawn member
  obtain ⟨_, item, present, same⟩ := mem_helpers member
  have kind := drawable item present
  rw [← same, className_item] at kind
  simpa [Drawn.isGui] using kind

theorem gui_painting (config : TextConfig) (site : Site α) :
    (helpers site .decoration (painting rules config site.node).2).filter Drawn.isGui = [] := by
  have hidden : ∀ kind ∈ ["UICorner", "UIGradient", "UIStroke"], kind ∉ guiClasses := by decide
  exact gui_helpers_none fun item member => hidden _ (className_painting config site.node item member)

theorem gui_flowItems (site : Site α) :
    (helpers site .decoration (flowItems site.node).1).filter Drawn.isGui = [] := by
  have hidden : ∀ kind ∈ ["UIListLayout", "UIPadding"], kind ∉ guiClasses := by decide
  exact gui_helpers_none fun item member => hidden _ (className_flowItems site.node item member)

theorem gui_interactions (site : Site α) :
    (helpers site .record (Decoration.interactions site.node.layer).1).filter Drawn.isGui = [] := by
  refine gui_helpers_none fun item member => ?_
  rw [className_interactions _ item member]
  decide

theorem gui_targets (site : Site α) (zIndex : Int) :
    (helpers site .target (targets rules site.node.layer zIndex)).filter Drawn.isGui =
      helpers site .target (targets rules site.node.layer zIndex) := by
  refine gui_helpers_all fun item member => ?_
  rw [(eq_of_mem_targets member).2]
  simp [Decoration.clickTarget, Decoration.leaf, Item.className, guiClasses]

theorem gui_backdrop (site : Site α) (isRoot : Bool) :
    (helpers site .background (backdrop site.node.layer isRoot)).filter Drawn.isGui =
      helpers site .background (backdrop site.node.layer isRoot) := by
  refine gui_helpers_all fun item member => ?_
  obtain ⟨picture, _, rfl⟩ := List.mem_map.mp member
  simp [underlayItem, Decoration.leaf, Item.className, guiClasses]

theorem gui_shade (site : Site α) (frame : ParentFrame α) (zIndex : Int) :
    (helpers site .shadow (shade rules site.node.layer frame zIndex)).filter Drawn.isGui =
      helpers site .shadow (shade rules site.node.layer frame zIndex) := by
  refine gui_helpers_all fun item member => ?_
  obtain ⟨picture, _, rfl⟩ := List.mem_map.mp member
  simp [shadowItem, Decoration.leaf, Item.className, guiClasses]

@[simp] theorem className_draw (config : TextConfig) (slot : Slot α) (plot : Plot α) :
    (draw rules config slot plot).className = className (plot.site.node.classify rules) := by
  obtain ⟨site, notice, children⟩ := plot
  rw [draw]
  rfl

omit [Scalar α] in
theorem className_mem (classification : Classification α) :
    className classification ∈ ["Frame", "TextLabel", "ImageLabel"] := by
  rw [className]
  split
  · simp
  · simp
  · split <;> simp

@[simp] theorem isGui_draw (config : TextConfig) (slot : Slot α) (plot : Plot α) :
    (draw rules config slot plot).isGui = true := by
  have all : ∀ kind ∈ ["Frame", "TextLabel", "ImageLabel"], kind ∈ guiClasses := by decide
  rw [Drawn.isGui, className_draw, List.contains_iff_mem]
  exact all _ (className_mem _)

/-- Siblings and their shadows are all drawn. -/
@[simp] theorem gui_drawAll (config : TextConfig) (frame : ParentFrame α) (zIndex order : Int)
    (plots : List (Plot α)) : (drawAll rules config frame zIndex order plots).filter Drawn.isGui =
      drawAll rules config frame zIndex order plots := by
  induction plots generalizing zIndex order with
  | nil => rw [drawAll]; rfl
  | cons plot rest ih =>
    obtain ⟨site, notice, children⟩ := plot
    rw [drawAll, List.filter_append, gui_shade, List.filter_cons_of_pos (isGui_draw ..), ih]

/-- What is drawn where the children of a container go: they, or the frame around them. -/
def drawnContents (rules : RuleSet) (config : TextConfig) (plot : Plot α) : List (Drawn α) :=
  if keepsApart rules plot.site.node then [contentDrawn rules config plot]
  else drawAll rules config (.of plot.site.node) 1 0 plot.children

/-- What is drawn in the instance of a container: the picture under the children, the children and the
click target. -/
theorem gui_container (config : TextConfig) (slot : Slot α) {plot : Plot α}
    (container : plot.site.node.strategy rules = .container) : ∃ zIndex,
    (draw rules config slot plot).children.filter Drawn.isGui =
      helpers plot.site .background (backdrop plot.site.node.layer slot.isRoot) ++
        drawnContents rules config plot ++
        helpers plot.site .target (targets rules plot.site.node.layer zIndex) ∧
    zIndex = 1 + (drawnContents rules config plot).length := by
  refine ⟨above rules plot.site (drawAll rules config (.of plot.site.node) 1 0 plot.children), ?_, ?_⟩
  · rw [children_draw, if_pos container, framed, contents, drawnContents]
    simp only [List.filter_append, gui_painting, gui_backdrop, gui_interactions, gui_targets,
      List.nil_append, List.append_nil]
    split
    · rfl
    · rw [List.filter_append, gui_flowItems, gui_drawAll, List.nil_append]
  · rw [above, drawnContents]
    split <;> simp

/-- What is drawn in the instance of another node: the click target. -/
theorem gui_leaf (config : TextConfig) (slot : Slot α) {plot : Plot α}
    (leaf : plot.site.node.strategy rules ≠ .container) :
    (draw rules config slot plot).children.filter Drawn.isGui =
      helpers plot.site .target (targets rules plot.site.node.layer 1) := by
  rw [children_draw, if_neg leaf, bare]
  simp only [List.filter_append, gui_painting, gui_interactions, gui_targets, List.nil_append]

theorem gui_content (config : TextConfig) (plot : Plot α) :
    (contentDrawn rules config plot).children.filter Drawn.isGui =
      drawAll rules config (.of plot.site.node) 1 0 plot.children := by
  rw [contentDrawn, Drawn.children, List.filter_append, gui_flowItems, gui_drawAll, List.nil_append]

section Screen

variable {root : Node α} {children : List (Plot α)} {config : TextConfig}

/-- What is drawn directly in an entry, by the part that it plays there. -/
inductive Drawing (rules : RuleSet) (config : TextConfig) (root : Node α) (children : List (Plot α))
    (host low : Entry α) : Prop where
  | background {slot : Slot α} {plot : Plot α} (among : Plot.Among [top root children] plot)
      (drawn : host.drawn = draw rules config slot plot)
      (own : low.drawn ∈ helpers plot.site .background (backdrop plot.site.node.layer slot.isRoot))
  | target {slot : Slot α} {plot : Plot α} {zIndex : Int} (among : Plot.Among [top root children] plot)
      (drawn : host.drawn = draw rules config slot plot)
      (own : low.drawn ∈ helpers plot.site .target (targets rules plot.site.node.layer zIndex))
  | content {slot : Slot α} {plot : Plot α} (among : Plot.Among [top root children] plot)
      (drawn : host.drawn = draw rules config slot plot)
      (own : low.drawn = contentDrawn rules config plot)
  | root (own : low.drawn = draw rules config (rootSlot root) (top root children))
  | sibling {plot : Plot α} (among : Plot.Among [top root children] plot)
      (holds : Holds rules config root children plot host)
      (own : low.drawn ∈ drawAll rules config (.of plot.site.node) 1 0 plot.children)

theorem drawing {host low : Entry α} (member : host ∈ screenEntries rules config root children)
    (inside : low ∈ host.offspring) (drawable : low.drawn.isGui = true) :
    Drawing rules config root children host low := by
  have child := List.mem_filter.mpr ⟨drawn_mem_children inside, drawable⟩
  rcases role_entry member with rfl | role
  · rw [drawScreen, Drawn.children, List.filter_cons_of_pos (isGui_draw ..), List.filter_nil,
      List.mem_singleton] at child
    exact .root child
  · generalize same : host.drawn = drawn at role child
    generalize host.above.map (·.2) = above at role
    cases role with
    | @node _ slot plot among =>
      by_cases container : plot.site.node.strategy rules = .container
      · obtain ⟨zIndex, whole, _⟩ := gui_container config slot container
        rw [whole, List.mem_append, List.mem_append, drawnContents] at child
        rcases child with (background | content) | target
        · exact .background among same background
        · split at content
          · exact .content among same (List.mem_singleton.mp content)
          · rename_i together
            exact .sibling among ⟨member, .inl ⟨slot, same, by simpa using together⟩⟩ content
        · exact .target among same target
      · rw [gui_leaf config slot container] at child
        exact .target among same child
    | @content _ plot among container apart =>
      rw [gui_content] at child
      exact .sibling among ⟨member, .inr ⟨apart, same⟩⟩ child
    | helper other aids => simp [Drawn.children] at child

/-- What is drawn at all, is drawn directly in an entry. -/
theorem exists_drawing {low : Entry α} (member : low ∈ screenEntries rules config root children)
    (drawable : low.drawn.isGui = true) : ∃ host ∈ screenEntries rules config root children,
      low ∈ host.offspring ∧ Drawing rules config root children host low := by
  rcases Arena.top_or_offspring member with rfl | ⟨host, present, inside⟩
  · rw [drawScreen] at drawable
    simp [Drawn.isGui, Drawn.className, guiClasses] at drawable
  · exact ⟨host, present, inside, drawing present inside drawable⟩

end Screen

/-- Levels one after the other. -/
def climb (start : Int) (count : Nat) : List (Option Int) :=
  (List.range count).map fun step : Nat => some (start + step)

theorem climb_append (start : Int) (front back : Nat) :
    climb start front ++ climb (start + front) back = climb start (front + back) := by
  rw [climb, climb, climb, List.range_add, List.map_append, List.map_map]
  simp [Function.comp_def, Int.add_assoc]

theorem climb_cons (start : Int) (count : Nat) :
    some start :: climb (start + 1) count = climb start (count + 1) := by
  simpa [climb, Nat.add_comm] using climb_append start 1 count

theorem climb_rising (start : Int) (count : Nat) : ∃ levels : List Int,
    climb start count = levels.map some ∧ levels.Pairwise (· < ·) := by
  refine ⟨(List.range count).map fun step : Nat => start + step, by simp [climb], ?_⟩
  rw [List.pairwise_map]
  exact List.pairwise_lt_range.imp fun {first second} less => by omega

/-- The level that an item is drawn at. -/
abbrev level? (drawn : Drawn α) : Option Int := drawn.number? "ZIndex"

omit [Scalar α] in
/-- A number that is set last is that of the item. -/
theorem number_leaf {origin : Origin} {className name key : String} {value : Int}
    {changes back : List (String × Property α)} (front : List (String × Property α))
    (split : changes = front ++ (key, .int value) :: back) (absent : key ∉ back.map (·.1)) :
    (Drawn.ofItem origin (Decoration.leaf className name changes)).number? key = some value := by
  rw [Decoration.leaf, Drawn.ofItem, Drawn.number?, Drawn.properties, Properties.setAll_setAll, split,
    Properties.lookup_setAll_last front absent]
  rfl

theorem levels_targets (site : Site α) (zIndex : Int) :
    (helpers site .target (targets rules site.node.layer zIndex)).map level? =
      climb zIndex (targets rules site.node.layer zIndex).length := by
  have own : level? (Drawn.ofItem ⟨site.path, .target⟩ (Decoration.clickTarget zIndex : Item α)) =
      some zIndex :=
    number_leaf (Decoration.fillParent ++ [("Text", .string ""), ("AutoButtonColor", .bool false)])
      rfl (by simp)
  rw [targets]
  split
  · simp [helpers, Drawn.ofItems, climb, own]
  · rfl

theorem levels_backdrop (site : Site α) (isRoot : Bool) :
    (helpers site .background (backdrop site.node.layer isRoot)).map level? =
      climb 0 (backdrop site.node.layer isRoot).length := by
  rw [backdrop]
  cases site.node.layer.annotations.background with
  | none => rfl
  | some picture =>
    have below : "ZIndex" ∉ (imageTransparency site.node.layer.opacity).map (·.1) := by
      rw [imageTransparency]
      split <;> simp
    have own : level? (Drawn.ofItem ⟨site.path, .background⟩
        (underlayItem site.node.layer isRoot (address picture))) = some 0 := by
      obtain ⟨front, split⟩ : ∃ front, underlayItem site.node.layer isRoot (address picture) =
          Decoration.leaf "ImageLabel" "Background" (front ++ ("ZIndex", .int 0) ::
            imageTransparency site.node.layer.opacity) :=
        ⟨_, congrArg (Decoration.leaf "ImageLabel" "Background")
          ((List.append_assoc ..).trans (List.append_cons ..))⟩
      rw [split]
      exact number_leaf front rfl below
    simp [helpers, Drawn.ofItems, climb, own]

theorem levels_shade (site : Site α) (frame : ParentFrame α) (zIndex : Int) :
    (helpers site .shadow (shade rules site.node.layer frame zIndex)).map level? =
      climb zIndex (shade rules site.node.layer frame zIndex).length := by
  rw [shade]
  cases site.node.layer.annotations.shadow with
  | none => rfl
  | some picture =>
    have own : level? (Drawn.ofItem ⟨site.path, .shadow⟩ (shadowItem site.node.layer
        (shadowGeometry rules site.node.layer frame).1 zIndex (address picture))) = some zIndex := by
      rw [shadowItem]
      refine number_leaf (_ ++ [("Image", .content (address picture)), ("BackgroundTransparency", .float 1),
        ("BorderSizePixel", .int 0)]) ((List.append_assoc ..).trans (by rw [List.append_assoc]; rfl)) ?_
      split <;> simp
    simp [helpers, Drawn.ofItems, climb, own]

/-- The paint of a node gives it no level and no place in an order. -/
theorem lookup_draw {key : String} (config : TextConfig) (slot : Slot α) (plot : Plot α)
    (ordering : key ∈ ["ZIndex", "LayoutOrder"]) :
    (Properties.setAll [] (draw rules config slot plot).properties).lookup key =
      (if key = "ZIndex" then some slot.zIndex else slot.layoutOrder).map .int := by
  obtain ⟨site, notice, children⟩ := plot
  have others : ∀ key ∈ ["ZIndex", "LayoutOrder"], key ∉ paintKeys := by decide
  have unpainted : key ∉ (painting rules config site.node).1.map (·.1) :=
    fun painted => others key ordering (keys_painting config site.node painted)
  rw [draw, Drawn.properties, Properties.setAll_setAll, nodeProperties, List.append_assoc,
    Properties.setAll_append, Properties.lookup_setAll]
  · simp only [List.mem_cons, List.not_mem_nil, or_false] at ordering
    rw [frameProperties]
    by_cases turned : (site.node.layer.rotation != 0) = true
    · rw [if_pos turned]
      rcases ordering with rfl | rfl <;> cases slot.layoutOrder <;> rfl
    · rw [if_neg turned]
      rcases ordering with rfl | rfl <;> cases slot.layoutOrder <;> rfl
  · rw [List.map_append, List.mem_append, not_or]
    refine ⟨unpainted, ?_⟩
    simp only [List.mem_cons, List.not_mem_nil, or_false] at ordering
    rcases ordering with rfl | rfl <;> split <;> simp

theorem number_draw {key : String} (config : TextConfig) (slot : Slot α) (plot : Plot α)
    (ordering : key ∈ ["ZIndex", "LayoutOrder"]) :
    (draw rules config slot plot).number? key =
      if key = "ZIndex" then some slot.zIndex else slot.layoutOrder := by
  rw [Drawn.number?, lookup_draw config slot plot ordering]
  generalize (if key = "ZIndex" then some slot.zIndex else slot.layoutOrder) = number
  cases number <;> rfl

/-- Siblings and their shadows take one level after the other. -/
theorem levels_drawAll (config : TextConfig) (frame : ParentFrame α) (zIndex order : Int)
    (plots : List (Plot α)) : (drawAll rules config frame zIndex order plots).map level? =
      climb zIndex (drawAll rules config frame zIndex order plots).length := by
  induction plots generalizing zIndex order with
  | nil => rw [drawAll]; rfl
  | cons plot rest ih =>
    obtain ⟨site, notice, children⟩ := plot
    have own : level? (draw rules config (sibling rules frame zIndex order site.node)
        (.mk site notice children)) =
        some (zIndex + (shade rules site.node.layer frame zIndex).length) := by
      rw [level?, number_draw _ _ _ (by simp), if_pos rfl, sibling]
    rw [drawAll, List.map_append, levels_shade, List.map_cons, own, ih, climb_cons, climb_append,
      List.length_append, length_helpers, List.length_cons]

theorem levels_drawnContents (config : TextConfig) (plot : Plot α) :
    (drawnContents rules config plot).map level? = climb 1 (drawnContents rules config plot).length := by
  rw [drawnContents]
  split
  · rfl
  · exact levels_drawAll config _ 1 0 plot.children

/-- The levels in the instance of a node come one after the other. -/
theorem levels_children_draw (config : TextConfig) (slot : Slot α) (plot : Plot α) :
    ∃ start count, ((draw rules config slot plot).children.filter Drawn.isGui).map level? =
      climb start count := by
  by_cases container : plot.site.node.strategy rules = .container
  · obtain ⟨zIndex, drawn, last⟩ := gui_container config slot container
    rw [drawn, List.map_append, List.map_append, levels_backdrop, levels_drawnContents, levels_targets,
      last, List.append_assoc, climb_append]
    cases bare : (backdrop plot.site.node.layer slot.isRoot) with
    | nil => exact ⟨1, _, rfl⟩
    | cons item rest =>
      have one : rest = [] := by
        rw [backdrop] at bare
        cases held : plot.site.node.layer.annotations.background <;> simp_all
      subst one
      exact ⟨0, _, climb_append 0 1 _⟩
  · rw [gui_leaf config slot container, levels_targets]
    exact ⟨1, _, rfl⟩

/-- The levels in every entry of a drawing come one after the other. -/
theorem levels_entry {config : TextConfig} {root : Node α} {children : List (Plot α)} {entry : Entry α}
    (member : entry ∈ screenEntries rules config root children) :
    ∃ start count, (entry.drawn.children.filter Drawn.isGui).map level? = climb start count := by
  rcases role_entry member with rfl | role
  · refine ⟨1, 1, ?_⟩
    have own : level? (draw rules config (rootSlot root) (.mk (Site.start [] root) none children)) =
        some 1 := by
      rw [level?, number_draw _ _ _ (by simp), if_pos rfl]
      rfl
    rw [drawScreen, Drawn.children, List.filter_cons_of_pos (isGui_draw ..), List.filter_nil,
      List.map_singleton, own]
    rfl
  · generalize entry.drawn = drawn at role
    generalize entry.above.map (·.2) = above at role
    cases role with
    | node among => exact levels_children_draw config _ _
    | content among container apart =>
      rw [gui_content, levels_drawAll]
      exact ⟨1, _, rfl⟩
    | helper other aids => exact ⟨0, 0, rfl⟩

end Assembly
end DesignCompiler
