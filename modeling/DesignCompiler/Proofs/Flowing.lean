import DesignCompiler.Proofs.Planning
import DesignCompiler.Proofs.ZOrder

/-!
The flows of a design. The engine arranges whatever is drawn beside a list, so a list runs through the
live children of one container and through nothing else: what else there is in such a container, its
picture or its click target, lies outside the frame around them, and no child has a shadow of its own.
-/
namespace DesignCompiler

variable {α : Type} [Scalar α] {rules : RuleSet}

namespace Node

/-- A container that lists its children. -/
def IsFlow (rules : RuleSet) (node : Node α) : Prop :=
  node.strategy rules = .container ∧ node.layout?.isSome = true

/-- The positions of the live children, in the order of the design. -/
def livePositions (node : Node α) : List Nat := (node.children.zipIdx.filter (·.1.isLive)).map (·.2)

end Node

/-- The class of the lists that the engine arranges instances by. -/
def isListClass (className : String) : Bool := className == "UIListLayout"

/-- The lists directly in an instance. -/
def Arena.lists (arena : Arena α) (high : Nat) : List Nat :=
  (arena.children high).filter fun low => (arena.get? low).any fun inst => isListClass inst.className

/-- An arena lists the children of the flows of a design, and nothing else. -/
structure Arena.Flows (arena : Arena α) (rules : RuleSet) (root : Node α) (place : List Nat → Nat) :
    Prop where
  /-- Every list lies in an instance. -/
  held : ∀ low inst, arena.get? low = some inst → isListClass inst.className = true →
    ∃ inner, low ∈ arena.lists inner
  /-- Where there is a list, the children of a node go. -/
  hosted : ∀ inner, arena.lists inner ≠ [] → ∃ path, Node.Reached rules root path ∧
    arena.Hosts (place path) inner
  /-- The node is a flow then: nothing is drawn there but its live children, which are numbered from one
  on in the order of the design. -/
  listed : ∀ path node inner, Node.Emits rules root path node → arena.Hosts (place path) inner →
    arena.lists inner ≠ [] → node.IsFlow rules ∧
    arena.guiChildren inner = node.livePositions.map (fun position => place (path ++ [position])) ∧
    (arena.guiChildren inner).map (arena.number? "LayoutOrder") =
      (List.range node.livePositions.length).map fun step : Nat => some (step + 1 : Int)
  /-- Every flow has one list, in its instance or in the frame around its children. -/
  one : ∀ path node, Node.Emits rules root path node → node.IsFlow rules → ∃ inner low,
    arena.Hosts (place path) inner ∧ arena.lists inner = [low] ∧
    ∀ other, arena.Hosts (place path) other → arena.lists other ≠ [] → other = inner
  /-- What has a place in an order is drawn beside a list. -/
  ordered : ∀ low inst, arena.get? low = some inst → (inst.property? "LayoutOrder").isSome = true →
    ∃ inner, arena.lists inner ≠ [] ∧ low ∈ arena.guiChildren inner

namespace Assembly

/-- An item is a list. -/
abbrev isList (drawn : Drawn α) : Bool := isListClass drawn.className

omit [Scalar α] in
theorem isList_of_isGui {drawn : Drawn α} (drawable : drawn.isGui = true) : isList drawn = false := by
  have other : ∀ kind ∈ guiClasses, isListClass kind = false := by decide
  exact other _ (by simpa [Drawn.isGui] using drawable)

theorem lists_drawAll (config : TextConfig) (frame : ParentFrame α) (zIndex order : Int)
    (plots : List (Plot α)) : (drawAll rules config frame zIndex order plots).filter isList = [] := by
  rw [List.filter_eq_nil_iff, ← gui_drawAll]
  intro drawn member
  simp [isList_of_isGui (List.mem_filter.mp member).2]

theorem length_lists_flowItems (site : Site α) :
    ((helpers site .decoration (flowItems site.node).1).filter isList).length =
      if site.node.layout?.isSome = true then 1 else 0 := by
  rw [flowItems]
  cases site.node.layout? with
  | none => rfl
  | some layout =>
    simp only [Decoration.listLayout]
    cases layout.hasPadding <;> rfl

/-- The list of a flow lies in its instance, unless the children are kept apart. -/
theorem length_lists_draw (config : TextConfig) (slot : Slot α) (plot : Plot α) :
    ((draw rules config slot plot).children.filter isList).length =
      if plot.site.node.strategy rules = .container ∧ keepsApart rules plot.site.node = false ∧
        plot.site.node.layout?.isSome = true then 1 else 0 := by
  have painted : (helpers plot.site .decoration (painting rules config plot.site.node).2).filter isList =
      [] := by
    have other : ∀ kind ∈ ["UICorner", "UIGradient", "UIStroke"], isListClass kind = false := by decide
    exact filter_class_helpers fun item member => other _ (className_painting config _ item member)
  have records : (helpers plot.site .record (Decoration.interactions plot.site.node.layer).1).filter
      isList = [] := filter_class_helpers fun item member => by
    rw [className_interactions _ item member]
    rfl
  have targets : ∀ zIndex : Int, (helpers plot.site .target
      (targets rules plot.site.node.layer zIndex)).filter isList = [] :=
    fun zIndex => filter_class_helpers fun item member => by
      rw [(eq_of_mem_targets member).2]
      rfl
  have background : ∀ isRoot : Bool, (helpers plot.site .background
      (backdrop plot.site.node.layer isRoot)).filter isList = [] :=
    fun isRoot => filter_class_helpers fun item member => by
      obtain ⟨picture, _, rfl⟩ := List.mem_map.mp member
      rfl
  rw [children_draw]
  by_cases container : plot.site.node.strategy rules = .container
  · rw [if_pos container, framed, contents]
    simp only [List.filter_append, painted, records, targets, background, List.nil_append,
      List.append_nil]
    cases apart : keepsApart rules plot.site.node with
    | true => simp [isListClass, Drawn.className]
    | false => simp [container, List.filter_append, lists_drawAll, length_lists_flowItems]
  · rw [if_neg container, if_neg fun flow => container flow.1, bare]
    simp only [List.filter_append, painted, records, targets]
    rfl

theorem length_lists_content (config : TextConfig) (plot : Plot α) :
    ((contentDrawn rules config plot).children.filter isList).length =
      if plot.site.node.layout?.isSome = true then 1 else 0 := by
  rw [contentDrawn, Drawn.children, List.filter_append, lists_drawAll, List.append_nil,
    length_lists_flowItems]

omit [Scalar α] in
theorem layout_of_keepsApart {node : Node α} (apart : keepsApart rules node = true) :
    node.layout?.isSome = true := by
  rw [keepsApart, Bool.and_eq_true] at apart
  exact apart.1

section Screen

variable {root : Node α} {children : List (Plot α)} {config : TextConfig} {place : List Nat → Nat}

/-- Where the children of a flow are held, there is one list. -/
theorem Holds.one_list {plot : Plot α} {holder : Entry α}
    (holds : Holds rules config root children plot holder) (flow : plot.site.node.IsFlow rules) :
    (holder.drawn.children.filter isList).length = 1 := by
  rcases holds.drawn with ⟨slot, drawn, together⟩ | ⟨apart, drawn⟩
  · rw [drawn, length_lists_draw, if_pos ⟨flow.1, together, flow.2⟩]
  · rw [drawn, length_lists_content, if_pos flow.2]

/-- Where there is a list, the children of a flow are held. -/
theorem exists_flow {host : Entry α} (member : host ∈ screenEntries rules config root children)
    (listed : host.drawn.children.filter isList ≠ []) : ∃ plot, Plot.Among [top root children] plot ∧
      plot.site.node.IsFlow rules ∧ Holds rules config root children plot host := by
  have some := List.length_pos_iff.mpr listed
  rcases role_entry member with rfl | role
  · rw [drawScreen, Drawn.children, List.filter_cons_of_neg] at listed
    · simp at listed
    · simp [isList_of_isGui]
  · generalize same : host.drawn = drawn at role some
    generalize host.above.map (·.2) = above at role
    cases role with
    | @node _ slot plot among =>
      rw [length_lists_draw] at some
      split at some
      · rename_i flow
        exact ⟨plot, among, ⟨flow.1, flow.2.2⟩, member, .inl ⟨slot, same, flow.2.1⟩⟩
      · simp at some
    | @content _ plot among container apart =>
      exact ⟨plot, among, ⟨container, layout_of_keepsApart apart⟩, member, .inr ⟨apart, same⟩⟩
    | helper other aids => simp [Drawn.children] at some

/-- In a flow, whose children have no shadows, nothing is drawn but the children. -/
theorem drawn_of_mem_drawAll {plots : List (Plot α)} {frame : ParentFrame α} {zIndex order : Int}
    (unshaded : ∀ plot ∈ plots, plot.site.node.layer.annotations.shadow = none) {drawn : Drawn α}
    (member : drawn ∈ drawAll rules config frame zIndex order plots) : drawn.isSelf = true := by
  induction plots generalizing zIndex order with
  | nil => simp [drawAll] at member
  | cons plot rest ih =>
    obtain ⟨site, notice, children⟩ := plot
    obtain ⟨own, others⟩ := List.forall_mem_cons.mp unshaded
    rw [Plot.site] at own
    simp only [drawAll, shade, own, Option.toList_none, List.map_nil, helpers, Drawn.ofItems,
      List.nil_append, List.mem_cons] at member
    rcases member with rfl | later
    · simp [Drawn.isSelf]
    · exact ih others later

/-- The children of a flow are numbered one after the other. -/
theorem orders_drawAll {plots : List (Plot α)} {frame : ParentFrame α} (flow : frame.flow = true)
    (zIndex order : Int)
    (unshaded : ∀ plot ∈ plots, plot.site.node.layer.annotations.shadow = none) :
    (drawAll rules config frame zIndex order plots).map (Drawn.number? "LayoutOrder") =
      climb (order + 1) plots.length := by
  induction plots generalizing zIndex order with
  | nil => rw [drawAll]; rfl
  | cons plot rest ih =>
    obtain ⟨site, notice, children⟩ := plot
    obtain ⟨own, others⟩ := List.forall_mem_cons.mp unshaded
    rw [Plot.site] at own
    have number : (draw rules config (sibling rules frame zIndex order site.node)
        (.mk site notice children)).number? "LayoutOrder" = some (order + 1) := by
      rw [number_draw _ _ _ (by simp), if_neg (by decide), sibling, if_pos flow]
    simp only [drawAll, shade, own, Option.toList_none, List.map_nil, helpers, Drawn.ofItems,
      List.nil_append, List.map_cons, number, ih _ _ others, climb_cons, List.length_cons]

theorem flow_of_ordered {plots : List (Plot α)} {frame : ParentFrame α} {zIndex order : Int}
    {drawn : Drawn α} (member : drawn ∈ drawAll rules config frame zIndex order plots)
    (self : drawn.isSelf = true)
    (ordered : ((Properties.setAll [] drawn.properties).lookup "LayoutOrder").isSome = true) :
    frame.flow = true := by
  induction plots generalizing zIndex order with
  | nil => simp [drawAll] at member
  | cons plot rest ih =>
    obtain ⟨site, notice, children⟩ := plot
    rw [drawAll] at member
    rcases List.mem_append.mp member with shadow | later
    · rw [Drawn.isSelf, (mem_helpers shadow).1] at self
      simp at self
    · rcases List.mem_cons.mp later with rfl | later
      · rw [lookup_draw _ _ _ (by simp), if_neg (by decide), sibling] at ordered
        by_contra free
        simp [free] at ordered
      · exact ih later

/-- A flow beside which nothing is drawn: its children, and only they, are drawn where they are held. -/
theorem Holds.gui {plot : Plot α} {holder : Entry α}
    (holds : Holds rules config root children plot holder) (flow : plot.site.node.IsFlow rules) :
    holder.drawn.children.filter Drawn.isGui = drawAll rules config (.of plot.site.node) 1 0 plot.children := by
  rcases holds.drawn with ⟨slot, drawn, together⟩ | ⟨_, drawn⟩
  · obtain ⟨zIndex, parts, _⟩ := gui_container config slot flow.1
    have alone := together
    simp only [keepsApart, flow.2, Bool.true_and, Bool.or_eq_false_iff, Option.isSome_eq_false_iff,
      Option.isNone_iff_eq_none] at alone
    rw [drawn, parts, drawnContents, together, backdrop, alone.2, targets, alone.1]
    simp [helpers, Drawn.ofItems]
  · rw [drawn, gui_content]

omit [Scalar α] in
theorem paths_below (site : Site α) : site.below.map Site.path =
    site.origin.livePositions.map fun position => site.path ++ [position] := by
  have started : ∀ (position : Nat) (children : List (Node α)),
      (Site.starts site.path position children).map Site.path =
        ((children.zipIdx position).filter (·.1.isLive)).map fun entry => site.path ++ [entry.2] := by
    intro position children
    induction children generalizing position with
    | nil => rfl
    | cons child rest ih =>
      by_cases live : child.isLive = true <;> simp [Site.starts, live, ih, Site.start]
  rw [Site.below, started, Node.livePositions, List.map_map]
  rfl

theorem Staging.unshaded (staging : Staging rules root children)
    (arranged : ∀ path node, Node.Emits rules root path node → Plan.Arranged rules node)
    {plot : Plot α} (among : Plot.Among [top root children] plot) (flow : plot.site.node.IsFlow rules) :
    ∀ child ∈ plot.children, child.site.node.layer.annotations.shadow = none := by
  intro child member
  have placed : child.site ∈ plot.site.below := by
    rw [← (staging.laid plot among).sites_of_flow flow.1 flow.2]
    exact List.mem_map_of_mem member
  obtain ⟨index, node, found, live, same⟩ := Site.mem_starts placed
  have settled := arranged _ _ (staging.emits among)
  rw [Site.layer_node, same]
  exact settled.unshaded (by rw [← Site.strategy_node]; exact flow.1)
    (by rw [← Site.layout_node]; exact flow.2) node
    (List.mem_filter.mpr ⟨List.mem_of_getElem? found, live⟩)

/-- The lists in the instance of an item are the lists in the item. -/
theorem length_lists {host : Entry α} (member : host ∈ screenEntries rules config root children) :
    ((drawScreen rules config root children).arena.lists host.position).length =
      (host.drawn.children.filter isList).length := by
  have whole : (host.offspring.filter fun low => isList low.drawn).map (·.drawn) =
      host.drawn.children.filter isList := Drawn.map_drawn_filter_tops isList _ _ _
  rw [Arena.lists, Arena.filter_children_entry isListClass member, ← whole, List.length_map,
    List.length_map]

theorem entry_of_lists {inner : Nat}
    (listed : (drawScreen rules config root children).arena.lists inner ≠ []) :
    ∃ host ∈ screenEntries rules config root children, host.position = inner ∧
      host.drawn.children.filter isList ≠ [] := by
  obtain ⟨low, member⟩ := List.exists_mem_of_ne_nil _ listed
  obtain ⟨host, present, _, _, rfl, _⟩ :=
    Arena.exists_host (Arena.mem_children.mp (List.mem_filter.mp member).1)
  refine ⟨host, present, rfl, ?_⟩
  rwa [← List.length_pos_iff, ← length_lists present, List.length_pos_iff]

theorem Holds.lists {plot : Plot α} {holder : Entry α}
    (holds : Holds rules config root children plot holder) (flow : plot.site.node.IsFlow rules) :
    ∃ low, (drawScreen rules config root children).arena.lists holder.position = [low] :=
  List.length_eq_one_iff.mp ((length_lists holds.member).trans (holds.one_list flow))

omit [Scalar α] in
theorem isFlow_node {site : Site α} : site.node.IsFlow rules ↔ site.origin.IsFlow rules := by
  rw [Node.IsFlow, Node.IsFlow, Site.strategy_node, Site.layout_node]

namespace Placing

variable (placing : Placing rules config root children place) (staging : Staging rules root children)
include placing staging

/-- The frame around the children of a node lies in the instance of the node. -/
theorem inside_of_content {plot : Plot α} (among : Plot.Among [top root children] plot) {frame : Entry α}
    (member : frame ∈ screenEntries rules config root children)
    (framed : frame.drawn = contentDrawn rules config plot) :
    ∃ entry ∈ screenEntries rules config root children, entry.position = place plot.path ∧
      (∃ slot, entry.drawn = draw rules config slot plot) ∧ frame ∈ entry.offspring := by
  have part : frame.drawn.origin.part = .content := by rw [framed]; rfl
  obtain ⟨host, present, inside, drawing⟩ := exists_drawing member
    (by rw [framed, Drawn.isGui, contentDrawn, Drawn.className]; decide)
  cases drawing with
  | background among drawn own => simp [(mem_helpers own).1] at part
  | target among drawn own => simp [(mem_helpers own).1] at part
  | root own => simp [own] at part
  | sibling among holds own =>
    have kept : frame.drawn ∈ (drawAll rules config _ 1 0 _).filter
        (fun drawn => drawn.origin.part == .content) := List.mem_filter.mpr ⟨own, by simp [part]⟩
    rw [filter_drawAll (by decide)] at kept
    simp at kept
  | @content slot other amongOther drawn own =>
    have path : other.path = plot.path := by
      simpa [contentDrawn, Drawn.origin] using congrArg (·.origin.path) (own.symm.trans framed)
    obtain rfl := staging.unique amongOther among path
    have position := placing.own host present (by simp [drawn, Drawn.isSelf])
    rw [drawn, origin_draw] at position
    exact ⟨host, present, position, ⟨slot, drawn⟩, inside⟩

/-- What holds the children of a node is its instance or lies in it. -/
theorem hosts_of_holds {plot : Plot α} (among : Plot.Among [top root children] plot) {holder : Entry α}
    (holds : Holds rules config root children plot holder) :
    (drawScreen rules config root children).arena.Hosts (place plot.path) holder.position := by
  rcases holds.drawn with ⟨slot, drawn, _⟩ | ⟨_, drawn⟩
  · have position := placing.own holder holds.member (by simp [drawn, Drawn.isSelf])
    rw [drawn, origin_draw] at position
    exact .inl position
  · obtain ⟨entry, present, position, _, inside⟩ :=
      placing.inside_of_content staging among holds.member drawn
    have synthetic : holder.row.IsSynthetic :=
      (synthetic_iff_entry staging.supplied staging.ready holds.member).mpr
        (by rw [drawn]; exact Bool.false_ne_true)
    exact .inr ⟨position ▸ Arena.hangs_offspring present inside, _, Arena.get?_entry holds.member,
      synthetic, congrArg Drawn.name drawn⟩

theorem eq_of_holds {plot : Plot α} (among : Plot.Among [top root children] plot) {one other : Entry α}
    (holds : Holds rules config root children plot one)
    (also : Holds rules config root children plot other) : one = other := by
  rcases holds.drawn with ⟨slot, drawn, together⟩ | ⟨apart, drawn⟩
  · rcases also.drawn with ⟨slot', drawn', _⟩ | ⟨apart', _⟩
    · have position := placing.own one holds.member (by simp [drawn, Drawn.isSelf])
      have position' := placing.own other also.member (by simp [drawn', Drawn.isSelf])
      rw [drawn, origin_draw] at position
      rw [drawn', origin_draw] at position'
      exact Arena.entry_unique holds.member also.member (position.trans position'.symm)
    · simp [together] at apart'
  · rcases also.drawn with ⟨_, _, together'⟩ | ⟨_, drawn'⟩
    · simp [apart] at together'
    · obtain ⟨entry, present, position, ⟨slot, self⟩, inside⟩ :=
        placing.inside_of_content staging among holds.member drawn
      obtain ⟨entry', present', position', _, inside'⟩ :=
        placing.inside_of_content staging among also.member drawn'
      obtain rfl := Arena.entry_unique present present' (position.trans position'.symm)
      have kept : one.drawn ∈ (draw rules config slot plot).children.filter
          (fun drawn => drawn.origin.part == .content) :=
        List.mem_filter.mpr ⟨self ▸ drawn_mem_children inside, by rw [drawn]; rfl⟩
      have single : (draw rules config slot plot).children.filter
          (fun drawn => drawn.origin.part == .content) = _ := filter_content_children config slot plot
      split at single
      · rw [← self, ← Drawn.map_drawn_tops (entry.position + 1)
          ((entry.position, entry.drawn.origin) :: entry.above) entry.drawn.children] at single
        exact eq_of_filter_singleton single inside (by rw [drawn]; rfl) inside' (by rw [drawn']; rfl)
      · simp [single] at kept

/-- What lists the children of a node holds them, and the node is a flow. -/
theorem holds_of_lists {plot : Plot α} (among : Plot.Among [top root children] plot) {inner : Nat}
    (hosts : (drawScreen rules config root children).arena.Hosts (place plot.path) inner)
    (listed : (drawScreen rules config root children).arena.lists inner ≠ []) :
    plot.site.node.IsFlow rules ∧
      ∃ host, Holds rules config root children plot host ∧ host.position = inner := by
  obtain ⟨entry, member, position, slot, drawn⟩ := placing.stands plot among
  obtain ⟨low, inside⟩ := List.exists_mem_of_ne_nil _ listed
  have hangs := Arena.mem_children.mp (List.mem_filter.mp inside).1
  rw [← position] at hosts
  rcases staging.inner_cases member drawn hosts hangs with
    rfl | ⟨container, apart, frame, within, rfl, framed⟩
  · rw [← List.length_pos_iff, length_lists member, drawn, length_lists_draw] at listed
    split at listed
    · rename_i flow
      exact ⟨⟨flow.1, flow.2.2⟩, entry, ⟨member, .inl ⟨slot, drawn, flow.2.1⟩⟩, rfl⟩
    · simp at listed
  · exact ⟨⟨container, layout_of_keepsApart apart⟩, frame,
      ⟨Arena.mem_of_offspring member within, .inr ⟨apart, framed⟩⟩, rfl⟩

theorem lists_hosted {inner : Nat}
    (listed : (drawScreen rules config root children).arena.lists inner ≠ []) :
    ∃ path, Node.Reached rules root path ∧
      (drawScreen rules config root children).arena.Hosts (place path) inner := by
  obtain ⟨host, member, rfl, nonempty⟩ := entry_of_lists listed
  obtain ⟨plot, among, _, holds⟩ := exists_flow member nonempty
  exact ⟨plot.path, ⟨_, staging.emits among⟩, placing.hosts_of_holds staging among holds⟩

theorem listed (arranged : ∀ path node, Node.Emits rules root path node → Plan.Arranged rules node)
    {path : List Nat} {node : Node α} {inner : Nat} (reached : Node.Emits rules root path node)
    (hosts : (drawScreen rules config root children).arena.Hosts (place path) inner)
    (listed : (drawScreen rules config root children).arena.lists inner ≠ []) :
    node.IsFlow rules ∧ (drawScreen rules config root children).arena.guiChildren inner =
        node.livePositions.map (fun position => place (path ++ [position])) ∧
      ((drawScreen rules config root children).arena.guiChildren inner).map
        ((drawScreen rules config root children).arena.number? "LayoutOrder") =
        (List.range node.livePositions.length).map fun step : Nat => some (step + 1 : Int) := by
  obtain ⟨plot, among, rfl, rfl⟩ := staging.exists_plot reached
  obtain ⟨flow, host, holds, rfl⟩ := placing.holds_of_lists staging among hosts listed
  have laid := staging.laid plot among
  have unshaded := staging.unshaded arranged among flow
  have paths : plot.children.map Plot.path =
      plot.site.origin.livePositions.map fun position => plot.path ++ [position] := by
    rw [Plot.path, ← paths_below, ← laid.sites_of_flow flow.1 flow.2, List.map_map]
    rfl
  refine ⟨isFlow_node.mp flow, ?_, ?_⟩
  -- nothing is drawn beside the children themselves: flow lays out neither shadows nor a background
  · have same : host.offspring.filter (fun low => low.drawn.isGui) =
        host.offspring.filter fun low => low.drawn.isSelf := by
      refine List.filter_congr fun low inside => ?_
      rw [Bool.eq_iff_iff]
      constructor
      · intro drawable
        have kept := List.mem_filter.mpr ⟨drawn_mem_children inside, drawable⟩
        exact drawn_of_mem_drawAll unshaded (holds.gui flow ▸ kept)
      · intro self
        obtain ⟨slot, own, _, drawn⟩ := drawn_of_isSelf (Arena.mem_of_offspring holds.member inside) self
        rw [drawn, isGui_draw]
    rw [Arena.guiChildren_entry holds.member, same,
      placing.positions_offspring holds.member (holds.paths laid)]
    calc (plot.children.map fun low => place low.path)
      _ = (plot.children.map Plot.path).map place := by rw [List.map_map]; rfl
      _ = _ := by rw [paths, List.map_map]; rfl
  · rw [Arena.map_number_guiChildren "LayoutOrder" holds.member, holds.gui flow,
      orders_drawAll (by exact flow.2) 1 0 unshaded, ← List.length_map (f := Plot.path), paths,
      List.length_map]
    simp [climb, Int.add_comm]

omit placing staging in
theorem held {low : Nat} {inst : Instance α}
    (found : (drawScreen rules config root children).arena.get? low = some inst)
    (list : isListClass inst.className = true) :
    ∃ inner, low ∈ (drawScreen rules config root children).arena.lists inner := by
  obtain ⟨entry, member, rfl, rfl⟩ := Arena.get?_plant.mp found
  rcases Arena.top_or_offspring member with rfl | ⟨host, present, inside⟩
  · simp [drawScreen, Entry.row, Drawn.className, isListClass] at list
  · refine ⟨host.position, List.mem_filter.mpr ⟨?_, ?_⟩⟩
    · exact Arena.mem_children.mpr (Arena.hangs_offspring present inside)
    · rw [found]
      exact list

theorem one {path : List Nat} {node : Node α} (reached : Node.Emits rules root path node)
    (flow : node.IsFlow rules) : ∃ inner low,
    (drawScreen rules config root children).arena.Hosts (place path) inner ∧
      (drawScreen rules config root children).arena.lists inner = [low] ∧
      ∀ other, (drawScreen rules config root children).arena.Hosts (place path) other →
        (drawScreen rules config root children).arena.lists other ≠ [] → other = inner := by
  obtain ⟨plot, among, rfl, rfl⟩ := staging.exists_plot reached
  have flow := isFlow_node.mpr flow
  obtain ⟨holder, holds, hosts⟩ := placing.exists_holder staging among flow.1
  obtain ⟨low, single⟩ := holds.lists flow
  refine ⟨holder.position, low, hosts, single, fun other within listed => ?_⟩
  obtain ⟨_, host, also, rfl⟩ := placing.holds_of_lists staging among within listed
  rw [placing.eq_of_holds staging among holds also]

omit placing in
theorem ordered {low : Nat} {inst : Instance α}
    (found : (drawScreen rules config root children).arena.get? low = some inst)
    (order : (inst.property? "LayoutOrder").isSome = true) :
    ∃ inner, (drawScreen rules config root children).arena.lists inner ≠ [] ∧
      low ∈ (drawScreen rules config root children).arena.guiChildren inner := by
  obtain ⟨entry, member, rfl, rfl⟩ := Arena.get?_plant.mp found
  have set : ((Properties.setAll [] entry.drawn.properties).lookup "LayoutOrder").isSome = true := order
  have self : entry.drawn.isSelf = true := by
    rcases role_entry member with rfl | role
    · exact absurd (show (none : Option (Property α)).isSome = true from set) Bool.false_ne_true
    · generalize entry.drawn = drawn at role set
      generalize entry.above.map (·.2) = above at role
      cases role with
      | node among => simp [Drawn.isSelf]
      | content among container apart =>
        exact absurd (show (none : Option (Property α)).isSome = true from set) Bool.false_ne_true
      | helper other aids =>
        rw [Drawn.properties, Properties.lookup_setAll aids.unordered] at set
        simp at set
  have drawable : entry.drawn.isGui = true := by
    obtain ⟨slot, own, _, drawn⟩ := drawn_of_isSelf member self
    rw [drawn, isGui_draw]
  obtain ⟨host, present, inside, drawing⟩ := exists_drawing member drawable
  -- what is set in order is a node itself, and neither the root nor a node out of flow
  cases drawing with
  | background among drawn own => simp [Drawn.isSelf, (mem_helpers own).1] at self
  | target among drawn own => simp [Drawn.isSelf, (mem_helpers own).1] at self
  | content among drawn own => simp [own, contentDrawn, Drawn.isSelf, Drawn.origin] at self
  | root own =>
    rw [own, lookup_draw _ _ _ (by simp), if_neg (by decide), rootSlot] at set
    simp at set
  | @sibling plot among holds own =>
    have container : plot.site.node.strategy rules = .container := by
      by_contra leaf
      simp [(staging.laid plot among).leaf leaf, drawAll] at own
    obtain ⟨list, single⟩ := holds.lists ⟨container, flow_of_ordered own self set⟩
    refine ⟨host.position, by simp [single], ?_⟩
    rw [Arena.guiChildren_entry present]
    exact List.mem_map_of_mem (List.mem_filter.mpr ⟨inside, drawable⟩)

end Placing

end Screen

/-- A planned design that is assembled, whatever assets were filled in, has its flows listed. -/
theorem assemble_flows (rules : RuleSet) (config : TextConfig) (root : Node α)
    {change : Layer α → Annotations α} (refills : Refills change) {log log' : Diagnostics}
    {arena : Arena α}
    (done : (assemble rules config ((Plan.annotate rules root).1.revise change)).run log =
      .ok (arena, log')) : ∃ place : List Nat → Nat,
      arena.HasEachNode rules ((Plan.annotate rules root).1.revise change) place ∧
      arena.Flows rules ((Plan.annotate rules root).1.revise change) place := by
  obtain ⟨children, staging, rfl⟩ := staged_of_assemble done
  obtain ⟨place, placing⟩ := exists_placing config staging
  exact ⟨place, placing.houses staging,
    { held := fun _ _ found list => Placing.held found list
      hosted := fun _ listed => placing.lists_hosted staging listed
      listed := fun _ _ _ reached hosts listed => placing.listed staging
        (fun _ _ emitted => Plan.arranged_planned refills emitted) reached hosts listed
      one := fun _ _ reached flow => placing.one staging reached flow
      ordered := fun _ _ found order => Placing.ordered staging found order }⟩

section Canteen

private def wood : Paint Rat := .image ⟨true, 1, some "wood", none⟩

/-- A dish with a shadow, which reaches out of its tray. -/
private def dish : Node Rat :=
  .shape { Layer.plain "2" "dish" ⟨35, 4, 8, 8⟩ with
    reactions := [⟨.onClick, none, none⟩]
    shadowHash := some "dusk" } .ellipse

/-- A clickable tray with a picture under its dishes. -/
private def tray : Node Rat :=
  .container { Layer.plain "1" "tray" ⟨10, 5, 40, 30⟩ with
      fills := [wood]
      reactions := [⟨.onClick, none, none⟩] }
    ⟨.frame, some ⟨.vertical, 4, 0, 0, 0, 0, .min, .center, false⟩, true⟩
    [dish, .shape { Layer.plain "3" "crumb" ⟨0, 0, 1, 1⟩ with visible := false } .ellipse,
      .shape (.plain "4" "glass" ⟨0, 8, 4, 6⟩) .rectangle]

private def canteen : Node Rat :=
  .container (.plain "0" "canteen" ⟨0, 0, 100, 80⟩) ⟨.frame, none, false⟩ [tray]

private def kitchen : RuleSet := ⟨"", [], []⟩

/-- The canteen with all its pictures. -/
private def served : Node Rat :=
  (Plan.annotate kitchen canteen).1.revise (Plan.filling fun _ => some "7")

theorem tray_flows : ∃ (arena : Arena Rat) (log' : Diagnostics),
    (assemble kitchen .default served).run .empty = .ok (arena, log') ∧
      ∃ (place : List Nat → Nat) (inner : Nat), arena.Hosts (place [0]) inner ∧
        arena.guiChildren inner = [place [0, 0], place [0, 2]] ∧
        (arena.guiChildren inner).map (arena.number? "LayoutOrder") = [some 1, some 2] := by
  obtain ⟨arena, log', done⟩ : ∃ arena log',
      (assemble kitchen .default served).run .empty = .ok (arena, log') :=
    assemble_total .default (fun _ _ reached => Plan.supplied_filled (fun _ => rfl) reached) .empty
  obtain ⟨place, _, flows⟩ := assemble_flows kitchen .default canteen Plan.refills_filling done
  obtain ⟨node, reached, flow, live⟩ : ∃ node, Node.Emits kitchen served [0] node ∧
      node.IsFlow kitchen ∧ node.livePositions = [0, 2] :=
    ⟨_, .prepend rfl rfl rfl .root, ⟨rfl, rfl⟩, rfl⟩
  obtain ⟨inner, low, hosts, single, _⟩ := flows.one [0] node reached flow
  obtain ⟨_, shown, numbers⟩ := flows.listed [0] node inner reached hosts (by simp [single])
  rw [live] at shown numbers
  exact ⟨arena, log', done, place, inner, hosts, shown, numbers⟩

end Canteen

end Assembly
end DesignCompiler
