import DesignCompiler.Proofs.ChildInstances
import DesignCompiler.Proofs.Emission
import DesignCompiler.Proofs.Ordering

/-!
What every instance of a drawing is there for: it stands for a node, frames the children of a flow, or
helps one of the two without holding anything itself. With that the nodes under an instance are read off
the placement.
-/
namespace DesignCompiler

variable {α : Type} [Scalar α] {rules : RuleSet}

namespace Assembly

/-- The frame around the children of a node. -/
def contentDrawn (rules : RuleSet) (config : TextConfig) (plot : Plot α) : Drawn α :=
  .mk ⟨plot.path, .content⟩ "Frame" "Content" contentProperties
    (helpers plot.site .decoration (flowItems plot.site.node).1 ++
      drawAll rules config (.of plot.site.node) 1 0 plot.children)

/-- What an item that lies below items of some origins is drawn for, where some nodes are drawn. -/
inductive Role (rules : RuleSet) (config : TextConfig) (plots : List (Plot α)) :
    List Origin → Drawn α → Prop where
  | node {above : List Origin} {slot : Slot α} {plot : Plot α} (among : Plot.Among plots plot) :
      Role rules config plots above (draw rules config slot plot)
  | content {above : List Origin} {plot : Plot α} (among : Plot.Among plots plot)
      (container : plot.site.node.strategy rules = .container)
      (apart : keepsApart rules plot.site.node = true) :
      Role rules config plots (⟨plot.path, .self⟩ :: above) (contentDrawn rules config plot)
  | helper {above : List Origin} {origin : Origin} {item : Item α}
      (other : origin.part ∉ [.screen, .self, .content])
      (aids : Aids item) :
      Role rules config plots above (.mk origin item.className item.name item.properties [])

theorem role_helpers {config : TextConfig} {plots : List (Plot α)} {site : Site α} {part : Part}
    {items : List (Item α)} {above : List Origin} {line : List Origin × Drawn α}
    (other : part ∉ [.screen, .self, .content]) (aids : ∀ item ∈ items, Aids item)
    (member : line ∈ Drawn.linesAll above (helpers site part items)) :
    Role rules config plots line.1 line.2 := by
  obtain ⟨_, item, present, same⟩ :=
    Drawn.mem_linesAll_ofItems (fun item member => (aids item member).childless) member
  rw [same]
  exact .helper other (aids item present)

theorem aids_of_furnishings {items : List (Item α)} (furnishing : ∀ item ∈ items, Furnishing item) :
    ∀ item ∈ items, Aids item :=
  fun item member => aids_of_furnishing (furnishing item member)

mutual

theorem role_draw {config : TextConfig} {slot : Slot α} {plots : List (Plot α)} {above : List Origin}
    {line : List Origin × Drawn α} : (plot : Plot α) →
    (∀ low, Plot.Among [plot] low → Plot.Among plots low) →
    line ∈ (draw rules config slot plot).lines above → Role rules config plots line.1 line.2
  | .mk site notice children, within, member => by
    have own := within _ .here
    have below : ∀ low, Plot.Among children low → Plot.Among plots low :=
      fun low among => within low (.inner among)
    have decorations : ∀ item ∈ (painting rules config site.node).2, Aids item :=
      aids_of_furnishings (furnishing_painting config site.node)
    have records := aids_of_furnishings (furnishing_interactions site.node.layer)
    have flow := aids_of_furnishings (furnishing_flowItems site.node)
    have lines : (draw rules config slot (.mk site notice children)).lines above =
        (above, draw rules config slot (.mk site notice children)) ::
          Drawn.linesAll (⟨site.path, .self⟩ :: above) (if site.node.strategy rules = .container then
            framed rules config slot.isRoot site (drawAll rules config (.of site.node) 1 0 children)
          else bare rules config site) := by
      rw [draw, Drawn.lines]
    rw [lines] at member
    rcases List.mem_cons.mp member with rfl | inside
    · exact .node own
    -- a frame draws its decorations, its background, its content, its records and its target, in this order
    · split at inside
      · rename_i container
        simp only [framed, contents, Drawn.linesAll_append, List.mem_append] at inside
        rcases inside with (((decoration | background) | content) | record) | target
        · exact role_helpers (by decide) decorations decoration
        · exact role_helpers (by decide) (aids_backdrop _ _) background
        · split at content
          · rename_i apart
            simp only [Drawn.linesAll, Drawn.lines, List.append_nil, Drawn.linesAll_append,
              List.mem_cons, List.mem_append] at content
            rcases content with rfl | layout | child
            · exact .content own container apart
            · exact role_helpers (by decide) flow layout
            · exact role_drawAll children below child
          · rcases List.mem_append.mp (Drawn.linesAll_append .. ▸ content) with layout | child
            · exact role_helpers (by decide) flow layout
            · exact role_drawAll children below child
        · exact role_helpers (by decide) records record
        · exact role_helpers (by decide) (aids_of_furnishings (furnishing_targets _ _)) target
      · simp only [bare, Drawn.linesAll_append, List.mem_append] at inside
        rcases inside with (decoration | record) | target
        · exact role_helpers (by decide) decorations decoration
        · exact role_helpers (by decide) records record
        · exact role_helpers (by decide) (aids_of_furnishings (furnishing_targets _ _)) target

theorem role_drawAll {config : TextConfig} {frame : ParentFrame α} {zIndex order : Int}
    {plots : List (Plot α)} {above : List Origin} {line : List Origin × Drawn α} :
    (drawn : List (Plot α)) → (∀ low, Plot.Among drawn low → Plot.Among plots low) →
    line ∈ Drawn.linesAll above (drawAll rules config frame zIndex order drawn) →
    Role rules config plots line.1 line.2
  | [], _, member => by simp [drawAll, Drawn.linesAll] at member
  | .mk site notice children :: rest, within, member => by
    simp only [drawAll, Drawn.linesAll_append, Drawn.linesAll, List.mem_append] at member
    rcases member with shadow | own | later
    · exact role_helpers (by decide) (aids_shade _ _ _) shadow
    · refine role_draw (.mk site notice children) (fun low among => within low ?_) own
      cases among with
      | here => exact .here
      | inner below => exact .inner below
      | later among => cases among
    · exact role_drawAll rest (fun low among => within low (.later among)) later

end

@[simp] theorem origin_draw (config : TextConfig) (slot : Slot α) (plot : Plot α) :
    (draw rules config slot plot).origin = ⟨plot.path, .self⟩ := by
  obtain ⟨site, notice, children⟩ := plot
  rw [draw]
  rfl

theorem children_draw (config : TextConfig) (slot : Slot α) (plot : Plot α) :
    (draw rules config slot plot).children =
      if plot.site.node.strategy rules = .container then
        framed rules config slot.isRoot plot.site (drawAll rules config (.of plot.site.node) 1 0 plot.children)
      else bare rules config plot.site := by
  obtain ⟨site, notice, children⟩ := plot
  rw [draw]
  rfl

omit [Scalar α] in
theorem mem_helpers {site : Site α} {part : Part} {items : List (Item α)} {drawn : Drawn α}
    (member : drawn ∈ helpers site part items) :
    drawn.origin = ⟨site.path, part⟩ ∧ ∃ item ∈ items, drawn.item = item := by
  rw [helpers] at member
  induction items with
  | nil => simp [Drawn.ofItems] at member
  | cons item rest ih =>
    rw [Drawn.ofItems] at member
    rcases List.mem_cons.mp member with rfl | later
    · refine ⟨?_, item, List.mem_cons_self, Drawn.item_ofItem _ item⟩
      obtain ⟨className, name, properties, children⟩ := item
      rfl
    · obtain ⟨origin, other, present, same⟩ := ih later
      exact ⟨origin, other, List.mem_cons_of_mem _ present, same⟩

omit [Scalar α] in
theorem filter_helpers {site : Site α} {part other : Part} (differ : part ≠ other)
    (items : List (Item α)) :
    (helpers site part items).filter (fun drawn => drawn.origin.part == other) = [] := by
  rw [List.filter_eq_nil_iff]
  intro drawn member
  rw [(mem_helpers member).1]
  simpa using differ

omit [Scalar α] in
theorem filter_isSelf_helpers {site : Site α} {part : Part} (differ : part ≠ .self)
    (items : List (Item α)) : (helpers site part items).filter Drawn.isSelf = [] :=
  filter_helpers differ items

/-- The nodes among siblings are drawn in the order of their places. -/
theorem paths_drawAll (config : TextConfig) (frame : ParentFrame α) (zIndex order : Int)
    (plots : List (Plot α)) :
    ((drawAll rules config frame zIndex order plots).filter Drawn.isSelf).map (·.origin.path) =
      plots.map Plot.path := by
  induction plots generalizing zIndex order with
  | nil => rw [drawAll]; rfl
  | cons plot rest ih =>
    obtain ⟨site, notice, children⟩ := plot
    rw [drawAll, List.filter_append, filter_isSelf_helpers (by decide), List.nil_append,
      List.filter_cons_of_pos (by simp [Drawn.isSelf]), List.map_cons, ih, List.map_cons, origin_draw]

theorem paths_children_draw (config : TextConfig) (slot : Slot α) {plot : Plot α}
    (laid : plot.Laid rules) :
    ((draw rules config slot plot).children.filter Drawn.isSelf).map (·.origin.path) =
      if keepsApart rules plot.site.node = true then [] else plot.children.map Plot.path := by
  rw [children_draw]
  by_cases container : plot.site.node.strategy rules = .container
  · simp only [if_pos container, framed, contents, List.filter_append]
    rw [filter_isSelf_helpers (by decide), filter_isSelf_helpers (by decide),
      filter_isSelf_helpers (by decide), filter_isSelf_helpers (by decide)]
    by_cases apart : keepsApart rules plot.site.node = true
    · simp [apart, Drawn.isSelf, Drawn.origin]
    · rw [if_neg apart, if_neg apart, List.filter_append, filter_isSelf_helpers (by decide)]
      simpa using paths_drawAll config (.of plot.site.node) 1 0 plot.children
  · rw [if_neg container, bare, laid.leaf container]
    simp only [List.filter_append]
    rw [filter_isSelf_helpers (by decide), filter_isSelf_helpers (by decide),
      filter_isSelf_helpers (by decide)]
    split <;> rfl

theorem paths_children_content (config : TextConfig) (plot : Plot α) :
    ((contentDrawn rules config plot).children.filter Drawn.isSelf).map (·.origin.path) =
      plot.children.map Plot.path := by
  rw [contentDrawn, Drawn.children, List.filter_append, filter_isSelf_helpers (by decide),
    List.nil_append, paths_drawAll]

omit [Scalar α] in
theorem filter_helpers_own (site : Site α) (part : Part) (items : List (Item α)) :
    (helpers site part items).filter (fun drawn => drawn.origin.part == part) =
      helpers site part items := by
  rw [List.filter_eq_self]
  intro drawn member
  rw [(mem_helpers member).1]
  simp

theorem filter_drawAll {part : Part} (other : part ∉ [.self, .shadow]) (config : TextConfig)
    (frame : ParentFrame α) (zIndex order : Int) (plots : List (Plot α)) :
    (drawAll rules config frame zIndex order plots).filter (fun drawn => drawn.origin.part == part) = [] := by
  simp only [List.mem_cons, List.not_mem_nil, or_false, not_or] at other
  induction plots generalizing zIndex order with
  | nil => rw [drawAll]; rfl
  | cons plot rest ih =>
    obtain ⟨site, notice, children⟩ := plot
    rw [drawAll, List.filter_append, filter_helpers (Ne.symm other.2), List.nil_append,
      List.filter_cons_of_neg (by simpa using Ne.symm other.1), ih]

/-- The instance of a node holds a frame around children just if it keeps them apart. -/
theorem filter_content_children (config : TextConfig) (slot : Slot α) (plot : Plot α) :
    (draw rules config slot plot).children.filter (fun drawn => drawn.origin.part == .content) =
      if plot.site.node.strategy rules = .container ∧ keepsApart rules plot.site.node = true then
        [contentDrawn rules config plot] else [] := by
  rw [children_draw]
  by_cases container : plot.site.node.strategy rules = .container
  · simp only [if_pos container, framed, contents, List.filter_append]
    rw [filter_helpers (by decide), filter_helpers (by decide), filter_helpers (by decide),
      filter_helpers (by decide)]
    by_cases apart : keepsApart rules plot.site.node = true
    · rw [if_pos apart, if_pos ⟨container, apart⟩]
      rfl
    · rw [if_neg apart, if_neg fun both => apart both.2, List.filter_append,
        filter_helpers (by decide), filter_drawAll (by decide)]
      rfl
  · simp only [if_neg container, bare, List.filter_append]
    rw [filter_helpers (by decide), filter_helpers (by decide), filter_helpers (by decide),
      if_neg fun both => container both.1]
    rfl

/-- The instance of a container holds the picture under its children, and that of no other node one. -/
theorem filter_background_children (config : TextConfig) (slot : Slot α) (plot : Plot α) :
    (draw rules config slot plot).children.filter (fun drawn => drawn.origin.part == .background) =
      if plot.site.node.strategy rules = .container then
        helpers plot.site .background (backdrop plot.site.node.layer slot.isRoot) else [] := by
  rw [children_draw]
  by_cases container : plot.site.node.strategy rules = .container
  · simp only [if_pos container, framed, contents, List.filter_append]
    rw [filter_helpers (by decide), filter_helpers_own, filter_helpers (by decide),
      filter_helpers (by decide)]
    by_cases apart : keepsApart rules plot.site.node = true
    · simp [apart, Drawn.origin]
    · rw [if_neg apart, List.filter_append, filter_helpers (by decide), filter_drawAll (by decide)]
      simp
  · simp only [if_neg container, bare, List.filter_append]
    rw [filter_helpers (by decide), filter_helpers (by decide), filter_helpers (by decide)]
    rfl

/-- The instance of a node ends with its click target, if it has one. -/
theorem children_target (config : TextConfig) (slot : Slot α) (plot : Plot α) : ∃ front zIndex,
    (draw rules config slot plot).children =
      front ++ helpers plot.site .target (targets rules plot.site.node.layer zIndex) ∧
    front.filter (fun drawn => drawn.origin.part == .target) = [] := by
  rw [children_draw]
  by_cases container : plot.site.node.strategy rules = .container
  · rw [if_pos container, framed]
    refine ⟨_, _, rfl, ?_⟩
    simp only [contents, List.filter_append]
    rw [filter_helpers (by decide), filter_helpers (by decide), filter_helpers (by decide)]
    by_cases apart : keepsApart rules plot.site.node = true
    · simp [apart, Drawn.origin]
    · rw [if_neg apart, List.filter_append, filter_helpers (by decide), filter_drawAll (by decide)]
      rfl
  · rw [if_neg container, bare]
    refine ⟨_, _, rfl, ?_⟩
    rw [List.filter_append, filter_helpers (by decide), filter_helpers (by decide)]
    rfl

/-- The place of a design with all places below it. -/
abbrev top (root : Node α) (children : List (Plot α)) : Plot α := .mk (Site.start [] root) none children

/-- A design laid out by runs, with the pictures of all its nodes. -/
structure Staging (rules : RuleSet) (root : Node α) (children : List (Plot α)) : Prop where
  layout : Placement.Layout rules root children
  laid : ∀ plot, Plot.Among [top root children] plot → plot.Laid rules
  supplied : Supplied rules root
  ready : Ready rules children

/-- A design that is assembled is laid out by runs, and the arena is that of its drawing. -/
theorem staged_of_assemble {config : TextConfig} {root : Node α} {log log' : Diagnostics}
    {arena : Arena α} (done : (assemble rules config root).run log = .ok (arena, log')) :
    ∃ children, Staging rules root children ∧ arena = (drawScreen rules config root children).arena := by
  obtain ⟨children, layout, laid⟩ := Placement.exists_laid rules root
  obtain ⟨⟨supplied, ready⟩, drawn⟩ := drawn_of_assemble layout done
  exact ⟨children, ⟨layout, laid, supplied, ready⟩, drawn⟩

section Screen

variable {root : Node α} {children : List (Plot α)} {config : TextConfig} {place : List Nat → Nat}

theorem Staging.emits (staging : Staging rules root children) {plot : Plot α}
    (among : Plot.Among [top root children] plot) : Node.Emits rules root plot.path plot.site.origin := by
  have placed : plot.site.occurrence ∈ Plot.occurrences [top root children] :=
    List.mem_map_of_mem among.site_mem
  obtain ⟨_, rfl, reached⟩ := Node.mem_emits.mp (staging.layout.perm.mem_iff.mp placed)
  exact reached

theorem Staging.exists_plot (staging : Staging rules root children) {path : List Nat} {node : Node α}
    (reached : Node.Emits rules root path node) :
    ∃ plot, Plot.Among [top root children] plot ∧ plot.path = path ∧ plot.site.origin = node := by
  have listed : (path, node) ∈ Plot.occurrences [top root children] :=
    staging.layout.perm.mem_iff.mpr (Node.mem_emits.mpr ⟨path, rfl, reached⟩)
  obtain ⟨site, member, same⟩ := List.mem_map.mp listed
  obtain ⟨plot, among, rfl⟩ := Plot.exists_among member
  obtain ⟨path, origin⟩ := Prod.mk.inj same
  exact ⟨plot, among, path, origin⟩

/-- The paths of all places are those of the nodes that reach the output. -/
theorem Staging.paths_perm (staging : Staging rules root children) :
    (Plot.paths [top root children]).Perm ((root.emits rules []).map (·.1)) := by
  have paths : Plot.paths [top root children] =
      (Plot.occurrences [top root children]).map (·.1) := by
    rw [Plot.paths, Plot.occurrences, List.map_map]
    rfl
  rw [paths]
  exact staging.layout.perm.map _

theorem Staging.nodup_paths (staging : Staging rules root children) :
    (Plot.paths [top root children]).Nodup :=
  staging.paths_perm.nodup_iff.mpr (Node.emits_nodup rules [] root)

theorem Staging.unique (staging : Staging rules root children) {first second : Plot α}
    (one : Plot.Among [top root children] first) (other : Plot.Among [top root children] second)
    (same : first.path = second.path) : first = second :=
  one.unique other staging.nodup_paths same

theorem role_entry {entry : Entry α} (member : entry ∈ screenEntries rules config root children) :
    entry = ⟨0, [], drawScreen rules config root children⟩ ∨
      Role rules config [top root children] (entry.above.map (·.2)) entry.drawn := by
  rw [screenEntries, drawScreen, Drawn.entries] at member
  rcases List.mem_cons.mp member with same | below
  · exact .inl (by rw [same, drawScreen])
  · right
    have line : entry.line ∈ Drawn.linesAll [⟨[], .screen⟩]
        [draw rules config (rootSlot root) (top root children)] := by
      have listed : entry.line ∈ (Drawn.entriesAll (0 + 1) [(0, ⟨[], .screen⟩)]
          [draw rules config (rootSlot root) (top root children)]).map Entry.line :=
        List.mem_map_of_mem below
      rwa [Drawn.map_line_entriesAll] at listed
    rw [Drawn.linesAll, Drawn.linesAll, List.append_nil] at line
    exact role_draw (top root children) (fun low among => among) line

theorem drawn_of_isSelf {entry : Entry α} (member : entry ∈ screenEntries rules config root children)
    (self : entry.drawn.isSelf = true) : ∃ slot plot, Plot.Among [top root children] plot ∧
      entry.drawn = draw rules config slot plot := by
  rcases role_entry member with rfl | role
  · rw [drawScreen] at self
    simp [Drawn.isSelf, Drawn.origin] at self
  · generalize entry.drawn = drawn at role self
    generalize entry.above.map (·.2) = above at role
    cases role with
    | node among => exact ⟨_, _, among, rfl⟩
    | content among container apart => simp [contentDrawn, Drawn.isSelf, Drawn.origin] at self
    | helper other aids =>
      simp only [Drawn.isSelf, Drawn.origin, beq_iff_eq] at self
      simp [self] at other

/-- A function gives for every node where its own instance is. -/
structure Placing (rules : RuleSet) (config : TextConfig) (root : Node α) (children : List (Plot α))
    (place : List Nat → Nat) : Prop where
  stands : ∀ plot, Plot.Among [top root children] plot →
    ∃ entry ∈ screenEntries rules config root children, entry.position = place plot.path ∧
      ∃ slot, entry.drawn = draw rules config slot plot
  own : ∀ entry ∈ screenEntries rules config root children, entry.drawn.isSelf = true →
    entry.position = place entry.drawn.origin.path

theorem exists_placing (config : TextConfig) (staging : Staging rules root children) :
    ∃ place, Placing rules config root children place := by
  obtain ⟨place, stands, standing⟩ := exists_place config staging.layout
  refine ⟨place, ?_, ?_⟩
  · intro plot among
    obtain ⟨entry, member, position, self, shown⟩ := stands _ _ (staging.emits among)
    obtain ⟨slot, other, present, drawn⟩ := drawn_of_isSelf member self
    have same : other.path = plot.path := by
      have own : entry.drawn.origin.path = plot.path := congrArg (·.1) shown
      rwa [drawn, origin_draw] at own
    obtain rfl := staging.unique present among same
    exact ⟨entry, member, position, slot, drawn⟩
  · intro entry member self
    obtain ⟨slot, plot, among, drawn⟩ := drawn_of_isSelf member self
    have path : entry.drawn.origin.path = plot.path := by rw [drawn, origin_draw]
    exact (standing _ _ (staging.emits among) entry member self path).symm.trans (by rw [path])

namespace Placing

variable (placing : Placing rules config root children place)
include placing

/-- The nodes that reach the output and the instances that are not synthetic are the same. -/
theorem bijOn (staging : Staging rules root children) :
    Set.BijOn place {path | ∃ node, Node.Emits rules root path node}
      {position | ∃ inst, (drawScreen rules config root children).arena.get? position = some inst ∧
        ¬ inst.IsSynthetic} := by
  refine ⟨?_, ?_, ?_⟩
  · rintro path ⟨node, reached⟩
    obtain ⟨plot, among, rfl, _⟩ := staging.exists_plot reached
    obtain ⟨entry, member, position, slot, drawn⟩ := placing.stands plot among
    refine ⟨entry.row, position ▸ Arena.get?_entry member, fun synthetic => ?_⟩
    refine (synthetic_iff_entry staging.supplied staging.ready member).mp synthetic ?_
    simp [drawn, Drawn.isSelf]
  · rintro path ⟨node, reached⟩ other ⟨otherNode, also⟩ same
    obtain ⟨plot, among, rfl, _⟩ := staging.exists_plot reached
    obtain ⟨otherPlot, otherAmong, rfl, _⟩ := staging.exists_plot also
    obtain ⟨first, one, position, slot, drawn⟩ := placing.stands plot among
    obtain ⟨second, two, positionTwo, slotTwo, drawnTwo⟩ := placing.stands otherPlot otherAmong
    obtain rfl := Arena.entry_unique one two (by rw [position, positionTwo, same])
    simpa using congrArg (·.origin.path) (drawn.symm.trans drawnTwo)
  · rintro position ⟨inst, found, other⟩
    obtain ⟨entry, member, rfl, rfl⟩ := Arena.get?_plant.mp found
    have self : entry.drawn.isSelf = true := by
      rwa [synthetic_iff_entry staging.supplied staging.ready member, not_not] at other
    obtain ⟨slot, plot, among, drawn⟩ := drawn_of_isSelf member self
    refine ⟨plot.path, ⟨_, staging.emits among⟩, ?_⟩
    rw [placing.own entry member self, drawn, origin_draw]

/-- The instance in the place of a node has its class and its name. -/
theorem shown (staging : Staging rules root children) {path : List Nat} {node : Node α}
    (reached : Node.Emits rules root path node) :
    ∃ inst, (drawScreen rules config root children).arena.get? (place path) = some inst ∧
      inst.name = node.layer.name ∧ inst.className = className (node.classify rules) := by
  obtain ⟨plot, among, rfl, rfl⟩ := staging.exists_plot reached
  obtain ⟨entry, member, position, slot, drawn⟩ := placing.stands plot among
  refine ⟨entry.row, position ▸ Arena.get?_entry member, ?_⟩
  obtain ⟨site, notice, below⟩ := plot
  rw [Entry.row, drawn, draw, Plot.site, ← Site.classify_node, ← Site.name_node]
  exact ⟨rfl, rfl⟩

/-- The nodes directly in an entry are instances where their places are. -/
theorem positions_offspring {entry : Entry α}
    (member : entry ∈ screenEntries rules config root children) {plots : List (Plot α)}
    (paths : (entry.drawn.children.filter Drawn.isSelf).map (·.origin.path) = plots.map Plot.path) :
    (entry.offspring.filter fun low => low.drawn.isSelf).map (·.position) =
      plots.map fun plot => place plot.path := by
  have each : ∀ low ∈ entry.offspring.filter (fun low => low.drawn.isSelf),
      low.position = place low.drawn.origin.path := by
    intro low inside
    obtain ⟨present, self⟩ := List.mem_filter.mp inside
    exact placing.own low (Arena.mem_of_offspring member present) self
  calc (entry.offspring.filter fun low => low.drawn.isSelf).map (·.position)
    _ = (((entry.offspring.filter fun low => low.drawn.isSelf).map (·.drawn)).map
          (·.origin.path)).map place := by
      rw [List.map_congr_left each, List.map_map, List.map_map]
      rfl
    _ = plots.map fun plot => place plot.path := by
      rw [Entry.offspring, Drawn.map_drawn_filter_tops, paths, List.map_map]
      rfl

/-- A node that hangs from an instance is one of those drawn directly in it. -/
theorem mem_of_hangs {plot : Plot α} (among : Plot.Among [top root children] plot) {holder : Entry α}
    (member : holder ∈ screenEntries rules config root children)
    (hangs : (drawScreen rules config root children).arena.Hangs (place plot.path) holder.position) :
    plot.path ∈ (holder.drawn.children.filter Drawn.isSelf).map (·.origin.path) := by
  obtain ⟨own, present, position, slot, drawn⟩ := placing.stands plot among
  obtain ⟨other, listed, low, inside, samePosition, lowPosition⟩ := Arena.exists_host hangs
  obtain rfl := Arena.entry_unique listed member samePosition
  obtain rfl := Arena.entry_unique (Arena.mem_of_offspring listed inside) present
    (lowPosition.trans position.symm)
  rw [← Drawn.map_drawn_filter_tops Drawn.isSelf (other.position + 1)
    ((other.position, other.drawn.origin) :: other.above), List.map_map]
  refine List.mem_map.mpr ⟨low, List.mem_filter.mpr ⟨inside, ?_⟩, ?_⟩
  · simp [drawn, Drawn.isSelf]
  · simp [drawn]

end Placing

end Screen

end Assembly

/-- The instance that the children of an instance go to: the instance itself, or the frame in it that is
only there for them. -/
def Arena.Hosts (arena : Arena α) (high inner : Nat) : Prop :=
  inner = high ∨ arena.Hangs inner high ∧
    ∃ inst, arena.get? inner = some inst ∧ inst.IsSynthetic ∧ inst.name = "Content"

namespace Assembly

section Screen

variable {root : Node α} {children : List (Plot α)} {config : TextConfig} {place : List Nat → Nat}

omit [Scalar α] in
theorem drawn_mem_children {entry low : Entry α} (inside : low ∈ entry.offspring) :
    low.drawn ∈ entry.drawn.children := by
  rw [← Drawn.map_drawn_tops (entry.position + 1) ((entry.position, entry.drawn.origin) :: entry.above)
    entry.drawn.children]
  exact List.mem_map_of_mem inside

omit [Scalar α] in
theorem exists_offspring {entry : Entry α} {drawn : Drawn α} (member : drawn ∈ entry.drawn.children) :
    ∃ low ∈ entry.offspring, low.drawn = drawn := by
  rw [← Drawn.map_drawn_tops (entry.position + 1) ((entry.position, entry.drawn.origin) :: entry.above)
    entry.drawn.children] at member
  exact List.mem_map.mp member

omit [Scalar α] in
/-- An entry that is among those of one kind, of which there is one, is that one. -/
theorem eq_of_filter_singleton {keep : Drawn α → Bool} {entries : List (Entry α)} {low other : Entry α}
    {drawn : Drawn α} (one : (entries.map (·.drawn)).filter keep = [drawn]) (inside : low ∈ entries)
    (kept : keep low.drawn = true) (also : other ∈ entries) (keptAlso : keep other.drawn = true) :
    low = other := by
  rw [List.filter_map] at one
  obtain ⟨first, rest, alone, _, none⟩ := List.map_eq_cons_iff.mp one
  obtain rfl := List.map_eq_nil_iff.mp none
  have here : low ∈ entries.filter (keep ∘ (·.drawn)) := List.mem_filter.mpr ⟨inside, kept⟩
  have there : other ∈ entries.filter (keep ∘ (·.drawn)) := List.mem_filter.mpr ⟨also, keptAlso⟩
  rw [alone, List.mem_singleton] at here there
  rw [here, there]

/-- If the children of a node go elsewhere than to its own instance, they go to the frame around them. -/
theorem Staging.inner_cases (staging : Staging rules root children) {entry : Entry α}
    (member : entry ∈ screenEntries rules config root children) {slot : Slot α} {plot : Plot α}
    (drawn : entry.drawn = draw rules config slot plot) {low inner : Nat}
    (hosts : (drawScreen rules config root children).arena.Hosts entry.position inner)
    (hangs : (drawScreen rules config root children).arena.Hangs low inner) :
    inner = entry.position ∨ plot.site.node.strategy rules = .container ∧
      keepsApart rules plot.site.node = true ∧ ∃ frame ∈ entry.offspring, frame.position = inner ∧
        frame.drawn = contentDrawn rules config plot := by
  rcases hosts with same | ⟨within, inst, found, synthetic, _⟩
  · exact .inl same
  · right
    obtain ⟨holder, present, frame, inside, same, rfl⟩ := Arena.exists_host within
    obtain rfl := Arena.entry_unique present member same
    have listed := Arena.mem_of_offspring present inside
    obtain rfl : frame.row = inst := Option.some.inj ((Arena.get?_entry listed).symm.trans found)
    obtain ⟨holder', present', low', inside', same', _⟩ := Arena.exists_host hangs
    obtain rfl := Arena.entry_unique present' listed same'
    have other : ¬ holder'.drawn.isSelf = true :=
      (synthetic_iff_entry staging.supplied staging.ready listed).mp synthetic
    have busy : holder'.drawn.children ≠ [] := List.ne_nil_of_mem (drawn_mem_children inside')
    -- of all that is synthetic the frame around the content alone has children
    have framing : holder'.drawn.origin.part = .content := by
      rcases role_entry listed with top | role
      · have above := Drawn.above_of_tops inside
        rw [top] at above
        simp at above
      · generalize holder'.drawn = drawn at role other busy
        generalize holder'.above.map (·.2) = above at role
        cases role with
        | node among => simp [Drawn.isSelf] at other
        | content among container apart => rfl
        | helper _ aids => exact absurd rfl busy
    have kept : holder'.drawn ∈ (draw rules config slot plot).children.filter
        (fun drawn => drawn.origin.part == .content) :=
      List.mem_filter.mpr ⟨drawn ▸ drawn_mem_children inside, by simp [framing]⟩
    rw [filter_content_children] at kept
    split at kept
    · rename_i both
      exact ⟨both.1, both.2, holder', inside, rfl, List.mem_singleton.mp kept⟩
    · simp at kept

/-- The entry that holds the nodes under a container: that of the container, or the frame around
them. -/
structure Holds (rules : RuleSet) (config : TextConfig) (root : Node α) (children : List (Plot α))
    (plot : Plot α) (holder : Entry α) : Prop where
  member : holder ∈ screenEntries rules config root children
  drawn : (∃ slot, holder.drawn = draw rules config slot plot ∧ keepsApart rules plot.site.node = false) ∨
    keepsApart rules plot.site.node = true ∧ holder.drawn = contentDrawn rules config plot

theorem Holds.paths {plot : Plot α} {holder : Entry α} (holds : Holds rules config root children plot holder)
    (laid : plot.Laid rules) :
    (holder.drawn.children.filter Drawn.isSelf).map (·.origin.path) = plot.children.map Plot.path := by
  rcases holds.drawn with ⟨slot, drawn, together⟩ | ⟨_, drawn⟩
  · rw [drawn, paths_children_draw config slot laid, together]
    simp
  · rw [drawn, paths_children_content]

/-- The nodes under a container are children, in the order of their places, of the entry that holds
them. -/
theorem Placing.sublist (placing : Placing rules config root children place) {plot : Plot α}
    {holder : Entry α} (holds : Holds rules config root children plot holder) (laid : plot.Laid rules) :
    (plot.children.map fun low => place low.path).Sublist
      ((drawScreen rules config root children).arena.children holder.position) := by
  rw [← placing.positions_offspring holds.member (holds.paths laid), Arena.children_entry holds.member]
  exact List.filter_sublist.map _

theorem Placing.exists_holder (placing : Placing rules config root children place)
    (staging : Staging rules root children) {plot : Plot α}
    (among : Plot.Among [top root children] plot)
    (container : plot.site.node.strategy rules = .container) :
    ∃ holder, Holds rules config root children plot holder ∧
      (drawScreen rules config root children).arena.Hosts (place plot.path) holder.position := by
  obtain ⟨entry, member, position, slot, drawn⟩ := placing.stands plot among
  cases apart : keepsApart rules plot.site.node with
  | false => exact ⟨entry, ⟨member, .inl ⟨slot, drawn, apart⟩⟩, .inl position⟩
  | true =>
    have framed : contentDrawn rules config plot ∈ entry.drawn.children := by
      have kept : contentDrawn rules config plot ∈ (draw rules config slot plot).children.filter
          (fun drawn => drawn.origin.part == .content) := by
        rw [filter_content_children, if_pos ⟨container, apart⟩]
        exact List.mem_singleton_self _
      exact drawn ▸ (List.mem_filter.mp kept).1
    obtain ⟨frame, inside, same⟩ := exists_offspring framed
    have listed := Arena.mem_of_offspring member inside
    have synthetic : frame.row.IsSynthetic :=
      (synthetic_iff_entry staging.supplied staging.ready listed).mpr
        (by rw [same]; exact Bool.false_ne_true)
    exact ⟨frame, ⟨listed, .inr ⟨apart, same⟩⟩,
      .inr ⟨position ▸ Arena.hangs_offspring member inside, _, Arena.get?_entry listed, synthetic,
        congrArg Drawn.name same⟩⟩

/-- Every node placed under a container hangs from the instance that holds what is placed there. -/
theorem Placing.hangs (placing : Placing rules config root children place) {plot child : Plot α}
    {holder : Entry α} (holds : Holds rules config root children plot holder) (laid : plot.Laid rules)
    (member : child ∈ plot.children) :
    (drawScreen rules config root children).arena.Hangs (place child.path) holder.position :=
  Arena.mem_children.mp ((placing.sublist holds laid).subset
    (List.mem_map_of_mem (f := fun low : Plot α => place low.path) member))

/-- The nodes that go where the children of a container go, are those placed under it. -/
theorem Placing.hosted (placing : Placing rules config root children place)
    (staging : Staging rules root children) {plot low : Plot α} {inner : Nat}
    (among : Plot.Among [top root children] plot) (present : Plot.Among [top root children] low)
    (hosts : (drawScreen rules config root children).arena.Hosts (place plot.path) inner)
    (hangs : (drawScreen rules config root children).arena.Hangs (place low.path) inner) :
    low.path ∈ plot.children.map Plot.path ∧
      ∃ holder, Holds rules config root children plot holder ∧ holder.position = inner := by
  obtain ⟨entry, member, position, slot, drawn⟩ := placing.stands plot among
  have laid := staging.laid plot among
  rw [← position] at hosts
  rcases staging.inner_cases member drawn hosts hangs with rfl | ⟨_, apart, frame, inside, own, framed⟩
  · have direct := placing.mem_of_hangs present member hangs
    cases apart : keepsApart rules plot.site.node with
    | false =>
      have holds : Holds rules config root children plot entry := ⟨member, .inl ⟨slot, drawn, apart⟩⟩
      exact ⟨holds.paths laid ▸ direct, entry, holds, rfl⟩
    | true => simp [drawn, paths_children_draw config slot laid, apart] at direct
  · have holds : Holds rules config root children plot frame :=
      ⟨Arena.mem_of_offspring member inside, .inr ⟨apart, framed⟩⟩
    rw [← own] at hangs
    exact ⟨holds.paths laid ▸ placing.mem_of_hangs present holds.member hangs, frame, holds, own⟩

/-- The instance of a node lies below those of all nodes it is placed under. -/
theorem Placing.below (placing : Placing rules config root children place)
    (staging : Staging rules root children) {low : Plot α} {plots : List (Plot α)}
    (inside : Plot.Among plots low) {plot : Plot α} (among : Plot.Among [top root children] plot)
    (under : ∀ child ∈ plots, child ∈ plot.children) :
    (drawScreen rules config root children).arena.Below (place low.path) (place plot.path) := by
  have direct : ∀ host, Plot.Among [top root children] host → ∀ child ∈ host.children,
      (drawScreen rules config root children).arena.Below (place child.path) (place host.path) := by
    intro host present child member
    have laid := staging.laid host present
    obtain ⟨holder, holds, hosts⟩ :=
      placing.exists_holder staging present (laid.container_of_mem member)
    have hangs := placing.hangs holds laid member
    rcases hosts with same | ⟨further, _⟩
    · exact .single (same ▸ hangs)
    · exact .head hangs (.single further)
  induction inside generalizing plot with
  | here => exact direct plot among _ (under _ List.mem_cons_self)
  | @inner low site notice children rest further ih =>
    have member := under _ List.mem_cons_self
    have present := among.trans (Plot.Among.of_mem member)
    exact (ih present fun child inside => inside).trans (direct plot among _ member)
  | later _ ih => exact ih among fun child member => under child (List.mem_cons_of_mem _ member)

end Screen

end Assembly

/-- An arena has for every node that reaches the output an instance of its own, with its class and its
name: in its place, directly under a container that the node lies below in the design. -/
structure Arena.HasEachNode (arena : Arena α) (rules : RuleSet) (root : Node α) (place : List Nat → Nat) :
    Prop where
  bijOn : Set.BijOn place {path | Node.Reached rules root path}
    {position | ∃ inst, arena.get? position = some inst ∧ ¬ inst.IsSynthetic}
  shown : ∀ path node, Node.Emits rules root path node → ∃ inst,
    arena.get? (place path) = some inst ∧ inst.name = node.layer.name ∧
      inst.className = Assembly.className (node.classify rules)
  under : ∀ path, Node.Reached rules root path → path ≠ [] → ∃ above inner,
    Node.Reached rules root above ∧ Deeper above path ∧ arena.Hosts (place above) inner ∧
      arena.Hangs (place path) inner

namespace Assembly

variable {root : Node α} {children : List (Plot α)} {config : TextConfig} {place : List Nat → Nat}

theorem Placing.houses (placing : Placing rules config root children place)
    (staging : Staging rules root children) :
    (drawScreen rules config root children).arena.HasEachNode rules root place where
  bijOn := placing.bijOn staging
  shown _ _ reached := placing.shown staging reached
  under path reached low := by
    obtain ⟨_, reached⟩ := reached
    obtain ⟨plot, among, rfl, _⟩ := staging.exists_plot reached
    rcases among.host with same | ⟨host, amongHost, inside⟩
    · obtain rfl := List.mem_singleton.mp same
      exact absurd rfl low
    · have laid := staging.laid host amongHost
      obtain ⟨holder, holds, hosts⟩ :=
        placing.exists_holder staging amongHost (laid.container_of_mem inside)
      exact ⟨host.path, holder.position, ⟨_, staging.emits amongHost⟩, laid.deeper inside, hosts,
        placing.hangs holds laid inside⟩

end Assembly
end DesignCompiler
