import DesignCompiler.Proofs.Planning
import DesignCompiler.Proofs.ZOrder

/-!
How a design is stacked. Whatever lies in one instance is drawn at rising levels in its order there: the
picture under the children first, then the children in the order of the design, each right after its
shadow, what was lifted out of a container after the container, and the click target last.
-/
namespace DesignCompiler

variable {α : Type} [Scalar α] {rules : RuleSet}

/-- The picture under the children of a container. -/
def Instance.IsUnderlay (inst : Instance α) : Prop :=
  inst.IsSynthetic ∧ inst.className = "ImageLabel" ∧ inst.name = "Background"

/-- The shadow of a node, apart from its picture. -/
def Instance.IsShadow (inst : Instance α) : Prop :=
  inst.IsSynthetic ∧ inst.className = "ImageLabel" ∧ inst.name ≠ "Background"

/-- An arena stacks the nodes of a design, each in its place. -/
structure Arena.Stacks (arena : Arena α) (rules : RuleSet) (root : Node α) (place : List Nat → Nat) :
    Prop where
  /-- What is drawn in an instance is drawn at rising levels. -/
  rising : ∀ position, ∃ levels : List Int,
    (arena.guiChildren position).map (arena.number? "ZIndex") = levels.map some ∧
      levels.Pairwise (· < ·)
  /-- Children that stay in a container keep their order. -/
  inOrder : ∀ above inner first second, first < second → Node.Reached rules root (above ++ [first]) →
    Node.Reached rules root (above ++ [second]) → arena.Hosts (place above) inner →
    arena.Hangs (place (above ++ [first])) inner → arena.Hangs (place (above ++ [second])) inner →
    [place (above ++ [first]), place (above ++ [second])].Sublist (arena.children inner)
  /-- A node from further down comes after each container that it was lifted out of, or after the node
  there that this container lies below. -/
  after : ∀ above outer path inner, Deeper above outer → Deeper outer path →
    Node.Reached rules root path → arena.Hosts (place above) inner → arena.Hangs (place path) inner →
    ∃ holder, Node.Reached rules root holder ∧
      (holder = outer ∨ arena.Below (place outer) (place holder)) ∧
      [place holder, place path].Sublist (arena.children inner)
  /-- A node with a shadow is drawn right after it. -/
  shadow : ∀ path node, Node.Emits rules root path node →
    node.layer.annotations.shadow.isSome = true → ∃ high low cast, arena.get? low = some cast ∧
      cast.IsShadow ∧ cast.name = node.layer.name ++ "_Shadow" ∧
      [low, place path] <:+: arena.guiChildren high
  /-- A shadow is drawn right before the node that it belongs to. -/
  shadowed : ∀ low cast, arena.get? low = some cast → cast.IsShadow → ∃ high path node,
    Node.Emits rules root path node ∧ node.layer.annotations.shadow.isSome = true ∧
      cast.name = node.layer.name ++ "_Shadow" ∧ [low, place path] <:+: arena.guiChildren high
  /-- A node has a picture under its children just if one is noted for it. -/
  underlaid : ∀ path node, Node.Emits rules root path node →
    ((∃ low ∈ arena.children (place path), ∃ under, arena.get? low = some under ∧ under.IsUnderlay) ↔
      node.layer.annotations.background.isSome = true)
  /-- A picture under the children of a node comes before all else in the node. -/
  first : ∀ low under, arena.get? low = some under → under.IsUnderlay → ∃ path,
    Node.Reached rules root path ∧ (arena.children (place path)).head? = some low ∧
      arena.number? "ZIndex" low = some 0
  /-- A node has a click target just if it reacts to clicks. -/
  clicked : ∀ path node, Node.Emits rules root path node →
    ((∃ low ∈ arena.children (place path), ∃ inst, arena.get? low = some inst ∧
        inst.className = "TextButton") ↔ rules.isInteractive node.layer = true)
  /-- A click target comes after all else in its node, and over it. -/
  last : ∀ low inst, arena.get? low = some inst → inst.className = "TextButton" → ∃ path,
    Node.Reached rules root path ∧ inst.name = "ClickTarget" ∧
      (arena.children (place path)).getLast? = some low ∧
      ∀ other ∈ arena.guiChildren (place path), other ≠ low → ∃ level top,
        arena.number? "ZIndex" other = some level ∧ arena.number? "ZIndex" low = some top ∧ level < top

namespace Assembly

/-- The shadow of a node. -/
def shadowDrawn (rules : RuleSet) (site : Site α) (frame : ParentFrame α) (zIndex : Int)
    (picture : Picture) : Drawn α :=
  Drawn.ofItem ⟨site.path, .shadow⟩ (shadowItem site.node.layer
    (shadowGeometry rules site.node.layer frame).1 zIndex (address picture))

theorem helpers_shade {site : Site α} (frame : ParentFrame α) (zIndex : Int) :
    helpers site .shadow (shade rules site.node.layer frame zIndex) =
      site.node.layer.annotations.shadow.toList.map (shadowDrawn rules site frame zIndex) := by
  rw [shade]
  cases site.node.layer.annotations.shadow <;> rfl

/-- Where siblings are drawn, whatever is no node itself is the shadow of the node right after it. -/
theorem next_of_shadow {config : TextConfig} {frame : ParentFrame α} {plots : List (Plot α)}
    {entries : List (Entry α)} {low : Entry α} (member : low ∈ entries) (other : ¬ low.drawn.isSelf = true)
    {zIndex order : Int}
    (drawn : entries.map (·.drawn) = drawAll rules config frame zIndex order plots) :
    ∃ plot ∈ plots, ∃ own slot level picture, [low, own] <:+: entries ∧
      own.drawn = draw rules config slot plot ∧
      plot.site.node.layer.annotations.shadow = some picture ∧
      low.drawn = shadowDrawn rules plot.site frame level picture := by
  induction plots generalizing entries zIndex order with
  | nil => simp_all [drawAll]
  | cons plot rest ih =>
    obtain ⟨site, notice, children⟩ := plot
    rw [drawAll, helpers_shade] at drawn
    obtain ⟨under, others, rfl, shadows, drawn⟩ := List.map_eq_append_iff.mp drawn
    obtain ⟨own, later, rfl, self, drawn⟩ := List.map_eq_cons_iff.mp drawn
    rcases List.mem_append.mp member with inside | further
    · refine ⟨_, List.mem_cons_self, own, sibling rules frame zIndex order site.node, zIndex, ?_⟩
      cases held : site.node.layer.annotations.shadow with
      | none => simp_all
      | some picture =>
        rw [held] at shadows
        obtain ⟨cast, none, rfl, same, empty⟩ := List.map_eq_cons_iff.mp shadows
        obtain rfl := List.map_eq_nil_iff.mp empty
        obtain rfl := List.mem_singleton.mp inside
        exact ⟨picture, ⟨[], later, rfl⟩, self, held, same⟩
    · rcases List.mem_cons.mp further with rfl | behind
      · simp [self, Drawn.isSelf] at other
      · obtain ⟨plot, present, next, slot, level, picture, ⟨front, back, rfl⟩, found⟩ := ih behind drawn
        exact ⟨plot, List.mem_cons_of_mem _ present, next, slot, level, picture,
          ⟨under ++ own :: front, back, by simp⟩, found⟩

/-- Where siblings are drawn, a node with a shadow comes right after it. -/
theorem shadow_before {config : TextConfig} {frame : ParentFrame α} {plots : List (Plot α)}
    {entries : List (Entry α)} {plot : Plot α} (present : plot ∈ plots) {picture : Picture}
    (held : plot.site.node.layer.annotations.shadow = some picture) {zIndex order : Int}
    (drawn : entries.map (·.drawn) = drawAll rules config frame zIndex order plots) :
    ∃ low own slot level, [low, own] <:+: entries ∧ own.drawn = draw rules config slot plot ∧
      low.drawn = shadowDrawn rules plot.site frame level picture := by
  induction plots generalizing entries zIndex order with
  | nil => simp at present
  | cons first rest ih =>
    obtain ⟨site, notice, children⟩ := first
    rw [drawAll, helpers_shade] at drawn
    obtain ⟨under, others, rfl, shadows, drawn⟩ := List.map_eq_append_iff.mp drawn
    obtain ⟨own, later, rfl, self, drawn⟩ := List.map_eq_cons_iff.mp drawn
    rcases List.mem_cons.mp present with rfl | behind
    · rw [show site.node.layer.annotations.shadow = some picture from held] at shadows
      obtain ⟨cast, none, rfl, same, empty⟩ := List.map_eq_cons_iff.mp shadows
      obtain rfl := List.map_eq_nil_iff.mp empty
      exact ⟨cast, own, _, zIndex, ⟨[], later, rfl⟩, self, same⟩
    · obtain ⟨low, next, slot, level, ⟨front, back, rfl⟩, found⟩ := ih behind drawn
      exact ⟨low, next, slot, level, ⟨under ++ own :: front, back, by simp⟩, found⟩

section Screen

variable {root : Node α} {children : List (Plot α)} {config : TextConfig} {place : List Nat → Nat}

omit [Scalar α] in
theorem shown_of_helpers {site : Site α} {part : Part} {items : List (Item α)} {drawn : Drawn α}
    {className name : String} (member : drawn ∈ helpers site part items)
    (each : ∀ item ∈ items, item.className = className ∧ item.name = name) :
    drawn.className = className ∧ drawn.name = name := by
  obtain ⟨_, item, present, same⟩ := mem_helpers member
  have shown := each item present
  rw [← same] at shown
  cases drawn
  exact shown

theorem shown_background {site : Site α} {isRoot : Bool} {drawn : Drawn α}
    (member : drawn ∈ helpers site .background (backdrop site.node.layer isRoot)) :
    drawn.className = "ImageLabel" ∧ drawn.name = "Background" := by
  refine shown_of_helpers member fun item present => ?_
  obtain ⟨picture, _, rfl⟩ := List.mem_map.mp present
  exact ⟨rfl, rfl⟩

theorem shown_target {site : Site α} {zIndex : Int} {drawn : Drawn α}
    (member : drawn ∈ helpers site .target (targets rules site.node.layer zIndex)) :
    drawn.className = "TextButton" ∧ drawn.name = "ClickTarget" := by
  refine shown_of_helpers member fun item present => ?_
  obtain ⟨_, rfl⟩ := eq_of_mem_targets present
  exact ⟨rfl, rfl⟩

theorem shown_shadow {frame : ParentFrame α} {zIndex order : Int} {plots : List (Plot α)}
    {drawn : Drawn α} (member : drawn ∈ drawAll rules config frame zIndex order plots)
    (other : ¬ drawn.isSelf = true) : drawn.className = "ImageLabel" ∧
      ∃ owner, drawn.name = owner ++ "_Shadow" := by
  induction plots generalizing zIndex order with
  | nil => simp [drawAll] at member
  | cons plot rest ih =>
    obtain ⟨site, notice, children⟩ := plot
    rw [drawAll] at member
    rcases List.mem_append.mp member with shadow | later
    · have shown : drawn.className = "ImageLabel" ∧ drawn.name = site.node.layer.name ++ "_Shadow" := by
        refine shown_of_helpers shadow fun item present => ?_
        obtain ⟨picture, _, rfl⟩ := List.mem_map.mp present
        exact ⟨rfl, rfl⟩
      exact ⟨shown.1, _, shown.2⟩
    · rcases List.mem_cons.mp later with rfl | later
      · simp [Drawn.isSelf] at other
      · exact ih later

omit [Scalar α] in
/-- No name that ends like that of a shadow is that of a picture under children. -/
theorem shadow_ne_background (owner : String) : owner ++ "_Shadow" ≠ "Background" := by
  intro same
  have last := congrArg (fun text : String => text.toList.getLast?) same
  simp at last

theorem className_self {entry : Entry α} (member : entry ∈ screenEntries rules config root children)
    (self : entry.drawn.isSelf = true) : entry.drawn.className ∈ ["Frame", "TextLabel", "ImageLabel"] := by
  obtain ⟨slot, plot, _, drawn⟩ := drawn_of_isSelf member self
  rw [drawn, className_draw]
  exact className_mem _

/-- The pictures under children lie in containers. -/
theorem Staging.background_of_underlay (staging : Staging rules root children) {low : Entry α}
    (member : low ∈ screenEntries rules config root children) (under : low.row.IsUnderlay) :
    ∃ host ∈ screenEntries rules config root children, low ∈ host.offspring ∧ ∃ slot plot,
      Plot.Among [top root children] plot ∧ host.drawn = draw rules config slot plot ∧
      low.drawn ∈ helpers plot.site .background (backdrop plot.site.node.layer slot.isRoot) := by
  obtain ⟨synthetic, kind, name⟩ := under
  have kind : low.drawn.className = "ImageLabel" := kind
  have name : low.drawn.name = "Background" := name
  have other := (synthetic_iff_entry staging.supplied staging.ready member).mp synthetic
  obtain ⟨host, present, inside, part⟩ := exists_drawing member
    (by rw [Drawn.isGui, kind]; decide)
  refine ⟨host, present, inside, ?_⟩
  cases part with
  | background among drawn own => exact ⟨_, _, among, drawn, own⟩
  | target among drawn own => simp [(shown_target own).1] at kind
  | content among drawn own => simp [own, contentDrawn, Drawn.className] at kind
  | root own => simp [own, Drawn.isSelf] at other
  | sibling among holds own =>
    obtain ⟨owner, shadow⟩ := (shown_shadow own other).2
    exact absurd (shadow.symm.trans name) (shadow_ne_background owner)

/-- The click targets lie in nodes. -/
theorem target_of_button {low : Entry α} (member : low ∈ screenEntries rules config root children)
    (button : low.drawn.className = "TextButton") :
    ∃ host ∈ screenEntries rules config root children, low ∈ host.offspring ∧ ∃ slot plot zIndex,
      Plot.Among [top root children] plot ∧ host.drawn = draw rules config slot plot ∧
      low.drawn ∈ helpers plot.site .target (targets rules plot.site.node.layer zIndex) := by
  obtain ⟨host, present, inside, part⟩ := exists_drawing member
    (by rw [Drawn.isGui, button]; decide)
  refine ⟨host, present, inside, ?_⟩
  cases part with
  | background among drawn own => simp [(shown_background own).1] at button
  | target among drawn own => exact ⟨_, _, _, among, drawn, own⟩
  | content among drawn own => simp [own, contentDrawn, Drawn.className] at button
  | root own =>
    have kind := className_self member (by simp [own, Drawn.isSelf])
    simp [button] at kind
  | sibling among holds own =>
    by_cases self : low.drawn.isSelf = true
    · have kind := className_self member self
      simp [button] at kind
    · simp [(shown_shadow own self).1] at button

/-- The shadows lie among siblings. -/
theorem Staging.sibling_of_shadow (staging : Staging rules root children) {low : Entry α}
    (member : low ∈ screenEntries rules config root children) (cast : low.row.IsShadow) :
    ∃ host ∈ screenEntries rules config root children, low ∈ host.offspring ∧ ∃ plot,
      Plot.Among [top root children] plot ∧ Holds rules config root children plot host ∧
      ¬ low.drawn.isSelf = true ∧
      low.drawn ∈ drawAll rules config (.of plot.site.node) 1 0 plot.children := by
  obtain ⟨synthetic, kind, name⟩ := cast
  have kind : low.drawn.className = "ImageLabel" := kind
  have name : low.drawn.name ≠ "Background" := name
  have other := (synthetic_iff_entry staging.supplied staging.ready member).mp synthetic
  obtain ⟨host, present, inside, part⟩ := exists_drawing member
    (by rw [Drawn.isGui, kind]; decide)
  refine ⟨host, present, inside, ?_⟩
  cases part with
  | background among drawn own => exact absurd (shown_background own).2 name
  | target among drawn own => simp [(shown_target own).1] at kind
  | content among drawn own => simp [own, contentDrawn, Drawn.className] at kind
  | root own => simp [own, Drawn.isSelf] at other
  | sibling among holds own => exact ⟨_, among, holds, other, own⟩

/-- Where the nodes under a container are held, they are drawn in one stretch with their shadows. -/
theorem Holds.siblings {plot : Plot α} {holder : Entry α}
    (holds : Holds rules config root children plot holder)
    (container : plot.site.node.strategy rules = .container) : ∃ front middle back,
    holder.offspring.filter (fun low => low.drawn.isGui) = front ++ (middle ++ back) ∧
      middle.map (·.drawn) = drawAll rules config (.of plot.site.node) 1 0 plot.children ∧
      ∀ low ∈ holder.offspring,
        low.drawn ∈ drawAll rules config (.of plot.site.node) 1 0 plot.children → low ∈ middle := by
  have whole : (holder.offspring.filter fun low => low.drawn.isGui).map (·.drawn) =
      holder.drawn.children.filter Drawn.isGui := Drawn.map_drawn_filter_tops Drawn.isGui _ _ _
  have listed : ∀ low ∈ holder.offspring,
      low.drawn ∈ drawAll rules config (.of plot.site.node) 1 0 plot.children →
      low ∈ holder.offspring.filter fun low => low.drawn.isGui := by
    intro low inside drawn
    rw [← gui_drawAll] at drawn
    exact List.mem_filter.mpr ⟨inside, (List.mem_filter.mp drawn).2⟩
  rcases holds.drawn with ⟨slot, drawn, together⟩ | ⟨_, drawn⟩
  · obtain ⟨zIndex, parts, _⟩ := gui_container config slot container
    rw [drawn, parts, drawnContents, together, List.append_assoc] at whole
    obtain ⟨front, rest, split, background, whole⟩ := List.map_eq_append_iff.mp whole
    obtain ⟨middle, back, rfl, siblings, target⟩ := List.map_eq_append_iff.mp whole
    refine ⟨front, middle, back, split, by simpa using siblings, fun low inside among => ?_⟩
    have part : ∀ {part : Part} {items : List (Item α)}, part ∉ [Part.self, Part.shadow] →
        low.drawn ∉ helpers plot.site part items := by
      intro part items other helper
      have kept : low.drawn ∈ (drawAll rules config (.of plot.site.node) 1 0 plot.children).filter
          (fun drawn => drawn.origin.part == part) :=
        List.mem_filter.mpr ⟨among, by simp [(mem_helpers helper).1]⟩
      simp [filter_drawAll other] at kept
    -- before them is the background and after them the target, and neither draws a node or a shadow
    have inside := split ▸ listed low inside among
    rcases List.mem_append.mp inside with early | inside
    · exact absurd (background ▸ List.mem_map_of_mem early) (part (by decide))
    · rcases List.mem_append.mp inside with here | late
      · exact here
      · exact absurd (target ▸ List.mem_map_of_mem late) (part (by decide))
  · rw [drawn, gui_content] at whole
    exact ⟨[], _, [], by simp, whole, fun low inside among => listed low inside among⟩

/-- A picture under the children of a node comes first in the node, at the lowest level. -/
theorem background_first {host low : Entry α} {slot : Slot α} {plot : Plot α}
    (drawn : host.drawn = draw rules config slot plot) (inside : low ∈ host.offspring)
    (clear : (plot.site.node.classify rules).nativeFill = none)
    (container : plot.site.node.strategy rules = .container)
    (own : low.drawn ∈ helpers plot.site .background (backdrop plot.site.node.layer slot.isRoot)) :
    host.offspring.head? = some low ∧ low.drawn.number? "ZIndex" = some 0 := by
  obtain ⟨picture, held⟩ : ∃ picture, plot.site.node.layer.annotations.background = some picture := by
    cases held : plot.site.node.layer.annotations.background with
    | none => simp [backdrop, held, helpers, Drawn.ofItems] at own
    | some picture => exact ⟨picture, rfl⟩
  have one : helpers plot.site .background (backdrop plot.site.node.layer slot.isRoot) =
      [Drawn.ofItem ⟨plot.path, .background⟩
        (underlayItem plot.site.node.layer slot.isRoot (address picture))] := by
    rw [backdrop, held]
    rfl
  have alone : (host.offspring.map (·.drawn)).filter (fun drawn => drawn.origin.part == .background) =
      [Drawn.ofItem ⟨plot.path, .background⟩
        (underlayItem plot.site.node.layer slot.isRoot (address picture))] := by
    rw [Entry.offspring, Drawn.map_drawn_tops, drawn, filter_background_children, if_pos container, one]
  have parts : ∀ drawn : Drawn α, drawn ∈ helpers plot.site .background
      (backdrop plot.site.node.layer slot.isRoot) → (drawn.origin.part == .background) = true := by
    intro drawn member
    rw [(mem_helpers member).1]
    rfl
  have unpainted : (painting rules config plot.site.node).2 = [] := by
    simp [painting, container, needsRaster_of_container container, framePaint, clear]
  -- a frame is painted without decorations, so its background is what it begins with
  obtain ⟨rest, split⟩ : ∃ rest, host.offspring.map (·.drawn) =
      helpers plot.site .background (backdrop plot.site.node.layer slot.isRoot) ++ rest := by
    rw [Entry.offspring, Drawn.map_drawn_tops, drawn, children_draw, if_pos container, framed, unpainted]
    simp only [helpers, Drawn.ofItems, List.nil_append, List.append_assoc]
    exact ⟨_, rfl⟩
  rw [one, List.singleton_append] at split
  obtain ⟨first, others, listed, same, _⟩ := List.map_eq_cons_iff.mp split
  have level := levels_backdrop plot.site slot.isRoot
  have present : first ∈ host.offspring := listed ▸ List.mem_cons_self
  obtain rfl : low = first := eq_of_filter_singleton alone inside (parts _ own) present
    (parts _ (by rw [same, one]; exact List.mem_singleton_self _))
  refine ⟨by rw [listed]; rfl, ?_⟩
  rw [one, ← same] at level
  simpa [backdrop, held, climb] using level

/-- A click target comes last in its node. -/
theorem target_last {host low : Entry α} {slot : Slot α} {plot : Plot α} {zIndex : Int}
    (drawn : host.drawn = draw rules config slot plot) (inside : low ∈ host.offspring)
    (own : low.drawn ∈ helpers plot.site .target (targets rules plot.site.node.layer zIndex)) :
    host.offspring.getLast? = some low := by
  obtain ⟨item, present, _⟩ := (mem_helpers own).2
  have interactive := (eq_of_mem_targets present).1
  have part : (low.drawn.origin.part == .target) = true := by
    rw [(mem_helpers own).1]
    rfl
  obtain ⟨front, level, whole, none⟩ := children_target config slot plot
  have one : helpers plot.site .target (targets rules plot.site.node.layer level) =
      [Drawn.ofItem ⟨plot.path, .target⟩ (Decoration.clickTarget level)] := by
    rw [targets, if_pos interactive]
    rfl
  rw [one, ← drawn, ← Drawn.map_drawn_tops (host.position + 1)
    ((host.position, host.drawn.origin) :: host.above) host.drawn.children] at whole
  obtain ⟨early, late, split, before, after⟩ := List.map_eq_append_iff.mp whole
  obtain ⟨last, rest, rfl, same, empty⟩ := List.map_eq_cons_iff.mp after
  obtain rfl := List.map_eq_nil_iff.mp empty
  have split : host.offspring = early ++ [last] := split
  rw [split] at inside ⊢
  rcases List.mem_append.mp inside with early' | final
  · have kept : low.drawn ∈ front.filter fun drawn => drawn.origin.part == .target :=
      List.mem_filter.mpr ⟨before ▸ List.mem_map_of_mem early', part⟩
    simp [none] at kept
  · rw [List.mem_singleton.mp final, List.getLast?_append]
    rfl

/-- What is drawn in any instance is drawn at rising levels. -/
theorem levels_rising (config : TextConfig) (root : Node α) (children : List (Plot α)) (position : Nat) :
    ∃ levels : List Int, ((drawScreen rules config root children).arena.guiChildren position).map
      ((drawScreen rules config root children).arena.number? "ZIndex") = levels.map some ∧
      levels.Pairwise (· < ·) := by
  by_cases listed : ∃ entry ∈ screenEntries rules config root children, entry.position = position
  · obtain ⟨entry, member, rfl⟩ := listed
    obtain ⟨start, count, climbs⟩ := levels_entry member
    rw [Arena.map_number_guiChildren "ZIndex" member, climbs]
    exact climb_rising start count
  · have none : (drawScreen rules config root children).arena.children position = [] := by
      rw [List.eq_nil_iff_forall_not_mem]
      intro low member
      obtain ⟨host, present, _, _, same, _⟩ := Arena.exists_host (Arena.mem_children.mp member)
      exact listed ⟨host, present, same⟩
    exact ⟨[], by rw [Arena.guiChildren, none]; rfl, .nil⟩

omit [Scalar α] in
/-- The last of what is drawn in an instance is drawn over all the rest. -/
theorem exists_top_level {arena : Arena α} {position low : Nat}
    (rising : ∃ levels : List Int, (arena.guiChildren position).map (arena.number? "ZIndex") =
      levels.map some ∧ levels.Pairwise (· < ·))
    (last : (arena.guiChildren position).getLast? = some low) {other : Nat}
    (member : other ∈ arena.guiChildren position) (differ : other ≠ low) : ∃ level top,
    arena.number? "ZIndex" other = some level ∧ arena.number? "ZIndex" low = some top ∧ level < top := by
  obtain ⟨levels, same, sorted⟩ := rising
  obtain ⟨front, split⟩ := List.getLast?_eq_some_iff.mp last
  rw [split, List.map_append, List.map_singleton] at same
  rw [split, List.mem_append, List.mem_singleton] at member
  obtain ⟨early, late, rfl, before, after⟩ := List.map_eq_append_iff.mp same.symm
  obtain ⟨top, none, rfl, level, _⟩ := List.map_eq_cons_iff.mp after
  have inside : arena.number? "ZIndex" other ∈ front.map (arena.number? "ZIndex") :=
    List.mem_map_of_mem (member.resolve_right differ)
  rw [← before] at inside
  obtain ⟨lower, present, found⟩ := List.mem_map.mp inside
  exact ⟨lower, top, found.symm, level.symm,
    (List.pairwise_append.mp sorted).2.2 lower present top List.mem_cons_self⟩

namespace Placing

variable (placing : Placing rules config root children place) (staging : Staging rules root children)
include placing staging

theorem inOrder {above : List Nat} {inner first second : Nat} (less : first < second)
    (one : Node.Reached rules root (above ++ [first])) (other : Node.Reached rules root (above ++ [second]))
    (hosts : (drawScreen rules config root children).arena.Hosts (place above) inner)
    (hangs : (drawScreen rules config root children).arena.Hangs (place (above ++ [first])) inner)
    (hangsOther :
      (drawScreen rules config root children).arena.Hangs (place (above ++ [second])) inner) :
    [place (above ++ [first]), place (above ++ [second])].Sublist
      ((drawScreen rules config root children).arena.children inner) := by
  obtain ⟨_, reachedFirst⟩ := one
  obtain ⟨_, reachedSecond⟩ := other
  obtain ⟨_, reached⟩ := reachedFirst.of_append
  obtain ⟨plot, among, rfl, _⟩ := staging.exists_plot reached
  obtain ⟨low, inside, lowPath, _⟩ := staging.exists_plot reachedFirst
  obtain ⟨later, insideLater, laterPath, _⟩ := staging.exists_plot reachedSecond
  obtain ⟨stays, holder, holds, rfl⟩ := placing.hosted staging among inside hosts (lowPath ▸ hangs)
  obtain ⟨staysLater, _⟩ := placing.hosted staging among insideLater hosts (laterPath ▸ hangsOther)
  have laid := staging.laid plot among
  have pair := (laid.inOrder (lowPath ▸ stays) (laterPath ▸ staysLater) less).map place
  rw [List.map_map] at pair
  exact pair.trans (placing.sublist holds laid)

theorem after {above outer path : List Nat} {inner : Nat} (low : Deeper above outer)
    (high : Deeper outer path) (reached : Node.Reached rules root path)
    (hosts : (drawScreen rules config root children).arena.Hosts (place above) inner)
    (hangs : (drawScreen rules config root children).arena.Hangs (place path) inner) :
    ∃ holder, Node.Reached rules root holder ∧ (holder = outer ∨
      (drawScreen rules config root children).arena.Below (place outer) (place holder)) ∧
      [place holder, place path].Sublist
        ((drawScreen rules config root children).arena.children inner) := by
  obtain ⟨_, reached⟩ := reached
  obtain ⟨step, rest, same⟩ := high.trans low
  obtain ⟨_, reachedAbove⟩ := (same ▸ reached).of_append
  obtain ⟨plot, among, rfl, _⟩ := staging.exists_plot reachedAbove
  obtain ⟨child, present, rfl, _⟩ := staging.exists_plot reached
  obtain ⟨stays, entry, holds, rfl⟩ := placing.hosted staging among present hosts hangs
  obtain ⟨own, member, path⟩ := List.mem_map.mp stays
  obtain ⟨front, back, split⟩ := List.append_of_mem member
  have laid := staging.laid plot among
  obtain ⟨holder, before, covers⟩ := laid.after split low (path ▸ high)
  have within : holder ∈ plot.children := split ▸ List.mem_append_left _ before
  have amongHolder := among.trans (Plot.Among.of_mem within)
  refine ⟨holder.path, ⟨_, staging.emits amongHolder⟩, ?_, ?_⟩
  · obtain ⟨site, listed, rfl⟩ := List.mem_map.mp covers
    obtain ⟨inside, amongInside, rfl⟩ := Plot.exists_among listed
    cases amongInside with
    | here => exact .inl rfl
    | inner below => exact .inr (placing.below staging below amongHolder fun _ member => member)
    | later none => cases none
  · have pair : [holder, own].Sublist plot.children := by
      rw [split]
      exact (List.singleton_sublist.mpr before).append
        (List.singleton_sublist.mpr List.mem_cons_self)
    have placed := pair.map fun low : Plot α => place low.path
    simp only [List.map_cons, List.map_nil, path] at placed
    exact placed.trans (placing.sublist holds laid)

omit staging in
/-- Two neighbors among what is drawn in an entry are neighbors in the arena. -/
theorem neighbors {host low own : Entry α} (member : host ∈ screenEntries rules config root children)
    {slot : Slot α} {plot : Plot α} (drawn : own.drawn = draw rules config slot plot)
    (pair : [low, own] <:+: host.offspring.filter fun low => low.drawn.isGui) :
    [low.position, place plot.path] <:+:
      (drawScreen rules config root children).arena.guiChildren host.position := by
  have inside : own ∈ host.offspring := (List.mem_filter.mp (pair.subset (by simp))).1
  have position := placing.own own (Arena.mem_of_offspring member inside)
    (by simp [drawn, Drawn.isSelf])
  rw [drawn, origin_draw] at position
  rw [Arena.guiChildren_entry member, ← position]
  exact pair.map (·.position)

theorem shadow (unshaded : root.layer.annotations.shadow = none) {path : List Nat} {node : Node α}
    (reached : Node.Emits rules root path node)
    (held : node.layer.annotations.shadow.isSome = true) : ∃ high low cast,
    (drawScreen rules config root children).arena.get? low = some cast ∧ cast.IsShadow ∧
      cast.name = node.layer.name ++ "_Shadow" ∧ [low, place path] <:+:
        (drawScreen rules config root children).arena.guiChildren high := by
  obtain ⟨plot, among, rfl, rfl⟩ := staging.exists_plot reached
  obtain ⟨picture, found⟩ := Option.isSome_iff_exists.mp held
  rcases among.host with same | ⟨host, amongHost, inside⟩
  · obtain rfl := List.mem_singleton.mp same
    exact absurd found (by simp [Plot.site, Site.start, unshaded])
  · have laid := staging.laid host amongHost
    have container := laid.container_of_mem inside
    obtain ⟨holder, holds, _⟩ := placing.exists_holder staging amongHost container
    obtain ⟨front, middle, back, split, siblings, _⟩ := holds.siblings container
    have found' : plot.site.node.layer.annotations.shadow = some picture := by
      rw [Site.layer_node]
      exact found
    obtain ⟨low, own, slot, level, ⟨early, late, rfl⟩, drawn, shadow⟩ :=
      shadow_before inside found' siblings
    have pair : [low, own] <:+: holder.offspring.filter fun low => low.drawn.isGui :=
      ⟨front ++ early, late ++ back, by simp [split]⟩
    have listed : low ∈ screenEntries rules config root children :=
      Arena.mem_of_offspring holds.member (List.mem_filter.mp (pair.subset (by simp))).1
    refine ⟨holder.position, low.position, low.row, Arena.get?_entry listed, ⟨?_, ?_, ?_⟩, ?_,
      placing.neighbors holds.member drawn pair⟩
    · exact (synthetic_iff_entry staging.supplied staging.ready listed).mpr
        (by rw [shadow]; exact Bool.false_ne_true)
    · rw [Entry.row, shadow]
      rfl
    · rw [Entry.row, shadow]
      exact shadow_ne_background _
    · rw [Entry.row, shadow, ← Site.name_node]
      rfl

theorem shadowed {low : Nat} {cast : Instance α}
    (found : (drawScreen rules config root children).arena.get? low = some cast)
    (shadow : cast.IsShadow) : ∃ high path node, Node.Emits rules root path node ∧
      node.layer.annotations.shadow.isSome = true ∧ cast.name = node.layer.name ++ "_Shadow" ∧
      [low, place path] <:+: (drawScreen rules config root children).arena.guiChildren high := by
  obtain ⟨entry, member, rfl, rfl⟩ := Arena.get?_plant.mp found
  obtain ⟨host, present, inside, plot, among, holds, other, own⟩ :=
    staging.sibling_of_shadow member shadow
  have laid := staging.laid plot among
  have container : plot.site.node.strategy rules = .container := by
    by_contra leaf
    simp [laid.leaf leaf, drawAll] at own
  obtain ⟨front, middle, back, split, siblings, listed⟩ := holds.siblings container
  obtain ⟨owner, child, next, slot, level, picture, ⟨early, late, rfl⟩, drawn, held, shape⟩ :=
    next_of_shadow (listed entry inside own) other siblings
  have amongOwner := among.trans (Plot.Among.of_mem child)
  refine ⟨host.position, owner.path, _, staging.emits amongOwner, ?_, ?_,
    placing.neighbors present drawn ⟨front ++ early, late ++ back, by simp [split]⟩⟩
  · rw [Site.layer_node] at held
    exact Option.isSome_iff_exists.mpr ⟨picture, held⟩
  · rw [Entry.row, shape, ← Site.name_node]
    rfl

/-- What is drawn for a node helps the node in whose instance it lies. -/
theorem eq_of_hangs {host low : Entry α} {slot : Slot α} {plot owner : Plot α}
    (among : Plot.Among [top root children] plot) (amongOwner : Plot.Among [top root children] owner)
    (present : host ∈ screenEntries rules config root children) (inside : low ∈ host.offspring)
    (drawn : host.drawn = draw rules config slot owner)
    (hangs : (drawScreen rules config root children).arena.Hangs low.position (place plot.path)) :
    plot = owner := by
  obtain ⟨entry, member, position, slot', drawn'⟩ := placing.stands plot among
  have same := (Arena.hangs_offspring present inside).unique hangs
  obtain rfl := Arena.entry_unique present member (same.trans position.symm)
  have paths := congrArg (·.origin.path) (drawn'.symm.trans drawn)
  exact staging.unique among amongOwner (by simpa using paths)

theorem underlaid {path : List Nat} {node : Node α} (reached : Node.Emits rules root path node)
    (arranged : Plan.Arranged rules node) :
    ((∃ low ∈ (drawScreen rules config root children).arena.children (place path), ∃ under,
        (drawScreen rules config root children).arena.get? low = some under ∧ under.IsUnderlay) ↔
      node.layer.annotations.background.isSome = true) := by
  obtain ⟨plot, among, rfl, rfl⟩ := staging.exists_plot reached
  constructor
  · rintro ⟨low, child, under, found, isUnderlay⟩
    obtain ⟨entry, member, rfl, rfl⟩ := Arena.get?_plant.mp found
    obtain ⟨host, present, inside, slot, owner, amongOwner, drawn, own⟩ :=
      staging.background_of_underlay member isUnderlay
    obtain rfl := placing.eq_of_hangs staging among amongOwner present inside drawn
      (Arena.mem_children.mp child)
    -- without a picture for it there is no backdrop for the instance to come from
    by_contra unheld
    have empty : plot.site.node.layer.annotations.background = none := by
      rw [Site.layer_node]
      simpa using unheld
    simp [backdrop, empty, helpers, Drawn.ofItems] at own
  · intro held
    obtain ⟨entry, member, position, slot, drawn⟩ := placing.stands plot among
    obtain ⟨picture, found⟩ := Option.isSome_iff_exists.mp held
    have container : plot.site.node.strategy rules = .container := by
      rw [Site.strategy_node]
      exact (arranged.clear held).1
    have one : backdrop plot.site.node.layer slot.isRoot =
        [underlayItem plot.site.node.layer slot.isRoot (address picture)] := by
      rw [backdrop, Site.layer_node, found]
      rfl
    obtain ⟨under, own⟩ : ∃ under, under ∈ helpers plot.site .background
        (backdrop plot.site.node.layer slot.isRoot) := ⟨_, by rw [one]; exact List.mem_singleton_self _⟩
    have child : under ∈ entry.drawn.children := by
      have kept : under ∈ (draw rules config slot plot).children.filter
          (fun drawn => drawn.origin.part == .background) := by
        rw [filter_background_children, if_pos container]
        exact own
      exact drawn ▸ (List.mem_filter.mp kept).1
    obtain ⟨low, inside, same⟩ := exists_offspring child
    have listed := Arena.mem_of_offspring member inside
    rw [← position]
    refine ⟨low.position, Arena.mem_children.mpr (Arena.hangs_offspring member inside), low.row,
      Arena.get?_entry listed, ?_, ?_⟩
    · refine (synthetic_iff_entry staging.supplied staging.ready listed).mpr ?_
      rw [same, Drawn.isSelf, (mem_helpers own).1]
      exact Bool.false_ne_true
    · rw [Entry.row, same]
      exact shown_background own

theorem first (arranged : ∀ path node, Node.Emits rules root path node → Plan.Arranged rules node)
    {low : Nat} {under : Instance α}
    (found : (drawScreen rules config root children).arena.get? low = some under)
    (isUnderlay : under.IsUnderlay) : ∃ path, Node.Reached rules root path ∧
      ((drawScreen rules config root children).arena.children (place path)).head? = some low ∧
      (drawScreen rules config root children).arena.number? "ZIndex" low = some 0 := by
  obtain ⟨entry, member, rfl, rfl⟩ := Arena.get?_plant.mp found
  obtain ⟨host, present, inside, slot, plot, among, drawn, own⟩ :=
    staging.background_of_underlay member isUnderlay
  have reached := staging.emits among
  have held : plot.site.origin.layer.annotations.background.isSome = true :=
    (placing.underlaid staging reached (arranged _ _ reached)).mp
      ⟨entry.position, Arena.mem_children.mpr ?_, entry.row, found, isUnderlay⟩
  · have clear := (arranged _ _ reached).clear held
    rw [← Site.strategy_node, ← Site.classify_node] at clear
    obtain ⟨head, level⟩ := background_first drawn inside clear.2 clear.1 own
    refine ⟨plot.path, ⟨_, reached⟩, ?_, ?_⟩
    · have position := placing.own host present (by simp [drawn, Drawn.isSelf])
      rw [drawn, origin_draw] at position
      rw [← position, Arena.children_entry present, List.head?_map, head]
      rfl
    · rw [Arena.number?, found]
      exact level
  · have position := placing.own host present (by simp [drawn, Drawn.isSelf])
    rw [drawn, origin_draw] at position
    exact position ▸ Arena.hangs_offspring present inside

theorem clicked {path : List Nat} {node : Node α} (reached : Node.Emits rules root path node) :
    ((∃ low ∈ (drawScreen rules config root children).arena.children (place path), ∃ inst,
        (drawScreen rules config root children).arena.get? low = some inst ∧
        inst.className = "TextButton") ↔ rules.isInteractive node.layer = true) := by
  obtain ⟨plot, among, rfl, rfl⟩ := staging.exists_plot reached
  have interactive : rules.isInteractive plot.site.node.layer =
      rules.isInteractive plot.site.origin.layer := by
    rw [Site.layer_node]
    rfl
  constructor
  · rintro ⟨low, child, inst, found, button⟩
    obtain ⟨entry, member, rfl, rfl⟩ := Arena.get?_plant.mp found
    obtain ⟨host, present, inside, slot, owner, zIndex, amongOwner, drawn, own⟩ :=
      target_of_button member button
    obtain rfl := placing.eq_of_hangs staging among amongOwner present inside drawn
      (Arena.mem_children.mp child)
    obtain ⟨item, target, _⟩ := (mem_helpers own).2
    exact interactive ▸ (eq_of_mem_targets target).1
  · intro reacts
    obtain ⟨entry, member, position, slot, drawn⟩ := placing.stands plot among
    obtain ⟨front, zIndex, whole, _⟩ := children_target config slot plot
    have own : Drawn.ofItem ⟨plot.path, .target⟩ (Decoration.clickTarget zIndex) ∈
        helpers plot.site .target (targets rules plot.site.node.layer zIndex) := by
      rw [targets, if_pos (interactive.trans reacts)]
      exact List.mem_singleton_self _
    obtain ⟨low, inside, same⟩ := exists_offspring (drawn ▸ whole ▸ List.mem_append_right front own)
    rw [← position]
    refine ⟨low.position, Arena.mem_children.mpr (Arena.hangs_offspring member inside), low.row,
      Arena.get?_entry (Arena.mem_of_offspring member inside), ?_⟩
    rw [Entry.row, same]
    exact (shown_target own).1

theorem last {low : Nat} {inst : Instance α}
    (found : (drawScreen rules config root children).arena.get? low = some inst)
    (button : inst.className = "TextButton") : ∃ path, Node.Reached rules root path ∧
      inst.name = "ClickTarget" ∧
      ((drawScreen rules config root children).arena.children (place path)).getLast? = some low ∧
      ∀ other ∈ (drawScreen rules config root children).arena.guiChildren (place path), other ≠ low →
        ∃ level top, (drawScreen rules config root children).arena.number? "ZIndex" other = some level ∧
          (drawScreen rules config root children).arena.number? "ZIndex" low = some top ∧
          level < top := by
  obtain ⟨entry, member, rfl, rfl⟩ := Arena.get?_plant.mp found
  obtain ⟨host, present, inside, slot, plot, zIndex, among, drawn, own⟩ := target_of_button member button
  have position := placing.own host present (by simp [drawn, Drawn.isSelf])
  rw [drawn, origin_draw] at position
  have final := target_last drawn inside own
  refine ⟨plot.path, ⟨_, staging.emits among⟩, (shown_target own).2, ?_, ?_⟩
  · rw [← position, Arena.children_entry present, List.getLast?_map, final]
    rfl
  · intro other listed differ
    refine exists_top_level (levels_rising config root children _) ?_ listed differ
    obtain ⟨front, split⟩ := List.getLast?_eq_some_iff.mp final
    have drawable : entry.drawn.isGui = true := by
      rw [Drawn.isGui, show entry.drawn.className = "TextButton" from button]
      decide
    have kept : [entry].filter (fun low => low.drawn.isGui) = [entry] := by simp [drawable]
    rw [← position, Arena.guiChildren_entry present, split, List.filter_append, kept, List.map_append,
      List.getLast?_append]
    rfl

end Placing

end Screen

/-- A planned design that is assembled, whatever assets were filled in, is stacked in the arena. -/
theorem assemble_stacks (rules : RuleSet) (config : TextConfig) (root : Node α)
    {change : Layer α → Annotations α} (refills : Refills change) {log log' : Diagnostics}
    {arena : Arena α}
    (done : (assemble rules config ((Plan.annotate rules root).1.revise change)).run log =
      .ok (arena, log')) : ∃ place : List Nat → Nat,
      arena.HasEachNode rules ((Plan.annotate rules root).1.revise change) place ∧
      arena.Stacks rules ((Plan.annotate rules root).1.revise change) place := by
  obtain ⟨children, staging, rfl⟩ := staged_of_assemble done
  obtain ⟨place, placing⟩ := exists_placing config staging
  have arranged : ∀ path node, Node.Emits rules ((Plan.annotate rules root).1.revise change) path node →
      Plan.Arranged rules node := fun _ _ reached => Plan.arranged_planned refills reached
  exact ⟨place, placing.houses staging,
    { rising := levels_rising config _ children
      inOrder := fun _ _ _ _ less one other hosts hangs also =>
        placing.inOrder staging less one other hosts hangs also
      after := fun _ _ _ _ low high reached hosts hangs => placing.after staging low high reached hosts hangs
      shadow := fun _ _ reached held =>
        placing.shadow staging (Plan.shadow_root refills root) reached held
      shadowed := fun _ _ found shadow => placing.shadowed staging found shadow
      underlaid := fun _ _ reached => placing.underlaid staging reached (arranged _ _ reached)
      first := fun _ _ found under => placing.first staging arranged found under
      clicked := fun _ _ reached => placing.clicked staging reached
      last := fun _ _ found button => placing.last staging found button }⟩

section Shop

/-- A bell that reaches out of its counter. -/
private def bell : Node Rat :=
  .shape { Layer.plain "2" "bell" ⟨35, 4, 8, 8⟩ with reactions := [⟨.onClick, none, none⟩] } .ellipse

private def varnish : Paint Rat := .solid ⟨true, 1 / 2, .black⟩

private def shop : Node Rat :=
  .container (.plain "0" "shop" ⟨0, 0, 100, 80⟩) ⟨.frame, none, false⟩
    [.container { Layer.plain "1" "counter" ⟨10, 5, 40, 30⟩ with fills := [varnish, varnish] }
      ⟨.frame, none, true⟩ [bell]]

private def staff : RuleSet := ⟨"", [], []⟩

/-- The shop with all its pictures. -/
private def polished : Node Rat := (Plan.annotate staff shop).1.revise (Plan.filling fun _ => some "7")

theorem shop_stacked : ∃ (arena : Arena Rat) (log' : Diagnostics),
    (assemble staff .default polished).run .empty = .ok (arena, log') ∧ ∃ place : List Nat → Nat,
        (∃ low ∈ arena.children (place [0]), ∃ under, arena.get? low = some under ∧ under.IsUnderlay) ∧
        ∃ low ∈ arena.children (place [0, 0]), ∃ inst, arena.get? low = some inst ∧
          inst.className = "TextButton" := by
  obtain ⟨arena, log', done⟩ : ∃ arena log',
      (assemble staff .default polished).run .empty = .ok (arena, log') :=
    assemble_total .default (fun _ _ reached => Plan.supplied_filled (fun _ => rfl) reached) .empty
  have counter : ∃ node, Node.Emits staff polished [0] node ∧
      node.layer.annotations.background.isSome = true := ⟨_, .prepend rfl rfl rfl .root, rfl⟩
  have rung : ∃ node, Node.Emits staff polished [0, 0] node ∧ staff.isInteractive node.layer = true :=
    ⟨_, .prepend rfl rfl rfl (.prepend rfl rfl rfl .root), rfl⟩
  obtain ⟨place, _, stacked⟩ := assemble_stacks staff .default shop Plan.refills_filling done
  obtain ⟨_, reached, held⟩ := counter
  obtain ⟨_, below, reacts⟩ := rung
  exact ⟨arena, log', done, place, (stacked.underlaid _ _ reached).mpr held,
    (stacked.clicked _ _ below).mpr reacts⟩

end Shop

end Assembly
end DesignCompiler
