import DesignCompiler.Proofs.Emission
import DesignCompiler.Proofs.Evaluation
import DesignCompiler.Proofs.Spacing

/-!
The output stands where the design does. Every node that no flow places, itself or a node above it, takes
up the rectangle that the design gives it, however its constraints are kept and wherever it has been
lifted to; its pictures reach as far around it as its render bounds.
-/
namespace DesignCompiler

variable {rules : RuleSet} {root : Node Rat}

/-- No node above a path arranges its children in a flow. -/
def Node.Unmanaged (rules : RuleSet) (root : Node Rat) (path : List Nat) : Prop :=
  ∀ above host, Node.Emits rules root above host → Deeper above path → host.layout? = none

/-- The rectangle that the design gives the node at a path, if that of the root is known. -/
def Node.spot (root node : Node Rat) (path : List Nat) (base : Rect Rat) : Rect Rat :=
  Rect.within ⟨(root.corner path).x, (root.corner path).y, node.layer.width, node.layer.height⟩ base

/-- The instance at a position shows a node in a rectangle. Its shadow stands right before it, and the
picture under its children in it. Both take up the rectangle of a picture of the node, as does the node
itself if it is shown as a picture, other than the root, which stays within its box. -/
structure Arena.Shows (arena : Arena Rat) (screen : Rect Rat) (rules : RuleSet) (isRoot : Bool)
    (node : Node Rat) (box : Rect Rat) (position : Nat) : Prop where
  own : ∃ inst, arena.get? position = some inst ∧ ¬ inst.IsSynthetic ∧
    inst.className = Assembly.className (node.classify rules) ∧ inst.name = node.layer.name
  rect : arena.rect? screen position = some
    (if (node.classify rules).needsRaster && !isRoot then node.layer.pictured box else box)
  shadow : isRoot = false → node.layer.annotations.shadow.isSome = true → ∃ low inst cast,
    low + 1 = position ∧ arena.get? position = some inst ∧ arena.get? low = some cast ∧
    cast.parent = inst.parent ∧ cast.className = "ImageLabel" ∧
    cast.name = node.layer.name ++ "_Shadow" ∧
    arena.rect? screen low = some (node.layer.pictured box)
  underlay : node.strategy rules = .container → node.layer.annotations.background.isSome = true →
    ∃ low under, arena.get? low = some under ∧ under.IsSynthetic ∧ under.parent = some position ∧
      under.className = "ImageLabel" ∧ under.name = "Background" ∧
      arena.rect? screen low = some (if isRoot then box else node.layer.pictured box)

namespace Drawn

variable {α : Type}

@[simp] theorem sizes_append (front back : List (Drawn α)) :
    sizes (front ++ back) = sizes front + sizes back := by
  induction front with
  | nil => simp [sizes]
  | cons drawn rest ih => simp [sizes, ih, Nat.add_assoc]

theorem entriesAll_append (own : Nat) (above : List (Nat × Origin)) (front back : List (Drawn α)) :
    entriesAll own above (front ++ back) =
      entriesAll own above front ++ entriesAll (own + sizes front) above back := by
  induction front generalizing own with
  | nil => rfl
  | cons drawn rest ih => simp [entriesAll, sizes, ih, Nat.add_assoc]

/-- Some items stand in a tree, from a position on. -/
def Planted (tree : Drawn α) (own : Nat) (above : List (Nat × Origin)) (drawns : List (Drawn α)) : Prop :=
  ∀ entry ∈ entriesAll own above drawns, entry ∈ tree.entries 0 []

variable {tree : Drawn α} {own : Nat} {above : List (Nat × Origin)}

theorem planted_append {front back : List (Drawn α)} : Planted tree own above (front ++ back) ↔
    Planted tree own above front ∧ Planted tree (own + sizes front) above back := by
  rw [Planted, entriesAll_append, List.forall_mem_append]
  rfl

theorem planted_cons {origin : Origin} {className name : String} {properties : Properties α}
    {children rest : List (Drawn α)} :
    Planted tree own above (mk origin className name properties children :: rest) ↔
      (⟨own, above, mk origin className name properties children⟩ ∈ tree.entries 0 [] ∧
        Planted tree (own + 1) ((own, origin) :: above) children) ∧
      Planted tree (own + (mk origin className name properties children).size) above rest := by
  rw [Planted, entriesAll, List.forall_mem_append, entries, List.forall_mem_cons]
  rfl

end Drawn

namespace Site

theorem shows_node {site : Site Rat} {arena : Arena Rat} {screen box : Rect Rat} {isRoot : Bool}
    {position : Nat} (shows : arena.Shows screen rules isRoot site.node box position) :
    arena.Shows screen rules isRoot site.origin box position := by
  obtain ⟨path, origin, x, y⟩ := site
  cases origin <;> exact ⟨shows.own, shows.rect, shows.shadow, shows.underlay⟩

/-- A site in the rectangle of its host takes up the rectangle that the design gives it. -/
theorem Stands.box_node {site : Site Rat} {host : List Nat} (stands : site.Stands rules root host)
    (node : Node Rat) (base : Rect Rat) :
    site.node.layer.box.within (root.spot node host base) = root.spot site.origin site.path base := by
  rw [layer_node]
  simp only [Layer.box, Node.spot, Rect.within, ← stands.x, ← stands.y, add_assoc]

end Site

namespace Assembly

variable {config : TextConfig} {tree : Drawn Rat} {screen box outer : Rect Rat} {own high : Nat}
  {origin : Origin} {above : List (Nat × Origin)}

/-- An item that stands in a tree is an instance, in the rectangle that its geometry says. -/
theorem planted_shown {label : Origin} {className name : String} {changes : List (String × Property Rat)}
    {children rest : List (Drawn Rat)} {geometry : Geometry Rat}
    (planted : Drawn.Planted tree own ((high, origin) :: above)
      (.mk label className name (Properties.setAll [] changes) children :: rest))
    (known : tree.arena.rect? screen high = some outer)
    (placed : Properties.placement? (Properties.setAll [] changes) = some geometry) :
    tree.arena.get? own =
        some ⟨className, name, Properties.setAll [] changes, some high⟩ ∧
      tree.arena.rect? screen own = some (outer.part geometry) := by
  obtain ⟨⟨member, _⟩, _⟩ := Drawn.planted_cons.mp planted
  constructor
  · refine Arena.get?_plant.mpr ⟨_, member, rfl, ?_⟩
    simp [Entry.row, Drawn.className, Drawn.name, Drawn.properties]
  · refine Arena.rect?_entry member rfl known ?_
    simpa [Entry.row, Drawn.properties] using placed

theorem planted_children {isRoot : Bool} {site : Site Rat} {inner : List (Drawn Rat)}
    (planted : Drawn.Planted tree own above (framed rules config isRoot site inner))
    (noFlow : site.node.layout? = none) :
    ∃ next, Drawn.Planted tree next above inner := by
  have together : keepsApart rules site.node = false := by simp [keepsApart, noFlow]
  have content : contents rules site inner = inner := by
    simp [contents, together, flowItems, noFlow, helpers, Drawn.ofItems]
  rw [framed, content] at planted
  exact ⟨_, (Drawn.planted_append.mp (Drawn.planted_append.mp (Drawn.planted_append.mp planted).1).1).2⟩

/-- The picture under the children of a container takes up its rectangle in that of the container. -/
theorem underlay_shown {isRoot : Bool} {site : Site Rat} {inner : List (Drawn Rat)}
    (planted : Drawn.Planted tree own ((high, origin) :: above) (framed rules config isRoot site inner))
    (known : tree.arena.rect? screen high = some box)
    (held : site.node.layer.annotations.background.isSome = true) :
    ∃ low under, tree.arena.get? low = some under ∧ under.IsSynthetic ∧
      under.parent = some high ∧ under.className = "ImageLabel" ∧ under.name = "Background" ∧
      tree.arena.rect? screen low =
        some (if isRoot then box else site.node.layer.pictured box) := by
  obtain ⟨picture, found⟩ := Option.isSome_iff_exists.mp held
  have one : backdrop site.node.layer isRoot =
      [underlayItem site.node.layer isRoot (address picture)] := by simp [backdrop, found]
  have aids : Aids (underlayItem site.node.layer isRoot (address picture)) :=
    aids_backdrop site.node.layer isRoot _ (by rw [one]; exact List.mem_singleton_self _)
  rw [framed, one] at planted
  have background := (Drawn.planted_append.mp (Drawn.planted_append.mp
    (Drawn.planted_append.mp (Drawn.planted_append.mp planted).1).1).1).2
  obtain ⟨there, rect⟩ := planted_shown background known
    (placement?_underlay site.node.layer isRoot (address picture))
  rw [part_underlay] at rect
  refine ⟨_, _, there, ?_, rfl, rfl, rfl, rect⟩
  have own := aids.synthetic
  rw [underlayItem, Decoration.leaf, Item.properties, Properties.setAll_setAll] at own
  exact own

section Siblings

variable {node : Node Rat} {host : List Nat} {site : Site Rat} {base : Rect Rat}
  {notice : Option Warning} {children : List (Plot Rat)} {rest : List (Drawn Rat)}

theorem shadow_shown {zIndex : Int} (stands : site.Stands rules root host)
    (noFlow : node.layout? = none)
    (known : tree.arena.rect? screen high = some (root.spot node host base))
    (planted : Drawn.Planted tree own ((high, origin) :: above)
      (helpers site .shadow (shade rules site.node.layer (.of node) zIndex)))
    (held : site.node.layer.annotations.shadow.isSome = true) :
    (shade rules site.node.layer (.of node) zIndex).length = 1 ∧
      ∃ cast, tree.arena.get? own = some cast ∧ cast.parent = some high ∧
        cast.className = "ImageLabel" ∧ cast.name = site.node.layer.name ++ "_Shadow" ∧
        tree.arena.rect? screen own =
          some (site.node.layer.pictured (root.spot site.origin site.path base)) := by
  obtain ⟨picture, found⟩ := Option.isSome_iff_exists.mp held
  have one : shade rules site.node.layer (.of node) zIndex =
      [shadowItem site.node.layer (shadowGeometry rules site.node.layer (.of node)).1 zIndex
        (address picture)] := by simp [shade, found]
  rw [one] at planted ⊢
  obtain ⟨there, rect⟩ := planted_shown planted known (placement?_shadow ..)
  rw [part_shadow (by simp [ParentFrame.of, noFlow]) rfl rfl, stands.box_node] at rect
  exact ⟨rfl, _, there, rfl, rfl, rfl, rect⟩

/-- The item of a node is an instance of its own, with what it holds right behind it. -/
theorem own_shown {slot : Slot Rat} (supplied : Supplied rules site.node)
    (planted : Drawn.Planted tree own ((high, origin) :: above)
      (draw rules config slot (.mk site notice children) :: rest))
    (known : tree.arena.rect? screen high = some outer) :
    (∃ inst, tree.arena.get? own = some inst ∧ ¬ inst.IsSynthetic ∧
      inst.className = className (site.node.classify rules) ∧ inst.name = site.node.layer.name ∧
      inst.parent = some high) ∧
    tree.arena.rect? screen own =
      some (outer.part (nodeGeometry rules site.node slot).1) ∧
    Drawn.Planted tree (own + 1) ((own, ⟨site.path, .self⟩) :: (high, origin) :: above)
      (if site.node.strategy rules = .container then
        framed rules config slot.isRoot site (drawAll rules config (.of site.node) 1 0 children)
      else bare rules config site) := by
  have other : ¬ (draw rules config slot (.mk site notice children)).IsSynthetic :=
    not_synthetic_draw supplied notice children
  rw [draw] at planted other
  obtain ⟨there, rect⟩ := planted_shown planted known (placement?_node ..)
  obtain ⟨⟨_, inside⟩, _⟩ := Drawn.planted_cons.mp planted
  rw [Drawn.IsSynthetic, Drawn.properties, Properties.setAll_setAll] at other
  exact ⟨⟨_, there, other, rfl, rfl, rfl⟩, rect, inside⟩

/-- A node with its shadow and the picture under its children is shown where the design has it. -/
theorem shows_sibling {zIndex order : Int} {position : Nat} (stands : site.Stands rules root host)
    (supplied : Supplied rules site.node) (noFlow : node.layout? = none)
    (known : tree.arena.rect? screen high = some (root.spot node host base))
    (under : Drawn.Planted tree own ((high, origin) :: above)
      (helpers site .shadow (shade rules site.node.layer (.of node) zIndex)))
    (behind : position = own + (shade rules site.node.layer (.of node) zIndex).length)
    (planted : Drawn.Planted tree position ((high, origin) :: above)
      (draw rules config (sibling rules (.of node) zIndex order site.node) (.mk site notice children) ::
        rest)) :
    tree.arena.Shows screen rules false site.origin
      (root.spot site.origin site.path base) position := by
  have free : (ParentFrame.of node).flow = false := by simp [ParentFrame.of, noFlow]
  obtain ⟨⟨inst, there, other, kind, name, parent⟩, rect, inside⟩ := own_shown supplied planted known
  rw [part_node free rfl rfl rfl rfl, stands.box_node] at rect
  refine Site.shows_node ⟨⟨inst, there, other, kind, name⟩, by simpa using rect, ?_, ?_⟩
  · intro _ held
    obtain ⟨one, cast, stood, lies, shadow⟩ := shadow_shown stands noFlow known under held
    exact ⟨own, inst, cast, by omega, there, stood, lies.trans parent.symm, shadow⟩
  · intro container held
    rw [if_pos container] at inside
    rw [needsRaster_of_container container] at rect
    exact underlay_shown inside rect held

end Siblings

theorem sizes_shade (site : Site Rat) (frame : ParentFrame Rat) (zIndex : Int) :
    Drawn.sizes (helpers site .shadow (shade rules site.node.layer frame zIndex)) =
      (shade rules site.node.layer frame zIndex).length := by
  rw [shade]
  cases site.node.layer.annotations.shadow <;> rfl

/-- All siblings and all nodes below them are shown where the design has them. -/
theorem shows_drawAll {host : List Nat} {plots : List (Plot Rat)} {base : Rect Rat}
    (standing : Plot.Standing rules root host plots) (settled : Plot.Settled rules host plots)
    (ready : Ready rules plots) {node : Node Rat} {zIndex order : Int} (noFlow : node.layout? = none)
    (known : tree.arena.rect? screen high = some (root.spot node host base))
    (planted : Drawn.Planted tree own ((high, origin) :: above)
      (drawAll rules config (.of node) zIndex order plots)) :
    ∀ site ∈ Plot.sitesAll plots, Node.Unmanaged rules root site.path →
      ∃ entry ∈ tree.entries 0 [], entry.drawn.origin = ⟨site.path, .self⟩ ∧
        tree.arena.Shows screen rules false site.origin
          (root.spot site.origin site.path base) entry.position := by
  -- by the plots of the host: the first one, what is in it, and those after it
  induction standing generalizing own high origin above node zIndex order with
  | nil => simp [Plot.sitesAll]
  | @cons host plots site notice children stands inner rest ihInner ihRest =>
    cases settled with
    | cons deeper leaf within others =>
      obtain ⟨⟨supplied, _⟩, below, later⟩ := ready_cons.mp ready
      rw [drawAll, Drawn.planted_append, sizes_shade] at planted
      obtain ⟨under, planted⟩ := planted
      have own := shows_sibling stands supplied noFlow known under rfl planted
      have inside := (own_shown supplied planted known).2.2
      rw [draw, Drawn.planted_cons] at planted
      obtain ⟨⟨member, _⟩, behind⟩ := planted
      intro target present unmanaged
      rw [Plot.sitesAll, Plot.sites, List.cons_append, List.mem_cons, List.mem_append] at present
      rcases present with rfl | inner | further
      · exact ⟨_, member, rfl, own⟩
      · have container : site.node.strategy rules = .container := by
          by_contra other
          simp [leaf other, Plot.sitesAll] at inner
        have free : site.origin.layout? = none :=
          unmanaged site.path site.origin stands.reached (within.deeper target inner)
        have rect := own.rect
        rw [← Site.classify_node, needsRaster_of_container container] at rect
        rw [if_pos container] at inside
        obtain ⟨next, content⟩ := planted_children inside (by rw [Site.layout_node, free])
        rw [Site.of_node] at content
        exact ihInner within below free rect content target inner unmanaged
      · exact ihRest others later noFlow known behind target further unmanaged

section Screen

variable {children : List (Plot Rat)}

theorem spot_root (root : Node Rat) (screen : Rect Rat) :
    root.spot root [] (root.layer.centered screen) = root.layer.centered screen :=
  Rect.within_corner (root.layer.centered screen)

/-- The root is shown in the middle of the screen, and whatever it holds stands right behind it. -/
theorem shows_root (config : TextConfig) (screen : Rect Rat) (children : List (Plot Rat))
    (supplied : Supplied rules root) :
    (∃ entry ∈ (drawScreen rules config root children).entries 0 [],
      entry.position = 1 ∧ entry.drawn.origin = ⟨[], .self⟩) ∧
    (drawScreen rules config root children).arena.Shows screen rules true root
      (root.layer.centered screen) 1 ∧
    (root.strategy rules = .container →
      Drawn.Planted (drawScreen rules config root children) 2 [(1, ⟨[], .self⟩), (0, ⟨[], .screen⟩)]
        (framed rules config true (Site.start [] root) (drawAll rules config (.of root) 1 0 children))) := by
  have top : (Site.start [] root).node = root := Site.node_start [] root
  have screened : ⟨0, [], drawScreen rules config root children⟩ ∈
      (drawScreen rules config root children).entries 0 [] := by
    rw [drawScreen, Drawn.entries]
    exact List.mem_cons_self
  have planted : Drawn.Planted (drawScreen rules config root children) 1 [(0, ⟨[], .screen⟩)]
      [draw rules config (rootSlot root) (.mk (Site.start [] root) none children)] := by
    intro entry member
    rw [drawScreen, Drawn.entries]
    exact List.mem_cons_of_mem _ member
  have known : (drawScreen rules config root children).arena.rect? screen 0 = some screen :=
    Arena.rect?_top screened rfl
  obtain ⟨⟨inst, there, other, kind, name, _⟩, rect, inside⟩ := own_shown (by rwa [top]) planted known
  rw [top] at kind name rect inside
  rw [part_rootNode rfl] at rect
  rw [draw, Drawn.planted_cons] at planted
  refine ⟨⟨_, planted.1.1, rfl, rfl⟩, ⟨⟨inst, there, other, kind, name⟩, ?_, ?_, ?_⟩, ?_⟩
  · simpa using rect
  · simp
  · intro container held
    rw [if_pos container] at inside
    have taken := underlay_shown inside rect (by rwa [top])
    rwa [top] at taken
  · intro container
    rwa [if_pos container] at inside

theorem exists_site {children : List (Plot Rat)} (layout : Placement.Layout rules root children)
    {path : List Nat} {node : Node Rat} (reached : Node.Emits rules root path node) :
    ∃ site ∈ Plot.sitesAll [.mk (Site.start [] root) none children], site.occurrence = (path, node) :=
  List.mem_map.mp (layout.perm.mem_iff.mpr (Node.mem_emits.mpr ⟨path, rfl, reached⟩))

theorem shows_placed (config : TextConfig) (screen : Rect Rat) {children : List (Plot Rat)}
    (layout : Placement.Layout rules root children) (standing : Plot.Standing rules root [] children)
    (supplied : Supplied rules root) (ready : Ready rules children) :
    ∀ site ∈ Plot.sitesAll [.mk (Site.start [] root) none children],
      Node.Unmanaged rules root site.path →
      ∃ entry ∈ (drawScreen rules config root children).entries 0 [],
        entry.drawn.origin = ⟨site.path, .self⟩ ∧
        (drawScreen rules config root children).arena.Shows screen rules
          site.path.isEmpty site.origin
          (root.spot site.origin site.path (root.layer.centered screen)) entry.position := by
  obtain ⟨⟨entry, member, position, origin⟩, own, inside⟩ := shows_root config screen children supplied
  intro site present unmanaged
  simp only [Plot.sitesAll, Plot.sites, List.append_nil, List.mem_cons] at present
  rcases present with rfl | below
  · refine ⟨entry, member, origin, ?_⟩
    rw [position]
    simpa [Site.start, spot_root] using own
  · have deeper := layout.settled.deeper site below
    have container : root.strategy rules = .container := by
      by_contra other
      simp [layout.leaf other, Plot.sitesAll] at below
    have noFlow : root.layout? = none := unmanaged [] root .root deeper
    have rect := own.rect
    rw [← spot_root, Bool.not_true, Bool.and_false] at rect
    obtain ⟨next, content⟩ := planted_children (inside container) (by rwa [Site.node_start])
    have low : site.path.isEmpty = false := by
      obtain ⟨_, _, path⟩ := deeper
      simp [path]
    rw [low]
    exact shows_drawAll standing layout.settled ready noFlow rect content site below unmanaged

end Screen

/-- If a design is assembled, every node that reaches the output and that no flow places, itself or a node
above it, is shown by an instance of its own where the design has it: evaluated from the screen down, the
instance takes up the rectangle that lies as far from the corner of the root as all positions on the way
say together, and its pictures lie around it. -/
theorem assemble_faithful (rules : RuleSet) (config : TextConfig) (root : Node Rat)
    {log log' : Diagnostics} {arena : Arena Rat}
    (done : (assemble rules config root).run log = .ok (arena, log')) (screen : Rect Rat) :
    ∃ place : List Nat → Nat,
      Set.InjOn place
        {path | (∃ node, Node.Emits rules root path node) ∧ Node.Unmanaged rules root path} ∧
      ∀ path node, Node.Emits rules root path node → Node.Unmanaged rules root path →
        arena.Shows screen rules path.isEmpty node
          (root.spot node path (root.layer.centered screen)) (place path) := by
  obtain ⟨children, layout, standing⟩ := Placement.exists_standing rules root
  obtain ⟨⟨supplied, ready⟩, rfl⟩ := drawn_of_assemble layout done
  have each : ∀ path, ∃ position, ∀ node, Node.Emits rules root path node →
      Node.Unmanaged rules root path →
      ∃ entry ∈ (drawScreen rules config root children).entries 0 [], entry.position = position ∧
        entry.drawn.origin = ⟨path, .self⟩ ∧
        (drawScreen rules config root children).arena.Shows screen rules
          path.isEmpty node (root.spot node path (root.layer.centered screen)) position := by
    intro path
    by_cases reached : ∃ node, Node.Emits rules root path node ∧ Node.Unmanaged rules root path
    · obtain ⟨node, reached, unmanaged⟩ := reached
      obtain ⟨site, present, occurs⟩ := exists_site layout reached
      obtain ⟨rfl, rfl⟩ := Prod.mk.inj occurs
      obtain ⟨entry, member, origin, shows⟩ :=
        shows_placed config screen layout standing supplied ready site present unmanaged
      refine ⟨entry.position, fun other also _ => ?_⟩
      obtain rfl := reached.unique also
      exact ⟨entry, member, rfl, origin, shows⟩
    · exact ⟨0, fun node also unmanaged => absurd ⟨node, also, unmanaged⟩ reached⟩
  choose place stands using each
  refine ⟨place, ?_, ?_⟩
  · rintro path ⟨⟨node, reached⟩, unmanaged⟩ other ⟨⟨otherNode, also⟩, free⟩ same
    obtain ⟨first, one, position, origin, _⟩ := stands path node reached unmanaged
    obtain ⟨second, two, positionTwo, originTwo, _⟩ := stands other otherNode also free
    obtain rfl := Arena.entry_unique one two (by rw [position, positionTwo, same])
    exact congrArg Origin.path (origin.symm.trans originTwo)
  · intro path node reached unmanaged
    obtain ⟨_, _, _, _, shows⟩ := stands path node reached unmanaged
    exact shows

section Gallery

private def shelving : RuleSet := ⟨"", [], [⟨.exact "shelf", .stretch⟩]⟩

/-- A click target that reaches out of a shelf without width and of a wall. -/
private def handle : Node Rat :=
  .shape { Layer.plain "3" "handle" ⟨60, 2, 8, 8⟩ with
    constraints := ⟨.scale, .scale⟩
    reactions := [⟨.onClick, none, none⟩]
    annotations := { Annotations.none with
      shadow := some ⟨"dusk", some "7"⟩
      renderBounds := some ⟨-2, -2, 12, 12⟩ } } .rectangle

/-- A tag that shares what width its shelf has. -/
private def tag : Node Rat :=
  .shape { Layer.plain "4" "tag" ⟨0, 1, 3, 3⟩ with constraints := ⟨.scale, .scale⟩ } .rectangle

private def gallery : Node Rat :=
  .container (.plain "0" "gallery" ⟨0, 0, 100, 80⟩) ⟨.frame, none, false⟩
    [.container { Layer.plain "1" "wall" ⟨10, 5, 40, 30⟩ with constraints := ⟨.center, .max⟩ }
      ⟨.frame, none, true⟩
      [.container (.plain "2" "shelf" ⟨4, 4, 0, 20⟩) ⟨.frame, none, true⟩ [handle, tag]]]

theorem gallery_faithful : ∃ arena log',
    (assemble shelving .default gallery).run .empty = .ok (arena, log') ∧
      ∃ place : List Nat → Nat,
        arena.rect? ⟨0, 0, 1000, 800⟩ (place [0, 0, 0]) = some ⟨524, 371, 8, 8⟩ ∧
        arena.rect? ⟨0, 0, 1000, 800⟩ (place [0, 0, 0] - 1) = some ⟨522, 369, 12, 12⟩ ∧
        arena.rect? ⟨0, 0, 1000, 800⟩ (place [0, 0, 1]) = some ⟨464, 370, 3, 3⟩ := by
  have plain : ∀ entry ∈ gallery.emits shelving [],
      (entry.2.classify shelving).needsRaster = false ∧ entry.2.layer.annotations.background = none ∧
        (∀ picture ∈ entry.2.layer.annotations.shadow, picture.asset.isSome = true) ∧
        entry.2.layout?.isSome = false := by decide
  have found := fun path node (reached : Node.Emits shelving gallery path node) =>
    plain (path, node) (Node.mem_emits.mpr ⟨path, rfl, reached⟩)
  obtain ⟨arena, log', done⟩ : ∃ arena log',
      (assemble shelving .default gallery).run .empty = .ok (arena, log') :=
    assemble_total .default (fun path node reached => by
      obtain ⟨raster, background, shadow, _⟩ := found path node reached
      refine ⟨⟨by simp [raster], by simp [raster], by simp [Filled, background]⟩, ?_⟩
      intro picture held
      exact Option.isSome_iff_exists.mp (shadow picture held)) .empty
  have unmanaged : ∀ path, Node.Unmanaged shelving gallery path := by
    intro path above host reached _
    simpa using (found above host reached).2.2.2
  obtain ⟨place, _, shows⟩ := assemble_faithful shelving .default gallery done ⟨0, 0, 1000, 800⟩
  have atHandle : Node.Emits shelving gallery [0, 0, 0] handle :=
    .prepend (by decide) rfl rfl (.prepend (by decide) rfl rfl (.prepend (by decide) rfl rfl .root))
  have atTag : Node.Emits shelving gallery [0, 0, 1] tag :=
    .prepend (by decide) rfl rfl (.prepend (by decide) rfl rfl (.prepend (by decide) rfl rfl .root))
  have spotHandle : gallery.spot handle [0, 0, 0] (gallery.layer.centered ⟨0, 0, 1000, 800⟩) =
      ⟨524, 371, 8, 8⟩ := by
    norm_num [gallery, handle, Node.spot, Node.corner, Node.children, Node.layer, Layer.plain,
      Layer.centered, Rect.within]
  have spotTag : gallery.spot tag [0, 0, 1] (gallery.layer.centered ⟨0, 0, 1000, 800⟩) =
      ⟨464, 370, 3, 3⟩ := by
    norm_num [gallery, tag, handle, Node.spot, Node.corner, Node.children, Node.layer, Layer.plain,
      Layer.centered, Rect.within]
  obtain ⟨low, _, _, behind, _, _, _, _, _, shadow⟩ := (shows _ _ atHandle (unmanaged _)).shadow rfl rfl
  obtain rfl : low = place [0, 0, 0] - 1 := by omega
  refine ⟨arena, log', done, place, ?_, ?_, ?_⟩
  · rw [(shows _ _ atHandle (unmanaged _)).rect, (found _ _ atHandle).1, spotHandle]
    rfl
  · rw [shadow, spotHandle]
    norm_num [handle, Layer.pictured, Node.layer, Rect.within]
  · rw [(shows _ _ atTag (unmanaged _)).rect, (found _ _ atTag).1, spotTag]
    rfl

end Gallery

end Assembly

end DesignCompiler
