import DesignCompiler.Assembly
import DesignCompiler.Proofs.Lifting
import DesignCompiler.Proofs.Planting

/-!
What the emission of a settled design gives, written down without the warnings and the failures on
the way. Every item is drawn for a node of the design or for a part of one, and the only thing that
can be missing is the asset of a picture.
-/
namespace DesignCompiler

variable {α : Type} [Scalar α] {rules : RuleSet}

namespace Assembly

section

variable {β γ : Type} {log log' : Diagnostics}

theorem bind_eq_ok {first : Assembly β} {next : β → Assembly γ} {result : γ} :
    (first >>= next).run log = .ok (result, log') ↔
      ∃ value between, first.run log = .ok (value, between) ∧
        (next value).run between = .ok (result, log') := by
  rw [StateT.run_bind]
  cases first.run log with
  | error failure => simp [bind, Except.bind]
  | ok pair =>
    obtain ⟨value, between⟩ := pair
    simp [bind, Except.bind]

theorem pure_eq_ok {value result : β} :
    (pure value : Assembly β).run log = .ok (result, log') ↔ value = result ∧ log = log' := by
  rw [StateT.run_pure]
  simp [pure, Except.pure]

theorem get_eq_ok {held : Diagnostics} :
    (get : Assembly Diagnostics).run log = .ok (held, log') ↔ log = held ∧ log = log' := by
  rw [StateT.run_get]
  simp [pure, Except.pure]

theorem set_eq_ok {given : Diagnostics} {result : PUnit} :
    (set given : Assembly PUnit).run log = .ok (result, log') ↔ given = log' := by
  rw [StateT.run_set]
  simp [pure, Except.pure]

theorem lift_eq_ok {attempt : Except Failure β} {result : β} :
    (liftM attempt : Assembly β).run log = .ok (result, log') ↔
      attempt = .ok result ∧ log = log' := by
  have unfolded : (liftM attempt : Assembly β) = StateT.lift attempt := rfl
  rw [unfolded, StateT.run_lift]
  cases attempt <;> simp [bind, Except.bind, pure, Except.pure]

theorem warnAll_eq_ok {warnings : List Warning} {result : Unit} :
    (warnAll warnings).run log = .ok (result, log') ↔ log.warnAll warnings = log' := by
  rw [warnAll, StateT.run_modify]
  simp [pure, Except.pure]

theorem keep_eq_ok {result : β} {kept : β × List Warning} :
    (keep kept).run log = .ok (result, log') ↔ kept.1 = result ∧ log.warnAll kept.2 = log' := by
  simp only [keep, bind_eq_ok, warnAll_eq_ok, pure_eq_ok]
  constructor
  · rintro ⟨_, between, rfl, rfl, rfl⟩
    exact ⟨rfl, rfl⟩
  · rintro ⟨rfl, rfl⟩
    exact ⟨(), _, rfl, rfl, rfl⟩

end

/-- The address of a picture that has its asset. -/
def address (picture : Picture) : String := "rbxassetid://" ++ picture.asset.getD ""

/-- A picture that is there has its asset. -/
def Filled (picture : Option Picture) : Prop :=
  ∀ held, picture = some held → ∃ asset, held.asset = some asset

theorem assetUrl_eq_ok {picture : Picture} {id url : String} :
    assetUrl picture id = .ok url ↔ (∃ asset, picture.asset = some asset) ∧ address picture = url := by
  cases held : picture.asset with
  | none => simp [assetUrl, held]
  | some asset => simp [assetUrl, address, held]

theorem strategy_of_needsRaster {node : Node α} (needed : (node.classify rules).needsRaster = true) :
    node.strategy rules = .raster := by
  simp only [Classification.needsRaster, Bool.and_eq_true, beq_iff_eq] at needed
  exact needed.1.1

theorem needsRaster_of_container {node : Node α} (container : node.strategy rules = .container) :
    (node.classify rules).needsRaster = false := by
  rw [Bool.eq_false_iff]
  intro needed
  simp [strategy_of_needsRaster needed] at container

/-- The pictures that a node shows have their assets: its own, which must be there if it needs one,
and the one under its children. -/
structure Supplied (rules : RuleSet) (node : Node α) : Prop where
  planned : (node.classify rules).needsRaster = true → node.layer.annotations.raster.isSome = true
  raster : (node.classify rules).needsRaster = true → Filled node.layer.annotations.raster
  background : node.strategy rules = .container → Filled node.layer.annotations.background

/-- The paint of a node itself, whatever has been warned about before. -/
def painting (rules : RuleSet) (config : TextConfig) (node : Node α) :
    List (String × Property α) × List (Item α) :=
  match node.strategy rules with
  | .text =>
    match node.content? with
    | none => ([], [])
    | some text =>
      let label := Label.emit config node.layer text .empty
      (label.1, label.2.1)
  | _ =>
    if (node.classify rules).needsRaster then
      match node.layer.annotations.raster with
      | none => ([], [])
      | some picture => (pictureProperties node.layer (address picture), [])
    else
      let frame := framePaint node.layer (node.classify rules).nativeFill
      (frame.1, frame.2.1)

theorem mapFont_fst (config : TextConfig) (family : String) (log log' : Diagnostics) :
    (Label.mapFont config family log).1 = (Label.mapFont config family log').1 := by
  simp only [Label.mapFont]
  split
  · rfl
  · split <;> rfl

private theorem label_fst (config : TextConfig) (layer : Layer α) (text : TextContent α)
    (log log' : Diagnostics) :
    (Label.emit config layer text log).1 = (Label.emit config layer text log').1 := by
  simp only [Label.emit]
  rw [mapFont_fst config _ _ (log'.warnAll (Label.styleWarnings config layer.id text.style))]

private theorem label_decorations (config : TextConfig) (layer : Layer α) (text : TextContent α)
    (log log' : Diagnostics) :
    (Label.emit config layer text log).2.1 = (Label.emit config layer text log').2.1 := by
  simp only [Label.emit]

theorem paint_run (config : TextConfig) {node : Node α} (supplied : Supplied rules node)
    (log : Diagnostics) :
    ∃ log', (paint config (node.classify rules) node).run log =
      .ok (painting rules config node, log') := by
  have same : (node.classify rules).strategy = node.strategy rules := rfl
  cases kind : node.strategy rules
  case text =>
    simp only [paint, painting, same, kind]
    cases node.content? with
    | none => exact ⟨log, rfl⟩
    | some text =>
      refine ⟨(Label.emit config node.layer text log).2.2, ?_⟩
      dsimp only
      rw [label_fst config _ _ .empty log, label_decorations config _ _ .empty log]
      simp only [bind_eq_ok, get_eq_ok, set_eq_ok, pure_eq_ok]
      refine ⟨log, log, ⟨rfl, rfl⟩, ?_⟩
      -- the label is kept closed: comparing its parts would open it
      generalize Label.emit config node.layer text log = label
      exact ⟨⟨⟩, _, rfl, rfl, rfl⟩
  all_goals
    simp only [paint, painting, same, kind]
    by_cases needed : (node.classify rules).needsRaster = true
    · obtain ⟨picture, found⟩ := Option.isSome_iff_exists.mp (supplied.planned needed)
      have url : assetUrl picture node.layer.id = .ok (address picture) :=
        assetUrl_eq_ok.mpr ⟨supplied.raster needed picture found, rfl⟩
      refine ⟨log, ?_⟩
      simp only [needed, if_pos, picturePaint, found, url]
      rfl
    · simp only [needed]
      exact ⟨_, rfl⟩

theorem raster_of_paint {config : TextConfig} {node : Node α} {log log' : Diagnostics}
    {result : List (String × Property α) × List (Item α)}
    (run : (paint config (node.classify rules) node).run log = .ok (result, log'))
    (needed : (node.classify rules).needsRaster = true) :
    node.layer.annotations.raster.isSome = true ∧ Filled node.layer.annotations.raster := by
  have raster : (node.classify rules).strategy = .raster := strategy_of_needsRaster needed
  simp only [paint, raster, needed, if_pos, bind_eq_ok, lift_eq_ok, picturePaint] at run
  obtain ⟨painted, _, ⟨done, _⟩, _⟩ := run
  cases found : node.layer.annotations.raster with
  | none => simp [found] at done
  | some picture =>
    refine ⟨rfl, ?_⟩
    rintro _ ⟨⟩
    cases filled : picture.asset with
    | none => simp [found, assetUrl, filled, bind, Except.bind] at done
    | some asset => exact ⟨asset, rfl⟩

/-- The picture under the children of a node, if it has one. -/
def backdrop (layer : Layer α) (isRoot : Bool) : List (Item α) :=
  layer.annotations.background.toList.map fun picture => underlayItem layer isRoot (address picture)

/-- The shadow under a node, if it has one. -/
def shade (rules : RuleSet) (layer : Layer α) (frame : ParentFrame α) (zIndex : Int) :
    List (Item α) :=
  layer.annotations.shadow.toList.map fun picture =>
    shadowItem layer (shadowGeometry rules layer frame).1 zIndex (address picture)

theorem underlays_eq_ok {layer : Layer α} {isRoot : Bool} {items : List (Item α)} :
    underlays layer isRoot = .ok items ↔
      Filled layer.annotations.background ∧ backdrop layer isRoot = items := by
  rw [underlays, backdrop, Filled]
  cases layer.annotations.background with
  | none => simp [pure, Except.pure]
  | some picture =>
    cases held : picture.asset with
    | none => simp [assetUrl, held, bind, Except.bind]
    | some asset => simp [assetUrl, address, held, bind, Except.bind, pure, Except.pure]

theorem shadows_eq_ok {layer : Layer α} {frame : ParentFrame α} {zIndex : Int}
    {items : List (Item α)} {log : Diagnostics} :
    (∃ log', (shadows rules layer frame zIndex).run log = .ok (items, log')) ↔
      Filled layer.annotations.shadow ∧ shade rules layer frame zIndex = items := by
  rw [shadows, shade, Filled]
  cases layer.annotations.shadow with
  | none =>
    simp only [pure_eq_ok, Option.toList_none, List.map_nil]
    simp
  | some picture =>
    simp only [bind_eq_ok, keep_eq_ok, lift_eq_ok, pure_eq_ok, assetUrl_eq_ok]
    constructor
    · rintro ⟨_, _, _, ⟨rfl, rfl⟩, _, _, ⟨⟨held, rfl⟩, rfl⟩, rfl, rfl⟩
      refine ⟨?_, rfl⟩
      rintro _ ⟨⟩
      exact held
    · rintro ⟨filled, rfl⟩
      exact ⟨_, _, _, ⟨rfl, rfl⟩, _, _, ⟨⟨filled picture rfl, rfl⟩, rfl⟩, rfl, rfl⟩

/-- The items that help a node in one way. -/
def helpers (site : Site α) (part : Part) (items : List (Item α)) : List (Drawn α) :=
  Drawn.ofItems ⟨site.path, part⟩ items

/-- What a container holds where its children go. -/
def contents (rules : RuleSet) (site : Site α) (inner : List (Drawn α)) : List (Drawn α) :=
  let content := helpers site .decoration (flowItems site.node).1 ++ inner
  if keepsApart rules site.node then
    [.mk ⟨site.path, .content⟩ "Frame" "Content" contentProperties content]
  else content

/-- The z-index over the children of a container. -/
def above (rules : RuleSet) (site : Site α) (inner : List (Drawn α)) : Int :=
  if keepsApart rules site.node then 2 else 1 + inner.length

/-- What a container holds, given what its children give. -/
def framed (rules : RuleSet) (config : TextConfig) (isRoot : Bool) (site : Site α)
    (inner : List (Drawn α)) : List (Drawn α) :=
  helpers site .decoration (painting rules config site.node).2 ++
    helpers site .background (backdrop site.node.layer isRoot) ++ contents rules site inner ++
    helpers site .record (Decoration.interactions site.node.layer).1 ++
    helpers site .target (targets rules site.node.layer (above rules site inner))

/-- What a node holds that has no children in the output. -/
def bare (rules : RuleSet) (config : TextConfig) (site : Site α) : List (Drawn α) :=
  helpers site .decoration (painting rules config site.node).2 ++
    helpers site .record (Decoration.interactions site.node.layer).1 ++
    helpers site .target (targets rules site.node.layer 1)

/-- The properties of the instance of a node. -/
def nodeProperties (rules : RuleSet) (config : TextConfig) (slot : Slot α) (node : Node α) :
    List (String × Property α) :=
  frameProperties (nodeGeometry rules node slot).1 node.layer slot ++
    (painting rules config node).1 ++
    if node.strategy rules = .container ∧ node.clips then
      [("ClipsDescendants", Property.bool true)]
    else []

/-- The slot of a node among its siblings. -/
def sibling (rules : RuleSet) (frame : ParentFrame α) (zIndex order : Int) (node : Node α) : Slot α where
  frame
  isRoot := false
  zIndex := zIndex + (shade rules node.layer frame zIndex).length
  layoutOrder := if frame.flow then some (order + 1) else none

mutual

/-- What a node in a slot gives, with all that is placed under it. -/
def draw (rules : RuleSet) (config : TextConfig) (slot : Slot α) : Plot α → Drawn α
  | .mk site _ children =>
    .mk ⟨site.path, .self⟩ (className (site.node.classify rules)) site.node.layer.name
      (Properties.setAll [] (nodeProperties rules config slot site.node))
      (if site.node.strategy rules = .container then
        framed rules config slot.isRoot site (drawAll rules config (.of site.node) 1 0 children)
      else bare rules config site)

/-- What siblings give from a z-index and a layout order on, each after its shadow. -/
def drawAll (rules : RuleSet) (config : TextConfig) (frame : ParentFrame α) (zIndex order : Int) :
    List (Plot α) → List (Drawn α)
  | [] => []
  | .mk site notice children :: rest =>
    let under := shade rules site.node.layer frame zIndex
    helpers site .shadow under ++
      draw rules config (sibling rules frame zIndex order site.node) (.mk site notice children) ::
      drawAll rules config frame (zIndex + under.length + 1) (order + 1) rest

end

/-- All pictures of some places have their assets, also the shadows. -/
def Ready (rules : RuleSet) (plots : List (Plot α)) : Prop :=
  ∀ site ∈ Plot.sitesAll plots, Supplied rules site.node ∧ Filled site.node.layer.annotations.shadow

omit [Scalar α] in
@[simp] theorem items_helpers (site : Site α) (part : Part) (items : List (Item α)) :
    Drawn.items (helpers site part items) = items := by
  rw [helpers, Drawn.items_ofItems]

omit [Scalar α] in
@[simp] theorem length_helpers (site : Site α) (part : Part) (items : List (Item α)) :
    (helpers site part items).length = items.length := by
  rw [← Drawn.length_items, items_helpers]

theorem item_draw_leaf {site : Site α} (leaf : site.node.strategy rules ≠ .container)
    (config : TextConfig) (slot : Slot α) (notice : Option Warning) (children : List (Plot α)) :
    (draw rules config slot (.mk site notice children)).item =
      leafItem rules site.node
        (frameProperties (nodeGeometry rules site.node slot).1 site.node.layer slot ++
          (painting rules config site.node).1)
        (painting rules config site.node).2 (Decoration.interactions site.node.layer).1 := by
  simp only [draw, Drawn.item, bare, Drawn.items_append, items_helpers, leafItem,
    nodeProperties, leaf, false_and, if_false, List.append_nil]

/-- A drawn container is the item that the emission makes of it around those of its children. -/
theorem item_draw_container {site : Site α} (container : site.node.strategy rules = .container)
    (config : TextConfig) (slot : Slot α) (notice : Option Warning) (children : List (Plot α)) :
    (draw rules config slot (.mk site notice children)).item =
      frameItem rules site.node
        (frameProperties (nodeGeometry rules site.node slot).1 site.node.layer slot ++
          (painting rules config site.node).1)
        (painting rules config site.node).2 (backdrop site.node.layer slot.isRoot)
        (flowItems site.node).1
        (Drawn.items (drawAll rules config (.of site.node) 1 0 children))
        (Decoration.interactions site.node.layer).1
        (1 + (drawAll rules config (.of site.node) 1 0 children).length) := by
  rw [draw, if_pos container, Drawn.item, frameItem, nodeProperties, framed, contents, above]
  by_cases apart : keepsApart rules site.node = true
  · simp [apart, container, contentFrame, Drawn.items, Drawn.item]
  · simp [apart, container]

theorem ready_cons {site : Site α} {notice : Option Warning} {children plots : List (Plot α)} :
    Ready rules (.mk site notice children :: plots) ↔
      (Supplied rules site.node ∧ Filled site.node.layer.annotations.shadow) ∧
        Ready rules children ∧ Ready rules plots := by
  simp only [Ready, Plot.sitesAll, Plot.sites, List.cons_append, List.forall_mem_cons,
    List.forall_mem_append]

mutual

/-- Emitting a node whose pictures all have their assets gives what is drawn for it. -/
theorem emit_run (config : TextConfig) (slot : Slot α) : (plot : Plot α) →
    Supplied rules plot.site.node → Ready rules plot.children → (log : Diagnostics) →
    ∃ log', (emit rules config slot plot.placed).run log = .ok ((draw rules config slot plot).item, log')
  | .mk site notice children, supplied, ready, log => by
    obtain ⟨painted, paint⟩ := paint_run config supplied
      (log.warnAll (nodeGeometry rules site.node slot).2)
    rw [Plot.placed, emit]
    by_cases container : site.node.strategy rules = .container
    · obtain ⟨below, emitted⟩ := emitAll_run config (.of site.node) 1 0 children ready
        (painted.warnAll (flowItems site.node).2)
      have background := underlays_eq_ok.mpr
        ⟨supplied.background container, rfl (a := backdrop site.node.layer slot.isRoot)⟩
      rw [item_draw_container container]
      simp only [bind_eq_ok, keep_eq_ok, if_pos container, pure_eq_ok, lift_eq_ok]
      exact ⟨_, _, _, ⟨rfl, rfl⟩, _, _, paint, _, _, ⟨background, rfl⟩, _, _, ⟨rfl, rfl⟩, _, _, emitted, _, _,
        ⟨rfl, rfl⟩, rfl, rfl⟩
    · rw [item_draw_leaf container]
      simp only [bind_eq_ok, keep_eq_ok, if_neg container, pure_eq_ok]
      exact ⟨_, _, _, ⟨rfl, rfl⟩, _, _, paint, _, _, ⟨rfl, rfl⟩, rfl, rfl⟩

/-- Emitting siblings whose pictures all have their assets gives what is drawn for them. -/
theorem emitAll_run (config : TextConfig) (frame : ParentFrame α) (zIndex order : Int) :
    (plots : List (Plot α)) → Ready rules plots → (log : Diagnostics) →
    ∃ log', (emitAll rules config frame zIndex order (Plot.placedAll plots)).run log =
      .ok ((Drawn.items (drawAll rules config frame zIndex order plots),
        zIndex + (drawAll rules config frame zIndex order plots).length), log')
  | [], _, log => by
    refine ⟨log, ?_⟩
    rw [Plot.placedAll, emitAll, drawAll, pure_eq_ok]
    simp [Drawn.items]
  | .mk site notice children :: rest, ready, log => by
    obtain ⟨⟨supplied, shadow⟩, inner, others⟩ := ready_cons.mp ready
    obtain ⟨shaded, shadows⟩ := shadows_eq_ok.mpr
      ⟨shadow, rfl (a := shade rules site.node.layer frame zIndex)⟩
    obtain ⟨between, own⟩ := emit_run config (sibling rules frame zIndex order site.node)
      (.mk site notice children) supplied inner shaded
    obtain ⟨log', later⟩ := emitAll_run config frame
      (zIndex + (shade rules site.node.layer frame zIndex).length + 1) (order + 1) rest others between
    refine ⟨log', ?_⟩
    rw [Plot.placedAll, emitAll, drawAll]
    simp only [bind_eq_ok, warnAll_eq_ok, pure_eq_ok]
    refine ⟨(), log.warnAll notice.toList, rfl, _, _, shadows, _, _, own, _, _, later, Prod.ext ?_ ?_, rfl⟩
    · simp only [Drawn.items_append, items_helpers, Drawn.items]
    · simp only [List.length_append, length_helpers, List.length_cons]
      omega

end

mutual

/-- If a node in its place is emitted, its pictures had their assets, and so had those below it. -/
theorem ready_of_emit {config : TextConfig} {slot : Slot α} {log log' : Diagnostics} {item : Item α} :
    (plot : Plot α) → (plot.site.node.strategy rules ≠ .container → plot.children = []) →
    Plot.Settled rules plot.site.path plot.children →
    (emit rules config slot plot.placed).run log = .ok (item, log') →
    Supplied rules plot.site.node ∧ Ready rules plot.children
  | .mk site notice children, leaf, inner, done => by
    rw [Plot.placed, emit] at done
    simp only [bind_eq_ok, keep_eq_ok] at done
    obtain ⟨_, _, _, _, _, painted, done⟩ := done
    have raster := raster_of_paint painted
    by_cases container : site.node.strategy rules = .container
    · simp only [if_pos container, bind_eq_ok, lift_eq_ok] at done
      obtain ⟨_, _, ⟨background, _⟩, _, _, _, _, _, emitted, _⟩ := done
      exact ⟨⟨fun needed => (raster needed).1, fun needed => (raster needed).2,
        fun _ => (underlays_eq_ok.mp background).1⟩, ready_of_emitAll children inner emitted⟩
    · have none : children = [] := leaf container
      refine ⟨⟨fun needed => (raster needed).1, fun needed => (raster needed).2,
        fun here => absurd here container⟩, ?_⟩
      simp [Ready, Plot.sitesAll, Plot.children, none]

theorem ready_of_emitAll {config : TextConfig} {frame : ParentFrame α} {zIndex order : Int}
    {log log' : Diagnostics} {result : List (Item α) × Int} :
    {above : List Nat} → (plots : List (Plot α)) → Plot.Settled rules above plots →
    (emitAll rules config frame zIndex order (Plot.placedAll plots)).run log = .ok (result, log') →
    Ready rules plots
  | _, [], _, _ => by simp [Ready, Plot.sitesAll]
  | _, .mk site notice children :: rest, settled, done => by
    cases settled with
    | cons deeper leaf inner others =>
      rw [Plot.placedAll, emitAll] at done
      simp only [bind_eq_ok, warnAll_eq_ok] at done
      obtain ⟨_, _, _, _, _, shadows, _, _, own, _, _, later, _⟩ := done
      obtain ⟨supplied, below⟩ := ready_of_emit (.mk site notice children) leaf inner own
      exact ready_cons.mpr ⟨⟨supplied, (shadows_eq_ok.mp ⟨_, shadows⟩).1⟩, below,
        ready_of_emitAll rest others later⟩

end

def drawScreen (rules : RuleSet) (config : TextConfig) (root : Node α) (children : List (Plot α)) :
    Drawn α :=
  .mk ⟨[], .screen⟩ "ScreenGui" root.layer.name
    (Properties.setAll [] [("ZIndexBehavior", .token 1), ("ResetOnSpawn", .bool false)])
    [draw rules config (rootSlot root) (.mk (Site.start [] root) none children)]

theorem assemble_run {root : Node α} {children : List (Plot α)} (config : TextConfig)
    (layout : Placement.Layout rules root children) (supplied : Supplied rules root)
    (ready : Ready rules children) (log : Diagnostics) :
    ∃ log', (assemble rules config root).run log =
      .ok (Arena.empty.plant none (drawScreen rules config root children).item, log') := by
  have top : Supplied rules (Site.start [] root).node := by rwa [Site.node_start]
  obtain ⟨log', done⟩ := emit_run config (rootSlot root) (.mk (Site.start [] root) none children)
    top ready log
  refine ⟨log', ?_⟩
  rw [assemble, layout.placed]
  simp only [bind_eq_ok, pure_eq_ok]
  exact ⟨_, _, done, rfl, rfl⟩

/-- If a design is assembled, its pictures had their assets, and it is assembled as it is drawn. -/
theorem drawn_of_assemble {root : Node α} {children : List (Plot α)} {config : TextConfig}
    {log log' : Diagnostics} {arena : Arena α} (layout : Placement.Layout rules root children)
    (done : (assemble rules config root).run log = .ok (arena, log')) :
    (Supplied rules root ∧ Ready rules children) ∧
      arena = Arena.empty.plant none (drawScreen rules config root children).item := by
  have emitted := done
  rw [assemble, layout.placed] at emitted
  simp only [bind_eq_ok, pure_eq_ok] at emitted
  obtain ⟨_, _, emitted, _⟩ := emitted
  obtain ⟨supplied, ready⟩ := ready_of_emit (.mk (Site.start [] root) none children)
    (fun leaf => layout.leaf (by rwa [Plot.site, Site.node_start] at leaf)) layout.settled emitted
  rw [Plot.site, Site.node_start] at supplied
  obtain ⟨_, drawn⟩ := assemble_run config layout supplied ready log
  rw [drawn] at done
  obtain ⟨rfl, rfl⟩ := Prod.mk.inj (Except.ok.inj done)
  exact ⟨⟨supplied, ready⟩, rfl⟩

theorem supplied_node {site : Site α} : Supplied rules site.node ↔ Supplied rules site.origin := by
  obtain ⟨path, origin, x, y⟩ := site
  cases origin <;> exact ⟨fun supplied => ⟨supplied.planned, supplied.raster, supplied.background⟩,
    fun supplied => ⟨supplied.planned, supplied.raster, supplied.background⟩⟩

/-- Wherever the nodes that reach the output are placed, it is enough that they have their
pictures. -/
theorem ready_of_emits {root : Node α} {children : List (Plot α)}
    (layout : Placement.Layout rules root children)
    (supplied : ∀ path node, Node.Emits rules root path node →
      Supplied rules node ∧ Filled node.layer.annotations.shadow) : Ready rules children := by
  intro site member
  have placed : site.occurrence ∈ Plot.occurrences [.mk (Site.start [] root) none children] := by
    rw [Plot.occurrences_cons]
    exact List.mem_cons_of_mem _ (List.mem_append_left _ (List.mem_map_of_mem member))
  obtain ⟨_, _, reached⟩ := Node.mem_emits.mp (layout.perm.mem_iff.mp placed)
  obtain ⟨own, shadow⟩ := supplied _ _ reached
  refine ⟨supplied_node.mpr own, ?_⟩
  rw [Site.layer_node]
  exact shadow

theorem assemble_total {root : Node α} (config : TextConfig)
    (supplied : ∀ path node, Node.Emits rules root path node →
      Supplied rules node ∧ Filled node.layer.annotations.shadow) (log : Diagnostics) :
    ∃ arena log', (assemble rules config root).run log = .ok (arena, log') := by
  obtain ⟨children, layout⟩ := Placement.exists_layout rules root
  obtain ⟨log', done⟩ := assemble_run config layout (supplied [] root .root).1
    (ready_of_emits layout supplied) log
  exact ⟨_, log', done⟩

end Assembly
end DesignCompiler
