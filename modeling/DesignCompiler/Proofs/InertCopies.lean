import DesignCompiler.Proofs.Lifting
import DesignCompiler.Proofs.Pipeline
import DesignCompiler.Proofs.Pruning

/-!
What is not shown is inert. From planning to the document every pass does with a tree what it does with the
tree thinned of nodes that are not live, such as the copies of texts.
-/
namespace DesignCompiler

open Node (thinned thinnedAll stoodIn standIn)

variable {α : Type} [Scalar α] {keeps : Layer α → Bool}

namespace Plan

theorem annotateAll_hidden (rules : RuleSet) (flow : Bool) {child : Node α} (rest : List (Node α))
    (hidden : child.isLive = false) :
    annotateAll rules flow (child :: rest) =
      (child :: (annotateAll rules flow rest).1, (annotateAll rules flow rest).2) := by
  rw [annotateAll_cons, hidden]
  rfl

theorem annotateAll_stoodIn (rules : RuleSet) (flow : Bool) (children kept : List (Node α)) :
    annotateAll rules flow (stoodIn children kept) =
      (stoodIn (annotateAll rules flow children).1 (annotateAll rules flow kept).1,
        (annotateAll rules flow kept).2) := by
  have empty (nodes : List (Node α)) : (annotateAll rules flow nodes).1.isEmpty = nodes.isEmpty := by
    cases nodes with
    | nil => rfl
    | cons child rest =>
      rw [annotateAll_cons]
      rfl
  have warned : (annotateAll rules flow (stoodIn children kept)).2 = (annotateAll rules flow kept).2 :=
    Node.view_stoodIn (fun nodes => (annotateAll rules flow nodes).2) rfl children kept
  exact Prod.ext (Node.pass_stoodIn _ rfl empty children kept) warned

mutual

theorem annotateNode_thinned (lenient : Layer.Lenient keeps) (rules : RuleSet) (parentFlow isRoot : Bool) :
    (node : Node α) → annotateNode rules parentFlow isRoot (node.thinned keeps) =
      ((annotateNode rules parentFlow isRoot node).1.thinned keeps,
        (annotateNode rules parentFlow isRoot node).2)
  | .container layer props children => by
    have noted := Node.notes_thinned lenient rules parentFlow isRoot (.container layer props children)
    have strategy : ((Node.container layer props children).thinned keeps).strategy rules = _ :=
      Node.strategy_thinned rules _
    have below := annotateAll_thinned lenient rules props.layout.isSome children
    rw [thinned] at noted strategy ⊢
    rw [annotateNode, annotateNode, noted, strategy, annotateAll_stoodIn, below]
    by_cases container : (Node.container layer props children).strategy rules = .container
    · simp [container, thinned]
    · simp [container, thinned]
  | .text layer content => rfl
  | .shape layer kind => rfl

theorem annotateAll_thinned (lenient : Layer.Lenient keeps) (rules : RuleSet) (flow : Bool) :
    (children : List (Node α)) → annotateAll rules flow (thinnedAll keeps children) =
      (thinnedAll keeps (annotateAll rules flow children).1, (annotateAll rules flow children).2)
  | [] => rfl
  | child :: rest => by
    have others := annotateAll_thinned lenient rules flow rest
    by_cases live : child.isLive = true
    · have own := annotateNode_thinned lenient rules flow false child
      have live' : (child.thinned keeps).isLive = true := by rwa [Node.isLive_thinned]
      have live'' := (isLive_annotateNode rules flow false child).trans live
      rw [Node.thinnedAll_of_isLive lenient live, annotateAll_cons, annotateAll_cons, if_pos live',
        if_pos live', if_pos live, if_pos live, own, others, Node.thinnedAll_of_isLive lenient live'']
    · have hidden : child.isLive = false := by simpa using live
      rw [annotateAll_hidden rules flow rest hidden, thinnedAll, thinnedAll]
      split
      · rw [annotateAll_hidden rules flow _ (by rwa [Node.isLive_thinned]), others]
      · exact others

end

theorem pendingJobs_thinned (lenient : Layer.Lenient keeps) (root : Node α) :
    pendingJobs (root.thinned keeps) = pendingJobs root := by
  have own (node : Node α) : openJobs (node.thinned keeps) = openJobs node := by
    simp only [openJobs, pictures, Node.layer_thinned]
  simp only [pendingJobs, Node.emitted_thinned lenient, List.flatMap_map, own]

theorem requiredHashes_thinned (lenient : Layer.Lenient keeps) (root : Node α) :
    requiredHashes (root.thinned keeps) = requiredHashes root := by
  have own (node : Node α) : pictures (node.thinned keeps) = pictures node := by
    simp only [pictures, Node.layer_thinned]
  simp only [requiredHashes, Node.emitted_thinned lenient, List.flatMap_map, own]

end Plan

theorem Node.snapshot_thinned (lenient : Layer.Lenient keeps) (root : Node α) :
    (root.thinned keeps).snapshot = root.snapshot := by
  simp only [snapshot, backwards_thinned lenient, List.foldl_map, layer_thinned, snapshotEntry_thinned lenient]

namespace Diff

theorem of_thinned (lenient : Layer.Lenient keeps) (root : Node α) (previous : Option (Snapshot α)) :
    Diff.of (root.thinned keeps) previous = Diff.of root previous := by
  have own (diff : Diff) (node : Node α) :
      step previous diff (node.thinned keeps) = step previous diff node := by
    simp only [step, Node.layer_thinned, Node.fingerprint_thinned lenient]
  simp only [Diff.of, Node.backwards_thinned lenient, List.foldl_map, own, List.any_map, Function.comp_def,
    Node.layer_thinned]

omit [Scalar α] in
theorem reusedAll_hidden (reuse : List (String × String)) (child : Node α) (rest : List (Node α))
    (hidden : child.isLive = false) :
    (applyReuseAll reuse (child :: rest)).2 = (applyReuseAll reuse rest).2 := by
  rw [applyReuseAll, hidden]
  exact Nat.zero_add _

mutual

theorem reused_thinned (lenient : Layer.Lenient keeps) (reuse : List (String × String)) : (node : Node α) →
    (applyReuse reuse (node.thinned keeps)).2 = (applyReuse reuse node).2
  | .container layer props children => by
    have stood : (applyReuseAll reuse (stoodIn children (thinnedAll keeps children))).2 =
        (applyReuseAll reuse (thinnedAll keeps children)).2 :=
      Node.view_stoodIn (fun nodes => (applyReuseAll reuse nodes).2) (reusedAll_hidden reuse standIn [] rfl)
        children _
    rw [thinned, applyReuse, applyReuse]
    exact congrArg (_ + ·) (stood.trans (reusedAll_thinned lenient reuse children))
  | .text layer content => rfl
  | .shape layer kind => rfl

theorem reusedAll_thinned (lenient : Layer.Lenient keeps) (reuse : List (String × String)) :
    (children : List (Node α)) →
    (applyReuseAll reuse (thinnedAll keeps children)).2 = (applyReuseAll reuse children).2
  | [] => rfl
  | child :: rest => by
    have others := reusedAll_thinned lenient reuse rest
    by_cases live : child.isLive = true
    · rw [Node.thinnedAll_of_isLive lenient live, applyReuseAll, applyReuseAll]
      simp only [live, Node.isLive_thinned, if_true, others, reused_thinned lenient reuse child]
    · have hidden : child.isLive = false := by simpa using live
      rw [reusedAll_hidden reuse child rest hidden, ← others]
      exact Node.view_thinnedAll (fun nodes => (applyReuseAll reuse nodes).2) (reusedAll_hidden reuse) hidden
        rest

end

end Diff

namespace Placed

mutual

/-- Every node in its place, thinned. -/
def thinned (keeps : Layer α → Bool) : Placed α → Placed α
  | .mk node notice children => .mk (node.thinned keeps) notice (thinnedAll keeps children)

def thinnedAll (keeps : Layer α → Bool) : List (Placed α) → List (Placed α)
  | [] => []
  | placed :: rest => placed.thinned keeps :: thinnedAll keeps rest

end
end Placed

namespace Placement

theorem isLifted_thinned (rules : RuleSet) (host : Node α) (canLift : Bool) (child : Node α) :
    isLifted rules (host.thinned keeps) canLift (child.thinned keeps) = isLifted rules host canLift child := by
  simp only [isLifted, Node.layer_thinned, Node.clips_thinned, Node.layout?_thinned]

theorem notice?_thinned (rules : RuleSet) (host child : Node α) :
    notice? rules (host.thinned keeps) (child.thinned keeps) = notice? rules host child := by
  simp only [notice?, Node.layer_thinned, Node.clips_thinned, Node.layout?_thinned]

theorem map_moved_thinned (dx dy : α) (nodes : List (Node α)) :
    (nodes.map (thinned keeps)).map (Node.moved dx dy) =
      (nodes.map (Node.moved dx dy)).map (thinned keeps) := by
  rw [List.map_map, List.map_map]
  exact List.map_congr_left fun node _ => Node.moved_thinned dx dy node

/-- Hidden nodes have no part in what is placed where: the same run places and lifts without them. -/
theorem Lifting.thinned (lenient : Layer.Lenient keeps) {rules : RuleSet} {host : Site α} {canLift : Bool}
    {queue waiting lifted : List (Site α)} {plots : List (Plot α)}
    (run : Lifting rules host canLift queue waiting plots lifted) :
    outcome rules (host.node.thinned keeps) canLift ((queue.map Site.node).map (Node.thinned keeps))
        ((waiting.map Site.node).map (Node.thinned keeps)) =
      (Placed.thinnedAll keeps (Plot.placedAll plots), (lifted.map Site.node).map (Node.thinned keeps)) := by
  induction run with
  | done =>
    rw [List.map_nil, List.map_nil, outcome, settleAll]
    rfl
  | turn rest ih =>
    simp only [List.map_cons, List.map_nil, outcome_turn] at ih ⊢
    exact ih
  | lift cut rest ih =>
    simp only [List.map_cons]
    rw [outcome_lift ((isLifted_thinned ..).trans cut), ih]
  | leaf stays leaf rest ih =>
    simp only [List.map_cons]
    rw [outcome_stay ((isLifted_thinned ..).trans stays), notice?_thinned, Node.layout?_thinned,
      settle_leaf (by rwa [Node.strategy_thinned])]
    simp only [List.append_nil, ih]
    rfl
  | @frame _ _ _ _ host next queue out children stays container inner rest within ih =>
    rw [List.map_nil, List.map_nil, Site.map_node_below] at within
    rw [List.map_append, Site.map_node_moved, List.map_append] at ih
    simp only [List.map_cons]
    rw [outcome_stay ((isLifted_thinned ..).trans stays), notice?_thinned, Node.layout?_thinned,
      settle_container ((Node.strategy_thinned ..).trans container), Node.liveChildren_thinned lenient, within,
      Node.layer_thinned, Site.x_node, Site.y_node]
    simp only [map_moved_thinned, ih]
    rfl

theorem outcome_thinned (lenient : Layer.Lenient keeps) (rules : RuleSet) (host : Node α) (canLift : Bool)
    (queue waiting : List (Node α)) :
    outcome rules (host.thinned keeps) canLift (queue.map (Node.thinned keeps))
        (waiting.map (Node.thinned keeps)) =
      (Placed.thinnedAll keeps (outcome rules host canLift queue waiting).1,
        (outcome rules host canLift queue waiting).2.map (Node.thinned keeps)) := by
  have starts (nodes : List (Node α)) : (nodes.map (Site.start [])).map Site.node = nodes := by
    rw [List.map_map]
    exact (List.map_congr_left fun node _ => Site.node_start [] node).trans (List.map_id nodes)
  obtain ⟨plots, lifted, run, same⟩ := Lifting.ends rules (Site.start [] host) canLift
    (queue.map (Site.start [])) (waiting.map (Site.start []))
  have inert := run.thinned lenient
  rw [starts, starts, Site.node_start] at same inert
  rwa [same]

/-- The same of a whole tree. -/
theorem settle_thinned (lenient : Layer.Lenient keeps) (rules : RuleSet) (canLift : Bool)
    (notice : Option Warning) (node : Node α) :
    (settle rules canLift (node.thinned keeps) notice).1.1 =
      (settle rules canLift node notice).1.1.thinned keeps := by
  by_cases container : node.strategy rules = .container
  · have inside := outcome_thinned lenient rules node canLift [] node.liveChildren
    rw [List.map_nil] at inside
    rw [settle_container ((Node.strategy_thinned ..).trans container), settle_container container,
      Node.liveChildren_thinned lenient, inside]
    rfl
  · rw [settle_leaf (by rwa [Node.strategy_thinned]), settle_leaf container]
    rfl

end Placement

namespace Assembly

theorem paint_thinned (config : TextConfig) (classification : Classification α) (node : Node α) :
    paint config classification (node.thinned keeps) = paint config classification node := by
  simp only [paint, Node.content?_thinned, Node.layer_thinned]

mutual

theorem emit_thinned (rules : RuleSet) (config : TextConfig) (slot : Slot α) : (placed : Placed α) →
    emit rules config slot (placed.thinned keeps) = emit rules config slot placed
  | .mk node notice children => by
    have frame : ParentFrame.of (node.thinned keeps) = ParentFrame.of node := by
      simp only [ParentFrame.of, Node.layout?_thinned, Node.layer_thinned]
    have geometry : nodeGeometry rules (node.thinned keeps) slot = nodeGeometry rules node slot := by
      simp only [nodeGeometry, Node.classify_thinned, Node.layer_thinned]
    have flow : flowItems (node.thinned keeps) = flowItems node := by
      simp only [flowItems, Node.layout?_thinned, Node.layer_thinned]
    have leaf : leafItem rules (node.thinned keeps) = leafItem rules node := by
      funext properties decorations records
      simp only [leafItem, Node.classify_thinned, Node.layer_thinned]
    have apart : keepsApart rules (node.thinned keeps) = keepsApart rules node := by
      simp only [keepsApart, Node.layout?_thinned, Node.layer_thinned]
    have around : frameItem rules (node.thinned keeps) = frameItem rules node := by
      funext properties decorations background flow emitted records next
      rw [frameItem, frameItem, apart, Node.classify_thinned, Node.layer_thinned, Node.clips_thinned]
    have below := emitAll_thinned rules config (.of node) 1 0 children
    rw [Placed.thinned, emit, emit]
    simp only [geometry, Node.classify_thinned, paint_thinned, Node.strategy_thinned, frame, below, leaf,
      around, flow, Node.layer_thinned]

theorem emitAll_thinned (rules : RuleSet) (config : TextConfig) (frame : ParentFrame α) (zIndex order : Int) :
    (placed : List (Placed α)) →
      emitAll rules config frame zIndex order (Placed.thinnedAll keeps placed) =
        emitAll rules config frame zIndex order placed
  | [] => by rw [Placed.thinnedAll]
  | .mk node notice children :: rest => by
    have own (slot : Slot α) := emit_thinned rules config slot (.mk node notice children)
    have others (zIndex order : Int) := emitAll_thinned rules config frame zIndex order rest
    rw [Placed.thinnedAll, emitAll, emitAll]
    simp only [own, others]
    simp only [Placed.thinned, Placed.notice, Placed.node, Node.layer_thinned]

end

/-- A tree and the thinned tree become the same instances. -/
theorem assemble_thinned (lenient : Layer.Lenient keeps) (rules : RuleSet) (config : TextConfig)
    (root : Node α) : assemble rules config (root.thinned keeps) = assemble rules config root := by
  rw [assemble, assemble, Placement.settle_thinned lenient]
  simp only [emit_thinned, rootSlot, Node.layer_thinned]

end Assembly

namespace Compilation

/-- What the passes after the stroke pass make of a tree. -/
structure Results (α : Type) where
  /-- The warnings of planning. -/
  warnings : List Warning
  diff : Diff
  /-- How many pictures are carried over. -/
  reused : Nat
  jobs : List UploadJob
  hashes : List String
  /-- The instances and all warnings, or why there are none. -/
  assembled : Except Failure (Arena α × Diagnostics)
  document : Except Failure String
  snapshot : Snapshot α

/-- Runs the passes after the stroke pass in their order, with assets from any table. -/
def results (rules : RuleSet) (config : TextConfig) (previous : Option (Snapshot α))
    (lookup : String → Option String) (root : Node α) : Results α :=
  let (planned, warnings) := Plan.annotate rules root
  let diff := Diff.of planned previous
  let (carried, reused) := Diff.applyReuse diff.reuse planned
  let filled := Plan.applyAssets lookup carried
  let assembled := (Assembly.assemble rules config filled).run ⟨warnings, []⟩
  { warnings
    diff
    reused
    jobs := Plan.pendingJobs carried
    hashes := Plan.requiredHashes carried
    assembled
    document := assembled.map fun made => made.1.document
    snapshot := filled.snapshot }

/-- These are the passes of a run. -/
theorem results_of_plan {config : Config α} {previous : Option (Snapshot α)} {manifest : Manifest α}
    {planned : PlannedDesign α} (plan : PlannedDesign.of config previous manifest = .ok planned) :
    ∃ root, manifest.root = some root ∧ ∀ lookup : String → Option String,
      let assembled := (Assembly.assemble planned.rules config.text (planned.resolved lookup)).run
        ⟨planned.warnings, []⟩
      results planned.rules config.text previous lookup
          (Stroke.resolve config.stroke (planned.rules.applyStructural root)).1 =
        { warnings := planned.warnings
          diff := planned.diff
          reused := reusedOf planned
          jobs := planned.jobs
          hashes := Plan.requiredHashes planned.carried
          assembled
          document := assembled.map fun made => made.1.document
          snapshot := (planned.resolved lookup).snapshot } := by
  obtain ⟨root, found, _, passes⟩ := PlannedDesign.of_eq_ok plan
  have compared := (PlannedDesign.of_other plan).1
  refine ⟨root, found, fun lookup => ?_⟩
  simp only [results, ← passes, ← compared, Diff.applyReuse_eq]
  rw [← PlannedDesign.applyAssets_carried]
  rfl

/-- The passes tell no tree from the thinned one. -/
theorem results_thinned (lenient : Layer.Lenient keeps) (rules : RuleSet) (config : TextConfig)
    (previous : Option (Snapshot α)) (lookup : String → Option String) (tree : Node α) :
    results rules config previous lookup (tree.thinned keeps) = results rules config previous lookup tree := by
  have planned := Plan.annotateNode_thinned lenient rules false true tree
  unfold results Plan.annotate
  generalize Plan.annotateNode rules false true tree = noted at planned ⊢
  obtain ⟨root, warnings⟩ := noted
  simp only [planned, Diff.of_thinned lenient, Diff.reused_thinned lenient, Diff.applyReuse_eq,
    Plan.applyAssets_eq, Node.revise_thinned lenient (Diff.refills_carrying _).life,
    Node.revise_thinned lenient Plan.refills_filling.life, Plan.pendingJobs_thinned lenient,
    Plan.requiredHashes_thinned lenient, Assembly.assemble_thinned lenient, Node.snapshot_thinned lenient]

/-- Nor from the one without the copies, if that leaves some children wherever there are any. -/
theorem results_surviving {tree : Node α} (surviving : tree.Surviving) (rules : RuleSet) (config : TextConfig)
    (previous : Option (Snapshot α)) (lookup : String → Option String) :
    results rules config previous lookup tree.pruned = results rules config previous lookup tree := by
  have lenient : Layer.Lenient fun layer : Layer α => !layer.annotations.duplicate := fun layer live => by
    rw [Layer.isLive, Bool.and_eq_true] at live
    exact live.2
  rw [← surviving.thinned, results_thinned lenient]

/-- For whatever rules, thresholds, previous run and assets, all that a run makes of a design of which
nothing is noted yet it also makes of the tree without the copies that the stroke pass marks. -/
theorem copies_inert {root : Node Float} (fresh : root.Fresh) (rules : RuleSet)
    (thresholds : StrokeThresholds Float) (config : TextConfig) (previous : Option (Snapshot Float))
    (lookup : String → Option String) :
    results rules config previous lookup (Stroke.resolve thresholds (rules.applyStructural root)).1.pruned =
      results rules config previous lookup (Stroke.resolve thresholds (rules.applyStructural root)).1 :=
  results_surviving (Stroke.surviving_resolve thresholds _ (rules.fresh_applyStructural fresh)) rules config
    previous lookup

/-! Letters one behind the other. -/

open FlatNode (flattening badge letters fresh_letters collapses_letters)

def markers : RuleSet := ⟨"[flatten]", [], []⟩

/-- A badge after the stroke pass. -/
def stacked : Node Float :=
  (Stroke.resolve flattening.stroke (markers.applyStructural (badge "1" false letters))).1

/-- Five letters are gone from the badge, and nobody sees it. -/
theorem letters_inert : (badge "1" false letters).Fresh ∧ stacked.size = 7 ∧ stacked.pruned.size = 2 ∧
    results markers .default none (fun _ => some "7") stacked.pruned =
      results markers .default none (fun _ => some "7") stacked := by
  have unruled : markers.applyStructural (badge "1" false letters) = badge "1" false letters := rfl
  obtain ⟨stroke, found⟩ := collapses_letters
  refine ⟨fresh_letters, ?_, ?_, copies_inert fresh_letters markers flattening.stroke .default none _⟩
  · rw [stacked, unruled, badge, Stroke.resolve, found]
    rfl
  · rw [stacked, unruled, badge, Stroke.resolve, found]
    rfl

end Compilation

end DesignCompiler
