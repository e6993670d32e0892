import DesignCompiler.Proofs.Difference
import DesignCompiler.Proofs.SharedAssets
import DesignCompiler.Proofs.StrokeCollapse

/-!
What a run counts as it goes: the pictures that reuse fills, which are as many as there are assets to
reuse, and the copies that the stroke pass marks, which are marked in the end as well.
-/
namespace DesignCompiler

variable {α : Type}

namespace Diff

/-- Reuse fills the picture that stands for the node of a layer. -/
def isFilled (reuse : List (String × String)) (layer : Layer α) : Bool :=
  (reuse.lookup layer.id).isSome && layer.annotations.primary.any (·.asset.isNone)

theorem isFilled_iff {reuse : List (String × String)} {layer : Layer α} :
    isFilled reuse layer = true ↔ (reuse.lookup layer.id).isSome = true ∧
      ∃ whole, layer.annotations.primary = some whole ∧ whole.asset = none := by
  rw [isFilled, Bool.and_eq_true, Option.any_eq_true]
  simp only [Option.isNone_iff_eq_none]

theorem reuseNotes_snd (asset : String) (notes : Annotations α) :
    (reuseNotes asset notes).2 = if notes.primary.any (·.asset.isNone) then 1 else 0 := by
  obtain ⟨duplicate, stroke, raster, background, shadow, native, bounds⟩ := notes
  rcases raster with _ | ⟨hash, _ | held⟩
  · rcases background with _ | ⟨hash, _ | held⟩ <;> rfl
  · rfl
  · rfl

theorem reuseLayer_snd (reuse : List (String × String)) (layer : Layer α) :
    (reuseLayer reuse layer).2 = if isFilled reuse layer then 1 else 0 := by
  rw [reuseLayer, isFilled]
  cases reuse.lookup layer.id with
  | none => rfl
  | some asset => exact reuseNotes_snd asset layer.annotations

mutual

/-- Reuse counts the live nodes whose pictures it fills. -/
theorem applyReuse_snd (reuse : List (String × String)) : (node : Node α) →
    (applyReuse reuse node).2 = (Plan.emitted node).countP (isFilled reuse ·.layer)
  | .container layer props children => by
    rw [Plan.emitted, List.countP_cons, Nat.add_comm, ← applyReuseAll_snd reuse children]
    exact congrArg (· + _) (reuseLayer_snd reuse layer)
  | .text layer content => (reuseLayer_snd reuse layer).trans List.countP_singleton.symm
  | .shape layer kind => (reuseLayer_snd reuse layer).trans List.countP_singleton.symm

theorem applyReuseAll_snd (reuse : List (String × String)) : (children : List (Node α)) →
    (applyReuseAll reuse children).2 = (Plan.emittedAll children).countP (isFilled reuse ·.layer)
  | [] => rfl
  | child :: rest => by
    rw [applyReuseAll, Plan.emittedAll]
    by_cases live : child.isLive = true
    · simp only [live, if_true, List.countP_append, applyReuse_snd reuse child, applyReuseAll_snd reuse rest]
    · simp only [live, if_false, Bool.false_eq_true, Nat.zero_add, applyReuseAll_snd reuse rest]

end

/-- If every asset to reuse is for the id of just one live node, and that has an open picture to stand for
it, then as many pictures are filled as there are assets to reuse. -/
theorem length_reuse {reuse : List (String × String)} {root : Node α}
    (keys : (reuse.map (·.1)).Nodup) (distinct : root.liveIds.Nodup)
    (owned : ∀ id ∈ reuse.map (·.1), ∃ node ∈ Plan.emitted root, node.layer.id = id ∧
      ∃ whole, node.layer.annotations.primary = some whole ∧ whole.asset = none) :
    (applyReuse reuse root).2 = reuse.length := by
  have filled : (((Plan.emitted root).filter (isFilled reuse ·.layer)).map (·.layer.id)).Nodup :=
    distinct.sublist (List.filter_sublist.map _)
  have same : (((Plan.emitted root).filter (isFilled reuse ·.layer)).map (·.layer.id)).Perm
      (reuse.map (·.1)) := by
    refine (List.perm_ext_iff_of_nodup filled keys).mpr fun id => ?_
    rw [List.mem_map]
    constructor
    · rintro ⟨node, member, rfl⟩
      exact isSome_lookup.mp (isFilled_iff.mp (List.mem_filter.mp member).2).1
    · intro listed
      obtain ⟨node, live, rfl, open'⟩ := owned id listed
      exact ⟨node, List.mem_filter.mpr ⟨live, isFilled_iff.mpr ⟨isSome_lookup.mpr listed, open'⟩⟩, rfl⟩
  rw [applyReuse_snd, List.countP_eq_length_filter]
  simpa using same.length_eq

end Diff

namespace Node

/-- How many nodes of a tree are marked as copies, hidden ones included. -/
def copies (node : Node α) : Nat := node.preorder.countP (·.layer.annotations.duplicate)

/-- The same of some trees. -/
def copiesAll (nodes : List (Node α)) : Nat := (preorders nodes).countP (·.layer.annotations.duplicate)

theorem copies_eq (node : Node α) :
    node.copies = copiesAll node.children + if node.layer.annotations.duplicate then 1 else 0 := by
  rw [copies, copiesAll, preorder_eq, preorders_eq, List.countP_cons]

theorem copiesAll_cons (child : Node α) (rest : List (Node α)) :
    copiesAll (child :: rest) = child.copies + copiesAll rest := by
  rw [copiesAll, preorders, List.countP_append]
  rfl

variable {change : Layer α → Annotations α}

mutual

/-- No mark is made or removed by a change that leaves all nodes live that are. -/
theorem copies_revise (keeps : KeepsLife change) : (node : Node α) → (node.revise change).copies = node.copies
  | .container layer props children => by
    rw [copies_eq, children_revise, layer_revise, Layer.revised, keeps, copies_eq]
    exact congrArg (· + _) (copiesAll_revise keeps children)
  | .text layer content => by
    rw [copies_eq, children_revise, layer_revise, Layer.revised, keeps, copies_eq]
    rfl
  | .shape layer kind => by
    rw [copies_eq, children_revise, layer_revise, Layer.revised, keeps, copies_eq]
    rfl

theorem copiesAll_revise (keeps : KeepsLife change) : (children : List (Node α)) →
    copiesAll (reviseAll change children) = copiesAll children
  | [] => rfl
  | child :: rest => by
    rw [reviseAll, copiesAll_cons, copiesAll_cons, copiesAll_revise keeps rest]
    split
    · rw [copies_revise keeps child]
    · rfl

end

end Node

variable [Scalar α]

namespace Plan

mutual

/-- Planning makes and removes no mark. -/
theorem copies_annotateNode (rules : RuleSet) (parentFlow isRoot : Bool) : (node : Node α) →
    (annotateNode rules parentFlow isRoot node).1.copies = node.copies
  | .container layer props children => by
    rw [annotateNode_container, Node.copies_eq, Node.copies_eq]
    refine congrArg (· + _) ?_
    rw [Node.children]
    split
    · exact copies_annotateAll rules props.layout.isSome children
    · rfl
  | .text layer content => by
    rw [Node.copies_eq, layer_annotateNode, Node.copies_eq]
    rfl
  | .shape layer kind => by
    rw [Node.copies_eq, layer_annotateNode, Node.copies_eq]
    rfl

theorem copies_annotateAll (rules : RuleSet) (flow : Bool) : (children : List (Node α)) →
    Node.copiesAll (annotateAll rules flow children).1 = Node.copiesAll children
  | [] => rfl
  | child :: rest => by
    rw [annotateAll_cons, Node.copiesAll_cons, Node.copiesAll_cons, copies_annotateAll rules flow rest]
    split
    · rw [copies_annotateNode rules flow false child]
    · rfl

end

end Plan

namespace PlannedDesign

variable {config : Config α} {previous : Option (Snapshot α)} {manifest : Manifest α}
  {planned : PlannedDesign α} {lookup : String → Option String}

/-- The report of the stroke pass comes from the tree that is planned. -/
theorem stroke_of_ok (plan : of config previous manifest = .ok planned) :
    ∃ root, manifest.root = some root ∧
      planned.stroke = (Stroke.resolve config.stroke (planned.rules.applyStructural root)).2 ∧
      planned.root = (Plan.annotate planned.rules
        (Stroke.resolve config.stroke (planned.rules.applyStructural root)).1).1 := by
  obtain ⟨root, found, _, passes⟩ := of_eq_ok plan
  refine ⟨root, found, ?_, congrArg Prod.fst passes⟩
  rw [of] at plan
  cases rules : config.rules with
  | error fault => simp [rules] at plan
  | ok rules' =>
    simp only [rules, Manifest.takeRoot, found, bind, Except.bind, pure, Except.pure,
      Except.ok.injEq] at plan
    subst plan
    rfl

/-- Of a design about which nothing is noted, the report counts the nodes that are marked in the end. -/
theorem duplicates_eq [Scalar.Discerning α] (plan : of config previous manifest = .ok planned)
    (fresh : ∀ root, manifest.root = some root → root.Fresh) :
    planned.stroke.duplicates = (planned.resolved lookup).copies := by
  obtain ⟨root, found, report, same⟩ := stroke_of_ok plan
  have counted := congrArg Stroke.Report.duplicates (Stroke.tally_resolve config.stroke
    (planned.rules.applyStructural root) (RuleSet.fresh_applyStructural planned.rules (fresh root found)))
  rw [report, ← counted, resolved, Node.copies_revise (planned.refills_filled lookup).life, same,
    Plan.annotate, Plan.copies_annotateNode]
  rfl

end PlannedDesign
end DesignCompiler
