import DesignCompiler.Compilation
import DesignCompiler.Proofs.Reading
import Mathlib.Data.List.Basic

/-!
The passes before planning. They take live nodes away and mark texts, but bring no node in and repeat
none, and they assign no pictures.
-/
namespace DesignCompiler

variable {α : Type}

/-- The layer without the marks for imitated outlines. -/
def Layer.unmarked (layer : Layer α) : Layer α :=
  { layer with annotations :=
    { layer.annotations with duplicate := false, inferredStroke := none } }

namespace Plan

/-- The live nodes of a tree by their layers, whatever their marks. -/
def outline (node : Node α) : List (Layer α) := (emitted node).map (·.layer.unmarked)

def outlineAll (nodes : List (Node α)) : List (Layer α) := (emittedAll nodes).map (·.layer.unmarked)

theorem outlineAll_cons (child : Node α) (rest : List (Node α)) :
    outlineAll (child :: rest) =
      (if child.isLive then outline child else []) ++ outlineAll rest := by
  rw [outlineAll, emittedAll]
  split <;> simp [outline, outlineAll]

theorem outline_container (layer : Layer α) (props : ContainerProps α) (children : List (Node α)) :
    outline (.container layer props children) = layer.unmarked :: outlineAll children := by
  rw [outline, emitted, List.map_cons]
  rfl

theorem outlineAll_sublist {some all : List (Node α)} (fewer : some.Sublist all) :
    (outlineAll some).Sublist (outlineAll all) := by
  induction fewer with
  | slnil => exact .refl _
  | cons child _ ih =>
    rw [outlineAll_cons]
    exact ih.trans (List.sublist_append_right _ _)
  | cons_cons child _ ih =>
    rw [outlineAll_cons, outlineAll_cons]
    exact (List.Sublist.refl _).append ih

/-- The ids of the live nodes can be read off the outline. -/
theorem ids_eq_outline (node : Node α) :
    (emitted node).map (·.layer.id) = (outline node).map (·.id) := by
  rw [outline, List.map_map]
  rfl

end Plan

namespace RuleSet

open Plan (outline outlineAll outlineAll_cons outline_container outlineAll_sublist)

theorem dedupe_sublist (seen : List String) (children : List (Node α)) :
    (dedupe seen children).Sublist children := by
  induction children generalizing seen with
  | nil => exact .refl _
  | cons child rest ih =>
    rw [dedupe]
    split
    · exact (ih _).cons_cons _
    · split
      · exact (ih _).cons _
      · exact (ih _).cons_cons _

theorem outlineAll_centered (children : List (Node α)) :
    outlineAll (children.map centered) = outlineAll children := by
  induction children with
  | nil => rfl
  | cons child rest ih =>
    have own : outline (centered child) = outline child := by cases child <;> rfl
    have live : (centered child).isLive = child.isLive := by cases child <;> rfl
    rw [List.map_cons, outlineAll_cons, outlineAll_cons, own, live, ih]

variable (set : RuleSet)

theorem layer_applyTextRules (node : Node α) : (set.applyTextRules node).layer = node.layer := by
  cases node <;> simp [applyTextRules, Node.layer]

mutual

theorem outline_applyTextRules :
    (node : Node α) → (outline (set.applyTextRules node)).Sublist (outline node)
  | .container layer props children => by
    have changed := outlineAll_applyTextRules children
    rw [applyTextRules, outline_container, outline_container]
    refine List.Sublist.cons_cons _ ?_
    have kept : (outlineAll (if set.dedupesText layer then dedupe [] (set.applyTextRulesAll children)
        else set.applyTextRulesAll children)).Sublist (outlineAll children) := by
      split
      · exact (outlineAll_sublist (dedupe_sublist _ _)).trans changed
      · exact changed
    split
    · rw [outlineAll_centered]
      exact kept
    · exact kept
  | .text layer content => .refl _
  | .shape layer kind => .refl _

theorem outlineAll_applyTextRules : (children : List (Node α)) →
    (outlineAll (set.applyTextRulesAll children)).Sublist (outlineAll children)
  | [] => .refl _
  | child :: rest => by
    have live : (set.applyTextRules child).isLive = child.isLive := by
      rw [Node.isLive, layer_applyTextRules, Node.isLive]
    rw [applyTextRulesAll, outlineAll_cons, outlineAll_cons, live]
    refine List.Sublist.append ?_ (outlineAll_applyTextRules rest)
    split
    · exact outline_applyTextRules child
    · exact .refl _

end

theorem outline_applyStructural (node : Node α) :
    (outline (set.applyStructural node)).Sublist (outline node) := by
  rw [applyStructural]
  split
  · exact .refl _
  · exact set.outline_applyTextRules node

theorem fresh_centered {node : Node α} (fresh : node.Fresh) : (centered node).Fresh := by
  cases node with
  | text layer content => exact Node.fresh_iff.mpr ⟨fresh.own, fun _ member => nomatch member⟩
  | container layer props children => exact fresh
  | shape layer kind => exact fresh

mutual

theorem fresh_applyTextRules : (node : Node α) → node.Fresh → (set.applyTextRules node).Fresh
  | .container layer props children, fresh => by
    have changed := fresh_applyTextRulesAll children fun child member => fresh.below member
    have kept : ∀ child ∈ (if set.dedupesText layer then dedupe [] (set.applyTextRulesAll children)
        else set.applyTextRulesAll children), child.Fresh := by
      intro child member
      split at member
      · exact changed child ((dedupe_sublist [] _).subset member)
      · exact changed child member
    rw [applyTextRules]
    refine Node.fresh_iff.mpr ⟨fresh.own, ?_⟩
    intro child member
    rw [Node.children] at member
    split at member
    · obtain ⟨inner, held, rfl⟩ := List.mem_map.mp member
      exact fresh_centered (kept inner held)
    · exact kept child member
  | .text _ _, fresh | .shape _ _, fresh => fresh

theorem fresh_applyTextRulesAll : (children : List (Node α)) → (∀ child ∈ children, child.Fresh) →
    ∀ child ∈ set.applyTextRulesAll children, child.Fresh
  | [], _ => fun _ member => nomatch member
  | child :: rest, fresh => by
    rw [List.forall_mem_cons] at fresh
    rw [applyTextRulesAll]
    exact List.forall_mem_cons.mpr
      ⟨fresh_applyTextRules child fresh.1, fresh_applyTextRulesAll rest fresh.2⟩

end

/-- The rules note nothing. -/
theorem fresh_applyStructural {node : Node α} (fresh : node.Fresh) : (set.applyStructural node).Fresh := by
  rw [applyStructural]
  split
  · exact fresh
  · exact set.fresh_applyTextRules node fresh

end RuleSet

namespace Stroke

open Plan (outline outlineAll outlineAll_cons outline_container)

variable [Scalar α]

/-- A child with the marks of all groups on it. -/
def marked (found : List (Collapse α)) (position : Nat) (node : Node α) : Node α :=
  found.foldl (fun node collapse => collapse.applyTo position node) node

omit [Scalar α] in
theorem marked_cons (collapse : Collapse α) (rest : List (Collapse α)) (position : Nat) (node : Node α) :
    marked (collapse :: rest) position node = marked rest position (collapse.applyTo position node) := rfl

omit [Scalar α] in
/-- A mark is all that one group changes. -/
theorem outline_applyTo (collapse : Collapse α) (position : Nat) (node : Node α) :
    outline (collapse.applyTo position node) = outline node := by
  rw [Collapse.applyTo]
  split
  · cases node <;> rfl
  · split
    · cases node <;> rfl
    · rfl

omit [Scalar α] in
theorem isLive_applyTo (collapse : Collapse α) (position : Nat) (node : Node α) :
    (collapse.applyTo position node).isLive = (node.isLive && !collapse.duplicates.contains position) := by
  rw [Collapse.applyTo]
  split
  · rename_i gone
    rw [gone, Bool.not_true, Bool.and_false]
    cases node <;> simp [Node.isLive, Layer.isLive, Node.annotate, Node.withLayer, Node.layer]
  · rename_i kept
    rw [Bool.not_eq_true] at kept
    rw [kept, Bool.not_false, Bool.and_true]
    split
    · cases node <;> rfl
    · rfl

omit [Scalar α] in
theorem outline_marked (found : List (Collapse α)) (position : Nat) (node : Node α) :
    outline (marked found position node) = outline node := by
  induction found generalizing node with
  | nil => rfl
  | cons collapse rest ih => exact (ih _).trans (outline_applyTo collapse position node)

omit [Scalar α] in
theorem isLive_marked (found : List (Collapse α)) (position : Nat) (node : Node α) :
    (marked found position node).isLive =
      (node.isLive && !(found.flatMap (·.duplicates)).contains position) := by
  induction found generalizing node with
  | nil => simp [marked]
  | cons collapse rest ih =>
    rw [marked_cons, ih, isLive_applyTo, List.flatMap_cons, List.contains_append, Bool.not_or, Bool.and_assoc]

omit [Scalar α] in
theorem isLive_of_marked {found : List (Collapse α)} {position : Nat} {node : Node α}
    (live : (marked found position node).isLive = true) : node.isLive = true := by
  rw [isLive_marked, Bool.and_eq_true] at live
  exact live.1

/-- A child that stays live is resolved before it is marked; any other one is only marked. -/
theorem resolveAll_cons (thresholds : StrokeThresholds α) (found : List (Collapse α)) (position : Nat)
    (child : Node α) (rest : List (Node α)) :
    (resolveAll thresholds found position (child :: rest)).1 =
      marked found position
          (if (marked found position child).isLive then (resolve thresholds child).1 else child) ::
        (resolveAll thresholds found (position + 1) rest).1 := by
  rw [resolveAll]
  by_cases live : (marked found position child).isLive = true
  · rw [if_pos live]
    exact congrArg Prod.fst (if_pos live)
  · rw [if_neg live]
    exact congrArg Prod.fst (if_neg live)

mutual

theorem outline_resolve (thresholds : StrokeThresholds α) :
    (node : Node α) → (outline (resolve thresholds node).1).Sublist (outline node)
  | .container layer props children => by
    rw [resolve, outline_container, outline_container]
    exact (outlineAll_resolve thresholds _ 0 children).cons_cons _
  | .text layer content => .refl _
  | .shape layer kind => .refl _

theorem outlineAll_resolve (thresholds : StrokeThresholds α) (found : List (Collapse α))
    (position : Nat) : (children : List (Node α)) →
      (outlineAll (resolveAll thresholds found position children).1).Sublist (outlineAll children)
  | [] => .refl _
  | child :: rest => by
    have others := outlineAll_resolve thresholds found (position + 1) rest
    rw [resolveAll_cons, outlineAll_cons, outlineAll_cons]
    by_cases live : (marked found position child).isLive = true
    · rw [if_pos live, if_pos (isLive_of_marked live), outline_marked]
      refine List.Sublist.append ?_ others
      split
      · exact outline_resolve thresholds child
      · exact List.nil_sublist _
    · rw [if_neg live, if_neg live]
      exact (List.nil_append _).symm ▸ others.trans (List.sublist_append_right _ _)

end

end Stroke

namespace Plan

variable [Scalar α]

/-- Planning a container notes what it needs and goes on below, unless all of it is one picture. -/
theorem annotateNode_container (rules : RuleSet) (parentFlow isRoot : Bool) (layer : Layer α)
    (props : ContainerProps α) (children : List (Node α)) :
    (annotateNode rules parentFlow isRoot (.container layer props children)).1 =
      .container { layer with annotations :=
          (notes rules parentFlow isRoot (.container layer props children)).1 } props
        (if (Node.container layer props children).strategy rules = .container then
          (annotateAll rules props.layout.isSome children).1 else children) := by
  rw [annotateNode]
  by_cases container : (Node.container layer props children).strategy rules = .container
  · simp [container]
  · simp [container]

/-- Planning goes on with the live children. -/
theorem annotateAll_cons (rules : RuleSet) (flow : Bool) (child : Node α) (rest : List (Node α)) :
    annotateAll rules flow (child :: rest) =
      ((if child.isLive then (annotateNode rules flow false child).1 else child) ::
          (annotateAll rules flow rest).1,
        (if child.isLive then (annotateNode rules flow false child).2 else []) ++
          (annotateAll rules flow rest).2) := by
  rw [annotateAll]
  by_cases live : child.isLive = true
  · simp [live]
  · simp [live]

theorem layer_annotateNode (rules : RuleSet) (parentFlow isRoot : Bool) (node : Node α) :
    (annotateNode rules parentFlow isRoot node).1.layer =
      { node.layer with annotations := (notes rules parentFlow isRoot node).1 } := by
  cases node with
  | container layer props children =>
    rw [annotateNode_container]
    rfl
  | text layer content => rfl
  | shape layer kind => rfl

theorem isLive_annotateNode (rules : RuleSet) (parentFlow isRoot : Bool) (node : Node α) :
    (annotateNode rules parentFlow isRoot node).1.isLive = node.isLive := by
  rw [Node.isLive, layer_annotateNode]
  rfl

mutual

/-- Planning leaves the live nodes as they are. -/
theorem ids_annotateNode (rules : RuleSet) (parentFlow isRoot : Bool) : (node : Node α) →
    (emitted (annotateNode rules parentFlow isRoot node).1).map (·.layer.id) =
      (emitted node).map (·.layer.id)
  | .container layer props children => by
    rw [annotateNode_container, emitted, emitted, List.map_cons, List.map_cons]
    refine congrArg (layer.id :: ·) ?_
    split
    · exact ids_annotateAll rules props.layout.isSome children
    · rfl
  | .text layer content => rfl
  | .shape layer kind => rfl

theorem ids_annotateAll (rules : RuleSet) (flow : Bool) : (children : List (Node α)) →
    (emittedAll (annotateAll rules flow children).1).map (·.layer.id) =
      (emittedAll children).map (·.layer.id)
  | [] => rfl
  | child :: rest => by
    rw [annotateAll, emittedAll]
    by_cases live : child.isLive = true
    · rw [if_pos live, emittedAll, if_pos live, if_pos (by rwa [isLive_annotateNode]),
        List.map_append, List.map_append, ids_annotateNode rules flow false child,
        ids_annotateAll rules flow rest]
    · rw [if_neg live, emittedAll, if_neg live, if_neg live, ids_annotateAll rules flow rest]

end

end Plan

namespace PlannedDesign

variable [Scalar α] {config : Config α} {previous : Option (Snapshot α)} {manifest : Manifest α}
  {planned : PlannedDesign α}

/-- A plan is made from the root of the manifest by the three passes. -/
theorem of_eq_ok (plan : of config previous manifest = .ok planned) :
    ∃ root, manifest.root = some root ∧ config.rules = .ok planned.rules ∧
      (planned.root, planned.warnings) = Plan.annotate planned.rules
        (Stroke.resolve config.stroke (planned.rules.applyStructural root)).1 := by
  rw [of] at plan
  cases rules : config.rules with
  | error fault => simp [rules] at plan
  | ok rules' =>
    cases found : manifest.root with
    | none => simp [rules, Manifest.takeRoot, found, bind, Except.bind] at plan
    | some root =>
      simp only [rules, Manifest.takeRoot, found, bind, Except.bind, pure, Except.pure,
        Except.ok.injEq] at plan
      subst plan
      exact ⟨root, rfl, rfl, rfl⟩

/-- Before planning, the live nodes are some of those of the manifest. -/
theorem outline_passes (thresholds : StrokeThresholds α) (rules : RuleSet) (root : Node α) :
    (Plan.outline (Stroke.resolve thresholds (rules.applyStructural root)).1).Sublist
      (Plan.outline root) :=
  (Stroke.outline_resolve thresholds _).trans (rules.outline_applyStructural root)

/-- If no two live nodes of the manifest have the same id, no two of the planned tree do. -/
theorem distinct_ids {root : Node α} (found : manifest.root = some root)
    (distinct : ((Plan.emitted root).map (·.layer.id)).Nodup)
    (plan : of config previous manifest = .ok planned) :
    ((Plan.emitted planned.root).map (·.layer.id)).Nodup := by
  obtain ⟨root', found', _, passes⟩ := of_eq_ok plan
  obtain rfl : root = root' := Option.some.inj (found.symm.trans found')
  have same : planned.root = (Plan.annotate planned.rules _).1 := congrArg Prod.fst passes
  rw [same, Plan.annotate, Plan.ids_annotateNode, Plan.ids_eq_outline]
  rw [Plan.ids_eq_outline] at distinct
  exact distinct.sublist ((outline_passes config.stroke planned.rules root).map _)

end PlannedDesign
end DesignCompiler
