import DesignCompiler.Proofs.Passes
import DesignCompiler.Proofs.Reading
import DesignCompiler.Proofs.Revision
import DesignCompiler.Proofs.ShownPictures

/-!
Planning and emission. Both decide for themselves which pictures a node has to have; they decide alike,
also about the same nodes.
-/
namespace DesignCompiler

variable {α : Type} {rules : RuleSet}

namespace Node

mutual

/-- The nodes that reach the output are live. -/
theorem emits_sublist (rules : RuleSet) (path : List Nat) :
    (node : Node α) → ((node.emits rules path).map (·.2)).Sublist (Plan.emitted node)
  | .container layer props children => by
    rw [emits, Plan.emitted, List.map_cons]
    refine List.Sublist.cons_cons _ ?_
    split
    · exact emitsAll_sublist rules path 0 children
    · exact List.nil_sublist _
  | .text layer content => .refl _
  | .shape layer kind => .refl _

theorem emitsAll_sublist (rules : RuleSet) (path : List Nat) (position : Nat) :
    (children : List (Node α)) →
      ((emitsAll rules path position children).map (·.2)).Sublist (Plan.emittedAll children)
  | [] => .refl _
  | child :: rest => by
    have others := emitsAll_sublist rules path (position + 1) rest
    rw [emitsAll, Plan.emittedAll, List.map_append]
    split
    · exact (emits_sublist rules _ child).append others
    · exact others

end

theorem Emits.live {root node : Node α} {path : List Nat} (reached : Emits rules root path node) :
    node ∈ Plan.emitted root :=
  (emits_sublist rules [] root).subset
    (List.mem_map_of_mem (f := (·.2)) (mem_emits.mpr ⟨path, rfl, reached⟩))

end Node

namespace Plan

open Assembly (Matched)

variable [Scalar α]

/-- A planned node is classified like the node before. -/
theorem classify_annotateNode (parentFlow isRoot : Bool) (node : Node α) :
    (annotateNode rules parentFlow isRoot node).1.classify rules = node.classify rules := by
  cases node with
  | container layer props children =>
    rw [annotateNode_container]
    cases children with
    | nil =>
      split
      · rfl
      · rfl
    | cons child rest =>
      split
      · rfl
      · rfl
  | text layer content => rfl
  | shape layer kind => rfl

theorem strategy_annotateNode (parentFlow isRoot : Bool) (node : Node α) :
    (annotateNode rules parentFlow isRoot node).1.strategy rules = node.strategy rules :=
  congrArg Classification.strategy (classify_annotateNode parentFlow isRoot node)

/-- Planning notes the pictures that the emission of a node shows. -/
theorem matched_annotateNode (parentFlow isRoot : Bool) (node : Node α) :
    Matched rules (annotateNode rules parentFlow isRoot node).1 := by
  refine ⟨?_, ?_⟩
  · rw [layer_annotateNode, classify_annotateNode]
    simp only [notes]
    split <;> simp_all
  · rw [layer_annotateNode, strategy_annotateNode]
    simp only [notes]
    intro held
    split at held
    · rename_i needed
      simp only [Classification.needsUnderlay, Bool.and_eq_true, beq_iff_eq] at needed
      exact needed.1.1
    · simp at held

theorem emits_annotateNode (parentFlow isRoot : Bool) (path : List Nat) (layer : Layer α)
    (props : ContainerProps α) (children : List (Node α)) :
    ((annotateNode rules parentFlow isRoot (.container layer props children)).1).emits rules path =
      (path, (annotateNode rules parentFlow isRoot (.container layer props children)).1) ::
        if (Node.container layer props children).strategy rules = .container then
          Node.emitsAll rules path 0 (annotateAll rules props.layout.isSome children).1
        else [] := by
  rw [Node.emits_eq, strategy_annotateNode]
  congr 1
  split
  · rw [annotateNode_container, if_pos ‹_›]
    rfl
  · rfl

mutual

/-- What planning brings about for every node, it does for all nodes that reach the output. -/
theorem emits_planned {motive : Node α → Prop}
    (each : ∀ parentFlow isRoot node, motive (annotateNode rules parentFlow isRoot node).1)
    (parentFlow isRoot : Bool) (path : List Nat) : (node : Node α) →
    ∀ entry ∈ (annotateNode rules parentFlow isRoot node).1.emits rules path, motive entry.2
  | .container layer props children => by
    rw [emits_annotateNode]
    refine List.forall_mem_cons.mpr ⟨each _ _ _, ?_⟩
    split
    · exact emitsAll_planned each props.layout.isSome path 0 children
    · simp
  | .text layer content =>
    List.forall_mem_cons.mpr ⟨each parentFlow isRoot (.text layer content), by simp⟩
  | .shape layer kind =>
    List.forall_mem_cons.mpr ⟨each parentFlow isRoot (.shape layer kind), by simp⟩

theorem emitsAll_planned {motive : Node α → Prop}
    (each : ∀ parentFlow isRoot node, motive (annotateNode rules parentFlow isRoot node).1)
    (flow : Bool) (path : List Nat) (position : Nat) : (children : List (Node α)) →
      ∀ entry ∈ Node.emitsAll rules path position (annotateAll rules flow children).1,
        motive entry.2
  | [] => by simp [annotateAll, Node.emitsAll]
  | child :: rest => by
    rw [annotateAll, Node.emitsAll, List.forall_mem_append]
    refine ⟨?_, emitsAll_planned each flow path _ rest⟩
    by_cases live : child.isLive = true
    · rw [if_pos live, if_pos (by rwa [isLive_annotateNode])]
      exact emits_planned each flow false _ child
    · simp [live]

end

/-- All nodes that reach the output have been planned. -/
theorem matched_emits (parentFlow isRoot : Bool) (path : List Nat) (node : Node α) :
    ∀ entry ∈ (annotateNode rules parentFlow isRoot node).1.emits rules path, Matched rules entry.2 :=
  emits_planned matched_annotateNode parentFlow isRoot path node

/-- What planning sees to for the sake of the emission: a picture under the children of a container
leaves no color to the container itself, and no child of a flow has a shadow of its own. -/
structure Arranged (rules : RuleSet) (node : Node α) : Prop where
  clear : node.layer.annotations.background.isSome = true →
    node.strategy rules = .container ∧ (node.classify rules).nativeFill = none
  unshaded : node.strategy rules = .container → node.layout?.isSome = true →
    ∀ child ∈ node.liveChildren, child.layer.annotations.shadow = none

theorem shadow_of_annotateAll {child : Node α} : {children : List (Node α)} →
    child ∈ (annotateAll rules true children).1 → child.isLive = true →
    child.layer.annotations.shadow = none
  | [], member, _ => by simp [annotateAll] at member
  | first :: rest, member, live => by
    rw [annotateAll] at member
    rcases List.mem_cons.mp member with rfl | later
    · by_cases kept : first.isLive = true
      · simp [kept, layer_annotateNode, notes]
      · simp [kept] at live
    · exact shadow_of_annotateAll later live

theorem arranged_annotateNode (parentFlow isRoot : Bool) (node : Node α) :
    Arranged rules (annotateNode rules parentFlow isRoot node).1 := by
  constructor
  · rw [layer_annotateNode, strategy_annotateNode, classify_annotateNode]
    simp only [notes]
    intro held
    split at held
    · rename_i needed
      simp only [Classification.needsUnderlay, Bool.and_eq_true, beq_iff_eq,
        Option.isNone_iff_eq_none] at needed
      exact needed.1
    · simp at held
  · rw [strategy_annotateNode]
    intro container flow child member
    obtain ⟨inside, live⟩ := List.mem_filter.mp member
    cases node with
    | container layer props children =>
      rw [annotateNode_container, if_pos container] at flow inside
      rw [show props.layout.isSome = true from flow] at inside
      exact shadow_of_annotateAll inside live
    | text layer content => simp [annotateNode, Node.withLayer, Node.layout?] at flow
    | shape layer kind => simp [annotateNode, Node.withLayer, Node.layout?] at flow

theorem arranged_emits (rules : RuleSet) (root : Node α) {path : List Nat} {node : Node α}
    (reached : Node.Emits rules (annotate rules root).1 path node) : Arranged rules node :=
  emits_planned arranged_annotateNode false true [] root (path, node)
    (Node.mem_emits.mpr ⟨path, rfl, reached⟩)

/-- Filling in assets leaves the plan as it is. -/
theorem Arranged.revise {change : Layer α → Annotations α} (refills : Refills change) {node : Node α}
    (arranged : Arranged rules node) : Arranged rules (node.revise change) := by
  constructor
  · rw [Node.layer_revise, Node.strategy_revise, Node.classify_revise]
    intro held
    have kept := refills.background node.layer
    refine arranged.clear ?_
    rw [Layer.revised] at held
    simpa [held] using congrArg Option.isSome kept.symm
  · rw [Node.strategy_revise, Node.liveChildren_revise refills.life]
    intro container flow child member
    obtain ⟨before, inside, rfl⟩ := List.mem_map.mp member
    have flow' : node.layout?.isSome = true := by
      cases node <;> exact flow
    have none := arranged.unshaded container flow' before inside
    have kept := refills.shadow before.layer
    rw [none, Option.map_none, Option.map_eq_none_iff] at kept
    rw [Node.layer_revise, Layer.revised]
    exact kept

/-- A planned design, with whatever assets are filled in, is arranged for the emission. -/
theorem arranged_planned {change : Layer α → Annotations α} (refills : Refills change)
    {root : Node α} {path : List Nat} {node : Node α}
    (reached : Node.Emits rules ((annotate rules root).1.revise change) path node) :
    Arranged rules node := by
  obtain ⟨origin, before, rfl⟩ := reached.of_revise refills.life
  exact (arranged_emits rules root before).revise refills

/-- The root has no shadow. -/
theorem shadow_root {change : Layer α → Annotations α} (refills : Refills change) (root : Node α) :
    ((annotate rules root).1.revise change).layer.annotations.shadow = none := by
  have kept := refills.shadow (annotate rules root).1.layer
  rw [annotate, layer_annotateNode] at kept
  have none : (notes rules false true root).1.shadow = none := by simp [notes]
  simp only [none, Option.map_none, Option.map_eq_none_iff] at kept
  rw [annotate, Node.layer_revise, Layer.revised, layer_annotateNode]
  exact kept

/-- A planned design has all its pictures once every hash has its asset. -/
theorem supplied_filled {lookup : String → Option String} (known : ∀ hash, (lookup hash).isSome = true)
    {root : Node α} {path : List Nat} {node : Node α}
    (reached : Node.Emits rules ((annotate rules root).1.revise (filling lookup)) path node) :
    Assembly.Supplied rules node ∧ Assembly.Filled node.layer.annotations.shadow := by
  obtain ⟨origin, before, rfl⟩ := reached.of_revise refills_filling.life
  have matched : Matched rules origin :=
    matched_emits false true [] root (path, origin) (Node.mem_emits.mpr ⟨path, rfl, before⟩)
  have filled : ∀ picture : Option Picture, Assembly.Filled (picture.map (fillPicture lookup)) := by
    rintro picture _ held
    obtain ⟨first, _, rfl⟩ := Option.map_eq_some_iff.mp held
    rw [fillPicture]
    split
    · exact Option.isSome_iff_exists.mp (known first.hash)
    · exact Option.ne_none_iff_exists'.mp (by simpa using ‹¬ first.asset.isNone = true›)
  rw [Node.layer_revise]
  refine ⟨⟨?_, fun _ => ?_, fun _ => ?_⟩, filled origin.layer.annotations.shadow⟩
  · rw [Node.classify_revise, Node.layer_revise]
    intro needed
    exact (Option.isSome_map ..).trans (matched.raster.trans needed)
  · rw [Node.layer_revise]
    exact filled origin.layer.annotations.raster
  · rw [Node.layer_revise]
    exact filled origin.layer.annotations.background

section Total

variable {β : Type} {view : Node α → List β}

omit [Scalar α] in
theorem flatMap_blank (blind : ∀ node, pictures node = [] → view node = []) {nodes : List (Node α)}
    (blank : Blank nodes) : nodes.flatMap view = [] :=
  List.flatMap_eq_nil_iff.mpr fun node member => blind node (blank node member)

mutual

/-- Planning gives no picture to a node that does not reach the output. -/
theorem flatMap_emitted (blind : ∀ node, pictures node = [] → view node = [])
    (parentFlow isRoot : Bool) (path : List Nat) : (node : Node α) →
    Blank (emitted node) →
    (emitted (annotateNode rules parentFlow isRoot node).1).flatMap view =
      ((annotateNode rules parentFlow isRoot node).1.emits rules path).flatMap (view ·.2)
  | .container layer props children, blank => by
    have below : Blank (emittedAll children) := (List.forall_mem_cons.mp blank).2
    rw [emits_annotateNode, annotateNode_container, emitted, List.flatMap_cons, List.flatMap_cons]
    congr 1
    split
    · exact flatMap_emittedAll blind props.layout.isSome path 0 children below
    · exact flatMap_blank blind below
  | .text layer content, _ => rfl
  | .shape layer kind, _ => rfl

theorem flatMap_emittedAll (blind : ∀ node, pictures node = [] → view node = []) (flow : Bool)
    (path : List Nat) (position : Nat) : (children : List (Node α)) → Blank (emittedAll children) →
    (emittedAll (annotateAll rules flow children).1).flatMap view =
      (Node.emitsAll rules path position (annotateAll rules flow children).1).flatMap (view ·.2)
  | [], _ => rfl
  | child :: rest, blank => by
    rw [annotateAll, Node.emitsAll, emittedAll, List.flatMap_append]
    rw [emittedAll] at blank
    by_cases live : child.isLive = true
    · rw [if_pos live] at blank
      obtain ⟨own, others⟩ := List.forall_mem_append.mp blank
      rw [if_pos live, if_pos (by rwa [isLive_annotateNode]), if_pos (by rwa [isLive_annotateNode]),
        List.flatMap_append, flatMap_emitted blind flow false _ child own,
        flatMap_emittedAll blind flow path _ rest others]
    · rw [if_neg live] at blank
      rw [if_neg live, if_neg live, if_neg live, flatMap_emittedAll blind flow path _ rest blank]
      rfl

end

end Total

end Plan
end DesignCompiler
