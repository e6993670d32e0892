import DesignCompiler.Proofs.StrokeGroups
import DesignCompiler.Proofs.Thinning

/-!
Trees without the texts that were given up as copies. The stroke pass leaves no list of children that is
made of copies alone; so the tree without the copies is the tree thinned of them, and nothing has to stand
in.
-/
namespace DesignCompiler

variable {α : Type}

namespace Node

mutual

/-- The tree without the nodes that are marked as copies. -/
def pruned : Node α → Node α
  | .container layer props children => .container layer props (prunedAll children)
  | .text layer content => .text layer content
  | .shape layer kind => .shape layer kind

def prunedAll : List (Node α) → List (Node α)
  | [] => []
  | child :: rest =>
    if child.layer.annotations.duplicate then prunedAll rest else child.pruned :: prunedAll rest

end

mutual

/-- Wherever a node has children, not all of them are copies. -/
def Surviving : Node α → Prop
  | .container _ _ children => (prunedAll children = [] → children = []) ∧ SurvivingAll children
  | .text _ _ => True
  | .shape _ _ => True

def SurvivingAll : List (Node α) → Prop
  | [] => True
  | child :: rest => child.Surviving ∧ SurvivingAll rest

end

theorem prunedAll_eq_nil {children : List (Node α)} :
    prunedAll children = [] ↔ ∀ child ∈ children, child.layer.annotations.duplicate = true := by
  induction children with
  | nil => simp [prunedAll]
  | cons child rest ih =>
    rw [prunedAll, List.forall_mem_cons]
    split
    · rename_i copy
      rw [ih, and_iff_right copy]
    · rename_i stays
      simp [stays]

theorem survivingAll_iff {children : List (Node α)} :
    SurvivingAll children ↔ ∀ child ∈ children, child.Surviving := by
  induction children with
  | nil => simp [SurvivingAll]
  | cons child rest ih => rw [SurvivingAll, List.forall_mem_cons, ih]

theorem surviving_iff {node : Node α} : node.Surviving ↔
    (prunedAll node.children = [] → node.children = []) ∧ ∀ child ∈ node.children, child.Surviving := by
  cases node with
  | container layer props children =>
    rw [Surviving, survivingAll_iff]
    rfl
  | text | shape => simp [Surviving, children, prunedAll]

mutual

theorem pruned_eq_stripped : (node : Node α) → node.pruned = node.stripped (!·.annotations.duplicate)
  | .container layer props children => by rw [pruned, stripped, prunedAll_eq_strippedAll children]
  | .text _ _ => rfl
  | .shape _ _ => rfl

theorem prunedAll_eq_strippedAll : (children : List (Node α)) →
    prunedAll children = strippedAll (!·.annotations.duplicate) children
  | [] => rfl
  | child :: rest => by
    rw [prunedAll, strippedAll, pruned_eq_stripped child, prunedAll_eq_strippedAll rest]
    cases child.layer.annotations.duplicate <;> rfl

end

mutual

theorem Surviving.occupied : (node : Node α) → node.Surviving → node.Occupied (!·.annotations.duplicate)
  | .container layer props children, surviving => by
    refine ⟨fun some_child => ?_, occupiedAll_surviving children surviving.2⟩
    by_contra none
    refine some_child (surviving.1 (prunedAll_eq_nil.mpr fun child member => ?_))
    by_contra stays
    exact none ⟨child, member, (Bool.not_eq_true' _).mpr (Bool.eq_false_iff.mpr stays)⟩
  | .text _ _, _ | .shape _ _, _ => trivial

theorem occupiedAll_surviving : (children : List (Node α)) → SurvivingAll children →
    OccupiedAll (!·.annotations.duplicate) children
  | [], _ => trivial
  | child :: rest, surviving => ⟨fun _ => surviving.1.occupied child, occupiedAll_surviving rest surviving.2⟩

end

/-- Where no list of children is made of copies alone, nothing has to stand in for them. -/
theorem Surviving.thinned [Scalar α] {node : Node α} (surviving : node.Surviving) :
    node.thinned (!·.annotations.duplicate) = node.pruned :=
  ((surviving.occupied node).thinned node).trans node.pruned_eq_stripped.symm

mutual

theorem Fresh.surviving : (node : Node α) → node.Fresh → node.Surviving
  | .container layer props children, fresh => by
    refine ⟨?_, survivingAll_fresh children fun child member => fresh.below member⟩
    intro empty
    rw [prunedAll_eq_nil] at empty
    refine List.eq_nil_iff_forall_not_mem.mpr fun child member => ?_
    have copy := empty child member
    rw [(fresh.below member).own] at copy
    cases copy
  | .text _ _, _ | .shape _ _, _ => trivial

theorem survivingAll_fresh : (children : List (Node α)) → (∀ child ∈ children, child.Fresh) →
    SurvivingAll children
  | [], _ => trivial
  | child :: rest, fresh => by
    obtain ⟨own, others⟩ := List.forall_mem_cons.mp fresh
    exact ⟨own.surviving child, survivingAll_fresh rest others⟩

end
end Node

namespace Stroke

open Node (Surviving prunedAll_eq_nil surviving_iff)

variable [Scalar α]

/-- Every group leaves a survivor among the children. -/
theorem exists_unmarked [Scalar.Discerning α] (thresholds : StrokeThresholds α) {children : List (Node α)}
    (fresh : ∀ child ∈ children, child.Fresh) (some_child : children ≠ []) :
    ∃ after ∈ resolved thresholds children, after.layer.annotations.duplicate = false := by
  obtain ⟨first, rest, rfl⟩ := List.exists_cons_of_ne_nil some_child
  obtain ⟨after, there, fate⟩ := exists_fate thresholds
    (List.getElem?_cons_zero : (first :: rest)[0]? = some first)
  have unmarked {position : Nat} {child after : Node α} (here : (first :: rest)[position]? = some child)
      (same : after.layer.annotations.duplicate = child.layer.annotations.duplicate) :
      after.layer.annotations.duplicate = false := by
    rw [same, (fresh child (List.mem_of_getElem? here)).own]
    rfl
  cases fate with
  | copy key_eq decided =>
    -- the first child is a copy, so look at the survivor of its group
    obtain ⟨stays, here, key_eq'⟩ := mem_of_verdict? decided (.inr rfl)
    obtain ⟨after, there, fate⟩ := exists_fate thresholds here
    refine ⟨after, List.mem_of_getElem? there, unmarked here ?_⟩
    cases fate with
    | copy found decided' apart =>
      obtain rfl := Option.some.inj (found.symm.trans key_eq')
      obtain rfl := Option.some.inj (decided'.symm.trans decided)
      exact absurd rfl apart
    | survivor => cases stays <;> rfl
    | kept => rfl
    | other => split <;> simp [layer_resolve]
  | survivor =>
    refine ⟨_, List.mem_of_getElem? there, unmarked List.getElem?_cons_zero ?_⟩
    cases first <;> rfl
  | kept => exact ⟨_, List.mem_of_getElem? there, unmarked List.getElem?_cons_zero rfl⟩
  | other =>
    refine ⟨_, List.mem_of_getElem? there, unmarked List.getElem?_cons_zero ?_⟩
    split <;> simp [layer_resolve]

mutual

/-- The stroke pass leaves no list of children with copies alone. -/
theorem surviving_resolve [Scalar.Discerning α] (thresholds : StrokeThresholds α) :
    (node : Node α) → node.Fresh → (resolve thresholds node).1.Surviving
  | .container layer props children, fresh => by
    have below : ∀ child ∈ children, child.Fresh := fun child member => fresh.below member
    rw [surviving_iff, children_resolve]
    change (Node.prunedAll (resolved thresholds children) = [] → resolved thresholds children = []) ∧ _
    constructor
    · intro empty
      rw [prunedAll_eq_nil] at empty
      by_contra some_after
      have some_child : children ≠ [] := by
        rintro rfl
        exact some_after rfl
      obtain ⟨after, member, unmarked⟩ := exists_unmarked thresholds below some_child
      rw [empty after member] at unmarked
      cases unmarked
    · intro after member
      obtain ⟨position, there⟩ := List.mem_iff_getElem?.mp member
      obtain ⟨child, here, fate⟩ := fate_of_resolved there
      cases fate with
      | copy key_eq | survivor key_eq | kept key_eq =>
        obtain ⟨_, layer, content, rfl, _⟩ := key?_eq_some key_eq
        trivial
      | other =>
        have within := List.mem_of_getElem? here
        split
        · exact surviving_each thresholds children below child within
        · exact (below child within).surviving child
  | .text _ _, _ | .shape _ _, _ => trivial

theorem surviving_each [Scalar.Discerning α] (thresholds : StrokeThresholds α) :
    (children : List (Node α)) → (∀ child ∈ children, child.Fresh) →
      ∀ child ∈ children, (resolve thresholds child).1.Surviving
  | [], _ => nofun
  | first :: rest, fresh => by
    obtain ⟨own, others⟩ := List.forall_mem_cons.mp fresh
    exact List.forall_mem_cons.mpr
      ⟨surviving_resolve thresholds first own, surviving_each thresholds rest others⟩

end

end Stroke

end DesignCompiler
