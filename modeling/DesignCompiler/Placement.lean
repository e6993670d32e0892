import DesignCompiler.Classification
import DesignCompiler.Diagnostics
import DesignCompiler.Geometry

/-!
Under which container each node is emitted. A click target that reaches out of a container that clips
is lifted into the parent of the container, so that the clipping does not cut it; there the same
question is asked again. A node that cannot be lifted stays, and a notice says that it is cut.
-/
namespace DesignCompiler

variable {α : Type} [Scalar α]

namespace Node

omit [Scalar α] in
@[simp] theorem sizes_append (front back : List (Node α)) :
    sizes (front ++ back) = sizes front + sizes back := by
  induction front with
  | nil => simp [sizes]
  | cons node rest ih => simp [sizes, ih, Nat.add_assoc]

omit [Scalar α] in
theorem sizes_filter_le (keep : Node α → Bool) (nodes : List (Node α)) :
    sizes (nodes.filter keep) ≤ sizes nodes := by
  induction nodes with
  | nil => simp
  | cons node rest ih =>
    by_cases kept : keep node
    · simp [kept, sizes, ih]
    · simp [kept, sizes]; omega

omit [Scalar α] in
theorem size_pos (node : Node α) : 0 < node.size := by
  cases node <;> simp only [size] <;> omega

omit [Scalar α] in
theorem sizes_children (node : Node α) : sizes node.children < node.size := by
  cases node <;> simp [children, size, sizes]

omit [Scalar α] in
@[simp] theorem size_withLayer (change : Layer α → Layer α) (node : Node α) :
    (node.withLayer change).size = node.size := by
  cases node <;> simp [withLayer, size]

@[simp] theorem sizes_map_moved (dx dy : α) (nodes : List (Node α)) :
    sizes (nodes.map (moved dx dy)) = sizes nodes := by
  induction nodes with
  | nil => rfl
  | cons node rest ih => simp [sizes, ih, moved]

omit [Scalar α] in
theorem sizes_liveChildren (node : Node α) : sizes node.liveChildren < node.size :=
  Nat.lt_of_le_of_lt (sizes_filter_le _ _) (sizes_children node)

end Node

/-- A node in its place: the node as it stands in the space of the container it is emitted under, a
notice about it there, and the nodes emitted under it. -/
inductive Placed (α : Type) where
  | mk (node : Node α) (notice : Option Warning) (children : List (Placed α))

namespace Placed

def node : Placed α → Node α
  | mk node _ _ => node

def notice : Placed α → Option Warning
  | mk _ notice _ => notice

def children : Placed α → List (Placed α)
  | mk _ _ children => children

end Placed

namespace Placement

/-- The container clips the child. -/
def isCut (host child : Layer α) (clips flow : Bool) : Bool :=
  clips && !flow && child.overflows host.width host.height

/-- The child is lifted out of its container. -/
def isLifted (rules : RuleSet) (host : Node α) (canLift : Bool) (child : Node α) : Bool :=
  isCut host.layer child.layer host.clips host.layout?.isSome && canLift &&
    rules.isInteractive child.layer

/-- What is to be said about a child that stays although it is cut. -/
def notice? (rules : RuleSet) (host child : Node α) : Option Warning :=
  if isCut host.layer child.layer host.clips host.layout?.isSome then
    if rules.isInteractive child.layer then
      some (.about .promotionSkipped child.layer.id
        ("interactive '" ++ child.layer.name ++ "' overflows clipping '" ++ host.layer.name ++
          "' but cannot be lifted"))
    else
      some (.about .overflow child.layer.id
        ("'" ++ child.layer.name ++ "' overflows clipping '" ++ host.layer.name ++
          "' and will be cut off"))
  else none

mutual

/-- Places a node and all below it, and gives the nodes lifted out of it, in the space of its
parent. -/
def settle (rules : RuleSet) (canLift : Bool) (node : Node α) (notice : Option Warning) :
    { r : Placed α × List (Node α) // Node.sizes r.2 < node.size } :=
  if node.strategy rules = .container then
    let ⟨(children, lifted), fits⟩ := settleAll rules node canLift [] node.liveChildren
    ⟨(.mk node notice children, lifted.map (Node.moved node.layer.x node.layer.y)), by
      have := Node.sizes_liveChildren node
      simp [Node.sizes] at fits ⊢
      omega⟩
  else
    ⟨(.mk node notice [], []), by cases node <;> simp only [Node.sizes, Node.size] <;> omega⟩
termination_by (node.size, 0)
decreasing_by
  have := Node.sizes_liveChildren node
  simp [Node.sizes, Prod.lex_def]
  omega

/-- Places nodes under a host: first those in the queue, which were lifted out of a child of the
host, then the others. What is lifted out of a node joins the end of the queue. -/
def settleAll (rules : RuleSet) (host : Node α) (canLift : Bool) (queue waiting : List (Node α)) :
    { r : List (Placed α) × List (Node α) //
      Node.sizes r.2 ≤ Node.sizes queue + Node.sizes waiting } :=
  match queue, waiting with
  | [], [] => ⟨([], []), by simp⟩
  | next :: queue, waiting =>
    if isLifted rules host canLift next then
      let ⟨(placed, lifted), fits⟩ := settleAll rules host canLift queue waiting
      ⟨(placed, next :: lifted), by simp [Node.sizes] at fits ⊢; omega⟩
    else
      let ⟨(own, out), less⟩ :=
        settle rules (!host.layout?.isSome) next (notice? rules host next)
      let ⟨(placed, lifted), fits⟩ := settleAll rules host canLift (queue ++ out) waiting
      ⟨(own :: placed, lifted), by simp [Node.sizes] at fits less ⊢; omega⟩
  | [], next :: waiting =>
    if isLifted rules host canLift next then
      let ⟨(placed, lifted), fits⟩ := settleAll rules host canLift [] waiting
      ⟨(placed, next :: lifted), by simp [Node.sizes] at fits ⊢; omega⟩
    else
      let ⟨(own, out), less⟩ :=
        settle rules (!host.layout?.isSome) next (notice? rules host next)
      let ⟨(placed, lifted), fits⟩ := settleAll rules host canLift out waiting
      ⟨(own :: placed, lifted), by simp [Node.sizes] at fits less ⊢; omega⟩
termination_by (Node.sizes queue + Node.sizes waiting, 1)
decreasing_by
  all_goals have positive := Node.size_pos next
  all_goals simp only [Node.sizes, Node.sizes_append, Prod.lex_def] at *
  all_goals omega

end

end Placement
end DesignCompiler
