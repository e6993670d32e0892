import DesignCompiler.Proofs.Lifting
import DesignCompiler.Scalar.Rational
import Mathlib.Tactic.Ring

/-!
How far nodes stand apart. In the design that is the sum of all positions on the way from one to the
other, and lifting a node, by one container or by many, keeps that sum: a node stands in the space of its
host as far from it as the design says.
-/
namespace DesignCompiler

variable {rules : RuleSet} {root : Node Rat}

namespace Node

/-- How far the corner of the node at a path lies from that of the outermost node: the positions of all
nodes on the way, summed up. -/
def corner : Node Rat → List Nat → Point Rat
  | _, [] => ⟨0, 0⟩
  | node, position :: rest =>
    match node.children[position]? with
    | some child =>
      let inner := child.corner rest
      ⟨child.layer.x + inner.x, child.layer.y + inner.y⟩
    | none => ⟨0, 0⟩

theorem Emits.corner_child {node child : Node Rat} {path : List Nat} {position : Nat}
    (reached : Emits rules root path node) (found : node.children[position]? = some child) :
    root.corner (path ++ [position]) =
      ⟨(root.corner path).x + child.layer.x, (root.corner path).y + child.layer.y⟩ := by
  induction path generalizing root with
  | nil =>
    rcases reached.split with ⟨_, rfl⟩ | ⟨_, _, _, long, _⟩
    · simp [corner, found]
    · simp at long
  | cons first rest ih =>
    rcases reached.split with ⟨long, _⟩ | ⟨_, _, top, same, _, foundTop, _, below⟩
    · simp at long
    · obtain ⟨rfl, rfl⟩ := List.cons.inj same
      simp only [List.cons_append, corner, foundTop, ih below, add_assoc]

end Node

/-- A site stands where the design has its node: a node that reaches the output, as far from the corner
of the host as the design says. -/
structure Site.Stands (rules : RuleSet) (root : Node Rat) (host : List Nat) (site : Site Rat) : Prop where
  reached : Node.Emits rules root site.path site.origin
  x : (root.corner host).x + site.x = (root.corner site.path).x
  y : (root.corner host).y + site.y = (root.corner site.path).y

namespace Site

theorem stands_below {site : Site Rat} (reached : Node.Emits rules root site.path site.origin)
    (container : site.node.strategy rules = .container) :
    ∀ child ∈ site.below, child.Stands rules root site.path := by
  intro child member
  obtain ⟨index, node, found, live, rfl⟩ := mem_starts member
  rw [Nat.zero_add]
  have corner := reached.corner_child found
  refine ⟨.child reached (by simpa using container) found live, ?_, ?_⟩
  · rw [start, corner]
  · rw [start, corner]

theorem Stands.moved {host next : Site Rat} {above : List Nat} (stands : next.Stands rules root host.path)
    (low : host.Stands rules root above) :
    (next.moved host.x host.y).Stands rules root above := by
  refine ⟨stands.reached, ?_, ?_⟩
  · calc (root.corner above).x + (next.x + host.x)
      _ = (root.corner above).x + host.x + next.x := by ring
      _ = (root.corner next.path).x := by rw [low.x, stands.x]
  · calc (root.corner above).y + (next.y + host.y)
      _ = (root.corner above).y + host.y + next.y := by ring
      _ = (root.corner next.path).y := by rw [low.y, stands.y]

end Site

/-- Below a path, every site stands where the design has its node. -/
inductive Plot.Standing (rules : RuleSet) (root : Node Rat) : List Nat → List (Plot Rat) → Prop where
  | nil : Standing rules root host []
  | cons {site : Site Rat} {notice : Option Warning} {children : List (Plot Rat)}
      (own : site.Stands rules root host) (inner : Standing rules root site.path children)
      (rest : Standing rules root host plots) :
      Standing rules root host (.mk site notice children :: plots)

namespace Placement

/-- Placing keeps the distances: what stands where the design has it in the queue and among those that
wait, does so where it is placed and where it is lifted to. -/
theorem Lifting.standing {host : Site Rat} {canLift : Bool} {queue waiting lifted : List (Site Rat)}
    {plots : List (Plot Rat)} (run : Lifting rules host canLift queue waiting plots lifted)
    (queued : ∀ site ∈ queue, site.Stands rules root host.path)
    (waited : ∀ site ∈ waiting, site.Stands rules root host.path) :
    Plot.Standing rules root host.path plots ∧
      ∀ site ∈ lifted, site.Stands rules root host.path := by
  induction run with
  | done => exact ⟨.nil, by simp⟩
  | turn rest ih =>
    obtain ⟨next, later⟩ := List.forall_mem_cons.mp waited
    exact ih (by simpa using next) later
  | lift cut rest ih =>
    obtain ⟨next, later⟩ := List.forall_mem_cons.mp queued
    obtain ⟨kept, lifted⟩ := ih later waited
    exact ⟨kept, List.forall_mem_cons.mpr ⟨next, lifted⟩⟩
  | leaf stays leaf rest ih =>
    obtain ⟨next, later⟩ := List.forall_mem_cons.mp queued
    obtain ⟨kept, lifted⟩ := ih later waited
    exact ⟨.cons next .nil kept, lifted⟩
  | @frame _ _ _ _ host next queue out children stays container inner rest within ih =>
    obtain ⟨here, later⟩ := List.forall_mem_cons.mp queued
    obtain ⟨under, raised⟩ := within (by simp) (Site.stands_below here.reached container)
    have joined : ∀ site ∈ queue ++ out.map (Site.moved next.x next.y),
        site.Stands rules root host.path := by
      intro site member
      rcases List.mem_append.mp member with old | new
      · exact later site old
      · obtain ⟨raisedSite, present, rfl⟩ := List.mem_map.mp new
        exact (raised raisedSite present).moved here
    obtain ⟨kept, lifted⟩ := ih joined waited
    exact ⟨.cons here under kept, lifted⟩

theorem exists_standing (rules : RuleSet) (root : Node Rat) :
    ∃ children, Layout rules root children ∧ Plot.Standing rules root [] children := by
  by_cases container : root.strategy rules = .container
  · obtain ⟨plots, run, layout⟩ := exists_run container
    have below : ∀ child ∈ (Site.start [] root).below, child.Stands rules root [] :=
      Site.stands_below .root (by simpa using container)
    exact ⟨plots, layout, (run.standing (by simp) below).1⟩
  · exact ⟨[], layout_leaf container, .nil⟩

end Placement
end DesignCompiler
