import DesignCompiler.Placement
import DesignCompiler.Proofs.Occurrence
import Mathlib.Data.List.Perm.Basic

/-!
The runs of the placement, with every node known by its path in the design. A run ends on every
design, and what is placed and what is lifted out are together the nodes that were to be placed.
-/
namespace DesignCompiler

variable {α : Type} [Scalar α] {rules : RuleSet}

/-- One path leads on from another. -/
def Deeper (above path : List Nat) : Prop := ∃ position rest, path = above ++ position :: rest

theorem Deeper.trans {first second third : List Nat} (low : Deeper second third)
    (high : Deeper first second) : Deeper first third := by
  obtain ⟨position, rest, rfl⟩ := high
  obtain ⟨next, tail, rfl⟩ := low
  exact ⟨position, rest ++ next :: tail, by simp⟩

/-- A node on its way to its place: its path and its form in the design, and where it stands by
now. -/
structure Site (α : Type) where
  path : List Nat
  origin : Node α
  x : α
  y : α

namespace Site

omit [Scalar α]

/-- A node where the design has it. -/
def start (path : List Nat) (origin : Node α) : Site α := ⟨path, origin, origin.layer.x, origin.layer.y⟩

/-- The node as it stands by now. -/
def node (site : Site α) : Node α :=
  site.origin.withLayer fun layer => { layer with x := site.x, y := site.y }

@[simp] theorem node_start (path : List Nat) (origin : Node α) : (start path origin).node = origin := by
  cases origin <;> rfl

@[simp] theorem size_node (site : Site α) : site.node.size = site.origin.size := by
  simp [node]

@[simp] theorem children_node (site : Site α) : site.node.children = site.origin.children := by
  obtain ⟨path, origin, x, y⟩ := site
  cases origin <;> rfl

theorem layer_node (site : Site α) :
    site.node.layer = { site.origin.layer with x := site.x, y := site.y } := by
  obtain ⟨path, origin, x, y⟩ := site
  cases origin <;> rfl

@[simp] theorem x_node (site : Site α) : site.node.layer.x = site.x := by rw [layer_node]

@[simp] theorem y_node (site : Site α) : site.node.layer.y = site.y := by rw [layer_node]

@[simp] theorem name_node (site : Site α) : site.node.layer.name = site.origin.layer.name := by
  rw [layer_node]

@[simp] theorem strategy_node (site : Site α) (rules : RuleSet) :
    site.node.strategy rules = site.origin.strategy rules := by
  obtain ⟨path, origin, x, y⟩ := site
  cases origin <;> rfl

theorem of_node (site : Site α) : ParentFrame.of site.node = ParentFrame.of site.origin := by
  obtain ⟨path, origin, x, y⟩ := site
  cases origin <;> rfl

theorem layout_node (site : Site α) : site.node.layout? = site.origin.layout? := by
  obtain ⟨path, origin, x, y⟩ := site
  cases origin <;> rfl

theorem classify_node [Scalar α] (site : Site α) : site.node.classify rules = site.origin.classify rules := by
  obtain ⟨path, origin, x, y⟩ := site
  cases origin <;> rfl

/-- The node as the design has it, and its path. -/
def occurrence (site : Site α) : List Nat × Node α := (site.path, site.origin)

/-- The live ones of the children of a path, from a position on. -/
def starts (path : List Nat) (position : Nat) : List (Node α) → List (Site α)
  | [] => []
  | child :: rest =>
    (if child.isLive then [start (path ++ [position]) child] else []) ++ starts path (position + 1) rest

/-- The live children of a node. -/
def below (site : Site α) : List (Site α) := starts site.path 0 site.origin.children

theorem map_node_starts (path : List Nat) (position : Nat) (children : List (Node α)) :
    (starts path position children).map node = children.filter Node.isLive := by
  induction children generalizing position with
  | nil => rfl
  | cons child rest ih =>
    by_cases live : child.isLive = true <;> simp [starts, live, ih]

theorem map_node_below (site : Site α) : site.below.map node = site.node.liveChildren := by
  rw [below, map_node_starts, Node.liveChildren, children_node]

theorem mem_starts {path : List Nat} {position : Nat} {children : List (Node α)} {site : Site α}
    (member : site ∈ starts path position children) : ∃ index child, children[index]? = some child ∧
      child.isLive = true ∧ site = start (path ++ [position + index]) child := by
  induction children generalizing position with
  | nil => simp [starts] at member
  | cons child rest ih =>
    rcases List.mem_append.mp member with own | others
    · split at own
      · rename_i live
        exact ⟨0, child, rfl, live, List.mem_singleton.mp own⟩
      · simp at own
    · obtain ⟨index, other, found, live, same⟩ := ih others
      exact ⟨index + 1, other, found, live, by rw [same, Nat.add_assoc, Nat.add_comm 1]⟩

theorem deeper_starts {path : List Nat} {position : Nat} {children : List (Node α)} {site : Site α}
    (member : site ∈ starts path position children) : Deeper path site.path := by
  induction children generalizing position with
  | nil => simp [starts] at member
  | cons child rest ih =>
    rcases List.mem_append.mp member with own | others
    · split at own
      · obtain rfl := List.mem_singleton.mp own
        exact ⟨position, [], rfl⟩
      · simp at own
    · exact ih others

/-- What a site and all below it contribute to the output. -/
def emits (rules : RuleSet) (site : Site α) : List (List Nat × Node α) :=
  site.origin.emits rules site.path

theorem emits_starts (path : List Nat) (position : Nat) (children : List (Node α)) :
    (starts path position children).flatMap (emits rules) =
      Node.emitsAll rules path position children := by
  induction children generalizing position with
  | nil => simp [starts, Node.emitsAll]
  | cons child rest ih =>
    by_cases live : child.isLive = true <;> simp [starts, Node.emitsAll, live, ih, emits, start]

theorem emits_leaf {site : Site α} (leaf : site.node.strategy rules ≠ .container) :
    site.emits rules = [site.occurrence] := by
  rw [emits, occurrence, Node.emits_eq, if_neg (by simpa using leaf)]

theorem emits_container {site : Site α} (container : site.node.strategy rules = .container) :
    site.emits rules = site.occurrence :: site.below.flatMap (emits rules) := by
  rw [emits, occurrence, Node.emits_eq, if_pos (by simpa using container), below, emits_starts]

end Site

namespace Site

def moved (dx dy : α) (site : Site α) : Site α := { site with x := site.x + dx, y := site.y + dy }

@[simp] theorem node_moved (dx dy : α) (site : Site α) :
    (site.moved dx dy).node = site.node.moved dx dy := by
  obtain ⟨path, origin, x, y⟩ := site
  cases origin <;> rfl

theorem map_node_moved (dx dy : α) (sites : List (Site α)) :
    (sites.map (moved dx dy)).map node = (sites.map node).map (Node.moved dx dy) := by
  simp [Function.comp_def]

@[simp] theorem emits_moved (dx dy : α) (site : Site α) :
    (site.moved dx dy).emits rules = site.emits rules := rfl

end Site

/-- A node in its place, known by its path. -/
inductive Plot (α : Type) where
  | mk (site : Site α) (notice : Option Warning) (children : List (Plot α))

namespace Plot

omit [Scalar α]

def site : Plot α → Site α
  | mk site _ _ => site

def children : Plot α → List (Plot α)
  | mk _ _ children => children

mutual

/-- The place without the path. -/
def placed : Plot α → Placed α
  | mk site notice children => .mk site.node notice (placedAll children)

def placedAll : List (Plot α) → List (Placed α)
  | [] => []
  | plot :: rest => plot.placed :: placedAll rest

end

mutual

/-- All sites of a plot, each before those below it. -/
def sites : Plot α → List (Site α)
  | mk site _ children => site :: sitesAll children

def sitesAll : List (Plot α) → List (Site α)
  | [] => []
  | plot :: rest => plot.sites ++ sitesAll rest

end

/-- The nodes of the design that stand in some places. -/
def occurrences (plots : List (Plot α)) : List (List Nat × Node α) :=
  (sitesAll plots).map Site.occurrence

@[simp] theorem occurrences_nil : occurrences ([] : List (Plot α)) = [] := rfl

@[simp] theorem occurrences_cons (site : Site α) (notice : Option Warning)
    (children plots : List (Plot α)) :
    occurrences (.mk site notice children :: plots) =
      site.occurrence :: (occurrences children ++ occurrences plots) := by
  simp [occurrences, sitesAll, sites]

/-- Below a path stand only nodes that the design has deeper, and below a node that is no container
stands nothing. -/
inductive Settled (rules : RuleSet) : List Nat → List (Plot α) → Prop where
  | nil : Settled rules above []
  | cons {site : Site α} {children : List (Plot α)} (deeper : Deeper above site.path)
      (leaf : site.node.strategy rules ≠ .container → children = [])
      (inner : Settled rules site.path children) (rest : Settled rules above plots) :
      Settled rules above (.mk site notice children :: plots)

/-- Whatever is placed below a path lies below it in the design. -/
theorem Settled.deeper {above : List Nat} {plots : List (Plot α)}
    (settled : Settled rules above plots) : ∀ site ∈ sitesAll plots, Deeper above site.path := by
  induction settled with
  | nil => simp [sitesAll]
  | cons deeper _ _ _ ihInner ihRest =>
    intro site member
    rw [sitesAll, sites, List.cons_append, List.mem_cons, List.mem_append] at member
    rcases member with rfl | inner | later
    · exact deeper
    · exact (ihInner site inner).trans deeper
    · exact ihRest site later

end Plot

namespace Placement

/-- A run of the placement under a host. A node that is lifted out of a child of the host joins the
queue, moved into the space of the host, and the queue comes before the children still waiting. -/
inductive Lifting (rules : RuleSet) :
    Site α → Bool → List (Site α) → List (Site α) → List (Plot α) → List (Site α) → Prop where
  | done : Lifting rules host canLift [] [] [] []
  | turn (rest : Lifting rules host canLift [next] waiting plots lifted) :
      Lifting rules host canLift [] (next :: waiting) plots lifted
  | lift (cut : isLifted rules host.node canLift next.node = true)
      (rest : Lifting rules host canLift queue waiting plots lifted) :
      Lifting rules host canLift (next :: queue) waiting plots (next :: lifted)
  | leaf (stays : isLifted rules host.node canLift next.node = false)
      (leaf : next.node.strategy rules ≠ .container)
      (rest : Lifting rules host canLift queue waiting plots lifted) :
      Lifting rules host canLift (next :: queue) waiting
        (.mk next (notice? rules host.node next.node) [] :: plots) lifted
  | frame {host next : Site α} {queue out : List (Site α)} {children : List (Plot α)}
      (stays : isLifted rules host.node canLift next.node = false)
      (container : next.node.strategy rules = .container)
      (inner : Lifting rules next (!host.node.layout?.isSome) [] next.below children out)
      (rest : Lifting rules host canLift (queue ++ out.map (Site.moved next.x next.y)) waiting
        plots lifted) :
      Lifting rules host canLift (next :: queue) waiting
        (.mk next (notice? rules host.node next.node) children :: plots) lifted

/-- What is placed under a host and what is lifted out of it, without the bound on sizes. -/
def outcome (rules : RuleSet) (host : Node α) (canLift : Bool) (queue waiting : List (Node α)) :
    List (Placed α) × List (Node α) :=
  (settleAll rules host canLift queue waiting).1

theorem settle_leaf {node : Node α} (leaf : node.strategy rules ≠ .container) (canLift : Bool)
    (notice : Option Warning) :
    (settle rules canLift node notice).1 = (.mk node notice [], []) := by
  rw [settle]
  simp [leaf]

theorem settle_container {node : Node α} (container : node.strategy rules = .container)
    (canLift : Bool) (notice : Option Warning) :
    (settle rules canLift node notice).1 =
      (.mk node notice (outcome rules node canLift [] node.liveChildren).1,
        (outcome rules node canLift [] node.liveChildren).2.map
          (Node.moved node.layer.x node.layer.y)) := by
  rw [settle]
  simp [container, outcome]

theorem outcome_turn (host next : Node α) (canLift : Bool) (waiting : List (Node α)) :
    outcome rules host canLift [] (next :: waiting) = outcome rules host canLift [next] waiting := by
  rw [outcome, outcome, settleAll, settleAll]
  split <;> simp

theorem outcome_lift {host next : Node α} {canLift : Bool}
    (cut : isLifted rules host canLift next = true) (queue waiting : List (Node α)) :
    outcome rules host canLift (next :: queue) waiting =
      ((outcome rules host canLift queue waiting).1,
        next :: (outcome rules host canLift queue waiting).2) := by
  rw [outcome, settleAll]
  simp [cut, outcome]

theorem outcome_stay {host next : Node α} {canLift : Bool}
    (stays : isLifted rules host canLift next = false) (queue waiting : List (Node α)) :
    outcome rules host canLift (next :: queue) waiting =
      let own := (settle rules (!host.layout?.isSome) next (notice? rules host next)).1
      let others := outcome rules host canLift (queue ++ own.2) waiting
      (own.1 :: others.1, others.2) := by
  rw [outcome, settleAll]
  simp [stays, outcome]

namespace Lifting

variable {host : Site α} {canLift : Bool} {queue waiting lifted : List (Site α)}
  {plots : List (Plot α)}

/-- What is lifted out is no larger than what there was. -/
theorem sizes_le (run : Lifting rules host canLift queue waiting plots lifted) :
    Node.sizes (lifted.map Site.node) ≤
      Node.sizes (queue.map Site.node) + Node.sizes (waiting.map Site.node) := by
  induction run with
  | done => simp
  | turn rest ih => simpa [Node.sizes, Nat.add_assoc] using ih
  | lift cut rest ih => simp only [List.map_cons, Node.sizes]; omega
  | leaf stays leaf rest ih => simp only [List.map_cons, Node.sizes]; omega
  | @frame _ _ _ _ host next queue out children stays container inner rest ihInner ih =>
    have fits := Node.sizes_liveChildren next.node
    rw [← Site.map_node_below] at fits
    simp only [List.map_nil, List.map_cons, List.map_append, Site.map_node_moved, Node.sizes_append,
      Node.sizes_map_moved, Node.sizes] at *
    omega

/-- Every placement is a run, and it ends: a node that leaves the queue only gives back nodes from
below itself. -/
theorem ends (rules : RuleSet) (host : Site α) (canLift : Bool) :
    (queue waiting : List (Site α)) → ∃ plots lifted,
      Lifting rules host canLift queue waiting plots lifted ∧
      outcome rules host.node canLift (queue.map Site.node) (waiting.map Site.node) =
        (Plot.placedAll plots, lifted.map Site.node)
  | [], [] => ⟨[], [], .done, by rw [List.map_nil, outcome, settleAll, Plot.placedAll]⟩
  | [], next :: waiting => by
    obtain ⟨plots, lifted, rest, same⟩ := ends rules host canLift [next] waiting
    exact ⟨plots, lifted, .turn rest, (outcome_turn ..).trans same⟩
  | next :: queue, waiting => by
    by_cases cut : isLifted rules host.node canLift next.node = true
    · obtain ⟨plots, lifted, rest, same⟩ := ends rules host canLift queue waiting
      exact ⟨plots, next :: lifted, .lift cut rest, by
        rw [List.map_cons, outcome_lift cut, same, List.map_cons]⟩
    -- a container is run below itself first; what comes out of it waits at the end of the queue
    · have stays : isLifted rules host.node canLift next.node = false := by simpa using cut
      by_cases container : next.node.strategy rules = .container
      · obtain ⟨children, out, inner, own⟩ :=
          ends rules next (!host.node.layout?.isSome) [] next.below
        obtain ⟨plots, lifted, rest, same⟩ :=
          ends rules host canLift (queue ++ out.map (Site.moved next.x next.y)) waiting
        refine ⟨_, lifted, .frame stays container inner rest, ?_⟩
        rw [Site.map_node_below, List.map_nil] at own
        rw [List.map_append, Site.map_node_moved] at same
        rw [List.map_cons, outcome_stay stays, settle_container container, own, Plot.placedAll,
          Plot.placed]
        simp only [Site.x_node, Site.y_node, same]
      · obtain ⟨plots, lifted, rest, same⟩ := ends rules host canLift queue waiting
        refine ⟨_, lifted, .leaf stays container rest, ?_⟩
        rw [List.map_cons, outcome_stay stays, settle_leaf container, Plot.placedAll, Plot.placed]
        simp only [List.append_nil, same, Plot.placedAll]
termination_by queue waiting =>
  (Node.sizes (queue.map Site.node) + Node.sizes (waiting.map Site.node), waiting.length)
decreasing_by
  · simp [Node.sizes, Prod.lex_def]
  · have positive := Node.size_pos next.node
    simp only [List.map_cons, Node.sizes, Prod.lex_def]
    omega
  · have fits := Node.sizes_liveChildren next.node
    simp only [List.map_nil, List.map_cons, Site.map_node_below, Node.sizes, Prod.lex_def]
    omega
  · have fits := Node.sizes_liveChildren next.node
    have bound := inner.sizes_le
    simp only [List.map_nil, List.map_cons, List.map_append, Site.map_node_below,
      Site.map_node_moved, Node.sizes_append, Node.sizes_map_moved, Node.sizes, Prod.lex_def] at *
    omega
  · have positive := Node.size_pos next.node
    simp only [List.map_cons, Node.sizes, Prod.lex_def]
    omega

/-- A run loses nothing and repeats nothing: what is placed, and what is lifted out with all below
it, is what was queued and waiting with all below it. -/
theorem perm (run : Lifting rules host canLift queue waiting plots lifted) :
    (Plot.occurrences plots ++ lifted.flatMap (Site.emits rules)).Perm
      (queue.flatMap (Site.emits rules) ++ waiting.flatMap (Site.emits rules)) := by
  induction run with
  | done => simp
  | turn rest ih => simpa using ih
  | lift cut rest ih =>
    simp only [List.flatMap_cons, List.append_assoc]
    exact (List.perm_append_comm_assoc ..).trans (ih.append_left _)
  | leaf stays leaf rest ih => simpa [Site.emits_leaf leaf] using ih
  | @frame _ waiting plots lifted host next queue out children stays container inner rest within ih =>
    have same : (out.map (Site.moved next.x next.y)).flatMap (Site.emits rules) =
        out.flatMap (Site.emits rules) := by simp [List.flatMap_map]
    rw [List.flatMap_append, same, List.append_assoc] at ih
    rw [List.flatMap_nil, List.nil_append] at within
    simp only [Plot.occurrences_cons, List.flatMap_cons, Site.emits_container container,
      List.cons_append, List.append_assoc, List.perm_cons]
    calc Plot.occurrences children ++ (Plot.occurrences plots ++ lifted.flatMap (Site.emits rules))
      List.Perm _ (Plot.occurrences children ++ (queue.flatMap (Site.emits rules) ++
          (out.flatMap (Site.emits rules) ++ waiting.flatMap (Site.emits rules)))) :=
        ih.append_left _
      List.Perm _ ((Plot.occurrences children ++ out.flatMap (Site.emits rules)) ++
          (queue.flatMap (Site.emits rules) ++ waiting.flatMap (Site.emits rules))) := by
        rw [List.append_assoc]
        exact (List.perm_append_comm_assoc ..).append_left _
      List.Perm _ _ := within.append_right _

/-- Where nothing can be lifted, nothing is. -/
theorem lifted_nil (run : Lifting rules host false queue waiting plots lifted) : lifted = [] := by
  generalize fixed : false = canLift at run
  induction run with
  | done => rfl
  | turn rest ih => exact ih fixed
  | lift cut rest ih => subst fixed; simp [isLifted] at cut
  | leaf stays leaf rest ih => exact ih fixed
  | frame stays container inner rest within ih => exact ih fixed

/-- What is placed under a host, and what is lifted out of it, lies below it in the design. -/
theorem settled (run : Lifting rules host canLift queue waiting plots lifted)
    (queued : ∀ site ∈ queue, Deeper host.path site.path)
    (waited : ∀ site ∈ waiting, Deeper host.path site.path) :
    Plot.Settled rules host.path plots ∧ ∀ site ∈ lifted, Deeper host.path site.path := by
  induction run with
  | done => exact ⟨.nil, by simp⟩
  | turn rest ih =>
    obtain ⟨next, later⟩ := List.forall_mem_cons.mp waited
    exact ih (by simpa using next) later
  | lift cut rest ih =>
    obtain ⟨next, later⟩ := List.forall_mem_cons.mp queued
    obtain ⟨kept, lifted⟩ := ih later waited
    exact ⟨kept, List.forall_mem_cons.mpr ⟨next, lifted⟩⟩
  | leaf stays leaf rest ih =>
    obtain ⟨next, later⟩ := List.forall_mem_cons.mp queued
    obtain ⟨kept, lifted⟩ := ih later waited
    exact ⟨.cons next (fun _ => rfl) .nil kept, lifted⟩
  | @frame _ _ _ _ host next queue out children stays container inner rest within ih =>
    obtain ⟨here, later⟩ := List.forall_mem_cons.mp queued
    obtain ⟨under, raised⟩ := within (by simp) fun site member => Site.deeper_starts member
    have joined : ∀ site ∈ queue ++ out.map (Site.moved next.x next.y),
        Deeper host.path site.path := by
      intro site member
      rcases List.mem_append.mp member with old | new
      · exact later site old
      · obtain ⟨raisedSite, present, rfl⟩ := List.mem_map.mp new
        exact (raised raisedSite present).trans here
    obtain ⟨kept, lifted⟩ := ih joined waited
    exact ⟨.cons here (fun leaf => absurd container leaf) under kept, lifted⟩

end Lifting

/-- What is placed under the root of a design, all in all. -/
structure Layout (rules : RuleSet) (root : Node α) (children : List (Plot α)) : Prop where
  placed : (settle rules false root none).1.1 = (Plot.mk (Site.start [] root) none children).placed
  settled : Plot.Settled rules [] children
  leaf : root.strategy rules ≠ .container → children = []
  perm : (Plot.occurrences [.mk (Site.start [] root) none children]).Perm (root.emits rules [])

/-- The run below a container that is the root lays out the design, with nothing left over. -/
theorem exists_run {root : Node α} (container : root.strategy rules = .container) :
    ∃ plots, Lifting rules (Site.start [] root) false [] (Site.start [] root).below plots [] ∧
      Layout rules root plots := by
  have top : (Site.start [] root).node = root := Site.node_start [] root
  obtain ⟨plots, lifted, run, same⟩ :=
    Lifting.ends rules (Site.start [] root) false [] (Site.start [] root).below
  obtain rfl := run.lifted_nil
  have deeper := run.settled (by simp) fun site member => Site.deeper_starts member
  have conserved := run.perm
  simp only [List.flatMap_nil, List.append_nil, List.nil_append] at conserved
  rw [Site.map_node_below, top, List.map_nil] at same
  refine ⟨plots, run, ?_, deeper.1, fun leaf => absurd container leaf, ?_⟩
  · rw [settle_container container, same, Plot.placed, top]
  · have whole : (Site.start [] root).emits rules = _ := Site.emits_container (by rwa [top])
    rw [Plot.occurrences_cons, Plot.occurrences_nil, List.append_nil]
    exact (conserved.cons _).trans (.of_eq whole.symm)

/-- A root that is no container lays out the design alone. -/
theorem layout_leaf {root : Node α} (leaf : root.strategy rules ≠ .container) :
    Layout rules root [] := by
  have top : (Site.start [] root).node = root := Site.node_start [] root
  refine ⟨?_, .nil, fun _ => rfl, ?_⟩
  · rw [settle_leaf leaf, Plot.placed, top, Plot.placedAll]
  · have whole : (Site.start [] root).emits rules = _ := Site.emits_leaf (by rwa [top])
    rw [Plot.occurrences_cons, Plot.occurrences_nil, List.append_nil]
    exact .of_eq whole.symm

/-- Every design is laid out, with nothing left over. -/
theorem exists_layout (rules : RuleSet) (root : Node α) : ∃ children, Layout rules root children := by
  by_cases container : root.strategy rules = .container
  · obtain ⟨plots, _, layout⟩ := exists_run container
    exact ⟨plots, layout⟩
  · exact ⟨[], layout_leaf container⟩

end Placement
end DesignCompiler
