import DesignCompiler.Proofs.Lifting

/-!
The order in which a placement leaves nodes under a host. Children that stay keep the order of the
design, and whatever is lifted out of a container comes after it. A flow takes nothing in and gives
nothing away.
-/
namespace DesignCompiler

variable {α : Type} [Scalar α] {rules : RuleSet}

/-- Of two paths that lead on to one path, one leads on to the other or they are the same. -/
theorem Deeper.compare {first second path : List Nat} (one : Deeper first path)
    (other : Deeper second path) : first = second ∨ Deeper first second ∨ Deeper second first := by
  obtain ⟨position, rest, rfl⟩ := one
  obtain ⟨position', rest', same⟩ := other
  rcases List.append_eq_append_iff.mp same with ⟨between, rfl, _⟩ | ⟨between, rfl, _⟩
  · cases between with
    | nil => exact .inl (by simp)
    | cons step further => exact .inr (.inl ⟨step, further, rfl⟩)
  · cases between with
    | nil => exact .inl (by simp)
    | cons step further => exact .inr (.inr ⟨step, further, rfl⟩)

theorem Deeper.length_lt {above path : List Nat} (deeper : Deeper above path) :
    above.length < path.length := by
  obtain ⟨position, rest, rfl⟩ := deeper
  simp only [List.length_append, List.length_cons]
  omega

/-- Of two members of an ordered list the lesser one stands first. -/
theorem pair_sublist {list : List Nat} {first second : Nat} (sorted : list.Pairwise (· < ·))
    (one : first ∈ list) (other : second ∈ list) (less : first < second) :
    [first, second].Sublist list := by
  obtain ⟨front, back, rfl⟩ := List.append_of_mem one
  obtain ⟨_, late, early⟩ := List.pairwise_append.mp sorted
  rcases List.mem_append.mp other with before | after
  · exact absurd (early second before first List.mem_cons_self) (by omega)
  · rcases List.mem_cons.mp after with rfl | after
    · exact absurd less (Nat.lt_irrefl _)
    · exact List.Sublist.trans (List.Sublist.cons_cons _ (List.singleton_sublist.mpr after))
        (List.sublist_append_right front _)

namespace Plot

omit [Scalar α]

/-- A place is one of some places or lies below one of them. -/
inductive Among : List (Plot α) → Plot α → Prop where
  | here {plot : Plot α} {rest : List (Plot α)} : Among (plot :: rest) plot
  | inner {plot : Plot α} {site : Site α} {notice : Option Warning} {children rest : List (Plot α)}
      (below : Among children plot) : Among (.mk site notice children :: rest) plot
  | later {plot first : Plot α} {rest : List (Plot α)} (among : Among rest plot) :
      Among (first :: rest) plot

theorem Among.of_mem {plot : Plot α} {plots : List (Plot α)} (member : plot ∈ plots) :
    Among plots plot := by
  induction plots with
  | nil => simp at member
  | cons first rest ih =>
    rcases List.mem_cons.mp member with rfl | later
    · exact .here
    · exact .later (ih later)

theorem Among.trans {low high : Plot α} {plots : List (Plot α)} (among : Among plots high)
    (below : Among high.children low) : Among plots low := by
  induction among with
  | @here plot rest =>
    obtain ⟨site, notice, children⟩ := plot
    exact .inner below
  | inner _ ih => exact .inner (ih below)
  | later _ ih => exact .later (ih below)

theorem Among.site_mem {plot : Plot α} {plots : List (Plot α)} (among : Among plots plot) :
    plot.site ∈ sitesAll plots := by
  induction among with
  | @here plot rest =>
    obtain ⟨site, notice, children⟩ := plot
    exact List.mem_append_left _ List.mem_cons_self
  | inner _ ih => exact List.mem_append_left _ (List.mem_cons_of_mem _ ih)
  | later _ ih => exact List.mem_append_right _ ih

theorem exists_among {site : Site α} : {plots : List (Plot α)} → site ∈ sitesAll plots →
    ∃ plot, Among plots plot ∧ plot.site = site
  | [], member => by simp [sitesAll] at member
  | .mk own notice children :: rest, member => by
    rw [sitesAll, sites, List.cons_append, List.mem_cons, List.mem_append] at member
    rcases member with rfl | inner | later
    · exact ⟨_, .here, rfl⟩
    · obtain ⟨plot, among, same⟩ := exists_among inner
      exact ⟨plot, .inner among, same⟩
    · obtain ⟨plot, among, same⟩ := exists_among later
      exact ⟨plot, .later among, same⟩

/-- A place that is not one of some places lies right below one among them. -/
theorem Among.host {plot : Plot α} {plots : List (Plot α)} (among : Among plots plot) :
    plot ∈ plots ∨ ∃ host, Among plots host ∧ plot ∈ host.children := by
  induction among with
  | here => exact .inl List.mem_cons_self
  | inner below ih =>
    right
    rcases ih with direct | ⟨host, within, direct⟩
    · exact ⟨_, .here, direct⟩
    · exact ⟨host, .inner within, direct⟩
  | later among ih =>
    rcases ih with direct | ⟨host, within, direct⟩
    · exact .inl (List.mem_cons_of_mem _ direct)
    · exact .inr ⟨host, .later within, direct⟩

/-- Where a place lies, by the path of its node. -/
def path (plot : Plot α) : List Nat := plot.site.path

@[simp] theorem path_mk (site : Site α) (notice : Option Warning) (children : List (Plot α)) :
    (mk site notice children).path = site.path := rfl

/-- The paths of all nodes in some places. -/
def paths (plots : List (Plot α)) : List (List Nat) := (sitesAll plots).map Site.path

theorem paths_cons (site : Site α) (notice : Option Warning) (children plots : List (Plot α)) :
    paths (.mk site notice children :: plots) = site.path :: (paths children ++ paths plots) := by
  simp [paths, sitesAll, sites]

theorem Among.path_mem {plot : Plot α} {plots : List (Plot α)} (among : Among plots plot) :
    plot.path ∈ paths plots :=
  List.mem_map_of_mem among.site_mem

theorem Among.unique {plots : List (Plot α)} {first second : Plot α} (one : Among plots first)
    (other : Among plots second) (distinct : (paths plots).Nodup) (same : first.path = second.path) :
    first = second := by
  induction one with
  | @here plot rest =>
    obtain ⟨site, notice, children⟩ := plot
    rw [paths_cons, List.nodup_cons, List.mem_append, not_or] at distinct
    rw [path_mk] at same
    cases other with
    | here => rfl
    | inner below => exact absurd (same ▸ below.path_mem) distinct.1.1
    | later among => exact absurd (same ▸ among.path_mem) distinct.1.2
  | inner below ih =>
    rw [paths_cons, List.nodup_cons, List.mem_append, not_or, List.nodup_append] at distinct
    cases other with
    | here => exact absurd (path_mk .. ▸ same ▸ below.path_mem) distinct.1.1
    | inner further => exact ih further distinct.2.1 same
    | later among => exact absurd same (distinct.2.2.2 _ below.path_mem _ among.path_mem)
  | @later plot first rest among ih =>
    obtain ⟨site, notice, children⟩ := first
    rw [paths_cons, List.nodup_cons, List.mem_append, not_or, List.nodup_append] at distinct
    cases other with
    | here => exact absurd (path_mk .. ▸ same ▸ among.path_mem) distinct.1.2
    | inner below => exact absurd same.symm (distinct.2.2.2 _ below.path_mem _ among.path_mem)
    | later further => exact ih further distinct.2.2.1 same

theorem mem_paths {path : List Nat} {plots : List (Plot α)} (member : path ∈ paths plots) :
    ∃ plot ∈ plots, path ∈ paths [plot] := by
  induction plots with
  | nil => simp [paths, sitesAll] at member
  | cons first rest ih =>
    rw [paths, sitesAll, List.map_append] at member
    rcases List.mem_append.mp member with own | later
    · exact ⟨first, List.mem_cons_self, by simpa [paths, sitesAll] using own⟩
    · obtain ⟨plot, present, inside⟩ := ih later
      exact ⟨plot, List.mem_cons_of_mem _ present, inside⟩

end Plot

/-- Below the place of a container lies what a run below it left there, and nothing below that of
another node. -/
structure Plot.Laid (rules : RuleSet) (plot : Plot α) : Prop where
  container : plot.site.node.strategy rules = .container → ∃ canLift out,
    Placement.Lifting rules plot.site canLift [] plot.site.below plot.children out
  leaf : plot.site.node.strategy rules ≠ .container → plot.children = []

/-- All containers on the way from one path to another are among some paths. -/
def Covered (host : List Nat) (seen : List (List Nat)) (path : List Nat) : Prop :=
  ∀ outer, Deeper host outer → Deeper outer path → outer ∈ seen

theorem Covered.mono {host path : List Nat} {seen wider : List (List Nat)} (covered : Covered host seen path)
    (more : seen ⊆ wider) : Covered host wider path :=
  fun outer below further => more (covered outer below further)

theorem Covered.join {host mid path : List Nat} {seen inner : List (List Nat)}
    (upper : Covered host seen mid) (lower : Covered mid inner path) (deeper : Deeper mid path) :
    Covered host (seen ++ mid :: inner) path := by
  intro outer below further
  rcases deeper.compare further with rfl | within | around
  · simp
  · have member := lower outer within further
    simp [member]
  · have member := upper outer below around
    simp [member]

omit [Scalar α] in
theorem Site.covered_below (site : Site α) : ∀ child ∈ site.below, Covered site.path [] child.path := by
  intro child member outer low high
  obtain ⟨_, _, _, _, rfl⟩ := Site.mem_starts member
  have shorter := low.length_lt
  have longer := high.length_lt
  simp only [Site.start, List.length_append, List.length_singleton] at longer
  omega

namespace Placement

namespace Lifting

variable {host : Site α} {canLift : Bool} {queue waiting lifted : List (Site α)}
  {plots : List (Plot α)}

/-- Whatever a run leaves in a place was left there by a run below it. -/
theorem laid (run : Lifting rules host canLift queue waiting plots lifted) :
    ∀ plot, Plot.Among plots plot → plot.Laid rules := by
  induction run with
  | done => rintro plot ⟨⟩
  | turn rest ih => exact ih
  | lift cut rest ih => exact ih
  | leaf stays leaf rest ih =>
    intro plot among
    cases among with
    | here => exact ⟨fun container => absurd container leaf, fun _ => rfl⟩
    | inner below => cases below
    | later among => exact ih plot among
  | frame stays container inner rest ihInner ih =>
    intro plot among
    cases among with
    | here => exact ⟨fun _ => ⟨_, _, inner⟩, fun leaf => absurd container leaf⟩
    | inner below => exact ihInner plot below
    | later among => exact ih plot among

theorem sites_of_flow (run : Lifting rules host canLift queue waiting plots lifted)
    (flow : host.node.layout?.isSome = true) : plots.map Plot.site = queue ++ waiting := by
  induction run with
  | done => rfl
  | turn rest ih => exact ih flow
  | lift cut rest ih => simp [isLifted, isCut, flow] at cut
  | leaf stays leaf rest ih => rw [List.map_cons, ih flow, Plot.site, List.cons_append]
  | frame stays container inner rest ihInner ih =>
    rw [flow, Bool.not_true] at inner
    rw [List.map_cons, ih flow, inner.lifted_nil, Plot.site, List.map_nil, List.append_nil,
      List.cons_append]

/-- The direct children of a host stay in the order they came in: what is lifted out of them lies deeper
and joins the queue without changing their order. -/
theorem directs (run : Lifting rules host canLift queue waiting plots lifted)
    (queued : ∀ site ∈ queue, Deeper host.path site.path)
    (waited : ∀ site ∈ waiting, Deeper host.path site.path) :
    ((plots.map Plot.path).filter (·.length == host.path.length + 1)).Sublist
      (((queue ++ waiting).map Site.path).filter (·.length == host.path.length + 1)) := by
  induction run with
  | done => exact .refl _
  | turn rest ih =>
    obtain ⟨next, later⟩ := List.forall_mem_cons.mp waited
    exact ih (by simpa using next) later
  | lift cut rest ih =>
    obtain ⟨_, later⟩ := List.forall_mem_cons.mp queued
    exact (ih later waited).trans (((List.sublist_cons_self _ _).map _).filter _)
  | leaf stays leaf rest ih =>
    obtain ⟨_, later⟩ := List.forall_mem_cons.mp queued
    rw [List.map_cons, List.cons_append, List.map_cons, Plot.path, Plot.site, List.filter_cons,
      List.filter_cons]
    split
    · exact (ih later waited).cons_cons _
    · exact ih later waited
  | @frame _ _ _ _ host next queue out children stays container inner rest _ ih =>
    obtain ⟨here, later⟩ := List.forall_mem_cons.mp queued
    have raised := (inner.settled (by simp) fun site member => Site.deeper_starts member).2
    have joined : ∀ site ∈ queue ++ out.map (Site.moved next.x next.y),
        Deeper host.path site.path :=
      List.forall_mem_append.mpr ⟨later, List.forall_mem_map.mpr fun site present =>
        (raised site present).trans here⟩
    -- what comes out of a frame lies deeper than its host's own children, so none of them is added
    have none : ((out.map (Site.moved next.x next.y)).map Site.path).filter
        (·.length == host.path.length + 1) = [] := by
      rw [List.filter_eq_nil_iff]
      intro path member
      rw [List.map_map] at member
      obtain ⟨site, present, rfl⟩ := List.mem_map.mp member
      have low := (raised site present).length_lt
      have high := here.length_lt
      simp only [Function.comp_apply, Site.moved, beq_iff_eq]
      omega
    have others := ih joined waited
    rw [List.append_assoc, List.map_append, List.map_append, List.filter_append, List.filter_append,
      none, List.nil_append, ← List.filter_append, ← List.map_append] at others
    rw [List.map_cons, List.cons_append, List.map_cons, Plot.path, Plot.site, List.filter_cons,
      List.filter_cons]
    split
    · exact others.cons_cons _
    · exact others

/-- A node that comes to a host from further down comes after all containers it was in: they are in
places by then. -/
theorem covered (run : Lifting rules host canLift queue waiting plots lifted) (seen : List (List Nat))
    (queued : ∀ site ∈ queue, Covered host.path seen site.path)
    (waited : ∀ site ∈ waiting, Covered host.path seen site.path) :
    (∀ front plot back, plots = front ++ plot :: back →
      Covered host.path (seen ++ Plot.paths front) plot.path) ∧
    ∀ site ∈ lifted, Covered host.path (seen ++ Plot.paths plots) site.path := by
  induction run generalizing seen with
  | done => simp
  | turn rest ih =>
    obtain ⟨next, later⟩ := List.forall_mem_cons.mp waited
    exact ih seen (by simpa using next) later
  | lift cut rest ih =>
    obtain ⟨next, later⟩ := List.forall_mem_cons.mp queued
    obtain ⟨kept, raised⟩ := ih seen later waited
    exact ⟨kept, List.forall_mem_cons.mpr ⟨next.mono (List.subset_append_left _ _), raised⟩⟩
  | @leaf _ _ _ _ _ _ next stays leaf rest ih =>
    obtain ⟨here, later⟩ := List.forall_mem_cons.mp queued
    have more : seen ⊆ seen ++ [next.path] := List.subset_append_left _ _
    obtain ⟨kept, raised⟩ := ih (seen ++ [next.path]) (fun site member => (later site member).mono more)
      fun site member => (waited site member).mono more
    constructor
    · intro front plot back split
      cases front with
      | nil =>
        obtain ⟨rfl, rfl⟩ := List.cons.inj split
        simpa [Plot.paths, Plot.sitesAll] using here
      | cons first front =>
        obtain ⟨rfl, others⟩ := List.cons.inj split
        have covered := kept front plot back others
        rw [Plot.paths_cons]
        simpa [Plot.paths, Plot.sitesAll] using covered
    · intro site member
      rw [Plot.paths_cons]
      simpa [Plot.paths, Plot.sitesAll] using raised site member
  | @frame _ _ _ _ host next queue out children stays container inner rest ihInner ih =>
    obtain ⟨here, later⟩ := List.forall_mem_cons.mp queued
    have below := (inner.settled (by simp) fun site member => Site.deeper_starts member).2
    have out' := (ihInner [] (by simp) next.covered_below).2
    rw [List.nil_append] at out'
    -- what comes out of a frame joins the queue when the frame and all in it are in places
    have joined : ∀ site ∈ queue ++ out.map (Site.moved next.x next.y),
        Covered host.path (seen ++ next.path :: Plot.paths children) site.path :=
      List.forall_mem_append.mpr
        ⟨fun site member => (later site member).mono (List.subset_append_left _ _),
          List.forall_mem_map.mpr fun site present => here.join (out' site present) (below site present)⟩
    obtain ⟨kept, raised⟩ := ih (seen ++ next.path :: Plot.paths children) joined
      fun site member => (waited site member).mono (List.subset_append_left _ _)
    constructor
    · intro front plot back split
      cases front with
      | nil =>
        obtain ⟨rfl, rfl⟩ := List.cons.inj split
        simpa [Plot.paths, Plot.sitesAll] using here
      | cons first front =>
        obtain ⟨rfl, others⟩ := List.cons.inj split
        simpa [Plot.paths_cons] using kept front plot back others
    · intro site member
      simpa [Plot.paths_cons] using raised site member

end Lifting

/-- The run below a container that is the root lays out all of it. -/
theorem laid_top {root : Node α} {children : List (Plot α)} {lifted : List (Site α)}
    (run : Lifting rules (Site.start [] root) false [] (Site.start [] root).below children lifted)
    (container : root.strategy rules = .container) :
    ∀ plot, Plot.Among [.mk (Site.start [] root) none children] plot → plot.Laid rules := by
  intro plot among
  cases among with
  | here =>
    refine ⟨fun _ => ⟨_, _, run⟩, fun leaf => absurd ?_ leaf⟩
    rwa [Plot.site, Site.node_start]
  | inner below => exact run.laid plot below
  | later among => cases among

theorem laid_alone {root : Node α} (leaf : root.strategy rules ≠ .container) :
    ∀ plot, Plot.Among [.mk (Site.start [] root) none []] plot → plot.Laid rules := by
  intro plot among
  cases among with
  | here =>
    refine ⟨fun other => absurd ?_ leaf, fun _ => rfl⟩
    rwa [Plot.site, Site.node_start] at other
  | inner below => cases below
  | later among => cases among

theorem exists_laid (rules : RuleSet) (root : Node α) : ∃ children, Layout rules root children ∧
    ∀ plot, Plot.Among [.mk (Site.start [] root) none children] plot → plot.Laid rules := by
  by_cases container : root.strategy rules = .container
  · obtain ⟨plots, run, layout⟩ := exists_run container
    exact ⟨plots, layout, laid_top run container⟩
  · exact ⟨[], layout_leaf container, laid_alone container⟩

end Placement

namespace Site

omit [Scalar α]

/-- The children of a path start in the order of the design. -/
theorem paths_starts (path : List Nat) (position : Nat) (children : List (Node α)) :
    ∃ positions : List Nat, (starts path position children).map Site.path =
      positions.map (fun step => path ++ [step]) ∧ positions.Pairwise (· < ·) ∧
      ∀ step ∈ positions, position ≤ step := by
  induction children generalizing position with
  | nil => exact ⟨[], rfl, .nil, by simp⟩
  | cons child rest ih =>
    obtain ⟨positions, same, sorted, bound⟩ := ih (position + 1)
    by_cases live : child.isLive = true
    · refine ⟨position :: positions, ?_, List.pairwise_cons.mpr ⟨bound, sorted⟩, ?_⟩
      · simp [starts, live, same, start]
      · exact List.forall_mem_cons.mpr ⟨Nat.le_refl _, fun step member =>
          Nat.le_of_succ_le (bound step member)⟩
    · exact ⟨positions, by simp [starts, live, same], sorted, fun step member =>
        Nat.le_of_succ_le (bound step member)⟩

end Site

namespace Plot.Laid

variable {plot : Plot α}

/-- What has places below the place of a node, is a container. -/
theorem container_of_mem (laid : plot.Laid rules) {child : Plot α} (member : child ∈ plot.children) :
    plot.site.node.strategy rules = .container := by
  by_contra leaf
  simp [laid.leaf leaf] at member

theorem deeper (laid : plot.Laid rules) {child : Plot α} (member : child ∈ plot.children) :
    Deeper plot.path child.path := by
  obtain ⟨canLift, out, run⟩ := laid.container (laid.container_of_mem member)
  have settled := (run.settled (by simp) fun site member => Site.deeper_starts member).1
  exact settled.deeper _ (Plot.Among.of_mem member).site_mem

/-- Where two children of a container both stay, the first one in the design comes first. -/
theorem inOrder (laid : plot.Laid rules) {first second : Nat}
    (one : plot.path ++ [first] ∈ plot.children.map Plot.path)
    (other : plot.path ++ [second] ∈ plot.children.map Plot.path) (less : first < second) :
    [plot.path ++ [first], plot.path ++ [second]].Sublist (plot.children.map Plot.path) := by
  obtain ⟨child, member, _⟩ := List.mem_map.mp one
  obtain ⟨canLift, out, run⟩ := laid.container (laid.container_of_mem member)
  have directs := run.directs (by simp) fun site member => Site.deeper_starts member
  obtain ⟨positions, started, sorted, _⟩ := Site.paths_starts plot.path 0 plot.site.origin.children
  have kept := directs.trans List.filter_sublist
  rw [List.nil_append, Site.below] at kept
  rw [show plot.site.path = plot.path from rfl, started] at kept
  obtain ⟨stay, fewer, same⟩ := List.sublist_map_iff.mp kept
  have here : ∀ step, plot.path ++ [step] ∈ plot.children.map Plot.path → step ∈ stay := by
    intro step member
    have direct : plot.path ++ [step] ∈ (plot.children.map Plot.path).filter
        (·.length == plot.path.length + 1) := List.mem_filter.mpr ⟨member, by simp⟩
    rw [same] at direct
    obtain ⟨step', present, equal⟩ := List.mem_map.mp direct
    obtain rfl : step' = step := by simpa [Plot.path] using equal
    exact present
  have pair := pair_sublist (sorted.sublist fewer) (here first one) (here second other) less
  calc [plot.path ++ [first], plot.path ++ [second]]
    List.Sublist _ (stay.map fun step => plot.path ++ [step]) :=
      pair.map fun step => plot.path ++ [step]
    List.Sublist _ (plot.children.map Plot.path) := same ▸ List.filter_sublist

/-- A node that stands under a container but not as one of its children comes after all containers
in between, each of which is, or lies below, a place in front. -/
theorem after (laid : plot.Laid rules) {front back : List (Plot α)} {low : Plot α}
    (split : plot.children = front ++ low :: back) {outer : List Nat} (below : Deeper plot.path outer)
    (above : Deeper outer low.path) : ∃ holder ∈ front, outer ∈ Plot.paths [holder] := by
  have member : low ∈ plot.children := split ▸ List.mem_append_right _ List.mem_cons_self
  obtain ⟨canLift, out, run⟩ := laid.container (laid.container_of_mem member)
  have covered := (run.covered [] (by simp) plot.site.covered_below).1 front low back split
  exact Plot.mem_paths (by simpa using covered outer below above)

/-- Under a flow stand just its live children, in the order of the design. -/
theorem sites_of_flow (laid : plot.Laid rules) (container : plot.site.node.strategy rules = .container)
    (flow : plot.site.node.layout?.isSome = true) : plot.children.map Plot.site = plot.site.below := by
  obtain ⟨canLift, out, run⟩ := laid.container container
  simpa using run.sites_of_flow flow

end Plot.Laid
end DesignCompiler
