import DesignCompiler.Proofs.Roles
import DesignCompiler.Proofs.WarningKinds
import DesignCompiler.Scalar.Rational
import Mathlib

/-!
What an emission says about clipping. A node ends up under a container, in the space of which its box may
reach out; if the container cuts it off, the log says so once, and otherwise it says nothing. A click
target is only cut off where there is no way out: under the root, and under a child of a flow.
-/
namespace DesignCompiler

variable {α : Type} [Scalar α] {rules : RuleSet}

namespace Site

/-- The container cuts the node off: it clips, it arranges no flow, and the box of the node, as it stands
in the space of the container, reaches out of that of the container. -/
def cuts (host guest : Site α) : Bool :=
  host.origin.clips && host.origin.layout?.isNone &&
    guest.node.layer.overflows host.origin.layer.width host.origin.layer.height

/-- What is to be said of a node that is cut off. -/
def cutWarning (rules : RuleSet) (host guest : Site α) : Warning :=
  let id := guest.origin.layer.id
  let name := guest.origin.layer.name
  let holder := host.origin.layer.name
  if rules.isInteractive guest.origin.layer then
    .about .promotionSkipped id
      ("interactive '" ++ name ++ "' overflows clipping '" ++ holder ++ "' but cannot be lifted")
  else
    .about .overflow id ("'" ++ name ++ "' overflows clipping '" ++ holder ++ "' and will be cut off")

/-- How a node comes to a container: as a live child of it, or out of a node that stays under the
container and that lifts it out, moved by where that node stands. -/
inductive Comes (rules : RuleSet) : Site α → Bool → Site α → Prop where
  | child {host guest : Site α} {canLift : Bool} (member : guest ∈ host.below) :
      Comes rules host canLift guest
  | lifted {host mid guest : Site α} {canLift : Bool} (upper : Comes rules host canLift mid)
      (stays : Placement.isLifted rules host.node canLift mid.node = false)
      (container : mid.node.strategy rules = .container)
      (lower : Comes rules mid (!host.node.layout?.isSome) guest)
      (cut : Placement.isLifted rules mid.node (!host.node.layout?.isSome) guest.node = true) :
      Comes rules host canLift (guest.moved mid.x mid.y)

end Site

namespace Plot

omit [Scalar α] in
mutual

/-- The containers in a place, each with the nodes under it, in the order of emission. -/
def pairs : Plot α → List (Site α × Site α)
  | mk site _ children => pairsAll site children

/-- The same for places under one container. -/
def pairsAll (host : Site α) : List (Plot α) → List (Site α × Site α)
  | [] => []
  | plot :: rest => (host, plot.site) :: (plot.pairs ++ pairsAll host rest)

end

omit [Scalar α] in
mutual

theorem map_snd_pairs : (plot : Plot α) → plot.site :: plot.pairs.map Prod.snd = plot.sites
  | mk site notice children => by
    rw [pairs, sites, map_snd_pairsAll site children]
    rfl

theorem map_snd_pairsAll (host : Site α) : (plots : List (Plot α)) →
    (pairsAll host plots).map Prod.snd = sitesAll plots
  | [] => rfl
  | plot :: rest => by
    rw [pairsAll, sitesAll, ← map_snd_pairs plot, ← map_snd_pairsAll host rest]
    simp

end

omit [Scalar α] in
theorem mem_pairsAll {host : Site α} (notice : Option Warning) {pair : Site α × Site α} :
    (plots : List (Plot α)) → pair ∈ pairsAll host plots →
    ∃ outer, Among [.mk host notice plots] outer ∧ outer.site = pair.1 ∧
      ∃ inner ∈ outer.children, inner.site = pair.2
  | [], member => by simp [pairsAll] at member
  | .mk site own children :: rest, member => by
    rw [pairsAll, pairs, List.mem_cons, List.mem_append] at member
    rcases member with rfl | below | later
    · exact ⟨_, .here, rfl, _, List.mem_cons_self, rfl⟩
    · obtain ⟨outer, among, same, inside⟩ := mem_pairsAll own children below
      refine ⟨outer, ?_, same, inside⟩
      apply Among.inner
      cases among with
      | here => exact .here
      | inner further => exact .inner further
      | later other => cases other
    · obtain ⟨outer, among, same, inside⟩ := mem_pairsAll notice rest later
      cases among with
      | here =>
        obtain ⟨inner, present, same'⟩ := inside
        exact ⟨_, .here, same, inner, List.mem_cons_of_mem _ present, same'⟩
      | inner further => exact ⟨outer, .inner (.later further), same, inside⟩
      | later other => cases other

/-- Some places under a container hold nodes that came to it and stay there, each with the notice about
it. -/
inductive Hosted (rules : RuleSet) : Site α → Bool → List (Plot α) → Prop where
  | nil {host : Site α} {canLift : Bool} : Hosted rules host canLift []
  | cons {host site : Site α} {canLift : Bool} {notice : Option Warning} {children plots : List (Plot α)}
      (comes : Site.Comes rules host canLift site)
      (stays : Placement.isLifted rules host.node canLift site.node = false)
      (told : notice = Placement.notice? rules host.node site.node)
      (leaf : site.node.strategy rules ≠ .container → children = [])
      (inner : Hosted rules site (!host.node.layout?.isSome) children)
      (rest : Hosted rules host canLift plots) :
      Hosted rules host canLift (.mk site notice children :: plots)

/-- Every pair of a container and a node under it is one of coming and staying, and a container can lift
what it cuts off unless it is the outermost one or goes under a flow. -/
theorem Hosted.pair {host : Site α} {canLift : Bool} {plots : List (Plot α)}
    (hosted : Hosted rules host canLift plots) : ∀ pair ∈ pairsAll host plots, ∃ can,
      Site.Comes rules pair.1 can pair.2 ∧ Placement.isLifted rules pair.1.node can pair.2.node = false ∧
      (pair.1 = host ∧ can = canLift ∨
        ∃ outer, (outer, pair.1) ∈ pairsAll host plots ∧ can = !outer.node.layout?.isSome) := by
  induction hosted with
  | nil => simp [pairsAll]
  | @cons host site canLift notice children plots comes stays told leaf inner rest ihInner ihRest =>
    intro pair member
    rw [pairsAll, pairs, List.mem_cons, List.mem_append] at member
    rcases member with rfl | below | later
    · exact ⟨canLift, comes, stays, .inl ⟨rfl, rfl⟩⟩
    · obtain ⟨can, comes, stays, top | ⟨outer, present, flow⟩⟩ := ihInner pair below
      · refine ⟨can, comes, stays, .inr ⟨host, ?_, top.2⟩⟩
        rw [top.1]
        exact List.mem_cons_self
      · refine ⟨can, comes, stays, .inr ⟨outer, ?_, flow⟩⟩
        exact List.mem_cons_of_mem _ (List.mem_append_left _ present)
    · obtain ⟨can, comes, stays, top | ⟨outer, present, flow⟩⟩ := ihRest pair later
      · exact ⟨can, comes, stays, .inl top⟩
      · refine ⟨can, comes, stays, .inr ⟨outer, ?_, flow⟩⟩
        exact List.mem_cons_of_mem _ (List.mem_append_right _ present)

end Plot

namespace Placement

/-- Whatever a run leaves under its host came there and stays, and whatever it lifts out came there and
is cut off. -/
theorem Lifting.hosted {host : Site α} {canLift : Bool} {queue waiting lifted : List (Site α)}
    {plots : List (Plot α)} (run : Lifting rules host canLift queue waiting plots lifted)
    (queued : ∀ site ∈ queue, Site.Comes rules host canLift site)
    (waited : ∀ site ∈ waiting, Site.Comes rules host canLift site) :
    Plot.Hosted rules host canLift plots ∧
      ∀ site ∈ lifted, Site.Comes rules host canLift site ∧
        isLifted rules host.node canLift site.node = true := by
  induction run with
  | done => exact ⟨.nil, by simp⟩
  | turn rest ih =>
    obtain ⟨next, later⟩ := List.forall_mem_cons.mp waited
    exact ih (by simpa using next) later
  | lift cut rest ih =>
    obtain ⟨next, later⟩ := List.forall_mem_cons.mp queued
    obtain ⟨kept, raised⟩ := ih later waited
    exact ⟨kept, List.forall_mem_cons.mpr ⟨⟨next, cut⟩, raised⟩⟩
  | leaf stays leaf rest ih =>
    obtain ⟨next, later⟩ := List.forall_mem_cons.mp queued
    obtain ⟨kept, raised⟩ := ih later waited
    exact ⟨.cons next stays rfl (fun _ => rfl) .nil kept, raised⟩
  | @frame canLift _ _ _ host next queue out children stays container inner rest within ih =>
    obtain ⟨here, later⟩ := List.forall_mem_cons.mp queued
    obtain ⟨under, raised⟩ := within (by simp) fun site member => .child member
    -- what comes out of a frame comes to the host by way of it
    have joined : ∀ site ∈ queue ++ out.map (Site.moved next.x next.y),
        Site.Comes rules host canLift site := by
      intro site member
      rcases List.mem_append.mp member with old | new
      · exact later site old
      · obtain ⟨low, present, rfl⟩ := List.mem_map.mp new
        obtain ⟨lower, cut⟩ := raised low present
        exact .lifted here stays container lower cut
    obtain ⟨kept, raised⟩ := ih joined waited
    exact ⟨.cons here stays rfl (fun leaf => absurd container leaf) under kept, raised⟩

/-- Every design is laid out by runs that leave every node where it came to and stays. -/
theorem exists_hosted (rules : RuleSet) (root : Node α) : ∃ children, Layout rules root children ∧
    (∀ plot, Plot.Among [.mk (Site.start [] root) none children] plot → plot.Laid rules) ∧
    Plot.Hosted rules (Site.start [] root) false children := by
  by_cases container : root.strategy rules = .container
  · obtain ⟨plots, run, layout⟩ := exists_run container
    have hosted := (run.hosted (by simp) fun site member => .child member).1
    exact ⟨plots, layout, laid_top run container, hosted⟩
  · exact ⟨[], layout_leaf container, laid_alone container, .nil⟩

end Placement

/-- A warning about a node that is cut off. -/
def Warning.isCut (warning : Warning) : Bool :=
  warning.kind == .overflow || warning.kind == .promotionSkipped

/-- What has been said about nodes that are cut off. -/
def Diagnostics.cuts (log : Diagnostics) : List Warning := log.warnings.filter Warning.isCut

/-- None of some warnings is about clipping. -/
def Warning.Other (warnings : List Warning) : Prop := ∀ warning ∈ warnings, warning.isCut = false

namespace Diagnostics

theorem cuts_warnAll (log : Diagnostics) (warnings : List Warning) :
    (log.warnAll warnings).cuts = log.cuts ++ warnings.filter Warning.isCut := by
  rw [cuts, warnAll, List.filter_append, cuts]

theorem cuts_warnAll_other {warnings : List Warning} (other : Warning.Other warnings) (log : Diagnostics) :
    (log.warnAll warnings).cuts = log.cuts := by
  have none : warnings.filter Warning.isCut = [] := by
    rw [List.filter_eq_nil_iff]
    intro warning member
    simp [other warning member]
  rw [cuts_warnAll, none, List.append_nil]

theorem cuts_warnOnce {kind : WarningKind} (known : kind ∉ [.overflow, .promotionSkipped])
    (key message : String) (log : Diagnostics) : (log.warnOnce kind key message).cuts = log.cuts := by
  unfold warnOnce
  split
  · rfl
  · have other : (Warning.mk kind none message).isCut = false := by simpa [Warning.isCut] using known
    simp [cuts, other]

end Diagnostics

theorem Warning.Within.other {kinds : List WarningKind} {warnings : List Warning}
    (within : Within kinds warnings) (apart : ∀ kind ∈ kinds, kind ∉ [.overflow, .promotionSkipped]) :
    Other warnings := by
  intro warning member
  simpa [isCut] using apart _ (within warning member)

namespace Assembly

theorem cuts_mapFont (config : TextConfig) (family : String) (log : Diagnostics) :
    (Label.mapFont config family log).2.cuts = log.cuts := by
  unfold Label.mapFont
  split
  · rfl
  · split
    · rfl
    · exact Diagnostics.cuts_warnOnce (by decide) _ _ log

theorem cuts_label (config : TextConfig) (layer : Layer α) (text : TextContent α) (log : Diagnostics) :
    (Label.emit config layer text log).2.2.cuts = log.cuts := by
  obtain ⟨after, within, same⟩ := exists_label_log config layer text
  have styled := (within_styleWarnings config layer.id text.style).other (by decide)
  rw [same, Diagnostics.cuts_warnAll_other (within.other (by decide)), cuts_mapFont,
    Diagnostics.cuts_warnAll_other styled]

theorem cuts_paint {config : TextConfig} {node : Node α} {log log' : Diagnostics}
    {painted : List (String × Property α) × List (Item α)}
    (done : (paint config (node.classify rules) node).run log = .ok (painted, log')) :
    log'.cuts = log.cuts := by
  rcases paint_log done with ⟨text, _, _, rfl⟩ | ⟨_, warnings, within, rfl⟩
  · exact cuts_label config node.layer text log
  · exact Diagnostics.cuts_warnAll_other (within.other (by decide)) log

theorem cuts_shadows {layer : Layer α} {frame : ParentFrame α} {zIndex : Int} {items : List (Item α)}
    {log log' : Diagnostics}
    (done : (shadows rules layer frame zIndex).run log = .ok (items, log')) : log'.cuts = log.cuts := by
  obtain ⟨warnings, within, rfl⟩ := shadows_log done
  exact Diagnostics.cuts_warnAll_other (within.other (by decide)) log

/-- What is to be said about some pairs of a container and a node under it, one after the other. -/
def cutWarnings (rules : RuleSet) (pairs : List (Site α × Site α)) : List Warning :=
  (pairs.filter fun pair => pair.1.cuts pair.2).map fun pair => pair.1.cutWarning rules pair.2

theorem cutWarnings_append (rules : RuleSet) (front back : List (Site α × Site α)) :
    cutWarnings rules (front ++ back) = cutWarnings rules front ++ cutWarnings rules back := by
  rw [cutWarnings, List.filter_append, List.map_append]
  rfl

theorem isCut_node (host guest : Site α) :
    Placement.isCut host.node.layer guest.node.layer host.node.clips host.node.layout?.isSome =
      host.cuts guest := by
  obtain ⟨path, origin, x, y⟩ := host
  cases origin <;> simp [Placement.isCut, Site.cuts, Site.node, Node.withLayer, Node.clips, Node.layout?,
    Node.layer]

/-- The notice about a node under a container is just what is to be said about the pair. -/
theorem notice_eq (host guest : Site α) :
    (Placement.notice? rules host.node guest.node).toList = cutWarnings rules [(host, guest)] := by
  have interactive : rules.isInteractive guest.node.layer = rules.isInteractive guest.origin.layer := by
    rw [Site.layer_node]
    rfl
  have id : guest.node.layer.id = guest.origin.layer.id := by rw [Site.layer_node]
  unfold Placement.notice? cutWarnings Site.cutWarning
  rw [isCut_node, interactive, id, Site.name_node, Site.name_node]
  by_cases cut : host.cuts guest = true
  · by_cases reacts : rules.isInteractive guest.origin.layer = true
    · simp [cut, reacts]
    · simp [cut, reacts]
  · simp [cut]

theorem filter_cutWarnings (pairs : List (Site α × Site α)) :
    (cutWarnings rules pairs).filter Warning.isCut = cutWarnings rules pairs := by
  rw [List.filter_eq_self]
  intro warning member
  obtain ⟨pair, _, rfl⟩ := List.mem_map.mp member
  unfold Site.cutWarning
  dsimp only
  split
  · rfl
  · rfl

mutual

theorem cuts_emit {config : TextConfig} {slot : Slot α} {canLift : Bool} {log log' : Diagnostics}
    {item : Item α} : (plot : Plot α) → Plot.Hosted rules plot.site canLift plot.children →
    (plot.site.node.strategy rules ≠ .container → plot.children = []) →
    (emit rules config slot plot.placed).run log = .ok (item, log') →
    log'.cuts = log.cuts ++ cutWarnings rules plot.pairs
  | .mk site notice children, hosted, leaf, done => by
    rw [Plot.placed, emit] at done
    simp only [bind_eq_ok, keep_eq_ok] at done
    obtain ⟨_, _, ⟨_, rfl⟩, _, between, painted, done⟩ := done
    have geometry := Diagnostics.cuts_warnAll_other
      ((within_place rules (placedLayer site.node.layer (site.node.classify rules).needsRaster slot)
        slot.frame slot.isRoot).other (by decide)) log
    have paint := (cuts_paint painted).trans geometry
    by_cases container : site.node.strategy rules = .container
    · simp only [if_pos container, bind_eq_ok, lift_eq_ok, pure_eq_ok] at done
      obtain ⟨_, _, ⟨_, rfl⟩, _, _, ⟨_, rfl⟩, _, _, emitted, _, _, ⟨_, rfl⟩, _, rfl⟩ := done
      have flow := Diagnostics.cuts_warnAll_other ((within_flowItems site.node).other (by decide)) between
      rw [Diagnostics.cuts_warnAll_other ((within_interactions _).other (by decide)),
        cuts_emitAll children hosted emitted, flow, paint]
      rfl
    · simp only [if_neg container, bind_eq_ok, keep_eq_ok, pure_eq_ok] at done
      obtain ⟨_, _, ⟨_, rfl⟩, _, rfl⟩ := done
      obtain rfl : children = [] := leaf container
      rw [Diagnostics.cuts_warnAll_other ((within_interactions _).other (by decide)), paint]
      exact (List.append_nil _).symm

theorem cuts_emitAll {config : TextConfig} {frame : ParentFrame α} {zIndex order : Int}
    {host : Site α} {canLift : Bool} {log log' : Diagnostics} {result : List (Item α) × Int} :
    (plots : List (Plot α)) → Plot.Hosted rules host canLift plots →
    (emitAll rules config frame zIndex order (Plot.placedAll plots)).run log = .ok (result, log') →
    log'.cuts = log.cuts ++ cutWarnings rules (Plot.pairsAll host plots)
  | [], _, done => by
    rw [Plot.placedAll, emitAll] at done
    obtain ⟨_, rfl⟩ := pure_eq_ok.mp done
    exact (List.append_nil _).symm
  | .mk site notice children :: rest, hosted, done => by
    cases hosted with
    | cons comes stays told leaf inner others =>
      rw [Plot.placedAll, emitAll] at done
      simp only [bind_eq_ok, warnAll_eq_ok, pure_eq_ok] at done
      obtain ⟨_, _, rfl, _, _, shadows, _, _, own, _, _, later, _, rfl⟩ := done
      have said : notice.toList.filter Warning.isCut = cutWarnings rules [(host, site)] := by
        rw [told, notice_eq, filter_cutWarnings]
      have split : Plot.pairsAll host (.mk site notice children :: rest) =
          [(host, site)] ++ ((Plot.mk site notice children).pairs ++ Plot.pairsAll host rest) := rfl
      rw [cuts_emitAll rest others later, cuts_emit (.mk site notice children) inner leaf own,
        cuts_shadows shadows, Diagnostics.cuts_warnAll, split, cutWarnings_append, cutWarnings_append,
        Plot.placed, Placed.notice, said]
      simp only [List.append_assoc]

end

end Assembly

/-- How an emission tells of what it cuts off. The pairs are the containers with the nodes that go under
them, in the order of emission: every node that reaches the output, other than the root, once, and as it
stands in the space of its container. -/
structure Arena.WarnsOfCuts (arena : Arena α) (rules : RuleSet) (root : Node α) (place : List Nat → Nat)
    (pairs : List (Site α × Site α)) (said : List Warning) : Prop where
  once : (pairs.map (·.2.path)).Nodup
  all : ∀ path, path ∈ pairs.map (·.2.path) ↔ Node.Reached rules root path ∧ path ≠ []
  nodes : ∀ host guest, (host, guest) ∈ pairs →
    Node.Emits rules root host.path host.origin ∧ Node.Emits rules root guest.path guest.origin
  under : ∀ host guest, (host, guest) ∈ pairs →
    ∃ inner, arena.Hosts (place host.path) inner ∧ arena.Hangs (place guest.path) inner
  /-- A container can lift what it cuts off unless it is the root or goes under a flow. -/
  comes : ∀ host guest, (host, guest) ∈ pairs → ∃ canLift,
    (canLift = false ↔
      host.path = [] ∨ ∃ outer, (outer, host) ∈ pairs ∧ outer.origin.layout?.isSome = true) ∧
    Site.Comes rules host canLift guest ∧
    Placement.isLifted rules host.node canLift guest.node = false
  /-- There is one warning for each pair in which the node is cut off, and none for any other. -/
  said : said = (pairs.filter fun pair => pair.1.cuts pair.2).map fun pair =>
    pair.1.cutWarning rules pair.2
  stuck : ∀ host guest, (host, guest) ∈ pairs → host.cuts guest = true →
    rules.isInteractive guest.origin.layer = true →
      host.path = [] ∨ ∃ outer, (outer, host) ∈ pairs ∧ outer.origin.layout?.isSome = true

namespace Assembly

section Screen

variable {root : Node α} {children : List (Plot α)} {config : TextConfig} {place : List Nat → Nat}

omit [Scalar α] in
theorem map_paths_pairsAll (host : Site α) (plots : List (Plot α)) :
    (Plot.pairsAll host plots).map (·.2.path) = Plot.paths plots := by
  rw [Plot.paths, ← Plot.map_snd_pairsAll host plots, List.map_map]
  rfl

/-- The nodes under containers are all that reach the output, but for the root. -/
theorem Staging.mem_paths (staging : Staging rules root children) {path : List Nat} :
    path ∈ Plot.paths children ↔ Node.Reached rules root path ∧ path ≠ [] := by
  have distinct := staging.nodup_paths
  have whole : Plot.paths [top root children] = [] :: Plot.paths children := by
    have none : Plot.paths ([] : List (Plot α)) = [] := rfl
    rw [Plot.paths_cons, none, List.append_nil]
    rfl
  have reached : Node.Reached rules root path ↔ path ∈ Plot.paths [top root children] := by
    rw [staging.paths_perm.mem_iff, List.mem_map]
    constructor
    · rintro ⟨node, reached⟩
      exact ⟨(path, node), Node.mem_emits.mpr ⟨path, rfl, reached⟩, rfl⟩
    · rintro ⟨⟨_, node⟩, member, rfl⟩
      obtain ⟨_, rfl, reached⟩ := Node.mem_emits.mp member
      exact ⟨node, reached⟩
  rw [whole, List.nodup_cons] at distinct
  rw [reached, whole, List.mem_cons]
  constructor
  · intro member
    refine ⟨.inr member, ?_⟩
    rintro rfl
    exact distinct.1 member
  · rintro ⟨rfl | member, low⟩
    · exact absurd rfl low
    · exact member

/-- Every node that reaches the output, other than the root, goes under one container. -/
theorem Staging.mem_pairs (staging : Staging rules root children) {path : List Nat} :
    path ∈ (Plot.pairsAll (Site.start [] root) children).map (·.2.path) ↔
      Node.Reached rules root path ∧ path ≠ [] := by
  rw [map_paths_pairsAll]
  exact staging.mem_paths

theorem Staging.nodup_pairs (staging : Staging rules root children) :
    ((Plot.pairsAll (Site.start [] root) children).map (·.2.path)).Nodup := by
  have distinct := staging.nodup_paths
  rw [Plot.paths_cons, List.nodup_cons, List.nodup_append] at distinct
  rw [map_paths_pairsAll]
  exact distinct.2.1

/-- A container can lift what it cuts off unless it is the root or goes under a flow: it goes under one
container, and the flow of that one decides. -/
theorem Staging.exists_canLift (staging : Staging rules root children)
    (hosted : Plot.Hosted rules (Site.start [] root) false children) {host guest : Site α}
    (member : (host, guest) ∈ Plot.pairsAll (Site.start [] root) children) : ∃ canLift,
      (canLift = false ↔ host.path = [] ∨ ∃ outer,
        (outer, host) ∈ Plot.pairsAll (Site.start [] root) children ∧
          outer.origin.layout?.isSome = true) ∧
      Site.Comes rules host canLift guest ∧
      Placement.isLifted rules host.node canLift guest.node = false := by
  obtain ⟨canLift, comes, stays, ⟨rfl, rfl⟩ | ⟨outer, present, flow⟩⟩ := hosted.pair _ member
  · exact ⟨false, by simp [Site.start], comes, stays⟩
  · refine ⟨canLift, ?_, comes, stays⟩
    rw [flow, Bool.not_eq_false', Site.layout_node]
    constructor
    · intro arranged
      exact .inr ⟨outer, present, arranged⟩
    · rintro (top | ⟨other, also, arranged⟩)
      · have low := (staging.mem_pairs.mp (List.mem_map_of_mem (f := (·.2.path)) present)).2
        exact absurd top low
      · have same : (other, host) = (outer, host) :=
          List.inj_on_of_nodup_map staging.nodup_pairs also present rfl
        obtain ⟨rfl, _⟩ := Prod.mk.inj same
        exact arranged

/-- If a container can lift nothing that it cuts off, a click target that stays is one that is not cut
off, or there is no way out. -/
theorem canLift_of_stays {host guest : Site α} {canLift : Bool}
    (stays : Placement.isLifted rules host.node canLift guest.node = false) (cut : host.cuts guest = true)
    (reacts : rules.isInteractive guest.origin.layer = true) : canLift = false := by
  have interactive : rules.isInteractive guest.node.layer = true := by
    rw [Site.layer_node]
    exact reacts
  simpa [Placement.isLifted, isCut_node, cut, interactive] using stays

theorem Placing.tells (placing : Placing rules config root children place)
    (staging : Staging rules root children)
    (hosted : Plot.Hosted rules (Site.start [] root) false children) :
    (drawScreen rules config root children).arena.WarnsOfCuts rules root place
      (Plot.pairsAll (Site.start [] root) children)
      (cutWarnings rules (Plot.pairsAll (Site.start [] root) children)) where
  once := staging.nodup_pairs
  all := fun _ => staging.mem_pairs
  nodes := by
    intro host guest member
    obtain ⟨outer, among, rfl, inner, inside, rfl⟩ := Plot.mem_pairsAll _ children member
    exact ⟨staging.emits among, staging.emits (among.trans (Plot.Among.of_mem inside))⟩
  under := by
    intro host guest member
    obtain ⟨outer, among, rfl, inner, inside, rfl⟩ := Plot.mem_pairsAll _ children member
    have laid := staging.laid outer among
    obtain ⟨holder, holds, hosts⟩ :=
      placing.exists_holder staging among (laid.container_of_mem inside)
    exact ⟨holder.position, hosts, placing.hangs holds laid inside⟩
  comes := fun _ _ member => staging.exists_canLift hosted member
  said := rfl
  stuck := by
    intro host guest member cut reacts
    obtain ⟨canLift, wayOut, _, stays⟩ := staging.exists_canLift hosted member
    exact wayOut.mp (canLift_of_stays stays cut reacts)

end Screen

/-- If a design is assembled, what its log gains about clipping is one warning for each node that the
container it ends up under cuts off, and a click target is cut off by the root or by a container under a flow
only. -/
theorem assemble_warns_of_cuts (rules : RuleSet) (config : TextConfig) (root : Node α)
    {log log' : Diagnostics} {arena : Arena α}
    (done : (assemble rules config root).run log = .ok (arena, log')) :
    ∃ (place : List Nat → Nat) (pairs : List (Site α × Site α)) (said : List Warning),
      arena.HasEachNode rules root place ∧ arena.WarnsOfCuts rules root place pairs said ∧
      log'.cuts = log.cuts ++ said := by
  obtain ⟨children, layout, laid, hosted⟩ := Placement.exists_hosted rules root
  obtain ⟨⟨supplied, ready⟩, rfl⟩ := drawn_of_assemble layout done
  have staging : Staging rules root children := ⟨layout, laid, supplied, ready⟩
  obtain ⟨place, placing⟩ := exists_placing config staging
  refine ⟨place, _, _, placing.houses staging, placing.tells staging hosted, ?_⟩
  rw [assemble, layout.placed] at done
  simp only [bind_eq_ok, pure_eq_ok] at done
  obtain ⟨_, _, emitted, _, rfl⟩ := done
  exact cuts_emit (top root children) hosted
    (fun leaf => layout.leaf (by rwa [Plot.site, Site.node_start] at leaf)) emitted

section Stage

/-- A cord to pull, which hangs out of its balcony and off the stage. -/
private def cord : Node Rat :=
  .shape { Layer.plain "2" "cord" ⟨15, 5, 30, 5⟩ with reactions := [⟨.onClick, none, none⟩] } .line

private def banner : Node Rat := .shape (Layer.plain "3" "banner" ⟨-5, 0, 10, 10⟩) .rectangle

private def stage : Node Rat :=
  .container (.plain "0" "stage" ⟨0, 0, 100, 100⟩) ⟨.frame, none, true⟩
    [.container (.plain "1" "balcony" ⟨70, 10, 20, 20⟩) ⟨.frame, none, true⟩ [cord, banner]]

private def crew : RuleSet := ⟨"", [], []⟩

/-- The banner is cut off by the balcony, and the cord, lifted out of it, by the stage. -/
theorem stage_warns_of_cuts : ∃ (arena : Arena Rat) (log' : Diagnostics),
    (assemble crew .default stage).run .empty = .ok (arena, log') ∧
      ∃ (place : List Nat → Nat) (pairs : List (Site Rat × Site Rat)) (said : List Warning),
        arena.WarnsOfCuts crew stage place pairs said ∧
        said.map (fun warning => (warning.kind, warning.nodeId)) =
          [(.overflow, some "3"), (.promotionSkipped, some "2")] := by
  have told : ((assemble crew .default stage).run .empty).map (fun result =>
      result.2.cuts.map fun warning => (warning.kind, warning.nodeId)) =
        .ok [(.overflow, some "3"), (.promotionSkipped, some "2")] := by cbv
  obtain ⟨⟨arena, log'⟩, done⟩ : ∃ result, (assemble crew .default stage).run .empty = .ok result := by
    cases run : (assemble crew .default stage).run .empty with
    | error failure => simp [run, Except.map] at told
    | ok result => exact ⟨result, rfl⟩
  obtain ⟨place, pairs, said, _, tells, gained⟩ := assemble_warns_of_cuts crew .default stage done
  have same : log'.cuts = said := gained
  rw [done, Except.map, same] at told
  exact ⟨arena, log', done, place, pairs, said, tells, Except.ok.inj told⟩

end Stage

end Assembly
end DesignCompiler
