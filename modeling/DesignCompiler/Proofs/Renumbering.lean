import DesignCompiler.Proofs.StrokeCollapse
import DesignCompiler.Proofs.Thinning

/-!
The stroke pass without the hidden siblings. It knows siblings by their positions, and hidden ones shift the
positions of the others; but what it decides about a group depends on the positions only as far as they tell
members apart. So it does with a tree what it does with the tree thinned of all that is hidden.
-/
namespace DesignCompiler.Stroke

open Node (thinned thinnedAll stoodIn standIn)

variable {α : Type} [Scalar α]

/-- The member at the number of its position. -/
def Member.renumber (number : Nat → Nat) (member : Member α) : Member α :=
  { member with position := number member.position }

def renumberGroup (number : Nat → Nat) (group : Key α × List (Member α)) : Key α × List (Member α) :=
  (group.1, group.2.map (Member.renumber number))

/-- The decision with the numbers of the positions. -/
def Collapse.renumber (number : Nat → Nat) (collapse : Collapse α) : Collapse α :=
  { collapse with
    survivor := number collapse.survivor
    duplicates := collapse.duplicates.map number }

/-- The positions that a decision bears on. -/
def Collapse.Touches (collapse : Collapse α) (position : Nat) : Prop :=
  position = collapse.survivor ∨ position ∈ collapse.duplicates

variable {number : Nat → Nat}

omit [Scalar α] in
/-- A choice of members that looks at their layers alone. -/
theorem filter_renumber {choice : Member α → Bool}
    (layers : ∀ member, choice (member.renumber number) = choice member) (members : List (Member α)) :
    (members.map (Member.renumber number)).filter choice =
      (members.filter choice).map (Member.renumber number) := by
  rw [List.filter_map]
  exact congrArg (List.map _) (List.filter_congr fun member _ => layers member)

theorem enter_renumber (number : Nat → Nat) (key : Key α) (member : Member α)
    (groups : List (Key α × List (Member α))) :
    enter key (member.renumber number) (groups.map (renumberGroup number)) =
      (enter key member groups).map (renumberGroup number) := by
  induction groups with
  | nil => rfl
  | cons group rest ih =>
    obtain ⟨other, members⟩ := group
    rw [List.map_cons, renumberGroup, enter, enter]
    split
    · simp [renumberGroup]
    · rw [List.map_cons, ih]
      rfl

omit [Scalar α] in
theorem survivor?_renumber (core outliers : List (Member α)) :
    survivor? (core.map (Member.renumber number)) (outliers.map (Member.renumber number)) =
      (survivor? core outliers).map (Member.renumber number) := by
  have styled : ((fun member : Member α => member.layer.hasGradientFill || member.layer.hasVisibleEffect) ∘
      Member.renumber number) = fun member => member.layer.hasGradientFill || member.layer.hasVisibleEffect :=
    rfl
  rw [survivor?, survivor?, List.find?_map, styled]
  cases outliers.find? fun member => member.layer.hasGradientFill || member.layer.hasVisibleEffect with
  | some member => rfl
  | none => cases last : outliers.getLast? <;> simp [List.getLast?_map, last]

omit [Scalar α] in
/-- The members other than the survivor, by numbers that tell them apart. -/
theorem others_renumber {members : List (Member α)} {survivor : Member α}
    (apart : ∀ member ∈ members,
      number member.position = number survivor.position → member.position = survivor.position) :
    (members.map (Member.renumber number)).filter (·.position != number survivor.position) =
      (members.filter (·.position != survivor.position)).map (Member.renumber number) := by
  rw [List.filter_map]
  refine congrArg (List.map _) (List.filter_congr fun member listed => ?_)
  have same : number member.position = number survivor.position ↔ member.position = survivor.position :=
    ⟨apart member listed, congrArg number⟩
  rw [Function.comp, Member.renumber, Bool.eq_iff_iff, bne_iff_ne, bne_iff_ne, ne_eq, ne_eq, same]

/-- A decision goes along with a numbering that tells the members apart. -/
theorem evaluate_renumber (thresholds : StrokeThresholds α) {members : List (Member α)}
    (apart : ∀ one ∈ members, ∀ other ∈ members,
      number one.position = number other.position → one.position = other.position) :
    evaluate thresholds (members.map (Member.renumber number)) =
      (evaluate thresholds members).map (Collapse.renumber number) := by
  have layers {β : Type} (view : Layer α → β) (list : List (Member α)) :
      (list.map (Member.renumber number)).map (fun member => view member.layer) =
        list.map fun member => view member.layer := by
    rw [List.map_map]
    rfl
  rw [evaluate, evaluate]
  simp only [List.partition_eq_filter_filter, layers (·.x), layers (·.y)]
  -- a decision looks at layers, which stay, and at positions only to tell members apart
  generalize median (members.map (·.layer.x)) = x, median (members.map (·.layer.y)) = y
  rw [filter_renumber fun _ => rfl, filter_renumber fun _ => rfl]
  have core_sub : ∀ member ∈ members.filter (isCore thresholds x y), member ∈ members :=
    fun member listed => (List.mem_filter.mp listed).1
  have outliers_sub : ∀ member ∈ members.filter (not ∘ isCore thresholds x y), member ∈ members :=
    fun member listed => (List.mem_filter.mp listed).1
  generalize members.filter (isCore thresholds x y) = core,
    members.filter (not ∘ isCore thresholds x y) = outliers at core_sub outliers_sub ⊢
  rw [List.length_map, layers (·.x), layers (·.y), survivor?_renumber]
  split
  · rfl
  · split
    · rfl
    · cases found : survivor? core outliers with
      | none => rfl
      | some survivor =>
        have listed : survivor ∈ members := (survivor?_mem found).elim (core_sub _) (outliers_sub _)
        have all := others_renumber fun member here => apart member here survivor listed
        have close := others_renumber fun member here => apart member (core_sub member here) survivor listed
        simp only [Option.map_some, Collapse.renumber]
        rw [Member.renumber, all, close, List.map_map, List.map_map, List.findSome?_map]
        rfl

omit [Scalar α] in
/-- Marks go along with a numbering that tells a position from all those that the decisions bear on. -/
theorem marked_renumber {found : List (Collapse α)} {position : Nat}
    (apart : ∀ collapse ∈ found, ∀ other, collapse.Touches other → number other = number position →
      other = position) (node : Node α) :
    marked (found.map (Collapse.renumber number)) (number position) node = marked found position node := by
  induction found generalizing node with
  | nil => rfl
  | cons collapse rest ih =>
    obtain ⟨own, others⟩ := List.forall_mem_cons.mp apart
    have copies : (collapse.duplicates.map number).contains (number position) =
        collapse.duplicates.contains position := by
      rw [Bool.eq_iff_iff, List.contains_iff_mem, List.contains_iff_mem, List.mem_map]
      constructor
      · rintro ⟨other, copy, same⟩
        exact own other (.inr copy) same ▸ copy
      · intro copy
        exact ⟨position, copy, rfl⟩
    have survives : (number position == number collapse.survivor) = (position == collapse.survivor) := by
      rw [Bool.eq_iff_iff, beq_iff_eq, beq_iff_eq]
      exact ⟨fun same => (own collapse.survivor (.inl rfl) same.symm).symm, congrArg number⟩
    have step : (collapse.renumber number).applyTo (number position) node = collapse.applyTo position node := by
      simp only [Collapse.applyTo, Collapse.renumber, copies, survives]
    rw [List.map_cons, marked_cons, marked_cons, step, ih others]

/-- How many of the first children are shown. -/
def rank (children : List (Node α)) (position : Nat) : Nat :=
  (children.take position).countP (·.layer.visible)

section Siblings

variable {children : List (Node α)}

omit [Scalar α]

theorem rank_zero : rank children 0 = 0 := rfl

theorem rank_succ {position : Nat} {child : Node α} (here : children[position]? = some child) :
    rank children (position + 1) = rank children position + if child.layer.visible then 1 else 0 := by
  rw [rank, List.take_add_one, here, List.countP_append, Option.toList_some, List.countP_singleton, rank]

theorem rank_lt {position other : Nat} {child : Node α} (here : children[position]? = some child)
    (shown : child.layer.visible = true) (before : position < other) :
    rank children position < rank children other := by
  have next : rank children (position + 1) = rank children position + 1 := by
    rw [rank_succ here, if_pos shown]
  have later : rank children (position + 1) ≤ rank children other :=
    (List.take_sublist_take_left before).countP_le
  omega

/-- Shown children have ranks of their own. -/
theorem eq_of_rank_eq {position other : Nat} {child sibling : Node α}
    (here : children[position]? = some child) (there : children[other]? = some sibling)
    (shown : child.layer.visible = true) (shown' : sibling.layer.visible = true)
    (same : rank children position = rank children other) : position = other := by
  rcases Nat.lt_trichotomy position other with before | eq | after
  · exact absurd same (Nat.ne_of_lt (rank_lt here shown before))
  · exact eq
  · exact absurd same.symm (Nat.ne_of_lt (rank_lt there shown' after))

/-- The position is that of a child that is shown. -/
def ShownAt (children : List (Node α)) (position : Nat) : Prop :=
  ∃ child, children[position]? = some child ∧ child.layer.visible = true

theorem ShownAt.unique {position other : Nat} (here : ShownAt children position)
    (there : ShownAt children other) (same : rank children position = rank children other) :
    position = other := by
  obtain ⟨child, here, shown⟩ := here
  obtain ⟨sibling, there, shown'⟩ := there
  exact eq_of_rank_eq here there shown shown' same

/-- The first of the children from a position on, and those behind it. -/
theorem of_drop {position : Nat} {child : Node α} {rest : List (Node α)}
    (from_here : children.drop position = child :: rest) :
    children[position]? = some child ∧ children.drop (position + 1) = rest := by
  constructor
  · rw [← Nat.add_zero position, ← List.getElem?_drop, from_here]
    rfl
  · rw [← List.drop_drop, from_here]
    rfl

theorem visible_of_isLive {node : Node α} (live : node.isLive = true) : node.layer.visible = true := by
  rw [Node.isLive, Layer.isLive, Bool.and_eq_true] at live
  exact live.1

end Siblings

theorem key?_thinned (node : Node α) : key? (node.thinned Layer.visible) = key? node := by
  rw [key?, key?, Node.isLive_thinned, Node.content?_thinned]

omit [Scalar α] in
theorem key?_hidden {node : Node α} (hidden : node.layer.visible = false) : key? node = none := by
  rw [key?, Node.isLive, Layer.isLive, hidden]
  rfl

/-- Among the shown children there are the same groups, by rank. The recursion is on the children still to
come; the list that they are the end of stays the same, because ranks count from its start. -/
theorem groupsFrom_thinned {children : List (Node α)} (groups : List (Key α × List (Member α))) :
    (rest : List (Node α)) → (position : Nat) → children.drop position = rest →
      groupsFrom (rank children position) (groups.map (renumberGroup (rank children)))
          (thinnedAll Layer.visible rest) =
        (groupsFrom position groups rest).map (renumberGroup (rank children))
  | [], _, _ => rfl
  | child :: rest, position, from_here => by
    obtain ⟨here, behind⟩ := of_drop from_here
    rw [groupsFrom, thinnedAll]
    by_cases shown : child.layer.visible = true
    · have next : rank children (position + 1) = rank children position + 1 := by
        rw [rank_succ here, if_pos shown]
      rw [if_pos shown, groupsFrom, key?_thinned, Node.layer_thinned, ← next]
      cases key? child with
      | none => exact groupsFrom_thinned groups rest (position + 1) behind
      | some key =>
        have entered := enter_renumber (rank children) key ⟨position, child.layer⟩ groups
        rw [Member.renumber] at entered
        simp only [entered]
        exact groupsFrom_thinned _ rest (position + 1) behind
    · have hidden : child.layer.visible = false := by simpa using shown
      have next : rank children (position + 1) = rank children position := by
        rw [rank_succ here, if_neg shown]
        rfl
      rw [if_neg shown, key?_hidden hidden, ← next]
      exact groupsFrom_thinned groups rest (position + 1) behind

theorem mem_enter {key : Key α} {member inner : Member α} {groups : List (Key α × List (Member α))}
    {group : Key α × List (Member α)} (listed : group ∈ enter key member groups) (inside : inner ∈ group.2) :
    inner = member ∨ ∃ before ∈ groups, inner ∈ before.2 := by
  induction groups with
  | nil =>
    rw [enter, List.mem_singleton] at listed
    subst listed
    exact .inl (List.mem_singleton.mp inside)
  | cons first rest ih =>
    rw [enter] at listed
    split at listed
    · rcases List.mem_cons.mp listed with rfl | later
      · rcases List.mem_append.mp inside with old | new
        · exact .inr ⟨first, List.mem_cons_self, old⟩
        · exact .inl (List.mem_singleton.mp new)
      · exact .inr ⟨group, List.mem_cons_of_mem _ later, inside⟩
    · rcases List.mem_cons.mp listed with rfl | later
      · exact .inr ⟨first, List.mem_cons_self, inside⟩
      · refine (ih later).imp_right ?_
        rintro ⟨before, within, old⟩
        exact ⟨before, List.mem_cons_of_mem _ within, old⟩

/-- The members of all groups are children that are shown. -/
theorem shownAt_groupsFrom {children : List (Node α)} {groups : List (Key α × List (Member α))}
    (old : ∀ group ∈ groups, ∀ member ∈ group.2, ShownAt children member.position) :
    (rest : List (Node α)) → (position : Nat) → children.drop position = rest →
      ∀ group ∈ groupsFrom position groups rest, ∀ member ∈ group.2, ShownAt children member.position
  | [], _, _ => old
  | child :: rest, position, from_here => by
    obtain ⟨here, behind⟩ := of_drop from_here
    rw [groupsFrom]
    refine shownAt_groupsFrom ?_ rest (position + 1) behind
    cases key_eq : key? child with
    | none => exact old
    | some key =>
      intro group listed member inside
      rcases mem_enter listed inside with rfl | ⟨before, listed, inside⟩
      · exact ⟨child, here, visible_of_isLive (key?_eq_some key_eq).1⟩
      · exact old before listed member inside

theorem shownAt_candidates {least : Nat} {children : List (Node α)} {members : List (Member α)}
    (large : members ∈ candidates least children) : ∀ member ∈ members, ShownAt children member.position := by
  obtain ⟨group, listed, rfl⟩ := List.mem_map.mp (List.mem_filter.mp large).1
  exact shownAt_groupsFrom (List.forall_mem_nil _) children 0 rfl group listed

/-- Decisions bear on children that are shown. -/
theorem shownAt_collapses {thresholds : StrokeThresholds α} {children : List (Node α)}
    {collapse : Collapse α} (found : collapse ∈ collapses thresholds children) {position : Nat}
    (touches : collapse.Touches position) : ShownAt children position := by
  obtain ⟨members, large, decided⟩ := List.mem_filterMap.mp found
  obtain ⟨_, survives, copies⟩ := evaluate_eq_some decided
  have listed : position ∈ members.map (·.position) := by
    rcases touches with rfl | copy
    · exact survives
    · exact (List.mem_filter.mp (copies ▸ copy)).1
  obtain ⟨member, inside, rfl⟩ := List.mem_map.mp listed
  exact shownAt_candidates large member inside

theorem candidates_thinned (least : Nat) (children : List (Node α)) :
    candidates least (thinnedAll Layer.visible children) =
      (candidates least children).map (List.map (Member.renumber (rank children))) := by
  have groups := groupsFrom_thinned [] children 0 rfl
  rw [rank_zero, List.map_nil] at groups
  rw [candidates, candidates, groups, List.map_map, List.filter_map, List.filter_map, List.map_map]
  refine congrArg₂ List.map rfl (List.filter_congr fun group _ => ?_)
  simp only [Function.comp, renumberGroup, List.length_map]

/-- Of the shown children the same is decided, by rank. -/
theorem collapses_thinned (thresholds : StrokeThresholds α) (children : List (Node α)) :
    collapses thresholds (thinnedAll Layer.visible children) =
      (collapses thresholds children).map (Collapse.renumber (rank children)) := by
  rw [collapses, collapses, candidates_thinned, List.filterMap_map, List.map_filterMap]
  refine List.filterMap_congr fun members large => ?_
  have shown := shownAt_candidates large
  exact evaluate_renumber thresholds fun one first other second => (shown one first).unique (shown other second)

omit [Scalar α] in
theorem reportOf_renumber (number : Nat → Nat) (found : List (Collapse α)) :
    reportOf (found.map (Collapse.renumber number)) = reportOf found := by
  simp only [reportOf, List.length_map, List.foldl_map, Collapse.renumber]

omit [Scalar α] in
theorem marked_thinned [Scalar α] (keeps : Layer α → Bool) (found : List (Collapse α)) (position : Nat)
    (node : Node α) :
    marked found position (node.thinned keeps) = (marked found position node).thinned keeps := by
  induction found generalizing node with
  | nil => rfl
  | cons collapse rest ih =>
    have own : collapse.applyTo position (node.thinned keeps) =
        (collapse.applyTo position node).thinned keeps := by
      simp only [Collapse.applyTo]
      split
      · cases node <;> rfl
      · split
        · cases node <;> rfl
        · rfl
    rw [marked_cons, marked_cons, own, ih]

omit [Scalar α] in
theorem visible_marked (found : List (Collapse α)) (position : Nat) (node : Node α) :
    (marked found position node).layer.visible = node.layer.visible :=
  @marked_of_annotate α Bool (·.layer.visible) (fun change node => by cases node <;> rfl) found position node

theorem isEmpty_resolved (thresholds : StrokeThresholds α) (children : List (Node α)) :
    (resolved thresholds children).isEmpty = children.isEmpty := by
  cases children with
  | nil => rfl
  | cons child rest =>
    rw [resolved, resolveAll_cons]
    rfl

/-- What the pass reports of some siblings and all below them. -/
def reportAll (thresholds : StrokeThresholds α) (children : List (Node α)) : Report :=
  (reportOf (collapses thresholds children)).add
    (resolveAll thresholds (collapses thresholds children) 0 children).2

theorem resolve_container (thresholds : StrokeThresholds α) (layer : Layer α) (props : ContainerProps α)
    (children : List (Node α)) :
    resolve thresholds (.container layer props children) =
      (.container layer props (resolved thresholds children), reportAll thresholds children) := rfl

mutual

/-- The stroke pass does with a tree what it does with the tree thinned of all that is hidden. -/
theorem resolve_thinned (thresholds : StrokeThresholds α) : (node : Node α) →
    resolve thresholds (node.thinned Layer.visible) =
      ((resolve thresholds node).1.thinned Layer.visible, (resolve thresholds node).2)
  | .container layer props children => by
    have kept := resolveAll_thinned thresholds children (collapses thresholds children)
      (fun _ => shownAt_collapses) children 0 rfl
    rw [← collapses_thinned, rank_zero] at kept
    have after : resolved thresholds (stoodIn children (thinnedAll Layer.visible children)) =
        stoodIn (resolved thresholds children) (thinnedAll Layer.visible (resolved thresholds children)) :=
      (Node.pass_stoodIn _ rfl (isEmpty_resolved thresholds) ..).trans
        (congrArg (stoodIn _) (congrArg Prod.fst kept))
    have counted : reportAll thresholds (stoodIn children (thinnedAll Layer.visible children)) =
        reportAll thresholds children := by
      rw [Node.view_stoodIn (reportAll thresholds) rfl, reportAll, reportAll, kept, collapses_thinned,
        reportOf_renumber]
    rw [thinned, resolve_container, resolve_container, after, counted, thinned]
  | .text layer content => rfl
  | .shape layer kind => rfl

theorem resolveAll_thinned (thresholds : StrokeThresholds α) (children : List (Node α))
    (found : List (Collapse α))
    (shown : ∀ collapse ∈ found, ∀ {position}, collapse.Touches position → ShownAt children position) :
    (rest : List (Node α)) → (position : Nat) → children.drop position = rest →
      resolveAll thresholds (found.map (Collapse.renumber (rank children))) (rank children position)
          (thinnedAll Layer.visible rest) =
        (thinnedAll Layer.visible (resolveAll thresholds found position rest).1,
          (resolveAll thresholds found position rest).2)
  | [], _, _ => rfl
  | child :: rest, position, from_here => by
    obtain ⟨here, behind⟩ := of_drop from_here
    have others := resolveAll_thinned thresholds children found shown rest (position + 1) behind
    have visible (node : Node α) (same : node.layer = child.layer) :
        (marked found position node).layer.visible = child.layer.visible := by
      rw [visible_marked, same]
    -- decisions tell shown children apart by rank as well; a hidden child is touched by none of them
    by_cases seen : child.layer.visible = true
    · have next : rank children position + 1 = rank children (position + 1) := by
        rw [rank_succ here, if_pos seen]
      have marks (node : Node α) : marked (found.map (Collapse.renumber (rank children)))
          (rank children position) node = marked found position node :=
        marked_renumber (fun collapse listed other touches same =>
          (shown collapse listed touches).unique ⟨child, here, seen⟩ same) node
      have own := resolve_thinned thresholds child
      rw [thinnedAll, if_pos seen]
      refine Prod.ext ?_ ?_
      · rw [resolveAll_cons, resolveAll_cons, marks, marks, marked_thinned, Node.isLive_thinned, own, next,
          others, thinnedAll]
        split
        · rw [if_pos ((visible _ (layer_resolve ..)).trans seen), marked_thinned]
        · rw [if_pos ((visible _ rfl).trans seen), marked_thinned]
      · rw [report_resolveAll, report_resolveAll, marks, marked_thinned, Node.isLive_thinned, own, next, others]
    · have next : rank children position = rank children (position + 1) := by
        rw [rank_succ here, if_neg seen]
        rfl
      have hidden : ¬ (marked found position child).isLive = true := fun live =>
        seen (visible_of_isLive (isLive_of_marked live))
      rw [thinnedAll, if_neg seen, next, others]
      refine Prod.ext ?_ ?_
      · rw [resolveAll_cons, if_neg hidden, thinnedAll, if_neg (by rwa [visible _ rfl])]
      · rw [report_resolveAll, if_neg hidden]

end

end DesignCompiler.Stroke
