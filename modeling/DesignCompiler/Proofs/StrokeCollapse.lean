import DesignCompiler.Proofs.StrokeGroups

/-!
What the stroke pass does to a tree about which nothing is noted yet. It only hides copies: of every class
of equal texts among siblings it leaves all or one, its report counts what it did, and done again it finds
nothing more to do.
-/
namespace DesignCompiler

section Trees

variable {α : Type}

theorem Layer.unmarked_fresh {layer : Layer α} (none : layer.annotations = .none) :
    layer.unmarked = layer := by
  cases layer
  cases none
  rfl

namespace Node

mutual

/-- The tree without any marks for imitated outlines. -/
def unmarked : Node α → Node α
  | .text layer content => .text layer.unmarked content
  | .container layer props children => .container layer.unmarked props (unmarkedAll children)
  | .shape layer kind => .shape layer.unmarked kind

def unmarkedAll : List (Node α) → List (Node α)
  | [] => []
  | node :: rest => node.unmarked :: unmarkedAll rest

end

mutual

theorem unmarked_fresh : (node : Node α) → node.Fresh → node.unmarked = node
  | .container layer props children, fresh => by
    have own : layer.unmarked = layer := Layer.unmarked_fresh fresh.own
    rw [unmarked, own, unmarkedAll_fresh children fun child member => fresh.below member]
  | .text layer content, fresh => by
    have own : layer.unmarked = layer := Layer.unmarked_fresh fresh.own
    rw [unmarked, own]
  | .shape layer kind, fresh => by
    have own : layer.unmarked = layer := Layer.unmarked_fresh fresh.own
    rw [unmarked, own]

theorem unmarkedAll_fresh : (nodes : List (Node α)) → (∀ node ∈ nodes, node.Fresh) →
    unmarkedAll nodes = nodes
  | [], _ => rfl
  | node :: rest, fresh => by
    obtain ⟨own, others⟩ := List.forall_mem_cons.mp fresh
    rw [unmarkedAll, unmarked_fresh node own, unmarkedAll_fresh rest others]

end

end Node

namespace Stroke

theorem unmarked_marked (found : List (Collapse α)) (position : Nat) (node : Node α) :
    (marked found position node).unmarked = node.unmarked := by
  induction found generalizing node with
  | nil => rfl
  | cons collapse rest ih =>
    rw [marked_cons, ih, Collapse.applyTo]
    split
    · cases node <;> rfl
    · split
      · cases node <;> rfl
      · rfl

variable [Scalar α]

mutual

/-- The pass changes nothing but marks. -/
theorem unmarked_resolve (thresholds : StrokeThresholds α) :
    (node : Node α) → (resolve thresholds node).1.unmarked = node.unmarked
  | .container layer props children => by
    rw [resolve, Node.unmarked, Node.unmarked]
    exact congrArg (Node.container _ props) (unmarkedAll_resolveAll thresholds _ 0 children)
  | .text layer content => rfl
  | .shape layer kind => rfl

theorem unmarkedAll_resolveAll (thresholds : StrokeThresholds α) (found : List (Collapse α))
    (position : Nat) : (children : List (Node α)) →
      Node.unmarkedAll (resolveAll thresholds found position children).1 = Node.unmarkedAll children
  | [] => rfl
  | child :: rest => by
    rw [resolveAll_cons, Node.unmarkedAll, Node.unmarkedAll, unmarked_marked,
      unmarkedAll_resolveAll thresholds found (position + 1) rest]
    split
    · rw [unmarked_resolve thresholds child]
    · rfl

end

/-- How many nodes of some trees have an inferred outline, and how many are marked as copies. -/
def tallyAll (nodes : List (Node α)) : Report :=
  ⟨(Node.preorders nodes).countP (·.layer.annotations.inferredStroke.isSome),
    (Node.preorders nodes).countP (·.layer.annotations.duplicate)⟩

/-- The same of one tree. -/
def tally (node : Node α) : Report :=
  ⟨node.preorder.countP (·.layer.annotations.inferredStroke.isSome),
    node.preorder.countP (·.layer.annotations.duplicate)⟩

/-- Whether a decision gives a child an outline. -/
def Collapse.outlines (collapse : Collapse α) (position : Nat) : Bool :=
  position == collapse.survivor && !collapse.duplicates.contains position

/-- What some decisions note about the children from a position on. -/
def noted (found : List (Collapse α)) (position count : Nat) : Report :=
  ⟨(List.range' position count).countP fun position => found.any (·.outlines position),
    (List.range' position count).countP fun position => (found.flatMap (·.duplicates)).contains position⟩

omit [Scalar α]

theorem tallyAll_cons (node : Node α) (rest : List (Node α)) :
    tallyAll (node :: rest) = (tally node).add (tallyAll rest) := by
  rw [tallyAll, Node.preorders, List.countP_append, List.countP_append]
  rfl

theorem outlined_marked (found : List (Collapse α)) (position : Nat) (node : Node α) :
    (marked found position node).layer.annotations.inferredStroke.isSome =
      (node.layer.annotations.inferredStroke.isSome || found.any (·.outlines position)) := by
  induction found generalizing node with
  | nil => simp [marked]
  | cons collapse rest ih =>
    rw [marked_cons, ih, List.any_cons, ← Bool.or_assoc, Collapse.applyTo, Collapse.outlines]
    refine congrArg (· || _) ?_
    split
    · rename_i copy
      rw [copy, Bool.not_true, Bool.and_false, Bool.or_false]
      cases node <;> rfl
    · rename_i stays
      rw [Bool.not_eq_true] at stays
      rw [stays, Bool.not_false, Bool.and_true]
      split
      · rename_i same
        rw [same, Bool.or_true]
        cases node <;> rfl
      · rename_i apart
        rw [Bool.not_eq_true] at apart
        rw [apart, Bool.or_false]

theorem duplicate_marked (found : List (Collapse α)) (position : Nat) (node : Node α) :
    (marked found position node).layer.annotations.duplicate =
      (node.layer.annotations.duplicate || (found.flatMap (·.duplicates)).contains position) := by
  induction found generalizing node with
  | nil => simp [marked]
  | cons collapse rest ih =>
    rw [marked_cons, ih, List.flatMap_cons, List.contains_append, ← Bool.or_assoc, Collapse.applyTo]
    refine congrArg (· || _) ?_
    split
    · rename_i copy
      rw [copy, Bool.or_true]
      cases node <;> rfl
    · rename_i stays
      rw [Bool.not_eq_true] at stays
      rw [stays, Bool.or_false]
      split
      · cases node <;> rfl
      · rfl

/-- Marks on a node of which nothing is noted. -/
theorem tally_marked {node : Node α} (none : node.layer.annotations = .none) (found : List (Collapse α))
    (position : Nat) :
    tally (marked found position node) = (noted found position 1).add (tally node) := by
  simp only [tally, noted, Report.add, Node.preorder_eq (marked found position node),
    Node.preorder_eq node, children_marked, List.countP_cons, outlined_marked, duplicate_marked, none,
    Annotations.none, List.range'_one, List.countP_nil, Option.isSome_none, Bool.false_or, Nat.zero_add,
    Nat.add_zero, Bool.false_eq_true, if_false]
  rw [Nat.add_comm, Nat.add_comm (List.countP _ _)]

theorem tally_fresh {node : Node α} (fresh : node.Fresh) : tally node = ⟨0, 0⟩ := by
  rw [tally, Report.mk.injEq, List.countP_eq_zero, List.countP_eq_zero]
  constructor
  · intro inner member
    simp [fresh inner member, Annotations.none]
  · intro inner member
    simp [fresh inner member, Annotations.none]

theorem noted_succ (found : List (Collapse α)) (position count : Nat) :
    noted found position (count + 1) = (noted found position 1).add (noted found (position + 1) count) := by
  simp only [noted, Report.add, List.range'_succ, List.countP_cons, List.range'_zero, List.countP_nil,
    Report.mk.injEq]
  omega

variable [Scalar α]

theorem report_resolveAll (thresholds : StrokeThresholds α) (found : List (Collapse α)) (position : Nat)
    (child : Node α) (rest : List (Node α)) :
    (resolveAll thresholds found position (child :: rest)).2 =
      if (marked found position child).isLive then
        (resolve thresholds child).2.add (resolveAll thresholds found (position + 1) rest).2
      else (resolveAll thresholds found (position + 1) rest).2 := by
  rw [resolveAll]
  by_cases live : (marked found position child).isLive = true
  · rw [if_pos live]
    exact congrArg Prod.snd (if_pos live)
  · rw [if_neg live]
    exact (congrArg Prod.snd (if_neg live)).trans rfl

omit [Scalar α] in
/-- Of a list without repetitions each item is counted once. -/
theorem countP_range_mem {count : Nat} {listed : List Nat} (nodup : listed.Nodup)
    (bounded : ∀ position ∈ listed, position < count) :
    (List.range count).countP (fun position => decide (position ∈ listed)) = listed.length := by
  rw [List.countP_eq_length_filter]
  refine List.Perm.length_eq ?_
  refine (List.perm_ext_iff_of_nodup (List.nodup_range.filter _) nodup).mpr fun position => ?_
  rw [List.mem_filter, List.mem_range, decide_eq_true_eq]
  exact ⟨And.right, fun member => ⟨bounded position member, member⟩⟩

section Noting

variable [Scalar.Discerning α] (thresholds : StrokeThresholds α) (children : List (Node α))

theorem lt_length_of_collapse {collapse : Collapse α} (found : collapse ∈ collapses thresholds children)
    {position : Nat} (touched : position ∈ collapse.duplicates ∨ position = collapse.survivor) :
    position < children.length := by
  obtain ⟨key, decided⟩ := exists_verdict found
  obtain ⟨child, here, _⟩ := mem_of_verdict? decided touched
  exact (List.getElem?_eq_some_iff.mp here).1

theorem nodup_survivors : ((collapses thresholds children).map (·.survivor)).Nodup := by
  rw [List.Nodup, List.pairwise_map]
  refine (collapses_apart thresholds children).imp ?_
  intro one other disjoint same
  exact disjoint one.survivor (.inr rfl) (.inr same)

theorem nodup_duplicates : ((collapses thresholds children).flatMap (·.duplicates)).Nodup := by
  rw [List.nodup_flatMap]
  constructor
  · intro collapse found
    obtain ⟨key, decided⟩ := exists_verdict found
    rw [(verdict?_eq_some decided).2.2]
    exact (nodup_fellows key children).filter _
  · refine (collapses_apart thresholds children).imp ?_
    intro one other disjoint position copy copy'
    exact disjoint position (.inl copy) (.inl copy')

/-- A survivor is no copy, so every decision gives its survivor an outline. -/
theorem any_outlines (position : Nat) : (collapses thresholds children).any (·.outlines position) =
    decide (position ∈ (collapses thresholds children).map (·.survivor)) := by
  rw [Bool.eq_iff_iff, List.any_eq_true, decide_eq_true_eq, List.mem_map]
  refine exists_congr fun collapse => and_congr_right fun found => ?_
  obtain ⟨key, decided⟩ := exists_verdict found
  rw [Collapse.outlines, (verdict?_eq_some decided).2.2, Bool.and_eq_true, beq_iff_eq]
  constructor
  · intro both
    exact both.1.symm
  · rintro rfl
    simp

omit [Scalar α] [Scalar.Discerning α] in
theorem reportOf_eq (found : List (Collapse α)) :
    reportOf found = ⟨found.length, (found.flatMap (·.duplicates)).length⟩ := by
  have total (start : Nat) :
      found.foldl (fun total collapse => total + collapse.duplicates.length) start =
        start + (found.flatMap (·.duplicates)).length := by
    induction found generalizing start with
    | nil => rfl
    | cons collapse rest ih =>
      rw [List.foldl_cons, ih, List.flatMap_cons, List.length_append, Nat.add_assoc]
  rw [reportOf, total, Nat.zero_add]

/-- All that is decided about siblings is noted at one of them. -/
theorem noted_collapses : noted (collapses thresholds children) 0 children.length =
    reportOf (collapses thresholds children) := by
  have survivors : ∀ position ∈ (collapses thresholds children).map (·.survivor),
      position < children.length := by
    intro position member
    obtain ⟨collapse, found, rfl⟩ := List.mem_map.mp member
    exact lt_length_of_collapse thresholds children found (.inr rfl)
  have copies : ∀ position ∈ (collapses thresholds children).flatMap (·.duplicates),
      position < children.length := by
    intro position member
    obtain ⟨collapse, found, copy⟩ := List.mem_flatMap.mp member
    exact lt_length_of_collapse thresholds children found (.inl copy)
  rw [noted, reportOf_eq, ← List.range_eq_range', funext (any_outlines thresholds children),
    countP_range_mem (nodup_survivors thresholds children) survivors, List.length_map,
    ← countP_range_mem (nodup_duplicates thresholds children) copies]
  simp only [List.contains_eq_mem]

end Noting

mutual

/-- The report of the pass counts the outlines and the marks in the tree. -/
theorem tally_resolve [Scalar.Discerning α] (thresholds : StrokeThresholds α) :
    (node : Node α) → node.Fresh → tally (resolve thresholds node).1 = (resolve thresholds node).2
  | .container layer props children, fresh => by
    have none : layer.annotations = .none := fresh.own
    have below := tallyAll_resolveAll thresholds (collapses thresholds children) 0 children
      fun child member => fresh.below member
    rw [noted_collapses] at below
    rw [resolve]
    refine Eq.trans ?_ below
    simp [tally, tallyAll, Node.preorder, Node.layer, none, Annotations.none]
  | .text layer content, fresh => tally_fresh fresh
  | .shape layer kind, fresh => tally_fresh fresh

theorem tallyAll_resolveAll [Scalar.Discerning α] (thresholds : StrokeThresholds α)
    (found : List (Collapse α)) (position : Nat) : (children : List (Node α)) →
    (∀ child ∈ children, child.Fresh) →
      tallyAll (resolveAll thresholds found position children).1 =
        (noted found position children.length).add (resolveAll thresholds found position children).2
  | [], _ => rfl
  | child :: rest, fresh => by
    obtain ⟨own, others⟩ := List.forall_mem_cons.mp fresh
    rw [resolveAll_cons, tallyAll_cons, tallyAll_resolveAll thresholds found (position + 1) rest others,
      report_resolveAll, List.length_cons, noted_succ]
    split
    · rw [tally_marked (by rw [layer_resolve, own.own]), tally_resolve thresholds child own]
      simp only [Report.add, Report.mk.injEq]
      omega
    · rw [tally_marked own.own, tally_fresh own]
      simp only [Report.add, Report.mk.injEq]
      omega

end

theorem resolveAll_nil (thresholds : StrokeThresholds α) (position : Nat) {children : List (Node α)}
    (done : ∀ child ∈ children, child.isLive = true → resolve thresholds child = (child, ⟨0, 0⟩)) :
    resolveAll thresholds [] position children = (children, ⟨0, 0⟩) := by
  induction children generalizing position with
  | nil => rfl
  | cons child rest ih =>
    obtain ⟨own, others⟩ := List.forall_mem_cons.mp done
    have first := resolveAll_cons thresholds [] position child rest
    have report := report_resolveAll thresholds [] position child rest
    rw [ih (position + 1) others] at first report
    have unmarked (node : Node α) : marked [] position node = node := rfl
    rw [unmarked, unmarked] at first
    rw [unmarked] at report
    by_cases live : child.isLive = true
    · rw [if_pos live, own live] at first report
      exact Prod.ext first report
    · rw [if_neg live] at first report
      exact Prod.ext first report

mutual

/-- The pass done again changes nothing and finds nothing. -/
theorem resolve_resolve [Scalar.Discerning α] {thresholds : StrokeThresholds α}
    (enough : 2 ≤ thresholds.minGroup) : (node : Node α) →
      resolve thresholds (resolve thresholds node).1 = ((resolve thresholds node).1, ⟨0, 0⟩)
  | .container layer props children => by
    have below : ∀ child ∈ resolved thresholds children,
        child.isLive = true → resolve thresholds child = (child, ⟨0, 0⟩) := by
      intro after member live
      obtain ⟨position, there⟩ := List.mem_iff_getElem?.mp member
      obtain ⟨child, here, fate⟩ := fate_of_resolved there
      cases fate with
      | copy key_eq | survivor key_eq | kept key_eq =>
        obtain ⟨_, layer, content, rfl, _⟩ := key?_eq_some key_eq
        rfl
      | other =>
        split at live
        · rw [if_pos ‹_›]
          exact resolve_each enough children child (List.mem_of_getElem? here)
        · contradiction
    have again := resolveAll_nil thresholds 0 below
    rw [← collapses_resolved enough] at again
    have same : (resolve thresholds (.container layer props children)).1 =
        .container layer props (resolved thresholds children) := rfl
    rw [same, resolve, again, collapses_resolved enough]
    rfl
  | .text layer content => rfl
  | .shape layer kind => rfl

theorem resolve_each [Scalar.Discerning α] {thresholds : StrokeThresholds α}
    (enough : 2 ≤ thresholds.minGroup) : (children : List (Node α)) → ∀ child ∈ children,
      resolve thresholds (resolve thresholds child).1 = ((resolve thresholds child).1, ⟨0, 0⟩)
  | [] => nofun
  | first :: rest =>
    List.forall_mem_cons.mpr ⟨resolve_resolve enough first, resolve_each enough rest⟩

end

end Stroke

end Trees

namespace Stroke

/-- Texts of the same characters, font size bit for bit, and font family. -/
def Kin (one other : Node Float) : Prop :=
  ∃ content content', one.content? = some content ∧ other.content? = some content' ∧
    content.characters = content'.characters ∧
    content.style.fontSize.toBits = content'.style.fontSize.toBits ∧
    content.style.fontFamily = content'.style.fontFamily

/-- Where the live texts of the same class stand among siblings. -/
def kinship (siblings : List (Node Float)) (text : Node Float) : Set Nat :=
  {position | ∃ other, siblings[position]? = some other ∧ other.isLive = true ∧ Kin text other}

/-- Characters that are shown among siblings. -/
def Shown (siblings : List (Node Float)) (characters : String) : Prop :=
  ∃ node ∈ siblings, node.isLive = true ∧ ∃ content, node.content? = some content ∧
    content.characters = characters

/-- Of some positions one is still live and has got an outline, and all others are marked. -/
structure Reduced (after : List (Node Float)) (positions : Set Nat) (survivor : Nat) : Prop where
  member : survivor ∈ positions
  stays : ∃ node, after[survivor]? = some node ∧ node.isLive = true ∧
    node.layer.annotations.inferredStroke.isSome = true
  others : ∀ position ∈ positions, position ≠ survivor → ∃ node, after[position]? = some node ∧
    node.isLive = false ∧ node.layer.annotations.duplicate = true ∧
    node.layer.annotations.inferredStroke.isSome = false

/-- What becomes of siblings. -/
structure Settled (before after : List (Node Float)) : Prop where
  /-- A class stays as it is, or one of it stays. -/
  classes : ∀ text ∈ before, text.isLive = true → text.isText = true →
    (∀ position ∈ kinship before text, after[position]? = before[position]?) ∨
      ∃ survivor, Reduced after (kinship before text) survivor
  /-- Outlines are for those that stay of a class. -/
  outlines : ∀ (position : Nat) (node : Node Float), after[position]? = some node →
    node.layer.annotations.inferredStroke.isSome = true →
      ∃ text ∈ before, Reduced after (kinship before text) position
  /-- Nothing is noted about any other child, and nothing at all changes about hidden ones. -/
  others : ∀ (position : Nat) (child : Node Float), before[position]? = some child →
    ¬ (child.isLive = true ∧ child.isText = true) →
      ∃ node, after[position]? = some node ∧ node.layer = child.layer ∧ (child.isLive = false → node = child)
  shown : ∀ characters, Shown before characters ↔ Shown after characters

theorem mem_kinship {siblings : List (Node Float)} {text : Node Float} {key : Key Float}
    (key_eq : key? text = some key) {position : Nat} : position ∈ kinship siblings text ↔
      ∃ other, siblings[position]? = some other ∧ key? other = some key := by
  obtain ⟨_, layer, content, rfl, rfl⟩ := key?_eq_some key_eq
  refine exists_congr fun other => and_congr_right fun _ => ?_
  constructor
  · rintro ⟨live, own, content', found, kin, characters, size, family⟩
    obtain rfl := Option.some.inj found
    rw [key?, if_pos live, kin, characters, Binary64.toBits_injective size, family]
    rfl
  · intro key_eq'
    obtain ⟨live, layer', content', rfl, same⟩ := key?_eq_some key_eq'
    obtain ⟨characters, size, family⟩ := Key.mk.inj same
    exact ⟨live, content, content', rfl, rfl, characters, congrArg Float.toBits size, family⟩

section Siblings

variable {thresholds : StrokeThresholds Float} {children : List (Node Float)}

/-- Of a class about which something is decided the survivor gets an outline, and all others are marked. -/
theorem Fate.of_decided {position : Nat} {child after : Node Float} {key : Key Float}
    {collapse : Collapse Float} (fate : Fate thresholds children position child after)
    (none : child.layer.annotations = .none) (key_eq : key? child = some key)
    (decided : verdict? thresholds children key = some collapse) :
    (position = collapse.survivor → after.isLive = true ∧
      after.layer.annotations.inferredStroke.isSome = true) ∧
    (position ≠ collapse.survivor → after.isLive = false ∧ after.layer.annotations.duplicate = true ∧
      after.layer.annotations.inferredStroke.isSome = false) := by
  obtain ⟨live, layer, content, rfl, _⟩ := key?_eq_some key_eq
  have none' : layer.annotations = .none := none
  cases fate with
  | copy found decided' apart =>
    obtain rfl := Option.some.inj (found.symm.trans key_eq)
    obtain rfl := Option.some.inj (decided'.symm.trans decided)
    refine ⟨fun same => absurd same apart, fun _ => ?_⟩
    simp [Node.isLive, Layer.isLive, Node.annotate, Node.withLayer, Node.layer, none', Annotations.none]
  | survivor found decided' same =>
    obtain rfl := Option.some.inj (found.symm.trans key_eq)
    obtain rfl := Option.some.inj (decided'.symm.trans decided)
    exact ⟨fun _ => ⟨live, rfl⟩, fun apart => absurd same apart⟩
  | kept found undecided =>
    obtain rfl := Option.some.inj (found.symm.trans key_eq)
    rw [decided] at undecided
    cases undecided
  | other found =>
    rw [found] at key_eq
    cases key_eq

/-- A class about which something is decided is reduced to its survivor. -/
theorem reduced_of_verdict? (fresh : ∀ child ∈ children, child.Fresh) {text : Node Float}
    {key : Key Float} (key_eq : key? text = some key) {collapse : Collapse Float}
    (decided : verdict? thresholds children key = some collapse) :
    Reduced (resolved thresholds children) (kinship children text) collapse.survivor := by
  obtain ⟨child, here, key_eq'⟩ := mem_of_verdict? decided (.inr rfl)
  refine ⟨(mem_kinship key_eq).mpr ⟨child, here, key_eq'⟩, ?_, ?_⟩
  · obtain ⟨after, there, fate⟩ := exists_fate thresholds here
    have own := (fresh child (List.mem_of_getElem? here)).own
    exact ⟨after, there, (fate.of_decided own key_eq' decided).1 rfl⟩
  · intro position member apart
    obtain ⟨other, here, key_eq'⟩ := (mem_kinship key_eq).mp member
    obtain ⟨after, there, fate⟩ := exists_fate thresholds here
    have own := (fresh other (List.mem_of_getElem? here)).own
    exact ⟨after, there, (fate.of_decided own key_eq' decided).2 apart⟩

/-- A class about which nothing is decided stays as it is. -/
theorem kept_of_verdict? {text : Node Float} {key : Key Float} (key_eq : key? text = some key)
    (undecided : verdict? thresholds children key = none) {position : Nat}
    (member : position ∈ kinship children text) :
    (resolved thresholds children)[position]? = children[position]? := by
  obtain ⟨other, here, key_eq'⟩ := (mem_kinship key_eq).mp member
  obtain ⟨after, there, fate⟩ := exists_fate thresholds here
  rw [there, here]
  cases fate with
  | copy found decided | survivor found decided =>
    obtain rfl := Option.some.inj (found.symm.trans key_eq')
    rw [undecided] at decided
    cases decided
  | kept => rfl
  | other found =>
    rw [found] at key_eq'
    cases key_eq'

theorem shown_iff {siblings : List (Node Float)} {characters : String} : Shown siblings characters ↔
    ∃ (position : Nat) (node : Node Float) (key : Key Float), siblings[position]? = some node ∧
      key? node = some key ∧ key.characters = characters := by
  constructor
  · rintro ⟨node, member, live, content, found, rfl⟩
    obtain ⟨position, here⟩ := List.mem_iff_getElem?.mp member
    refine ⟨position, node, ⟨content.characters, content.style.fontSize, content.style.fontFamily⟩, here, ?_,
      rfl⟩
    rw [key?, if_pos live, found]
    rfl
  · rintro ⟨position, node, key, here, key_eq, rfl⟩
    obtain ⟨live, layer, content, rfl, rfl⟩ := key?_eq_some key_eq
    exact ⟨_, List.mem_of_getElem? here, live, content, rfl, rfl⟩

/-- Of every class at least one member stays shown, and no other text comes in. -/
theorem shown_resolved (characters : String) :
    Shown children characters ↔ Shown (resolved thresholds children) characters := by
  rw [shown_iff, shown_iff]
  constructor
  · rintro ⟨position, child, key, here, key_eq, rfl⟩
    cases decided : verdict? thresholds children key with
    | none =>
      obtain ⟨after, there, fate⟩ := exists_fate thresholds here
      have same := kept_of_verdict? key_eq decided ((mem_kinship key_eq).mpr ⟨child, here, key_eq⟩)
      exact ⟨position, child, key, same.trans here, key_eq, rfl⟩
    | some collapse =>
      obtain ⟨stays, here, key_eq⟩ := mem_of_verdict? decided (.inr rfl)
      obtain ⟨after, there, fate⟩ := exists_fate thresholds here
      refine ⟨collapse.survivor, after, key, there, ?_, rfl⟩
      cases fate with
      | copy found decided' apart =>
        obtain rfl := Option.some.inj (found.symm.trans key_eq)
        obtain rfl := Option.some.inj (decided'.symm.trans decided)
        exact absurd rfl apart
      | survivor => rw [key?_outlined, key_eq]
      | kept => exact key_eq
      | other found =>
        rw [found] at key_eq
        cases key_eq
  · rintro ⟨position, after, key, there, key_eq, rfl⟩
    obtain ⟨child, here, fate⟩ := fate_of_resolved there
    exact ⟨position, child, key, here, (fate.key key_eq).1, rfl⟩

theorem settled_resolved (fresh : ∀ child ∈ children, child.Fresh) :
    Settled children (resolved thresholds children) where
  classes := by
    intro text member live is_text
    cases text with
    | text layer content =>
      have key_eq : key? (.text layer content) = some
          ⟨content.characters, content.style.fontSize, content.style.fontFamily⟩ := by
        rw [key?, if_pos live]
        rfl
      generalize Key.mk content.characters _ _ = key at key_eq
      cases decided : verdict? thresholds children key with
      | none => exact .inl fun position => kept_of_verdict? key_eq decided
      | some collapse => exact .inr ⟨_, reduced_of_verdict? fresh key_eq decided⟩
    | container | shape => cases is_text
  outlines := by
    intro position node there outlined
    obtain ⟨child, here, fate⟩ := fate_of_resolved there
    have none := (fresh child (List.mem_of_getElem? here)).own
    -- a survivor alone is given an outline; all others have what they had, and that was none
    cases fate with
    | survivor key_eq decided same =>
      rw [same]
      exact ⟨child, List.mem_of_getElem? here, reduced_of_verdict? fresh key_eq decided⟩
    | kept =>
      rw [none] at outlined
      cases outlined
    | copy key_eq =>
      obtain ⟨_, layer, content, rfl, _⟩ := key?_eq_some key_eq
      simp [Node.annotate, Node.withLayer, Node.layer, Annotations.none] at none outlined
      simp [none] at outlined
    | other =>
      have same : (if child.isLive then (resolve thresholds child).1 else child).layer = child.layer := by
        split
        · exact layer_resolve thresholds child
        · rfl
      rw [same, none] at outlined
      cases outlined
  others := by
    intro position child here unlike
    obtain ⟨after, there, fate⟩ := exists_fate thresholds here
    refine ⟨after, there, ?_⟩
    cases fate with
    | copy key_eq | survivor key_eq | kept key_eq =>
      obtain ⟨live, layer, content, rfl, _⟩ := key?_eq_some key_eq
      exact absurd ⟨live, rfl⟩ unlike
    | other =>
      by_cases live : child.isLive = true
      · rw [if_pos live]
        exact ⟨layer_resolve thresholds child, fun hidden => by rw [hidden] at live; cases live⟩
      · rw [if_neg live]
        exact ⟨rfl, fun _ => rfl⟩
  shown := shown_resolved

end Siblings

/-- Nothing is noted about what is reached from a node below which nothing is. -/
theorem reach_fresh {path : List Nat} {node inner : Node Float} (fresh : node.Fresh)
    (reached : node.reach? path = some inner) : inner.Fresh := by
  induction path generalizing node with
  | nil => exact Option.some.inj reached ▸ fresh
  | cons position path ih =>
    obtain ⟨child, here, reached⟩ := Option.bind_eq_some_iff.mp reached
    split at reached
    · exact ih (fresh.below (List.mem_of_getElem? here)) reached
    · cases reached

/-- The children of a node that is reached after the pass are what became of those of a node before it. -/
theorem children_reached {thresholds : StrokeThresholds Float} {path : List Nat} {node inner : Node Float}
    (reached : (resolve thresholds node).1.reach? path = some inner) :
    ∃ outer, node.reach? path = some outer ∧ inner.children = resolved thresholds outer.children := by
  induction path generalizing node with
  | nil =>
    obtain rfl := Option.some.inj reached
    exact ⟨node, rfl, children_resolve thresholds node⟩
  | cons position path ih =>
    rw [Node.reach?, children_resolve] at reached
    obtain ⟨after, there, reached⟩ := Option.bind_eq_some_iff.mp reached
    obtain ⟨child, here, fate⟩ := fate_of_resolved there
    rw [Node.reach?, here, Option.bind_some]
    split at reached
    · rename_i live
      -- a text has nothing below it, so the path ends there
      have ends {layer : Layer Float} {content : TextContent Float} {after : Node Float}
          (bare : after.children = []) (reached : after.reach? path = some inner) :
          (Node.text layer content).reach? path = some (.text layer content) ∧ inner.children = [] := by
        cases path with
        | nil => exact ⟨rfl, Option.some.inj reached ▸ bare⟩
        | cons first path =>
          rw [Node.reach?, bare] at reached
          cases reached
      cases fate with
      | copy key_eq | survivor key_eq | kept key_eq =>
        obtain ⟨alive, layer, content, rfl, _⟩ := key?_eq_some key_eq
        obtain ⟨stops, bare⟩ := ends rfl reached
        rw [if_pos alive]
        exact ⟨_, stops, bare⟩
      | other =>
        split at reached
        · rename_i alive
          rw [if_pos alive]
          exact ih reached
        · rename_i hidden
          rw [if_neg hidden] at live
          exact absurd live hidden
    · cases reached

/-- The pass only hides copies. -/
structure OnlyHides (thresholds : StrokeThresholds Float) (before after : Node Float) (report : Report) :
    Prop where
  /-- Nothing but marks has come to the tree. -/
  unmarked : after.unmarked = before
  /-- In every list of siblings that is live afterwards some classes are reduced. -/
  settled : ∀ path inner, after.reach? path = some inner →
    ∃ outer, before.reach? path = some outer ∧ Settled outer.children inner.children
  /-- As many groups are reported as texts have got an outline, and as many copies as nodes are marked. -/
  counted : report = tally after
  again : resolve thresholds after = (after, ⟨0, 0⟩)

/-- From groups of two on, the stroke pass only hides copies in a tree of which nothing is noted yet. -/
theorem resolve_only_hides {thresholds : StrokeThresholds Float} (enough : 2 ≤ thresholds.minGroup)
    {root : Node Float} (fresh : root.Fresh) :
    OnlyHides thresholds root (resolve thresholds root).1 (resolve thresholds root).2 where
  unmarked := (unmarked_resolve thresholds root).trans (Node.unmarked_fresh root fresh)
  settled := by
    intro path inner reached
    obtain ⟨outer, found, below⟩ := children_reached reached
    rw [below]
    have fresh := reach_fresh fresh found
    exact ⟨outer, found, settled_resolved fun child member => fresh.below member⟩
  counted := (tally_resolve thresholds root fresh).symm
  again := resolve_resolve enough root

open FlatNode (flattening badge letters fresh_letters collapses_letters) in
/-- Of six letters one behind the other the last one is left. -/
theorem letters_hidden : 2 ≤ flattening.stroke.minGroup ∧ (badge "1" false letters).Fresh ∧
    (resolve flattening.stroke (badge "1" false letters)).2 = ⟨1, 5⟩ ∧
    OnlyHides flattening.stroke (badge "1" false letters)
      (resolve flattening.stroke (badge "1" false letters)).1
      (resolve flattening.stroke (badge "1" false letters)).2 := by
  have enough : 2 ≤ flattening.stroke.minGroup := by decide
  refine ⟨enough, fresh_letters, ?_, resolve_only_hides enough fresh_letters⟩
  obtain ⟨stroke, found⟩ := collapses_letters
  rw [badge, resolve, found]
  rfl

end Stroke
end DesignCompiler
