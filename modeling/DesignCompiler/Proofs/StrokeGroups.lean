import DesignCompiler.Proofs.FlattenedHashes

/-!
The groups of copies among siblings. The stroke pass forms one group for each key that a live text has, and
what it decides about a group bears on the members of this group alone.
-/
namespace DesignCompiler

/-- Numbers that are equal when the program takes them to be the same in every respect. -/
class Scalar.Discerning (α : Type) [Scalar α] : Prop where
  identical_iff (x y : α) : Scalar.identical x y = true ↔ x = y

namespace Binary64

theorem toBits_injective : Function.Injective Float.toBits := by
  intro x y same
  cases x with
  | ofModel one =>
    cases y with
    | ofModel other =>
      cases one
      cases other
      cases same
      rfl

/-- The order of the stored forms tells all doubles apart. -/
theorem orderKey_injective : Function.Injective orderKey := by
  intro x y same
  apply toBits_injective
  apply UInt64.toNat.inj
  unfold orderKey at same
  simp only at same
  split at same <;> split at same <;> omega

end Binary64

instance : Scalar.Discerning Float where
  identical_iff x y := by
    rw [Scalar.identical, beq_iff_eq]
    change compare (Binary64.orderKey x) (Binary64.orderKey y) = .eq ↔ x = y
    exact compare_eq_iff_eq.trans Binary64.orderKey_injective.eq_iff

namespace Stroke

variable {α : Type} [Scalar α]

/-- The live texts with a key among siblings, whose positions are counted from a first one. -/
def fellows (key : Key α) (position : Nat) : List (Node α) → List (Member α)
  | [] => []
  | node :: rest =>
    if (key? node).any (·.same key) then ⟨position, node.layer⟩ :: fellows key (position + 1) rest
    else fellows key (position + 1) rest

/-- The group of a key. -/
def held (key : Key α) (groups : List (Key α × List (Member α))) : List (Member α) :=
  ((groups.find? (·.1.same key)).map (·.2)).getD []

section Groups

variable [Scalar.Discerning α]

theorem Key.same_iff {one other : Key α} : one.same other = true ↔ one = other := by
  cases one
  cases other
  simp only [Key.same, Bool.and_eq_true, beq_iff_eq, Scalar.Discerning.identical_iff, Key.mk.injEq,
    and_assoc]

theorem any_same_iff {node : Node α} {key : Key α} :
    (key? node).any (·.same key) = true ↔ key? node = some key := by
  cases key? node with
  | none => simp
  | some other => rw [Option.any_some, Key.same_iff, Option.some.injEq]

theorem mem_fellows {key : Key α} {position : Nat} {children : List (Node α)} {member : Member α} :
    member ∈ fellows key position children ↔ ∃ index child, children[index]? = some child ∧
      key? child = some key ∧ member = ⟨position + index, child.layer⟩ := by
  induction children generalizing position with
  | nil => simp [fellows]
  | cons node rest ih =>
    have later : member ∈ fellows key (position + 1) rest ↔ ∃ index child,
        (node :: rest)[index + 1]? = some child ∧ key? child = some key ∧
          member = ⟨position + (index + 1), child.layer⟩ := by
      simp only [ih, List.getElem?_cons_succ, Nat.add_assoc, Nat.add_comm 1]
    rw [fellows]
    constructor
    · intro listed
      split at listed
      · rename_i same
        rcases List.mem_cons.mp listed with rfl | listed
        · exact ⟨0, node, rfl, any_same_iff.mp same, rfl⟩
        · obtain ⟨index, found⟩ := later.mp listed
          exact ⟨index + 1, found⟩
      · obtain ⟨index, found⟩ := later.mp listed
        exact ⟨index + 1, found⟩
    · rintro ⟨index, child, here, key_eq, rfl⟩
      cases index with
      | zero =>
        obtain rfl : node = child := Option.some.inj here
        rw [if_pos (any_same_iff.mpr key_eq)]
        exact List.mem_cons_self
      | succ index =>
        have listed := later.mpr ⟨index, child, here, key_eq, rfl⟩
        split
        · exact List.mem_cons_of_mem _ listed
        · exact listed

/-- Fellows are listed in the order of their positions. -/
theorem fellows_ordered (key : Key α) (position : Nat) (children : List (Node α)) :
    ((fellows key position children).map (·.position)).Pairwise (· < ·) := by
  induction children generalizing position with
  | nil => exact .nil
  | cons node rest ih =>
    rw [fellows]
    split
    · rw [List.map_cons, List.pairwise_cons]
      refine ⟨?_, ih (position + 1)⟩
      intro later member
      obtain ⟨fellow, listed, rfl⟩ := List.mem_map.mp member
      obtain ⟨index, child, _, _, rfl⟩ := mem_fellows.mp listed
      exact Nat.lt_of_lt_of_le (Nat.lt_succ_self position) (Nat.le_add_right _ index)
    · exact ih (position + 1)

theorem nodup_fellows (key : Key α) (children : List (Node α)) :
    ((fellows key 0 children).map (·.position)).Nodup :=
  (fellows_ordered key 0 children).imp Nat.ne_of_lt

theorem held_enter (asked key : Key α) (member : Member α) (groups : List (Key α × List (Member α))) :
    held asked (enter key member groups) =
      held asked groups ++ if key.same asked then [member] else [] := by
  induction groups with
  | nil =>
    rw [enter, held, held]
    by_cases same : key.same asked = true <;> simp [same]
  | cons group rest ih =>
    obtain ⟨other, members⟩ := group
    have first (old : List (Member α)) (behind : List (Key α × List (Member α))) :
        held asked ((other, old) :: behind) = if other.same asked then old else held asked behind := by
      rw [held, List.find?_cons]
      split <;> simp_all [held]
    rw [enter]
    by_cases here : other.same key = true
    · obtain rfl := Key.same_iff.mp here
      rw [if_pos here, first, first]
      split <;> simp
    · rw [if_neg here, first, first, ih]
      split
      · rename_i asks
        obtain rfl := Key.same_iff.mp asks
        have apart : ¬ key.same other = true := by
          intro same
          exact here (Key.same_iff.mpr (Key.same_iff.mp same).symm)
        rw [if_neg apart, List.append_nil]
      · rfl

theorem held_groupsFrom (asked : Key α) (position : Nat) (groups : List (Key α × List (Member α)))
    (children : List (Node α)) :
    held asked (groupsFrom position groups children) =
      held asked groups ++ fellows asked position children := by
  induction children generalizing position groups with
  | nil => simp [groupsFrom, fellows]
  | cons node rest ih =>
    rw [groupsFrom, ih, fellows]
    cases key? node with
    | none => simp
    | some key =>
      simp only [held_enter, Option.any_some]
      split <;> simp

/-- Groups with different keys, none of them empty. -/
structure Sorted (groups : List (Key α × List (Member α))) : Prop where
  nodup : (groups.map (·.1)).Nodup
  filled : ∀ group ∈ groups, group.2 ≠ []

omit [Scalar.Discerning α] in
theorem mem_keys_enter {asked key : Key α} {member : Member α}
    {groups : List (Key α × List (Member α))}
    (listed : asked ∈ (enter key member groups).map (·.1)) : asked = key ∨ asked ∈ groups.map (·.1) := by
  induction groups with
  | nil => exact .inl (List.mem_singleton.mp listed)
  | cons group rest ih =>
    rw [enter] at listed
    rw [List.map_cons, List.mem_cons]
    split at listed
    · exact .inr (List.mem_cons.mp listed)
    · rcases List.mem_cons.mp listed with rfl | later
      · exact .inr (.inl rfl)
      · exact (ih later).imp_right .inr

theorem Sorted.enter {groups : List (Key α × List (Member α))} (sorted : Sorted groups) (key : Key α)
    (member : Member α) : Sorted (enter key member groups) := by
  induction groups with
  | nil => exact ⟨by simp [Stroke.enter], by simp [Stroke.enter]⟩
  | cons group rest ih =>
    obtain ⟨nodup, filled⟩ := sorted
    rw [List.map_cons, List.nodup_cons] at nodup
    rw [List.forall_mem_cons] at filled
    rw [Stroke.enter]
    split
    · exact ⟨List.nodup_cons.mpr nodup, List.forall_mem_cons.mpr ⟨by simp, filled.2⟩⟩
    · rename_i apart
      obtain ⟨nodup', filled'⟩ := ih ⟨nodup.2, filled.2⟩
      refine ⟨List.nodup_cons.mpr ⟨?_, nodup'⟩, List.forall_mem_cons.mpr ⟨filled.1, filled'⟩⟩
      intro again
      rcases mem_keys_enter again with same | again
      · exact apart (Key.same_iff.mpr same)
      · exact nodup.1 again

theorem Sorted.groupsFrom {groups : List (Key α × List (Member α))} (sorted : Sorted groups)
    (position : Nat) (children : List (Node α)) : Sorted (groupsFrom position groups children) := by
  induction children generalizing position groups with
  | nil => exact sorted
  | cons node rest ih =>
    rw [Stroke.groupsFrom]
    apply ih
    split
    · exact sorted.enter _ _
    · exact sorted

theorem Sorted.held_eq {groups : List (Key α × List (Member α))} (sorted : Sorted groups)
    {group : Key α × List (Member α)} (listed : group ∈ groups) : held group.1 groups = group.2 := by
  induction groups with
  | nil => cases listed
  | cons first rest ih =>
    obtain ⟨nodup, filled⟩ := sorted
    rw [List.map_cons, List.nodup_cons] at nodup
    rw [held, List.find?_cons]
    rcases List.mem_cons.mp listed with rfl | later
    · rw [Key.same_iff.mpr rfl]
      rfl
    · have apart : first.1.same group.1 = false := by
        rw [← Bool.not_eq_true, Key.same_iff]
        rintro same
        exact nodup.1 (same ▸ List.mem_map_of_mem later)
      rw [apart]
      exact ih ⟨nodup.2, (List.forall_mem_cons.mp filled).2⟩ later

theorem mem_keys_of_held {asked : Key α} {groups : List (Key α × List (Member α))}
    (some_held : held asked groups ≠ []) : asked ∈ groups.map (·.1) := by
  cases found : groups.find? (·.1.same asked) with
  | none =>
    rw [held, found] at some_held
    exact absurd rfl some_held
  | some group =>
    have same := List.find?_some found
    rw [Key.same_iff] at same
    exact same ▸ List.mem_map_of_mem (List.mem_of_find?_eq_some found)

/-- What is decided about the live texts with a key. -/
def verdict? (thresholds : StrokeThresholds α) (children : List (Node α)) (key : Key α) :
    Option (Collapse α) :=
  let members := fellows key 0 children
  if thresholds.minGroup ≤ members.length then evaluate thresholds members else none

/-- The groups that collapse are those of the keys, each key once. -/
theorem exists_keys (thresholds : StrokeThresholds α) (children : List (Node α)) :
    ∃ keys : List (Key α), keys.Nodup ∧ (∀ key, key ∈ keys ↔ fellows key 0 children ≠ []) ∧
      collapses thresholds children = keys.filterMap (verdict? thresholds children) := by
  have empty : Sorted ([] : List (Key α × List (Member α))) := ⟨List.nodup_nil, by simp⟩
  have sorted := empty.groupsFrom 0 children
  have groups (key : Key α) : held key (groupsFrom 0 [] children) = fellows key 0 children :=
    held_groupsFrom key 0 [] children
  refine ⟨(groupsFrom 0 [] children).map (·.1), sorted.nodup, ?_, ?_⟩
  · intro key
    constructor
    · intro listed
      obtain ⟨group, member, rfl⟩ := List.mem_map.mp listed
      rw [← groups, sorted.held_eq member]
      exact sorted.filled group member
    · intro some_fellow
      exact mem_keys_of_held (groups key ▸ some_fellow)
  · rw [collapses, candidates, List.filter_map, List.filterMap_map, List.filterMap_filter,
      List.filterMap_map]
    apply List.filterMap_congr
    intro group member
    simp only [Function.comp, verdict?, ← groups, sorted.held_eq member, decide_eq_true_eq]

end Groups

omit [Scalar α] in
theorem survivor?_mem {core outliers : List (Member α)} {member : Member α}
    (found : survivor? core outliers = some member) : member ∈ core ∨ member ∈ outliers := by
  unfold survivor? at found
  split at found
  · rename_i first styled
    obtain rfl := Option.some.inj found
    exact .inr (List.mem_of_find?_eq_some styled)
  · rcases Option.or_eq_some_iff.mp found with last | ⟨_, last⟩
    · exact .inr (List.mem_of_getLast? last)
    · exact .inl (List.mem_of_getLast? last)

/-- A group that collapses has enough members; one of them stays, and the others are its copies. -/
theorem evaluate_eq_some {thresholds : StrokeThresholds α} {members : List (Member α)}
    {collapse : Collapse α} (decided : evaluate thresholds members = some collapse) :
    thresholds.minGroup ≤ members.length ∧ collapse.survivor ∈ members.map (·.position) ∧
      collapse.duplicates = (members.map (·.position)).filter (· != collapse.survivor) := by
  unfold evaluate at decided
  simp only [List.partition_eq_filter_filter] at decided
  split at decided
  · cases decided
  · rename_i enough
    split at decided
    · cases decided
    · split at decided
      · cases decided
      · rename_i member found
        obtain rfl := Option.some.inj decided
        refine ⟨?_, ?_, ?_⟩
        · exact (Nat.le_of_not_lt enough).trans (List.length_filter_le _ _)
        · refine List.mem_map_of_mem ?_
          rcases survivor?_mem found with core | outlier
          · exact (List.mem_filter.mp core).1
          · exact (List.mem_filter.mp outlier).1
        · rw [List.filter_map]
          rfl

omit [Scalar α] in
theorem applyTo_eq_self {collapse : Collapse α} {position : Nat} (gone : position ∉ collapse.duplicates)
    (apart : position ≠ collapse.survivor) (node : Node α) : collapse.applyTo position node = node := by
  rw [Collapse.applyTo, if_neg (by rwa [List.contains_iff_mem]), if_neg (by rwa [beq_iff_eq])]

section Marks

variable [Scalar.Discerning α] {thresholds : StrokeThresholds α} {children : List (Node α)}

omit [Scalar.Discerning α] in
/-- A decision is about enough fellows, one of which stays while the others are its copies. -/
theorem verdict?_eq_some {key : Key α} {collapse : Collapse α}
    (decided : verdict? thresholds children key = some collapse) :
    thresholds.minGroup ≤ (fellows key 0 children).length ∧
      collapse.survivor ∈ (fellows key 0 children).map (·.position) ∧
      collapse.duplicates =
        ((fellows key 0 children).map (·.position)).filter (· != collapse.survivor) := by
  unfold verdict? at decided
  simp only at decided
  split at decided
  · exact evaluate_eq_some decided
  · cases decided

/-- Whoever a decision marks has the key that it is about. -/
theorem mem_of_verdict? {key : Key α} {collapse : Collapse α} {position : Nat}
    (decided : verdict? thresholds children key = some collapse)
    (touched : position ∈ collapse.duplicates ∨ position = collapse.survivor) :
    ∃ child, children[position]? = some child ∧ key? child = some key := by
  obtain ⟨_, survivor, duplicates⟩ := verdict?_eq_some decided
  have listed : position ∈ (fellows key 0 children).map (·.position) := by
    rcases touched with copy | rfl
    · rw [duplicates] at copy
      exact (List.mem_filter.mp copy).1
    · exact survivor
  obtain ⟨member, fellow, rfl⟩ := List.mem_map.mp listed
  obtain ⟨index, child, here, key_eq, rfl⟩ := mem_fellows.mp fellow
  exact ⟨child, by rwa [Nat.zero_add], key_eq⟩

/-- Decisions about other keys leave a child alone. -/
theorem marked_of_others {keys : List (Key α)} {position : Nat} {child : Node α}
    (here : children[position]? = some child) (others : ∀ key ∈ keys, key? child ≠ some key)
    (node : Node α) : marked (keys.filterMap (verdict? thresholds children)) position node = node := by
  induction keys generalizing node with
  | nil => rfl
  | cons key rest ih =>
    rw [List.forall_mem_cons] at others
    cases decided : verdict? thresholds children key with
    | none =>
      rw [List.filterMap_cons_none decided]
      exact ih others.2 node
    | some collapse =>
      have untouched : ¬ (position ∈ collapse.duplicates ∨ position = collapse.survivor) := by
        intro touched
        obtain ⟨other, there, key_eq⟩ := mem_of_verdict? decided touched
        obtain rfl := Option.some.inj (here.symm.trans there)
        exact others.1 key_eq
      rw [not_or] at untouched
      rw [List.filterMap_cons_some decided]
      exact (ih others.2 _).trans (applyTo_eq_self untouched.1 untouched.2 node)

/-- Only what is decided about its own key marks a child. -/
theorem marked_collapses {position : Nat} {child : Node α} (here : children[position]? = some child)
    (node : Node α) : marked (collapses thresholds children) position node =
      ((key? child).bind (verdict? thresholds children)).elim node (·.applyTo position node) := by
  obtain ⟨keys, nodup, listed, found⟩ := exists_keys thresholds children
  rw [found]
  cases key_eq : key? child with
  | none => exact marked_of_others here (by simp [key_eq]) node
  | some key =>
    have fellow : (⟨position, child.layer⟩ : Member α) ∈ fellows key 0 children :=
      mem_fellows.mpr ⟨position, child, here, key_eq, by rw [Nat.zero_add]⟩
    obtain ⟨before, behind, rfl⟩ := List.append_of_mem
      ((listed key).mpr (List.ne_nil_of_mem fellow))
    rw [List.nodup_middle, List.nodup_cons, List.mem_append, not_or] at nodup
    have apart {keys : List (Key α)} (absent : key ∉ keys) : ∀ other ∈ keys, key? child ≠ some other := by
      intro other member same
      rw [key_eq, Option.some.injEq] at same
      exact absent (same ▸ member)
    rw [Option.bind_some, List.filterMap_append, marked, List.foldl_append]
    change marked _ position (marked _ position node) = _
    rw [marked_of_others here (apart nodup.1.1) node]
    cases decided : verdict? thresholds children key with
    | none =>
      rw [List.filterMap_cons_none decided]
      exact marked_of_others here (apart nodup.1.2) node
    | some collapse =>
      rw [List.filterMap_cons_some decided]
      exact marked_of_others here (apart nodup.1.2) _

/-- No two decisions mark the same child. -/
theorem collapses_apart (thresholds : StrokeThresholds α) (children : List (Node α)) :
    (collapses thresholds children).Pairwise fun one other => ∀ position,
      position ∈ one.duplicates ∨ position = one.survivor →
        ¬ (position ∈ other.duplicates ∨ position = other.survivor) := by
  obtain ⟨keys, nodup, _, found⟩ := exists_keys thresholds children
  rw [found, List.pairwise_filterMap]
  refine nodup.imp ?_
  intro key key' apart one decided other decided' position touched touched'
  obtain ⟨child, here, key_eq⟩ := mem_of_verdict? decided touched
  obtain ⟨child', here', key_eq'⟩ := mem_of_verdict? decided' touched'
  obtain rfl := Option.some.inj (here.symm.trans here')
  exact apart (Option.some.inj (key_eq.symm.trans key_eq'))

theorem exists_verdict {collapse : Collapse α} (found : collapse ∈ collapses thresholds children) :
    ∃ key, verdict? thresholds children key = some collapse := by
  obtain ⟨keys, _, _, found_eq⟩ := exists_keys thresholds children
  rw [found_eq, List.mem_filterMap] at found
  obtain ⟨key, _, decided⟩ := found
  exact ⟨key, decided⟩

/-- What becomes of a child of a resolved node. -/
inductive Fate (thresholds : StrokeThresholds α) (children : List (Node α)) (position : Nat)
    (child : Node α) : Node α → Prop where
  | copy {key : Key α} {collapse : Collapse α} (key_eq : key? child = some key)
      (decided : verdict? thresholds children key = some collapse)
      (apart : position ≠ collapse.survivor) :
      Fate thresholds children position child
        (child.annotate fun notes => { notes with duplicate := true })
  | survivor {key : Key α} {collapse : Collapse α} (key_eq : key? child = some key)
      (decided : verdict? thresholds children key = some collapse)
      (same : position = collapse.survivor) :
      Fate thresholds children position child
        (child.annotate fun notes => { notes with inferredStroke := some collapse.stroke })
  | kept {key : Key α} (key_eq : key? child = some key)
      (decided : verdict? thresholds children key = none) : Fate thresholds children position child child
  | other (key_eq : key? child = none) :
      Fate thresholds children position child
        (if child.isLive then (resolve thresholds child).1 else child)

omit [Scalar α] [Scalar.Discerning α] in
/-- A node with a key is a live text. -/
theorem key?_eq_some {node : Node α} {key : Key α} (key_eq : key? node = some key) :
    node.isLive = true ∧ ∃ layer content, node = .text layer content ∧
      key = ⟨content.characters, content.style.fontSize, content.style.fontFamily⟩ := by
  rw [key?] at key_eq
  split at key_eq
  · rename_i live
    obtain ⟨content, found, rfl⟩ := Option.map_eq_some_iff.mp key_eq
    cases node with
    | text layer own =>
      obtain rfl := Option.some.inj found
      exact ⟨live, layer, own, rfl, rfl⟩
    | container | shape => cases found
  · cases key_eq

/-- The children of a node after the pass. -/
def resolved (thresholds : StrokeThresholds α) (children : List (Node α)) : List (Node α) :=
  (resolveAll thresholds (collapses thresholds children) 0 children).1

omit [Scalar.Discerning α] in
theorem length_resolved : (resolved thresholds children).length = children.length := by
  have all (found : List (Collapse α)) (position : Nat) (children : List (Node α)) :
      (resolveAll thresholds found position children).1.length = children.length := by
    induction children generalizing position with
    | nil => rfl
    | cons child rest ih => rw [resolveAll_cons, List.length_cons, List.length_cons, ih]
  exact all _ 0 children

/-- Every child of a node has a fate. -/
theorem exists_fate (thresholds : StrokeThresholds α) {position : Nat} {child : Node α}
    (here : children[position]? = some child) :
    ∃ after, (resolved thresholds children)[position]? = some after ∧
      Fate thresholds children position child after := by
  rw [resolved, getElem?_resolveAll, here, Option.map_some, Nat.zero_add]
  refine ⟨_, rfl, ?_⟩
  rw [marked_collapses here]
  cases key_eq : key? child with
  | none =>
    rw [marked_collapses here, key_eq]
    exact .other key_eq
  | some key =>
    obtain ⟨_, layer, content, rfl, _⟩ := key?_eq_some key_eq
    rw [Option.bind_some, resolve, ite_self]
    · cases decided : verdict? thresholds children key with
      | none => exact .kept key_eq decided
      | some collapse =>
        obtain ⟨_, _, duplicates⟩ := verdict?_eq_some decided
        have fellow : position ∈ (fellows key 0 children).map (·.position) :=
          List.mem_map.mpr ⟨⟨position, layer⟩,
            mem_fellows.mpr ⟨position, _, here, key_eq, by rw [Nat.zero_add]; rfl⟩, rfl⟩
        rw [Option.elim_some, Collapse.applyTo, duplicates]
        by_cases same : position = collapse.survivor
        · rw [if_neg (by simp [same]), if_pos (by simp [same])]
          exact .survivor key_eq decided same
        · rw [if_pos (by simpa [same] using fellow)]
          exact .copy key_eq decided same
    · intro _ _ _ impossible
      cases impossible

/-- Every child of a resolved node is what became of a child. -/
theorem fate_of_resolved {position : Nat} {after : Node α}
    (there : (resolved thresholds children)[position]? = some after) :
    ∃ child, children[position]? = some child ∧ Fate thresholds children position child after := by
  have bound : position < children.length := by
    rw [← length_resolved]
    exact (List.getElem?_eq_some_iff.mp there).1
  have here := List.getElem?_eq_getElem bound
  obtain ⟨other, there', fate⟩ := exists_fate thresholds here
  obtain rfl := Option.some.inj (there.symm.trans there')
  exact ⟨_, here, fate⟩

omit [Scalar α] [Scalar.Discerning α] in
theorem key?_copy (node : Node α) :
    key? (node.annotate fun notes => { notes with duplicate := true }) = none := by
  refine if_neg ?_
  cases node <;> simp [Node.isLive, Layer.isLive, Node.annotate, Node.withLayer, Node.layer]

omit [Scalar α] [Scalar.Discerning α] in
theorem key?_outlined (stroke : Option (InferredStroke α)) (node : Node α) :
    key? (node.annotate fun notes => { notes with inferredStroke := stroke }) = key? node := by
  cases node <;> rfl

omit [Scalar.Discerning α] in
theorem key?_resolve (node : Node α) : key? (resolve thresholds node).1 = key? node := by
  cases node <;> rfl

omit [Scalar.Discerning α] in
/-- A node with a key afterwards had it before; it is unchanged, or the survivor of its group. -/
theorem Fate.key {position : Nat} {child after : Node α} {key : Key α}
    (fate : Fate thresholds children position child after) (key_eq : key? after = some key) :
    key? child = some key ∧ (verdict? thresholds children key = none ∧ after = child ∨
      ∃ collapse, verdict? thresholds children key = some collapse ∧ position = collapse.survivor) := by
  cases fate with
  | copy =>
    rw [key?_copy] at key_eq
    cases key_eq
  | survivor key_eq' decided same =>
    rw [key?_outlined, key_eq'] at key_eq
    obtain rfl := Option.some.inj key_eq
    exact ⟨key_eq', .inr ⟨_, decided, same⟩⟩
  | kept key_eq' decided =>
    obtain rfl := Option.some.inj (key_eq'.symm.trans key_eq)
    exact ⟨key_eq', .inl ⟨decided, rfl⟩⟩
  | other key_eq' =>
    have bare : key? (if child.isLive then (resolve thresholds child).1 else child) = none := by
      split
      · rw [key?_resolve, key_eq']
      · exact key_eq'
    rw [bare] at key_eq
    cases key_eq

theorem fellows_congr {key : Key α} {one other : List (Node α)} (length : one.length = other.length)
    (alike : ∀ (index : Nat) (node node' : Node α), one[index]? = some node → other[index]? = some node' →
      (key? node = some key ↔ key? node' = some key) ∧ (key? node = some key → node.layer = node'.layer))
    (position : Nat) : fellows key position one = fellows key position other := by
  induction one generalizing other position with
  | nil =>
    rw [List.length_nil, eq_comm, List.length_eq_zero_iff] at length
    rw [length]
  | cons node rest ih =>
    cases other with
    | nil => cases length
    | cons node' rest' =>
      obtain ⟨keys, layers⟩ := alike 0 node node' rfl rfl
      have later := ih (Nat.succ.inj length) (fun index => alike (index + 1)) (position + 1)
      rw [fellows, fellows, later]
      by_cases same : key? node = some key
      · rw [if_pos (any_same_iff.mpr same), if_pos (any_same_iff.mpr (keys.mp same)), layers same]
      · rw [if_neg (mt any_same_iff.mp same), if_neg (mt any_same_iff.mp (mt keys.mpr same))]

/-- A group about which nothing is decided has not changed. -/
theorem fellows_kept {key : Key α} (undecided : verdict? thresholds children key = none) :
    fellows key 0 (resolved thresholds children) = fellows key 0 children := by
  apply fellows_congr length_resolved
  intro index after child there here
  obtain ⟨after', there', fate⟩ := exists_fate thresholds here
  obtain rfl := Option.some.inj (there.symm.trans there')
  have unchanged (key_eq : key? after = some key) : after = child := by
    rcases (fate.key key_eq).2 with ⟨_, same⟩ | ⟨collapse, decided, _⟩
    · exact same
    · rw [undecided] at decided
      cases decided
  refine ⟨⟨fun key_eq => (fate.key key_eq).1, ?_⟩, fun key_eq => by rw [unchanged key_eq]⟩
  intro key_eq
  cases fate with
  | kept => exact key_eq
  | copy key_eq' decided | survivor key_eq' decided =>
    obtain rfl := Option.some.inj (key_eq'.symm.trans key_eq)
    rw [undecided] at decided
    cases decided
  | other key_eq' =>
    rw [key_eq'] at key_eq
    cases key_eq

/-- Of a group that collapsed only the survivor is left. -/
theorem length_fellows_collapsed {key : Key α} {collapse : Collapse α}
    (decided : verdict? thresholds children key = some collapse) :
    (fellows key 0 (resolved thresholds children)).length ≤ 1 := by
  have single : ∀ position ∈ (fellows key 0 (resolved thresholds children)).map (·.position),
      position = collapse.survivor := by
    intro position listed
    obtain ⟨member, fellow, rfl⟩ := List.mem_map.mp listed
    obtain ⟨index, after, there, key_eq, rfl⟩ := mem_fellows.mp fellow
    obtain ⟨child, here, fate⟩ := fate_of_resolved there
    rw [Nat.zero_add]
    rcases (fate.key key_eq).2 with ⟨undecided, _⟩ | ⟨collapse', decided', same⟩
    · rw [decided] at undecided
      cases undecided
    · rw [decided] at decided'
      cases decided'
      exact same
  have listed := nodup_fellows key (resolved thresholds children)
  rw [List.eq_replicate_of_mem single, List.nodup_replicate, List.length_map] at listed
  exact listed

/-- If single texts make no group, no group is found again. -/
theorem collapses_resolved (enough : 2 ≤ thresholds.minGroup) :
    collapses thresholds (resolved thresholds children) = [] := by
  obtain ⟨keys, _, _, found⟩ := exists_keys thresholds (resolved thresholds children)
  rw [found, List.filterMap_eq_nil_iff]
  intro key _
  cases decided : verdict? thresholds children key with
  | none =>
    rw [verdict?, fellows_kept decided]
    exact decided
  | some collapse =>
    have few := length_fellows_collapsed decided
    rw [verdict?]
    exact if_neg (by omega)

end Marks
end Stroke
end DesignCompiler
