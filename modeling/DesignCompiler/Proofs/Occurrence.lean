import DesignCompiler.Classification

/-!
Where the nodes of a design stand. A node is known by its path, the positions of the children on the
way to it, since nothing keeps two nodes apart that look alike.
-/
namespace DesignCompiler

variable {α : Type} {rules : RuleSet}

namespace Node

/-- What holds of a node whenever it holds of its children, holds of every node. -/
@[elab_as_elim]
theorem treeInduction {motive : Node α → Prop}
    (step : ∀ node : Node α, (∀ child ∈ node.children, motive child) → motive node)
    (node : Node α) : motive node :=
  step node fun child _member => treeInduction step child
termination_by sizeOf node
decreasing_by
  have smaller := List.sizeOf_lt_of_mem _member
  cases node <;> simp [children] at *
  omega

/-- The nodes that reach the output: the root, and the live children of every container that does.
Below a node that is drawn as one picture nothing does. -/
inductive Emits (rules : RuleSet) (root : Node α) : List Nat → Node α → Prop where
  | root : Emits rules root [] root
  | child (parent : Emits rules root path node) (container : node.strategy rules = .container)
      (found : node.children[position]? = some child) (live : child.isLive = true) :
      Emits rules root (path ++ [position]) child

mutual

/-- A node at a path and those below it that reach the output, each before its children. -/
def emits (rules : RuleSet) (path : List Nat) : Node α → List (List Nat × Node α)
  | .container layer props children =>
    (path, .container layer props children) ::
      if (container layer props children).strategy rules = .container then
        emitsAll rules path 0 children
      else []
  | node => [(path, node)]

/-- The same for the live ones of the children of a path, from a position on. -/
def emitsAll (rules : RuleSet) (path : List Nat) (position : Nat) :
    List (Node α) → List (List Nat × Node α)
  | [] => []
  | child :: rest =>
    (if child.isLive then emits rules (path ++ [position]) child else []) ++
      emitsAll rules path (position + 1) rest

end

theorem emits_eq (path : List Nat) (node : Node α) :
    emits rules path node =
      (path, node) ::
        if node.strategy rules = .container then emitsAll rules path 0 node.children else [] := by
  cases node with
  | container layer props children => rw [emits]; rfl
  | text layer content => simp [emits, children, emitsAll]
  | shape layer kind => simp [emits, children, emitsAll]

theorem mem_emitsAll {path : List Nat} {entry : List Nat × Node α} {children : List (Node α)}
    {start : Nat} :
    entry ∈ emitsAll rules path start children ↔
      ∃ position child, children[position]? = some child ∧ child.isLive = true ∧
        entry ∈ emits rules (path ++ [start + position]) child := by
  induction children generalizing start with
  | nil => simp [emitsAll]
  | cons child rest ih =>
    rw [emitsAll, List.mem_append, ih]
    constructor
    · rintro (own | ⟨position, other, found, live, member⟩)
      · by_cases live : child.isLive = true
        · exact ⟨0, child, rfl, live, by simpa [live] using own⟩
        · simp [live] at own
      · exact ⟨position + 1, other, found, live, by rwa [Nat.add_right_comm] at member⟩
    · rintro ⟨position, other, found, live, member⟩
      cases position with
      | zero =>
        obtain rfl : child = other := by simpa using found
        exact .inl (by simpa [live] using member)
      | succ position =>
        exact .inr ⟨position, other, by simpa using found, live,
          by rwa [Nat.add_right_comm]⟩

/-- What reaches the output from a child, reaches it from the whole design. -/
theorem Emits.prepend {root child node : Node α} {position : Nat} {path : List Nat}
    (container : root.strategy rules = .container) (found : root.children[position]? = some child)
    (live : child.isLive = true) (below : Emits rules child path node) :
    Emits rules root (position :: path) node := by
  induction below with
  | root => exact .child .root container found live
  | child _ container found live ih => exact .child ih container found live

theorem Emits.split {root node : Node α} {path : List Nat} (reached : Emits rules root path node) :
    (path = [] ∧ node = root) ∨
      ∃ position rest child, path = position :: rest ∧ root.strategy rules = .container ∧
        root.children[position]? = some child ∧ child.isLive = true ∧
        Emits rules child rest node := by
  induction reached with
  | root => exact .inl ⟨rfl, rfl⟩
  | @child path node position child parent container found live ih =>
    right
    rcases ih with ⟨rfl, rfl⟩ | ⟨first, rest, top, rfl, split, foundTop, liveTop, reached⟩
    · exact ⟨position, [], child, rfl, container, found, live, .root⟩
    · exact ⟨first, rest ++ [position], top, rfl, split, foundTop, liveTop,
        .child reached container found live⟩

theorem Emits.unique {root first second : Node α} {path : List Nat} (one : Emits rules root path first)
    (other : Emits rules root path second) : first = second := by
  induction path generalizing root with
  | nil =>
    rcases one.split with ⟨_, rfl⟩ | ⟨_, _, _, long, _⟩
    · rcases other.split with ⟨_, rfl⟩ | ⟨_, _, _, long, _⟩
      · rfl
      · simp at long
    · simp at long
  | cons position rest ih =>
    rcases one.split with ⟨long, _⟩ | ⟨_, _, top, same, _, found, _, below⟩
    · simp at long
    · rcases other.split with ⟨long, _⟩ | ⟨_, _, top', same', _, found', _, below'⟩
      · simp at long
      · obtain ⟨rfl, rfl⟩ := List.cons.inj same
        obtain ⟨rfl, rfl⟩ := List.cons.inj same'
        obtain rfl := Option.some.inj (found.symm.trans found')
        exact ih below below'

/-- A path leads to a node that reaches the output. -/
def Reached (rules : RuleSet) (root : Node α) (path : List Nat) : Prop :=
  ∃ node, Emits rules root path node

/-- Every node on the way to a node that reaches the output reaches it too. -/
theorem Emits.of_append {root node : Node α} {above rest : List Nat}
    (reached : Emits rules root (above ++ rest) node) : Reached rules root above := by
  generalize same : above ++ rest = path at reached
  induction reached generalizing rest with
  | root =>
    obtain ⟨rfl, rfl⟩ := List.append_eq_nil_iff.mp same
    exact ⟨_, .root⟩
  | @child path node position child parent container found live ih =>
    rcases List.eq_nil_or_concat rest with rfl | ⟨shorter, last, rfl⟩
    · obtain rfl : above = path ++ [position] := by simpa using same
      exact ⟨_, .child parent container found live⟩
    · rw [List.concat_eq_append, ← List.append_assoc] at same
      exact ih (List.append_inj' same rfl).1

theorem mem_emits {root node : Node α} {base path : List Nat} :
    (path, node) ∈ emits rules base root ↔
      ∃ rest, path = base ++ rest ∧ Emits rules root rest node := by
  induction root using treeInduction generalizing base path with
  | step root ih =>
    rw [emits_eq, List.mem_cons]
    constructor
    · rintro (same | member)
      · obtain ⟨rfl, rfl⟩ := Prod.mk.inj same
        exact ⟨[], by simp, .root⟩
      · split at member
        case isFalse => simp at member
        case isTrue container =>
          obtain ⟨position, child, found, live, member⟩ := mem_emitsAll.mp member
          obtain ⟨rest, rfl, reached⟩ := (ih child (List.mem_of_getElem? found)).mp member
          exact ⟨position :: rest, by simp, reached.prepend container found live⟩
    · rintro ⟨rest, rfl, reached⟩
      rcases reached.split with
        ⟨rfl, rfl⟩ | ⟨position, rest, child, rfl, container, found, live, reached⟩
      · exact .inl (by simp)
      · right
        rw [if_pos container]
        exact mem_emitsAll.mpr ⟨position, child, found, live,
          (ih child (List.mem_of_getElem? found)).mpr ⟨rest, by simp, reached⟩⟩

private theorem emitsAll_disjoint {path : List Nat} {children : List (Node α)} {start : Nat}
    {first : Node α} {one other : List Nat × Node α}
    (left : one ∈ emits rules (path ++ [start]) first)
    (right : other ∈ emitsAll rules path (start + 1) children) : one.1 ≠ other.1 := by
  obtain ⟨position, child, _, _, member⟩ := mem_emitsAll.mp right
  obtain ⟨front, leftPath, _⟩ := mem_emits.mp left
  obtain ⟨back, rightPath, _⟩ := mem_emits.mp member
  rw [leftPath, rightPath]
  simp
  omega

theorem emits_nodup (rules : RuleSet) (base : List Nat) (root : Node α) :
    ((emits rules base root).map (·.1)).Nodup := by
  induction root using treeInduction generalizing base with
  | step root ih =>
    have below : ∀ (children : List (Node α)) (start : Nat),
        (∀ child ∈ children, ∀ base, ((emits rules base child).map (·.1)).Nodup) →
        ((emitsAll rules base start children).map (·.1)).Nodup := by
      intro children
      induction children with
      | nil => intro _ _; simp [emitsAll]
      | cons child rest tail =>
        intro start each
        have others := tail (start + 1) fun other member => each other (by simp [member])
        rw [emitsAll]
        split
        · rw [List.map_append, List.nodup_append]
          refine ⟨each child (by simp) _, others, ?_⟩
          intro path left path' right
          obtain ⟨one, leftMember, rfl⟩ := List.mem_map.mp left
          obtain ⟨other, rightMember, rfl⟩ := List.mem_map.mp right
          exact emitsAll_disjoint leftMember rightMember
        · simpa using others
    rw [emits_eq, List.map_cons, List.nodup_cons]
    split
    · refine ⟨?_, below _ 0 fun child member => ih child member⟩
      intro member
      obtain ⟨entry, inside, same⟩ := List.mem_map.mp member
      obtain ⟨position, child, _, _, reached⟩ := mem_emitsAll.mp inside
      obtain ⟨rest, path, _⟩ := mem_emits.mp reached
      simp [path] at same
    · simp

end Node
end DesignCompiler
