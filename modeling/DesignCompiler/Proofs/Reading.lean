import DesignCompiler.Manifest
import DesignCompiler.Plan

/-!
What a manifest says nothing about. Whatever text it is read from, nothing is noted about any of its
nodes; so none of them has a picture before planning.
-/
namespace DesignCompiler

variable {α : Type}

namespace Plan

/-- None of some nodes has a picture. -/
def Blank (nodes : List (Node α)) : Prop := ∀ node ∈ nodes, pictures node = []

end Plan

/-- No live node of the design has a picture yet. -/
def Manifest.Unplanned (manifest : Manifest α) : Prop :=
  ∀ root, manifest.root = some root → Plan.Blank (Plan.emitted root)

namespace Node

/-- Nothing is noted about any node of the tree, hidden ones included. -/
def Fresh (node : Node α) : Prop := ∀ inner ∈ node.preorder, inner.layer.annotations = .none

theorem preorders_eq (nodes : List (Node α)) : preorders nodes = nodes.flatMap preorder := by
  induction nodes with
  | nil => rfl
  | cons node rest ih => rw [preorders, ih, List.flatMap_cons]

theorem preorder_eq (node : Node α) : node.preorder = node :: node.children.flatMap preorder := by
  cases node with
  | container layer props children =>
    rw [preorder, preorders_eq]
    rfl
  | text layer content => rfl
  | shape layer kind => rfl

theorem fresh_iff {node : Node α} :
    node.Fresh ↔ node.layer.annotations = .none ∧ ∀ child ∈ node.children, child.Fresh := by
  unfold Fresh
  rw [preorder_eq, List.forall_mem_cons]
  refine and_congr_right fun _ => ?_
  constructor
  · intro all child member inner below
    exact all inner (List.mem_flatMap.mpr ⟨child, member, below⟩)
  · intro all inner member
    obtain ⟨child, member, below⟩ := List.mem_flatMap.mp member
    exact all child member inner below

theorem Fresh.own {node : Node α} (fresh : node.Fresh) : node.layer.annotations = .none :=
  (fresh_iff.mp fresh).1

theorem Fresh.below {node child : Node α} (fresh : node.Fresh) (member : child ∈ node.children) :
    child.Fresh := (fresh_iff.mp fresh).2 child member

mutual

theorem emitted_sublist : (node : Node α) → (Plan.emitted node).Sublist node.preorder
  | .container layer props children => by
    rw [Plan.emitted, preorder]
    exact (emittedAll_sublist children).cons_cons _
  | .text layer content => .refl _
  | .shape layer kind => .refl _

theorem emittedAll_sublist : (children : List (Node α)) →
    (Plan.emittedAll children).Sublist (preorders children)
  | [] => .refl _
  | child :: rest => by
    rw [Plan.emittedAll, preorders]
    split
    · exact (emitted_sublist child).append (emittedAll_sublist rest)
    · exact (emittedAll_sublist rest).trans (List.sublist_append_right _ _)

end

theorem Fresh.blank {node : Node α} (fresh : node.Fresh) : Plan.Blank (Plan.emitted node) := by
  intro inner member
  rw [Plan.pictures, fresh inner ((emitted_sublist node).subset member)]
  rfl

end Node

variable [Scalar α]

/-- A layer that was read has nothing noted about it. -/
theorem Layer.annotations_ofMembers {members : List (String × Json)} {layer : Layer α}
    (parsed : Layer.ofMembers? members = some layer) : layer.annotations = .none := by
  dsimp only [Layer.ofMembers?, Option.bind_eq_bind] at parsed
  repeat
    rw [Option.bind_eq_some_iff] at parsed
    obtain ⟨_, _, parsed⟩ := parsed
  cases parsed
  rfl

namespace Node

theorem annotations_ofMembers {members : List (String × Json)} {children : Option (List (Node α))}
    {node : Node α}
    (parsed : ofMembers? members children = some node) : node.layer.annotations = .none ∧
      (node.children = [] ∨ children = some node.children) := by
  simp only [ofMembers?, Option.bind_eq_bind, Option.bind_eq_some_iff] at parsed
  obtain ⟨layer, own, tag, _, tag', _, parsed⟩ := parsed
  have none := Layer.annotations_ofMembers own
  split at parsed
  · obtain ⟨content, _, same⟩ := Option.bind_eq_some_iff.mp parsed
    cases same
    exact ⟨none, .inl rfl⟩
  · split at parsed
    · cases parsed
      exact ⟨none, .inl rfl⟩
    · obtain ⟨_, _, parsed⟩ := Option.bind_eq_some_iff.mp parsed
      obtain ⟨props, _, parsed⟩ := Option.bind_eq_some_iff.mp parsed
      obtain ⟨nodes, found, same⟩ := Option.bind_eq_some_iff.mp parsed
      cases same
      exact ⟨none, .inr found⟩

mutual

/-- Nothing is noted about a node that was read, nor about any below it. -/
theorem fresh_ofJson {node : Node α} : (value : Json) → ofJson? value = some node → node.Fresh
  | .object members, parsed => by
    rw [ofJson?] at parsed
    obtain ⟨none, below⟩ := annotations_ofMembers parsed
    refine fresh_iff.mpr ⟨none, ?_⟩
    rcases below with bare | found
    · rw [bare]
      intro child member
      cases member
    · exact fresh_childrenOf members found
  | .null, parsed | .bool _, parsed | .number _, parsed | .string _, parsed | .array _, parsed => by
    simp [ofJson?] at parsed

theorem fresh_childrenOf {nodes : List (Node α)} : (members : List (String × Json)) →
    childrenOf? members = some nodes → ∀ node ∈ nodes, node.Fresh
  | [], parsed => by
    cases parsed
    intro node member
    cases member
  | (key, .array items) :: rest, parsed => by
    unfold childrenOf? at parsed
    split at parsed
    · exact fresh_listOf items parsed
    · exact fresh_childrenOf rest parsed
  | (key, .null) :: rest, parsed | (key, .bool _) :: rest, parsed | (key, .number _) :: rest, parsed
  | (key, .string _) :: rest, parsed | (key, .object _) :: rest, parsed => by
    unfold childrenOf? at parsed
    split at parsed
    · cases parsed
    · exact fresh_childrenOf rest parsed

theorem fresh_listOf {nodes : List (Node α)} : (items : List Json) → listOf? items = some nodes →
    ∀ node ∈ nodes, node.Fresh
  | [], parsed => by
    cases parsed
    intro node member
    cases member
  | item :: rest, parsed => by
    unfold listOf? at parsed
    split at parsed
    · rename_i node nodes first others
      cases parsed
      exact List.forall_mem_cons.mpr ⟨fresh_ofJson item first, fresh_listOf rest others⟩
    · cases parsed

end
end Node

namespace Manifest

/-- Nothing is noted about the tree of a manifest that was read. -/
theorem fresh_ofJson {value : Json} {manifest : Manifest α} (parsed : ofJson? value = some manifest)
    {root : Node α} (found : manifest.root = some root) : root.Fresh := by
  simp only [ofJson?, Option.bind_eq_bind, Option.bind_eq_some_iff] at parsed
  obtain ⟨fields, _, held, entry, _, _, _, _, _, _, same⟩ := parsed
  cases same
  obtain rfl : held = some root := found
  rw [Json.Record.orElse] at entry
  split at entry
  · rename_i value _
    cases value <;> simp only [Json.optional?, Option.map_eq_some_iff, Option.some.injEq,
      exists_eq_right, reduceCtorEq] at entry <;> exact Node.fresh_ofJson _ entry
  · cases entry

/-- No node of a manifest that was read has a picture yet. -/
theorem unplanned_ofJson {value : Json} {manifest : Manifest α}
    (parsed : ofJson? value = some manifest) : manifest.Unplanned :=
  fun _ found => (fresh_ofJson parsed found).blank

/-- The same of the text of a manifest. -/
theorem unplanned_of_parse {contents : String} {manifest : Manifest α}
    (parsed : parse contents = some manifest) : manifest.Unplanned := by
  obtain ⟨_, _, known⟩ := Option.bind_eq_some_iff.mp parsed
  exact unplanned_ofJson known

end Manifest
end DesignCompiler
