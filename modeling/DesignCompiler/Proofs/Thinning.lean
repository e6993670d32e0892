import DesignCompiler.Proofs.Planning

/-!
Trees without nodes that nobody sees. From planning on, every pass looks at a node and at the live nodes
below it, and at whether a container has children at all. So none of them tells a tree from the same tree
thinned of nodes that are not live, as long as a hidden node stands in wherever no child would be left.
-/
namespace DesignCompiler

variable {α : Type}

/-- A choice of layers that takes every live one. -/
def Layer.Lenient (keeps : Layer α → Bool) : Prop := ∀ layer : Layer α, layer.isLive = true → keeps layer = true

theorem Plan.emittedAll_hidden (child : Node α) (rest : List (Node α)) (hidden : child.isLive = false) :
    emittedAll (child :: rest) = emittedAll rest := by
  rw [emittedAll, hidden]
  rfl

namespace Node

theorem filter_hidden (child : Node α) (rest : List (Node α)) (hidden : child.isLive = false) :
    (child :: rest).filter isLive = rest.filter isLive := by
  rw [List.filter_cons_of_neg (by rw [hidden]; exact Bool.false_ne_true)]

theorem backwardsAll_hidden (child : Node α) (rest : List (Node α)) (hidden : child.isLive = false) :
    backwardsAll (child :: rest) = backwardsAll rest := by
  rw [backwardsAll, hidden]
  exact List.append_nil _

theorem childSignatures_hidden [Scalar α] (child : Node α) (rest : List (Node α))
    (hidden : child.isLive = false) : childSignatures (child :: rest) = childSignatures rest := by
  rw [childSignatures, hidden]
  rfl

theorem isEmpty_reviseAll (change : Layer α → Annotations α) (children : List (Node α)) :
    (reviseAll change children).isEmpty = children.isEmpty := by
  cases children <;> rfl

mutual

/-- The tree without the nodes below the root that are not kept. -/
def stripped (keeps : Layer α → Bool) : Node α → Node α
  | .container layer props children => .container layer props (strippedAll keeps children)
  | .text layer content => .text layer content
  | .shape layer kind => .shape layer kind

def strippedAll (keeps : Layer α → Bool) : List (Node α) → List (Node α)
  | [] => []
  | child :: rest =>
    if keeps child.layer then child.stripped keeps :: strippedAll keeps rest else strippedAll keeps rest

end

mutual

/-- No container that is kept has children of which none is kept. -/
def Occupied (keeps : Layer α → Bool) : Node α → Prop
  | .container _ _ children =>
    (children ≠ [] → ∃ child ∈ children, keeps child.layer = true) ∧ OccupiedAll keeps children
  | .text _ _ => True
  | .shape _ _ => True

def OccupiedAll (keeps : Layer α → Bool) : List (Node α) → Prop
  | [] => True
  | child :: rest => (keeps child.layer = true → child.Occupied keeps) ∧ OccupiedAll keeps rest

end

variable [Scalar α]

/-- A hidden node with nothing to show. -/
def standIn : Node α := .shape { Layer.plain "" "" ⟨0, 0, 0, 0⟩ with visible := false } .rectangle

/-- What is kept of some children, or the stand-in if there are children and none is kept. -/
def stoodIn (children kept : List (Node α)) : List (Node α) :=
  if kept.isEmpty && !children.isEmpty then [standIn] else kept

mutual

/-- The tree without the nodes below the root that are not kept, apart from the stand-ins. -/
def thinned (keeps : Layer α → Bool) : Node α → Node α
  | .container layer props children => .container layer props (stoodIn children (thinnedAll keeps children))
  | .text layer content => .text layer content
  | .shape layer kind => .shape layer kind

def thinnedAll (keeps : Layer α → Bool) : List (Node α) → List (Node α)
  | [] => []
  | child :: rest =>
    if keeps child.layer then child.thinned keeps :: thinnedAll keeps rest else thinnedAll keeps rest

end

variable {keeps : Layer α → Bool}

@[simp] theorem layer_thinned (node : Node α) : (node.thinned keeps).layer = node.layer := by
  cases node <;> rfl

@[simp] theorem isLive_thinned (node : Node α) : (node.thinned keeps).isLive = node.isLive := by
  rw [isLive, layer_thinned, isLive]

@[simp] theorem content?_thinned (node : Node α) : (node.thinned keeps).content? = node.content? := by
  cases node <;> rfl

@[simp] theorem layout?_thinned (node : Node α) : (node.thinned keeps).layout? = node.layout? := by
  cases node <;> rfl

@[simp] theorem clips_thinned (node : Node α) : (node.thinned keeps).clips = node.clips := by
  cases node <;> rfl

@[simp] theorem tag_thinned (node : Node α) : (node.thinned keeps).tag = node.tag := by
  cases node <;> rfl

@[simp] theorem moved_thinned (dx dy : α) (node : Node α) :
    (node.thinned keeps).moved dx dy = (node.moved dx dy).thinned keeps := by
  cases node <;> rfl

theorem children_thinned (node : Node α) :
    (node.thinned keeps).children = stoodIn node.children (thinnedAll keeps node.children) := by
  cases node <;> rfl

omit [Scalar α] in
theorem strippedAll_ne_nil {children : List (Node α)} {child : Node α} (member : child ∈ children)
    (kept : keeps child.layer = true) : strippedAll keeps children ≠ [] := by
  induction children with
  | nil => cases member
  | cons first rest ih =>
    rw [strippedAll]
    split
    · exact List.cons_ne_nil _ _
    · rename_i dropped
      refine ih ((List.mem_cons.mp member).resolve_left ?_)
      rintro rfl
      exact dropped kept

mutual

/-- Nothing has to stand in where no container is left without its children. -/
theorem Occupied.thinned : (node : Node α) → node.Occupied keeps → node.thinned keeps = node.stripped keeps
  | .container layer props children, occupied => by
    rw [Node.thinned, stripped, thinnedAll_occupied children occupied.2, stoodIn, if_neg]
    rw [Bool.and_eq_true, Bool.not_eq_true', List.isEmpty_iff, List.isEmpty_eq_false_iff]
    rintro ⟨none, some_child⟩
    obtain ⟨child, member, kept⟩ := occupied.1 some_child
    exact strippedAll_ne_nil member kept none
  | .text _ _, _ => rfl
  | .shape _ _, _ => rfl

theorem thinnedAll_occupied : (children : List (Node α)) → OccupiedAll keeps children →
    thinnedAll keeps children = strippedAll keeps children
  | [], _ => rfl
  | child :: rest, occupied => by
    rw [thinnedAll, strippedAll, thinnedAll_occupied rest occupied.2]
    split
    · rename_i kept
      rw [(occupied.1 kept).thinned child]
    · rfl

end

theorem isEmpty_stoodIn {children kept : List (Node α)} (none : children = [] → kept = []) :
    (stoodIn children kept).isEmpty = children.isEmpty := by
  rw [stoodIn]
  cases children with
  | nil => simp [none rfl]
  | cons child rest => cases kept <;> rfl

/-- Thinning leaves the question open whether there are children. -/
@[simp] theorem isEmpty_thinned (node : Node α) :
    (node.thinned keeps).children.isEmpty = node.children.isEmpty := by
  rw [children_thinned]
  exact isEmpty_stoodIn fun none => by rw [none, thinnedAll]

/-- What passes the stand-in by sees the children that are kept. -/
theorem view_stoodIn {β : Type} (view : List (Node α) → β) (same : view [standIn] = view [])
    (children kept : List (Node α)) : view (stoodIn children kept) = view kept := by
  rw [stoodIn]
  split
  · rename_i emptied
    rw [Bool.and_eq_true, List.isEmpty_iff] at emptied
    rw [emptied.1, same]
  · rfl

/-- A pass that keeps the stand-in and empties no list can go first. -/
theorem pass_stoodIn (pass : List (Node α) → List (Node α)) (same : pass [standIn] = [standIn])
    (empty : ∀ nodes, (pass nodes).isEmpty = nodes.isEmpty) (children kept : List (Node α)) :
    pass (stoodIn children kept) = stoodIn (pass children) (pass kept) := by
  rw [stoodIn, stoodIn, empty, empty]
  split
  · exact same
  · rfl

theorem thinnedAll_of_isLive (lenient : Layer.Lenient keeps) {child : Node α} (live : child.isLive = true)
    (rest : List (Node α)) :
    thinnedAll keeps (child :: rest) = child.thinned keeps :: thinnedAll keeps rest := by
  rw [thinnedAll, if_pos (lenient child.layer live)]

/-- What passes hidden children by is the same whether or not they are kept. -/
theorem view_thinnedAll {β : Type} (view : List (Node α) → β)
    (skips : ∀ (child : Node α) rest, child.isLive = false → view (child :: rest) = view rest)
    {child : Node α} (hidden : child.isLive = false) (rest : List (Node α)) :
    view (thinnedAll keeps (child :: rest)) = view (thinnedAll keeps rest) := by
  rw [thinnedAll]
  split
  · exact skips _ _ (by rwa [isLive_thinned])
  · rfl

theorem filter_thinnedAll (lenient : Layer.Lenient keeps) (children : List (Node α)) :
    (thinnedAll keeps children).filter isLive = (children.filter isLive).map (thinned keeps) := by
  induction children with
  | nil => rfl
  | cons child rest ih =>
    by_cases live : child.isLive = true
    · rw [thinnedAll_of_isLive lenient live, List.filter_cons_of_pos (by rwa [isLive_thinned]),
        List.filter_cons_of_pos live, List.map_cons, ih]
    · have hidden : child.isLive = false := by simpa using live
      rw [view_thinnedAll _ filter_hidden hidden, filter_hidden child rest hidden, ih]

theorem liveChildren_thinned (lenient : Layer.Lenient keeps) (node : Node α) :
    (node.thinned keeps).liveChildren = node.liveChildren.map (thinned keeps) := by
  rw [liveChildren, children_thinned, view_stoodIn _ (filter_hidden standIn [] rfl),
    filter_thinnedAll lenient, liveChildren]

mutual

theorem emitted_thinned (lenient : Layer.Lenient keeps) : (node : Node α) →
    Plan.emitted (node.thinned keeps) = (Plan.emitted node).map (thinned keeps)
  | .container layer props children => by
    rw [thinned, Plan.emitted, Plan.emitted, List.map_cons,
      view_stoodIn _ (Plan.emittedAll_hidden standIn [] rfl), emittedAll_thinned lenient children, thinned]
  | .text layer content => rfl
  | .shape layer kind => rfl

theorem emittedAll_thinned (lenient : Layer.Lenient keeps) : (children : List (Node α)) →
    Plan.emittedAll (thinnedAll keeps children) = (Plan.emittedAll children).map (thinned keeps)
  | [] => rfl
  | child :: rest => by
    by_cases live : child.isLive = true
    · rw [thinnedAll_of_isLive lenient live, Plan.emittedAll, Plan.emittedAll, if_pos live,
        if_pos (by rwa [isLive_thinned]), List.map_append, emitted_thinned lenient child,
        emittedAll_thinned lenient rest]
    · have hidden : child.isLive = false := by simpa using live
      rw [view_thinnedAll _ Plan.emittedAll_hidden hidden, Plan.emittedAll_hidden child rest hidden,
        emittedAll_thinned lenient rest]

end

mutual

theorem backwards_thinned (lenient : Layer.Lenient keeps) : (node : Node α) →
    (node.thinned keeps).backwards = node.backwards.map (thinned keeps)
  | .container layer props children => by
    rw [thinned, backwards, backwards, List.map_cons,
      view_stoodIn _ (backwardsAll_hidden standIn [] rfl), backwardsAll_thinned lenient children, thinned]
  | .text layer content => rfl
  | .shape layer kind => rfl

theorem backwardsAll_thinned (lenient : Layer.Lenient keeps) : (children : List (Node α)) →
    backwardsAll (thinnedAll keeps children) = (backwardsAll children).map (thinned keeps)
  | [] => rfl
  | child :: rest => by
    by_cases live : child.isLive = true
    · rw [thinnedAll_of_isLive lenient live, backwardsAll, backwardsAll, if_pos live,
        if_pos (by rwa [isLive_thinned]), List.map_append, backwards_thinned lenient child,
        backwardsAll_thinned lenient rest]
    · have hidden : child.isLive = false := by simpa using live
      rw [view_thinnedAll _ backwardsAll_hidden hidden, backwardsAll_hidden child rest hidden,
        backwardsAll_thinned lenient rest]

end

theorem ownSignature_thinned (node : Node α) (aspect : Aspect) (offset : Option (Point α)) :
    (node.thinned keeps).ownSignature aspect offset = node.ownSignature aspect offset := by
  simp only [ownSignature, layer_thinned, tag_thinned, content?_thinned]

mutual

theorem deepSignature_thinned (lenient : Layer.Lenient keeps) (aspect : Aspect) (offset : Option (Point α)) :
    (node : Node α) → (node.thinned keeps).deepSignature aspect offset = node.deepSignature aspect offset
  | .container layer props children => by
    have own : ((container layer props children).thinned keeps).ownSignature aspect offset = _ :=
      ownSignature_thinned _ aspect offset
    rw [thinned] at own ⊢
    rw [deepSignature, deepSignature, own, view_stoodIn _ (childSignatures_hidden standIn [] rfl),
      childSignatures_thinned lenient children]
  | .text layer content => rfl
  | .shape layer kind => rfl

theorem childSignatures_thinned (lenient : Layer.Lenient keeps) : (children : List (Node α)) →
    childSignatures (thinnedAll keeps children) = childSignatures children
  | [] => rfl
  | child :: rest => by
    by_cases live : child.isLive = true
    · rw [thinnedAll_of_isLive lenient live, childSignatures, childSignatures, if_pos live,
        if_pos (by rwa [isLive_thinned]), layer_thinned, deepSignature_thinned lenient .child _ child,
        childSignatures_thinned lenient rest]
    · have hidden : child.isLive = false := by simpa using live
      rw [view_thinnedAll _ childSignatures_hidden hidden, childSignatures_hidden child rest hidden,
        childSignatures_thinned lenient rest]

end

theorem fingerprint_thinned (lenient : Layer.Lenient keeps) (node : Node α) :
    (node.thinned keeps).fingerprint = node.fingerprint := by
  simp only [fingerprint, facts, layer_thinned, liveChildren_thinned lenient, content?_thinned,
    List.length_map, List.map_map, Function.comp_def]

theorem snapshotEntry_thinned (lenient : Layer.Lenient keeps) (node : Node α) :
    (node.thinned keeps).snapshotEntry = node.snapshotEntry := by
  simp only [snapshotEntry, Plan.primaryAsset, Plan.primary, layer_thinned, fingerprint_thinned lenient]

@[simp] theorem strategy_thinned (rules : RuleSet) (node : Node α) :
    (node.thinned keeps).strategy rules = node.strategy rules := by
  have own : (node.thinned keeps).ownStrategy = node.ownStrategy := by
    cases node with
    | container layer props children =>
      have empty : (stoodIn children (thinnedAll keeps children)).isEmpty = children.isEmpty :=
        isEmpty_thinned (.container layer props children)
      rw [thinned, ownStrategy, ownStrategy, empty]
    | text | shape => rfl
  rw [strategy, strategy, own, layer_thinned]

@[simp] theorem classify_thinned (rules : RuleSet) (node : Node α) :
    (node.thinned keeps).classify rules = node.classify rules := by
  simp only [classify, strategy_thinned, isEmpty_thinned, layer_thinned]

theorem contentHash_thinned (lenient : Layer.Lenient keeps) (flattened : Bool) (node : Node α) :
    (node.thinned keeps).contentHash flattened = node.contentHash flattened := by
  simp only [contentHash, loneImageHash, isEmpty_thinned, layer_thinned, deepSignature_thinned lenient,
    ownSignature_thinned]

theorem notes_thinned (lenient : Layer.Lenient keeps) (rules : RuleSet) (parentFlow isRoot : Bool)
    (node : Node α) :
    Plan.notes rules parentFlow isRoot (node.thinned keeps) = Plan.notes rules parentFlow isRoot node := by
  simp only [Plan.notes, classify_thinned, contentHash_thinned lenient, layer_thinned, backgroundHash,
    ownSignature_thinned]

variable {change : Layer α → Annotations α}

mutual

theorem revise_thinned (lenient : Layer.Lenient keeps) (life : KeepsLife change) : (node : Node α) →
    (node.thinned keeps).revise change = (node.revise change).thinned keeps
  | .container layer props children => by
    rw [thinned, revise, revise, thinned, pass_stoodIn _ rfl (isEmpty_reviseAll change),
      reviseAll_thinned lenient life children]
  | .text layer content => rfl
  | .shape layer kind => rfl

theorem reviseAll_thinned (lenient : Layer.Lenient keeps) (life : KeepsLife change) :
    (children : List (Node α)) →
    reviseAll change (thinnedAll keeps children) = thinnedAll keeps (reviseAll change children)
  | [] => rfl
  | child :: rest => by
    have others := reviseAll_thinned lenient life rest
    by_cases live : child.isLive = true
    · rw [thinnedAll_of_isLive lenient live, reviseAll, reviseAll, if_pos live,
        if_pos (by rwa [isLive_thinned]), thinnedAll_of_isLive lenient (by rwa [isLive_revise life]),
        revise_thinned lenient life child, others]
    · rw [reviseAll, if_neg live, thinnedAll, thinnedAll]
      split
      · rw [reviseAll, if_neg (by rwa [isLive_thinned]), others]
      · exact others

end
end Node
end DesignCompiler
