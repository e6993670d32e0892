import DesignCompiler.Proofs.Occurrence
import DesignCompiler.Snapshot

/-!
Changes to the annotations of a tree. What reuse and the assets found do to a planned design is one
kind of change: it goes over the live nodes, keeps what each looks like, and fills in assets.
-/
namespace DesignCompiler

variable {α : Type}

/-- The layer with its annotations changed. -/
def Layer.revised (change : Layer α → Annotations α) (layer : Layer α) : Layer α :=
  { layer with annotations := change layer }

namespace Node

mutual

/-- Changes the annotations of a node and of its live descendants. -/
def revise (change : Layer α → Annotations α) : Node α → Node α
  | .text layer content => .text (layer.revised change) content
  | .container layer props children =>
    .container (layer.revised change) props (reviseAll change children)
  | .shape layer kind => .shape (layer.revised change) kind

def reviseAll (change : Layer α → Annotations α) : List (Node α) → List (Node α)
  | [] => []
  | child :: rest => (if child.isLive then revise change child else child) :: reviseAll change rest

end

/-- A change that gives no other answer to whether a node is live. -/
def KeepsLife (change : Layer α → Annotations α) : Prop :=
  ∀ layer, (change layer).duplicate = layer.annotations.duplicate

variable {rules : RuleSet} {change : Layer α → Annotations α}

@[simp] theorem layer_revise (node : Node α) : (revise change node).layer = node.layer.revised change := by
  cases node <;> rfl

theorem children_revise (node : Node α) : (revise change node).children = reviseAll change node.children := by
  cases node <;> simp [revise, children, reviseAll]

theorem isLive_revise (keeps : KeepsLife change) (node : Node α) :
    (revise change node).isLive = node.isLive := by
  simp [isLive, Layer.isLive, Layer.revised, keeps node.layer]

theorem strategy_revise (rules : RuleSet) (node : Node α) :
    (revise change node).strategy rules = node.strategy rules := by
  cases node with
  | container layer props children => cases children <;> rfl
  | text => rfl
  | shape => rfl

theorem classify_revise [Scalar α] (rules : RuleSet) (node : Node α) :
    (revise change node).classify rules = node.classify rules := by
  cases node with
  | container layer props children => cases children <;> rfl
  | text => rfl
  | shape => rfl

mutual

/-- The changed tree has the same nodes that reach the output, changed, at the same paths. -/
theorem emits_revise (keeps : KeepsLife change) (rules : RuleSet) (path : List Nat) :
    (node : Node α) →
      (revise change node).emits rules path =
        (node.emits rules path).map fun entry => (entry.1, revise change entry.2)
  | .container layer props children => by
    have same : (revise change (.container layer props children)).strategy rules = _ :=
      strategy_revise rules (.container layer props children)
    rw [emits_eq, emits_eq, same, children_revise, List.map_cons]
    simp only [Node.children]
    split
    · rw [emitsAll_revise keeps rules path 0 children]
    · rfl
  | .text layer content => rfl
  | .shape layer kind => rfl

theorem emitsAll_revise (keeps : KeepsLife change) (rules : RuleSet) (path : List Nat)
    (position : Nat) : (children : List (Node α)) →
      emitsAll rules path position (reviseAll change children) =
        (emitsAll rules path position children).map fun entry => (entry.1, revise change entry.2)
  | [] => rfl
  | child :: rest => by
    rw [reviseAll, emitsAll, emitsAll, List.map_append, emitsAll_revise keeps rules path _ rest]
    by_cases live : child.isLive = true
    · rw [if_pos live, if_pos live, isLive_revise keeps, if_pos live,
        emits_revise keeps rules _ child]
    · simp [live]

end

/-- A node of the changed tree that reaches the output is the change of one that does. -/
theorem Emits.of_revise (keeps : KeepsLife change) {root node : Node α} {path : List Nat}
    (reached : Emits rules (root.revise change) path node) :
    ∃ origin, Emits rules root path origin ∧ node = origin.revise change := by
  have listed := mem_emits.mpr ⟨path, (List.nil_append path).symm, reached⟩
  rw [emits_revise keeps] at listed
  obtain ⟨⟨_, origin⟩, member, same⟩ := List.mem_map.mp listed
  obtain ⟨rfl, rfl⟩ := Prod.mk.inj same
  obtain ⟨_, rfl, reached⟩ := mem_emits.mp member
  exact ⟨origin, reached, rfl⟩

mutual

theorem emitted_revise (keeps : KeepsLife change) : (node : Node α) →
    Plan.emitted (revise change node) = (Plan.emitted node).map (revise change)
  | .container layer props children => by
    rw [revise, Plan.emitted, Plan.emitted, List.map_cons, emittedAll_revise keeps children, revise]
  | .text layer content => rfl
  | .shape layer kind => rfl

theorem emittedAll_revise (keeps : KeepsLife change) : (children : List (Node α)) →
    Plan.emittedAll (reviseAll change children) = (Plan.emittedAll children).map (revise change)
  | [] => rfl
  | child :: rest => by
    rw [reviseAll, Plan.emittedAll, Plan.emittedAll, emittedAll_revise keeps rest]
    by_cases live : child.isLive = true
    · rw [if_pos live, if_pos (by rwa [isLive_revise keeps]), if_pos live, List.map_append,
        emitted_revise keeps child]
    · simp [live]

end

mutual

theorem backwards_revise (keeps : KeepsLife change) : (node : Node α) →
    backwards (revise change node) = (backwards node).map (revise change)
  | .container layer props children => by
    rw [revise, backwards, backwards, List.map_cons, backwardsAll_revise keeps children, revise]
  | .text layer content => rfl
  | .shape layer kind => rfl

theorem backwardsAll_revise (keeps : KeepsLife change) : (children : List (Node α)) →
    backwardsAll (reviseAll change children) = (backwardsAll children).map (revise change)
  | [] => rfl
  | child :: rest => by
    rw [reviseAll, backwardsAll, backwardsAll, backwardsAll_revise keeps rest, List.map_append]
    by_cases live : child.isLive = true
    · rw [if_pos live, if_pos (by rwa [isLive_revise keeps]), if_pos live,
        backwards_revise keeps child]
    · simp [live]

end

theorem liveChildren_revise (keeps : KeepsLife change) (node : Node α) :
    (revise change node).liveChildren = node.liveChildren.map (revise change) := by
  have all : ∀ children : List (Node α), (reviseAll change children).filter isLive =
      (children.filter isLive).map (revise change) := by
    intro children
    induction children with
    | nil => rfl
    | cons child rest ih =>
      rw [reviseAll]
      by_cases live : child.isLive = true
      · simp [live, isLive_revise keeps, ih]
      · simp [live, ih]
  rw [liveChildren, liveChildren, children_revise, all]

mutual

theorem revise_revise {later : Layer α → Annotations α} (keeps : KeepsLife change) :
    (node : Node α) → revise later (revise change node) =
      revise (fun layer => later (layer.revised change)) node
  | .container layer props children => by
    rw [revise, revise, reviseAll_reviseAll keeps children, revise]
    rfl
  | .text layer content => rfl
  | .shape layer kind => rfl

theorem reviseAll_reviseAll {later : Layer α → Annotations α} (keeps : KeepsLife change) :
    (children : List (Node α)) → reviseAll later (reviseAll change children) =
      reviseAll (fun layer => later (layer.revised change)) children
  | [] => rfl
  | child :: rest => by
    rw [reviseAll, reviseAll, reviseAll, reviseAll_reviseAll keeps rest]
    by_cases live : child.isLive = true
    · simp only [live, if_true, isLive_revise keeps, revise_revise keeps child]
    · simp [live]

end

mutual

/-- Two changes that come to the same on every live layer of a tree change it to the same tree. -/
theorem revise_congr {other : Layer α → Annotations α} : (node : Node α) →
    (∀ inner ∈ Plan.emitted node, change inner.layer = other inner.layer) →
      revise change node = revise other node
  | .container layer props children, same => by
    obtain ⟨here, below⟩ := List.forall_mem_cons.mp (by rwa [Plan.emitted] at same)
    rw [revise, revise, reviseAll_congr children below, Layer.revised, Layer.revised]
    rw [show change layer = other layer from here]
  | .text layer content, same => by
    have here : change layer = other layer := same _ List.mem_cons_self
    rw [revise, revise, Layer.revised, Layer.revised, here]
  | .shape layer kind, same => by
    have here : change layer = other layer := same _ List.mem_cons_self
    rw [revise, revise, Layer.revised, Layer.revised, here]

theorem reviseAll_congr {other : Layer α → Annotations α} : (children : List (Node α)) →
    (∀ inner ∈ Plan.emittedAll children, change inner.layer = other inner.layer) →
      reviseAll change children = reviseAll other children
  | [], _ => rfl
  | child :: rest, same => by
    rw [Plan.emittedAll] at same
    rw [reviseAll, reviseAll]
    by_cases live : child.isLive = true
    · rw [if_pos live] at same
      obtain ⟨own, others⟩ := List.forall_mem_append.mp same
      rw [revise_congr child own, reviseAll_congr rest others]
    · rw [if_neg live] at same
      rw [if_neg live, if_neg live, reviseAll_congr rest same]

end

mutual

theorem backwards_perm : (node : Node α) → (backwards node).Perm (Plan.emitted node)
  | .container layer props children => by
    rw [backwards, Plan.emitted]
    exact (backwardsAll_perm children).cons _
  | .text layer content => .refl _
  | .shape layer kind => .refl _

theorem backwardsAll_perm : (children : List (Node α)) →
    (backwardsAll children).Perm (Plan.emittedAll children)
  | [] => .refl _
  | child :: rest => by
    rw [backwardsAll, Plan.emittedAll]
    by_cases live : child.isLive = true
    · rw [if_pos live, if_pos live]
      exact List.perm_append_comm.trans ((backwards_perm child).append (backwardsAll_perm rest))
    · rw [if_neg live, if_neg live, List.append_nil]
      exact backwardsAll_perm rest

end

end Node

/-- A change that fills in assets and nothing else. -/
structure Refills (change : Layer α → Annotations α) : Prop where
  life : Node.KeepsLife change
  raster : ∀ layer, (change layer).raster.map (·.hash) = layer.annotations.raster.map (·.hash)
  background : ∀ layer,
    (change layer).background.map (·.hash) = layer.annotations.background.map (·.hash)
  shadow : ∀ layer, (change layer).shadow.map (·.hash) = layer.annotations.shadow.map (·.hash)

namespace Refills

variable {change later : Layer α → Annotations α}

/-- One filling after another is a filling. -/
theorem comp (second : Refills later) (first : Refills change) :
    Refills fun layer => later (layer.revised change) where
  life layer := (second.life _).trans (first.life layer)
  raster layer := (second.raster _).trans (first.raster layer)
  background layer := (second.background _).trans (first.background layer)
  shadow layer := (second.shadow _).trans (first.shadow layer)

theorem hashes (refills : Refills change) (node : Node α) :
    (Plan.pictures (node.revise change)).map (·.hash) = (Plan.pictures node).map (·.hash) := by
  have list : ∀ picture : Option Picture,
      picture.toList.map (·.hash) = (picture.map (·.hash)).toList := by
    intro picture
    cases picture <;> rfl
  rw [Plan.pictures, Plan.pictures, Node.layer_revise]
  simp only [Layer.revised, List.map_append, list, refills.raster, refills.background, refills.shadow]

theorem requiredHashes (refills : Refills change) (root : Node α) :
    Plan.requiredHashes (root.revise change) = Plan.requiredHashes root := by
  rw [Plan.requiredHashes, Plan.requiredHashes, Node.emitted_revise refills.life, List.map_flatMap,
    List.map_flatMap, List.flatMap_map]
  simp only [refills.hashes]

/-- A fingerprint does not see which assets are known. -/
theorem fingerprint [Scalar α] (refills : Refills change) (node : Node α) :
    (node.revise change).fingerprint = node.fingerprint := by
  have content : (node.revise change).content? = node.content? := by cases node <;> rfl
  have text : ∀ picture : Option Picture, picture.map (fun picture => Json.string picture.hash) =
      (picture.map (·.hash)).map .string := by
    intro picture
    cases picture <;> rfl
  rw [Node.fingerprint, Node.fingerprint, Node.facts, Node.facts]
  simp only [Node.layer_revise, Node.liveChildren_revise refills.life, content, text, Layer.revised,
    refills.raster, refills.background, List.length_map, List.map_map, Function.comp_def]
  rfl

end Refills

namespace Plan

variable {lookup : String → Option String}

/-- What the assets found do to the annotations of a layer. -/
def filling (lookup : String → Option String) (layer : Layer α) : Annotations α :=
  fillNotes lookup layer.annotations

mutual

/-- Filling in the assets is a change of annotations. -/
theorem applyAssets_eq (lookup : String → Option String) : (node : Node α) →
    applyAssets lookup node = node.revise (filling lookup)
  | .container layer props children => by
    rw [applyAssets, Node.revise, applyAssetsAll_eq lookup children]
    rfl
  | .text layer content => rfl
  | .shape layer kind => rfl

theorem applyAssetsAll_eq (lookup : String → Option String) : (children : List (Node α)) →
    applyAssetsAll lookup children = Node.reviseAll (filling lookup) children
  | [] => rfl
  | child :: rest => by
    rw [applyAssetsAll, Node.reviseAll, applyAssets_eq lookup child, applyAssetsAll_eq lookup rest]

end

@[simp] theorem hash_fillPicture (picture : Picture) : (fillPicture lookup picture).hash = picture.hash := by
  rw [fillPicture]
  split <;> rfl

theorem refills_filling : Refills (filling lookup : Layer α → Annotations α) := by
  refine ⟨fun layer => rfl, fun layer => ?_, fun layer => ?_, fun layer => ?_⟩
  all_goals simp [filling, fillNotes, Function.comp_def]

end Plan

namespace Diff

/-- What reuse does to the annotations of a layer. -/
def carrying (reuse : List (String × String)) (layer : Layer α) : Annotations α :=
  match reuse.lookup layer.id with
  | some asset => (reuseNotes asset layer.annotations).1
  | none => layer.annotations

theorem reuseLayer_fst (reuse : List (String × String)) (layer : Layer α) :
    (reuseLayer reuse layer).1 = layer.revised (carrying reuse) := by
  rw [Layer.revised, carrying, reuseLayer]
  cases reuse.lookup layer.id <;> rfl

mutual

/-- Carrying assets over is a change of annotations. -/
theorem applyReuse_eq (reuse : List (String × String)) : (node : Node α) →
    (applyReuse reuse node).1 = node.revise (carrying reuse)
  | .container layer props children => by
    simp only [applyReuse, Node.revise, reuseLayer_fst, applyReuseAll_eq reuse children]
  | .text layer content => by simp only [applyReuse, Node.revise, reuseLayer_fst]
  | .shape layer kind => by simp only [applyReuse, Node.revise, reuseLayer_fst]

theorem applyReuseAll_eq (reuse : List (String × String)) : (children : List (Node α)) →
    (applyReuseAll reuse children).1 = Node.reviseAll (carrying reuse) children
  | [] => rfl
  | child :: rest => by
    simp only [applyReuseAll, Node.reviseAll, applyReuseAll_eq reuse rest]
    split
    · rw [applyReuse_eq reuse child]
    · rfl

end

theorem refills_carrying (reuse : List (String × String)) :
    Refills (carrying reuse : Layer α → Annotations α) := by
  have notes : ∀ (asset : String) (notes : Annotations α),
      (reuseNotes asset notes).1.duplicate = notes.duplicate ∧
      (reuseNotes asset notes).1.raster.map (·.hash) = notes.raster.map (·.hash) ∧
      (reuseNotes asset notes).1.background.map (·.hash) = notes.background.map (·.hash) ∧
      (reuseNotes asset notes).1.shadow.map (·.hash) = notes.shadow.map (·.hash) := by
    intro asset notes
    rw [reuseNotes]
    split
    · split <;> simp_all
    · split <;> simp_all
    · simp
  have each : ∀ layer : Layer α, (carrying reuse layer).duplicate = layer.annotations.duplicate ∧
      (carrying reuse layer).raster.map (·.hash) = layer.annotations.raster.map (·.hash) ∧
      (carrying reuse layer).background.map (·.hash) = layer.annotations.background.map (·.hash) ∧
      (carrying reuse layer).shadow.map (·.hash) = layer.annotations.shadow.map (·.hash) := by
    intro layer
    rw [carrying]
    split
    · exact notes _ _
    · simp
  exact ⟨fun layer => (each layer).1, fun layer => (each layer).2.1,
    fun layer => (each layer).2.2.1, fun layer => (each layer).2.2.2⟩

end Diff
end DesignCompiler
