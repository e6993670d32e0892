import DesignCompiler.Proofs.Doubles
import DesignCompiler.Proofs.Passes

/-!
What the hash of a flattened node tells. It is the digest of everything to be seen of the node and of the
live nodes below it, texts that imitate an outline apart; from the same digest the same sight can be told.
-/
namespace DesignCompiler

variable {α ν : Type} [Scalar α]

/-- What is to be seen of a node itself. -/
structure Look (ν : Type) where
  kind : String
  /-- Where a child stands in its parent. -/
  offset : Option (Point ν)
  width : ν
  height : ν
  rotation : ν
  corners : Corners ν
  fills : List (Paint ν)
  strokes : List (Paint ν)
  strokeWeight : ν
  effects : List (Effect ν)
  opacity : ν
  content : Option (TextContent ν)

/-- A node and what is to be seen below it. -/
inductive Sight (ν : Type) where
  | node (look : Look ν) (below : List (Sight ν))

open Scalar (canonical_json)

namespace Node

/-- Where a child stands in its parent. -/
def place (child : Node α) : Option (Point α) := some ⟨child.layer.x, child.layer.y⟩

/-- Numbers are taken by a reading, and measures of the node to the hundredth. -/
def look (read : α → ν) (node : Node α) (offset : Option (Point α)) : Look ν where
  kind := node.tag
  offset := offset.map (Point.map fun x => read (Scalar.hundredths x))
  width := read (Scalar.hundredths node.layer.width)
  height := read (Scalar.hundredths node.layer.height)
  rotation := read (Scalar.hundredths node.layer.rotation)
  corners := node.layer.corners.map read
  fills := node.layer.fills.map (Paint.map read)
  strokes := node.layer.strokes.map (Paint.map read)
  strokeWeight := read (Scalar.hundredths node.layer.strokeWeight)
  effects := node.layer.effects.map (Effect.map read)
  opacity := read (Scalar.hundredths node.layer.opacity)
  content := node.content?.map (TextContent.map read)

mutual

/-- What is to be seen of a node and of the live nodes below it, apart from those among siblings that are
left out by their positions. -/
def sight (read : α → ν) (omitted : List (Node α) → List Nat) (offset : Option (Point α)) :
    Node α → Sight ν
  | .container layer props children =>
    .node (look read (.container layer props children) offset)
      (sights read omitted (omitted children) 0 children)
  | .text layer content => .node (look read (.text layer content) offset) []
  | .shape layer kind => .node (look read (.shape layer kind) offset) []

def sights (read : α → ν) (omitted : List (Node α) → List Nat) (gone : List Nat) (position : Nat) :
    List (Node α) → List (Sight ν)
  | [] => []
  | child :: rest =>
    if child.isLive && !gone.contains position then
      sight read omitted child.place child :: sights read omitted gone (position + 1) rest
    else sights read omitted gone (position + 1) rest

end

/-- All that is to be seen of a node. -/
abbrev fullSight (read : α → ν) (offset : Option (Point α)) (node : Node α) : Sight ν :=
  node.sight read (fun _ => []) offset

end Node

namespace Node

variable {aspect : Aspect} {offset : Option (Point α)}

theorem deepSignature_eq (node : Node α) :
    node.deepSignature aspect offset =
      .object (node.ownSignature aspect offset ++ childMember (childSignatures node.children)) := by
  cases node with
  | container => rfl
  | text => simp [deepSignature, children, childSignatures, childMember]
  | shape => simp [deepSignature, children, childSignatures, childMember]

/-- No key of a signature is repeated. -/
theorem nodup_signature (node : Node α) (below : List Json) :
    ((node.ownSignature aspect offset ++ childMember below).map (·.1)).Nodup := by
  have known : ["variant", "kind", "offset", "width", "height", "rotation", "cornerRadius", "fills",
      "strokes", "strokeWeight", "effects", "opacity", "text", "children"].Nodup := by decide
  refine known.sublist ?_
  have last : ((childMember below).map (·.1)).Sublist ["children"] := by
    cases below <;> simp [childMember]
  simp only [ownSignature, List.map_append]
  exact ((((List.Sublist.refl ["variant", "kind"]).append (Json.keys_member? "offset" _)).append
    (.refl ["width", "height", "rotation", "cornerRadius", "fills", "strokes", "strokeWeight", "effects",
      "opacity"])).append (Json.keys_member? "text" _)).append last

theorem lookup_childMember (below : List Json) (key : String) :
    (childMember below).lookup key =
      if key = "children" ∧ below ≠ [] then some (.array below) else none := by
  cases below with
  | nil => simp [childMember]
  | cons first rest => simp [childMember, lookup_cons_eq]

theorem childSignatures_eq (children : List (Node α)) :
    childSignatures children =
      (children.filter isLive).map fun child => child.deepSignature .child child.place := by
  induction children with
  | nil => rfl
  | cons child rest ih =>
    rw [childSignatures, ih, List.filter_cons]
    split <;> rfl

theorem sights_nil (read : α → ν) (omitted : List (Node α) → List Nat) (position : Nat)
    (children : List (Node α)) :
    sights read omitted [] position children =
      (children.filter isLive).map fun child => child.sight read omitted child.place := by
  induction children generalizing position with
  | nil => rfl
  | cons child rest ih =>
    rw [sights, ih, List.filter_cons]
    simp only [List.contains_nil, Bool.not_false, Bool.and_true]
    split <;> rfl

theorem fullSight_eq (read : α → ν) (offset : Option (Point α)) (node : Node α) :
    node.fullSight read offset = .node (node.look read offset)
      (node.liveChildren.map fun child => child.fullSight read child.place) := by
  cases node with
  | container layer props children => rw [fullSight, sight, sights_nil]; rfl
  | text => rfl
  | shape => rfl

variable {read : α → ν}

/-- From the same signature the same look can be told, and the same signatures of the children. -/
theorem look_of_canonical (tells : read.FactorsThrough Scalar.written) {node other : Node α}
    {aspect' : Aspect} {offset' : Option (Point α)}
    (same : (node.deepSignature aspect offset).canonical =
      (other.deepSignature aspect' offset').canonical) :
    node.look read offset = other.look read offset' ∧
      (childSignatures node.children).map Json.canonical =
        (childSignatures other.children).map Json.canonical := by
  rw [deepSignature_eq, deepSignature_eq] at same
  have at_key := Json.canonical_member same (nodup_signature _ _) (nodup_signature _ _)
  -- each member tells its part of the look; the last one tells the signatures below
  have kind := at_key "kind"
  have place := at_key "offset"
  have width := at_key "width"
  have height := at_key "height"
  have rotation := at_key "rotation"
  have corners := at_key "cornerRadius"
  have fills := at_key "fills"
  have strokes := at_key "strokes"
  have weight := at_key "strokeWeight"
  have effects := at_key "effects"
  have opacity := at_key "opacity"
  have content := at_key "text"
  have below := at_key "children"
  simp only [ownSignature, List.cons_append, List.nil_append, List.append_assoc, lookup_cons_eq,
    String.reduceEq, ↓reduceIte, List.lookup_append, Json.lookup_member?, lookup_childMember, ne_eq, false_and,
    true_and, Option.none_or, Option.or_none, Option.map_map, Option.map_some, Option.some.injEq,
    canonical_json]
    at kind place width height rotation corners fills strokes weight effects opacity content below
  refine ⟨?_, ?_⟩
  · have places : offset.map (Point.map fun x => read (Scalar.hundredths x)) =
        offset'.map (Point.map fun x => read (Scalar.hundredths x)) := by
      refine Json.option_of_canonical (fun one other same => ?_) place
      have items := Json.canonical_items same
      simp only [List.map_cons, canonical_json, List.cons.injEq] at items
      obtain ⟨x, y, _⟩ := items
      rw [Point.map, Point.map, tells x, tells y]
    simp only [look, Json.canonical_text kind, places, tells width, tells height, tells rotation,
      tells weight, tells opacity, Corners.map_of_canonical tells corners,
      Json.map_of_canonical (fun _ _ => Paint.map_of_canonical tells) fills,
      Json.map_of_canonical (fun _ _ => Paint.map_of_canonical tells) strokes,
      Json.map_of_canonical (fun _ _ => Effect.map_of_canonical tells) effects,
      Json.option_of_canonical (fun _ _ => TextContent.map_of_canonical tells) content]
  · generalize childSignatures node.children = one at below
    generalize childSignatures other.children = two at below
    cases one <;> cases two
    · rfl
    · simp at below
    · simp at below
    · exact Json.canonical_items (Option.some.inj below)

theorem leafSight_of_canonical (tells : read.FactorsThrough Scalar.written) {node other : Node α}
    {aspect' : Aspect} {offset' : Option (Point α)} (leaf : node.children = [])
    (same : (node.deepSignature aspect offset).canonical =
      (other.deepSignature aspect' offset').canonical) :
    node.fullSight read offset = other.fullSight read offset' := by
  obtain ⟨looks, below⟩ := look_of_canonical tells same
  rw [leaf, childSignatures_eq other.children, List.map_map] at below
  rw [fullSight_eq, fullSight_eq, looks, liveChildren, liveChildren, leaf,
    List.map_eq_nil_iff.mp below.symm]
  rfl

mutual

/-- From the same signature the same sight can be told. -/
theorem fullSight_of_canonical (tells : read.FactorsThrough Scalar.written) {aspect aspect' : Aspect}
    {offset offset' : Option (Point α)} : (node : Node α) → {other : Node α} →
      (node.deepSignature aspect offset).canonical = (other.deepSignature aspect' offset').canonical →
      node.fullSight read offset = other.fullSight read offset'
  | .container layer props children, other, same => by
    obtain ⟨looks, below⟩ := look_of_canonical tells same
    rw [childSignatures_eq other.children, List.map_map] at below
    rw [fullSight_eq, fullSight_eq, looks]
    exact congrArg _ (fullSights_of_canonical tells children below)
  | .text layer content, _, same => leafSight_of_canonical tells rfl same
  | .shape layer kind, _, same => leafSight_of_canonical tells rfl same

theorem fullSights_of_canonical (tells : read.FactorsThrough Scalar.written) :
    (children : List (Node α)) → {others : List (Node α)} →
    (childSignatures children).map Json.canonical =
      others.map (Json.canonical ∘ fun child => child.deepSignature .child child.place) →
    (children.filter isLive).map (fun child => child.fullSight read child.place) =
      others.map fun child => child.fullSight read child.place
  | [], others, same => by
    rw [List.map_eq_nil_iff.mp same.symm]
    rfl
  | child :: rest, others, same => by
    rw [childSignatures] at same
    by_cases live : child.isLive = true
    · rw [if_pos live] at same
      cases others with
      | nil => cases same
      | cons other others =>
        obtain ⟨first, later⟩ := List.cons.inj same
        rw [List.filter_cons, if_pos live, List.map_cons, List.map_cons,
          fullSights_of_canonical tells rest later]
        exact congrArg (· :: _) (fullSight_of_canonical tells child first)
    · rw [if_neg live] at same
      rw [List.filter_cons, if_neg live]
      exact fullSights_of_canonical tells rest same

end

/-- The node at a path of positions, where every node on the way is live. -/
def reach? (node : Node α) : List Nat → Option (Node α)
  | [] => some node
  | position :: path =>
    (node.children[position]?).bind fun child => if child.isLive then child.reach? path else none

omit [Scalar α]

mutual

/-- Every node that the plan looks at can be reached. -/
theorem exists_reach {node : Node α} : (root : Node α) → node ∈ Plan.emitted root →
    ∃ path, root.reach? path = some node
  | .container layer props children, member => by
    rw [Plan.emitted, List.mem_cons] at member
    rcases member with rfl | below
    · exact ⟨[], rfl⟩
    · obtain ⟨position, child, path, here, live, reached⟩ := exists_reachAll children below
      refine ⟨position :: path, ?_⟩
      rw [reach?, Node.children, here, Option.bind_some, if_pos live, reached]
  | .text layer content, member => ⟨[], congrArg some (List.mem_singleton.mp member).symm⟩
  | .shape layer kind, member => ⟨[], congrArg some (List.mem_singleton.mp member).symm⟩

theorem exists_reachAll {node : Node α} : (children : List (Node α)) → node ∈ Plan.emittedAll children →
    ∃ (position : Nat) (child : Node α) (path : List Nat),
      children[position]? = some child ∧ child.isLive = true ∧ child.reach? path = some node
  | [], member => nomatch member
  | child :: rest, member => by
    rw [Plan.emittedAll] at member
    by_cases live : child.isLive = true
    · rw [if_pos live, List.mem_append] at member
      rcases member with own | later
      · obtain ⟨path, reached⟩ := exists_reach child own
        exact ⟨0, child, path, rfl, live, reached⟩
      · obtain ⟨position, next, path, here, reached⟩ := exists_reachAll rest later
        exact ⟨position + 1, next, path, here, reached⟩
    · rw [if_neg live] at member
      obtain ⟨position, next, path, here, reached⟩ := exists_reachAll rest member
      exact ⟨position + 1, next, path, here, reached⟩

end

end Node

namespace Stroke

/-- The positions of the children that the stroke pass gives up as copies. -/
def copies (thresholds : StrokeThresholds α) (children : List (Node α)) : List Nat :=
  (collapses thresholds children).flatMap (·.duplicates)

omit [Scalar α] in
/-- What no annotation changes no mark changes. -/
theorem marked_of_annotate {β : Type} {view : Node α → β}
    (annotated : ∀ change (node : Node α), view (node.annotate change) = view node)
    (found : List (Collapse α)) (position : Nat) (node : Node α) :
    view (marked found position node) = view node := by
  induction found generalizing node with
  | nil => rfl
  | cons collapse rest ih =>
    refine (ih _).trans ?_
    simp only [Collapse.applyTo]
    split
    · exact annotated _ _
    · split
      · exact annotated _ _
      · rfl

/-- Marks are not to be seen. -/
theorem sight_marked (read : α → ν) (omitted : List (Node α) → List Nat) (found : List (Collapse α))
    (position : Nat) (offset : Option (Point α)) (node : Node α) :
    (marked found position node).sight read omitted offset = node.sight read omitted offset :=
  marked_of_annotate (fun change node => by cases node <;> rfl) found position node

omit [Scalar α] in
theorem place_marked (found : List (Collapse α)) (position : Nat) (node : Node α) :
    (marked found position node).place = node.place :=
  marked_of_annotate (fun change node => by cases node <;> rfl) found position node

omit [Scalar α] in
theorem children_marked (found : List (Collapse α)) (position : Nat) (node : Node α) :
    (marked found position node).children = node.children :=
  marked_of_annotate (fun change node => by cases node <;> rfl) found position node

theorem layer_resolve (thresholds : StrokeThresholds α) (node : Node α) :
    (resolve thresholds node).1.layer = node.layer := by
  cases node <;> rfl

mutual

/-- After the stroke pass everything is to be seen that was there before, apart from the copies. -/
theorem fullSight_resolve (read : α → ν) (thresholds : StrokeThresholds α) (offset : Option (Point α)) :
    (node : Node α) → (resolve thresholds node).1.fullSight read offset =
      node.sight read (copies thresholds) offset
  | .container layer props children => by
    rw [resolve, Node.fullSight, Node.sight, Node.sight]
    refine congrArg (Sight.node _) ?_
    exact sights_resolveAll read thresholds (collapses thresholds children) 0 children
  | .text layer content => rfl
  | .shape layer kind => rfl

theorem sights_resolveAll (read : α → ν) (thresholds : StrokeThresholds α) (found : List (Collapse α))
    (position : Nat) : (children : List (Node α)) →
      Node.sights read (fun _ => []) [] position (resolveAll thresholds found position children).1 =
        Node.sights read (copies thresholds) (found.flatMap (·.duplicates)) position children
  | [] => rfl
  | child :: rest => by
    have others := sights_resolveAll read thresholds found (position + 1) rest
    have alive := isLive_marked found position
    rw [resolveAll_cons, Node.sights, Node.sights, others, ← alive, List.contains_nil, Bool.not_false,
      Bool.and_true]
    by_cases live : (marked found position child).isLive = true
    · have stays : (marked found position (resolve thresholds child).1).isLive = true := by
        rw [alive] at live ⊢
        rwa [Node.isLive, layer_resolve]
      have placed : (marked found position (resolve thresholds child).1).place = child.place := by
        rw [place_marked, Node.place, layer_resolve]
        rfl
      rw [if_pos live, if_pos stays, if_pos live, sight_marked, placed]
      exact congrArg (· :: _) (fullSight_resolve read thresholds child.place child)
    · rw [if_neg live, if_neg live, if_neg live]

end

theorem children_resolve (thresholds : StrokeThresholds α) (node : Node α) :
    (resolve thresholds node).1.children =
      (resolveAll thresholds (collapses thresholds node.children) 0 node.children).1 := by
  cases node <;> rfl

theorem getElem?_resolveAll (thresholds : StrokeThresholds α) (found : List (Collapse α))
    (position : Nat) (children : List (Node α)) (index : Nat) :
    (resolveAll thresholds found position children).1[index]? = children[index]?.map fun child =>
      marked found (position + index)
        (if (marked found (position + index) child).isLive then (resolve thresholds child).1
          else child) := by
  induction children generalizing position index with
  | nil => rfl
  | cons child rest ih =>
    rw [resolveAll_cons]
    cases index with
    | zero => rfl
    | succ index =>
      rw [List.getElem?_cons_succ, List.getElem?_cons_succ, ih, Nat.add_right_comm, Nat.add_assoc]

theorem reach_marked (read : α → ν) {found : List (Collapse α)} {position : Nat} {node after : Node α}
    {path : List Nat} (reached : (marked found position node).reach? path = some after) :
    ∃ inner, node.reach? path = some inner ∧
      ∀ offset, after.fullSight read offset = inner.fullSight read offset := by
  cases path with
  | nil =>
    obtain rfl := Option.some.inj reached
    exact ⟨node, rfl, fun offset => sight_marked read _ found position offset node⟩
  | cons first path =>
    rw [Node.reach?, children_marked] at reached
    exact ⟨after, reached, fun _ => rfl⟩

/-- Whatever live node there is after the stroke pass, was there before it, with its copies. -/
theorem reach_resolve (read : α → ν) (thresholds : StrokeThresholds α) {path : List Nat}
    {node after : Node α} (reached : (resolve thresholds node).1.reach? path = some after) :
    ∃ before, node.reach? path = some before ∧
      ∀ offset, after.fullSight read offset = before.sight read (copies thresholds) offset := by
  induction path generalizing node after with
  | nil =>
    obtain rfl := Option.some.inj reached
    exact ⟨node, rfl, fun offset => fullSight_resolve read thresholds offset node⟩
  | cons position path ih =>
    rw [Node.reach?, children_resolve, getElem?_resolveAll, Nat.zero_add] at reached
    rw [Node.reach?]
    cases here : node.children[position]? with
    | none =>
      rw [here] at reached
      cases reached
    | some child =>
      generalize collapses thresholds node.children = found at reached
      rw [here, Option.map_some, Option.bind_some] at reached
      by_cases live : (marked found position child).isLive = true
      · rw [if_pos live] at reached
        split at reached
        · obtain ⟨inner, reached, same⟩ := reach_marked read reached
          obtain ⟨before, found_before, sights⟩ := ih reached
          refine ⟨before, ?_, fun offset => (same offset).trans (sights offset)⟩
          rw [Option.bind_some, if_pos (isLive_of_marked live), found_before]
        · cases reached
      · rw [if_neg live, if_neg live] at reached
        cases reached

end Stroke

/-- A node of a manifest that is drawn as one picture and has no hash given to it, before and after the
stroke pass. -/
structure FlatNode (config : Config α) (manifest : Manifest α) where
  rules : RuleSet
  root : Node α
  path : List Nat
  before : Node α
  after : Node α
  rules_eq : config.rules = .ok rules
  root_eq : manifest.root = some root
  before_eq : (rules.applyStructural root).reach? path = some before
  after_eq : (Stroke.resolve config.stroke (rules.applyStructural root)).1.reach? path = some after
  flattened : rules.isFlattened after.layer = true
  undeclared : givenHash? after.layer.contentHash = none
  imageless : after.loneImageHash true = none

namespace FlatNode

variable {config config' : Config α} {manifest manifest' : Manifest α}

/-- All nodes are of this form that the plan draws as one picture without being given a hash. -/
theorem exists_of_emitted {rules : RuleSet} {root after : Node α} (rules_eq : config.rules = .ok rules)
    (root_eq : manifest.root = some root)
    (live : after ∈ Plan.emitted (Stroke.resolve config.stroke (rules.applyStructural root)).1)
    (flattened : rules.isFlattened after.layer = true)
    (undeclared : givenHash? after.layer.contentHash = none)
    (imageless : after.loneImageHash true = none) :
    ∃ flat : FlatNode config manifest, flat.after = after := by
  obtain ⟨path, after_eq⟩ := Node.exists_reach _ live
  obtain ⟨before, before_eq, _⟩ := Stroke.reach_resolve Scalar.written config.stroke after_eq
  exact ⟨⟨rules, root, path, before, after, rules_eq, root_eq, before_eq, after_eq, flattened, undeclared,
    imageless⟩, rfl⟩

/-- The text that the hash is made from. -/
def signature (flat : FlatNode config manifest) : String := (flat.after.deepSignature .node none).canonical

theorem contentHash_eq (flat : FlatNode config manifest) :
    flat.after.contentHash true = Sha256.hexOfText flat.signature := by
  rw [Node.contentHash, flat.undeclared, flat.imageless]
  rfl

theorem contentHash_of_signature {flat : FlatNode config manifest} {flat' : FlatNode config' manifest'}
    (same : flat.signature = flat'.signature) :
    flat.after.contentHash true = flat'.after.contentHash true := by
  rw [contentHash_eq, contentHash_eq, same]

/-- What is to be seen before the stroke pass, apart from the copies that it gives up. -/
def sight (read : α → ν) (flat : FlatNode config manifest) : Sight ν :=
  flat.before.sight read (Stroke.copies config.stroke) none

theorem sight_eq (read : α → ν) (flat : FlatNode config manifest) :
    flat.after.fullSight read none = flat.sight read := by
  obtain ⟨before, before_eq, sights⟩ := Stroke.reach_resolve read config.stroke flat.after_eq
  obtain rfl := Option.some.inj (flat.before_eq.symm.trans before_eq)
  exact sights none

theorem sight_of_signature {read : α → ν} (tells : read.FactorsThrough Scalar.written)
    {flat : FlatNode config manifest} {flat' : FlatNode config' manifest'}
    (same : flat.signature = flat'.signature) : flat.sight read = flat'.sight read := by
  rw [← sight_eq, ← sight_eq]
  exact Node.fullSight_of_canonical tells flat.after same

/-- If two flattened nodes, in whatever designs, have the same hash, the same is to be seen of them, as long
as the digest keeps apart what it is made from. -/
theorem sight_of_contentHash {config config' : Config Float} {manifest manifest' : Manifest Float}
    (flat : FlatNode config manifest) (flat' : FlatNode config' manifest')
    (apart : Sha256.hexOfText flat.signature = Sha256.hexOfText flat'.signature →
      flat.signature = flat'.signature)
    (same : flat.after.contentHash true = flat'.after.contentHash true) :
    flat.sight Binary64.bits? = flat'.sight Binary64.bits? := by
  rw [contentHash_eq, contentHash_eq] at same
  exact sight_of_signature Binary64.bits?_of_written (apart same)

/-! Badges on a sheet. -/

def flattening : Config Float := { Config.default with classification := ⟨"[flatten]", []⟩ }

def letter (id : String) (x : Float) : Node Float :=
  .text (Layer.plain id "New" ⟨x, x, 30, 14⟩) ⟨"New", .default⟩

/-- Letters one behind the other, as if they were one with an outline. -/
def letters : List (Node Float) :=
  [letter "10" 0, letter "11" 1, letter "12" 2, letter "13" 3, letter "14" 4, letter "15" 5]

def badge (id : String) (clips : Bool) (inside : List (Node Float)) : Node Float :=
  .container (Layer.plain id "badge [flatten]" ⟨0, 0, 40, 20⟩) ⟨.group, none, clips⟩ inside

/-- A badge with all the letters, one with the last of them, and a clipping one with the last of them. -/
def badges : List (Node Float) :=
  [badge "1" false letters, badge "2" false [letter "25" 5], badge "3" true [letter "35" 5]]

theorem fresh_letters : (badge "1" false letters).Fresh := by
  simp [Node.Fresh, badge, letters, letter, Node.preorder, Node.preorders, Node.layer, Layer.plain]

def paper : Node Float :=
  .container (Layer.plain "0" "sheet" ⟨0, 0, 100, 100⟩) ⟨.frame, none, false⟩ badges

def sheet : Manifest Float := ⟨some paper, [], [], .empty⟩

/-- A badge of the sheet. -/
def onSheet (position : Nat) (badge : Node Float) (listed : paper.reach? [position] = some badge)
    (kept : (Stroke.resolve flattening.stroke paper).1.reach? [position] =
      some (Stroke.resolve flattening.stroke badge).1)
    (flattened : RuleSet.isFlattened ⟨"[flatten]", [], []⟩ badge.layer = true)
    (undeclared : givenHash? badge.layer.contentHash = none)
    (imageless : (Stroke.resolve flattening.stroke badge).1.loneImageHash true = none) :
    FlatNode flattening sheet where
  rules := ⟨"[flatten]", [], []⟩
  root := paper
  path := [position]
  before := badge
  after := (Stroke.resolve flattening.stroke badge).1
  rules_eq := rfl
  root_eq := rfl
  before_eq := listed
  after_eq := kept
  flattened := by rw [Stroke.layer_resolve, flattened]
  undeclared := by rw [Stroke.layer_resolve, undeclared]
  imageless := imageless

/-- All letters but the last are given up as copies. -/
theorem collapses_letters :
    ∃ stroke, Stroke.collapses flattening.stroke letters = [⟨5, [0, 1, 2, 3, 4], stroke⟩] := by
  have middle : Stroke.median ([0, 1, 2, 3, 4, 5] : List Float) = 5 / 2 := by
    -- the kernel does not see through sorting, but these are in order
    have sorted : ([0, 1, 2, 3, 4, 5] : List Float).mergeSort (fun x y => Scalar.order x y != .gt) =
        [0, 1, 2, 3, 4, 5] := List.mergeSort_of_pairwise (by decide +kernel)
    simp only [Stroke.median, sorted]
    decide +kernel
  have members : Stroke.candidates 5 letters =
      [[⟨0, (letter "10" 0).layer⟩, ⟨1, (letter "11" 1).layer⟩, ⟨2, (letter "12" 2).layer⟩,
        ⟨3, (letter "13" 3).layer⟩, ⟨4, (letter "14" 4).layer⟩, ⟨5, (letter "15" 5).layer⟩]] := rfl
  have positions : (Stroke.collapses flattening.stroke letters).map
      (fun collapse => (collapse.survivor, collapse.duplicates)) = [(5, [0, 1, 2, 3, 4])] := by
    rw [Stroke.collapses]
    change ((Stroke.candidates 5 letters).filterMap _).map _ = _
    rw [members]
    simp only [List.filterMap_cons, List.filterMap_nil, Stroke.evaluate, List.map_cons, List.map_nil,
      letter, Node.layer, Layer.plain, middle]
    decide +kernel
  obtain ⟨⟨_, _, stroke⟩, found, same⟩ := List.map_eq_singleton_iff.mp positions
  obtain ⟨rfl, rfl⟩ := Prod.mk.inj same
  exact ⟨stroke, found⟩

def outlined : FlatNode flattening sheet :=
  onSheet 0 (badge "1" false letters) rfl rfl (by decide +kernel) rfl <| by
    obtain ⟨stroke, found⟩ := collapses_letters
    rw [badge, Stroke.resolve, found]
    rfl

def single : FlatNode flattening sheet :=
  onSheet 1 (badge "2" false [letter "25" 5]) rfl rfl (by decide +kernel) rfl rfl

def clipping : FlatNode flattening sheet :=
  onSheet 2 (badge "3" true [letter "35" 5]) rfl rfl (by decide +kernel) rfl rfl

theorem signature_outlined : outlined.signature = single.signature := by
  obtain ⟨stroke, found⟩ := collapses_letters
  have same : (Stroke.resolve flattening.stroke (badge "1" false letters)).1.deepSignature .node none =
      (Stroke.resolve flattening.stroke (badge "2" false [letter "25" 5])).1.deepSignature .node none := by
    rw [badge, Stroke.resolve, found]
    rfl
  exact congrArg Json.canonical same

theorem outlined_single : outlined.after.contentHash true = single.after.contentHash true ∧
    outlined.sight Binary64.bits? = single.sight Binary64.bits? := by
  have hashes := contentHash_of_signature signature_outlined
  exact ⟨hashes, sight_of_contentHash outlined single (fun _ => signature_outlined) hashes⟩

/-- Neither the copies of a letter nor clipping show in the hash. -/
theorem badges_same_hash : outlined.after.contentHash true = single.after.contentHash true ∧
    single.after.contentHash true = clipping.after.contentHash true ∧
    outlined.before.liveChildren.length = 6 ∧ single.before.liveChildren.length = 1 ∧
    single.before.clips = false ∧ clipping.before.clips = true :=
  ⟨contentHash_of_signature signature_outlined, contentHash_of_signature (congrArg Json.canonical rfl),
    rfl, rfl, rfl, rfl⟩

end FlatNode
end DesignCompiler
