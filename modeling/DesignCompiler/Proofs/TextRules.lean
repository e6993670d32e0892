import DesignCompiler.Proofs.HiddenNodes

/-!
Texts that repeat another. The rules about texts leave every node as it is but for its children, keep all
children that are no texts in their order, and bring none in. A text that repeats an earlier one goes,
whether or not the earlier one is shown: so characters stay in sight just if the first text that has them
is a shown one.
-/
namespace DesignCompiler

variable {α : Type}

namespace Node

/-- The node with other children, if it is one that has children. -/
def withChildren (children : List (Node α)) : Node α → Node α
  | container layer props _ => container layer props children
  | node => node

/-- The nodes of a tree that are no texts, each before its children. -/
def boxes (node : Node α) : List (Node α) := node.preorder.filter (!·.isText)

def boxesAll (nodes : List (Node α)) : List (Node α) := nodes.flatMap boxes

/-- The characters of the texts among some nodes, in their order. -/
def texts (nodes : List (Node α)) : List String :=
  nodes.filterMap fun node => node.content?.map (·.characters)

/-- The characters of the shown texts among some nodes. -/
def shownTexts (nodes : List (Node α)) : List String := texts (nodes.filter (·.layer.visible))

theorem boxes_container (layer : Layer α) (props : ContainerProps α) (children : List (Node α)) :
    boxes (.container layer props children) = .container layer props children :: boxesAll children := by
  rw [boxes, preorder, List.filter_cons_of_pos rfl, preorders_eq, List.filter_flatMap]
  rfl

theorem boxesAll_cons (node : Node α) (rest : List (Node α)) :
    boxesAll (node :: rest) = node.boxes ++ boxesAll rest := List.flatMap_cons

theorem isText_eq (node : Node α) : node.isText = node.content?.isSome := by
  cases node <;> rfl

theorem boxes_of_content {node : Node α} {content : TextContent α} (own : node.content? = some content) :
    node.boxes = [] := by
  cases node with
  | text => rfl
  | container => cases own
  | shape => cases own

theorem mem_shownTexts {nodes : List (Node α)} {characters : String} :
    characters ∈ shownTexts nodes ↔ ∃ node ∈ nodes, node.layer.visible = true ∧
      ∃ content, node.content? = some content ∧ content.characters = characters := by
  simp only [shownTexts, texts, List.mem_filterMap, List.mem_filter, Option.map_eq_some_iff, and_assoc]

theorem shownTexts_cons_of_ne {node : Node α} {characters : String}
    (apart : ∀ content, node.content? = some content → content.characters ≠ characters)
    (rest : List (Node α)) :
    characters ∈ shownTexts (node :: rest) ↔ characters ∈ shownTexts rest := by
  rw [mem_shownTexts, mem_shownTexts, List.exists_mem_cons_iff]
  exact or_iff_right fun ⟨_, content, own, same⟩ => apart content own same

end Node

namespace RuleSet

open Node (boxes boxesAll boxes_container boxesAll_cons texts shownTexts mem_shownTexts
  shownTexts_cons_of_ne)

variable {seen : List String} {characters : String}

theorem texts_dedupe (seen : List String) (children : List (Node α)) :
    (texts (dedupe seen children)).Nodup ∧ ∀ old ∈ texts (dedupe seen children), old ∉ seen := by
  induction children generalizing seen with
  | nil => exact ⟨.nil, fun _ member => nomatch member⟩
  | cons child rest ih =>
    rw [dedupe]
    cases text : child.content? with
    | none =>
      have others : texts (child :: dedupe seen rest) = texts (dedupe seen rest) :=
        List.filterMap_cons_none (by rw [text, Option.map_none])
      simpa only [others] using ih seen
    | some content =>
      simp only [List.contains_iff_mem]
      split
      · exact ih seen
      · rename_i new
        have others : texts (child :: dedupe (content.characters :: seen) rest) =
            content.characters :: texts (dedupe (content.characters :: seen) rest) :=
          List.filterMap_cons_some (by rw [text, Option.map_some])
        obtain ⟨distinct, apart⟩ := ih (content.characters :: seen)
        rw [others, List.nodup_cons, List.forall_mem_cons]
        exact ⟨⟨fun again => apart _ again List.mem_cons_self, distinct⟩, new,
          fun old member before => apart old member (List.mem_cons_of_mem _ before)⟩

/-- What is dropped is a text, so everything else stays. -/
theorem filter_dedupe (seen : List String) (children : List (Node α)) :
    (dedupe seen children).filter (!·.isText) = children.filter (!·.isText) := by
  induction children generalizing seen with
  | nil => rfl
  | cons child rest ih =>
    rw [dedupe]
    cases text : child.content? with
    | none =>
      have own : child.isText = false := by rw [Node.isText_eq, text, Option.isSome_none]
      simp [own, ih]
    | some content =>
      have own : child.isText = true := by rw [Node.isText_eq, text, Option.isSome_some]
      dsimp only
      split <;> simp [own, ih]

theorem boxesAll_dedupe (seen : List String) (children : List (Node α)) :
    boxesAll (dedupe seen children) = boxesAll children := by
  induction children generalizing seen with
  | nil => rfl
  | cons child rest ih =>
    rw [dedupe, boxesAll_cons]
    cases text : child.content? with
    | none => exact (boxesAll_cons _ _).trans (congrArg _ (ih seen))
    | some content =>
      have own := Node.boxes_of_content text
      dsimp only
      split
      · rw [ih, own, List.nil_append]
      · rw [boxesAll_cons, ih]

/-- Characters are left in sight just if they are new and the first text that has them is shown. -/
theorem shownTexts_dedupe (children : List (Node α)) :
    characters ∈ shownTexts (dedupe seen children) ↔
      characters ∉ seen ∧ ∃ first, firstText characters children = some first ∧
        first.layer.visible = true := by
  induction children generalizing seen with
  | nil => simp [dedupe, mem_shownTexts, firstText]
  | cons child rest ih =>
    by_cases own : ∃ content, child.content? = some content ∧ content.characters = characters
    · obtain ⟨content, text, rfl⟩ := own
      rw [dedupe, text, firstText_cons_of_text text]
      simp only [List.contains_iff_mem, Option.some.injEq, exists_eq_left']
      split
      · rename_i old
        exact ih.trans (iff_of_false (·.1 old) (·.1 old))
      · rename_i new
        -- of the texts with these characters this one alone is left
        rw [mem_shownTexts, List.exists_mem_cons_iff, ← mem_shownTexts, ih]
        simp [text, new]
    · have apart (content : TextContent α) (text : child.content? = some content) :
          content.characters ≠ characters := fun same => own ⟨content, text, same⟩
      rw [dedupe, firstText_cons_of_ne apart]
      cases text : child.content? with
      | none => exact (shownTexts_cons_of_ne apart _).trans ih
      | some content =>
        dsimp only
        split
        · exact ih
        · rw [shownTexts_cons_of_ne apart, ih, List.mem_cons, or_iff_right (apart content text).symm]

theorem shownTexts_of_firstText {children : List (Node α)} {first : Node α}
    (found : firstText characters children = some first) (visible : first.layer.visible = true) :
    characters ∈ shownTexts children := by
  have text := List.find?_some found
  rw [Option.any_eq_true] at text
  obtain ⟨content, text, same⟩ := text
  exact mem_shownTexts.mpr
    ⟨first, List.mem_of_find?_eq_some found, visible, content, text, beq_iff_eq.mp same⟩

theorem exists_firstText {children : List (Node α)} (shown : characters ∈ shownTexts children) :
    ∃ first, firstText characters children = some first := by
  obtain ⟨child, member, _, content, text, same⟩ := mem_shownTexts.mp shown
  rw [firstText, ← Option.isSome_iff_exists, List.find?_isSome]
  exact ⟨child, member, by simp [text, same]⟩

/-- A change of nodes that leaves texts what they are, up to their style, and other nodes no texts. -/
structure Restyles (change : Node α → Node α) : Prop where
  visible (node : Node α) : (change node).layer.visible = node.layer.visible
  characters (node : Node α) :
    (change node).content?.map (·.characters) = node.content?.map (·.characters)

namespace Restyles

variable {change : Node α → Node α} (restyles : Restyles change)
include restyles

theorem shownTexts_map (children : List (Node α)) : shownTexts (children.map change) = shownTexts children := by
  rw [shownTexts, List.filter_map, texts, List.filterMap_map, shownTexts, texts]
  have shown : ((fun node : Node α => node.layer.visible) ∘ change) = fun node => node.layer.visible :=
    funext restyles.visible
  have same : ((fun node : Node α => node.content?.map (·.characters)) ∘ change) =
      fun node => node.content?.map (·.characters) := funext restyles.characters
  rw [shown, same]

theorem texts_map (children : List (Node α)) : texts (children.map change) = texts children := by
  rw [texts, List.filterMap_map, texts]
  exact congrArg (List.filterMap · children) (funext restyles.characters)

theorem firstText_map (children : List (Node α)) :
    firstText characters (children.map change) = (firstText characters children).map change := by
  rw [firstText, List.find?_map, firstText]
  refine congrArg (fun test => (children.find? test).map change) (funext fun node => ?_)
  have same := congrArg (Option.any (· == characters)) (restyles.characters node)
  rwa [Option.any_map, Option.any_map] at same

end Restyles

theorem restyles_centered : Restyles (centered (α := α)) where
  visible node := by cases node <;> rfl
  characters node := by cases node <;> rfl

theorem boxesAll_centered (children : List (Node α)) :
    boxesAll (children.map centered) = boxesAll children := by
  rw [boxesAll, List.flatMap_map, boxesAll]
  exact List.flatMap_congr fun child _ => by cases child <;> rfl

theorem filter_centered (children : List (Node α)) :
    (children.map centered).filter (!·.isText) = children.filter (!·.isText) := by
  have same : ((fun node : Node α => !node.isText) ∘ centered) = fun node => !node.isText :=
    funext fun node => by cases node <;> rfl
  rw [List.filter_map, same]
  refine (List.map_congr_left fun node member => ?_).trans (List.map_id _)
  cases node with
  | text => simp [Node.isText] at member
  | container => rfl
  | shape => rfl

variable (set : RuleSet)

theorem restyles_applyTextRules : Restyles (set.applyTextRules (α := α)) where
  visible node := by rw [layer_applyTextRules]
  characters node := by rw [content?_applyTextRules]

/-- How a child is changed before it is found out whether it repeats another. -/
def restyled (layer : Layer α) (child : Node α) : Node α :=
  if set.centersText layer then centered (set.applyStructural child) else set.applyStructural child

/-- Of two nodes, the second is what the rules about texts may make of the first. -/
structure TextRulesOutcome (before after : Node α) : Prop where
  own : after = before.withChildren after.children
  others : after.children.filter (!·.isText) = (before.children.filter (!·.isText)).map set.applyStructural
  fewer : after.children.Sublist (before.children.map (set.restyled before.layer))
  distinct : set.dedupesText before.layer = true → (texts after.children).Nodup
  shown (characters : String) : characters ∈ shownTexts after.children ↔
    characters ∈ shownTexts before.children ∧ (set.dedupesText before.layer = true →
      ∀ first, firstText characters before.children = some first → first.layer.visible = true)

theorem hasAction_of_isEmpty {set : RuleSet} (empty : set.rules.isEmpty = true) (action : RuleAction)
    (name : String) : set.hasAction action name = false := by
  rw [hasAction, List.isEmpty_iff.mp empty, List.any_nil]

mutual

theorem applyTextRules_of_isEmpty (empty : set.rules.isEmpty = true) :
    (node : Node α) → set.applyTextRules node = node
  | .container layer props children => by
    have below := applyTextRulesAll_of_isEmpty empty children
    rw [applyTextRules_container, afterTextRules, below, dedupesText, centersText,
      hasAction_of_isEmpty empty, hasAction_of_isEmpty empty]
    rfl
  | .text _ _ => rfl
  | .shape _ _ => rfl

theorem applyTextRulesAll_of_isEmpty (empty : set.rules.isEmpty = true) :
    (nodes : List (Node α)) → set.applyTextRulesAll nodes = nodes
  | [] => rfl
  | node :: rest => by
    rw [applyTextRulesAll, applyTextRules_of_isEmpty empty node, applyTextRulesAll_of_isEmpty empty rest]

end

/-- That nothing is looked at where there are no rules makes no difference. -/
theorem applyStructural_eq : set.applyStructural (α := α) = set.applyTextRules := by
  funext node
  rw [applyStructural]
  split
  · rename_i empty
    exact (set.applyTextRules_of_isEmpty empty node).symm
  · rfl

theorem filter_applyTextRulesAll (children : List (Node α)) :
    (set.applyTextRulesAll children).filter (!·.isText) =
      (children.filter (!·.isText)).map set.applyStructural := by
  rw [applyTextRulesAll_eq, List.filter_map, applyStructural_eq]
  refine congrArg _ (congrArg (List.filter · children) (funext fun child => ?_))
  cases child <;> rfl

theorem filter_afterTextRules (layer : Layer α) (changed : List (Node α)) :
    (set.afterTextRules layer changed).filter (!·.isText) = changed.filter (!·.isText) := by
  rw [afterTextRules]
  split <;> split <;> simp only [filter_centered, filter_dedupe]

theorem boxesAll_afterTextRules (layer : Layer α) (changed : List (Node α)) :
    boxesAll (set.afterTextRules layer changed) = boxesAll changed := by
  rw [afterTextRules]
  split <;> split <;> simp only [boxesAll_centered, boxesAll_dedupe]

theorem afterTextRules_sublist (layer : Layer α) (children : List (Node α)) :
    (set.afterTextRules layer (set.applyTextRulesAll children)).Sublist
      (children.map (set.restyled layer)) := by
  have kept : (if set.dedupesText layer then dedupe [] (set.applyTextRulesAll children)
      else set.applyTextRulesAll children).Sublist (children.map set.applyTextRules) := by
    rw [← applyTextRulesAll_eq]
    split
    · exact dedupe_sublist _ _
    · exact .refl _
  rw [afterTextRules]
  split
  · rename_i centers
    have both : set.restyled layer = centered ∘ set.applyTextRules (α := α) :=
      funext fun child => by rw [restyled, if_pos centers, applyStructural_eq, Function.comp]
    rw [both, ← List.map_map]
    exact kept.map centered
  · rename_i still
    have only : set.restyled layer = set.applyTextRules (α := α) :=
      funext fun child => by rw [restyled, if_neg still, applyStructural_eq]
    rw [only]
    exact kept

theorem texts_afterTextRules {layer : Layer α} (dedupes : set.dedupesText layer = true)
    (changed : List (Node α)) :
    (texts (set.afterTextRules layer changed)).Nodup := by
  rw [afterTextRules, if_pos dedupes]
  split
  · rw [restyles_centered.texts_map]
    exact (texts_dedupe [] changed).1
  · exact (texts_dedupe [] changed).1

theorem shownTexts_afterTextRules (layer : Layer α) (changed : List (Node α)) :
    characters ∈ shownTexts (set.afterTextRules layer changed) ↔
      characters ∈ shownTexts changed ∧ (set.dedupesText layer = true →
        ∀ first, firstText characters changed = some first → first.layer.visible = true) := by
  have kept : characters ∈ shownTexts (set.afterTextRules layer changed) ↔ characters ∈
      shownTexts (if set.dedupesText layer then dedupe [] changed else changed) := by
    rw [afterTextRules]
    split
    · rw [restyles_centered.shownTexts_map]
    · rfl
  rw [kept]
  split
  · rename_i dedupes
    rw [shownTexts_dedupe]
    constructor
    · rintro ⟨-, first, found, visible⟩
      refine ⟨shownTexts_of_firstText found visible, fun _ other found' => ?_⟩
      exact Option.some.inj (found.symm.trans found') ▸ visible
    · rintro ⟨shown, fronts⟩
      obtain ⟨first, found⟩ := exists_firstText shown
      exact ⟨List.not_mem_nil, first, found, fronts dedupes first found⟩
  · rename_i keeps
    exact (and_iff_left fun dedupes => absurd dedupes keeps).symm

theorem outcome_applyTextRules (node : Node α) : set.TextRulesOutcome node (set.applyTextRules node) := by
  cases node with
  | container layer props children =>
    have styles := set.restyles_applyTextRules (α := α)
    rw [applyTextRules_container]
    refine ⟨rfl, ?_, set.afterTextRules_sublist layer children,
    fun dedupes => set.texts_afterTextRules dedupes _, ?_⟩
    · exact (set.filter_afterTextRules layer _).trans (set.filter_applyTextRulesAll children)
    · intro characters
      refine (set.shownTexts_afterTextRules layer _).trans (and_congr ?_ (imp_congr_right fun _ => ?_))
      · rw [applyTextRulesAll_eq, styles.shownTexts_map]
        rfl
      · rw [applyTextRulesAll_eq, styles.firstText_map]
        simp only [Option.map_eq_some_iff, forall_exists_index, and_imp, forall_apply_eq_imp_iff₂,
          layer_applyTextRules]
        rfl
  | text layer content =>
    exact ⟨rfl, rfl, .refl _, fun _ => .nil, fun _ => iff_of_false List.not_mem_nil (List.not_mem_nil ·.1)⟩
  | shape layer kind =>
    exact ⟨rfl, rfl, .refl _, fun _ => .nil, fun _ => iff_of_false List.not_mem_nil (List.not_mem_nil ·.1)⟩

mutual

theorem boxes_applyTextRules : (node : Node α) →
    List.Forall₂ set.TextRulesOutcome node.boxes (set.applyTextRules node).boxes
  | .container layer props children => by
    have own := set.outcome_applyTextRules (.container layer props children)
    rw [boxes_container]
    rw [applyTextRules_container] at own ⊢
    rw [boxes_container, boxesAll_afterTextRules]
    exact .cons own (boxesAll_applyTextRules children)
  | .text _ _ => .nil
  | .shape layer kind => .cons (set.outcome_applyTextRules (.shape layer kind)) .nil

theorem boxesAll_applyTextRules : (nodes : List (Node α)) →
    List.Forall₂ set.TextRulesOutcome (boxesAll nodes) (boxesAll (set.applyTextRulesAll nodes))
  | [] => .nil
  | node :: rest => by
    rw [applyTextRulesAll, boxesAll_cons, boxesAll_cons]
    exact List.rel_append (boxes_applyTextRules node) (boxesAll_applyTextRules rest)

end

/-- The rules about texts keep every node of a tree that is no text, in its place, and do with each what
they may: no text goes but one that repeats an earlier one under a node that a rule tells to drop such
texts, and characters go out of sight there just if the first text that has them is hidden. -/
theorem textRulesOutcome_applyStructural (root : Node α) :
    set.TextRulesOutcome root (set.applyStructural root) ∧
    List.Forall₂ set.TextRulesOutcome root.boxes (set.applyStructural root).boxes := by
  rw [applyStructural_eq]
  exact ⟨set.outcome_applyTextRules root, set.boxes_applyTextRules root⟩

/-- A shown text goes out of sight where a hidden one with the same characters comes first. -/
theorem shownTexts_lost :
    let set : RuleSet := ⟨"", [], [⟨.exact "list", .dedupeTextChildren⟩]⟩
    let before : Node Float := .container Compilation.board ⟨.frame, none, false⟩
      [Compilation.line "1" false, Compilation.line "2" true]
    shownTexts before.children = ["A"] ∧ shownTexts (set.applyStructural before).children = [] := by
  decide +kernel

end RuleSet
end DesignCompiler
