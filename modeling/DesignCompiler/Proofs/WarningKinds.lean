import DesignCompiler.Plan
import DesignCompiler.Proofs.Drawing

/-!
What the parts of a run warn of. Each part has kinds of its own, and only a label asks for a font, between the
warnings about its style and those about its color.
-/
namespace DesignCompiler

variable {α : Type} [Scalar α]

namespace Warning

/-- Some warnings are of some kinds. -/
def Within (kinds : List WarningKind) (warnings : List Warning) : Prop :=
  ∀ warning ∈ warnings, warning.kind ∈ kinds

variable {kinds : List WarningKind} {warnings : List Warning}

@[simp] theorem within_nil : Within kinds [] := by simp [Within]

theorem within_append {front back : List Warning} (one : Within kinds front) (two : Within kinds back) :
    Within kinds (front ++ back) := List.forall_mem_append.mpr ⟨one, two⟩

theorem within_ite {condition : Prop} [Decidable condition] (one : Within kinds warnings) :
    Within kinds (if condition then warnings else []) := by
  split
  · exact one
  · exact within_nil

theorem within_about {kind : WarningKind} (known : kind ∈ kinds) (id message : String) :
    Within kinds [.about kind id message] := by
  intro warning member
  obtain rfl := List.mem_singleton.mp member
  exact known

theorem Within.mono (within : Within kinds warnings) {wider : List WarningKind} (sub : kinds ⊆ wider) :
    Within wider warnings := fun warning member => sub (within warning member)

end Warning

open Warning (Within within_nil within_append within_ite within_about)

namespace Plan

theorem within_notes (rules : RuleSet) (parentFlow isRoot : Bool) (node : Node α) :
    Within [.shadowSkipped] (notes rules parentFlow isRoot node).2 :=
  within_ite (within_about (by decide) _ _)

mutual

/-- Annotating a node only warns of shadows. -/
theorem within_annotateNode (rules : RuleSet) (parentFlow isRoot : Bool) : (node : Node α) →
    Within [.shadowSkipped] (annotateNode rules parentFlow isRoot node).2
  | .container layer props children => by
    have own := within_notes rules parentFlow isRoot (.container layer props children)
    have below := within_annotateAll rules props.layout.isSome children
    simp only [annotateNode]
    split
    · exact within_append own below
    · exact own
  | .shape layer kind => within_notes rules parentFlow isRoot (.shape layer kind)
  | .text layer content => within_notes rules parentFlow isRoot (.text layer content)

theorem within_annotateAll (rules : RuleSet) (flow : Bool) : (nodes : List (Node α)) →
    Within [.shadowSkipped] (annotateAll rules flow nodes).2
  | [] => within_nil
  | child :: rest => by
    rw [annotateAll]
    refine within_append ?_ (within_annotateAll rules flow rest)
    split
    · exact within_annotateNode rules flow false child
    · exact within_nil

end

end Plan

namespace Assembly

theorem within_place (rules : RuleSet) (layer : Layer α) (parent : ParentFrame α) (isRoot : Bool) :
    Within [.degenerateParent] (Geometry.place rules layer parent isRoot).2 := by
  unfold Geometry.place
  split
  · exact within_nil
  · split
    · exact within_nil
    · apply within_append
      · exact within_ite (within_about (by decide) _ _)
      · exact within_ite (within_about (by decide) _ _)

theorem within_corner (layer : Layer α) : Within [.nonUniformCorner] (Decoration.corner layer).2 := by
  unfold Decoration.corner
  by_cases flat : layer.corners.largest ≤ 0
  · simp [flat]
  · simp only [if_neg flat]
    split
    · exact within_nil
    · exact within_about (by decide) _ _

theorem within_framePaint (layer : Layer α) (fill : Option (Color α)) :
    Within [.nonUniformCorner] (framePaint layer fill).2.2 := by
  cases fill with
  | none => exact within_nil
  | some color => exact within_corner layer

theorem within_gradient (id : String) (shape : GradientShape) (paint : GradientPaint α) :
    Within [.unsupportedGradient] (Decoration.gradient id shape paint).2 := by
  have same : (Decoration.gradient id shape paint).2 = if shape = .linear then [] else
      [.about .unsupportedGradient id (shape.label ++ " gradient approximated as linear")] := by
    simp only [Decoration.gradient, apply_ite Prod.snd, ite_self]
  rw [same]
  split
  · exact within_nil
  · exact within_about (by decide) _ _

theorem within_alignment (id : String) (align : AxisAlign) :
    Within [.unsupportedAlignment] (Decoration.alignment id align).2 := by
  cases align
  case spaceBetween => exact within_about (by decide) _ _
  case baseline => exact within_about (by decide) _ _
  all_goals exact within_nil

theorem within_flowItems (node : Node α) : Within [.unsupportedAlignment] (flowItems node).2 := by
  unfold flowItems
  split
  · exact within_append (within_alignment _ _) (within_alignment _ _)
  · exact within_nil

theorem within_interactions (layer : Layer α) :
    Within [.customEasing] (Decoration.interactions layer).2 := by
  intro warning member
  obtain ⟨reaction, _, about⟩ := List.mem_flatMap.mp member
  have own : Within [.customEasing] (Decoration.easingWarning layer.id reaction) := by
    unfold Decoration.easingWarning
    split
    · exact within_nil
    · exact within_ite (within_about (by decide) _ _)
  exact own warning about

theorem within_styleWarnings (config : TextConfig) (id : String) (style : TextStyle α) :
    Within [.unsupportedTextStyle] (Label.styleWarnings config id style) := by
  apply within_append
  · apply within_append
    · exact within_ite (within_about (by decide) _ _)
    · exact within_ite (within_about (by decide) _ _)
  · exact within_ite (within_about (by decide) _ _)

theorem within_notice (rules : RuleSet) (host child : Node α) :
    Within [.promotionSkipped, .overflow] (Placement.notice? rules host child).toList := by
  unfold Placement.notice?
  split
  · split <;> exact within_about (by decide) _ _
  · exact within_nil

/-- A label asks for its font after the warnings about its style and before those about its alignment and
its gradient. -/
theorem exists_label_log (config : TextConfig) (layer : Layer α) (text : TextContent α) :
    ∃ after, Within [.unsupportedTextStyle, .unsupportedGradient] after ∧
      ∀ log, (Label.emit config layer text log).2.2 = (Label.mapFont config text.style.fontFamily
        (log.warnAll (Label.styleWarnings config layer.id text.style))).2.warnAll after := by
  have justified : Within [.unsupportedTextStyle, .unsupportedGradient]
      (if text.style.alignHorizontal = .justified then [.about .unsupportedTextStyle layer.id
        "justified text approximated as left aligned"] else []) :=
    within_ite (within_about (by decide) _ _)
  cases found : Label.gradientFill? layer with
  | none =>
    refine ⟨_, justified, fun log => ?_⟩
    by_cases aligned : text.style.alignHorizontal = .justified <;>
      simp [Label.emit, found, aligned, Diagnostics.warnAll, Diagnostics.warn]
  | some gradient =>
    have shaded := within_gradient layer.id gradient.1 gradient.2
    refine ⟨_, within_append justified (shaded.mono (by decide)), fun log => ?_⟩
    by_cases aligned : text.style.alignHorizontal = .justified <;>
      simp [Label.emit, found, aligned, Diagnostics.warnAll, Diagnostics.warn]

section Logs
variable {rules : RuleSet} {log log' : Diagnostics}

/-- The paint of a node that shows no text warns of corners at most. -/
theorem paint_log {config : TextConfig} {node : Node α} {painted : List (String × Property α) × List (Item α)}
    (done : (paint config (node.classify rules) node).run log = .ok (painted, log')) :
    (∃ text, node.strategy rules = .text ∧ node.content? = some text ∧
      log' = (Label.emit config node.layer text log).2.2) ∨
    (node.strategy rules = .text → node.content? = none) ∧
      ∃ warnings, Within [.nonUniformCorner] warnings ∧ log' = log.warnAll warnings := by
  have same : (node.classify rules).strategy = node.strategy rules := rfl
  unfold paint at done
  rw [same] at done
  split at done
  · rename_i shown
    split at done
    · rename_i blank
      obtain ⟨_, rfl⟩ := pure_eq_ok.mp done
      exact .inr ⟨fun _ => blank, [], within_nil, by simp [Diagnostics.warnAll]⟩
    · rename_i text held
      refine .inl ⟨text, shown, held, ?_⟩
      simp only [bind_eq_ok, get_eq_ok, set_eq_ok, pure_eq_ok] at done
      obtain ⟨_, _, ⟨rfl, rfl⟩, _, _, rfl, _, rfl⟩ := done
      generalize Label.emit config node.layer text log = label
      rfl
  · rename_i other
    refine .inr ⟨fun shown => absurd shown other, ?_⟩
    split at done
    · simp only [bind_eq_ok, lift_eq_ok, pure_eq_ok] at done
      obtain ⟨_, _, ⟨_, rfl⟩, _, rfl⟩ := done
      exact ⟨[], within_nil, by simp [Diagnostics.warnAll]⟩
    · simp only [bind_eq_ok, warnAll_eq_ok, pure_eq_ok] at done
      obtain ⟨_, _, rfl, _, rfl⟩ := done
      exact ⟨_, within_framePaint node.layer _, rfl⟩

/-- A shadow warns of where it is placed at most. -/
theorem shadows_log {layer : Layer α} {frame : ParentFrame α} {zIndex : Int} {items : List (Item α)}
    (done : (shadows rules layer frame zIndex).run log = .ok (items, log')) :
    ∃ warnings, Within [.degenerateParent] warnings ∧ log' = log.warnAll warnings := by
  unfold shadows at done
  split at done
  · simp only [bind_eq_ok, keep_eq_ok, lift_eq_ok, pure_eq_ok] at done
    obtain ⟨_, _, ⟨_, rfl⟩, _, _, ⟨_, rfl⟩, _, rfl⟩ := done
    exact ⟨_, within_place _ _ _ _, rfl⟩
  · obtain ⟨_, rfl⟩ := pure_eq_ok.mp done
    exact ⟨[], within_nil, by simp [Diagnostics.warnAll]⟩

end Logs

end Assembly
end DesignCompiler
