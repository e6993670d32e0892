import DesignCompiler.Proofs.DiffPrediction
import DesignCompiler.Proofs.InertCopies
import DesignCompiler.Proofs.Renumbering

/-!
Hidden nodes and the result. No pass looks into a hidden node; but the classes and the hashes depend on
whether a container has children at all, hidden or not, and where texts are dropped that repeat another, the
first one is kept even if it is hidden. Apart from these a run makes the same of a design and of the design
without its hidden nodes.
-/
namespace DesignCompiler

open Node (thinned thinnedAll stoodIn standIn)

variable {α : Type}

namespace RuleSet

/-- The first of the texts with the given characters. -/
def firstText (characters : String) (children : List (Node α)) : Option (Node α) :=
  children.find? fun child => child.content?.any (·.characters == characters)

/-- Of the texts with the characters of a shown one, the first is shown. -/
def FirstTextShown (children : List (Node α)) : Prop :=
  ∀ child ∈ children, child.layer.visible = true → ∀ content, child.content? = some content →
    ∀ first, firstText content.characters children = some first → first.layer.visible = true

mutual

/-- Wherever repeated texts are dropped in what is shown of a tree, a shown one comes first. -/
def FirstTextsShown (set : RuleSet) : Node α → Prop
  | .container layer _ children =>
    (set.dedupesText layer = true → FirstTextShown children) ∧ FirstTextsShownAll set children
  | .text _ _ => True
  | .shape _ _ => True

def FirstTextsShownAll (set : RuleSet) : List (Node α) → Prop
  | [] => True
  | child :: rest => (child.layer.visible = true → FirstTextsShown set child) ∧ FirstTextsShownAll set rest

end

/-- What the rules for a container make of its children once the rules were applied to each of them. -/
def afterTextRules (set : RuleSet) (layer : Layer α) (changed : List (Node α)) : List (Node α) :=
  let kept := if set.dedupesText layer then dedupe [] changed else changed
  if set.centersText layer then kept.map centered else kept

variable (set : RuleSet)

theorem applyTextRules_container (layer : Layer α) (props : ContainerProps α) (children : List (Node α)) :
    set.applyTextRules (.container layer props children) =
      .container layer props (set.afterTextRules layer (set.applyTextRulesAll children)) := rfl

theorem content?_applyTextRules (node : Node α) : (set.applyTextRules node).content? = node.content? := by
  cases node <;> rfl

theorem applyTextRulesAll_eq (children : List (Node α)) :
    set.applyTextRulesAll children = children.map set.applyTextRules := by
  induction children with
  | nil => rfl
  | cons child rest ih => rw [applyTextRulesAll, ih, List.map_cons]

theorem FirstTextShown.applyTextRulesAll {children : List (Node α)} (shownFirst : FirstTextShown children) :
    FirstTextShown (set.applyTextRulesAll children) := by
  intro after member shown content text first found
  rw [applyTextRulesAll_eq] at member found
  obtain ⟨child, listed, rfl⟩ := List.mem_map.mp member
  rw [layer_applyTextRules] at shown
  rw [content?_applyTextRules] at text
  have same : ((fun child : Node α => child.content?.any (·.characters == content.characters)) ∘
      set.applyTextRules) = fun child => child.content?.any (·.characters == content.characters) :=
    funext fun child => congrArg _ (set.content?_applyTextRules child)
  rw [firstText, List.find?_map, same] at found
  obtain ⟨front, fronts, rfl⟩ := Option.map_eq_some_iff.mp found
  rw [layer_applyTextRules]
  exact shownFirst child listed shown content text front fronts

theorem firstText_cons_of_text {child : Node α} {content : TextContent α} (text : child.content? = some content)
    (rest : List (Node α)) : firstText content.characters (child :: rest) = some child := by
  rw [firstText, List.find?_cons_of_pos]
  simp [text]

theorem firstText_cons_of_ne {child : Node α} {characters : String}
    (apart : ∀ content, child.content? = some content → content.characters ≠ characters)
    (rest : List (Node α)) : firstText characters (child :: rest) = firstText characters rest := by
  rw [firstText, List.find?_cons_of_neg, firstText]
  cases text : child.content? with
  | none => simp
  | some content => simpa using apart content text

/-- The texts seen among some siblings and among the shown ones hold the same of what is still to come, and
what they do not hold comes first as a shown text. -/
def Abreast (seen shown : List String) (children : List (Node α)) : Prop :=
  ∀ child ∈ children, child.layer.visible = true → ∀ content, child.content? = some content →
    (content.characters ∈ seen ↔ content.characters ∈ shown) ∧
    (content.characters ∉ seen → ∀ first, firstText content.characters children = some first →
      first.layer.visible = true)

variable {seen shown : List String} {child : Node α} {content : TextContent α} {rest : List (Node α)}

omit set in
theorem Abreast.pass (abreast : Abreast seen shown (child :: rest))
    (old : ∀ content, child.content? = some content → content.characters ∈ seen) : Abreast seen shown rest := by
  intro later member visible content text
  obtain ⟨same, first⟩ := abreast later (List.mem_cons_of_mem _ member) visible content text
  refine ⟨same, fun fresh => ?_⟩
  have apart (other : TextContent α) (text' : child.content? = some other) :
      other.characters ≠ content.characters := fun eq => fresh (eq ▸ old other text')
  rw [← firstText_cons_of_ne apart]
  exact first fresh

omit set in
theorem apart_of_text (text : child.content? = some content) {characters : String}
    (apart : content.characters ≠ characters) :
    ∀ other, child.content? = some other → other.characters ≠ characters := by
  intro other text'
  rw [text, Option.some.injEq] at text'
  exact text' ▸ apart

omit set in
theorem Abreast.push (abreast : Abreast seen shown (child :: rest)) (text : child.content? = some content) :
    Abreast (content.characters :: seen) (content.characters :: shown) rest := by
  intro later member visible other text'
  obtain ⟨same, first⟩ := abreast later (List.mem_cons_of_mem _ member) visible other text'
  rw [List.mem_cons, List.mem_cons, same, not_or]
  refine ⟨Iff.rfl, fun fresh => ?_⟩
  rw [← firstText_cons_of_ne (apart_of_text text (Ne.symm fresh.1))]
  exact first (same.not.mpr fresh.2)

omit set in
theorem Abreast.hide (abreast : Abreast seen shown (child :: rest)) (text : child.content? = some content)
    (new : content.characters ∉ seen) (hidden : child.layer.visible = false) :
    Abreast (content.characters :: seen) shown rest := by
  intro later member visible other text'
  obtain ⟨same, first⟩ := abreast later (List.mem_cons_of_mem _ member) visible other text'
  have apart : other.characters ≠ content.characters := by
    intro eq
    have fronts := first (eq ▸ new) child (eq ▸ firstText_cons_of_text text rest)
    rw [hidden] at fronts
    cases fronts
  rw [List.mem_cons, or_iff_right apart]
  refine ⟨same, fun fresh => ?_⟩
  rw [← firstText_cons_of_ne (apart_of_text text apart.symm)]
  exact first fresh

variable [Scalar α]

omit set in
/-- Where a shown text comes first, dropping repeated texts goes along with thinning. -/
theorem dedupe_thinned {seen shown : List String} : (children : List (Node α)) →
    Abreast seen shown children →
      dedupe shown (thinnedAll Layer.visible children) = thinnedAll Layer.visible (dedupe seen children)
  | [], _ => rfl
  | child :: rest, abreast => by
    by_cases visible : child.layer.visible = true
    · rw [thinnedAll, if_pos visible, dedupe, dedupe, Node.content?_thinned]
      cases text : child.content? with
      | none =>
        have others := dedupe_thinned rest (abreast.pass (by simp [text]))
        simp only [thinnedAll, visible, if_true, others]
      | some content =>
        have same := (abreast child List.mem_cons_self visible content text).1
        simp only [List.contains_iff_mem, ← same]
        split
        · rename_i old
          exact dedupe_thinned rest (abreast.pass (by simpa [text] using old))
        · have others := dedupe_thinned rest (abreast.push text)
          simp only [thinnedAll, visible, if_true, others]
    · have hidden : child.layer.visible = false := by simpa using visible
      rw [thinnedAll, if_neg visible, dedupe]
      cases text : child.content? with
      | none =>
        simp only [thinnedAll, if_neg visible]
        exact dedupe_thinned rest (abreast.pass (by simp [text]))
      | some content =>
        simp only [List.contains_iff_mem]
        split
        · rename_i old
          exact dedupe_thinned rest (abreast.pass (by simpa [text] using old))
        · rename_i new
          -- only the full list has now seen these characters; no shown text has them, or it would come first
          simp only [thinnedAll, if_neg visible]
          exact dedupe_thinned rest (abreast.hide text new hidden)

omit set [Scalar α] in
theorem layer_centered (node : Node α) : (centered node).layer = node.layer := by
  cases node <;> rfl

omit set in
theorem map_centered_thinned (children : List (Node α)) :
    (thinnedAll Layer.visible children).map centered = thinnedAll Layer.visible (children.map centered) := by
  induction children with
  | nil => rfl
  | cons child rest ih =>
    have own : centered (child.thinned Layer.visible) = (centered child).thinned Layer.visible := by
      cases child <;> rfl
    rw [List.map_cons, thinnedAll, thinnedAll, layer_centered, ← ih, ← own]
    split <;> rfl

theorem afterTextRules_thinned {layer : Layer α} {changed : List (Node α)}
    (shownFirst : set.dedupesText layer = true → FirstTextShown changed) :
    set.afterTextRules layer (thinnedAll Layer.visible changed) =
      thinnedAll Layer.visible (set.afterTextRules layer changed) := by
  have kept : (if set.dedupesText layer then dedupe [] (thinnedAll Layer.visible changed)
      else thinnedAll Layer.visible changed) =
        thinnedAll Layer.visible (if set.dedupesText layer then dedupe [] changed else changed) := by
    split
    · rename_i dedupes
      exact dedupe_thinned changed fun child member visible content text =>
        ⟨Iff.rfl, fun _ => shownFirst dedupes child member visible content text⟩
    · rfl
  rw [afterTextRules, afterTextRules, kept]
  split
  · exact map_centered_thinned _
  · rfl

omit [Scalar α] in
theorem isEmpty_afterTextRules (layer : Layer α) (changed : List (Node α)) :
    (set.afterTextRules layer changed).isEmpty = changed.isEmpty := by
  have kept : (dedupe [] changed).isEmpty = changed.isEmpty := by
    cases changed with
    | nil => rfl
    | cons child rest =>
      rw [dedupe]
      cases child.content? <;> rfl
  have empty : (if set.dedupesText layer then dedupe [] changed else changed).isEmpty = changed.isEmpty := by
    split
    · exact kept
    · rfl
  rw [afterTextRules, ← empty]
  split
  · exact List.isEmpty_map
  · rfl

theorem afterTextRules_standIn (layer : Layer α) :
    set.afterTextRules layer (set.applyTextRulesAll [standIn]) = [standIn] := by
  rw [afterTextRules]
  split <;> split <;> rfl

mutual

/-- The rules about texts do with such a tree what they do with the tree thinned of all that is hidden. -/
theorem applyTextRules_thinned : (node : Node α) → set.FirstTextsShown node →
    set.applyTextRules (node.thinned Layer.visible) = (set.applyTextRules node).thinned Layer.visible
  | .container layer props children, shownFirst => by
    have empty (nodes : List (Node α)) :
        (set.afterTextRules layer (set.applyTextRulesAll nodes)).isEmpty = nodes.isEmpty := by
      rw [isEmpty_afterTextRules, applyTextRulesAll_eq, List.isEmpty_map]
    have below := applyTextRulesAll_thinned children shownFirst.2
    have kept := set.afterTextRules_thinned fun dedupes => (shownFirst.1 dedupes).applyTextRulesAll set
    have stood := Node.pass_stoodIn (fun nodes => set.afterTextRules layer (set.applyTextRulesAll nodes))
      (set.afterTextRules_standIn layer) empty children (thinnedAll Layer.visible children)
    rw [thinned, applyTextRules_container, applyTextRules_container, thinned, ← kept, ← below, stood]
  | .text layer content, _ => rfl
  | .shape layer kind, _ => rfl

theorem applyTextRulesAll_thinned : (children : List (Node α)) → FirstTextsShownAll set children →
    set.applyTextRulesAll (thinnedAll Layer.visible children) =
      thinnedAll Layer.visible (set.applyTextRulesAll children)
  | [], _ => rfl
  | child :: rest, shownFirst => by
    have others := applyTextRulesAll_thinned rest shownFirst.2
    rw [applyTextRulesAll, thinnedAll, thinnedAll, layer_applyTextRules]
    split
    · rename_i visible
      rw [applyTextRulesAll, others, applyTextRules_thinned child (shownFirst.1 visible)]
    · exact others

end

theorem applyStructural_thinned {root : Node α} (shownFirst : set.FirstTextsShown root) :
    set.applyStructural (root.thinned Layer.visible) = (set.applyStructural root).thinned Layer.visible := by
  rw [applyStructural, applyStructural]
  split
  · rfl
  · exact set.applyTextRules_thinned root shownFirst

end RuleSet

theorem lenient_visible : Layer.Lenient (Layer.visible : Layer α → Bool) := fun layer live => by
  rw [Layer.isLive, Bool.and_eq_true] at live
  exact live.1

variable [Scalar α]

namespace Manifest

/-- The manifest without the hidden nodes of its design. -/
def stripped (manifest : Manifest α) : Manifest α :=
  { manifest with root := manifest.root.map (Node.stripped Layer.visible) }

/-- The manifest without the hidden nodes of its design, apart from the stand-ins. -/
def thinned (manifest : Manifest α) : Manifest α :=
  { manifest with root := manifest.root.map (Node.thinned Layer.visible) }

/-- No shown container of the design has hidden children alone. -/
def Occupied (manifest : Manifest α) : Prop :=
  ∀ root, manifest.root = some root → root.Occupied Layer.visible

/-- Wherever the rules of a run drop repeated texts of the design, a shown one comes first. -/
def FirstTextsShown (config : Config α) (manifest : Manifest α) : Prop :=
  ∀ rules root, config.rules = .ok rules → manifest.root = some root → rules.FirstTextsShown root

theorem Occupied.thinned {manifest : Manifest α} (occupied : manifest.Occupied) :
    manifest.thinned = manifest.stripped := by
  rw [Manifest.thinned, stripped]
  cases found : manifest.root with
  | none => rfl
  | some root => rw [Option.map_some, Option.map_some, (occupied root found).thinned root]

end Manifest

namespace PlannedDesign

variable {config : Config α} {previous : Option (Snapshot α)} {manifest : Manifest α}

/-- The planned design without what is hidden in it, apart from the stand-ins. -/
def thinned (planned : PlannedDesign α) : PlannedDesign α :=
  { planned with root := planned.root.thinned Layer.visible }

/-- The design without its hidden nodes is planned in the same way. -/
theorem of_thinned (shownFirst : manifest.FirstTextsShown config) :
    of config previous manifest.thinned = (of config previous manifest).map thinned := by
  rw [of, of]
  cases read : config.rules with
  | error fault => rfl
  | ok rules =>
    cases found : manifest.root with
    | none => simp [Manifest.takeRoot, Manifest.thinned, found, bind, Except.bind, Except.map]
    | some root =>
      have ruled := rules.applyStructural_thinned (shownFirst rules root read found)
      have annotated := Plan.annotateNode_thinned lenient_visible rules false true
        (Stroke.resolve config.stroke (rules.applyStructural root)).1
      simp [Manifest.takeRoot, Manifest.thinned, found, bind, Except.bind, Except.map, pure, Except.pure,
        ruled, Stroke.resolve_thinned, Plan.annotate, annotated, Diff.of_thinned lenient_visible, thinned]

variable (planned : PlannedDesign α)

theorem carried_thinned : planned.thinned.carried = planned.carried.thinned Layer.visible :=
  Node.revise_thinned lenient_visible (Diff.refills_carrying planned.diff.reuse).life planned.root

theorem jobs_thinned : planned.thinned.jobs = planned.jobs := by
  rw [jobs, carried_thinned, Plan.pendingJobs_thinned lenient_visible, jobs]

theorem resolved_thinned (lookup : String → Option String) :
    planned.thinned.resolved lookup = (planned.resolved lookup).thinned Layer.visible :=
  Node.revise_thinned lenient_visible (planned.refills_filled lookup).life planned.root

end PlannedDesign

namespace Compilation

theorem reusedOf_thinned (planned : PlannedDesign α) : reusedOf planned.thinned = reusedOf planned :=
  Diff.reused_thinned lenient_visible planned.diff.reuse planned.root

theorem checkDeclared_thinned (ledger : Store.Ledger) (raw : List (String × String)) (root : Node α)
    (jobs : List UploadJob) (declared : List String) :
    checkDeclared ledger raw (root.thinned Layer.visible) jobs declared =
      checkDeclared ledger raw root jobs declared := by
  simp only [checkDeclared, isObtainable, Plan.requiredHashes_thinned lenient_visible]

theorem finish_thinned (config : Config α) (planned : PlannedDesign α) (reused : Nat) (root : Node α)
    (resolution : Store.Resolution) :
    finish config planned.thinned reused (root.thinned Layer.visible) resolution =
      finish config planned reused root resolution := by
  simp only [finish, Assembly.assemble_thinned lenient_visible, Node.snapshot_thinned lenient_visible,
    Node.layer_thinned, Plan.requiredHashes_thinned lenient_visible, PlannedDesign.thinned]

variable {m : Type → Type} [Monad m] [Host m]

/-- A run goes the same way on a design and on the one without its hidden nodes, with stand-ins. -/
theorem run_thinned {config : Config α} {manifest : Manifest α} (shownFirst : manifest.FirstTextsShown config)
    (uploader : Store.Uploader m) (previous : Option (Snapshot α)) :
    run config uploader previous manifest.thinned = run config uploader previous manifest := by
  have plans := @PlannedDesign.of_thinned α _ config previous manifest shownFirst
  cases plan : PlannedDesign.of config previous manifest with
  | error failure =>
    rw [plan] at plans
    rw [run, run, plan, plans]
    rfl
  | ok planned =>
    rw [plan] at plans
    rw [run_planned uploader plan, run_planned uploader plans, PlannedDesign.jobs_thinned, reusedOf_thinned]
    simp only [PlannedDesign.carried_thinned, checkDeclared_thinned, PlannedDesign.resolved_thinned,
      finish_thinned]
    rfl

/-- Whatever the machine, the store and the ledger are, a run does the same, step by step, on a design and on
the one without its hidden nodes, with a stand-in for the children of each container that has hidden ones
alone; where there is none, the hidden nodes can just be removed. -/
theorem run_without_hidden {config : Config α} {manifest : Manifest α}
    (shownFirst : manifest.FirstTextsShown config) (uploader : Store.Uploader m)
    (previous : Option (Snapshot α)) :
    run config uploader previous manifest.thinned = run config uploader previous manifest ∧
    (manifest.Occupied →
      run config uploader previous manifest.stripped = run config uploader previous manifest) := by
  have inert := run_thinned shownFirst uploader previous
  exact ⟨inert, fun occupied => occupied.thinned ▸ inert⟩

/-! A frame that drops repeated texts. -/

def listing : Config Float :=
  { Config.default with
    classification := ⟨"", []⟩
    overrides := [⟨.exact, "list", .dedupeTextChildren⟩] }

def line (id : String) (shown : Bool) : Node Float :=
  .text { Layer.plain id "line" ⟨0, 0, 10, 10⟩ with visible := shown } ⟨"A", .default⟩

def board : Layer Float := Layer.plain "0" "list" ⟨0, 0, 100, 100⟩

def framed (layer : Layer Float) (lines : List (Node Float)) : Manifest Float :=
  ⟨some (.container layer ⟨.frame, none, false⟩ lines), [], [], .empty⟩

/-- A hidden line behind a shown one. -/
def trailing : Manifest Float := framed board [line "1" true, line "2" false]

theorem run_without_hidden_trailing : trailing.FirstTextsShown listing ∧ trailing.Occupied ∧
    trailing.stripped ≠ trailing ∧ run (m := StateM Machine) listing .disabled none trailing.stripped =
      run listing .disabled none trailing := by
  have shownFirst : trailing.FirstTextsShown listing := by
    rintro rules _ - ⟨⟩
    simp [RuleSet.FirstTextsShown, RuleSet.FirstTextsShownAll, RuleSet.FirstTextShown, RuleSet.firstText, line,
      Node.content?, Node.layer]
  have occupied : trailing.Occupied := by
    rintro _ ⟨⟩
    simp [Node.Occupied, Node.OccupiedAll, line, Node.layer, Layer.plain]
  refine ⟨shownFirst, occupied, fun same => ?_, (run_without_hidden shownFirst .disabled none).2 occupied⟩
  have sizes := congrArg (fun manifest : Manifest Float => manifest.root.map Node.size) same
  exact absurd sizes (by decide)

/-- The ids that a run finds to be new, and the hashes that it needs assets for. -/
def outlook (manifest : Manifest Float) : Option (List String × List String) :=
  (PlannedDesign.of listing none manifest).toOption.map fun planned =>
    (planned.diff.added, planned.jobs.map (·.hash))

theorem outlook_eq_some {manifest : Manifest Float} {ids hashes : List String} :
    outlook manifest = some (ids, hashes) ↔ ∃ planned, PlannedDesign.of listing none manifest = .ok planned ∧
      planned.diff.added = ids ∧ planned.jobs.map (·.hash) = hashes := by
  rw [outlook]
  cases PlannedDesign.of listing none manifest with
  | error failure => simp [Except.toOption]
  | ok planned => simp [Except.toOption]

/-- Runs that are the same have the same outlook, if one of them needs no assets. -/
theorem outlook_of_same {one other : Manifest Float} {ids : List String} (undeclared : one.unresolved = [])
    (easy : outlook one = some (ids, []))
    (same : run (m := StateM Machine) listing .disabled none other = run listing .disabled none one) :
    outlook other = some (ids, []) := by
  obtain ⟨planned, plan, rfl, none_needed⟩ := outlook_eq_some.mp easy
  rw [List.map_eq_nil_iff] at none_needed
  obtain ⟨resolution, stages, _⟩ := Stages.of_known .disabled (⟨none, []⟩, Machine.ofDisk .empty) plan
    (checkDeclared_eq_ok.mpr (by simp [undeclared])) (by simp [none_needed])
  obtain ⟨compilation, _, _, done, _⟩ := stages.compiled
  obtain ⟨again, plan', diff⟩ := Manifest.diff_eq_ok.mp (diff_of_run done).1
  obtain rfl := Except.ok.inj (plan.symm.trans plan')
  rw [← same] at done
  obtain ⟨planned', resolution', stages', _⟩ := stages_of_run done
  obtain ⟨again, plan', diff'⟩ := Manifest.diff_eq_ok.mp (diff_of_run done).1
  obtain rfl := Except.ok.inj (stages'.plan.symm.trans plan')
  -- the ledger is empty in the end, so there was nothing to find
  obtain ⟨_, held, covered⟩ := Store.resolveAll_ok stages'.assets
  have nothing : planned'.jobs = [] := List.eq_nil_iff_forall_not_mem.mpr fun job member => by
    obtain ⟨entry, found, _⟩ := List.mem_map.mp (covered job member)
    cases held entry found
  exact outlook_eq_some.mpr ⟨planned', stages'.plan, by rw [diff', diff], by rw [nothing, List.map_nil]⟩

/-- A line that is hidden before one that is shown. -/
def leading : Manifest Float := framed board [line "1" false, line "2" true]

/-- A frame that has a hidden line alone. -/
def hollow : Manifest Float :=
  framed { board with effects := [.layerBlur ⟨true, 1⟩], contentHash := some "rose" } [line "1" false]

/-- Neither condition can be left out: a hidden text is kept in the place of a shown one, and a frame that
has a hidden child alone needs no picture, but an empty one does. -/
theorem run_depends_on_hidden :
    (leading.Occupied ∧ run (m := StateM Machine) listing .disabled none leading.stripped ≠
      run listing .disabled none leading) ∧
    (hollow.FirstTextsShown listing ∧ run (m := StateM Machine) listing .disabled none hollow.stripped ≠
      run listing .disabled none hollow) := by
  have shownFirst : hollow.FirstTextsShown listing := by
    rintro rules _ - ⟨⟩
    simp [RuleSet.FirstTextsShown, RuleSet.FirstTextsShownAll, RuleSet.FirstTextShown, line, Node.layer]
  have occupied : leading.Occupied := by
    rintro _ ⟨⟩
    simp [Node.Occupied, Node.OccupiedAll, line, Node.layer, Layer.plain]
  have before : outlook leading = some (["0"], []) ∧ outlook hollow = some (["0"], []) := by decide +kernel
  have after : outlook leading.stripped = some (["0", "2"], []) ∧
      outlook hollow.stripped = some (["0"], ["rose"]) := by decide +kernel
  -- the shown line appears as a second node, and the empty frame as a picture that is missing
  refine ⟨⟨occupied, fun same => ?_⟩, shownFirst, fun same => ?_⟩
  · have alike := after.1.symm.trans (outlook_of_same rfl before.1 same)
    exact absurd alike (by decide)
  · have alike := after.2.symm.trans (outlook_of_same rfl before.2 same)
    exact absurd alike (by decide)

end Compilation
end DesignCompiler
