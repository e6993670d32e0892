import DesignCompiler.Host.Disk
import DesignCompiler.Proofs.Filling
import DesignCompiler.Proofs.Planning
import DesignCompiler.Scalar.Rational

/-!
Once all assets are found, a run succeeds, and the pictures that its document shows are just those that
were planned.
-/
namespace DesignCompiler

variable {α : Type} [Scalar α]

namespace PlannedDesign

open Assembly (Matched Supplied Filled)

variable {config : Config α} {previous : Option (Snapshot α)} {manifest : Manifest α}
  {planned : PlannedDesign α}

theorem annotated_planned (plan : of config previous manifest = .ok planned) :
    ∃ marked, planned.root = (Plan.annotate planned.rules marked).1 := by
  obtain ⟨_, _, _, passes⟩ := of_eq_ok plan
  exact ⟨_, congrArg Prod.fst passes⟩

theorem matched_planned (plan : of config previous manifest = .ok planned) {path : List Nat}
    {node : Node α} (reached : Node.Emits planned.rules planned.root path node) :
    Matched planned.rules node := by
  obtain ⟨marked, same⟩ := annotated_planned plan
  have listed := Node.mem_emits.mpr ⟨path, (List.nil_append path).symm, reached⟩
  rw [same] at listed
  exact Plan.matched_emits false true [] _ _ listed

/-- The shadow of the root is never drawn, and never planned. -/
theorem unshaded_planned (plan : of config previous manifest = .ok planned) :
    planned.root.layer.annotations.shadow = none := by
  obtain ⟨marked, same⟩ := annotated_planned plan
  rw [same, Plan.annotate, Plan.layer_annotateNode]
  rfl

theorem flatMap_planned (fresh : manifest.Unplanned) (plan : of config previous manifest = .ok planned)
    {β : Type} {view : Node α → List β} (blind : ∀ node, Plan.pictures node = [] → view node = []) :
    (Plan.emitted planned.root).flatMap view =
      (planned.root.emits planned.rules []).flatMap (view ·.2) := by
  obtain ⟨root, found, _, passes⟩ := of_eq_ok plan
  have same : planned.root = (Plan.annotate planned.rules _).1 := congrArg Prod.fst passes
  rw [same]
  refine Plan.flatMap_emitted blind false true [] _ ?_
  intro inner member
  have outlined : inner.layer.unmarked ∈ Plan.outline root :=
    (outline_passes config.stroke planned.rules root).subset (List.mem_map_of_mem member)
  obtain ⟨origin, live, layer⟩ := List.mem_map.mp outlined
  have blank := fresh root found origin live
  rw [Plan.pictures_eq] at blank ⊢
  have pictures : ∀ layer : Layer α, layer.unmarked.annotations.pictures = layer.annotations.pictures :=
    fun layer => rfl
  rw [← pictures, ← layer, pictures, blank]

section Resolved

variable {lookup : String → Option String}

theorem matched_resolved (plan : of config previous manifest = .ok planned) {path : List Nat}
    {node : Node α} (reached : Node.Emits planned.rules (planned.resolved lookup) path node) :
    Matched planned.rules node := by
  have refills := planned.refills_filled lookup
  obtain ⟨origin, known, rfl⟩ := reached.of_revise refills.life
  have matched := matched_planned plan known
  have isSome : ∀ {one other : Option Picture}, one.map (·.hash) = other.map (·.hash) →
      one.isSome = other.isSome := by
    intro one other same
    cases one <;> cases other <;> simp_all
  refine ⟨?_, ?_⟩
  · rw [Node.layer_revise, Node.classify_revise, ← matched.raster]
    exact isSome (refills.raster origin.layer)
  · rw [Node.layer_revise, Node.strategy_revise]
    exact fun held => matched.background (isSome (refills.background origin.layer) ▸ held)

theorem unshaded_resolved (plan : of config previous manifest = .ok planned) :
    (planned.resolved lookup).layer.annotations.shadow = none := by
  have same := (planned.refills_filled lookup).shadow planned.root.layer
  rw [unshaded_planned plan, Option.map_none, Option.map_eq_none_iff] at same
  rw [resolved, Node.layer_revise]
  exact same

theorem flatMap_resolved (fresh : manifest.Unplanned)
    (plan : of config previous manifest = .ok planned) {β : Type} {view : Node α → List β}
    (blind : ∀ node, Plan.pictures node = [] → view node = []) :
    (Plan.emitted (planned.resolved lookup)).flatMap view =
      ((planned.resolved lookup).emits planned.rules []).flatMap (view ·.2) := by
  have refills := planned.refills_filled lookup
  have later : ∀ node, Plan.pictures node = [] → view (node.revise (planned.filled lookup)) = [] := by
    intro node blank
    refine blind _ (List.map_eq_nil_iff.mp ((refills.hashes node).trans ?_))
    rw [blank, List.map_nil]
  rw [resolved, Node.emitted_revise refills.life, Node.emits_revise refills.life, List.flatMap_map,
    List.flatMap_map]
  exact flatMap_planned fresh plan later

variable (found : ∀ job ∈ planned.jobs, (lookup job.hash).isSome = true)

include found

omit [Scalar α] in
/-- Every picture of a live node has its asset in the end. -/
theorem exists_asset_resolved {node : Node α} (live : node ∈ Plan.emitted (planned.resolved lookup))
    {picture : Picture} (member : picture ∈ node.layer.annotations.pictures) :
    ∃ asset, picture.asset = some asset := by
  rw [resolved, Node.emitted_revise (planned.refills_filled lookup).life] at live
  obtain ⟨origin, there, rfl⟩ := List.mem_map.mp live
  rw [Node.layer_revise] at member
  exact exists_asset found there member

/-- Every node that reaches the output has its pictures. -/
theorem supplied_resolved (plan : of config previous manifest = .ok planned) {path : List Nat}
    {node : Node α} (reached : Node.Emits planned.rules (planned.resolved lookup) path node) :
    Supplied planned.rules node ∧ Filled node.layer.annotations.shadow := by
  have matched := matched_resolved plan reached
  have filled : ∀ picture ∈ node.layer.annotations.pictures, ∃ asset, picture.asset = some asset :=
    fun picture member => exists_asset_resolved found reached.live member
  simp only [Annotations.pictures, List.mem_append, Option.mem_toList] at filled
  exact ⟨⟨fun needed => matched.raster.trans needed, fun _ picture held => filled picture (.inr held),
    fun _ picture held => filled picture (.inl (.inr held))⟩,
    fun picture held => filled picture (.inl (.inl held))⟩

end Resolved

end PlannedDesign

namespace Plan

omit [Scalar α] in
/-- The required hashes are those of the pictures to be shown. -/
theorem mem_requiredHashes {root : Node α} {hash : String} :
    hash ∈ requiredHashes root ↔
      ∃ wanted ∈ (emitted root).flatMap wantedPictures, wanted.picture.hash = hash := by
  have same : (emitted root).flatMap pictures = ((emitted root).flatMap wantedPictures).map (·.picture) := by
    rw [List.map_flatMap]
    exact List.flatMap_congr fun node _ => (map_picture_wantedPictures node).symm
  rw [requiredHashes, List.mem_eraseDups, same, List.map_map, List.mem_map]
  rfl

omit [Scalar α] in
/-- Filling in assets changes no name and no hash of what is to be shown. -/
theorem labels_revise {change : Layer α → Annotations α} (refills : Refills change) (root : Node α) :
    ((emitted (root.revise change)).flatMap wantedPictures).map (fun wanted =>
        (wanted.name, wanted.picture.hash)) =
      ((emitted root).flatMap wantedPictures).map fun wanted => (wanted.name, wanted.picture.hash) := by
  have list : ∀ (name : String) {one other : Option Picture},
      one.map (·.hash) = other.map (·.hash) →
      (one.toList.map fun picture => (⟨picture, name⟩ : WantedPicture)).map (fun wanted =>
        (wanted.name, wanted.picture.hash)) =
      (other.toList.map fun picture => (⟨picture, name⟩ : WantedPicture)).map fun wanted =>
        (wanted.name, wanted.picture.hash) := by
    intro name one other same
    cases one <;> cases other <;> simp_all
  rw [Node.emitted_revise refills.life, List.flatMap_map, List.map_flatMap, List.map_flatMap]
  refine List.flatMap_congr fun node _ => ?_
  simp only [wantedPictures, ownPlacards, List.map_append, Node.layer_revise, Layer.revised]
  rw [list _ (refills.shadow node.layer), list _ (refills.background node.layer),
    list _ (refills.raster node.layer)]

end Plan

namespace Compilation

open Store (Yields)

variable {σ : Type} [Host (StateM σ)] {config : Config α} {uploader : Store.Uploader (StateM σ)}
  {previous : Option (Snapshot α)} {manifest : Manifest α} {before after : Store.Ledger × σ}
  {planned : PlannedDesign α} {resolution : Store.Resolution}

theorem Stages.found
    (stages : Stages config uploader previous manifest before after planned resolution) :
    ∀ job ∈ planned.jobs, (resolution.resolved.lookup job.hash).isSome = true := by
  intro job member
  obtain ⟨asset, held, _⟩ := Store.lookup_resolved stages.assets member
  rw [held]
  rfl

/-- Once all assets are found, the design can be assembled, and shows all it has to. -/
theorem Stages.assembled
    (stages : Stages config uploader previous manifest before after planned resolution) :
    ∃ arena log, (Assembly.assemble planned.rules config.text
      (planned.resolved (resolution.resolved.lookup ·))).run ⟨planned.warnings, []⟩ = .ok (arena, log) ∧
      arena.showings.Perm (((planned.resolved (resolution.resolved.lookup ·)).emits planned.rules []).flatMap
        fun entry => (Plan.wantedPictures entry.2).map Plan.WantedPicture.showing) := by
  obtain ⟨children, layout⟩ := Placement.exists_layout planned.rules
    (planned.resolved (resolution.resolved.lookup ·))
  have supplied : ∀ path node,
      Node.Emits planned.rules (planned.resolved (resolution.resolved.lookup ·)) path node →
      Assembly.Supplied planned.rules node ∧ Assembly.Filled node.layer.annotations.shadow :=
    fun _ _ reached => PlannedDesign.supplied_resolved stages.found stages.plan reached
  obtain ⟨log, done⟩ := Assembly.assemble_run config.text layout (supplied [] _ .root).1
    (Assembly.ready_of_emits layout supplied) ⟨planned.warnings, []⟩
  exact ⟨_, log, done, Assembly.showings_screen config.text layout
    (fun _ _ reached => PlannedDesign.matched_resolved stages.plan reached)
    (PlannedDesign.unshaded_resolved stages.plan)⟩

/-- A run for whose jobs the ledger has all assets goes through its stages with them. -/
theorem Stages.of_known (uploader : Store.Uploader (StateM σ)) (before : Store.Ledger × σ)
    (plan : PlannedDesign.of config previous manifest = .ok planned)
    (declared : checkDeclared before.1 manifest.rawContent planned.carried planned.jobs
      manifest.unresolved = .ok ())
    (held : ∀ job ∈ planned.jobs, (before.1.asset? job.hash).isSome = true) :
    ∃ resolution, Stages config uploader previous manifest before before planned resolution ∧
      ∀ job ∈ planned.jobs, resolution.resolved.lookup job.hash = before.1.asset? job.hash := by
  obtain ⟨known, found, served⟩ :=
    Store.resolveAll_known uploader config.upload manifest.rawContent held
  exact ⟨_, ⟨plan, declared, congrFun served before.2⟩, found⟩

theorem Stages.compiled
    (stages : Stages config uploader previous manifest before after planned resolution) :
    ∃ (compilation : Compilation α) (arena : Arena α) (log : Diagnostics),
      Yields (run config uploader previous manifest) before (.ok compilation) after ∧
      (Assembly.assemble planned.rules config.text
        (planned.resolved (resolution.resolved.lookup ·))).run ⟨planned.warnings, []⟩ = .ok (arena, log) ∧
      compilation.document = arena.document ∧
      compilation.snapshot = (planned.resolved (resolution.resolved.lookup ·)).snapshot ∧
      arena.showings.Perm (((planned.resolved (resolution.resolved.lookup ·)).emits planned.rules []).flatMap
        fun entry => (Plan.wantedPictures entry.2).map Plan.WantedPicture.showing) := by
  obtain ⟨arena, log, assembled, shown⟩ := stages.assembled
  have finished := stages.yields
  rw [finish_eq_ok.mpr ⟨arena, log, assembled, rfl⟩] at finished
  exact ⟨_, arena, log, finished, assembled, rfl, rfl, shown⟩

/-- Once all assets are found, a run succeeds. In what it shows, every picture of a live node has an
image label with its address, and no other instance has an image; these are the pictures planned, and
the hashes required are theirs. Every manifest that was read from a file is without pictures before. -/
theorem shows_planned
    (stages : Stages config uploader previous manifest before after planned resolution) :
    ∃ (compilation : Compilation α) (arena : Arena α) (log : Diagnostics) (final : Node α),
      Yields (run config uploader previous manifest) before (.ok compilation) after ∧
      final = Plan.applyAssets (resolution.resolved.lookup ·)
        (Diff.applyReuse planned.diff.reuse planned.root).1 ∧
      (Assembly.assemble planned.rules config.text final).run ⟨planned.warnings, []⟩ =
        .ok (arena, log) ∧
      compilation.document = arena.document ∧ compilation.snapshot = final.snapshot ∧
      (manifest.Unplanned →
        arena.showings.Perm
          (((Plan.emitted final).flatMap Plan.wantedPictures).map Plan.WantedPicture.showing)) ∧
      (∀ wanted ∈ (Plan.emitted final).flatMap Plan.wantedPictures,
        ∃ asset, wanted.picture.asset = some asset) ∧
      ((Plan.emitted final).flatMap Plan.wantedPictures).map (fun wanted =>
          (wanted.name, wanted.picture.hash)) =
        ((Plan.emitted planned.root).flatMap Plan.wantedPictures).map (fun wanted =>
          (wanted.name, wanted.picture.hash)) ∧
      ∀ hash, hash ∈ Plan.requiredHashes final ↔
        ∃ wanted ∈ (Plan.emitted final).flatMap Plan.wantedPictures, wanted.picture.hash = hash := by
  have refills := planned.refills_filled (resolution.resolved.lookup ·)
  obtain ⟨compilation, arena, log, done, assembled, document, snapshot, shown⟩ := stages.compiled
  have final : planned.resolved (resolution.resolved.lookup ·) =
      Plan.applyAssets (resolution.resolved.lookup ·)
        (Diff.applyReuse planned.diff.reuse planned.root).1 := by
    rw [Diff.applyReuse_eq]
    exact (planned.applyAssets_carried _).symm
  refine ⟨compilation, arena, log, _, done, final, assembled, document, snapshot, ?_, ?_,
    Plan.labels_revise refills planned.root, fun hash => Plan.mem_requiredHashes⟩
  · intro fresh
    rw [List.map_flatMap, PlannedDesign.flatMap_resolved fresh stages.plan]
    · exact shown
    · intro node blank
      rw [List.map_eq_nil_iff, ← List.map_eq_nil_iff (f := (·.picture)), Plan.map_picture_wantedPictures, blank]
  · intro wanted member
    obtain ⟨node, live, held⟩ := List.mem_flatMap.mp member
    refine PlannedDesign.exists_asset_resolved stages.found live ?_
    rw [← Plan.pictures_eq, ← Plan.map_picture_wantedPictures]
    exact List.mem_map_of_mem held

end Compilation

/-- A picture with a shadow, on a screen that is painted with an image. -/
def poster : Manifest Rat where
  root := some (.container { Layer.plain "0" "poster" ⟨0, 0, 100, 100⟩ with
      fills := [.image ⟨true, 1, some "paper", none⟩] } ⟨.frame, none, false⟩
    [.shape { Layer.plain "1" "badge" ⟨10, 10, 20, 20⟩ with
      fills := [.image ⟨true, 1, some "badge", none⟩], shadowHash := some "dusk" } .ellipse])
  unresolved := []
  rawContent := []
  stats := .empty

def plain : Config Rat := { Config.default with classification := ⟨"", []⟩ }

/-- A ledger that has an asset for each of some jobs. -/
private def stocked (jobs : List UploadJob) : Store.Ledger :=
  ⟨none, jobs.map fun job => (job.hash, ⟨"7", ⟨0, 0⟩⟩)⟩

theorem poster_stages : ∃ ledger planned resolution,
    Compilation.Stages plain Store.Uploader.disabled none poster (ledger, Machine.ofDisk .empty)
      (ledger, Machine.ofDisk .empty) planned resolution ∧
    ((Plan.emitted planned.root).flatMap Plan.wantedPictures).length = 3 := by
  obtain ⟨planned, plan, three⟩ : ∃ planned, PlannedDesign.of plain none poster = .ok planned ∧
      ((Plan.emitted planned.root).flatMap Plan.wantedPictures).length = 3 := ⟨_, rfl, rfl⟩
  have held : ∀ job ∈ planned.jobs, ((stocked planned.jobs).asset? job.hash).isSome = true := by
    intro job member
    rw [Store.Ledger.asset?, Option.isSome_map, Store.Ledger.get?, isSome_lookup, stocked, List.map_map]
    exact List.mem_map_of_mem (f := (·.hash)) member
  obtain ⟨resolution, stages, _⟩ := Compilation.Stages.of_known Store.Uploader.disabled
    (stocked planned.jobs, Machine.ofDisk .empty) plan
    (Compilation.checkDeclared_eq_ok.mpr (by simp [poster])) held
  exact ⟨_, planned, resolution, stages, three⟩

theorem poster_shown : ∃ (ledger : Store.Ledger) (compilation : Compilation Rat) (arena : Arena Rat),
    poster.Unplanned ∧
    Store.Yields (Compilation.run plain Store.Uploader.disabled none poster)
      (ledger, Machine.ofDisk .empty) (.ok compilation) (ledger, Machine.ofDisk .empty) ∧
    compilation.document = arena.document ∧ arena.showings.length = 3 := by
  have fresh : poster.Unplanned := by
    rintro _ ⟨⟩
    simp [Plan.Blank, Plan.emitted, Plan.emittedAll, Node.isLive, Layer.isLive, Plan.pictures, Node.layer,
      Layer.plain, Annotations.none]
  obtain ⟨ledger, planned, resolution, stages, three⟩ := poster_stages
  obtain ⟨compilation, arena, _, _, done, _, _, document, _, shown, _, labels, _⟩ :=
    Compilation.shows_planned stages
  have same := congrArg List.length labels
  rw [List.length_map, List.length_map, three] at same
  exact ⟨ledger, compilation, arena, fresh, done, document,
    by rw [(shown fresh).length_eq, List.length_map, same]⟩

end DesignCompiler
