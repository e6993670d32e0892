import DesignCompiler.Proofs.Recompile
import DesignCompiler.Proofs.Recognition

/-!
Whose picture reuse shows. Assets are carried over by the ids of nodes: an unchanged node gets a picture
of its own hash back, and a changed node that shares its id gets that picture as well.
-/
namespace DesignCompiler

variable {α : Type} [Scalar α]

/-- Some live node has a picture of the hash that shows the asset. -/
def Plan.Shows (root : Node α) (hash asset : String) : Prop :=
  ∃ node ∈ Plan.emitted root, ∃ picture ∈ Plan.pictures node,
    picture.hash = hash ∧ picture.asset = some asset

namespace Diff

/-- Reuse fills a picture of a live node with an asset. -/
def Fills (reuse : List (String × String)) (root node : Node α) (picture : Picture)
    (asset : String) : Prop :=
  ∃ later, (node, later) ∈ (Plan.emitted root).zip (Plan.emitted (applyReuse reuse root).1) ∧
    picture.asset = none ∧
    (node.layer.annotations.raster = some picture ∧
        later.layer.annotations.raster = some { picture with asset := some asset } ∨
      node.layer.annotations.background = some picture ∧
        later.layer.annotations.background = some { picture with asset := some asset })

variable {reuse : List (String × String)} {root node : Node α} {picture : Picture} {asset : String}

omit [Scalar α] in
theorem mem_zip_applyReuse {later : Node α} :
    (node, later) ∈ (Plan.emitted root).zip (Plan.emitted (applyReuse reuse root).1) ↔
      node ∈ Plan.emitted root ∧ later = node.revise (carrying reuse) := by
  have pairs := List.zip_map' (f := id) (g := Node.revise (carrying reuse)) (l := Plan.emitted root)
  rw [List.map_id] at pairs
  rw [applyReuse_eq, Node.emitted_revise (refills_carrying reuse).life, pairs]
  simp [eq_comm]

omit [Scalar α] in
/-- Reuse fills just the open pictures that stand for nodes whose ids have assets. -/
theorem fills_iff : Fills reuse root node picture asset ↔ node ∈ Plan.emitted root ∧
    picture.asset = none ∧ node.layer.annotations.primary = some picture ∧
    reuse.lookup node.layer.id = some asset := by
  simp only [Fills, mem_zip_applyReuse]
  constructor
  · rintro ⟨_, ⟨live, rfl⟩, unfilled, filled⟩
    refine ⟨live, unfilled, ?_⟩
    simp only [Node.layer_revise, Layer.revised, carrying_eq, carry_eq] at filled
    rcases filled with ⟨raster, filled⟩ | ⟨background, filled⟩
    · rw [raster, Option.map_some, fillPicture_of_none unfilled] at filled
      refine ⟨by simp [Annotations.primary, raster], ?_⟩
      simpa using filled
    · cases raster : node.layer.annotations.raster with
      | some own =>
        rw [raster, background] at filled
        have same := congrArg Picture.asset (Option.some.inj filled)
        simp [unfilled] at same
      | none =>
        rw [raster, background, Option.isSome_none, Option.map_some, fillPicture_of_none unfilled] at filled
        refine ⟨by simp [Annotations.primary, raster, background], ?_⟩
        simpa using filled
  · rintro ⟨live, unfilled, primary, held⟩
    refine ⟨_, ⟨live, rfl⟩, unfilled, ?_⟩
    simp only [Node.layer_revise, Layer.revised, carrying_eq, carry_eq, held]
    rcases Option.or_eq_some_iff.mp primary with raster | ⟨raster, background⟩
    · refine .inl ⟨raster, ?_⟩
      rw [raster, Option.map_some, fillPicture_of_none unfilled]
    · refine .inr ⟨background, ?_⟩
      simp [raster, background, fillPicture_of_none unfilled]

end Diff

namespace PlannedDesign

variable {planned : PlannedDesign α} {lookup : String → Option String} {nodes : List (Node α)}
  {node : Node α} {asset : String}

section First

omit [Scalar α]

theorem required_of_job {job : UploadJob} (member : job ∈ planned.jobs) :
    job.hash ∈ Plan.requiredHashes planned.root := by
  obtain ⟨node, live, picture, listed, _, same⟩ :=
    Plan.mem_pendingJobs.mp (List.mem_map_of_mem (f := (·.hash)) member)
  rw [← (Diff.refills_carrying planned.diff.reuse).requiredHashes, Plan.requiredHashes,
    List.mem_eraseDups, ← same]
  exact List.mem_map_of_mem (List.mem_flatMap.mpr ⟨node, live, listed⟩)

theorem filled_first (fresh : planned.diff.reuse = []) (layer : Layer α) :
    planned.filled lookup layer = Plan.fillNotes lookup layer.annotations := by
  rw [filled, Plan.filling, Layer.revised, Diff.carrying_eq, fresh]
  rfl

/-- Without a previous run every hash required shows the asset found for it, and no other. -/
theorem shows_first (fresh : planned.diff.reuse = [])
    (blank : ∀ node ∈ Plan.emitted planned.root, ∀ picture ∈ Plan.pictures node, picture.asset = none)
    {hash asset : String} : Plan.Shows (planned.resolved lookup) hash asset ↔
      hash ∈ Plan.requiredHashes planned.root ∧ lookup hash = some asset := by
  have life := (planned.refills_filled lookup).life
  have list : ∀ node : Node α, Plan.pictures (node.revise (planned.filled lookup)) =
      (Plan.pictures node).map (Plan.fillPicture lookup) := by
    intro node
    rw [Plan.pictures_eq, Node.layer_revise, Layer.revised, filled_first fresh]
    simp [Plan.fillNotes, Plan.pictures, Annotations.pictures, Option.toList_map]
  simp only [Plan.Shows, resolved, Node.emitted_revise life, List.mem_map, exists_exists_and_eq_and, list,
    Plan.requiredHashes, List.mem_eraseDups, List.mem_flatMap]
  constructor
  · rintro ⟨node, live, picture, listed, same, shown⟩
    rw [fillPicture_of_none (blank node live picture listed)] at same shown
    exact ⟨⟨picture, ⟨node, live, listed⟩, same⟩, same ▸ shown⟩
  · rintro ⟨⟨picture, ⟨node, live, listed⟩, rfl⟩, found⟩
    refine ⟨node, live, picture, listed, ?_⟩
    rw [fillPicture_of_none (blank node live picture listed)]
    exact ⟨rfl, found⟩

end First

theorem shows_of_carried (apart : KeepsApart nodes (Plan.emitted planned.root)) (member : node ∈ nodes)
    (carried : Diff.carried? (some (planned.resolved lookup).snapshot) node = some asset) :
    ∃ whole, node.layer.annotations.primary = some whole ∧
      Plan.Shows (planned.resolved lookup) whole.hash asset := by
  have refills := planned.refills_filled lookup
  rw [Diff.carried?, Diff.held?, Option.bind_some, Snapshot.get?_snapshot] at carried
  obtain ⟨entry, found, given⟩ := Option.bind_eq_some_iff.mp carried
  obtain ⟨later, first, rfl⟩ := Option.map_eq_some_iff.mp found
  have live := (Node.backwards_perm _).mem_iff.mp
    (List.mem_reverse.mp (List.mem_of_find?_eq_some first))
  have listed := live
  rw [resolved, Node.emitted_revise refills.life] at listed
  obtain ⟨origin, there, rfl⟩ := List.mem_map.mp listed
  split at given
  · rename_i same
    -- the entry keeps the fingerprint that the planned node had before its pictures were filled
    rw [Node.snapshotEntry, refills.fingerprint] at same
    obtain ⟨raster, background⟩ := Node.hashes_of_canonical (apart node member origin there same.symm)
    obtain ⟨filled, primary, shown⟩ := Option.bind_eq_some_iff.mp given
    rw [Plan.primary, Node.layer_revise] at primary
    have hash : node.layer.annotations.primary.map (·.hash) = some filled.hash := by
      rw [Annotations.primary, Option.map_or, raster, background, ← Option.map_or]
      refine (refills.primary origin.layer).symm.trans ?_
      exact congrArg (Option.map (·.hash)) primary
    obtain ⟨whole, own, equal⟩ := Option.map_eq_some_iff.mp hash
    refine ⟨whole, own, _, live, filled, ?_, equal.symm, shown⟩
    rw [Plan.pictures_eq, Node.layer_revise]
    exact Annotations.mem_of_primary primary
  · simp at given

end PlannedDesign

namespace Compilation

open Store (Yields Uploader)

/-- A picture that reuse fills after a run gets an asset which that run used for the picture of an
unchanged node with the same id. If the node itself is unchanged, or no id is repeated, it is the right
one; if the asset was used for one hash only, it is so just if both pictures have the same hash. -/
theorem fills_after_run {σ : Type} [Host (StateM σ)] {config : Config α}
    {uploader : Uploader (StateM σ)} {previous : Option (Snapshot α)} {manifest : Manifest α}
    {before after : Store.Ledger × σ} {first : Compilation α}
    (done : Yields (run config uploader previous manifest) before (.ok first) after) :
    ∃ planned resolution final,
      Stages config uploader previous manifest before after planned resolution ∧
      final = planned.resolved (resolution.resolved.lookup ·) ∧ first.snapshot = final.snapshot ∧
      ∀ {config : Config α} {manifest : Manifest α} {next : PlannedDesign α},
        PlannedDesign.of config (some first.snapshot) manifest = .ok next →
        KeepsApart (Plan.emitted next.root) (Plan.emitted planned.root) →
        ∀ {node : Node α} {picture : Picture} {asset : String},
          Diff.Fills next.diff.reuse next.root node picture asset →
          ∃ source ∈ Plan.emitted next.root, source.layer.id = node.layer.id ∧
            Diff.isUnchanged (some first.snapshot) source = true ∧
            ∃ whole, source.layer.annotations.primary = some whole ∧
              Plan.Shows final whole.hash asset ∧
              (Diff.isUnchanged (some first.snapshot) node = true →
                Plan.Shows final picture.hash asset) ∧
              (((Plan.emitted next.root).map (·.layer.id)).Nodup →
                Plan.Shows final picture.hash asset) ∧
              ((∀ hash, Plan.Shows final hash asset → hash = whole.hash) →
                (Plan.Shows final picture.hash asset ↔ picture.hash = whole.hash)) := by
  obtain ⟨planned, resolution, stages, finished⟩ := stages_of_run done
  obtain ⟨arena, log, assembled, rfl⟩ := finish_eq_ok.mp finished
  refine ⟨planned, resolution, _, stages, rfl, rfl, ?_⟩
  intro config manifest next plan apart node picture asset fills
  obtain ⟨live, unfilled, primary, held⟩ := Diff.fills_iff.mp fills
  rw [(PlannedDesign.of_other plan).1, Diff.lookup_reuse] at held
  obtain ⟨source, there, same, carried⟩ := held
  obtain ⟨whole, own, shown⟩ := PlannedDesign.shows_of_carried apart there carried
  refine ⟨source, there, same, (Diff.carried_eq_some.mp carried).1, whole, own, shown, ?_, ?_, ?_⟩
  · intro unchanged
    obtain ⟨held, mine, right⟩ :=
      PlannedDesign.shows_of_carried apart live (Diff.carried_of_same same carried unchanged)
    rw [primary] at mine
    rwa [Option.some.inj mine]
  · intro distinct
    rw [List.inj_on_of_nodup_map distinct there live same, primary] at own
    rwa [Option.some.inj own]
  · intro single
    exact ⟨single _, fun equal => equal ▸ shown⟩

def bloom (id hash : String) : Node Rat :=
  .shape { Layer.plain id hash ⟨0, 0, 10, 10⟩ with fills := [.image ⟨true, 1, some hash, none⟩] } .rectangle

def bouquet (root : Node Rat) : Manifest Rat := ⟨some root, [], [], .empty⟩

def florist : Store.Ledger := ⟨none, [("rose", ⟨"101", ⟨0, 0⟩⟩), ("iris", ⟨"202", ⟨0, 0⟩⟩)]⟩

/-- Whoever needs no other flowers goes through its stages with those of the ledger. -/
theorem florist_stages {previous : Option (Snapshot Rat)} {root : Node Rat}
    {planned : PlannedDesign Rat} (plan : PlannedDesign.of plain previous (bouquet root) = .ok planned)
    (known : ∀ hash ∈ Plan.requiredHashes planned.root, hash = "rose" ∨ hash = "iris") :
    ∃ resolution, Stages plain Uploader.disabled previous (bouquet root)
        (florist, Machine.ofDisk .empty) (florist, Machine.ofDisk .empty) planned resolution ∧
      ∀ job ∈ planned.jobs, resolution.resolved.lookup job.hash = florist.asset? job.hash := by
  refine Stages.of_known _ _ plan (checkDeclared_eq_ok.mpr (by simp [bouquet])) ?_
  intro job member
  rcases known _ (PlannedDesign.required_of_job member) with same | same
  · rw [same]
    rfl
  · rw [same]
    rfl

/-- A picture compiled twice gets its asset back. -/
theorem rose_again : ∃ (first : Compilation Rat) (final node : Node Rat) (next : PlannedDesign Rat)
    (asset : String),
    Yields (run plain Uploader.disabled none (bouquet (bloom "0" "rose"))) (florist, Machine.ofDisk .empty)
      (.ok first) (florist, Machine.ofDisk .empty) ∧
    first.snapshot = final.snapshot ∧
    PlannedDesign.of plain (some first.snapshot) (bouquet (bloom "0" "rose")) = .ok next ∧
    Diff.Fills next.diff.reuse next.root node ⟨"rose", none⟩ asset ∧ Plan.Shows final "rose" asset := by
  obtain ⟨planned, plan, emitted, primary, required⟩ : ∃ planned,
      PlannedDesign.of plain none (bouquet (bloom "0" "rose")) = .ok planned ∧
      Plan.emitted planned.root = [planned.root] ∧
      planned.root.layer.annotations.primary = some ⟨"rose", none⟩ ∧
      Plan.requiredHashes planned.root = ["rose"] := ⟨_, rfl, rfl, rfl, rfl⟩
  obtain ⟨_, stages, _⟩ := florist_stages plan (by simp [required])
  obtain ⟨first, _, _, done, _⟩ := stages.compiled
  obtain ⟨earlier, resolution, final, stages, rfl, snapshot, fills⟩ := fills_after_run done
  obtain rfl : planned = earlier := Except.ok.inj (plan.symm.trans stages.plan)
  have distinct : ((Plan.emitted planned.root).map (·.layer.id)).Nodup := by simp [emitted]
  have live : planned.root ∈ Plan.emitted planned.root := by simp [emitted]
  have whole : ((planned.filled (resolution.resolved.lookup ·) planned.root.layer).primary.bind
      (·.asset)).isSome = true := PlannedDesign.primary_filled stages.found live _ primary
  obtain ⟨asset, given⟩ := Option.isSome_iff_exists.mp whole
  have planNext : PlannedDesign.of plain (some first.snapshot) (bouquet (bloom "0" "rose")) =
      .ok (planned.again (resolution.resolved.lookup ·)) :=
    snapshot ▸ PlannedDesign.of_again plan _
  have filled : Diff.Fills (planned.again (resolution.resolved.lookup ·)).diff.reuse planned.root
      planned.root ⟨"rose", none⟩ asset :=
    Diff.fills_iff.mpr ⟨live, rfl, primary, (PlannedDesign.lookup_again distinct live).trans given⟩
  have apart : KeepsApart (Plan.emitted planned.root) (Plan.emitted planned.root) := by
    rw [emitted]
    intro node member other listed _
    rw [List.mem_singleton.mp member, List.mem_singleton.mp listed]
  obtain ⟨_, _, _, _, _, _, _, _, right, _⟩ := fills planNext apart filled
  exact ⟨first, _, _, _, asset, done, snapshot, planNext, filled, right distinct⟩

def twins : Manifest Rat :=
  bouquet (.container (Layer.plain "0" "twins" ⟨0, 0, 100, 100⟩) ⟨.frame, none, false⟩
    [bloom "1" "rose", bloom "1" "iris"])

private theorem twins_planned : ∃ planned screen rose iris,
    PlannedDesign.of plain none twins = .ok planned ∧ planned.diff.reuse = [] ∧
    planned.root.backwards = [screen, iris, rose] ∧ Plan.emitted planned.root = [screen, rose, iris] ∧
    screen.layer.id = "0" ∧ rose.layer.id = "1" ∧ iris.layer.id = "1" ∧
    rose.layer.annotations.raster = some ⟨"rose", none⟩ ∧
    iris.layer.annotations.raster = some ⟨"iris", none⟩ ∧
    (∀ node ∈ Plan.emitted planned.root, ∀ picture ∈ Plan.pictures node, picture.asset = none) ∧
    Plan.requiredHashes planned.root = ["rose", "iris"] ∧
    planned.jobs.map (·.hash) = ["rose", "iris"] := by
  refine ⟨_, _, _, _, rfl, rfl, rfl, rfl, rfl, rfl, rfl, rfl, rfl, ?_, rfl, rfl⟩
  intro node live picture member
  have listed : picture ∈ [⟨"rose", none⟩, ⟨"iris", none⟩] := List.mem_flatMap.mpr ⟨node, live, member⟩
  rcases List.mem_cons.mp listed with rfl | listed
  · rfl
  · rw [List.mem_singleton.mp listed]

/-- In the second run of a design with a repeated id a changed node gets the picture of the other one. -/
theorem twins_swapped : ∃ (first second : Compilation Rat) (planned next : PlannedDesign Rat)
    (resolution : Store.Resolution) (node : Node Rat),
    Yields (run plain Uploader.disabled none twins) (florist, Machine.ofDisk .empty) (.ok first)
      (florist, Machine.ofDisk .empty) ∧
    Stages plain Uploader.disabled none twins (florist, Machine.ofDisk .empty)
      (florist, Machine.ofDisk .empty) planned resolution ∧
    Yields (run plain Uploader.disabled (some first.snapshot) twins) (florist, Machine.ofDisk .empty)
      (.ok second) (florist, Machine.ofDisk .empty) ∧
    PlannedDesign.of plain (some first.snapshot) twins = .ok next ∧
    Diff.Fills next.diff.reuse next.root node ⟨"iris", none⟩ "101" ∧
    Plan.Shows (planned.resolved (resolution.resolved.lookup ·)) "iris" "202" ∧
    ¬Plan.Shows (planned.resolved (resolution.resolved.lookup ·)) "iris" "101" := by
  obtain ⟨planned, screen, rose, iris, plan, fresh, backwards, emitted, screenId, roseId, irisId,
    roseRaster, irisRaster, blank, required, jobs⟩ := twins_planned
  have known : ∀ hash ∈ Plan.requiredHashes planned.root, hash = "rose" ∨ hash = "iris" := by
    simp [required]
  obtain ⟨resolution, stages, found⟩ := florist_stages plan known
  have lookups : ∀ hash ∈ ["rose", "iris"],
      resolution.resolved.lookup hash = florist.asset? hash := by
    rw [← jobs]
    intro hash listed
    obtain ⟨job, member, rfl⟩ := List.mem_map.mp listed
    exact found job member
  obtain ⟨first, _, _, done, _, _, snapshot, _⟩ := stages.compiled
  -- the design is the same, so all but the diff is planned again as before
  have planNext : PlannedDesign.of plain (some first.snapshot) twins =
      .ok (planned.again (resolution.resolved.lookup ·)) :=
    snapshot ▸ PlannedDesign.of_again plan _
  obtain ⟨_, stagesNext, _⟩ := florist_stages planNext known
  obtain ⟨second, _, _, doneNext, _⟩ := stagesNext.compiled
  refine ⟨first, second, planned, _, resolution, iris, done, stages, doneNext, planNext, ?_, ?_, ?_⟩
  · refine Diff.fills_iff.mpr ⟨?_, rfl, ?_, ?_⟩
    · rw [show (planned.again _).root = planned.root from rfl, emitted]
      simp
    · rw [Annotations.primary, irisRaster, Option.some_or]
    · have kept : (planned.root.backwards.reverse.find? fun node => node.layer.id == "1") =
          some rose := by simp [backwards, roseId]
      rw [irisId, PlannedDesign.lookup_of_kept kept, PlannedDesign.filled_first fresh]
      simp only [Plan.fillNotes, Annotations.primary, roseRaster, Option.map_some, Option.some_or,
        Option.bind_some]
      exact lookups "rose" (by simp)
  · rw [PlannedDesign.shows_first fresh blank, required, lookups "iris" (by simp)]
    exact ⟨by simp, rfl⟩
  · rw [PlannedDesign.shows_first fresh blank, lookups "iris" (by simp)]
    rintro ⟨_, shown⟩
    exact absurd shown (by decide)

end Compilation
end DesignCompiler
