import DesignCompiler.Proofs.Compiling
import DesignCompiler.Proofs.LegalDocuments
import DesignCompiler.Proofs.Tallying
import Mathlib.Data.Set.Card

/-!
The report of a run, held against what the run did. Its counts come from different stages: the jobs that
reuse leaves, the ledger, the assets to reuse, the stroke pass and the arena. All of them are about the one
tree that the document shows.
-/
namespace DesignCompiler

open Store (Ledger Uploader Yields)

theorem ncard_mem {β : Type} {listed : List β} (distinct : listed.Nodup) :
    {item | item ∈ listed}.ncard = listed.length := by
  classical
  rw [← List.coe_toFinset, Set.ncard_coe_finset, List.toFinset_card_of_nodup distinct]

theorem nodup_eraseDups {β : Type} [BEq β] [LawfulBEq β] : (listed : List β) → listed.eraseDups.Nodup
  | [] => List.nodup_nil
  | head :: rest => by
    rw [List.eraseDups_cons, List.nodup_cons, List.mem_eraseDups]
    exact ⟨by simp, nodup_eraseDups (rest.filter fun item => !item == head)⟩
termination_by listed => listed.length
decreasing_by exact Nat.lt_succ_of_le (List.length_filter_le _ rest)

theorem Store.keys_served (ledger : Ledger) (jobs : List UploadJob) : (served ledger jobs).map (·.1) =
    (jobs.map (·.hash)).eraseDups.filter fun hash => (ledger.asset? hash).isSome := by
  rw [served, List.map_filterMap, ← List.filterMap_eq_filter]
  refine congrArg (List.filterMap · _) (funext fun hash => ?_)
  cases held : ledger.asset? hash with
  | some asset => simp [Option.guard, held]
  | none => simp [Option.guard, held]

/-- Where the assets of a hash come from. -/
inductive Source where
  | reuse | ledger | store
deriving DecidableEq, Repr

variable {α : Type} [Scalar α]

namespace Compilation

/-- A hash has its assets from a source: reuse has filled all of its pictures; or it has left one open, and
the ledger had the asset for that; or the store gave the asset in the run. -/
def Supplies (planned : PlannedDesign α) (ledger : Ledger) (events : List Event) (final : Node α)
    (hash : String) : Source → Prop
  | .reuse => ∀ node ∈ Plan.emitted (Diff.applyReuse planned.diff.reuse planned.root).1,
      ∀ picture ∈ Plan.pictures node, picture.hash = hash → picture.asset.isSome = true
  | .ledger => ∃ asset, ledger.asset? hash = some asset ∧ Plan.Shows final hash asset ∧
      ∃ node ∈ Plan.emitted (Diff.applyReuse planned.diff.reuse planned.root).1,
        ∃ picture ∈ Plan.pictures node, picture.hash = hash ∧ picture.asset = none
  | .store => ∃ asset, (hash, asset) ∈ completions none events ∧ Plan.Shows final hash asset

/-- What a run may start from: no previous run, or the snapshot of one whose nodes the digest keeps apart from
those of this run. -/
inductive Starts (nodes : List (Node α)) : Option (Snapshot α) → Prop where
  | first : Starts nodes none
  | again {σ : Type} [Host (StateM σ)] {config : Config α} {uploader : Uploader (StateM σ)}
      {previous : Option (Snapshot α)} {manifest : Manifest α} {before after : Ledger × σ}
      {compilation : Compilation α} {planned : PlannedDesign α}
      (done : Yields (run config uploader previous manifest) before (.ok compilation) after)
      (plan : PlannedDesign.of config previous manifest = .ok planned)
      (apart : KeepsApart nodes (Plan.emitted planned.root)) : Starts nodes (some compilation.snapshot)

end Compilation

omit [Scalar α] in
theorem Plan.length_requiredHashes (root : Node α) : (requiredHashes root).length =
    {hash | ∃ wanted ∈ (emitted root).flatMap wantedPictures, wanted.picture.hash = hash}.ncard := by
  have distinct : (requiredHashes root).Nodup := nodup_eraseDups _
  rw [← ncard_mem distinct]
  exact congrArg Set.ncard (Set.ext fun hash => mem_requiredHashes)

namespace PlannedDesign

variable {config : Config α} {previous : Option (Snapshot α)} {manifest : Manifest α}
  {next : PlannedDesign α}

omit [Scalar α] in
theorem Needs.required {lookup : String → Option String} {hash : String} (needs : next.Needs hash) :
    hash ∈ Plan.requiredHashes (next.resolved lookup) := by
  obtain ⟨job, member, rfl⟩ := List.mem_map.mp needs
  rw [resolved, (next.refills_filled lookup).requiredHashes]
  exact required_of_job member

/-- Whoever is handed an asset has a picture for it. -/
theorem exists_primary (starts : Compilation.Starts (Plan.emitted next.root) previous) {node : Node α}
    (live : node ∈ Plan.emitted next.root) {asset : String}
    (carried : Diff.carried? previous node = some asset) :
    ∃ whole, node.layer.annotations.primary = some whole := by
  cases starts with
  | first => cases carried
  | again done plan apart =>
    obtain ⟨planned, resolution, stages, finished⟩ := Compilation.stages_of_run done
    obtain ⟨_, _, _, rfl⟩ := Compilation.finish_eq_ok.mp finished
    obtain rfl := Except.ok.inj (plan.symm.trans stages.plan)
    obtain ⟨whole, own, _⟩ := shows_of_carried apart live carried
    exact ⟨whole, own⟩

theorem reused_eq (plan : of config previous manifest = .ok next) (fresh : manifest.Unplanned)
    (distinct : next.root.liveIds.Nodup)
    (starts : Compilation.Starts (Plan.emitted next.root) previous) :
    Compilation.reusedOf next = next.diff.reuse.length := by
  have diff := (of_other plan).1
  refine Diff.length_reuse ?_ distinct ?_
  · rw [diff]
    exact (Diff.sorted_reuse next.root previous).imp fun less => less.ne
  · intro id listed
    obtain ⟨asset, held⟩ := Option.isSome_iff_exists.mp (isSome_lookup.mpr listed)
    rw [diff, Diff.lookup_reuse] at held
    obtain ⟨node, live, same, carried⟩ := held
    obtain ⟨whole, own⟩ := exists_primary starts live carried
    refine ⟨node, live, same, whole, own, ?_⟩
    cases unfilled : whole.asset with
    | none => rfl
    | some other =>
      exact absurd ⟨node, live, whole, Annotations.mem_of_primary own, rfl, unfilled⟩
        (not_shows_planned fresh plan)

end PlannedDesign

namespace Compilation

section Sources

variable {config : Config α} {available : Bool} {previous : Option (Snapshot α)} {manifest : Manifest α}
  {next : PlannedDesign α} {ledger kept : Ledger} {events : List Event} {final : Node α}
  {compilation : Compilation α} {hash : String}

omit [Scalar α] in
theorem needs_iff : next.Needs hash ↔ ∃ node ∈ Plan.emitted (Diff.applyReuse next.diff.reuse next.root).1,
    ∃ picture ∈ Plan.pictures node, picture.hash = hash ∧ picture.asset = none := by
  rw [PlannedDesign.Needs, PlannedDesign.jobs, Plan.mem_pendingJobs, PlannedDesign.carried,
    ← Diff.applyReuse_eq]
  simp only [Plan.pictures_eq, and_comm]

omit [Scalar α] in
/-- Reuse has filled all pictures of a hash just if the hash is not needed any more. -/
theorem supplies_reuse : Supplies next ledger events final hash .reuse ↔ ¬next.Needs hash := by
  rw [needs_iff, Supplies]
  simp only [not_exists, not_and, Option.isSome_iff_ne_none, ne_eq]

variable (compiling : Compiling config available previous manifest ledger (.ok compilation) events kept)

include compiling

theorem Compiling.supplies_ledger : Supplies next ledger events (next.resolved kept.asset?) hash .ledger ↔
    next.Needs hash ∧ (ledger.asset? hash).isSome = true := by
  rw [Supplies, ← needs_iff, Option.isSome_iff_exists]
  constructor
  · rintro ⟨asset, held, _, needs⟩
    exact ⟨needs, asset, held⟩
  · rintro ⟨needs, asset, held⟩
    exact ⟨asset, held, PlannedDesign.shows_resolved.mpr (.inr ⟨needs, compiling.keeps held⟩), needs⟩

variable (plan : PlannedDesign.of config previous manifest = .ok next)

include plan

/-- What a run that succeeds has from the ledger and from the store. -/
theorem Compiling.sorted : (completions none events).map (·.1) = Store.wanted ledger next.jobs ∧
    compilation.report.cacheHits = (Store.served ledger next.jobs).length := by
  cases compiling with
  | compiled plan' _ resolving _ finished =>
    obtain rfl := Except.ok.inj (plan.symm.trans plan')
    obtain ⟨_, _, _, rfl⟩ := finish_eq_ok.mp finished
    obtain ⟨completed, _, hits⟩ := resolving.ok rfl
    exact ⟨completed, hits⟩

/-- The store gives what is needed and lacking. -/
theorem Compiling.supplies_store : Supplies next ledger events (next.resolved kept.asset?) hash .store ↔
    next.Needs hash ∧ ledger.asset? hash = none := by
  have wanted : hash ∈ (completions none events).map (·.1) ↔ next.Needs hash ∧ ledger.asset? hash = none := by
    rw [(compiling.sorted plan).1, Store.mem_wanted]
    rfl
  rw [Supplies]
  constructor
  · rintro ⟨asset, given, _⟩
    exact wanted.mp (List.mem_map_of_mem given)
  · intro lacking
    obtain ⟨⟨other, asset⟩, given, same⟩ := List.mem_map.mp (wanted.mpr lacking)
    obtain rfl : other = hash := same
    have held : kept.asset? other = some asset := by
      rw [compiling.assets, (lookup_eq_some_iff compiling.fresh.1).mpr given, Option.some_or]
    exact ⟨asset, given, PlannedDesign.shows_resolved.mpr (.inr ⟨lacking.1, held⟩)⟩

/-- No hash has its assets from two sources, and none from nowhere. -/
theorem Compiling.exists_unique_source :
    ∃! source, Supplies next ledger events (next.resolved kept.asset?) hash source := by
  by_cases needs : next.Needs hash
  · cases held : ledger.asset? hash with
    | some asset =>
      refine ⟨.ledger, compiling.supplies_ledger.mpr ⟨needs, by rw [held, Option.isSome_some]⟩, ?_⟩
      intro source supplied
      cases source with
      | reuse => exact absurd needs (supplies_reuse.mp supplied)
      | ledger => rfl
      | store => exact absurd held (by simp [((compiling.supplies_store plan).mp supplied).2])
    | none =>
      refine ⟨.store, (compiling.supplies_store plan).mpr ⟨needs, held⟩, ?_⟩
      intro source supplied
      cases source with
      | reuse => exact absurd needs (supplies_reuse.mp supplied)
      | ledger => exact absurd (compiling.supplies_ledger.mp supplied).2 (by simp [held])
      | store => rfl
  · refine ⟨.reuse, supplies_reuse.mpr needs, ?_⟩
    intro source supplied
    cases source with
    | reuse => rfl
    | ledger => exact absurd (compiling.supplies_ledger.mp supplied).1 needs
    | store => exact absurd ((compiling.supplies_store plan).mp supplied).1 needs

end Sources

/-- What a report says, held against its run: `final` is the tree that the document shows, `arena` what the
document is written from, and `events` is what was asked of the machine and the store. -/
structure Accounts (planned : PlannedDesign Float) (ledger : Ledger) (events : List Event)
    (final : Node Float) (arena : Arena Float) (compilation : Compilation Float) : Prop where
  /-- Before reuse no picture has an asset. -/
  open_before : ∀ node ∈ Plan.emitted planned.root, ∀ picture ∈ Plan.pictures node, picture.asset = none
  sources : ∀ hash ∈ Plan.requiredHashes final, ∃! source, Supplies planned ledger events final hash source
  cached : compilation.report.cacheHits =
    {hash | hash ∈ Plan.requiredHashes final ∧ Supplies planned ledger events final hash .ledger}.ncard
  stored : compilation.report.uploaded.length =
    {hash | hash ∈ Plan.requiredHashes final ∧ Supplies planned ledger events final hash .store}.ncard
  uploaded : compilation.report.uploaded = (completions none events).map (·.1)
  shown : arena.showings.Perm
    (((Plan.emitted final).flatMap Plan.wantedPictures).map Plan.WantedPicture.showing)
  required : compilation.report.requiredAssets =
    {hash | ∃ wanted ∈ (Plan.emitted final).flatMap Plan.wantedPictures, wanted.picture.hash = hash}.ncard
  reused : compilation.report.reused = compilation.diff.reuse.length
  instances : ∃ forest, Listing.read? compilation.document = some forest ∧
    Listing.Recovers arena.edits forest ∧
    compilation.report.instances = (Listing.allWhole forest).length
  copies : compilation.report.strokeDuplicates = final.copies

section Counts

variable {α : Type} [Scalar α] {config : Config α} {available : Bool} {previous : Option (Snapshot α)}
  {manifest : Manifest α} {next : PlannedDesign α} {ledger kept : Ledger} {events : List Event}
  {compilation : Compilation α}
  (compiling : Compiling config available previous manifest ledger (.ok compilation) events kept)
  (plan : PlannedDesign.of config previous manifest = .ok next)

include compiling plan

theorem Compiling.cacheHits_eq : compilation.report.cacheHits =
    {hash | hash ∈ Plan.requiredHashes (next.resolved kept.asset?) ∧
      Supplies next ledger events (next.resolved kept.asset?) hash .ledger}.ncard := by
  have keys : ((Store.served ledger next.jobs).map (·.1)).Nodup := by
    rw [Store.keys_served]
    exact (nodup_eraseDups _).filter _
  rw [(compiling.sorted plan).2, ← List.length_map (f := (·.1)), ← ncard_mem keys]
  refine congrArg Set.ncard (Set.ext fun hash => ?_)
  rw [Set.mem_ofPred_eq, Set.mem_ofPred_eq, Store.keys_served, List.mem_filter, List.mem_eraseDups,
    compiling.supplies_ledger]
  exact ⟨fun held => ⟨PlannedDesign.Needs.required held.1, held⟩, And.right⟩

theorem Compiling.uploaded_eq : compilation.report.uploaded = (completions none events).map (·.1) ∧
    compilation.report.uploaded.length = {hash | hash ∈ Plan.requiredHashes (next.resolved kept.asset?) ∧
      Supplies next ledger events (next.resolved kept.asset?) hash .store}.ncard := by
  have wanted := compiling.uploaded_wanted plan rfl
  refine ⟨wanted.trans (compiling.sorted plan).1.symm, ?_⟩
  rw [wanted, ← ncard_mem (Store.nodup_wanted ledger next.jobs)]
  refine congrArg Set.ncard (Set.ext fun hash => ?_)
  rw [Set.mem_ofPred_eq, Set.mem_ofPred_eq, Store.mem_wanted, compiling.supplies_store plan]
  exact ⟨fun lacking => ⟨PlannedDesign.Needs.required lacking.1, lacking⟩, And.right⟩

end Counts

section World

variable {σ : Type} [Host (StateM σ)]

/-- What is assembled shows all that is to be shown for live nodes, and nothing else. -/
theorem Stages.shown {α : Type} [Scalar α] {config : Config α} {uploader : Uploader (StateM σ)}
    {previous : Option (Snapshot α)} {manifest : Manifest α} {before after : Ledger × σ}
    {planned : PlannedDesign α} {resolution : Store.Resolution}
    (stages : Stages config uploader previous manifest before after planned resolution)
    (fresh : manifest.Unplanned) {arena : Arena α} {log : Diagnostics}
    (assembled : (Assembly.assemble planned.rules config.text
      (planned.resolved (resolution.resolved.lookup ·))).run ⟨planned.warnings, []⟩ = .ok (arena, log)) :
    arena.showings.Perm (((Plan.emitted (planned.resolved (resolution.resolved.lookup ·))).flatMap
      Plan.wantedPictures).map Plan.WantedPicture.showing) := by
  obtain ⟨arena', log', assembled', shown⟩ := stages.assembled
  obtain ⟨rfl, _⟩ := Prod.mk.inj (Except.ok.inj (assembled'.symm.trans assembled))
  rw [List.map_flatMap, PlannedDesign.flatMap_resolved fresh stages.plan]
  · exact shown
  · intro node blank
    rw [List.map_eq_nil_iff, ← List.map_eq_nil_iff (f := (·.picture)), Plan.map_picture_wantedPictures, blank]

/-- The report of every run that succeeds is true of it, if no two live nodes share an id, nothing is noted
about the design, and the snapshot that the run started from, if any, was left by a run. Nothing is noted about
any manifest that was read from a file. -/
theorem accounts_of_run {config : Config Float}
    {uploader : Uploader (StateM σ)} {previous : Option (Snapshot Float)} {manifest : Manifest Float}
    {ledger kept : Ledger} {world later : σ} {compilation : Compilation Float}
    {planned : PlannedDesign Float} (plan : PlannedDesign.of config previous manifest = .ok planned)
    (fresh : ∀ root, manifest.root = some root → root.Fresh ∧ root.liveIds.Nodup)
    (starts : Starts (Plan.emitted planned.root) previous)
    (done : Yields (run config uploader previous manifest) (ledger, world) (.ok compilation) (kept, later)) :
    ∃ events arena log final,
      Yields (run config uploader.watched previous manifest) (ledger, ⟨world, []⟩) (.ok compilation)
        (kept, ⟨later, events⟩) ∧
      final = planned.resolved kept.asset? ∧
      (Assembly.assemble planned.rules config.text final).run ⟨planned.warnings, []⟩ = .ok (arena, log) ∧
      compilation.document = arena.document ∧ compilation.snapshot = final.snapshot ∧
      Accounts planned ledger events final arena compilation := by
  -- the same run, once as it is and once with its calls written down, which is what the counts are about
  obtain ⟨result, events, kept', later', told, compiling⟩ :=
    run_tells config uploader previous manifest ledger world
  obtain ⟨same, rfl⟩ : (result, kept') = (.ok compilation, kept) ∧ later' = later :=
    Prod.mk.inj (told.plain.symm.trans done)
  obtain ⟨rfl, rfl⟩ := Prod.mk.inj same
  obtain ⟨planned', resolution, stages, finished⟩ := stages_of_run done
  obtain rfl := Except.ok.inj (plan.symm.trans stages.plan)
  obtain ⟨arena, log, assembled, made⟩ := finish_eq_ok.mp finished
  have unplanned : manifest.Unplanned := fun root found => (fresh root found).1.blank
  obtain ⟨root, found, _⟩ := PlannedDesign.of_eq_ok plan
  have distinct := PlannedDesign.distinct_ids found (fresh root found).2 plan
  have inscribed := stages.inscribed assembled
  have shown := stages.shown unplanned assembled
  obtain ⟨forest, read, recovers⟩ := inscribed.grown.reads_back inscribed.words
  have items := recovers.referents.length_eq
  rw [List.length_map, List.length_range, Listing.length_edits, ← Listing.map_referent_allWhole,
    List.length_map] at items
  -- what was found is what the ledger holds in the end
  rw [stages.resolved_kept] at assembled shown made
  refine ⟨events, arena, log, _, told.watched [], rfl, assembled, by rw [made], by rw [made], ?_⟩
  constructor
  case open_before =>
    intro node live picture member
    cases held : picture.asset with
    | none => rfl
    | some asset =>
      exact absurd ⟨node, live, picture, member, rfl, held⟩
        (PlannedDesign.not_shows_planned unplanned plan)
  case sources => exact fun hash _ => compiling.exists_unique_source plan
  case cached => exact compiling.cacheHits_eq plan
  case stored => exact (compiling.uploaded_eq plan).2
  case uploaded => exact (compiling.uploaded_eq plan).1
  case shown => exact shown
  case required =>
    rw [made]
    exact Plan.length_requiredHashes _
  case reused =>
    rw [made]
    exact PlannedDesign.reused_eq plan unplanned distinct starts
  case instances =>
    rw [made]
    exact ⟨forest, read, recovers, items.symm⟩
  case copies =>
    rw [made]
    exact PlannedDesign.duplicates_eq plan fun root found => (fresh root found).1

end World

/-! A design of one picture, compiled twice. -/

def marking : Config Float := { Config.default with classification := ⟨"#", []⟩ }

/-- A label that is drawn as a picture, for its name. -/
def blossom : Node Float :=
  .text { Layer.plain "0" "rose #" ⟨0, 0, 10, 10⟩ with contentHash := some "rose" } ⟨"", .default⟩

def herbarium : Manifest Float := ⟨some blossom, [], [], .empty⟩

theorem plan_herbarium (previous : Option (Snapshot Float)) : ∃ planned,
    PlannedDesign.of marking previous herbarium = .ok planned ∧
    Plan.emitted planned.root = [planned.root] ∧ Plan.requiredHashes planned.root = ["rose"] :=
  ⟨_, rfl, rfl, rfl⟩

/-- With a ledger that knows the picture, the design can be compiled without a store. -/
theorem run_herbarium {previous : Option (Snapshot Float)} {planned : PlannedDesign Float}
    (plan : PlannedDesign.of marking previous herbarium = .ok planned)
    (required : Plan.requiredHashes planned.root = ["rose"]) : ∃ compilation : Compilation Float,
    Yields (run marking .disabled previous herbarium) (florist, Machine.ofDisk .empty) (.ok compilation)
      (florist, Machine.ofDisk .empty) := by
  obtain ⟨_, stages, _⟩ := Stages.of_known .disabled (florist, Machine.ofDisk .empty) plan
    (checkDeclared_eq_ok.mpr (by simp [herbarium])) fun job member => by
      have rose := PlannedDesign.required_of_job member
      rw [required, List.mem_singleton] at rose
      rw [rose]
      rfl
  obtain ⟨compilation, _, _, done, _⟩ := stages.compiled
  exact ⟨compilation, done⟩

theorem accounts_of_run_herbarium : ∃ (first second : Compilation Float) (planned : PlannedDesign Float)
    (events : List Event) (arena : Arena Float),
    Yields (run marking .disabled none herbarium) (florist, Machine.ofDisk .empty) (.ok first)
      (florist, Machine.ofDisk .empty) ∧
    Yields (run marking .disabled (some first.snapshot) herbarium) (florist, Machine.ofDisk .empty)
      (.ok second) (florist, Machine.ofDisk .empty) ∧
    Starts (Plan.emitted planned.root) (some first.snapshot) ∧
    Accounts planned florist events (planned.resolved florist.asset?) arena second := by
  obtain ⟨earlier, planBefore, emittedBefore, requiredBefore⟩ := plan_herbarium none
  obtain ⟨first, doneBefore⟩ := run_herbarium planBefore requiredBefore
  obtain ⟨planned, plan, emitted, required⟩ := plan_herbarium (some first.snapshot)
  obtain ⟨second, done⟩ := run_herbarium plan required
  have root : earlier.root = planned.root := by
    have same := Except.ok.inj (((PlannedDesign.of_other planBefore).2 (some first.snapshot)).symm.trans plan)
    rw [← same]
  have starts : Starts (Plan.emitted planned.root) (some first.snapshot) := by
    refine .again doneBefore planBefore ?_
    rw [root, emitted]
    intro node member other listed _
    rw [List.mem_singleton.mp member, List.mem_singleton.mp listed]
  have fresh : ∀ root, herbarium.root = some root → root.Fresh ∧ root.liveIds.Nodup := by
    rintro _ ⟨⟩
    refine ⟨?_, by decide⟩
    simp [Node.Fresh, blossom, Node.preorder, Node.layer, Layer.plain]
  obtain ⟨events, arena, _, _, _, rfl, _, _, _, accounts⟩ := accounts_of_run plan fresh starts done
  exact ⟨first, second, planned, events, arena, doneBefore, done, starts, accounts⟩

end Compilation
end DesignCompiler
