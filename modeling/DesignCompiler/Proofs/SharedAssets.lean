import DesignCompiler.Proofs.FailFast
import DesignCompiler.Proofs.Reuse

/-!
Pictures of one hash. Their assets come two ways: reuse hands an asset to a node, and what it leaves open
is found by its hash, in the ledger or by an upload. All of them show one asset just if the ledger holds
what reuse handed out.
-/
namespace DesignCompiler

variable {α : Type}

/-- A picture shows an asset that it had, or one that is looked up for its hash. -/
theorem shows_fillPicture {lookup : String → Option String} {picture : Picture} {hash asset : String} :
    ((Plan.fillPicture lookup picture).hash = hash ∧
        (Plan.fillPicture lookup picture).asset = some asset) ↔
      picture.hash = hash ∧ picture.asset = some asset ∨
        picture.asset = none ∧ picture.hash = hash ∧ lookup hash = some asset := by
  rw [Plan.hash_fillPicture]
  cases held : picture.asset with
  | some own => simp [fillPicture_of_some held, held]
  | none =>
    simp only [fillPicture_of_none held, reduceCtorEq, and_false, false_or, true_and]
    exact and_congr_right fun same => by rw [same]

/-- Some picture of the hash shows the asset. -/
def Annotations.Shows (notes : Annotations α) (hash asset : String) : Prop :=
  ∃ picture ∈ notes.pictures, picture.hash = hash ∧ picture.asset = some asset

theorem Plan.shows_fillNotes {lookup : String → Option String} {notes : Annotations α}
    {hash asset : String} :
    (fillNotes lookup notes).Shows hash asset ↔ notes.Shows hash asset ∨
      (∃ picture ∈ notes.pictures, picture.asset = none ∧ picture.hash = hash) ∧
        lookup hash = some asset := by
  have list : (Plan.fillNotes lookup notes).pictures = notes.pictures.map (Plan.fillPicture lookup) := by
    simp [Plan.fillNotes, Annotations.pictures, Option.toList_map]
  simp only [Annotations.Shows, list, List.mem_map, exists_exists_and_eq_and, shows_fillPicture]
  constructor
  · rintro ⟨picture, member, held | ⟨unfilled, same, found⟩⟩
    · exact .inl ⟨picture, member, held⟩
    · exact .inr ⟨⟨picture, member, unfilled, same⟩, found⟩
  · rintro (⟨picture, member, held⟩ | ⟨⟨picture, member, unfilled, same⟩, found⟩)
    · exact ⟨picture, member, .inl held⟩
    · exact ⟨picture, member, .inr ⟨unfilled, same, found⟩⟩

theorem Diff.shows_carry {given : Option String} {notes : Annotations α} {hash asset : String} :
    (carry given notes).Shows hash asset ↔ notes.Shows hash asset ∨
      ∃ whole, notes.primary = some whole ∧ whole.asset = none ∧ whole.hash = hash ∧
        given = some asset := by
  rw [Diff.carry_eq]
  simp only [Annotations.Shows, Annotations.pictures, Annotations.primary, List.mem_append, Option.mem_toList]
  cases raster : notes.raster with
  | some own =>
    simp only [Option.isSome_some, if_true, Option.map_some, Option.some_or, Option.some.injEq,
      or_and_right, exists_or, exists_eq_left', shows_fillPicture, or_assoc]
  | none =>
    simp only [Option.isSome_none, Bool.false_eq_true, if_false, Option.map_none, Option.none_or,
      reduceCtorEq, or_false]
    cases notes.background with
    | none => simp
    | some under =>
      simp only [Option.map_some, Option.some.injEq, or_and_right, exists_or, exists_eq_left',
        shows_fillPicture, or_assoc]

theorem Plan.unfilled_notes [Scalar α] (rules : RuleSet) (parentFlow isRoot : Bool)
    (node : Node α) :
    ∀ picture ∈ (notes rules parentFlow isRoot node).1.pictures, picture.asset = none := by
  have planned : ∀ (needed : Bool) (hash : String) (picture : Picture),
      (if needed then some (Plan.picture hash) else none) = some picture → picture.asset = none := by
    rintro (_ | _) hash picture ⟨⟩
    rfl
  intro picture member
  simp only [Plan.notes, Annotations.pictures, List.mem_append, Option.mem_toList] at member
  rcases member with (shadow | background) | raster
  · split at shadow
    · cases shadow
    · obtain ⟨hash, _, rfl⟩ := Option.map_eq_some_iff.mp shadow
      rfl
  · exact planned _ _ _ background
  · exact planned _ _ _ raster

theorem Plan.shows_iff {root : Node α} {hash asset : String} : Shows root hash asset ↔
    ∃ node ∈ emitted root, node.layer.annotations.Shows hash asset := Iff.rfl

/-- Looking up assets adds the one found for a hash wherever a picture of the hash is open. -/
theorem Plan.shows_applyAssets {lookup : String → Option String} {root : Node α} {hash asset : String} :
    Shows (applyAssets lookup root) hash asset ↔ Shows root hash asset ∨
      hash ∈ (pendingJobs root).map (·.hash) ∧ lookup hash = some asset := by
  rw [shows_iff, shows_iff, mem_pendingJobs, applyAssets_eq, Node.emitted_revise refills_filling.life]
  simp only [List.mem_map, exists_exists_and_eq_and, Node.layer_revise, Layer.revised, filling,
    shows_fillNotes]
  constructor
  · rintro ⟨node, live, held | ⟨unfilled, found⟩⟩
    · exact .inl ⟨node, live, held⟩
    · exact .inr ⟨⟨node, live, unfilled⟩, found⟩
  · rintro (⟨node, live, held⟩ | ⟨⟨node, live, unfilled⟩, found⟩)
    · exact ⟨node, live, .inl held⟩
    · exact ⟨node, live, .inr ⟨unfilled, found⟩⟩

theorem Diff.shows_applyReuse {reuse : List (String × String)} {root : Node α} {hash asset : String} :
    Plan.Shows (applyReuse reuse root).1 hash asset ↔ Plan.Shows root hash asset ∨
      ∃ node picture, Fills reuse root node picture asset ∧ picture.hash = hash := by
  rw [Plan.shows_iff, Plan.shows_iff, applyReuse_eq, Node.emitted_revise (refills_carrying _).life]
  simp only [List.mem_map, exists_exists_and_eq_and, Node.layer_revise, Layer.revised, carrying_eq,
    shows_carry, fills_iff]
  constructor
  · rintro ⟨node, live, held | ⟨whole, primary, unfilled, same, given⟩⟩
    · exact .inl ⟨node, live, held⟩
    · exact .inr ⟨node, whole, ⟨live, unfilled, primary, given⟩, same⟩
  · rintro (⟨node, live, held⟩ | ⟨node, whole, ⟨live, unfilled, primary, given⟩, same⟩)
    · exact ⟨node, live, .inl held⟩
    · exact ⟨node, live, .inr ⟨whole, primary, unfilled, same, given⟩⟩

/-- All pictures of the hash show the same asset. -/
def Plan.Agrees (root : Node α) (hash : String) : Prop :=
  ∀ asset other, Shows root hash asset → Shows root hash other → asset = other

namespace PlannedDesign

variable {planned : PlannedDesign α} {lookup : String → Option String} {hash asset : String}

/-- Reuse hands the asset to a picture of the hash. -/
def Reuses (planned : PlannedDesign α) (hash asset : String) : Prop :=
  ∃ node picture, Diff.Fills planned.diff.reuse planned.root node picture asset ∧ picture.hash = hash

/-- Reuse leaves a picture of the hash open. -/
def Needs (planned : PlannedDesign α) (hash : String) : Prop := hash ∈ planned.jobs.map (·.hash)

theorem shows_carried : Plan.Shows planned.carried hash asset ↔
    Plan.Shows planned.root hash asset ∨ planned.Reuses hash asset := by
  rw [carried, ← Diff.applyReuse_eq]
  exact Diff.shows_applyReuse

/-- In the end a picture shows the asset that it had, that reuse handed to it, or that was looked up. -/
theorem shows_resolved : Plan.Shows (planned.resolved lookup) hash asset ↔
    (Plan.Shows planned.root hash asset ∨ planned.Reuses hash asset) ∨
      planned.Needs hash ∧ lookup hash = some asset := by
  rw [← applyAssets_carried, Plan.shows_applyAssets, shows_carried]
  rfl

theorem resolved_congr {other : String → Option String}
    (agree : ∀ hash, planned.Needs hash → lookup hash = other hash) :
    planned.resolved lookup = planned.resolved other := by
  refine Node.revise_congr planned.root fun node live => ?_
  have same : ∀ picture ∈ (Diff.carrying planned.diff.reuse node.layer).pictures,
      Plan.fillPicture lookup picture = Plan.fillPicture other picture := by
    intro picture member
    refine fillPicture_congr fun unfilled => ?_
    obtain ⟨job, listed, hash⟩ := exists_job live member unfilled
    exact hash ▸ agree _ (List.mem_map_of_mem listed)
  simp only [Annotations.pictures, List.mem_append, Option.mem_toList] at same
  simp only [filled, Plan.filling, Plan.fillNotes, Layer.revised]
  congr 1
  · exact Option.map_congr fun picture own => same picture (.inr own)
  · exact Option.map_congr fun picture own => same picture (.inl (.inr own))
  · exact Option.map_congr fun picture own => same picture (.inl (.inl own))

/-- All pictures of a hash show the same asset just if those filled before the look-up do, and what is
found for the open ones is no other. -/
theorem agrees_resolved (found : planned.Needs hash → (lookup hash).isSome = true) :
    Plan.Agrees (planned.resolved lookup) hash ↔ Plan.Agrees planned.carried hash ∧
      ∀ asset, Plan.Shows planned.carried hash asset → planned.Needs hash →
        lookup hash = some asset := by
  have shows : ∀ asset, Plan.Shows (planned.resolved lookup) hash asset ↔
      Plan.Shows planned.carried hash asset ∨ planned.Needs hash ∧ lookup hash = some asset :=
    fun asset => shows_resolved.trans (or_congr_left shows_carried.symm)
  simp only [Plan.Agrees, shows]
  constructor
  · intro agrees
    refine ⟨fun asset other here there => agrees asset other (.inl here) (.inl there), ?_⟩
    intro asset here needs
    obtain ⟨other, held⟩ := Option.isSome_iff_exists.mp (found needs)
    rw [held, agrees asset other (.inl here) (.inr ⟨needs, held⟩)]
  · rintro ⟨agrees, matching⟩ asset other (here | ⟨needs, held⟩) (there | ⟨needs', held'⟩)
    · exact agrees asset other here there
    · exact Option.some.inj ((matching asset here needs').symm.trans held')
    · exact Option.some.inj (held.symm.trans (matching other there needs))
    · exact Option.some.inj (held.symm.trans held')

theorem Reuses.required (reuses : planned.Reuses hash asset) :
    hash ∈ Plan.requiredHashes planned.root := by
  obtain ⟨node, picture, fills, rfl⟩ := reuses
  obtain ⟨live, _, primary, _⟩ := Diff.fills_iff.mp fills
  rw [Plan.requiredHashes, List.mem_eraseDups]
  exact List.mem_map_of_mem
    (List.mem_flatMap.mpr ⟨node, live, Annotations.mem_of_primary primary⟩)

variable [Scalar α]

/-- Planning shows nothing: the plan of a design without pictures has no assets. -/
theorem not_shows_planned {config : Config α} {previous : Option (Snapshot α)} {manifest : Manifest α}
    (fresh : manifest.Unplanned) (plan : of config previous manifest = .ok planned) :
    ¬Plan.Shows planned.root hash asset := by
  rintro ⟨node, live, picture, member, _, shown⟩
  have assets : (Plan.emitted planned.root).flatMap (fun node => (Plan.pictures node).filterMap (·.asset)) =
      [] := by
    rw [flatMap_planned fresh plan fun node blank => by rw [blank, List.filterMap_nil],
      List.flatMap_eq_nil_iff]
    obtain ⟨marked, same⟩ := annotated_planned plan
    rw [same]
    refine Plan.emits_planned (motive := fun node => (Plan.pictures node).filterMap (·.asset) = [])
      (fun parentFlow isRoot node => ?_) false true [] marked
    rw [List.filterMap_eq_nil_iff, Plan.pictures_eq, Plan.layer_annotateNode]
    exact Plan.unfilled_notes _ _ _ _
  have listed : asset ∈ (Plan.emitted planned.root).flatMap
      (fun node => (Plan.pictures node).filterMap (·.asset)) :=
    List.mem_flatMap.mpr ⟨node, live, List.mem_filterMap.mpr ⟨picture, member, shown⟩⟩
  rw [assets] at listed
  cases listed

/-- An asset that reuse hands out was shown for the same hash before, if no id is repeated. -/
theorem shows_of_reuses {next : PlannedDesign α} {config : Config α} {manifest : Manifest α}
    (plan : of config (some (planned.resolved lookup).snapshot) manifest = .ok next)
    (distinct : ((Plan.emitted next.root).map (·.layer.id)).Nodup)
    (apart : KeepsApart (Plan.emitted next.root) (Plan.emitted planned.root))
    (reuses : next.Reuses hash asset) : Plan.Shows (planned.resolved lookup) hash asset := by
  obtain ⟨node, picture, fills, rfl⟩ := reuses
  obtain ⟨live, _, primary, held⟩ := Diff.fills_iff.mp fills
  rw [(of_other plan).1, Diff.lookup_reuse] at held
  obtain ⟨source, there, same, carried⟩ := held
  obtain rfl : source = node := List.inj_on_of_nodup_map distinct there live same
  obtain ⟨whole, own, shown⟩ := shows_of_carried apart live carried
  rw [primary] at own
  rwa [Option.some.inj own]

theorem lookup_of_still {next : PlannedDesign α} {config : Config α} {manifest : Manifest α} {id : String}
    {node : Node α} (plan : of config (some (planned.resolved lookup).snapshot) manifest = .ok next)
    (kept : (planned.root.backwards.reverse.find? fun node => node.layer.id == id) = some node)
    (live : node ∈ Plan.emitted next.root)
    (shown : (planned.filled lookup node.layer).primary.bind (·.asset) = some asset) :
    next.diff.reuse.lookup id = some asset := by
  have own : node.layer.id = id := by simpa using List.find?_some kept
  rw [← lookup_of_kept kept] at shown
  obtain ⟨other, _, same, given⟩ := Diff.lookup_reuse.mp shown
  rw [(of_other plan).1]
  exact Diff.lookup_reuse.mpr
    ⟨node, live, own, Diff.carried_of_same (same.trans own.symm) given (isUnchanged_of_kept kept)⟩

theorem lookup_of_absent {next : PlannedDesign α} {config : Config α} {manifest : Manifest α} {id : String}
    (plan : of config (some (planned.resolved lookup).snapshot) manifest = .ok next)
    (absent : id ∉ (Plan.emitted planned.root).map (·.layer.id)) :
    next.diff.reuse.lookup id = none := by
  rw [(of_other plan).1]
  refine Option.eq_none_iff_forall_not_mem.mpr fun asset given => ?_
  obtain ⟨node, _, rfl, carried⟩ := Diff.lookup_reuse.mp given
  obtain ⟨entry, held, _⟩ := Option.bind_eq_some_iff.mp (Diff.carried_eq_some.mp carried).2
  have listed : node.layer.id ∈ (Plan.emitted (planned.resolved lookup)).map (·.layer.id) := by
    rw [← Snapshot.mem_ids_snapshot, ← isSome_lookup]
    exact Option.isSome_iff_exists.mpr ⟨entry, held⟩
  rw [resolved, Node.emitted_revise (planned.refills_filled lookup).life, List.map_map] at listed
  exact absent (by simpa [Function.comp_def, Layer.revised] using listed)

end PlannedDesign

theorem Store.mem_wanted {ledger : Store.Ledger} {jobs : List UploadJob} {hash : String} :
    hash ∈ wanted ledger jobs ↔ hash ∈ jobs.map (·.hash) ∧ ledger.asset? hash = none := by
  rw [wanted, List.mem_filter, List.mem_eraseDups, Option.isNone_iff_eq_none]

/-- Finding assets misses a hash only if the ledger lacks it and it was not shipped; else the store said
so. -/
theorem Store.Resolving.misses {limit : Nat} {available : Bool} {raw : List (String × String)}
    {jobs : List UploadJob} {ledger final : Ledger} {result : Except Failure Resolution}
    {events : List Event} {hash id : String}
    (resolving : Resolving limit available raw jobs ledger result events final)
    (failed : result = .error (.missingRawContent hash id)) :
    Blamed limit events (.missingRawContent hash id) ∨
      hash ∈ jobs.map (·.hash) ∧ ledger.asset? hash = none ∧ raw.lookup hash = none := by
  cases resolving with
  | unusable first owner fault =>
    rename_i job lacking failure
    obtain rfl := Except.error.inj failed
    cases fault with
    | missing absent =>
      obtain rfl : job.hash = lacking := by simpa using List.find?_some owner
      obtain ⟨listed, uncached⟩ := mem_wanted.mp (List.mem_of_find?_eq_some first)
      exact .inr ⟨listed, uncached, absent⟩
  | cached | keyless => cases failed
  | uploading _ _ _ _ _ session => exact .inl (Session.blames session (map_eq_error.mp failed))

namespace Compilation

open Store (Ledger Uploader Yields Resolving)

variable [Scalar α]

/-- How a run treats pictures of one hash alike: `next` is its plan, `ledger` and `kept` are the ledger
before and after it. Only what reuse leaves open and the ledger lacks is uploaded or missed; if the run
succeeds, all pictures have assets, and those of a hash the same one just if the ledger in the end holds
the one that reuse handed out, wherever reuse has left a picture open. -/
structure Sharing (config : Config α) (manifest : Manifest α) (next : PlannedDesign α) (ledger : Ledger)
    (result : Except Failure (Compilation α)) (events : List Event) (kept : Ledger) : Prop where
  created : ∀ request answer, Event.created request answer ∈ events →
    next.Needs request.hash ∧ ledger.asset? request.hash = none
  missing : ∀ hash id, result = .error (.missingRawContent hash id) →
    Blamed config.upload.maxPollAttempts events (.missingRawContent hash id) ∨
      ledger.asset? hash = none ∧ manifest.rawContent.lookup hash = none ∧
        (next.Needs hash ∨ hash ∉ Plan.requiredHashes next.root)
  output : ∀ compilation, result = .ok compilation →
    compilation.snapshot = (next.resolved kept.asset?).snapshot ∧
    (∀ node ∈ Plan.emitted (next.resolved kept.asset?), ∀ picture ∈ Plan.pictures node,
      ∃ asset, picture.asset = some asset) ∧
    ∃ arena log, (Assembly.assemble next.rules config.text (next.resolved kept.asset?)).run
        ⟨next.warnings, []⟩ = .ok (arena, log) ∧ compilation.document = arena.document
  uploaded : ∀ compilation, result = .ok compilation → ∀ hash,
    hash ∈ compilation.report.uploaded ↔ next.Needs hash ∧ ledger.asset? hash = none
  agrees : ∀ compilation, result = .ok compilation → ∀ hash,
    Plan.Agrees (next.resolved kept.asset?) hash ↔ Plan.Agrees next.carried hash ∧
      ∀ asset, Plan.Shows next.carried hash asset → next.Needs hash → kept.asset? hash = some asset

omit [Scalar α] in
/-- What cannot be had is neither cached nor shipped, and open or not required at all. -/
theorem isObtainable_eq_false {next : PlannedDesign α} {ledger : Ledger} {raw : List (String × String)}
    {hash : String} : isObtainable ledger raw next.carried next.jobs hash = false ↔
      ledger.asset? hash = none ∧ raw.lookup hash = none ∧
        (next.Needs hash ∨ hash ∉ Plan.requiredHashes next.root) := by
  have needs : next.jobs.any (·.hash == hash) = true ↔ next.Needs hash := by
    simp [PlannedDesign.Needs]
  have required := (Diff.refills_carrying next.diff.reuse).requiredHashes next.root
  rw [← PlannedDesign.carried] at required
  rw [isObtainable, required, Bool.or_eq_false_iff, Bool.or_eq_false_iff, ← needs]
  simp only [Option.isSome_eq_false_iff, Option.isNone_iff_eq_none, Bool.and_eq_false_iff,
    Bool.not_eq_false', List.contains_eq_mem, decide_eq_false_iff_not]
  tauto

section Ways

variable {config : Config α} {available : Bool} {previous : Option (Snapshot α)}
  {manifest : Manifest α} {next : PlannedDesign α} {ledger kept : Ledger}
  {result : Except Failure (Compilation α)} {events : List Event}
  (compiling : Compiling config available previous manifest ledger result events kept)
  (plan : PlannedDesign.of config previous manifest = .ok next)

include compiling plan

theorem Compiling.created_needed {request : Store.UploadRequest}
    {answer : Except Failure Store.UploadStatus} (member : Event.created request answer ∈ events) :
    next.Needs request.hash ∧ ledger.asset? request.hash = none := by
  have wanted : ∀ {jobs : List UploadJob} {outcome : Except Failure Store.Resolution},
      Resolving config.upload.maxPollAttempts available manifest.rawContent jobs ledger outcome events
        kept → request.hash ∈ Store.wanted ledger jobs := by
    intro jobs outcome resolving
    have asked : request ∈ events.filterMap Event.request? :=
      List.mem_filterMap.mpr ⟨.created request answer, member, rfl⟩
    exact resolving.created.subset (List.mem_map_of_mem asked)
  cases compiling with
  | unplanned | undeclared => cases member
  | unresolved plan' _ resolving | compiled plan' _ resolving =>
    obtain rfl := Except.ok.inj (plan.symm.trans plan')
    exact Store.mem_wanted.mp (wanted resolving)

theorem Compiling.uploaded_wanted {compilation : Compilation α} (done : result = .ok compilation) :
    compilation.report.uploaded = Store.wanted ledger next.jobs := by
  cases compiling with
  | unplanned | undeclared | unresolved => cases done
  | compiled plan' _ resolving _ finished =>
    obtain rfl := Except.ok.inj (plan.symm.trans plan')
    obtain rfl := Except.ok.inj done
    obtain ⟨_, _, _, rfl⟩ := finish_eq_ok.mp finished
    exact (resolving.ok rfl).2.1

theorem Compiling.missing_lacks {hash id : String}
    (failed : result = .error (.missingRawContent hash id)) :
    Blamed config.upload.maxPollAttempts events (.missingRawContent hash id) ∨
      ledger.asset? hash = none ∧ manifest.rawContent.lookup hash = none ∧
        (next.Needs hash ∨ hash ∉ Plan.requiredHashes next.root) := by
  cases compiling with
  | unplanned fails => rw [plan] at fails; cases fails
  | undeclared plan' declared =>
    obtain rfl := Except.ok.inj (plan.symm.trans plan')
    obtain rfl := Except.error.inj failed
    rw [checkDeclared] at declared
    split at declared
    · cases declared
    · rename_i other found
      cases declared
      have lacks := List.find?_some found
      rw [Bool.not_eq_true', isObtainable_eq_false] at lacks
      exact .inr lacks
  | unresolved plan' _ resolving =>
    obtain rfl := Except.ok.inj (plan.symm.trans plan')
    obtain rfl := Except.error.inj failed
    refine (resolving.misses rfl).imp_right ?_
    rintro ⟨listed, uncached, unshipped⟩
    exact ⟨uncached, unshipped, .inl listed⟩
  | compiled => cases failed

end Ways

section World

variable {σ : Type} [Host (StateM σ)] {config : Config α} {uploader : Uploader (StateM σ)}
  {previous : Option (Snapshot α)} {manifest : Manifest α} {before after : Ledger × σ}

/-- The tree of a run is the planned one, filled in from the ledger that is left. -/
theorem Stages.resolved_kept {planned : PlannedDesign α} {resolution : Store.Resolution}
    (stages : Stages config uploader previous manifest before after planned resolution) :
    planned.resolved (resolution.resolved.lookup ·) = planned.resolved after.1.asset? := by
  refine PlannedDesign.resolved_congr fun hash needs => ?_
  obtain ⟨job, member, rfl⟩ := List.mem_map.mp needs
  obtain ⟨asset, found, held⟩ := Store.lookup_resolved stages.assets member
  rw [found, held]

theorem Stages.kept_needs {planned : PlannedDesign α} {resolution : Store.Resolution}
    (stages : Stages config uploader previous manifest before after planned resolution) {hash : String}
    (needs : planned.Needs hash) : (after.1.asset? hash).isSome = true := by
  obtain ⟨job, member, rfl⟩ := List.mem_map.mp needs
  obtain ⟨asset, _, held⟩ := Store.lookup_resolved stages.assets member
  rw [held, Option.isSome_some]

/-- Every run shares pictures this way. -/
theorem run_shares {next : PlannedDesign α} (plan : PlannedDesign.of config previous manifest = .ok next)
    (uploader : Uploader (StateM σ)) (ledger : Ledger) (world : σ) :
    ∃ result events kept later,
      Tells (run config uploader.watched previous manifest) (run config uploader previous manifest)
          (ledger, world) result events (kept, later) ∧
        Sharing config manifest next ledger result events kept ∧ ledger.Grows kept := by
  obtain ⟨result, events, kept, later, told, compiling⟩ :=
    run_tells config uploader previous manifest ledger world
  have stages : ∀ {compilation : Compilation α}, result = .ok compilation → ∃ resolution,
      Stages config uploader previous manifest (ledger, world) (kept, later) next resolution ∧
      finish config next (reusedOf next) (next.resolved kept.asset?) resolution = .ok compilation := by
    rintro compilation rfl
    obtain ⟨planned, resolution, stages, finished⟩ := stages_of_run told.plain
    obtain rfl := Except.ok.inj (plan.symm.trans stages.plan)
    exact ⟨resolution, stages, stages.resolved_kept ▸ finished⟩
  have grows : ledger.Grows kept := by
    rcases compiling.resolving with ⟨_, rfl⟩ | ⟨_, _, resolving⟩
    · exact .refl _
    · exact resolving.grows
  refine ⟨result, events, kept, later, told, ⟨?_, ?_, ?_, ?_, ?_⟩, grows⟩
  · exact fun request answer => compiling.created_needed plan
  · exact fun hash id => compiling.missing_lacks plan
  · intro compilation done
    obtain ⟨_, stages, finished⟩ := stages done
    obtain ⟨arena, log, assembled, rfl⟩ := finish_eq_ok.mp finished
    refine ⟨rfl, fun node live picture => ?_, arena, log, assembled, rfl⟩
    refine PlannedDesign.exists_asset_resolved (fun job member => ?_) live
    exact stages.kept_needs (List.mem_map_of_mem member)
  · intro compilation done hash
    rw [compiling.uploaded_wanted plan done, Store.mem_wanted]
    rfl
  · intro compilation done hash
    obtain ⟨_, stages, _⟩ := stages done
    exact PlannedDesign.agrees_resolved stages.kept_needs

end World

/-- Pictures of one hash after a run. Reuse hands out nothing but what that run showed for the hash, if
no id is repeated. The next run, whatever its settings, manifest, store, machine and ledger are, uploads
and misses only what reuse leaves open and the ledger lacks, and its pictures of a hash show one asset
just if the ledger in the end holds what reuse handed out for the hash, where it left a picture of it
open. So if the ledger holds all that reuse hands out, no hash that reuse serves is uploaded or missed,
and whatever is shown is what the ledger holds. -/
theorem shared_after_run {σ : Type} [Host (StateM σ)] {config : Config α}
    {uploader : Uploader (StateM σ)} {previous : Option (Snapshot α)} {manifest : Manifest α}
    {before after : Ledger × σ} {first : Compilation α}
    (done : Yields (run config uploader previous manifest) before (.ok first) after) :
    ∃ planned final, PlannedDesign.of config previous manifest = .ok planned ∧
      final = planned.resolved after.1.asset? ∧ first.snapshot = final.snapshot ∧
      ∀ {config : Config α} {manifest : Manifest α} {next : PlannedDesign α},
        PlannedDesign.of config (some first.snapshot) manifest = .ok next →
        (((Plan.emitted next.root).map (·.layer.id)).Nodup →
          KeepsApart (Plan.emitted next.root) (Plan.emitted planned.root) →
          ∀ hash asset, next.Reuses hash asset → Plan.Shows final hash asset) ∧
        ∀ {τ : Type} [Host (StateM τ)] (uploader : Uploader (StateM τ)) (ledger : Ledger) (world : τ),
          ∃ result events kept later,
            Tells (run config uploader.watched (some first.snapshot) manifest)
              (run config uploader (some first.snapshot) manifest) (ledger, world) result events
              (kept, later) ∧
            Sharing config manifest next ledger result events kept ∧
            ((∀ hash asset, next.Reuses hash asset → ledger.asset? hash = some asset) →
              (∀ hash asset, next.Reuses hash asset →
                (∀ request answer, Event.created request answer ∈ events → request.hash ≠ hash) ∧
                ∀ id, result = .error (.missingRawContent hash id) →
                  Blamed config.upload.maxPollAttempts events (.missingRawContent hash id)) ∧
              (manifest.Unplanned → ∀ compilation, result = .ok compilation → ∀ hash asset,
                Plan.Shows (next.resolved kept.asset?) hash asset → kept.asset? hash = some asset)) := by
  obtain ⟨planned, resolution, stages, finished⟩ := stages_of_run done
  obtain ⟨arena, log, assembled, rfl⟩ := finish_eq_ok.mp finished
  rw [stages.resolved_kept]
  refine ⟨planned, _, stages.plan, rfl, rfl, ?_⟩
  intro config manifest next plan
  refine ⟨fun distinct apart hash asset => PlannedDesign.shows_of_reuses plan distinct apart, ?_⟩
  intro τ _ uploader ledger world
  obtain ⟨result, events, kept, later, told, sharing, grows⟩ := run_shares plan uploader ledger world
  -- a hash that the ledger holds from the start is neither created nor missing, and keeps its asset
  refine ⟨result, events, kept, later, told, sharing, fun holds => ⟨?_, ?_⟩⟩
  · intro hash asset reuses
    have held := holds hash asset reuses
    constructor
    · rintro request answer member rfl
      rw [(sharing.created request answer member).2] at held
      cases held
    · intro id failed
      refine (sharing.missing hash id failed).resolve_right ?_
      rintro ⟨uncached, _⟩
      rw [uncached] at held
      cases held
  · intro fresh compilation _ hash asset shown
    rcases PlannedDesign.shows_resolved.mp shown with (planned | reuses) | ⟨_, found⟩
    · exact absurd planned (PlannedDesign.not_shows_planned fresh plan)
    · exact grows.asset (holds hash asset reuses)
    · exact found

def posy (ids : List String) : Manifest Rat :=
  bouquet (.container (Layer.plain "0" "posy" ⟨0, 0, 100, 100⟩) ⟨.frame, none, false⟩
    (ids.map (bloom · "rose")))

private theorem posies_planned : ∃ single grown screen lawn rose other,
    PlannedDesign.of plain none (posy ["1"]) = .ok single ∧
    PlannedDesign.of plain none (posy ["1", "2"]) = .ok grown ∧
    single.root.backwards = [screen, rose] ∧ Plan.emitted single.root = [screen, rose] ∧
    single.diff.reuse = [] ∧ Plan.requiredHashes single.root = ["rose"] ∧
    (∃ job ∈ single.jobs, job.hash = "rose") ∧ Plan.emitted grown.root = [lawn, rose, other] ∧
    Plan.requiredHashes grown.root = ["rose"] ∧
    screen.layer.id = "0" ∧ lawn.layer.id = "0" ∧ rose.layer.id = "1" ∧ other.layer.id = "2" ∧
    Plan.pictures lawn = [] ∧ Plan.pictures rose = [⟨"rose", none⟩] ∧
    rose.layer.annotations.primary = some ⟨"rose", none⟩ ∧ Plan.pictures other = [⟨"rose", none⟩] :=
  ⟨_, _, _, _, _, _, rfl, rfl, rfl, rfl, rfl, rfl, ⟨_, .head _, rfl⟩, rfl, rfl, rfl, rfl, rfl, rfl, rfl, rfl,
    rfl, rfl⟩

/-- The second posy after the first: one rose is handed over, the other one is open. -/
private theorem posies_shared : ∃ (first : Compilation Rat) (next : PlannedDesign Rat),
    Yields (run plain Uploader.disabled none (posy ["1"])) (florist, Machine.ofDisk .empty) (.ok first)
      (florist, Machine.ofDisk .empty) ∧
    PlannedDesign.of plain (some first.snapshot) (posy ["1", "2"]) = .ok next ∧
    ((Plan.emitted next.root).map (·.layer.id)).Nodup ∧
    (∀ hash asset, next.Reuses hash asset ↔ hash = "rose" ∧ asset = "101") ∧
    (∀ hash, next.Needs hash ↔ hash = "rose") := by
  obtain ⟨single, grown, screen, lawn, rose, other, plan, planGrown, backwards, emitted, fresh, required,
    ⟨job, listed, hash⟩, emittedGrown, requiredGrown, screenId, lawnId, roseId, otherId, bare, roses, primary,
    others⟩ := posies_planned
  obtain ⟨resolution, stages, found⟩ := florist_stages plan (by simp [required])
  obtain ⟨first, _, _, done, _, _, snapshot, _⟩ := stages.compiled
  have shown : (single.filled (resolution.resolved.lookup ·) rose.layer).primary.bind (·.asset) =
      some "101" := by
    rw [PlannedDesign.filled_first fresh]
    rw [show (Plan.fillNotes (resolution.resolved.lookup ·) rose.layer.annotations).primary =
      rose.layer.annotations.primary.map (Plan.fillPicture (resolution.resolved.lookup ·)) from
        (Option.map_or ..).symm, primary]
    have known : resolution.resolved.lookup job.hash = some "101" := by
      rw [found job listed, hash]
      rfl
    rw [hash] at known
    simpa [Plan.fillPicture] using known
  obtain ⟨next, planNext, root⟩ : ∃ next,
      PlannedDesign.of plain (some first.snapshot) (posy ["1", "2"]) = .ok next ∧ next.root = grown.root :=
    ⟨_, (PlannedDesign.of_other planGrown).2 _, rfl⟩
  rw [← root] at emittedGrown requiredGrown
  have kept : (single.root.backwards.reverse.find? fun node => node.layer.id == "1") = some rose := by
    simp [backwards, roseId]
  have handed : next.diff.reuse.lookup "1" = some "101" :=
    PlannedDesign.lookup_of_still (snapshot ▸ planNext) kept (by simp [emittedGrown]) shown
  have nothing : next.diff.reuse.lookup "2" = none :=
    PlannedDesign.lookup_of_absent (snapshot ▸ planNext) (by simp [emitted, screenId, roseId])
  refine ⟨first, next, done, planNext, ?_, fun hash asset => ⟨?_, ?_⟩, fun hash => ⟨?_, ?_⟩⟩
  · simp [emittedGrown, lawnId, roseId, otherId]
  · rintro ⟨node, picture, fills, rfl⟩
    obtain ⟨live, _, whole, given⟩ := Diff.fills_iff.mp fills
    have member := Annotations.mem_of_primary whole
    rw [emittedGrown] at live
    simp only [List.mem_cons, List.not_mem_nil, or_false] at live
    rcases live with rfl | rfl | rfl
    · rw [← Plan.pictures_eq, bare] at member
      cases member
    · rw [primary] at whole
      rw [roseId, handed] at given
      exact ⟨congrArg Picture.hash (Option.some.inj whole).symm, (Option.some.inj given).symm⟩
    · rw [otherId, nothing] at given
      cases given
  · rintro ⟨rfl, rfl⟩
    exact ⟨rose, _, Diff.fills_iff.mpr ⟨by simp [emittedGrown], rfl, primary, roseId ▸ handed⟩, rfl⟩
  · intro needs
    obtain ⟨job, member, rfl⟩ := List.mem_map.mp needs
    simpa [requiredGrown] using PlannedDesign.required_of_job member
  · rintro rfl
    have left : Diff.carrying next.diff.reuse other.layer = other.layer.annotations := by
      rw [Diff.carrying_eq, otherId, nothing]
      rfl
    have member : ⟨"rose", none⟩ ∈ (Diff.carrying next.diff.reuse other.layer).pictures := by
      rw [left, ← Plan.pictures_eq, others]
      exact List.mem_singleton_self _
    obtain ⟨job, listed, same⟩ := PlannedDesign.exists_job (by simp [emittedGrown]) member rfl
    exact List.mem_map.mpr ⟨job, listed, same⟩

private theorem posy_succeeds {first : Compilation Rat} {next : PlannedDesign Rat} (ledger : Ledger)
    (plan : PlannedDesign.of plain (some first.snapshot) (posy ["1", "2"]) = .ok next)
    (needs : ∀ hash, next.Needs hash ↔ hash = "rose") (held : (ledger.asset? "rose").isSome = true) :
    ∃ second, Yields (run plain Uploader.disabled (some first.snapshot) (posy ["1", "2"]))
      (ledger, Machine.ofDisk .empty) (.ok second) (ledger, Machine.ofDisk .empty) := by
  have known : ∀ job ∈ next.jobs, (ledger.asset? job.hash).isSome = true := by
    intro job member
    rwa [(needs job.hash).mp (List.mem_map_of_mem member)]
  obtain ⟨_, stages, _⟩ := Stages.of_known Uploader.disabled (ledger, Machine.ofDisk .empty) plan
    (checkDeclared_eq_ok.mpr (by simp [posy, bouquet])) known
  obtain ⟨second, _, _, done, _⟩ := stages.compiled
  exact ⟨second, done⟩

/-- With the ledger of the first run, the second posy shows one asset and uploads nothing. -/
theorem posy_shared : ∃ (first second : Compilation Rat) (next : PlannedDesign Rat),
    Yields (run plain Uploader.disabled none (posy ["1"])) (florist, Machine.ofDisk .empty) (.ok first)
      (florist, Machine.ofDisk .empty) ∧
    PlannedDesign.of plain (some first.snapshot) (posy ["1", "2"]) = .ok next ∧
    next.Reuses "rose" "101" ∧ next.Needs "rose" ∧
    Yields (run plain Uploader.disabled (some first.snapshot) (posy ["1", "2"]))
      (florist, Machine.ofDisk .empty) (.ok second) (florist, Machine.ofDisk .empty) ∧
    "rose" ∉ second.report.uploaded ∧ Plan.Agrees (next.resolved florist.asset?) "rose" ∧
    ∀ hash asset, Plan.Shows (next.resolved florist.asset?) hash asset →
      florist.asset? hash = some asset := by
  obtain ⟨first, next, done, planNext, distinct, reuses, needs⟩ := posies_shared
  obtain ⟨_, _, _, _, _, later⟩ := shared_after_run done
  obtain ⟨result, events, kept, _, told, sharing, covered⟩ :=
    (later planNext).2 Uploader.disabled florist (Machine.ofDisk .empty)
  obtain ⟨second, doneNext⟩ := posy_succeeds florist planNext needs rfl
  obtain ⟨ended, _⟩ := Prod.mk.inj (told.plain.symm.trans doneNext)
  obtain ⟨rfl, rfl⟩ := Prod.mk.inj ended
  have held : ∀ hash asset, next.Reuses hash asset → florist.asset? hash = some asset := by
    intro hash asset handed
    obtain ⟨rfl, rfl⟩ := (reuses hash asset).mp handed
    rfl
  have fresh : (posy ["1", "2"]).Unplanned := by
    rintro _ ⟨⟩
    simp [Plan.Blank, Plan.emitted, Plan.emittedAll, Node.isLive, Layer.isLive, Plan.pictures, Node.layer,
      Layer.plain, Annotations.none, bloom]
  have shown := (covered held).2 fresh second rfl
  refine ⟨first, second, next, done, planNext, (reuses _ _).mpr ⟨rfl, rfl⟩, (needs _).mpr rfl, doneNext,
    ?_, ?_, shown⟩
  · rw [sharing.uploaded second rfl]
    rintro ⟨_, uncached⟩
    cases uncached
  · intro asset other here there
    exact Option.some.inj ((shown _ _ here).symm.trans (shown _ _ there))

private theorem posy_misses {first : Compilation Rat} {next : PlannedDesign Rat}
    (plan : PlannedDesign.of plain (some first.snapshot) (posy ["1", "2"]) = .ok next)
    (needs : ∀ hash, next.Needs hash ↔ hash = "rose") :
    ∃ id later, Yields (run plain Uploader.disabled (some first.snapshot) (posy ["1", "2"]))
      (⟨none, []⟩, Machine.ofDisk .empty) (.error (.missingRawContent "rose" id)) (⟨none, []⟩, later) := by
  have lacking : "rose" ∈ Store.wanted ⟨none, []⟩ next.jobs :=
    Store.mem_wanted.mpr ⟨(needs _).mpr rfl, rfl⟩
  obtain ⟨result, events, kept, later, told, compiling⟩ := run_tells plain Uploader.disabled
    (some first.snapshot) (posy ["1", "2"]) ⟨none, []⟩ (Machine.ofDisk .empty)
  have misses : ∀ {outcome}, Resolving plain.upload.maxPollAttempts false [] next.jobs ⟨none, []⟩ outcome
      events kept → kept = ⟨none, []⟩ ∧ ∃ id, outcome = .error (.missingRawContent "rose" id) := by
    intro outcome resolving
    cases resolving with
    | unusable first owner fault =>
      rename_i job hash failure
      cases fault with
      | missing =>
        obtain rfl : job.hash = hash := by simpa using List.find?_some owner
        have needed := (Store.mem_wanted.mp (List.mem_of_find?_eq_some first)).1
        rw [(needs job.hash).mp needed]
        exact ⟨rfl, _, rfl⟩
      | undecodable present => cases present
    | cached nothing =>
      rw [nothing] at lacking
      cases lacking
    | keyless usable => cases usable _ lacking
    | uploading _ keyed => cases keyed
  cases compiling with
  | unplanned fails =>
    rw [plan] at fails
    cases fails
  | undeclared plan' declared => cases declared
  | unresolved plan' _ resolving =>
    obtain rfl := Except.ok.inj (plan.symm.trans plan')
    obtain ⟨rfl, id, same⟩ := misses resolving
    obtain rfl := Except.error.inj same
    exact ⟨id, later, told.plain⟩
  | compiled plan' _ resolving =>
    obtain rfl := Except.ok.inj (plan.symm.trans plan')
    obtain ⟨_, _, same⟩ := misses resolving
    cases same

def gardener : Ledger := ⟨none, [("rose", ⟨"303", ⟨0, 0⟩⟩)]⟩

/-- With another ledger than that of the first run, the second posy shows two assets for one hash; with
an empty ledger it misses the hash, although reuse has an asset for it. -/
theorem posy_split : ∃ (first second : Compilation Rat) (next : PlannedDesign Rat) (id : String)
      (later : Machine),
    Yields (run plain Uploader.disabled none (posy ["1"])) (florist, Machine.ofDisk .empty) (.ok first)
      (florist, Machine.ofDisk .empty) ∧
    PlannedDesign.of plain (some first.snapshot) (posy ["1", "2"]) = .ok next ∧
    ((Plan.emitted next.root).map (·.layer.id)).Nodup ∧ next.Reuses "rose" "101" ∧
    Yields (run plain Uploader.disabled (some first.snapshot) (posy ["1", "2"]))
      (gardener, Machine.ofDisk .empty) (.ok second) (gardener, Machine.ofDisk .empty) ∧
    second.snapshot = (next.resolved gardener.asset?).snapshot ∧
    Plan.Shows (next.resolved gardener.asset?) "rose" "101" ∧
    Plan.Shows (next.resolved gardener.asset?) "rose" "303" ∧
    Yields (run plain Uploader.disabled (some first.snapshot) (posy ["1", "2"]))
      (⟨none, []⟩, Machine.ofDisk .empty) (.error (.missingRawContent "rose" id)) (⟨none, []⟩, later) := by
  obtain ⟨first, next, done, planNext, distinct, reuses, needs⟩ := posies_shared
  obtain ⟨second, doneNext⟩ := posy_succeeds gardener planNext needs rfl
  obtain ⟨result, _, kept, _, told, sharing, _⟩ :=
    run_shares planNext Uploader.disabled gardener (Machine.ofDisk .empty)
  obtain ⟨ended, _⟩ := Prod.mk.inj (told.plain.symm.trans doneNext)
  obtain ⟨rfl, rfl⟩ := Prod.mk.inj ended
  obtain ⟨id, later, missed⟩ := posy_misses planNext needs
  refine ⟨first, second, next, id, later, done, planNext, distinct, (reuses _ _).mpr ⟨rfl, rfl⟩, doneNext,
    (sharing.output second rfl).1, ?_, ?_, missed⟩
  · exact PlannedDesign.shows_resolved.mpr (.inl (.inr ((reuses _ _).mpr ⟨rfl, rfl⟩)))
  · exact PlannedDesign.shows_resolved.mpr (.inr ⟨(needs _).mpr rfl, rfl⟩)

end Compilation
end DesignCompiler
