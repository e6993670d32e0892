import DesignCompiler.Proofs.Agreement
import DesignCompiler.Proofs.Resolving

/-!
What a run of the compiler asks of the machine and the store. All of it is asked to find assets; what
comes before can only fail in silence, and what comes after cannot fail.
-/
namespace DesignCompiler

open Store (Ledger Uploader Resolving)

variable {α : Type} [Scalar α]

namespace Compilation

/-- A run: what comes of it, the events, and the ledger that is left. -/
inductive Compiling (config : Config α) (available : Bool) (previous : Option (Snapshot α))
    (manifest : Manifest α) (ledger : Ledger) :
    Except Failure (Compilation α) → List Event → Ledger → Prop where
  | unplanned {failure : Failure}
      (plan : PlannedDesign.of config previous manifest = .error failure) :
      Compiling config available previous manifest ledger (.error failure) [] ledger
  | undeclared {failure : Failure}
      (plan : PlannedDesign.of config previous manifest = .ok planned)
      (declared : checkDeclared ledger manifest.rawContent planned.carried planned.jobs
        manifest.unresolved = .error failure) :
      Compiling config available previous manifest ledger (.error failure) [] ledger
  | unresolved {failure : Failure}
      (plan : PlannedDesign.of config previous manifest = .ok planned)
      (declared : checkDeclared ledger manifest.rawContent planned.carried planned.jobs
        manifest.unresolved = .ok ())
      (resolving : Resolving config.upload.maxPollAttempts available manifest.rawContent planned.jobs
        ledger (.error failure) events final) :
      Compiling config available previous manifest ledger (.error failure) events final
  | compiled (plan : PlannedDesign.of config previous manifest = .ok planned)
      (declared : checkDeclared ledger manifest.rawContent planned.carried planned.jobs
        manifest.unresolved = .ok ())
      (resolving : Resolving config.upload.maxPollAttempts available manifest.rawContent planned.jobs
        ledger (.ok resolution) events final)
      (assembled : (Assembly.assemble planned.rules config.text
        (planned.resolved (resolution.resolved.lookup ·))).run ⟨planned.warnings, []⟩ = .ok (arena, log))
      (finished : finish config planned (reusedOf planned)
        (planned.resolved (resolution.resolved.lookup ·)) resolution = .ok compilation) :
      Compiling config available previous manifest ledger (.ok compilation) events final

section World

variable {σ : Type} [Host (StateM σ)]

theorem run_tells (config : Config α) (uploader : Uploader (StateM σ))
    (previous : Option (Snapshot α)) (manifest : Manifest α) (ledger : Ledger) (world : σ) :
    ∃ result events final after,
      Tells (run config uploader.watched previous manifest) (run config uploader previous manifest)
          (ledger, world) result events (final, after) ∧
        Compiling config uploader.available previous manifest ledger result events final := by
  cases plan : PlannedDesign.of config previous manifest with
  | error failure =>
    refine ⟨.error failure, [], ledger, world, ?_, .unplanned plan⟩
    simp only [run, plan]
    exact tells_pure _ _
  | ok planned =>
    rw [run_planned uploader plan, run_planned uploader.watched plan]
    have known := tells_get (ledger, world)
    -- from here on each step may refuse, and what it refuses leaves what the steps before it have done
    cases declared : checkDeclared ledger manifest.rawContent planned.carried planned.jobs
      manifest.unresolved with
    | error failure =>
      refine ⟨.error failure, [], ledger, world, known.bind ?_, .undeclared plan declared⟩
      simp only [declared]
      exact tells_pure _ _
    | ok =>
      obtain ⟨result, events, final, after, told, resolving⟩ :=
        Store.resolveAll_tells planned.jobs manifest.rawContent uploader config.upload ledger world
      cases result with
      | error failure =>
        refine ⟨.error failure, events ++ [], final, after, known.bind ?_, ?_⟩
        · simp only [declared]
          exact told.bind (tells_pure _ _)
        · rw [List.append_nil]
          exact .unresolved plan declared resolving
      | ok resolution =>
        have stages : Stages config uploader previous manifest (ledger, world) (final, after) planned
          resolution := ⟨plan, declared, told.plain⟩
        obtain ⟨arena, log, assembled, _⟩ := stages.assembled
        obtain ⟨compilation, finished⟩ : ∃ compilation, finish config planned (reusedOf planned)
            (planned.resolved (resolution.resolved.lookup ·)) resolution = .ok compilation :=
          ⟨_, finish_eq_ok.mpr ⟨arena, log, assembled, rfl⟩⟩
        refine ⟨.ok compilation, events ++ [], final, after, known.bind ?_, ?_⟩
        · simp only [declared]
          exact told.bind (finished ▸ tells_pure _ _)
        · rw [List.append_nil]
          exact .compiled plan declared resolving assembled finished

theorem compiling_of_watched {config : Config α} {uploader : Uploader (StateM σ)}
    {previous : Option (Snapshot α)} {manifest : Manifest α} {ledger final : Ledger} {world after : σ}
    {result : Except Failure (Compilation α)} {events : List Event}
    (ran : Store.Yields (run config uploader.watched previous manifest) (ledger, ⟨world, []⟩) result
      (final, ⟨after, events⟩)) :
    Compiling config uploader.available previous manifest ledger result events final := by
  obtain ⟨result', events', final', after', told, compiling⟩ :=
    run_tells config uploader previous manifest ledger world
  have same := ran.symm.trans (told.watched [])
  obtain ⟨pair, watched⟩ := Prod.mk.inj same
  obtain ⟨rfl, rfl⟩ := Prod.mk.inj pair
  obtain ⟨_, rfl⟩ := Watched.mk.inj watched
  exact compiling

end World

section Assets

variable {config : Config α} {available : Bool} {previous : Option (Snapshot α)}
  {manifest : Manifest α} {ledger final : Ledger} {result : Except Failure (Compilation α)}
  {events : List Event}

theorem Compiling.resolving
    (compiling : Compiling config available previous manifest ledger result events final) :
    (events = [] ∧ final = ledger) ∨ ∃ jobs outcome, Resolving config.upload.maxPollAttempts available
      manifest.rawContent jobs ledger outcome events final := by
  cases compiling with
  | unplanned | undeclared => exact .inl ⟨rfl, rfl⟩
  | unresolved _ _ resolving => exact .inr ⟨_, _, resolving⟩
  | compiled _ _ resolving => exact .inr ⟨_, _, resolving⟩

/-- The ledger that a run leaves has just the assets that the store gave besides those it had. -/
theorem Compiling.assets
    (compiling : Compiling config available previous manifest ledger result events final)
    (hash : String) :
    final.asset? hash = ((completions none events).lookup hash).or (ledger.asset? hash) := by
  rcases compiling.resolving with ⟨rfl, rfl⟩ | ⟨_, _, resolving⟩
  · rfl
  · exact resolving.assets hash

/-- In a run the store gives an asset only to hashes that the ledger lacks, and once. -/
theorem Compiling.fresh
    (compiling : Compiling config available previous manifest ledger result events final) :
    ((completions none events).map (·.1)).Nodup ∧
      ∀ hash ∈ (completions none events).map (·.1), ledger.asset? hash = none := by
  rcases compiling.resolving with ⟨rfl, rfl⟩ | ⟨jobs, _, resolving⟩
  · exact ⟨List.nodup_nil, fun _ member => nomatch member⟩
  · refine ⟨(Store.nodup_wanted ledger jobs).sublist resolving.completed.sublist, fun hash member => ?_⟩
    exact Store.asset?_of_mem_wanted (resolving.completed.subset member)

theorem Compiling.keeps
    (compiling : Compiling config available previous manifest ledger result events final)
    {hash asset : String} (held : ledger.asset? hash = some asset) : final.asset? hash = some asset := by
  have fresh : (completions none events).lookup hash = none := by
    rw [← Option.not_isSome_iff_eq_none, isSome_lookup]
    intro member
    rw [compiling.fresh.2 hash member] at held
    cases held
  rw [compiling.assets, fresh, Option.none_or, held]

end Assets

section Pictures

omit [Scalar α] in
theorem wantedPictures_revise (lookup : String → Option String) (node : Node α) :
    Plan.wantedPictures (node.revise (Plan.filling lookup)) = (Plan.wantedPictures node).map fun wanted =>
      ⟨Plan.fillPicture lookup wanted.picture, wanted.name⟩ := by
  simp only [Plan.wantedPictures, Plan.ownPlacards, Node.layer_revise, Layer.revised, Plan.filling,
    Plan.fillNotes, List.map_append, List.map_map, Option.toList_map]
  rfl

variable {σ : Type} [Host (StateM σ)] {config : Config α} {uploader : Uploader (StateM σ)}
  {previous : Option (Snapshot α)} {manifest : Manifest α} {before after : Ledger × σ}
  {compilation : Compilation α}

/-- In the document of a run, a picture that reuse left open shows the asset that the ledger holds for
its hash; the ledger held it before or got it in this run. -/
theorem shows_held
    (done : Store.Yields (run config uploader previous manifest) before (.ok compilation) after) :
    ∃ (planned : PlannedDesign α) (arena : Arena α),
      PlannedDesign.of config previous manifest = .ok planned ∧
      compilation.document = arena.document ∧ before.1.Grows after.1 ∧
      ∀ node ∈ Plan.emitted (Diff.applyReuse planned.diff.reuse planned.root).1,
        ∀ wanted ∈ Plan.wantedPictures node, wanted.picture.asset = none →
          ∃ asset, after.1.asset? wanted.picture.hash = some asset ∧
            (manifest.Unplanned → Plan.WantedPicture.showing ⟨⟨wanted.picture.hash, some asset⟩, wanted.name⟩ ∈
              arena.showings) := by
  obtain ⟨planned, resolution, stages, finished⟩ := stages_of_run done
  obtain ⟨arena, log, assembled, shown⟩ := stages.assembled
  obtain ⟨arena', log', assembled', rfl⟩ := finish_eq_ok.mp finished
  obtain ⟨rfl, _⟩ := Prod.mk.inj (Except.ok.inj (assembled.symm.trans assembled'))
  refine ⟨planned, arena, stages.plan, rfl, (Store.resolveAll_ok stages.assets).1, ?_⟩
  intro node live wanted member unfilled
  rw [Diff.applyReuse_eq] at live
  have listed : wanted.picture ∈ Plan.pictures node := by
    rw [← Plan.map_picture_wantedPictures]
    exact List.mem_map_of_mem member
  obtain ⟨job, pending, same⟩ := List.mem_map.mp (Plan.mem_pendingJobs.mpr
    ⟨node, live, wanted.picture, listed, unfilled, rfl⟩)
  obtain ⟨asset, found, held⟩ := Store.lookup_resolved stages.assets pending
  rw [same] at found held
  refine ⟨asset, held, fun fresh => ?_⟩
  have final : node.revise (Plan.filling (resolution.resolved.lookup ·)) ∈
      Plan.emitted (planned.resolved (resolution.resolved.lookup ·)) := by
    rw [← PlannedDesign.applyAssets_carried, Plan.applyAssets_eq,
      Node.emitted_revise Plan.refills_filling.life]
    exact List.mem_map_of_mem live
  have blind : ∀ node : Node α, Plan.pictures node = [] →
      (Plan.wantedPictures node).map (Plan.WantedPicture.showing : _ → Showing α) = [] := by
    intro node blank
    rw [List.map_eq_nil_iff, ← List.map_eq_nil_iff (f := (·.picture)), Plan.map_picture_wantedPictures, blank]
  rw [shown.mem_iff, ← PlannedDesign.flatMap_resolved fresh stages.plan blind]
  refine List.mem_flatMap.mpr ⟨_, final, List.mem_map.mpr ⟨_, ?_, rfl⟩⟩
  rw [wantedPictures_revise]
  refine List.mem_map.mpr ⟨wanted, member, ?_⟩
  rw [fillPicture_of_none unfilled, found]

end Pictures

end Compilation
end DesignCompiler
