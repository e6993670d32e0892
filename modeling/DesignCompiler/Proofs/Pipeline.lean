import DesignCompiler.Compilation
import DesignCompiler.Proofs.Comparison

/-!
A run taken apart: the plan that does not depend on the previous run, the pictures carried over from
it, the jobs left, and the tree with all assets filled in.
-/
namespace DesignCompiler

variable {α : Type} [Scalar α]

namespace PlannedDesign

variable {config : Config α} {previous : Option (Snapshot α)} {manifest : Manifest α}
  {planned : PlannedDesign α}

def carried (planned : PlannedDesign α) : Node α :=
  planned.root.revise (Diff.carrying planned.diff.reuse)

def jobs (planned : PlannedDesign α) : List UploadJob := Plan.pendingJobs planned.carried

/-- What a run does to the annotations of a planned layer, given how assets are looked up. -/
def filled (planned : PlannedDesign α) (lookup : String → Option String) (layer : Layer α) :
    Annotations α :=
  Plan.filling lookup (layer.revised (Diff.carrying planned.diff.reuse))

/-- The planned tree with all assets filled in. -/
def resolved (planned : PlannedDesign α) (lookup : String → Option String) : Node α :=
  planned.root.revise (planned.filled lookup)

omit [Scalar α] in
theorem refills_filled (planned : PlannedDesign α) (lookup : String → Option String) :
    Refills (planned.filled lookup) :=
  Plan.refills_filling.comp (Diff.refills_carrying _)

omit [Scalar α] in
theorem applyAssets_carried (planned : PlannedDesign α) (lookup : String → Option String) :
    Plan.applyAssets lookup planned.carried = planned.resolved lookup := by
  rw [Plan.applyAssets_eq, carried, Node.revise_revise (Diff.refills_carrying _).life]
  rfl

/-- A plan depends on the previous run in nothing but the comparison with it. -/
theorem of_other (done : of config previous manifest = .ok planned) :
    planned.diff = Diff.of planned.root previous ∧
      ∀ other, of config other manifest = .ok { planned with diff := Diff.of planned.root other } := by
  rw [of] at done
  cases rules : config.rules with
  | error fault => simp [rules] at done
  | ok rules' =>
    cases taken : manifest.takeRoot with
    | error failure => simp [rules, taken, bind, Except.bind] at done
    | ok pair =>
      simp only [rules, taken, bind, Except.bind, pure, Except.pure, Except.ok.injEq] at done
      subst done
      refine ⟨rfl, fun other => ?_⟩
      simp [of, rules, taken, bind, Except.bind, pure, Except.pure]

end PlannedDesign

namespace Compilation

open Store (Yields yields_bind yields_pure yields_get)

/-- How many pictures reuse fills. -/
def reusedOf (planned : PlannedDesign α) : Nat :=
  (Diff.applyReuse planned.diff.reuse planned.root).2

omit [Scalar α] in
theorem checkDeclared_eq_ok {ledger : Store.Ledger} {raw : List (String × String)} {root : Node α}
    {jobs : List UploadJob} {declared : List String} :
    checkDeclared ledger raw root jobs declared = .ok () ↔
      ∀ hash ∈ declared, isObtainable ledger raw root jobs hash = true := by
  rw [checkDeclared]
  cases found : declared.find? fun hash => !isObtainable ledger raw root jobs hash with
  | none => simpa using found
  | some hash =>
    have missing := List.find?_some found
    have member := List.mem_of_find?_eq_some found
    simp only [reduceCtorEq, false_iff, not_forall]
    exact ⟨hash, member, by simpa using missing⟩

/-- A run succeeds, once all assets are found, just if the tree can be assembled. -/
theorem finish_eq_ok {config : Config α} {planned : PlannedDesign α} {reused : Nat} {root : Node α}
    {resolution : Store.Resolution} {compilation : Compilation α} :
    finish config planned reused root resolution = .ok compilation ↔
      ∃ arena log, (Assembly.assemble planned.rules config.text root).run ⟨planned.warnings, []⟩ =
        .ok (arena, log) ∧ compilation =
          { document := arena.document
            diff := planned.diff
            snapshot := root.snapshot
            report := ⟨root.layer.name, arena.size, (Plan.requiredHashes root).length,
              resolution.uploaded, resolution.cacheHits, reused, planned.stroke.groups,
              planned.stroke.duplicates, log.warnings⟩ } := by
  rw [finish]
  cases (Assembly.assemble planned.rules config.text root).run ⟨planned.warnings, []⟩ with
  | error failure => simp [bind, Except.bind]
  | ok result =>
    obtain ⟨arena, log⟩ := result
    simp [bind, Except.bind, pure, Except.pure, eq_comm]

theorem run_planned {m : Type → Type} [Monad m] [Host m] {config : Config α}
    {previous : Option (Snapshot α)} {manifest : Manifest α} {planned : PlannedDesign α}
    (uploader : Store.Uploader m) (plan : PlannedDesign.of config previous manifest = .ok planned) :
    run config uploader previous manifest = do
      match checkDeclared (← get) manifest.rawContent planned.carried planned.jobs
          manifest.unresolved with
      | .error failure => return .error failure
      | .ok () =>
        match ← Store.resolveAll planned.jobs manifest.rawContent uploader config.upload with
        | .error failure => return .error failure
        | .ok resolution =>
          return finish config planned (reusedOf planned)
            (planned.resolved (resolution.resolved.lookup ·)) resolution := by
  simp only [run, plan, Diff.applyReuse_eq, ← PlannedDesign.applyAssets_carried]
  rfl

/-- The stages that a run goes through unless it fails on the way. -/
structure Stages {σ : Type} [Host (StateM σ)] (config : Config α) (uploader : Store.Uploader (StateM σ))
    (previous : Option (Snapshot α)) (manifest : Manifest α) (before after : Store.Ledger × σ)
    (planned : PlannedDesign α) (resolution : Store.Resolution) : Prop where
  plan : PlannedDesign.of config previous manifest = .ok planned
  declared : checkDeclared before.1 manifest.rawContent planned.carried planned.jobs
    manifest.unresolved = .ok ()
  assets : Yields (Store.resolveAll planned.jobs manifest.rawContent uploader config.upload) before
    (.ok resolution) after

section World

variable {σ : Type} [Host (StateM σ)] {config : Config α} {uploader : Store.Uploader (StateM σ)}
  {previous : Option (Snapshot α)} {manifest : Manifest α} {before after : Store.Ledger × σ}

theorem Stages.yields {planned : PlannedDesign α} {resolution : Store.Resolution}
    (stages : Stages config uploader previous manifest before after planned resolution) :
    Yields (run config uploader previous manifest) before
      (finish config planned (reusedOf planned) (planned.resolved (resolution.resolved.lookup ·))
        resolution) after := by
  obtain ⟨plan, declared, assets⟩ := stages
  rw [run_planned uploader plan]
  refine yields_bind.mpr ⟨_, _, yields_get.mpr ⟨rfl, rfl⟩, ?_⟩
  rw [declared]
  exact yields_bind.mpr ⟨_, _, assets, yields_pure.mpr ⟨rfl, rfl⟩⟩

theorem stages_of_run {compilation : Compilation α}
    (done : Yields (run config uploader previous manifest) before (.ok compilation) after) :
    ∃ planned resolution,
      Stages config uploader previous manifest before after planned resolution ∧
      finish config planned (reusedOf planned) (planned.resolved (resolution.resolved.lookup ·))
        resolution = .ok compilation := by
  cases plan : PlannedDesign.of config previous manifest with
  | error failure => simp [run, plan, yields_pure] at done
  | ok planned =>
    rw [run_planned uploader plan] at done
    obtain ⟨_, _, known, done⟩ := yields_bind.mp done
    obtain ⟨rfl, rfl⟩ := yields_get.mp known
    split at done
    · simp [yields_pure] at done
    · rename_i declared
      obtain ⟨resolved, final, assets, done⟩ := yields_bind.mp done
      cases resolved with
      | error failure => simp [yields_pure] at done
      | ok resolution =>
        obtain ⟨finished, rfl⟩ := yields_pure.mp done
        exact ⟨planned, resolution, ⟨plan, declared, assets⟩, finished⟩

end World

/-- A run whose jobs the ledger all knows asks nothing of the machine and the store, whatever they
are. -/
theorem run_known {m : Type → Type} [Monad m] [LawfulMonad m] [Host m] {config : Config α}
    {previous : Option (Snapshot α)} {manifest : Manifest α} {planned : PlannedDesign α}
    {ledger : Store.Ledger} (uploader : Store.Uploader m)
    (plan : PlannedDesign.of config previous manifest = .ok planned)
    (declared : checkDeclared ledger manifest.rawContent planned.carried planned.jobs
      manifest.unresolved = .ok ())
    (held : ∀ job ∈ planned.jobs, (ledger.asset? job.hash).isSome = true) :
    ∃ resolution : Store.Resolution,
      (∀ job ∈ planned.jobs, resolution.resolved.lookup job.hash = ledger.asset? job.hash) ∧
      (run config uploader previous manifest).run ledger =
        pure (finish config planned (reusedOf planned)
          (planned.resolved (resolution.resolved.lookup ·)) resolution, ledger) := by
  obtain ⟨known, found, served⟩ := Store.resolveAll_known uploader config.upload
    manifest.rawContent held
  refine ⟨⟨known, [], known.length⟩, found, ?_⟩
  rw [run_planned uploader plan]
  simp [declared, served]

end Compilation
end DesignCompiler
