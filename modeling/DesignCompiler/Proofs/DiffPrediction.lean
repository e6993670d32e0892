import DesignCompiler.Proofs.Agreement

/-!
The comparison done by itself foretells a run: it comes to the differences that the run reports, and it
fails just as a run fails before it has asked anybody for anything.
-/
namespace DesignCompiler

variable {α : Type} [Scalar α]

namespace Diff

theorem step_revise {change : Layer α → Annotations α} (refills : Refills change)
    (previous : Option (Snapshot α)) (diff : Diff) (node : Node α) :
    step previous diff (node.revise change) = step previous diff node := by
  simp only [step, refills.fingerprint, Node.layer_revise, Layer.revised]

/-- A comparison does not see which assets are known, so it may be made before they are found. -/
theorem of_revise {change : Layer α → Annotations α} (refills : Refills change) (root : Node α)
    (previous : Option (Snapshot α)) : Diff.of (root.revise change) previous = Diff.of root previous := by
  simp only [Diff.of, Node.backwards_revise refills.life, List.foldl_map, step_revise refills, List.any_map,
    Function.comp_def, Node.layer_revise, Layer.revised]

end Diff

namespace Manifest

/-- Where the comparison succeeds, a run has a plan with just these differences. -/
theorem diff_eq_ok {config : Config α} {previous : Option (Snapshot α)} {manifest : Manifest α} {diff : Diff} :
    manifest.diff config previous = .ok diff ↔
      ∃ planned, PlannedDesign.of config previous manifest = .ok planned ∧ planned.diff = diff := by
  rw [Manifest.diff]
  cases PlannedDesign.of config previous manifest with
  | error failure => simp [Except.map]
  | ok planned => simp [Except.map]

theorem diff_eq_error {config : Config α} {previous : Option (Snapshot α)} {manifest : Manifest α}
    {failure : Failure} : manifest.diff config previous = .error failure ↔
      PlannedDesign.of config previous manifest = .error failure := by
  rw [Manifest.diff]
  cases PlannedDesign.of config previous manifest with
  | error failure => simp [Except.map]
  | ok planned => simp [Except.map]

end Manifest

namespace Compilation

open Store (Ledger Uploader Yields)

/-- The differences that a run reports are those of the tree that it takes its snapshot of. -/
theorem diff_of_run {σ : Type} [Host (StateM σ)] {config : Config α} {uploader : Uploader (StateM σ)}
    {previous : Option (Snapshot α)} {manifest : Manifest α} {before after : Ledger × σ}
    {compilation : Compilation α}
    (done : Yields (run config uploader previous manifest) before (.ok compilation) after) :
    manifest.diff config previous = .ok compilation.diff ∧
      ∃ tree : Node α, compilation.snapshot = tree.snapshot ∧ compilation.diff = Diff.of tree previous := by
  obtain ⟨planned, resolution, stages, finished⟩ := stages_of_run done
  obtain ⟨arena, log, _, rfl⟩ := finish_eq_ok.mp finished
  refine ⟨Manifest.diff_eq_ok.mpr ⟨planned, stages.plan, rfl⟩, _, rfl, ?_⟩
  rw [PlannedDesign.resolved, Diff.of_revise (planned.refills_filled _)]
  exact (PlannedDesign.of_other stages.plan).1

theorem run_unplanned {m : Type → Type} [Monad m] [LawfulMonad m] [Host m] {config : Config α}
    {previous : Option (Snapshot α)} {manifest : Manifest α} {failure : Failure} (uploader : Uploader m)
    (ledger : Ledger) (unplanned : PlannedDesign.of config previous manifest = .error failure) :
    (run config uploader previous manifest).run ledger = pure (.error failure, ledger) := by
  rw [run, unplanned]
  rfl

/-- Whatever the machine, the store and the ledger are: the comparison comes to the differences that a run
reports if it succeeds, which are also those of the tree that its snapshot is of; and where the comparison
fails, the run fails in the same way, with the ledger as it was and nothing asked of anybody. -/
theorem run_predicted (config : Config α) (previous : Option (Snapshot α)) (manifest : Manifest α) :
    (∀ {σ : Type} [Host (StateM σ)] (uploader : Uploader (StateM σ)) (before after : Ledger × σ)
        (compilation : Compilation α),
      Yields (run config uploader previous manifest) before (.ok compilation) after →
        manifest.diff config previous = .ok compilation.diff ∧
        ∃ tree : Node α, compilation.snapshot = tree.snapshot ∧
          compilation.diff = Diff.of tree previous) ∧
    ∀ failure, manifest.diff config previous = .error failure →
      ∀ {m : Type → Type} [Monad m] [LawfulMonad m] [Host m] (uploader : Uploader m) (ledger : Ledger),
        (run config uploader previous manifest).run ledger = pure (.error failure, ledger) := by
  constructor
  · intro σ host uploader before after compilation done
    exact diff_of_run done
  · intro failure failed m monad lawful host uploader ledger
    exact run_unplanned uploader ledger (Manifest.diff_eq_error.mp failed)

def blank : Manifest Rat := ⟨none, [], [], .empty⟩

theorem run_predicted_poster : (∃ (ledger : Ledger) (compilation : Compilation Rat),
      Yields (run plain Uploader.disabled none poster) (ledger, Machine.ofDisk .empty) (.ok compilation)
        (ledger, Machine.ofDisk .empty) ∧
      poster.diff plain none = .ok compilation.diff) ∧
    blank.diff plain none = .error (.malformedManifest "manifest has no root node") ∧
    (run (m := StateM Machine) plain Uploader.disabled none blank).run ⟨none, []⟩ =
      pure (.error (.malformedManifest "manifest has no root node"), ⟨none, []⟩) := by
  constructor
  · obtain ⟨ledger, planned, resolution, stages, _⟩ := poster_stages
    obtain ⟨compilation, _, _, done, _⟩ := stages.compiled
    exact ⟨ledger, compilation, done, ((run_predicted plain none poster).1 _ _ _ _ done).1⟩
  · have failed : blank.diff plain none = .error (.malformedManifest "manifest has no root node") := rfl
    exact ⟨failed, (run_predicted plain none blank).2 _ failed _ _⟩

end Compilation
end DesignCompiler
