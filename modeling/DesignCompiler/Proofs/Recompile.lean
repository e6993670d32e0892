import DesignCompiler.Proofs.Agreement

/-!
Compiling a design a second time. The snapshot of a run hands every node back the picture it stands
by, the ledger knows all others, and so the second run gives the same output and asks nobody.
-/
namespace DesignCompiler

variable {α : Type} [Scalar α]

namespace PlannedDesign

/-- The plan of the next run, which starts from what this one left. -/
def again (planned : PlannedDesign α) (lookup : String → Option String) : PlannedDesign α :=
  { planned with diff := Diff.of planned.root (some (planned.resolved lookup).snapshot) }

theorem of_again {config : Config α} {previous : Option (Snapshot α)} {manifest : Manifest α}
    {planned : PlannedDesign α} (plan : of config previous manifest = .ok planned)
    (lookup : String → Option String) :
    of config (some (planned.resolved lookup).snapshot) manifest = .ok (planned.again lookup) :=
  (of_other plan).2 _

section Kept

variable {planned : PlannedDesign α} {lookup : String → Option String} {id : String} {node : Node α}
  (kept : (planned.root.backwards.reverse.find? fun node => node.layer.id == id) = some node)

include kept

theorem entry_of_kept : (planned.resolved lookup).snapshot.get? id =
    some (node.revise (planned.filled lookup)).snapshotEntry := by
  have ids : ((fun node : Node α => node.layer.id == id) ∘ Node.revise (planned.filled lookup)) =
      fun node => node.layer.id == id := by
    funext node
    simp [Layer.revised]
  rw [Snapshot.get?_snapshot, resolved, Node.backwards_revise (planned.refills_filled lookup).life,
    ← List.map_reverse, List.find?_map, ids, kept]
  rfl

theorem isUnchanged_of_kept :
    Diff.isUnchanged (some (planned.resolved lookup).snapshot) node = true := by
  have same : node.layer.id = id := by simpa using List.find?_some kept
  rw [Diff.isUnchanged, Diff.held?, same, Option.bind_some, entry_of_kept kept]
  simp [Node.snapshotEntry, (planned.refills_filled lookup).fingerprint]

/-- An id is handed the asset of the picture that stands for the node kept under it. -/
theorem lookup_of_kept : (planned.again lookup).diff.reuse.lookup id =
    (planned.filled lookup node.layer).primary.bind (·.asset) := by
  have own : node.layer.id = id := by simpa using List.find?_some kept
  have live : node ∈ Plan.emitted planned.root :=
    (Node.backwards_perm _).mem_iff.mp (List.mem_reverse.mp (List.mem_of_find?_eq_some kept))
  have entry : (Diff.held? (some (planned.resolved lookup).snapshot) node).bind (·.asset) =
      (planned.filled lookup node.layer).primary.bind (·.asset) := by
    rw [Diff.held?, own, Option.bind_some, entry_of_kept kept, Option.bind_some, Node.snapshotEntry,
      Plan.primaryAsset, Plan.primary, Node.layer_revise]
    rfl
  have carried : ∀ asset, Diff.carried? (some (planned.resolved lookup).snapshot) node = some asset ↔
      (planned.filled lookup node.layer).primary.bind (·.asset) = some asset := by
    intro asset
    rw [Diff.carried_eq_some, entry, isUnchanged_of_kept kept]
    exact and_iff_right rfl
  ext asset
  rw [again, Diff.lookup_reuse, ← carried asset]
  constructor
  · rintro ⟨other, _, same, given⟩
    exact Diff.carried_of_same (same.trans own.symm) given (isUnchanged_of_kept kept)
  · intro given
    exact ⟨node, live, own, given⟩

end Kept

section Distinct

variable {planned : PlannedDesign α} {lookup : String → Option String} {node : Node α}
  (distinct : ((Plan.emitted planned.root).map (·.layer.id)).Nodup)
  (live : node ∈ Plan.emitted planned.root)

include distinct live

theorem entry_again : Diff.held? (some (planned.resolved lookup).snapshot) node =
    some (node.revise (planned.filled lookup)).snapshotEntry :=
  entry_of_kept (Snapshot.find?_of_distinct distinct live)

theorem isUnchanged_again :
    Diff.isUnchanged (some (planned.resolved lookup).snapshot) node = true :=
  isUnchanged_of_kept (Snapshot.find?_of_distinct distinct live)

theorem lookup_again : (planned.again lookup).diff.reuse.lookup node.layer.id =
    (planned.filled lookup node.layer).primary.bind (·.asset) :=
  lookup_of_kept (Snapshot.find?_of_distinct distinct live)

end Distinct

section Filled

variable {planned : PlannedDesign α} {lookup : String → Option String} {node : Node α}
  (distinct : ((Plan.emitted planned.root).map (·.layer.id)).Nodup)
  (found : ∀ job ∈ planned.jobs, (lookup job.hash).isSome = true)
  (live : node ∈ Plan.emitted planned.root)

include found live

omit [Scalar α] in
theorem primary_filled (held : Picture) (primary : node.layer.annotations.primary = some held) :
    ((planned.filled lookup node.layer).primary.bind (·.asset)).isSome = true := by
  have hash := (planned.refills_filled lookup).primary node.layer
  rw [primary] at hash
  obtain ⟨filled, there, _⟩ := Option.map_eq_some_iff.mp hash
  obtain ⟨asset, given⟩ := exists_asset found live (Annotations.mem_of_primary there)
  rw [there, Option.bind_some, given]
  rfl

include distinct

theorem exists_job_again {picture : Picture}
    (member : picture ∈ (Diff.carrying (planned.again lookup).diff.reuse node.layer).pictures)
    (unfilled : picture.asset = none) : ∃ job ∈ planned.jobs, job.hash = picture.hash := by
  refine exists_job live ?_ unfilled
  rw [Diff.carrying_eq] at member ⊢
  refine Diff.open_of_carry (fun held primary => ?_) member unfilled _
  rw [lookup_again distinct live]
  exact primary_filled found live held primary

end Filled

section Result

variable {planned : PlannedDesign α} {lookup other : String → Option String}
  (distinct : ((Plan.emitted planned.root).map (·.layer.id)).Nodup)
  (found : ∀ job ∈ planned.jobs, (lookup job.hash).isSome = true)

include distinct found

theorem jobs_again {job : UploadJob} (member : job ∈ (planned.again lookup).jobs) :
    ∃ earlier ∈ planned.jobs, earlier.hash = job.hash := by
  obtain ⟨node, live, picture, open', unfilled, same⟩ :=
    Plan.mem_pendingJobs.mp (List.mem_map_of_mem (f := (·.hash)) member)
  rw [carried, Node.emitted_revise (Diff.refills_carrying _).life] at live
  obtain ⟨origin, there, rfl⟩ := List.mem_map.mp live
  rw [Node.layer_revise] at open'
  obtain ⟨earlier, listed, hash⟩ := exists_job_again distinct found there open' unfilled
  exact ⟨earlier, listed, hash.trans same⟩

/-- If the next run finds the assets that this one found, it ends up with the same tree. -/
theorem resolved_again (agree : ∀ job ∈ (planned.again lookup).jobs, other job.hash = lookup job.hash) :
    (planned.again lookup).resolved other = planned.resolved lookup := by
  refine Node.revise_congr planned.root fun node live => ?_
  refine Diff.fill_again (lookup_again distinct live) (fun held primary => ?_) ?_
  · rw [lookup_again distinct live]
    exact primary_filled found live held primary
  · intro picture member unfilled
    obtain ⟨job, listed, same⟩ : ∃ job ∈ (planned.again lookup).jobs, job.hash = picture.hash :=
      exists_job live member unfilled
    rw [← same]
    exact agree job listed

omit found in
theorem diff_again : (planned.again lookup).diff.changed = [] ∧ (planned.again lookup).diff.added = [] ∧
    (planned.again lookup).diff.removed = [] ∧
    (planned.again lookup).diff.unchanged.Perm ((Plan.emitted planned.root).map (·.layer.id)) := by
  refine ⟨?_, ?_, ?_, ?_⟩
  · refine List.eq_nil_iff_forall_not_mem.mpr fun id member => ?_
    obtain ⟨node, live, changed, _⟩ := ((Diff.changed_iff _ _).1 id).mp member
    rw [Diff.isChanged, entry_again distinct live] at changed
    simp [Node.snapshotEntry, (planned.refills_filled lookup).fingerprint] at changed
  · refine List.eq_nil_iff_forall_not_mem.mpr fun id member => ?_
    obtain ⟨node, live, added, _⟩ := ((Diff.added_iff _ _).1 id).mp member
    simp [Diff.isAdded, entry_again distinct live] at added
  · refine List.eq_nil_iff_forall_not_mem.mpr fun id member => ?_
    obtain ⟨⟨_, ⟨rfl⟩, listed⟩, gone⟩ := Diff.mem_removed.mp member
    rw [Snapshot.mem_ids_snapshot, resolved,
      Node.emitted_revise (planned.refills_filled lookup).life, List.map_map] at listed
    exact gone (by simpa [Function.comp_def, Layer.revised] using listed)
  · obtain ⟨listed, sorted⟩ := Diff.unchanged_iff planned.root (some (planned.resolved lookup).snapshot)
    refine (List.perm_ext_iff_of_nodup (sorted.imp fun less => less.ne) distinct).mpr fun id => ?_
    rw [listed, List.mem_map]
    constructor
    · rintro ⟨node, live, _, same⟩
      exact ⟨node, live, same⟩
    · rintro ⟨node, live, same⟩
      exact ⟨node, live, isUnchanged_again distinct live, same⟩

end Result

end PlannedDesign

namespace Compilation

open Store (Yields)

omit [Scalar α] in
/-- What can be had stays so, if the ledger has grown and no new job has come up. -/
theorem isObtainable_mono {before after : Store.Ledger} {raw : List (String × String)}
    {root other : Node α} {jobs later : List UploadJob} {hash : String}
    (growth : before.Grows after) (same : Plan.requiredHashes other = Plan.requiredHashes root)
    (fewer : ∀ job ∈ later, ∃ earlier ∈ jobs, earlier.hash = job.hash)
    (obtainable : isObtainable before raw root jobs hash = true) :
    isObtainable after raw other later hash = true := by
  simp only [isObtainable, Bool.or_eq_true, Bool.and_eq_true] at obtainable ⊢
  rw [same]
  refine obtainable.imp_left fun either => either.imp ?_ ?_
  · rintro ⟨unasked, required⟩
    refine ⟨?_, required⟩
    simp only [Bool.not_eq_true', List.any_eq_false, beq_iff_eq] at unasked ⊢
    intro job member equal
    obtain ⟨earlier, listed, hash⟩ := fewer job member
    exact unasked earlier listed (hash.trans equal)
  · intro known
    obtain ⟨asset, held⟩ := Option.isSome_iff_exists.mp known
    exact Option.isSome_iff_exists.mpr ⟨asset, growth.asset held⟩

section Next

variable {σ : Type} [Host (StateM σ)] {config : Config α} {uploader : Store.Uploader (StateM σ)}
  {previous : Option (Snapshot α)} {manifest : Manifest α} {before after : Store.Ledger × σ}
  {planned : PlannedDesign α} {resolution : Store.Resolution}
  (stages : Stages config uploader previous manifest before after planned resolution)
  (distinct : ((Plan.emitted planned.root).map (·.layer.id)).Nodup)

include stages distinct

/-- The ledger holds an asset for every job of the next run, the one that this run found. -/
theorem Stages.held_again {job : UploadJob}
    (member : job ∈ (planned.again (resolution.resolved.lookup ·)).jobs) :
    after.1.asset? job.hash = resolution.resolved.lookup job.hash ∧
      (after.1.asset? job.hash).isSome = true := by
  obtain ⟨earlier, listed, same⟩ := PlannedDesign.jobs_again distinct stages.found member
  obtain ⟨asset, held, stored⟩ := Store.lookup_resolved stages.assets listed
  rw [← same, held, stored]
  exact ⟨rfl, rfl⟩

/-- Whichever way a declared hash could be had in this run, it can be had in the next one. -/
theorem Stages.declared_again :
    checkDeclared after.1 manifest.rawContent (planned.again (resolution.resolved.lookup ·)).carried
      (planned.again (resolution.resolved.lookup ·)).jobs manifest.unresolved = .ok () := by
  have declared := stages.declared
  rw [checkDeclared_eq_ok] at declared ⊢
  intro hash listed
  refine isObtainable_mono (Store.resolveAll_ok stages.assets).1 ?_
    (fun job member => PlannedDesign.jobs_again distinct stages.found member) (declared hash listed)
  exact ((Diff.refills_carrying _).requiredHashes planned.root).trans
    ((Diff.refills_carrying _).requiredHashes planned.root).symm

/-- The next run comes to the same tree without asking anything of the machine or the store. -/
theorem Stages.runs_again {m : Type → Type} [Monad m] [LawfulMonad m] [Host m]
    (other : Store.Uploader m) :
    ∃ again : Store.Resolution,
      (run config other (some (planned.resolved (resolution.resolved.lookup ·)).snapshot) manifest).run
          after.1 =
        pure (finish config (planned.again (resolution.resolved.lookup ·))
          (reusedOf (planned.again (resolution.resolved.lookup ·)))
          (planned.resolved (resolution.resolved.lookup ·)) again, after.1) := by
  obtain ⟨again, agree, runs⟩ := run_known other (PlannedDesign.of_again stages.plan _)
    (stages.declared_again distinct) fun job member => (stages.held_again distinct member).2
  have tree : (planned.again (resolution.resolved.lookup ·)).resolved (again.resolved.lookup ·) =
      planned.resolved (resolution.resolved.lookup ·) :=
    PlannedDesign.resolved_again distinct stages.found fun job member =>
      (agree job member).trans (stages.held_again distinct member).1
  rw [tree] at runs
  exact ⟨again, runs⟩

end Next

/-- If a run of a manifest without repeated ids succeeds, then a second run that starts from its
snapshot and its ledger succeeds without asking anything of the machine or the store, whatever they
are, with the same document and the same snapshot, and finds every live node unchanged. -/
theorem run_again {σ : Type} [Host (StateM σ)] {config : Config α}
    {uploader : Store.Uploader (StateM σ)} {previous : Option (Snapshot α)} {manifest : Manifest α}
    {before after : Store.Ledger × σ} {first : Compilation α}
    (distinct : ∀ root, manifest.root = some root →
      ((Plan.emitted root).map (·.layer.id)).Nodup)
    (done : Yields (run config uploader previous manifest) before (.ok first) after) :
    ∃ planned, PlannedDesign.of config previous manifest = .ok planned ∧
      ∀ {m : Type → Type} [Monad m] [LawfulMonad m] [Host m] (other : Store.Uploader m),
        ∃ second : Compilation α,
          (run config other (some first.snapshot) manifest).run after.1 =
            pure (.ok second, after.1) ∧
          second.document = first.document ∧ second.snapshot = first.snapshot ∧
          second.diff.changed = [] ∧ second.diff.added = [] ∧ second.diff.removed = [] ∧
          second.diff.unchanged.Perm ((Plan.emitted planned.root).map (·.layer.id)) := by
  obtain ⟨planned, resolution, stages, finished⟩ := stages_of_run done
  obtain ⟨arena, log, assembled, rfl⟩ := finish_eq_ok.mp finished
  obtain ⟨root, found, _⟩ := PlannedDesign.of_eq_ok stages.plan
  have apart := PlannedDesign.distinct_ids found (distinct root found) stages.plan
  refine ⟨planned, stages.plan, fun other => ?_⟩
  obtain ⟨again, runs⟩ := stages.runs_again apart other
  have finishedNext : finish config (planned.again (resolution.resolved.lookup ·))
      (reusedOf (planned.again (resolution.resolved.lookup ·))) _ again = .ok _ :=
    finish_eq_ok.mpr ⟨arena, log, assembled, rfl⟩
  rw [finishedNext] at runs
  exact ⟨_, runs, rfl, rfl, PlannedDesign.diff_again apart⟩

/-- The second run of a poster that was compiled once, without a store. -/
theorem poster_again : ∃ (ledger : Store.Ledger) (first second : Compilation Rat),
    Yields (run plain Store.Uploader.disabled none poster) (ledger, Machine.ofDisk .empty) (.ok first)
      (ledger, Machine.ofDisk .empty) ∧
    (run (m := StateM Machine) plain Store.Uploader.disabled (some first.snapshot) poster).run ledger =
      pure (.ok second, ledger) ∧
    second.document = first.document ∧ second.diff.changed = [] := by
  obtain ⟨ledger, planned, resolution, stages, _⟩ := poster_stages
  obtain ⟨first, _, _, done, _⟩ := stages.compiled
  have distinct : ∀ root, poster.root = some root → ((Plan.emitted root).map (·.layer.id)).Nodup := by
    rintro _ ⟨⟩
    decide
  obtain ⟨_, _, again⟩ := run_again distinct done
  obtain ⟨second, runs, document, _, changed, _⟩ := again (m := StateM Machine) Store.Uploader.disabled
  exact ⟨ledger, first, second, done, runs, document, changed⟩

end Compilation
end DesignCompiler
