import DesignCompiler.Proofs.Compiling

/-!
A run that cannot succeed fails before it asks for anything; one that has sent something fails through
the store or the files only.
-/
namespace DesignCompiler

open Store (Ledger Uploader UploadRequest Polling Uploading Session Resolving picture? wanted)

/-- A failure that the store reports, or running out of polls, or a file that failed. -/
inductive Blamed (limit : Nat) (events : List Event) : Failure → Prop where
  | created {failure : Failure} (answered : Event.created request (.error failure) ∈ events) :
      Blamed limit events failure
  | polled {failure : Failure} (answered : Event.polled operation (.error failure) ∈ events) :
      Blamed limit events failure
  | timeout : Blamed limit events (.pollTimeout operation limit)
  | file (member : event ∈ events) (answered : event.file? = some (.error fault)) :
      Blamed limit events (.io fault)

section Blame

variable {limit left : Nat} {events more : List Event} {failure : Failure}

theorem Blamed.mono (blamed : Blamed limit events failure) (among : events ⊆ more) :
    Blamed limit more failure := by
  cases blamed with
  | created answered => exact .created (among answered)
  | polled answered => exact .polled (among answered)
  | timeout => exact .timeout
  | file member answered => exact .file (among member) answered

theorem Polling.blames {operation : String} {result : Except Failure String}
    (polls : Polling limit left operation events result) (failed : result = .error failure) :
    Blamed limit events failure := by
  induction polls with
  | spent =>
    obtain rfl := Except.error.inj failed
    exact .timeout
  | failed =>
    obtain rfl := Except.error.inj failed
    exact .polled (List.mem_singleton_self _)
  | complete => cases failed
  | pending _ ih => exact (ih failed).mono (List.subset_cons_self _ _)

theorem Uploading.blames {request : UploadRequest}
    (upload : Uploading limit request events (.error failure)) : Blamed limit events failure := by
  cases upload with
  | failed => exact .created (List.mem_singleton_self _)
  | pending polls => exact (Polling.blames polls rfl).mono (List.subset_cons_self _ _)

theorem Session.blames {ledger final : Ledger} {misses : List (UploadJob × Store.Content)}
    {result : Except Failure (List (String × String))}
    (session : Session limit ledger misses events result final) (failed : result = .error failure) :
    Blamed limit events failure := by
  induction session with
  | done => cases failed
  | failed upload =>
    obtain rfl := Except.error.inj failed
    exact Uploading.blames upload
  | unsaved _ saving =>
    obtain rfl := Except.error.inj failed
    obtain ⟨event, member, answered⟩ := saving.failing
    exact .file (List.mem_append_right _ member) answered
  | stored _ _ _ ih =>
    exact (ih (map_eq_error.mp failed)).mono (List.subset_append_right _ _)

end Blame

section Assets

variable {limit : Nat} {available : Bool} {raw : List (String × String)} {jobs : List UploadJob}
  {ledger final : Ledger} {result : Except Failure Store.Resolution} {events : List Event}

theorem Resolving.refuses
    (resolving : Resolving limit available raw jobs ledger result events final) {hash : String}
    (lacking : hash ∈ wanted ledger jobs) (unusable : picture? raw hash = none) :
    (∃ failure, result = .error failure) ∧ events = [] ∧ final = ledger := by
  cases resolving with
  | unusable | keyless => exact ⟨⟨_, rfl⟩, rfl, rfl⟩
  | cached nothing =>
    rw [nothing] at lacking
    cases lacking
  | uploading _ _ order _ pictures _ =>
    rw [← order] at lacking
    obtain ⟨miss, member, rfl⟩ := List.mem_map.mp lacking
    rw [pictures miss member] at unusable
    cases unusable

/-- Once there are events, a failure is one of the store or of the files. -/
theorem Resolving.blames
    (resolving : Resolving limit available raw jobs ledger result events final)
    (sent : events ≠ []) {failure : Failure} (failed : result = .error failure) :
    Blamed limit events failure := by
  cases resolving with
  | unusable | cached | keyless => exact absurd rfl sent
  | uploading _ _ _ _ _ session => exact Session.blames session (map_eq_error.mp failed)

end Assets

namespace Compilation

variable {α : Type} [Scalar α]

/-- A pattern of the settings cannot be read, or those of click targets are too large together. -/
inductive Unreadable (config : Config α) : Prop where
  | interactive (listed : pattern ∈ config.classification.interactivePatterns)
      (fails : Pattern.Expr.parse pattern = .error fault) : Unreadable config
  | large (read : config.classification.interactivePatterns.mapM Pattern.Expr.parse = .ok exprs)
      (limit : Pattern.sizeLimit < exprs.foldl (fun total expr => total + expr.weight) 0) :
      Unreadable config
  | override (listed : rule ∈ config.overrides) (kind : rule.kind = .regex)
      (fails : Pattern.Expr.parse rule.name = .error fault) : Unreadable config

/-- What stands against a run from the start: patterns that cannot be read, a missing root, a declared
hash that cannot be had, or a picture that reuse leaves open and that neither the ledger nor the
manifest has. -/
inductive Refused (config : Config α) (previous : Option (Snapshot α)) (manifest : Manifest α)
    (ledger : Ledger) : Prop where
  | patterns (unreadable : Unreadable config)
  | root (missing : manifest.root = none)
  | declared {hash : String} (plan : PlannedDesign.of config previous manifest = .ok planned)
      (same : root = (Diff.applyReuse planned.diff.reuse planned.root).1)
      (listed : hash ∈ manifest.unresolved) (uncached : ledger.asset? hash = none)
      (unshipped : manifest.rawContent.lookup hash = none)
      (unfilled : ¬(hash ∈ Plan.requiredHashes root ∧ ∀ node ∈ Plan.emitted root,
        ∀ picture ∈ Plan.pictures node, picture.hash = hash → picture.asset.isSome = true))
  | needed (plan : PlannedDesign.of config previous manifest = .ok planned)
      (same : root = (Diff.applyReuse planned.diff.reuse planned.root).1)
      (live : node ∈ Plan.emitted root) (shown : picture ∈ Plan.pictures node)
      (unfilled : picture.asset = none) (uncached : ledger.asset? picture.hash = none)
      (unusable : picture? manifest.rawContent picture.hash = none)

theorem mapM_error {β γ ε : Type} {read : β → Except ε γ} {items : List β} {item : β} {fault : ε}
    (listed : item ∈ items) (fails : read item = .error fault) :
    ∃ fault, items.mapM read = .error fault := by
  induction items with
  | nil => cases listed
  | cons first rest ih =>
    rw [List.mapM_cons]
    cases head : read first with
    | error other => exact ⟨other, rfl⟩
    | ok value =>
      rcases List.mem_cons.mp listed with rfl | later
      · rw [head] at fails
        cases fails
      · obtain ⟨other, stopped⟩ := ih later
        exact ⟨other, by rw [stopped]; rfl⟩

omit [Scalar α] in
theorem Unreadable.rules {config : Config α} (unreadable : Unreadable config) :
    ∃ fault, config.rules = .error fault := by
  rw [Config.rules, RuleSet.ofConfig]
  cases unreadable with
  | interactive listed fails =>
    obtain ⟨fault, stopped⟩ := mapM_error listed fails
    rw [RuleSet.interactivePatterns, stopped]
    exact ⟨_, rfl⟩
  | large read limit =>
    rw [RuleSet.interactivePatterns, read]
    simp only [gt_iff_lt, limit, if_true]
    exact ⟨_, rfl⟩
  | override listed kind fails =>
    rename_i rule fault
    have failing : RuleSet.rule rule = .error (.named rule.name fault) := by
      rw [RuleSet.rule, kind]
      simp only [fails]
    obtain ⟨stop, stopped⟩ := mapM_error listed failing
    cases RuleSet.interactivePatterns config.classification.interactivePatterns with
    | error other => exact ⟨other, rfl⟩
    | ok exprs =>
      rw [stopped]
      exact ⟨stop, rfl⟩

section Runs

variable {config : Config α} {available : Bool} {previous : Option (Snapshot α)}
  {manifest : Manifest α} {ledger final : Ledger} {result : Except Failure (Compilation α)}
  {events : List Event}

omit [Scalar α] in
theorem checkDeclared_fails {raw : List (String × String)} {root : Node α} {declared : List String}
    {hash : String} (listed : hash ∈ declared) (uncached : ledger.asset? hash = none)
    (unshipped : raw.lookup hash = none)
    (unfilled : ¬(hash ∈ Plan.requiredHashes root ∧ ∀ node ∈ Plan.emitted root,
        ∀ picture ∈ Plan.pictures node, picture.hash = hash → picture.asset.isSome = true)) :
    checkDeclared ledger raw root (Plan.pendingJobs root) declared ≠ .ok () := by
  rw [Ne, checkDeclared_eq_ok]
  intro passes
  have had := passes hash listed
  rw [isObtainable, uncached, unshipped] at had
  simp only [Option.isSome_none, Bool.or_false, Bool.and_eq_true, Bool.not_eq_true',
    List.contains_iff_mem] at had
  obtain ⟨jobless, required⟩ := had
  refine unfilled ⟨required, fun node live picture shown same => ?_⟩
  rw [Option.isSome_iff_ne_none]
  intro unfilled
  have job : hash ∈ (Plan.pendingJobs root).map (·.hash) :=
    Plan.mem_pendingJobs.mpr ⟨node, live, picture, shown, unfilled, same⟩
  obtain ⟨pending, member, own⟩ := List.mem_map.mp job
  rw [List.any_eq_false] at jobless
  exact jobless pending member (beq_iff_eq.mpr own)

/-- If a run against which something stands comes to its assets, it lacks one for good. -/
theorem Refused.lacks (refused : Refused config previous manifest ledger) {planned : PlannedDesign α}
    (plan : PlannedDesign.of config previous manifest = .ok planned)
    (passes : checkDeclared ledger manifest.rawContent planned.carried planned.jobs
      manifest.unresolved = .ok ()) :
    ∃ hash ∈ wanted ledger planned.jobs, picture? manifest.rawContent hash = none := by
  obtain ⟨root, found, rules, _⟩ := PlannedDesign.of_eq_ok plan
  cases refused with
  | patterns unreadable =>
    obtain ⟨fault, fails⟩ := unreadable.rules
    rw [rules] at fails
    cases fails
  | root missing =>
    rw [missing] at found
    cases found
  | declared other same listed uncached unshipped unfilled =>
    obtain rfl := Except.ok.inj (plan.symm.trans other)
    rw [Diff.applyReuse_eq] at same
    subst same
    exact absurd passes (checkDeclared_fails listed uncached unshipped unfilled)
  | needed other same live shown unfilled uncached unusable =>
    obtain rfl := Except.ok.inj (plan.symm.trans other)
    rw [Diff.applyReuse_eq] at same
    subst same
    refine ⟨_, List.mem_filter.mpr ⟨List.mem_eraseDups.mpr ?_, ?_⟩, unusable⟩
    · exact Plan.mem_pendingJobs.mpr ⟨_, live, _, shown, unfilled, rfl⟩
    · rw [uncached, Option.isNone_none]

/-- A run against which something stands fails without an event and leaves the ledger alone. -/
theorem Compiling.refuses (compiling : Compiling config available previous manifest ledger result
      events final) (refused : Refused config previous manifest ledger) :
    (∃ failure, result = .error failure) ∧ events = [] ∧ final = ledger := by
  cases compiling with
  | unplanned | undeclared => exact ⟨⟨_, rfl⟩, rfl, rfl⟩
  | unresolved plan passes resolving =>
    obtain ⟨_, lacking, unusable⟩ := refused.lacks plan passes
    obtain ⟨_, silent, kept⟩ := Resolving.refuses resolving lacking unusable
    exact ⟨⟨_, rfl⟩, silent, kept⟩
  | compiled plan passes resolving =>
    obtain ⟨_, lacking, unusable⟩ := refused.lacks plan passes
    obtain ⟨⟨_, fails⟩, _⟩ := Resolving.refuses resolving lacking unusable
    cases fails

/-- Once there are events, a failure is one of the store or of the files. -/
theorem Compiling.blames (compiling : Compiling config available previous manifest ledger result
      events final) (sent : events ≠ []) {failure : Failure} (failed : result = .error failure) :
    Blamed config.upload.maxPollAttempts events failure := by
  cases compiling with
  | unplanned | undeclared => exact absurd rfl sent
  | unresolved _ _ resolving =>
    obtain rfl := Except.error.inj failed
    exact Resolving.blames resolving sent rfl
  | compiled => cases failed

end Runs

/-- A run fails fast. Whatever the settings, the previous run, the manifest, the ledger, the store and
the machine are: if something stands against the run, it fails, nothing was asked of the files or of
the store, and the ledger is as before. Once a picture has been created, a run can only fail with what
the store answered, by running out of polls, or because the ledger could not be saved. -/
theorem run_fails_fast {σ : Type} [Host (StateM σ)] (config : Config α)
    (uploader : Uploader (StateM σ)) (previous : Option (Snapshot α)) (manifest : Manifest α)
    (ledger : Ledger) (world : σ) :
    ∃ result events final after,
      Tells (run config uploader.watched previous manifest) (run config uploader previous manifest)
          (ledger, world) result events (final, after) ∧
        (Refused config previous manifest ledger →
          (∃ failure, result = .error failure) ∧ events = [] ∧ final = ledger) ∧
        ((∃ request answer, Event.created request answer ∈ events) →
          ∀ failure, result = .error failure → Blamed config.upload.maxPollAttempts events failure) := by
  obtain ⟨result, events, final, after, told, compiling⟩ :=
    run_tells config uploader previous manifest ledger world
  refine ⟨result, events, final, after, told, compiling.refuses, ?_⟩
  rintro ⟨request, answer, created⟩ failure failed
  exact compiling.blames (List.ne_nil_of_mem created) failed

end Compilation
end DesignCompiler
