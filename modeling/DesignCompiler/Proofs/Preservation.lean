import DesignCompiler.Compilation
import DesignCompiler.Proofs.Resolution

/-!
What a run does not disturb. Whatever holds of the world before a run holds after it, if it survives each
question to the store, each pause and each entry into the ledger: a run does nothing else to the world.
-/
namespace DesignCompiler

open Store (Ledger LedgerEntry Uploader UploadRequest Yields)

variable {σ β γ : Type}

/-- Whatever holds of the world before a question holds after it. -/
def Preserves (held : σ → Prop) (question : StateM σ β) : Prop :=
  ∀ world, held world → held (question world).2

section Questions

variable {held : σ → Prop}

theorem preserves_pure (answer : β) : Preserves held (pure answer : StateM σ β) := fun _ => id

/-- What comes next has to be looked at for the answers that there can be. -/
theorem Preserves.bind_answer {question : StateM σ β} {next : β → StateM σ γ}
    (first : Preserves held question) (second : ∀ world, Preserves held (next (question world).1)) :
    Preserves held (question >>= next) :=
  fun world holds => second world (question world).2 (first world holds)

theorem Preserves.bind {question : StateM σ β} {next : β → StateM σ γ}
    (first : Preserves held question) (second : ∀ answer, Preserves held (next answer)) :
    Preserves held (question >>= next) :=
  first.bind_answer fun world => second (question world).1

variable [Host (StateM σ)] {uploader : Uploader (StateM σ)} {config : UploadConfig}
  (pauses : ∀ duration, Preserves held (Host.pause duration))
  (polls : ∀ operation, Preserves held (uploader.poll operation))

include pauses polls

theorem preserves_await (left : Nat) (operation : String) :
    Preserves held (Store.await uploader config left operation) := by
  induction left generalizing operation with
  | zero => exact preserves_pure _
  | succ left ih =>
    refine (pauses _).bind fun _ => (polls operation).bind fun answer => ?_
    cases answer with
    | error failure => exact preserves_pure _
    | ok answer =>
      cases answer with
      | complete asset => exact preserves_pure _
      | pending next => exact ih next

variable (creates : ∀ request, Preserves held (uploader.create request))

include creates

theorem preserves_upload (request : UploadRequest) :
    Preserves held (Store.upload uploader config request) := by
  refine (creates request).bind fun answer => ?_
  cases answer with
  | error failure => exact preserves_pure _
  | ok answer =>
    cases answer with
    | complete asset => exact preserves_pure _
    | pending operation => exact preserves_await pauses polls _ operation

theorem preserves_send (isFirst : Bool) (request : UploadRequest) :
    Preserves held (Store.send uploader config isFirst request) := by
  rw [Store.send]
  split
  · exact (pauses _).bind fun _ => preserves_upload pauses polls creates request
  · exact preserves_upload pauses polls creates request

end Questions

/-- Whatever holds of the ledger and the world before a program holds after it. -/
def Keeps (held : Ledger × σ → Prop) (program : StateT Ledger (StateM σ) β) : Prop :=
  ∀ before value after, Yields program before value after → held before → held after

section Programs

variable {held : Ledger × σ → Prop}

theorem keeps_pure (value : β) : Keeps held (pure value) := by
  intro before result after done
  obtain ⟨_, rfl⟩ := Store.yields_pure.mp done
  exact id

theorem Keeps.bind {program : StateT Ledger (StateM σ) β} {next : β → StateT Ledger (StateM σ) γ}
    (first : Keeps held program) (second : ∀ value, Keeps held (next value)) :
    Keeps held (program >>= next) := by
  intro before result after done holds
  obtain ⟨value, between, start, done⟩ := Store.yields_bind.mp done
  exact second value _ _ _ done (first _ _ _ start holds)

theorem keeps_get : Keeps held get := by
  intro before result after done
  obtain ⟨_, rfl⟩ := Store.yields_get.mp done
  exact id

/-- A question leaves the ledger alone. -/
theorem keeps_lift {question : StateM σ β}
    (preserves : ∀ ledger, Preserves (fun world => held (ledger, world)) question) :
    Keeps held (liftM question : StateT Ledger (StateM σ) β) := by
  intro before value after done holds
  obtain ⟨same, asked⟩ := Store.yields_lift.mp done
  have later := preserves before.1 before.2 holds
  rwa [asked, same] at later

variable [Host (StateM σ)] {uploader : Uploader (StateM σ)} {config : UploadConfig}
  (sends : ∀ isFirst request, Keeps held
    (liftM (Store.send uploader config isFirst request) : StateT Ledger (StateM σ) (Except Failure String)))
  (inserts : ∀ hash asset, Keeps held
    (Ledger.insert hash asset : StateT Ledger (StateM σ) (Except Failure LedgerEntry)))

include sends inserts

theorem keeps_uploadAll (isFirst : Bool) (misses : List (UploadJob × Store.Content)) :
    Keeps held (Store.uploadAll uploader config isFirst misses) := by
  induction misses generalizing isFirst with
  | nil => exact keeps_pure _
  | cons miss rest ih =>
    obtain ⟨job, content⟩ := miss
    rw [Store.uploadAll]
    refine (sends isFirst _).bind fun sent => ?_
    cases sent with
    | error failure => exact keeps_pure _
    | ok asset =>
      refine (inserts job.hash asset).bind fun entered => ?_
      cases entered with
      | error failure => exact keeps_pure _
      | ok entry =>
        refine (ih false).bind fun stored => ?_
        cases stored with
        | error failure => exact keeps_pure _
        | ok others => exact keeps_pure _

theorem keeps_resolveAll (jobs : List UploadJob) (raw : List (String × String)) :
    Keeps held (Store.resolveAll jobs raw uploader config) := by
  rw [Store.resolveAll]
  refine keeps_get.bind fun ledger => ?_
  cases Store.Triage.of ledger raw (Plan.firstOfEach jobs) with
  | error failure => exact keeps_pure _
  | ok triage =>
    dsimp only
    split
    · exact keeps_pure _
    · split
      · exact keeps_pure _
      · refine (keeps_uploadAll sends inserts true triage.misses).bind fun stored => ?_
        cases stored with
        | error failure => exact keeps_pure _
        | ok assets => exact keeps_pure _

end Programs

/-- A run does nothing to the ledger and the world but to find assets. -/
theorem keeps_run {α : Type} [Scalar α] {held : Ledger × σ → Prop} [Host (StateM σ)] {config : Config α}
    {uploader : Uploader (StateM σ)}
    (sends : ∀ isFirst request, Keeps held (liftM (Store.send uploader config.upload isFirst request) :
      StateT Ledger (StateM σ) (Except Failure String)))
    (inserts : ∀ hash asset, Keeps held
      (Ledger.insert hash asset : StateT Ledger (StateM σ) (Except Failure LedgerEntry)))
    (previous : Option (Snapshot α)) (manifest : Manifest α) :
    Keeps held (Compilation.run config uploader previous manifest) := by
  rw [Compilation.run]
  split
  · exact keeps_pure _
  · refine keeps_get.bind fun ledger => ?_
    split
    · exact keeps_pure _
    · refine (keeps_resolveAll sends inserts _ _).bind fun resolved => ?_
      cases resolved with
      | error failure => exact keeps_pure _
      | ok resolution => exact keeps_pure _

end DesignCompiler
