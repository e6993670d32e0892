import DesignCompiler.Proofs.Completion
import DesignCompiler.Proofs.Preservation
import DesignCompiler.Proofs.Rereading
import DesignCompiler.Proofs.Storage

/-!
The file of a ledger keeps up with it: as long as all files can be written, what a load would find is
what the ledger holds.
-/
namespace DesignCompiler

open Store (Ledger LedgerEntry Uploader Yields assetsOf)

variable {τ β γ : Type}

/-- A question to the machine, beside which a store has a state of its own. -/
def Machine.beside (question : Machine.Run β) : StateM (τ × Machine) β := fun (state, machine) =>
  let (answer, after) := question machine
  (answer, (state, after))

instance : Host (StateM (τ × Machine)) where
  readText path := Machine.beside (Host.readText path)
  writeText path text := Machine.beside (Host.writeText path text)
  rename source target := Machine.beside (Host.rename source target)
  createFolders path := Machine.beside (Host.createFolders path)
  isThere path := Machine.beside (Host.isThere path)
  now := Machine.beside Host.now
  pause duration := Machine.beside (Host.pause duration)

/-- A question to a store that shares nothing with the machine. -/
def Machine.away (question : StateM τ β) : StateM (τ × Machine) β := fun (state, machine) =>
  let (answer, after) := question state
  (answer, (after, machine))

/-- A store that has no part in the machine. -/
def Store.Uploader.apart (uploader : Uploader (StateM τ)) : Uploader (StateM (τ × Machine)) where
  available := uploader.available
  create request := Machine.away (uploader.create request)
  poll operation := Machine.away (uploader.poll operation)

/-- An event is not about a file that failed. -/
def Event.Fine (event : Event) : Prop := ∀ fault, event.file? ≠ some (.error fault)

/-- A question to a watched world that leaves the files alone and takes back no event. -/
def Harmless (question : StateM (Watched (τ × Machine)) β) : Prop :=
  ∀ watched, (question watched).2.world.2.disk = watched.world.2.disk ∧
    watched.events <+: (question watched).2.events

theorem harmless_away (note : β → List Event) (question : StateM τ β) :
    Harmless (Watched.ask note (Machine.away question)) :=
  fun _ => ⟨rfl, List.prefix_append _ _⟩

theorem harmless_pause (duration : Duration) :
    Harmless (Host.pause duration : StateM (Watched (τ × Machine)) Unit) :=
  fun _ => ⟨rfl, List.prefix_append _ _⟩

/-- What loading a path of a disk finds. -/
def Disk.Loads (disk : Disk) (path : RawText) (entries : List (String × LedgerEntry)) : Prop :=
  (∃ contents, disk.read path = .ok contents ∧ Ledger.parse contents = some entries) ∨
    disk.read path = .error .notFound ∧ entries = []

/-- Whatever can be loaded from the file of a ledger has the assets of the ledger. -/
def Faithful (ledger : Ledger) (disk : Disk) : Prop :=
  ∀ path, ledger.path = some path → ∀ entries, disk.Loads path entries →
    assetsOf entries = assetsOf ledger.entries

/-- The ledger is in order, and its file keeps up with it unless a file failed. -/
def Safe (state : Ledger × Watched (τ × Machine)) : Prop :=
  state.1.Ordered ∧
    ((∀ event ∈ state.2.events, event.Fine) → Faithful state.1 state.2.world.2.disk)

theorem Harmless.safe {question : StateM (Watched (τ × Machine)) β} (harmless : Harmless question)
    (ledger : Ledger) : Preserves (fun watched => Safe (ledger, watched)) question := by
  rintro watched ⟨ordered, faithful⟩
  obtain ⟨disk, events⟩ := harmless watched
  refine ⟨ordered, fun fine => ?_⟩
  rw [disk]
  exact faithful fun event member => fine event (events.subset member)

theorem createParent_beside (path : RawText) :
    (createParent path : StateM (τ × Machine) _) = Machine.beside (createParent path) := by
  rw [createParent, createParent]
  split <;> rfl

theorem replaceFile_beside (path : RawText) (text : String) :
    (replaceFile path text : StateM (τ × Machine) _) = Machine.beside (replaceFile path text) := by
  have bind : ∀ (question : Machine.Run (Except FileFault Unit))
      (next : Except FileFault Unit → Machine.Run (Except FileFault Unit)),
      (Machine.beside (question >>= next) : StateM (τ × Machine) _) =
        Machine.beside question >>= fun answer => Machine.beside (next answer) :=
    fun _ _ => rfl
  rw [replaceFile, replaceFile, createParent_beside, bind]
  refine congrArg _ (funext fun made => ?_)
  cases made with
  | error fault => rfl
  | ok =>
    dsimp only
    rw [bind]
    refine congrArg _ (funext fun wrote => ?_)
    cases wrote <;> rfl

theorem faithful_persist {ledger : Ledger} (ordered : ledger.Ordered) {state after : τ × Machine}
    (done : (Ledger.persist ledger : StateM (τ × Machine) _) state = (.ok (), after)) :
    Faithful ledger after.2.disk := by
  intro path file entries loads
  have read : after.2.disk.read path = .ok ledger.fileText := by
    simp only [Ledger.persist, file, replaceFile_beside] at done
    obtain ⟨answer, later⟩ := Prod.mk.inj done
    have replaced : (replaceFile path ledger.fileText : Machine.Run _) state.2 = (.ok (), after.2) :=
      Prod.ext answer (congrArg (fun pair : τ × Machine => pair.2) later)
    exact Machine.read_replaceFile replaced
  rcases loads with ⟨contents, found, parsed⟩ | ⟨missing, _⟩
  · obtain rfl := Except.ok.inj (read.symm.trans found)
    exact Store.assets_parse ordered parsed
  · rw [read] at missing
    cases missing

theorem keeps_insert (hash asset : String) :
    Keeps Safe (Ledger.insert hash asset :
      StateT Ledger (StateM (Watched (τ × Machine))) (Except Failure LedgerEntry)) := by
  intro before value after done
  simp only [Ledger.insert, Store.yields_bind, Store.yields_get] at done
  obtain ⟨ledger, _, ⟨rfl, rfl⟩, done⟩ := done
  cases held : before.1.get? hash with
  | some entry =>
    simp only [held, Store.yields_pure] at done
    rw [← done.2]
    exact id
  | none =>
    simp only [held, Store.yields_bind, Store.yields_set, Store.yields_lift] at done
    obtain ⟨time, asked, ⟨kept, _⟩, _, _, rfl, written, wrote, ⟨same, saved⟩, done⟩ := done
    let extended := before.1.extended hash ⟨asset, time⟩
    have ends : wrote = after := by
      cases written with
      | error fault => exact (Store.yields_pure.mp done).2
      | ok => exact (Store.yields_pure.mp done).2
    subst ends
    rintro ⟨ordered, _⟩
    have ordered : extended.Ordered := Store.ordered_insertSorted ordered hash _
    obtain ⟨answer, events, later, asks, saving⟩ := Store.persist_asks extended asked.2.world
    obtain ⟨rfl, final⟩ := Prod.mk.inj (saved.symm.trans (asks.watched asked.2.events))
    refine ⟨same ▸ ordered, fun fine => ?_⟩
    rw [← same, final]
    cases written with
    | error fault =>
      obtain ⟨event, member, failed⟩ := saving.failing
      rw [final] at fine
      exact absurd failed (fine event (List.mem_append_right _ member) fault)
    | ok => exact faithful_persist ordered asks.plain

theorem safe_run {α : Type} [Scalar α] (uploader : Uploader (StateM τ)) (config : Config α)
    (previous : Option (Snapshot α)) (manifest : Manifest α) :
    Keeps Safe (Compilation.run config uploader.apart.watched previous manifest) := by
  refine keeps_run (fun isFirst request => keeps_lift fun ledger => ?_) keeps_insert previous manifest
  exact preserves_send (fun duration => (harmless_pause duration).safe ledger)
    (fun operation => (harmless_away _ (uploader.poll operation)).safe ledger)
    (fun request => (harmless_away _ (uploader.create request)).safe ledger) isFirst request

end DesignCompiler
