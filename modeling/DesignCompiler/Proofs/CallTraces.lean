import DesignCompiler.Proofs.Resolution

/-!
Runs that are watched. What a run asks of the files of its machine and of the store is written down,
each question with its answer, and nothing else about the run changes.
-/
namespace DesignCompiler

open Store (Ledger UploadRequest UploadStatus Uploader Yields)

/-- Something that was asked of the files or of the store, and the answer. -/
inductive Event where
  | foldersMade (path : RawText) (answer : Except FileFault Unit)
  | written (path : RawText) (text : String) (answer : Except FileFault Unit)
  | renamed (source target : RawText) (answer : Except FileFault Unit)
  | created (request : UploadRequest) (answer : Except Failure UploadStatus)
  | polled (operation : String) (answer : Except Failure UploadStatus)

/-- A world, and what was asked of it so far. -/
structure Watched (σ : Type) where
  world : σ
  events : List Event

variable {σ β γ : Type}

namespace Watched

/-- Asks a question of the world and writes down what there is to say about it. -/
def ask (note : β → List Event) (question : StateM σ β) : StateM (Watched σ) β := fun watched =>
  let (answer, world) := question watched.world
  (answer, ⟨world, watched.events ++ note answer⟩)

/-- A question that leaves no mark on files or the store. -/
def askQuietly (question : StateM σ β) : StateM (Watched σ) β := ask (fun _ => []) question

instance [Host (StateM σ)] : Host (StateM (Watched σ)) where
  readText path := askQuietly (Host.readText path)
  writeText path text := ask (fun answer => [.written path text answer]) (Host.writeText path text)
  rename source target :=
    ask (fun answer => [.renamed source target answer]) (Host.rename source target)
  createFolders path := ask (fun answer => [.foldersMade path answer]) (Host.createFolders path)
  isThere path := askQuietly (Host.isThere path)
  now := askQuietly Host.now
  pause duration := askQuietly (Host.pause duration)

end Watched

/-- The same store, each call of which is written down. -/
def Store.Uploader.watched (uploader : Uploader (StateM σ)) : Uploader (StateM (Watched σ)) where
  available := uploader.available
  create request := Watched.ask (fun answer => [.created request answer]) (uploader.create request)
  poll operation := Watched.ask (fun answer => [.polled operation answer]) (uploader.poll operation)

/-- A question and the same question to the watched world: they have the same answer and the same
effect, and just these events are written down. -/
structure Asks (watched : StateM (Watched σ) β) (plain : StateM σ β) (before : σ) (answer : β)
    (events : List Event) (after : σ) : Prop where
  plain : plain before = (answer, after)
  watched : ∀ earlier, watched ⟨before, earlier⟩ = (answer, ⟨after, earlier ++ events⟩)

/-- A program and the same program on the watched world: they come to the same value and leave the
same ledger and the same world, and just these events are written down. -/
structure Tells (watched : StateT Ledger (StateM (Watched σ)) β)
    (plain : StateT Ledger (StateM σ) β) (before : Ledger × σ) (value : β) (events : List Event)
    (after : Ledger × σ) : Prop where
  plain : Yields plain before value after
  watched : ∀ earlier,
    Yields watched (before.1, ⟨before.2, earlier⟩) value (after.1, ⟨after.2, earlier ++ events⟩)

section Questions

variable {before between after : σ} {answer : β} {first second : List Event}

theorem asks_pure (answer : β) (world : σ) :
    Asks (pure answer) (pure answer) world answer [] world := by
  refine ⟨rfl, fun earlier => ?_⟩
  rw [List.append_nil]
  rfl

theorem asks_ask (note : β → List Event) (question : StateM σ β) (world : σ) :
    Asks (Watched.ask note question) question world (question world).1 (note (question world).1)
      (question world).2 :=
  ⟨rfl, fun _ => rfl⟩

theorem asks_quietly (question : StateM σ β) (world : σ) :
    Asks (Watched.askQuietly question) question world (question world).1 [] (question world).2 :=
  asks_ask (fun _ => []) question world

theorem Asks.bind {watched : StateM (Watched σ) β} {plain : StateM σ β}
    {watchedNext : β → StateM (Watched σ) γ} {plainNext : β → StateM σ γ} {result : γ}
    (start : Asks watched plain before answer first between)
    (next : Asks (watchedNext answer) (plainNext answer) between result second after) :
    Asks (watched >>= watchedNext) (plain >>= plainNext) before result (first ++ second) after := by
  constructor
  · have unfolded : (plain >>= plainNext) before = plainNext (plain before).1 (plain before).2 := rfl
    rw [unfolded, start.plain]
    exact next.plain
  · intro earlier
    have unfolded : (watched >>= watchedNext) ⟨before, earlier⟩ =
      watchedNext (watched ⟨before, earlier⟩).1 (watched ⟨before, earlier⟩).2 := rfl
    rw [unfolded, start.watched, ← List.append_assoc]
    exact next.watched (earlier ++ first)

end Questions

section Programs

variable {before between after : Ledger × σ} {value : β} {first second : List Event}

theorem tells_pure (value : β) (state : Ledger × σ) :
    Tells (pure value) (pure value) state value [] state := by
  refine ⟨rfl, fun earlier => ?_⟩
  rw [List.append_nil]
  rfl

theorem tells_get (state : Ledger × σ) : Tells get get state state.1 [] state := by
  refine ⟨rfl, fun earlier => ?_⟩
  rw [List.append_nil]
  rfl

theorem tells_set (held : Ledger) (state : Ledger × σ) :
    Tells (set held) (set held) state ⟨⟩ [] (held, state.2) := by
  refine ⟨rfl, fun earlier => ?_⟩
  rw [List.append_nil]
  rfl

theorem Asks.tells {watched : StateM (Watched σ) β} {plain : StateM σ β} {world later : σ}
    (asked : Asks watched plain world value first later) (ledger : Ledger) :
    Tells (liftM watched) (liftM plain) (ledger, world) value first (ledger, later) := by
  constructor
  · exact Store.yields_lift.mpr ⟨rfl, asked.plain⟩
  · intro earlier
    exact Store.yields_lift.mpr ⟨rfl, asked.watched earlier⟩

theorem Tells.bind {watched : StateT Ledger (StateM (Watched σ)) β}
    {plain : StateT Ledger (StateM σ) β} {watchedNext : β → StateT Ledger (StateM (Watched σ)) γ}
    {plainNext : β → StateT Ledger (StateM σ) γ} {result : γ}
    (start : Tells watched plain before value first between)
    (next : Tells (watchedNext value) (plainNext value) between result second after) :
    Tells (watched >>= watchedNext) (plain >>= plainNext) before result (first ++ second) after := by
  constructor
  · exact Store.yields_bind.mpr ⟨value, between, start.plain, next.plain⟩
  · intro earlier
    rw [← List.append_assoc]
    exact Store.yields_bind.mpr ⟨value, _, start.watched earlier, next.watched (earlier ++ first)⟩

end Programs

end DesignCompiler
