import DesignCompiler.Proofs.Preservation
import DesignCompiler.Proofs.Storage

/-!
Which files a program touches. A path leads to a place that can be read off its form; writing to the path can
change the file at this place only, and a file that is replaced changes only if all went well.
-/
namespace DesignCompiler

open Store (Ledger LedgerEntry)

namespace Disk

/-- One step on a way. -/
def stepTo (place : Place) (step : RawText) : Place :=
  if step = ".." then place.dropLast else place ++ [step]

/-- Where a path leads, if the folders on the way are there. -/
def goal (here : Place) (path : RawText) : Place :=
  (steps path).foldl stepTo (if isAbsolute path then [] else here)

theorem goal_of_walk {disk : Disk} {start place : Place} {steps : List RawText}
    (found : disk.walk start steps = .ok place) : steps.foldl stepTo start = place := by
  induction steps generalizing start with
  | nil => exact Except.ok.inj found
  | cons step rest ih =>
    obtain ⟨_, next, rfl, _, further⟩ := walk_cons_eq_ok.mp found
    exact ih further

theorem goal_of_locate {disk : Disk} {path : RawText} {place : Place} (found : disk.locate path = .ok place) :
    goal disk.here path = place := by
  rw [locate] at found
  split at found
  · cases found
  · exact goal_of_walk found

/-- The text that is read from a path is in the file at its place. -/
theorem file?_of_read {disk : Disk} {path : RawText} {text : String} (read : disk.read path = .ok text) :
    disk.file? (goal disk.here path) = some text := by
  rw [Disk.read] at read
  cases found : disk.locate path with
  | error fault => simp [found, bind, Except.bind] at read
  | ok place =>
    rw [goal_of_locate found]
    simp only [found, bind, Except.bind] at read
    split at read
    · cases read
    · split at read
      · cases read
      · rename_i held
        split at read
        · cases read
        · exact held.trans (congrArg some (Except.ok.inj read))

/-- Two disks with the same files, but for some places. -/
structure Spares (places : List Place) (before after : Disk) : Prop where
  here : after.here = before.here
  files : ∀ place, place ∉ places → after.file? place = before.file? place

namespace Spares

variable {places more : List Place} {first second third : Disk}

theorem refl (places : List Place) (disk : Disk) : Spares places disk disk := ⟨rfl, fun _ _ => rfl⟩

theorem trans (one : Spares places first second) (other : Spares places second third) :
    Spares places first third :=
  ⟨other.here.trans one.here,
    fun place apart => (other.files place apart).trans (one.files place apart)⟩

theorem mono (spares : Spares places first second) (among : places ⊆ more) : Spares more first second :=
  ⟨spares.here, fun place apart => spares.files place fun member => apart (among member)⟩

end Spares

section Operations

variable {disk : Disk} {place other : Place}

theorem lookup_filter (differ : other ≠ place) (files : List (Place × String)) :
    (files.filter (·.1 != place)).lookup other = files.lookup other := by
  induction files with
  | nil => rfl
  | cons entry rest ih =>
    obtain ⟨held, text⟩ := entry
    by_cases same : held = place
    · subst same
      rw [List.filter_cons_of_neg (by simp), ih, List.lookup_cons, beq_eq_false_iff_ne.mpr differ]
    · rw [List.filter_cons_of_pos (by simpa using same), List.lookup_cons, List.lookup_cons, ih]

theorem spares_put (disk : Disk) (place : Place) (text : String) :
    Spares [place] disk (disk.put place text) := by
  refine ⟨rfl, fun other apart => ?_⟩
  have differ : other ≠ place := by simpa using apart
  rw [file?, put, List.lookup_cons, beq_eq_false_iff_ne.mpr differ]
  exact lookup_filter differ disk.files

theorem spares_remove (disk : Disk) (place : Place) : Spares [place] disk (disk.remove place) :=
  ⟨rfl, fun _ apart => lookup_filter (by simpa using apart) disk.files⟩

theorem spares_write {path : RawText} {text : String} {after : Disk} (done : disk.write path text = .ok after) :
    Spares [goal disk.here path] disk after := by
  obtain ⟨place, found, rfl⟩ := write_eq_ok done
  rw [goal_of_locate found]
  exact spares_put disk place text

theorem spares_rename {source target : RawText} {after : Disk} (done : disk.rename source target = .ok after) :
    Spares [goal disk.here source, goal disk.here target] disk after := by
  obtain ⟨start, goal, text, leaving, reaching, _, _, _, rfl⟩ := rename_eq_ok done
  rw [goal_of_locate leaving, goal_of_locate reaching]
  exact ((spares_remove disk start).mono (by simp)).trans ((spares_put _ goal text).mono (by simp))

/-- Making folders touches no file. -/
theorem spares_makeFolders (disk : Disk) (place : Place) (steps : List RawText) :
    Spares [] disk (disk.makeFolders place steps).2 := by
  induction steps generalizing disk place with
  | nil => exact .refl _ _
  | cons step rest ih =>
    have made (next : Place) : Spares [] disk { disk with folders := next :: disk.folders } :=
      ⟨rfl, fun _ _ => rfl⟩
    rw [makeFolders]
    generalize (if step = ".." then place.dropLast else place ++ [step]) = next
    split
    · exact .refl _ _
    · dsimp only
      split
      · exact ih disk next
      · split
        · exact .refl _ _
        · exact (made next).trans (ih _ next)

theorem spares_createFolders (disk : Disk) (path : RawText) : Spares [] disk (disk.createFolders path).2 := by
  rw [createFolders]
  split
  · exact .refl _ _
  · exact spares_makeFolders disk _ _

end Operations

end Disk

namespace Machine

open Disk (Spares goal)

variable {β : Type} {places : List Place} {disk : Disk} {machine after : Machine} {path : RawText}
  {text : String}

/-- A machine whose files are those of a disk, but for some places. -/
def Sparing (places : List Place) (disk : Disk) (machine : Machine) : Prop := Spares places disk machine.disk

/-- An operation may touch the places of the disk that it works on. -/
theorem preserves_operate {act : Disk → Except FileFault β × Disk}
    (spares : ∀ now, now.here = disk.here → Spares places now (act now).2) :
    Preserves (Sparing places disk) (operate act) := by
  intro machine sparing
  rw [operate]
  split
  · exact sparing
  · exact Spares.trans sparing (spares machine.disk sparing.here)

theorem spares_settle {before : Disk} {changed : Except FileFault Disk}
    (spares : ∀ after, changed = .ok after → Spares places before after) :
    Spares places before (settle before changed).2 := by
  cases changed with
  | error fault => exact .refl _ _
  | ok after => exact spares after rfl

theorem preserves_readText (path : RawText) : Preserves (Sparing places disk) (Host.readText path : Run _) :=
  preserves_operate fun _ _ => .refl _ _

theorem preserves_isThere (path : RawText) : Preserves (Sparing places disk) (Host.isThere path : Run _) :=
  fun _ => id

theorem preserves_now : Preserves (Sparing places disk) (Host.now : Run _) := fun _ => id

theorem preserves_pause (duration : Duration) :
    Preserves (Sparing places disk) (Host.pause duration : Run _) := fun _ => id

theorem preserves_writeText (listed : goal disk.here path ∈ places) (text : String) :
    Preserves (Sparing places disk) (Host.writeText path text : Run _) := by
  refine preserves_operate fun now here => spares_settle fun after done => ?_
  exact (Disk.spares_write done).mono (by simpa [here] using listed)

theorem preserves_rename {source target : RawText} (leaving : goal disk.here source ∈ places)
    (reaching : goal disk.here target ∈ places) :
    Preserves (Sparing places disk) (Host.rename source target : Run _) := by
  refine preserves_operate fun now here => spares_settle fun after done => ?_
  exact (Disk.spares_rename done).mono (by simpa [here] using ⟨leaving, reaching⟩)

theorem preserves_createParent (path : RawText) :
    Preserves (Sparing places disk) (createParent path : Run _) := by
  rw [createParent]
  split
  · exact preserves_pure _
  · exact preserves_pure _
  · exact preserves_operate fun now _ => (now.spares_createFolders _).mono (List.nil_subset _)

theorem preserves_replaceFile (listed : goal disk.here path ∈ places)
    (beside : goal disk.here (path ++ ".tmp") ∈ places) (text : String) :
    Preserves (Sparing places disk) (replaceFile path text : Run _) := by
  refine (preserves_createParent path).bind fun made => ?_
  cases made with
  | error fault => exact preserves_pure _
  | ok =>
    refine (preserves_writeText beside text).bind fun wrote => ?_
    cases wrote with
    | error fault => exact preserves_pure _
    | ok => exact preserves_rename beside listed

/-- A change that fails leaves the disk as it was. -/
theorem disk_of_failed {change : Disk → Except FileFault Disk} {fault : FileFault}
    (failed : operate (fun disk => settle disk (change disk)) machine = (.error fault, after)) :
    after.disk = machine.disk := by
  rw [operate] at failed
  split at failed
  · rw [← (Prod.mk.inj failed).2]
  · obtain ⟨answer, rfl⟩ := Prod.mk.inj failed
    cases changed : change machine.disk with
    | error fault => rfl
    | ok disk =>
      rw [changed] at answer
      cases answer

/-- A file that could not be replaced is as it was; at most the text beside it is new. -/
theorem spares_of_failed {fault : FileFault}
    (failed : (replaceFile path text : Run _) machine = (.error fault, after)) :
    Spares [goal machine.disk.here (path ++ ".tmp")] machine.disk after.disk := by
  have folders := preserves_createParent path machine
    (Spares.refl [goal machine.disk.here (path ++ ".tmp")] machine.disk)
  rw [replaceFile, run_bind] at failed
  generalize (createParent path : Run _) machine = made at failed folders
  obtain ⟨answer, between⟩ := made
  cases answer with
  | error fault =>
    rw [← (Prod.mk.inj failed).2]
    exact folders
  | ok =>
    have wrote := preserves_writeText List.mem_cons_self text between folders
    dsimp only at failed
    rw [run_bind] at failed
    generalize (Host.writeText (path ++ ".tmp") text : Run _) between = written at failed wrote
    obtain ⟨answer, later⟩ := written
    cases answer with
    | error fault =>
      rw [← (Prod.mk.inj failed).2]
      exact wrote
    | ok =>
      have same : after.disk = later.disk := disk_of_failed failed
      rw [same]
      exact wrote

/-- A file that was replaced has its new text, and no other file is touched but the one beside it. -/
theorem spares_of_replaced (done : (replaceFile path text : Run _) machine = (.ok (), after)) :
    Spares [goal machine.disk.here path, goal machine.disk.here (path ++ ".tmp")] machine.disk after.disk ∧
      after.disk.file? (goal machine.disk.here path) = some text := by
  have spares : Spares [goal machine.disk.here path, goal machine.disk.here (path ++ ".tmp")] machine.disk
      ((replaceFile path text : Run _) machine).2.disk :=
    preserves_replaceFile (by simp) (by simp) text machine (.refl _ _)
  rw [done] at spares
  have held := Disk.file?_of_read (read_replaceFile done)
  rw [spares.here] at held
  exact ⟨spares, held⟩

end Machine

section Ledgers

open Disk (goal)

variable {places : List Place} {disk : Disk} {path : RawText}

/-- A ledger with its file, on a machine whose files are those of a disk but for some places. -/
def Booked (path : RawText) (places : List Place) (disk : Disk) (state : Ledger × Machine) : Prop :=
  state.1.path = some path ∧ state.2.Sparing places disk

variable (listed : goal disk.here path ∈ places) (beside : goal disk.here (path ++ ".tmp") ∈ places)

include listed beside

theorem keeps_insert_booked (hash asset : String) : Keeps (Booked path places disk)
    (Ledger.insert hash asset : StateT Ledger Machine.Run (Except Failure LedgerEntry)) := by
  intro before value after done
  simp only [Ledger.insert, Store.yields_bind, Store.yields_get] at done
  obtain ⟨ledger, _, ⟨rfl, rfl⟩, done⟩ := done
  cases held : before.1.get? hash with
  | some entry =>
    simp only [held, Store.yields_pure] at done
    rw [← done.2]
    exact id
  | none =>
    simp only [held, Store.yields_bind, Store.yields_set, Store.yields_lift] at done
    obtain ⟨time, asked, ⟨kept, clock⟩, _, _, rfl, written, wrote, ⟨same, saved⟩, done⟩ := done
    have ends : wrote = after := by
      cases written with
      | error fault => exact (Store.yields_pure.mp done).2
      | ok => exact (Store.yields_pure.mp done).2
    subst ends
    rintro ⟨file, sparing⟩
    have quiet := Machine.preserves_now before.2 sparing
    rw [clock] at quiet
    simp only [Ledger.persist, file] at saved
    obtain ⟨text, saved⟩ : ∃ text, (replaceFile path text : Machine.Run _) asked.2 = (written, wrote.2) :=
      ⟨_, saved⟩
    have later := Machine.preserves_replaceFile listed beside text asked.2 quiet
    rw [saved] at later
    exact ⟨same ▸ file, later⟩

end Ledgers
end DesignCompiler
