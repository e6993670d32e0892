import DesignCompiler.Proofs.TouchedFiles

/-!
A replacement that fails takes nothing away: what was read from the file before is still read from it.
-/
namespace DesignCompiler

namespace Disk

section Names

/-- The name at the end of a path, with the steps to the folder that it is in. -/
structure Named (path : RawText) (folders : List RawText) (name : RawText) : Prop where
  steps : ∀ ending : RawText, '/' ∉ ending.toList → name ++ ending ≠ "" → name ++ ending ≠ "." →
    steps (path ++ ending) = folders ++ [name ++ ending]
  bare : name = "" ∨ name = "." → path = name ∨ namesFolder path = true

theorem exists_lastName (text : List Char) : ∃ name, '/' ∉ name ∧
    (text = name ∨ ∃ front, text = front ++ '/' :: name) := by
  induction text with
  | nil => exact ⟨[], List.not_mem_nil, .inl rfl⟩
  | cons c text ih =>
    obtain ⟨name, clean, rfl | ⟨front, rfl⟩⟩ := ih
    · by_cases mark : c = '/'
      · exact ⟨text, clean, .inr ⟨[], by rw [mark, List.nil_append]⟩⟩
      · refine ⟨c :: text, fun member => ?_, .inl rfl⟩
        rcases List.mem_cons.mp member with same | member
        · exact mark same.symm
        · exact clean member
    · exact ⟨name, clean, .inr ⟨c :: front, rfl⟩⟩

theorem splitOn_clean {name : List Char} (clean : '/' ∉ name) : name.splitOn '/' = [name] := by
  rw [List.splitOn_eq_splitOnP]
  refine List.splitOnP_eq_singleton fun c member => ?_
  rw [beq_eq_false_iff_ne]
  rintro rfl
  exact clean member

/-- A name that is a step of its own. -/
theorem steps_clean {name : String} (clean : '/' ∉ name.toList) (some : name ≠ "") (other : name ≠ ".") :
    steps name = [name] := by
  rw [steps, splitOn_clean clean, List.map_singleton, String.ofList_toList]
  simp [some, other]

theorem steps_behind {path name : RawText} {front : List Char}
    (text : path.toList = front ++ '/' :: name.toList) :
    steps path = steps (String.ofList front) ++ steps name := by
  rw [steps, text, List.splitOn_eq_splitOnP, List.splitOnP_append_cons _ _ (by decide), List.map_append,
    List.filter_append, ← List.splitOn_eq_splitOnP, ← List.splitOn_eq_splitOnP, steps, steps,
    String.toList_ofList]

theorem exists_named (path : RawText) : ∃ folders name, Named path folders name := by
  obtain ⟨letters, clean, place⟩ := exists_lastName path.toList
  obtain ⟨name, rfl⟩ : ∃ name : String, name.toList = letters := ⟨.ofList letters, String.toList_ofList⟩
  have longer {ending : String} (plain : '/' ∉ ending.toList) : '/' ∉ (name ++ ending).toList := by
    rw [String.toList_append, List.mem_append]
    exact fun member => member.elim clean plain
  rcases place with whole | ⟨front, text⟩
  · obtain rfl := String.toList_inj.mp whole
    exact ⟨[], path, fun ending plain some other => steps_clean (longer plain) some other, fun _ => .inl rfl⟩
  · refine ⟨steps (.ofList front), name, fun ending plain some other => ?_, fun bare => .inr ?_⟩
    · have behind : (path ++ ending).toList = front ++ '/' :: (name ++ ending).toList := by
        rw [String.toList_append, text, String.toList_append, List.append_assoc, List.cons_append]
      rw [steps_behind behind, steps_clean (longer plain) some other]
    · rw [namesFolder, text]
      rcases bare with rfl | rfl
      · simp
      · simp

end Names

section Reading

variable {disk after : Disk} {place : Place} {path : RawText} {text : String}

theorem read_eq_ok_iff : disk.read path = .ok text ↔ ∃ place, disk.locate path = .ok place ∧
    disk.isFolder place = false ∧ disk.file? place = some text ∧ namesFolder path = false := by
  rw [read]
  cases disk.locate path with
  | error fault => simp [bind, Except.bind]
  | ok place =>
    simp only [bind, Except.bind, Except.ok.injEq, exists_eq_left']
    cases disk.isFolder place with
    | true => simp
    | false =>
      cases disk.file? place with
      | none => simp
      | some held => cases named : namesFolder path <;> simp

theorem isFolder_above {other : Place} (above : place <+: other) (folder : disk.isFolder other = true) :
    disk.isFolder place = true := by
  rw [isFolder_iff] at folder ⊢
  rcases folder with rfl | below | ⟨made, listed, below⟩ | ⟨entry, listed, below, differ⟩
  · exact .inl (List.prefix_nil.mp above)
  · exact .inr (.inl (above.trans below))
  · exact .inr (.inr (.inl ⟨made, listed, above.trans below⟩))
  · refine .inr (.inr (.inr ⟨entry, listed, above.trans below, ?_⟩))
    rintro rfl
    exact differ (List.IsPrefix.eq_of_length_le below above.length_le)

/-- Before its last step a way leads through folders. -/
theorem isFolder_of_walk {start : Place} {folders : List String} {name : String}
    (folder : disk.isFolder start = true) (found : disk.walk start (folders ++ [name]) = .ok place) :
    disk.isFolder (folders.foldl stepTo start) = true := by
  induction folders generalizing start with
  | nil => exact folder
  | cons step rest ih =>
    obtain ⟨_, next, rfl, passes, further⟩ := walk_cons_eq_ok.mp found
    refine ih (passes.resolve_left ?_) further
    simp

theorem isFolder_here (disk : Disk) : disk.isFolder disk.here = true :=
  isFolder_iff.mpr (.inr (.inl (List.prefix_refl _)))

theorem isFolder_start (disk : Disk) (path : RawText) :
    disk.isFolder (if isAbsolute path then [] else disk.here) = true := by
  split
  · rfl
  · exact isFolder_here disk

/-- A file that can be read has a name of its own in a folder. -/
theorem exists_place (held : disk.read path = .ok text) : ∃ folders name,
    (∀ ending : String, '/' ∉ ending.toList → name ++ ending ≠ "" → name ++ ending ≠ "." →
      steps (path ++ ending) = folders ++ [name ++ ending]) ∧
    goal disk.here path = folders.foldl stepTo (if isAbsolute path then [] else disk.here) ++ [name] := by
  obtain ⟨place, located, plain, _, named⟩ := read_eq_ok_iff.mp held
  have start := isFolder_start disk path
  rw [goal_of_locate located]
  rw [locate] at located
  split at located
  · cases located
  rename_i some
  obtain ⟨folders, name, endings, bare⟩ := exists_named path
  -- a path whose last name leads nowhere leads to a folder, and a folder cannot be read
  have real : ¬(name = "" ∨ name = ".") := by
    intro empty
    rcases bare empty with rfl | folder
    · rcases empty with rfl | rfl
      · exact some rfl
      · have stays : steps "." = [] := by decide
        rw [stays, walk] at located
        obtain rfl := Except.ok.inj located
        rw [start] at plain
        cases plain
    · rw [named] at folder
      cases folder
  have own := endings "" (by simp)
  rw [String.append_empty, String.append_empty] at own
  have last : steps path = folders ++ [name] :=
    own (fun same => real (.inl same)) (fun same => real (.inr same))
  rw [last] at located
  have folder := isFolder_of_walk start located
  have reached := goal_of_walk located
  rw [List.foldl_append, List.foldl_cons, List.foldl_nil, stepTo] at reached
  split at reached
  · have above := isFolder_above (List.dropLast_prefix _) folder
    rw [reached, plain] at above
    cases above
  · exact ⟨folders, name, endings, reached.symm⟩

/-- The text beside a file does not stand in the way to it. -/
theorem beside_apart (held : disk.read path = .ok text) :
    ¬goal disk.here path <+: goal disk.here (path ++ ".tmp") := by
  obtain ⟨folders, name, endings, reached⟩ := exists_place held
  have longer (other : String) (short : other.length < 4) : name ++ ".tmp" ≠ other := by
    rintro rfl
    rw [String.length_append] at short
    have four : ".tmp".length = 4 := by decide
    omega
  have beside := endings ".tmp" (by decide) (longer _ (by decide)) (longer _ (by decide))
  have named : path ≠ "" := by
    rintro rfl
    cases held
  have absolute : isAbsolute (path ++ ".tmp") = isAbsolute path := by
    obtain ⟨c, rest, letters⟩ := List.exists_cons_of_ne_nil fun none => named (String.toList_inj.mp none)
    rw [isAbsolute, isAbsolute, String.toList_append, letters]
    rfl
  rw [reached, goal, beside, absolute, List.foldl_append, List.foldl_cons, List.foldl_nil, stepTo,
    if_neg (longer _ (by decide)), List.prefix_append_right_inj]
  intro same
  have equal := List.cons_prefix_cons.mp same
  have length := congrArg String.length equal.1
  rw [String.length_append] at length
  have four : ".tmp".length = 4 := by decide
  omega

/-- Nothing that was there is lost, and a file in a place is still the same file. -/
structure Stays (target : Place) (before after : Disk) : Prop where
  here : after.here = before.here
  folders : ∀ place, before.isFolder place = true → after.isFolder place = true
  file : after.file? target = before.file? target
  plain : before.file? target ≠ none → before.isFolder target = false → after.isFolder target = false

namespace Stays

variable {target : Place} {first second third : Disk}

theorem refl (target : Place) (disk : Disk) : Stays target disk disk := ⟨rfl, fun _ => id, rfl, fun _ => id⟩

theorem trans (one : Stays target first second) (other : Stays target second third) :
    Stays target first third where
  here := other.here.trans one.here
  folders place folder := other.folders place (one.folders place folder)
  file := other.file.trans one.file
  plain some plain := other.plain (one.file ▸ some) (one.plain some plain)

/-- What could be read from the file still can. -/
theorem read_eq (stays : Stays (goal first.here path) first second) (held : first.read path = .ok text) :
    second.read path = .ok text := by
  obtain ⟨place, located, plain, file, named⟩ := read_eq_ok_iff.mp held
  obtain ⟨here, folders, same, still⟩ := stays
  rw [goal_of_locate located] at same still
  refine read_eq_ok_iff.mpr ⟨place, locate_mono folders here located, still ?_ plain, same.trans file, named⟩
  rw [file]
  exact Option.some_ne_none text

end Stays

/-- A text may be put anywhere but in the place of the file or below it. -/
theorem stays_put {target : Place} (apart : ¬target <+: place) (text : String) :
    Stays target disk (disk.put place text) where
  here := rfl
  folders _ := isFolder_put place text
  file := (spares_put disk place text).files target fun member => by
    rw [List.mem_singleton.mp member] at apart
    exact apart (List.prefix_refl _)
  plain := by
    intro _ plain
    rw [← Bool.not_eq_true] at plain ⊢
    refine fun folder => plain ?_
    rw [isFolder_iff] at folder ⊢
    rcases folder with root | above | made | ⟨entry, listed, below, differ⟩
    · exact .inl root
    · exact .inr (.inl above)
    · exact .inr (.inr (.inl made))
    · rcases List.mem_cons.mp listed with rfl | listed
      · exact absurd below apart
      · exact .inr (.inr (.inr ⟨entry, (List.mem_filter.mp listed).1, below, differ⟩))

/-- A folder may be made where there is no file, in a folder. -/
theorem stays_made {target next : Place} (free : disk.file? next = none)
    (inside : ∀ place, place <+: next → place = next ∨ disk.isFolder place = true) :
    Stays target disk { disk with folders := next :: disk.folders } where
  here := rfl
  folders place folder := by
    rw [isFolder_iff] at folder ⊢
    exact folder.imp_right (.imp_right (.imp_left fun made =>
      made.imp fun _ listed => ⟨List.mem_cons_of_mem _ listed.1, listed.2⟩))
  file := rfl
  plain := by
    intro some plain
    rw [← Bool.not_eq_true] at plain ⊢
    refine fun folder => plain ?_
    rw [isFolder_iff] at folder
    rcases folder with root | above | ⟨made, listed, below⟩ | held
    · exact isFolder_iff.mpr (.inl root)
    · exact isFolder_iff.mpr (.inr (.inl above))
    · rcases List.mem_cons.mp listed with rfl | listed
      · rcases inside target below with rfl | folder
        · exact absurd free some
        · exact folder
      · exact isFolder_iff.mpr (.inr (.inr (.inl ⟨made, listed, below⟩)))
    · exact isFolder_iff.mpr (.inr (.inr (.inr held)))

/-- One step leads no further than into the folder. -/
theorem inside_stepTo {start : Place} (folder : disk.isFolder start = true) (step : RawText) :
    ∀ place, place <+: stepTo start step → place = stepTo start step ∨ disk.isFolder place = true := by
  intro place above
  rw [stepTo] at above ⊢
  split at above
  · exact .inr (isFolder_above (above.trans (List.dropLast_prefix start)) folder)
  · rename_i down
    rw [if_neg down]
    exact (List.prefix_concat_iff.mp above).imp_right fun above => isFolder_above above folder

theorem stays_makeFolders (target : Place) {start : Place} (folder : disk.isFolder start = true)
    (steps : List RawText) : Stays target disk (disk.makeFolders start steps).2 := by
  induction steps generalizing disk start with
  | nil => exact .refl _ _
  | cons step rest ih =>
    have inside := inside_stepTo folder step
    rw [stepTo] at inside
    rw [makeFolders]
    generalize (if step = ".." then start.dropLast else start ++ [step]) = next at inside
    split
    · exact .refl _ _
    · dsimp only
      split
      · rename_i there
        exact ih there
      · split
        · exact .refl _ _
        · rename_i free
          have made : Stays target disk { disk with folders := next :: disk.folders } :=
            stays_made (by simpa using free) inside
          exact made.trans (ih (isFolder_iff.mpr
            (.inr (.inr (.inl ⟨next, List.mem_cons_self, List.prefix_refl next⟩)))))

theorem stays_createFolders (target : Place) (disk : Disk) (path : RawText) :
    Stays target disk (disk.createFolders path).2 := by
  rw [createFolders]
  split
  · exact .refl _ _
  · exact stays_makeFolders target (isFolder_start disk path) _

end Reading

end Disk

namespace Machine

open Disk (Stays goal)

variable {β : Type} {target : Place} {disk : Disk} {machine after : Machine} {path : RawText}
  {text held : String}

/-- A machine on which nothing is lost that was on a disk, with the same file in a place. -/
def Staying (target : Place) (disk : Disk) (machine : Machine) : Prop := Stays target disk machine.disk

theorem staying_operate {act : Disk → Except FileFault β × Disk}
    (stays : ∀ now, now.here = disk.here → Stays target now (act now).2) :
    Preserves (Staying target disk) (operate act) := by
  intro machine staying
  rw [operate]
  split
  · exact staying
  · exact Stays.trans staying (stays machine.disk staying.here)

theorem staying_createParent (path : RawText) :
    Preserves (Staying target disk) (createParent path : Run _) := by
  rw [createParent]
  split
  · exact preserves_pure _
  · exact preserves_pure _
  · exact staying_operate fun now _ => Disk.stays_createFolders target now _

theorem staying_writeText (apart : ¬target <+: goal disk.here path) (text : String) :
    Preserves (Staying target disk) (Host.writeText path text : Run _) := by
  refine staying_operate fun now here => ?_
  cases wrote : now.write path text with
  | error fault => exact .refl _ _
  | ok later =>
    obtain ⟨place, located, rfl⟩ := Disk.write_eq_ok wrote
    rw [← here, Disk.goal_of_locate located] at apart
    exact Disk.stays_put apart text

/-- A file that could not be replaced is read as before. -/
theorem read_of_failed {fault : FileFault} (read : machine.disk.read path = .ok held)
    (failed : (replaceFile path text : Run _) machine = (.error fault, after)) :
    after.disk.read path = .ok held := by
  have made := staying_createParent path machine (Stays.refl (goal machine.disk.here path) machine.disk)
  rw [replaceFile, run_bind] at failed
  generalize (createParent path : Run _) machine = folder at made failed
  obtain ⟨answer, between⟩ := folder
  cases answer with
  | error fault =>
    rw [← (Prod.mk.inj failed).2]
    exact made.read_eq read
  | ok =>
    have wrote := staying_writeText (Disk.beside_apart read) text between made
    dsimp only at failed
    rw [run_bind] at failed
    generalize (Host.writeText (path ++ ".tmp") text : Run _) between = written at failed wrote
    obtain ⟨answer, later⟩ := written
    cases answer with
    | error fault =>
      rw [← (Prod.mk.inj failed).2]
      exact wrote.read_eq read
    | ok =>
      have same : after.disk = later.disk := disk_of_failed failed
      rw [same]
      exact wrote.read_eq read

end Machine
end DesignCompiler
