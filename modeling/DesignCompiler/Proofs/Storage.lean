import DesignCompiler.Host.Disk
import DesignCompiler.Proofs.Association

/-!
What was put in the place of a file is there: a replaced file holds the text it was replaced by, on the
same way as before.
-/
namespace DesignCompiler

namespace Disk

section Folders

variable {disk other : Disk} {place : Place}

theorem isFolder_iff : disk.isFolder place = true ↔
    place = [] ∨ place <+: disk.here ∨ (∃ folder ∈ disk.folders, place <+: folder) ∨
      ∃ entry ∈ disk.files, place <+: entry.1 ∧ place ≠ entry.1 := by
  simp only [isFolder, Bool.or_eq_true, List.isEmpty_iff, List.isPrefixOf_iff_prefix, List.any_eq_true,
    Bool.and_eq_true, bne_iff_ne, or_assoc]

theorem isFolder_put (target : Place) (text : String) (folder : disk.isFolder place = true) :
    (disk.put target text).isFolder place = true := by
  rw [isFolder_iff] at folder ⊢
  rcases folder with root | above | made | ⟨entry, listed, below, differ⟩
  · exact .inl root
  · exact .inr (.inl above)
  · exact .inr (.inr (.inl made))
  · refine .inr (.inr (.inr ?_))
    by_cases same : entry.1 = target
    · exact ⟨(target, text), List.mem_cons_self, same ▸ below, same ▸ differ⟩
    · exact ⟨entry, List.mem_cons_of_mem _ (List.mem_filter.mpr ⟨listed, bne_iff_ne.mpr same⟩), below,
        differ⟩

theorem prefix_dropLast {front whole : Place} (above : front <+: whole) (differ : front ≠ whole) :
    front <+: whole.dropLast := by
  obtain ⟨behind, rfl⟩ := above
  have more : behind ≠ [] := fun none => differ (by rw [none, List.append_nil])
  rw [List.dropLast_append_of_ne_nil more]
  exact List.prefix_append _ _

/-- Folders stay folders where a file is taken away. -/
theorem isFolder_remove (source : Place) (folder : disk.isFolder place = true) :
    (disk.remove source).isFolder place = true := by
  rw [isFolder_iff] at folder ⊢
  rcases folder with root | above | ⟨made, listed, below⟩ | ⟨entry, listed, below, differ⟩
  · exact .inl root
  · exact .inr (.inl above)
  · exact .inr (.inr (.inl ⟨made, List.mem_cons_of_mem _ listed, below⟩))
  · by_cases same : entry.1 = source
    · subst same
      exact .inr (.inr (.inl ⟨_, List.mem_cons_self, prefix_dropLast below differ⟩))
    · exact .inr (.inr (.inr ⟨entry, List.mem_filter.mpr ⟨listed, bne_iff_ne.mpr same⟩, below, differ⟩))

/-- A step can be gone just if it is the last one or leads to a folder. -/
theorem walk_cons_eq_ok {start goal : Place} {step : RawText} {rest : List RawText} :
    disk.walk start (step :: rest) = .ok goal ↔
      ¬isTooLong step ∧ ∃ next, next = (if step = ".." then start.dropLast else start ++ [step]) ∧
        (rest.isEmpty = true ∨ disk.isFolder next = true) ∧ disk.walk next rest = .ok goal := by
  rw [walk]
  generalize (if step = ".." then start.dropLast else start ++ [step]) = next
  by_cases long : isTooLong step
  · simp [long]
  · by_cases passes : (rest.isEmpty || disk.isFolder next) = true
    · simpa [long, passes] using fun _ => Bool.or_eq_true_iff.mp passes
    · have blocked : ¬(rest = [] ∨ disk.isFolder next = true) := by
        rwa [Bool.or_eq_true, List.isEmpty_iff] at passes
      cases there : (disk.file? next).isSome <;> simp [long, passes, blocked, there]

/-- A way that can be gone can still be gone with more folders. -/
theorem walk_mono (more : ∀ place, disk.isFolder place = true → other.isFolder place = true)
    {start goal : Place} {steps : List RawText} (found : disk.walk start steps = .ok goal) :
    other.walk start steps = .ok goal := by
  induction steps generalizing start with
  | nil => exact found
  | cons step rest ih =>
    obtain ⟨short, next, same, passes, further⟩ := walk_cons_eq_ok.mp found
    exact walk_cons_eq_ok.mpr ⟨short, next, same, passes.imp_right (more next), ih further⟩

theorem locate_mono (more : ∀ place, disk.isFolder place = true → other.isFolder place = true)
    (here : other.here = disk.here) {path : RawText} {goal : Place}
    (found : disk.locate path = .ok goal) : other.locate path = .ok goal := by
  rw [locate] at found ⊢
  split at found
  · cases found
  · rename_i named
    rw [if_neg named, here]
    exact walk_mono more found

end Folders

section Texts

variable {disk after : Disk} {source target path : RawText} {text : String}

theorem file?_put (disk : Disk) (place : Place) (text : String) :
    (disk.put place text).file? place = some text := by
  rw [file?, put, List.lookup_cons, beq_self_eq_true]

/-- What a write leaves is the text in the place of the path. -/
theorem write_eq_ok (done : disk.write path text = .ok after) :
    ∃ place, disk.locate path = .ok place ∧ after = disk.put place text := by
  rw [write] at done
  cases found : disk.locate path with
  | error fault => simp [found, bind, Except.bind] at done
  | ok place =>
    simp only [found, bind, Except.bind] at done
    split at done
    · cases done
    · split at done
      · cases done
      · exact ⟨place, rfl, (Except.ok.inj done).symm⟩

/-- What a rename leaves is the text of the source in the place of the target. -/
theorem rename_eq_ok (done : disk.rename source target = .ok after) :
    ∃ start goal text, disk.locate source = .ok start ∧ disk.locate target = .ok goal ∧
      disk.file? start = some text ∧ disk.isFolder goal = false ∧ namesFolder target = false ∧
      after = (disk.remove start).put goal text := by
  rw [rename] at done
  cases leaving : disk.locate source with
  | error fault => simp [leaving, bind, Except.bind] at done
  | ok start =>
    cases reaching : disk.locate target with
    | error fault => simp [leaving, reaching, bind, Except.bind] at done
    | ok goal =>
      simp only [leaving, reaching, bind, Except.bind] at done
      cases held : disk.file? start with
      | none => simp [held] at done
      | some text =>
        simp only [held] at done
        split at done
        · cases done
        · rename_i file
          split at done
          · cases done
          · rename_i named
            exact ⟨start, goal, text, rfl, rfl, held, eq_false_of_ne_true file,
              eq_false_of_ne_true named, (Except.ok.inj done).symm⟩

/-- A place that is no folder does not become one by a file that comes to it. -/
theorem isFolder_moved {start goal : Place} (held : disk.file? start = some text)
    (file : disk.isFolder goal = false) :
    ((disk.remove start).put goal text).isFolder goal = false := by
  rw [← Bool.not_eq_true] at file ⊢
  refine fun folder => file ?_
  rw [isFolder_iff] at folder ⊢
  rcases folder with root | above | ⟨made, listed, below⟩ | ⟨entry, listed, below, differ⟩
  · exact .inl root
  · exact .inr (.inl above)
  · rcases List.mem_cons.mp listed with rfl | listed
    · have listed : (start, text) ∈ disk.files := by
        obtain ⟨front, behind, files, _⟩ := List.lookup_eq_some_iff.mp held
        rw [files]
        exact List.mem_append_right _ List.mem_cons_self
      by_cases same : goal = start
      · subst same
        have short := below.length_le
        rw [List.length_dropLast] at short
        exact .inl (List.eq_nil_of_length_eq_zero (by omega))
      · exact .inr (.inr (.inr ⟨_, listed, below.trans (List.dropLast_prefix start), same⟩))
    · exact .inr (.inr (.inl ⟨made, listed, below⟩))
  · rcases List.mem_cons.mp listed with rfl | listed
    · exact absurd rfl differ
    · have kept := (List.mem_filter.mp (List.mem_filter.mp listed).1).1
      exact .inr (.inr (.inr ⟨entry, kept, below, differ⟩))

/-- A file that was replaced by way of another one holds its new text. -/
theorem read_replaced {between : Disk} (wrote : disk.write source text = .ok between)
    (renamed : between.rename source target = .ok after) : after.read target = .ok text := by
  obtain ⟨place, located, rfl⟩ := write_eq_ok wrote
  obtain ⟨start, goal, moved, leaving, reaching, held, file, named, rfl⟩ := rename_eq_ok renamed
  have same : start = place := by
    have again := locate_mono (fun _ => isFolder_put place text) rfl located
    exact Except.ok.inj (leaving.symm.trans again)
  subst same
  obtain rfl : text = moved := Option.some.inj ((file?_put disk start text).symm.trans held)
  have still : (((disk.put start text).remove start).put goal text).locate target = .ok goal :=
    locate_mono (fun _ folder => isFolder_put goal text (isFolder_remove start folder)) rfl reaching
  have plain := isFolder_moved held file
  rw [read, still]
  simp only [bind, Except.bind, plain, Bool.false_eq_true, if_false, file?_put, named]

end Texts

end Disk

namespace Machine

variable {β : Type} {machine after : Machine}

theorem operate_eq_ok {act : Disk → Except FileFault β × Disk} {answer : β}
    (done : operate act machine = (.ok answer, after)) : act machine.disk = (.ok answer, after.disk) := by
  rw [operate] at done
  split at done
  · cases (Prod.mk.inj done).1
  · obtain ⟨result, rest⟩ := Prod.mk.inj done
    rw [← rest, ← result]

theorem settle_eq_ok {disk other : Disk} {changed : Except FileFault Disk}
    (done : settle disk changed = (.ok (), other)) : changed = .ok other := by
  cases changed with
  | error fault => cases (Prod.mk.inj done).1
  | ok disk => rw [(Prod.mk.inj done).2]

theorem run_bind {β γ : Type} (first : Run β) (next : β → Run γ) (machine : Machine) :
    (first >>= next) machine = next (first machine).1 (first machine).2 := rfl

/-- A file that was replaced on a machine holds its new text. -/
theorem read_replaceFile {path : RawText} {text : String}
    (done : (replaceFile path text : Run _) machine = (.ok (), after)) :
    after.disk.read path = .ok text := by
  rw [replaceFile, run_bind] at done
  generalize (createParent path : Run _) machine = folder at done
  obtain ⟨answer, between⟩ := folder
  cases answer with
  | error fault => cases (Prod.mk.inj done).1
  | ok =>
    dsimp only at done
    rw [run_bind] at done
    generalize outcome : (Host.writeText (path ++ ".tmp") text : Run _) between = written at done
    obtain ⟨answer, later⟩ := written
    cases answer with
    | error fault => cases (Prod.mk.inj done).1
    | ok => exact Disk.read_replaced (settle_eq_ok (operate_eq_ok outcome)) (settle_eq_ok (operate_eq_ok done))

end Machine
end DesignCompiler
