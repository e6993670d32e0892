import DesignCompiler.Proofs.FailedReplacement
import DesignCompiler.Proofs.LedgerHistories
import DesignCompiler.Proofs.Reloading

/-!
What becomes of the file of a ledger when some of its writes fail. A ledger holds an asset before it is
written, so an asset whose write failed is in the ledger and not in the file until another one is saved.
-/
namespace DesignCompiler.Store

/-- A call to enter an asset: whether the ledger had nothing for the hash, and what was answered. -/
structure InsertCall where
  hash : String
  isNew : Bool
  answer : Except Failure LedgerEntry

namespace InsertCall

def Failed (call : InsertCall) : Prop := ∃ failure, call.answer = .error failure

/-- The whole ledger was written. -/
def Saves (call : InsertCall) : Prop := call.isNew = true ∧ ∃ entry, call.answer = .ok entry

/-- The write of an asset failed, and nothing was saved since. -/
def Unsaved (calls : List InsertCall) (hash : String) : Prop :=
  ∃ front first back, calls = front ++ first :: back ∧ first.hash = hash ∧ first.Failed ∧
    ∀ later ∈ back, ¬later.Saves

theorem unsaved_more {calls : List InsertCall} {hash : String} (unsaved : Unsaved calls hash)
    {last : InsertCall} (other : ¬last.Saves) : Unsaved (calls ++ [last]) hash := by
  obtain ⟨front, first, back, rfl, same, failed, none⟩ := unsaved
  refine ⟨front, first, back ++ [last], by simp, same, failed, fun later member => ?_⟩
  rcases List.mem_append.mp member with member | member
  · exact none later member
  · rw [List.mem_singleton.mp member]
    exact other

theorem unsaved_last {calls : List InsertCall} {last : InsertCall} (failed : last.Failed) :
    Unsaved (calls ++ [last]) last.hash :=
  ⟨calls, last, [], rfl, rfl, failed, List.forall_mem_nil _⟩

/-- Whatever was not written is, once a call saves. -/
theorem not_unsaved {calls : List InsertCall} {last : InsertCall} (saves : last.Saves) (hash : String) :
    ¬Unsaved (calls ++ [last]) hash := by
  rintro ⟨front, first, back, split, _, ⟨failure, failed⟩, none⟩
  rcases List.eq_nil_or_concat back with rfl | ⟨back, final, rfl⟩
  · obtain ⟨_, entry, answered⟩ := saves
    obtain ⟨_, ends⟩ := List.append_inj' split rfl
    rw [List.singleton_inj.mp ends, failed] at answered
    cases answered
  · rw [List.concat_eq_append, ← List.cons_append, ← List.append_assoc] at split
    obtain ⟨_, ends⟩ := List.append_inj' split rfl
    refine none last ?_ saves
    rw [List.singleton_inj.mp ends]
    simp

end InsertCall

/-- Calls one after the other on a ledger with a file. Between them anything may happen to the machine that
leaves this file alone; in particular, any faults may come. -/
inductive InsertCalls (path : RawText) (start : Ledger × Machine) :
    List InsertCall → Ledger × Machine → Prop where
  | start : InsertCalls path start [] start
  | elsewhere {ledger : Ledger} {machine later : Machine}
      (history : InsertCalls path start calls (ledger, machine))
      (same : later.disk.read path = machine.disk.read path) : InsertCalls path start calls (ledger, later)
  | insert {before after : Ledger × Machine} {hash asset : String} {answer : Except Failure LedgerEntry}
      (history : InsertCalls path start calls before) (now : before.2.clock.Valid)
      (done : Yields (Ledger.insert hash asset) before answer after) :
      InsertCalls path start (calls ++ [⟨hash, (before.1.get? hash).isNone, answer⟩]) after

/-- A load that meets no fault finds an entry of a hash. -/
def Reloads (machine : Machine) (path : RawText) (hash : String) (entry : LedgerEntry) : Prop :=
  ∃ ledger, ((Ledger.load path : Machine.Run _) { machine with faults := [] }).1 = .ok ledger ∧
    ledger.get? hash = some entry

section Reloading

variable {machine : Machine} {path : RawText} {hash : String} {entry : LedgerEntry}

theorem reloads_iff : Reloads machine path hash entry ↔ ∃ contents entries,
    machine.disk.read path = .ok contents ∧ Ledger.parse contents = some entries ∧
      entries.lookup hash = some entry := by
  have calm : Machine.Calm { machine with faults := [] } := fun _ _ faults => by cases faults
  constructor
  · rintro ⟨ledger, load, found⟩
    obtain ⟨_, loads, _⟩ := load_eq_ok calm (Prod.ext load rfl)
    rcases loads with ⟨contents, read, parsed⟩ | ⟨_, nothing⟩
    · exact ⟨contents, ledger.entries, read, parsed, found⟩
    · rw [Ledger.get?, nothing] at found
      cases found
  · rintro ⟨contents, entries, read, parsed, found⟩
    refine ⟨⟨some path, entries⟩, ?_, found⟩
    rw [Ledger.load, Machine.run_bind, readText_of_calm calm]
    simp only [read, parsed]
    rfl

/-- What can be found again depends on the text of the file alone. -/
theorem Reloads.congr {later : Machine} (reloads : Reloads machine path hash entry)
    (same : ∀ contents, machine.disk.read path = .ok contents → later.disk.read path = .ok contents) :
    Reloads later path hash entry := by
  obtain ⟨contents, entries, read, parsed, found⟩ := reloads_iff.mp reloads
  exact reloads_iff.mpr ⟨contents, entries, same contents read, parsed, found⟩

end Reloading

section Steps

variable {before after : Ledger × Machine} {path : RawText} {hash asset : String}
  {answer : Except Failure LedgerEntry}

theorem insert_present {entry : LedgerEntry} (asset : String) (present : before.1.get? hash = some entry) :
    Yields (Ledger.insert hash asset) before (.ok entry) before := by
  simp only [Ledger.insert, yields_bind, yields_get]
  refine ⟨before.1, before, ⟨rfl, rfl⟩, ?_⟩
  rw [present]
  exact yields_pure.mpr ⟨rfl, rfl⟩

/-- What a call does: nothing for a hash that the ledger has. For any other the entry comes into the ledger,
and then the answer is that of the write. -/
theorem insert_cases (done : Yields (Ledger.insert hash asset) before answer after) :
    (∃ entry, before.1.get? hash = some entry ∧ answer = .ok entry ∧ after = before) ∨
    before.1.get? hash = none ∧ after.1 = before.1.extended hash ⟨asset, before.2.clock⟩ ∧
      ∃ written, (Ledger.persist after.1 : Machine.Run _) before.2 = (written, after.2) ∧
        answer = (written.mapError .io).map fun _ => ⟨asset, before.2.clock⟩ := by
  simp only [Ledger.insert, yields_bind, yields_get] at done
  obtain ⟨ledger, _, ⟨rfl, rfl⟩, done⟩ := done
  cases held : before.1.get? hash with
  | some entry =>
    simp only [held, yields_pure] at done
    exact .inl ⟨entry, rfl, done.1.symm, done.2.symm⟩
  | none =>
    simp only [held, yields_bind, yields_set, yields_lift] at done
    obtain ⟨time, asked, ⟨same, clock⟩, _, _, rfl, written, wrote, ⟨kept, saved⟩, done⟩ := done
    obtain ⟨rfl, now⟩ := Prod.mk.inj clock
    have ends : (written.mapError .io).map (fun _ => (⟨asset, before.2.clock⟩ : LedgerEntry)) = answer ∧
        wrote = after := by
      cases written with
      | error fault => exact yields_pure.mp done
      | ok => exact yields_pure.mp done
    obtain ⟨rfl, rfl⟩ := ends
    refine .inr ⟨rfl, kept.symm, written, ?_, rfl⟩
    rw [now, ← kept]
    exact saved

end Steps

/-- A ledger with a file that holds all its entries, but for some hashes. -/
structure Held (path : RawText) (except : String → Prop) (state : Ledger × Machine) : Prop where
  file : state.1.path = some path
  ordered : state.1.Ordered
  stamped : Stamped state.1.entries
  kept : ∀ hash entry, state.1.get? hash = some entry → except hash ∨ Reloads state.2 path hash entry

namespace Held

variable {path : RawText} {hash asset : String} {except other : String → Prop} {before after : Ledger × Machine}
  {later : Machine}

theorem mono (held : Held path except before) (more : ∀ hash, except hash → other hash) :
    Held path other before :=
  ⟨held.file, held.ordered, held.stamped, fun hash entry found =>
    (held.kept hash entry found).imp_left (more hash)⟩

theorem elsewhere (held : Held path except before) (same : later.disk.read path = before.2.disk.read path) :
    Held path except (before.1, later) :=
  ⟨held.file, held.ordered, held.stamped, fun hash entry found =>
    (held.kept hash entry found).imp_right fun reloads => reloads.congr fun _ read => same.trans read⟩

theorem loaded {machine : Machine} {ledger : Ledger} (calm : machine.Calm)
    (load : (Ledger.load path : Machine.Run _) machine = (.ok ledger, later)) :
    Held path except (ledger, later) := by
  obtain ⟨file, loads, disk⟩ := load_eq_ok calm load
  refine ⟨file, (sound_loaded calm load).1, ?_, fun hash entry held => .inr ?_⟩
  · rcases loads with ⟨_, _, parsed⟩ | ⟨_, nothing⟩
    · exact stamped_parse parsed
    · rw [nothing]
      exact List.forall_mem_nil _
  · rcases loads with ⟨contents, read, parsed⟩ | ⟨_, nothing⟩
    · rw [← disk] at read
      exact reloads_iff.mpr ⟨contents, ledger.entries, read, parsed, held⟩
    · rw [Ledger.get?, nothing] at held
      cases held

section Writing

variable (held : Held path except before)
  (entered : after.1 = before.1.extended hash ⟨asset, before.2.clock⟩)

include held entered

theorem persist_eq : (Ledger.persist after.1 : Machine.Run _) = replaceFile path after.1.fileText := by
  have file : after.1.path = some path := by rw [entered, Ledger.extended, held.file]
  rw [Ledger.persist, file]

/-- A write that fails takes nothing away. -/
theorem reloads_of_failed {fault : FileFault} {key : String} {entry : LedgerEntry}
    (failed : (Ledger.persist after.1 : Machine.Run _) before.2 = (.error fault, after.2))
    (reloads : Reloads before.2 path key entry) : Reloads after.2 path key entry := by
  rw [held.persist_eq entered] at failed
  exact reloads.congr fun _ read => Machine.read_of_failed read failed

variable (now : before.2.clock.Valid)

include now

theorem extended
    (kept : ∀ key entry, after.1.get? key = some entry → other key ∨ Reloads after.2 path key entry) :
    Held path other after where
  file := by rw [entered, Ledger.extended, held.file]
  ordered := by
    rw [entered]
    exact ordered_insertSorted held.ordered hash _
  stamped := by
    rw [entered]
    exact held.stamped.insertSorted now hash
  kept := kept

/-- A ledger that was written is found again as a whole. -/
theorem written (saved : (Ledger.persist after.1 : Machine.Run _) before.2 = (.ok (), after.2)) :
    Held path other after := by
  have whole : Held path (fun _ => True) after := held.extended entered now fun _ _ _ => .inl trivial
  refine held.extended entered now fun key entry found => .inr ?_
  rw [held.persist_eq entered] at saved
  exact reloads_iff.mpr ⟨after.1.fileText, after.1.entries, Machine.read_replaceFile saved,
    parse_fileText whole.ordered whole.stamped, found⟩

/-- If the write fails, the new entry is one exception more. -/
theorem unwritten {fault : FileFault}
    (failed : (Ledger.persist after.1 : Machine.Run _) before.2 = (.error fault, after.2))
    (more : ∀ key, except key → other key) (own : other hash) : Held path other after := by
  refine held.extended entered now fun key entry found => ?_
  rw [entered, get?_extended] at found
  split at found
  · rename_i same
    exact .inl (same ▸ own)
  · exact (held.kept key entry found).imp (more key) (held.reloads_of_failed entered failed)

end Writing

end Held

open InsertCall (Unsaved)

section Histories

variable {path : RawText} {hash asset : String} {start before after : Ledger × Machine}
  {calls : List InsertCall} {answer : Except Failure LedgerEntry}

/-- One call: what is not found again is what was not written. -/
theorem Held.insert (held : Held path (Unsaved calls) before) (now : before.2.clock.Valid)
    (done : Yields (Ledger.insert hash asset) before answer after) :
    Held path (Unsaved (calls ++ [⟨hash, (before.1.get? hash).isNone, answer⟩])) after := by
  rcases insert_cases done with ⟨entry, present, rfl, rfl⟩ | ⟨fresh, entered, written, saved, rfl⟩
  · rw [present]
    exact held.mono fun other unsaved => InsertCall.unsaved_more unsaved fun saves => by cases saves.1
  · cases written with
    | ok => exact held.written entered now saved
    | error fault =>
      refine held.unwritten entered now saved (fun other unsaved => InsertCall.unsaved_more unsaved ?_) ?_
      · rintro ⟨_, entry, answered⟩
        cases answered
      · exact InsertCall.unsaved_last ⟨.io fault, rfl⟩

theorem InsertCalls.held (history : InsertCalls path start calls after) (held : Held path (Unsaved []) start) :
    Held path (Unsaved calls) after := by
  induction history with
  | start => exact held
  | elsewhere _ same ih => exact ih.elsewhere same
  | insert _ now done ih => exact ih.insert now done

/-- The answers of the calls on a ledger that was loaded from its file, whichever of the writes fail. The entry
of a good answer is found again in the file, unless a call for its hash failed and nothing was saved since. A
call that fails takes nothing away, but leaves its entry in the ledger. -/
theorem InsertCalls.reloads_after_insert {machine loaded : Machine} {ledger : Ledger} (calm : machine.Calm)
    (load : (Ledger.load path : Machine.Run _) machine = (.ok ledger, loaded))
    (history : InsertCalls path (ledger, loaded) calls before) (now : before.2.clock.Valid)
    (done : Yields (Ledger.insert hash asset) before answer after) :
    (∀ entry, answer = .ok entry → after.1.get? hash = some entry ∧
      (¬Unsaved calls hash → Reloads after.2 path hash entry)) ∧
    ∀ failure, answer = .error failure → before.1.get? hash = none ∧
      after.1 = before.1.extended hash ⟨asset, before.2.clock⟩ ∧
      ∀ other entry, Reloads before.2 path other entry → Reloads after.2 path other entry := by
  have held := history.held (Held.loaded calm load)
  rcases insert_cases done with ⟨entry, present, rfl, rfl⟩ | ⟨fresh, entered, written, saved, rfl⟩
  · refine ⟨fun entry answered => ?_, fun failure answered => by cases answered⟩
    obtain rfl := Except.ok.inj answered
    exact ⟨present, fun saved => (held.kept hash entry present).resolve_left saved⟩
  · cases written with
    | ok =>
      refine ⟨fun entry answered => ?_, fun failure answered => by cases answered⟩
      obtain rfl := Except.ok.inj answered
      have found : after.1.get? hash = some ⟨asset, before.2.clock⟩ := by
        rw [entered, get?_extended, if_pos rfl]
      have all : Held path (fun _ => False) after := held.written entered now saved
      exact ⟨found, fun _ => (all.kept hash _ found).resolve_left id⟩
    | error fault =>
      refine ⟨(fun entry answered => by cases answered), fun failure _ => ⟨fresh, entered, ?_⟩⟩
      exact fun other entry reloads => held.reloads_of_failed entered saved reloads

/-- A new ledger in a folder, and the same with an asset that was not written. -/
def emptyBook : Ledger := ⟨some "assets.json", []⟩

def roseBook : Ledger := ⟨some "assets.json", [("rose", ⟨"101", ⟨0, 0⟩⟩)]⟩

/-- A machine without files, and the same when the next write is refused. -/
def quiet : Machine := .ofDisk .empty

def refusing : Machine := { quiet with faults := [some .permission] }

theorem load_quiet : (Ledger.load "assets.json" : Machine.Run _) quiet = (.ok emptyBook, quiet) := rfl

theorem insert_refused :
    Yields (Ledger.insert "rose" "101") (emptyBook, refusing) (.error (.io .permission)) (roseBook, quiet) :=
  show (Ledger.insert "rose" "101" : StateT Ledger Machine.Run _) emptyBook refusing =
    ((.error (.io .permission), roseBook), quiet) from rfl

/-- A write that fails leaves its entry in the ledger, and the next call for the hash answers with it though
there is no file. -/
theorem rose_unwritten :
    (Ledger.load "assets.json" : Machine.Run _) quiet = (.ok emptyBook, quiet) ∧
    Yields (Ledger.insert "rose" "101") (emptyBook, refusing) (.error (.io .permission)) (roseBook, quiet) ∧
    roseBook.entries ≠ emptyBook.entries ∧
    Yields (Ledger.insert "rose" "101") (roseBook, quiet) (.ok ⟨"101", ⟨0, 0⟩⟩) (roseBook, quiet) ∧
    ¬Reloads quiet "assets.json" "rose" ⟨"101", ⟨0, 0⟩⟩ := by
  refine ⟨load_quiet, insert_refused, by decide, insert_present _ rfl, ?_⟩
  rintro ⟨ledger, loaded, found⟩
  obtain rfl := Except.ok.inj ((congrArg Prod.fst load_quiet).symm.trans loaded)
  cases found

/-- What was not written at first is found again once another asset is saved. -/
theorem rose_reloads_after_insert : ∃ state, InsertCalls "assets.json" (emptyBook, quiet)
      [⟨"rose", true, .error (.io .permission)⟩, ⟨"iris", true, .ok ⟨"202", ⟨0, 0⟩⟩⟩] state ∧
    Yields (Ledger.insert "rose" "303") state (.ok ⟨"101", ⟨0, 0⟩⟩) state ∧
    Reloads state.2 "assets.json" "rose" ⟨"101", ⟨0, 0⟩⟩ := by
  have calm : quiet.Calm := fun _ _ faults => by cases faults
  have now : quiet.clock.Valid := ⟨by decide, .inl (by decide)⟩
  have answered : ((Ledger.insert "iris" "202" : StateT Ledger Machine.Run _) roseBook quiet).1.1 =
    .ok ⟨"202", ⟨0, 0⟩⟩ := rfl
  obtain ⟨state, saved, clock⟩ : ∃ state,
      Yields (Ledger.insert "iris" "202") (roseBook, quiet) (.ok ⟨"202", ⟨0, 0⟩⟩) state ∧
        state.2.clock = quiet.clock := ⟨(_, _), Prod.ext (Prod.ext answered rfl) rfl, rfl⟩
  have faulty : InsertCalls "assets.json" (emptyBook, quiet) [] (emptyBook, refusing) := .elsewhere .start rfl
  have history := (faulty.insert now insert_refused).insert now saved
  have present : state.1.get? "rose" = some ⟨"101", ⟨0, 0⟩⟩ := by
    rw [(get?_insert rfl saved).2, if_neg (by decide)]
    rfl
  have again := insert_present "303" present
  have told := InsertCalls.reloads_after_insert calm load_quiet history (clock ▸ now) again
  exact ⟨state, history, again, (told.1 _ rfl).2 (InsertCall.not_unsaved ⟨rfl, _, rfl⟩ "rose")⟩

end Histories

end DesignCompiler.Store
