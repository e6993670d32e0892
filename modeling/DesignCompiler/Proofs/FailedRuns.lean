import DesignCompiler.CommandLine.Run
import DesignCompiler.Proofs.Agreement
import DesignCompiler.Proofs.TouchedFiles
import DesignCompiler.Scalar.Double

/-!
Runs of the program that fail. What a failing run may have changed is the file of the ledger and texts on
their way to their files. Two failures come too late for that: a snapshot that cannot be written comes after
the model, and a report that cannot be given comes after both.
-/
namespace DesignCompiler

open Disk (Spares goal)
open Machine (Run Sparing)
open Store (Ledger)

namespace CommandLine

/-- The file for the snapshot of a run, if one is named. -/
def CompilePaths.record? (paths : CompilePaths) : Option RawText := paths.snapshotOut.or paths.previous

section Stages

variable {m : Type → Type} [Monad m] [Host m]

/-- What a compiling run does before it writes its files. -/
def compiled (environment : Environment) (send : Store.Request → m (Option Store.Reply))
    (config : Option RawText) (paths : CompilePaths) : m (Except Failure (Compilation Float)) := do
  match ← inputs environment config paths.manifest paths.previous with
  | .error failure => return .error failure
  | .ok (config, manifest, previous) =>
    match ← Ledger.load paths.cache with
    | .error failure => return .error failure
    | .ok ledger =>
      match Store.Uploader.ofEnvironment environment config.upload send with
      | .error failure => return .error failure
      | .ok uploader => return (← (Compilation.run config uploader previous manifest).run ledger).1

/-- A compiling run writes its files when everything else is done. -/
theorem compile_eq [LawfulMonad m] (environment : Environment)
    (send : Store.Request → m (Option Store.Reply)) (config : Option RawText) (paths : CompilePaths) :
    compile environment send config paths = (do
      match ← compiled environment send config paths with
      | .error failure => return .error failure
      | .ok compilation =>
        match ← writeAll paths compilation with
        | .error failure => return .error failure
        | .ok () => return .ok (compileReport paths compilation)) := by
  simp only [compile, compiled, compileWith, bind_assoc]
  refine congrArg _ (funext fun given => ?_)
  cases given with
  | error failure => simp
  | ok given =>
    simp only [bind_assoc]
    refine congrArg _ (funext fun ledger => ?_)
    cases ledger with
    | error failure => simp
    | ok ledger =>
      cases Store.Uploader.ofEnvironment environment given.1.upload send with
      | error failure => simp
      | ok uploader =>
        dsimp only
        refine Eq.trans ?_ (bind_assoc ..).symm
        refine congrArg _ (funext fun ran => ?_)
        refine Eq.trans ?_ (pure_bind ran.1 _).symm
        cases ran.1 <;> rfl

end Stages

section Reading

variable {places : List Place} {disk : Disk}

theorem preserves_config (environment : Environment) (config : Option RawText) :
    Preserves (Sparing places disk) (Config.load environment config : Run _) := by
  have file (path : RawText) : Preserves (Sparing places disk) (Config.readFile path : Run _) := by
    refine (Machine.preserves_readText path).bind fun contents => ?_
    cases contents with
    | error fault => exact preserves_pure _
    | ok contents =>
      dsimp only
      split <;> exact preserves_pure _
  have read : Preserves (Sparing places disk) (Config.read environment config : Run _) := by
    unfold Config.read
    split
    · exact file _
    · refine (Machine.preserves_isThere _).bind fun there => ?_
      split
      · exact file _
      · exact preserves_pure _
    · exact preserves_pure _
  refine read.bind fun given => ?_
  cases given with
  | error fault => exact preserves_pure _
  | ok given =>
    dsimp only
    split <;> exact preserves_pure _

theorem preserves_inputs (environment : Environment) (config : Option RawText) (manifest : RawText)
    (previous : Option RawText) :
    Preserves (Sparing places disk) (inputs environment config manifest previous : Run _) := by
  refine (preserves_config environment config).bind fun settings => ?_
  cases settings with
  | error failure => exact preserves_pure _
  | ok settings =>
    have design : Preserves (Sparing places disk) (Manifest.load manifest : Run _) := by
      refine (Machine.preserves_readText manifest).bind fun contents => ?_
      cases contents with
      | error fault => exact preserves_pure _
      | ok contents =>
        dsimp only
        split <;> exact preserves_pure _
    refine design.bind fun design => ?_
    cases design with
    | error failure => exact preserves_pure _
    | ok design =>
      have record : Preserves (Sparing places disk) (Snapshot.loadFrom previous : Run _) := by
        cases previous with
        | none => exact preserves_pure _
        | some path =>
          refine (Machine.preserves_readText path).bind fun contents => ?_
          split
          · exact preserves_pure _
          · exact preserves_pure _
          · split <;> exact preserves_pure _
      refine record.bind fun record => ?_
      cases record <;> exact preserves_pure _

theorem preserves_ledger (path : RawText) :
    Preserves (Sparing places disk) (Ledger.load path : Run _) := by
  refine (Machine.preserves_readText path).bind fun contents => ?_
  split
  · split <;> exact preserves_pure _
  · exact preserves_pure _
  · exact preserves_pure _

theorem path_of_load {path : RawText} {machine : Machine} {ledger : Ledger}
    (loaded : ((Ledger.load path : Run _) machine).1 = .ok ledger) : ledger.path = some path := by
  rw [Ledger.load, Machine.run_bind] at loaded
  generalize (Host.readText path : Run _) machine = found at loaded
  obtain ⟨contents, later⟩ := found
  cases contents with
  | ok contents =>
    cases parsed : Ledger.parse contents with
    | none =>
      simp only [parsed] at loaded
      cases loaded
    | some entries =>
      simp only [parsed] at loaded
      rw [← Except.ok.inj loaded]
  | error fault =>
    cases fault with
    | notFound => rw [← Except.ok.inj loaded]
    | _ => cases loaded

end Reading

section Network

variable {places : List Place} {disk : Disk} {send : Store.Request → Run (Option Store.Reply)}
  (quiet : ∀ request, Preserves (Sparing places disk) (send request))

include quiet

theorem preserves_exchange (request : Except Failure Store.Request) :
    Preserves (Sparing places disk) (Store.exchange send request) := by
  cases request with
  | error failure => exact preserves_pure _
  | ok request =>
    refine (quiet request).bind fun reply => ?_
    cases reply <;> exact preserves_pure _

theorem preserves_uploader {environment : Environment} {config : UploadConfig}
    {uploader : Store.Uploader Run}
    (made : Store.Uploader.ofEnvironment environment config send = .ok uploader) :
    (∀ request, Preserves (Sparing places disk) (uploader.create request)) ∧
      ∀ operation, Preserves (Sparing places disk) (uploader.poll operation) := by
  rw [Store.Uploader.ofEnvironment] at made
  cases found : Store.Client.ofEnvironment environment config with
  | error failure =>
    rw [found] at made
    cases made
  | ok client =>
    rw [found] at made
    cases client with
    | none =>
      obtain rfl : Store.Uploader.disabled = uploader := Except.ok.inj made
      exact ⟨fun _ => preserves_pure _, fun _ => preserves_pure _⟩
    | some client =>
      obtain rfl : client.uploader send = uploader := Except.ok.inj made
      simp only [Store.Client.uploader]
      exact ⟨fun request => preserves_exchange quiet _, fun operation => preserves_exchange quiet _⟩

/-- Before the files are written a run works with the file of its ledger. -/
theorem preserves_compiled (environment : Environment) (config : Option RawText) (paths : CompilePaths)
    (listed : goal disk.here paths.cache ∈ places) (beside : goal disk.here (paths.cache ++ ".tmp") ∈ places) :
    Preserves (Sparing places disk) (compiled environment send config paths) := by
  refine (preserves_inputs environment config _ _).bind fun given => ?_
  cases given with
  | error failure => exact preserves_pure _
  | ok given =>
    obtain ⟨settings, manifest, previous⟩ := given
    refine (preserves_ledger paths.cache).bind_answer fun machine => ?_
    cases loaded : ((Ledger.load paths.cache : Run _) machine).1 with
    | error failure => exact preserves_pure _
    | ok ledger =>
      have file := path_of_load loaded
      dsimp only
      split
      · exact preserves_pure _
      · rename_i uploader made
        obtain ⟨creates, polls⟩ := preserves_uploader quiet made
        have sends (isFirst : Bool) (request : Store.UploadRequest) :
            Keeps (Booked paths.cache places disk)
              (liftM (Store.send uploader settings.upload isFirst request) :
                StateT Ledger Run (Except Failure String)) :=
          keeps_lift fun ledger machine held =>
            ⟨held.1, preserves_send Machine.preserves_pause polls creates isFirst request machine held.2⟩
        have kept := keeps_run sends (keeps_insert_booked listed beside) previous manifest
        intro machine sparing
        exact (kept (ledger, machine) _ (_, _) rfl ⟨file, sparing⟩).2

end Network

/-- The places that a run works at besides those of its model and its snapshot: the ledger, and the texts that
are on their way to their files. -/
def CompilePaths.scratchPlaces (paths : CompilePaths) (here : Place) : List Place :=
  goal here paths.cache ::
    (paths.cache :: (paths.output.toList ++ paths.record?.toList)).map fun path => goal here (path ++ ".tmp")

/-- The model of a run was written, and then its snapshot could not be: a fault of the files. -/
inductive SnapshotUnwritten (paths : CompilePaths) (before after : Disk) (compilation : Compilation Float) :
    Failure → Prop where
  | intro {output record : RawText} {fault : FileFault} (model : paths.output = some output)
      (snapshot : paths.record? = some record)
      (spares : Spares (goal before.here output :: paths.scratchPlaces before.here) before after)
      (written : goal before.here output ≠ goal before.here (record ++ ".tmp") →
        after.file? (goal before.here output) = some compilation.document) :
      SnapshotUnwritten paths before after compilation (.io fault)

/-- Both files of a run were written. -/
structure Saved (paths : CompilePaths) (before after : Disk) (compilation : Compilation Float) : Prop where
  spares : Spares ((paths.output.toList ++ paths.record?.toList).map (goal before.here) ++
    paths.scratchPlaces before.here) before after
  model : ∀ output, paths.output = some output →
    (∀ record, paths.record? = some record → goal before.here output ≠ goal before.here record ∧
      goal before.here output ≠ goal before.here (record ++ ".tmp")) →
    after.file? (goal before.here output) = some compilation.document
  snapshot : ∀ record, paths.record? = some record →
    after.file? (goal before.here record) = some compilation.snapshot.fileText

/-- Both files of a run were written, and then its report could not be given as data: it names a path that is
no text. -/
structure Unreported (paths : CompilePaths) (format : ReportFormat) (before after : Disk)
    (compilation : Compilation Float) (failure : Failure) : Prop where
  failure_eq : failure = .config .unwritablePath
  format_eq : format = .json
  illegible : ∃ path ∈ paths.manifest :: (paths.output.toList ++ paths.record?.toList), path.text? = none
  saved : Saved paths before after compilation

section Writing

variable {paths : CompilePaths} {compilation : Compilation Float} {failure : Failure}
  {machine after : Machine}

theorem writeTo_failed {text : String} {named : Option RawText}
    (failed : (writeTo text named : Run _) machine = (.error failure, after)) :
    ∃ path fault, named = some path ∧ failure = .io fault ∧
      (replaceFile path text : Run _) machine = (.error fault, after) := by
  cases named with
  | none => cases (Prod.mk.inj failed).1
  | some path =>
    rw [writeTo, Machine.run_bind] at failed
    generalize replaced : (replaceFile path text : Run _) machine = result at failed
    obtain ⟨answer, later⟩ := result
    obtain ⟨same, rfl⟩ := Prod.mk.inj failed
    cases answer with
    | ok => cases same
    | error fault => exact ⟨path, fault, rfl, (Except.error.inj same).symm, replaced⟩

theorem writeTo_done {text : String} {named : Option RawText}
    (done : (writeTo text named : Run _) machine = (.ok (), after)) :
    Spares (named.toList.flatMap fun path =>
          [goal machine.disk.here path, goal machine.disk.here (path ++ ".tmp")])
        machine.disk after.disk ∧
      ∀ path, named = some path → after.disk.file? (goal machine.disk.here path) = some text := by
  cases named with
  | none =>
    obtain ⟨_, rfl⟩ := Prod.mk.inj done
    exact ⟨.refl _ _, nofun⟩
  | some path =>
    rw [writeTo, Machine.run_bind] at done
    generalize replaced : (replaceFile path text : Run _) machine = result at done
    obtain ⟨answer, later⟩ := result
    obtain ⟨same, rfl⟩ := Prod.mk.inj done
    cases answer with
    | error fault => cases same
    | ok =>
      obtain ⟨spares, held⟩ := Machine.spares_of_replaced replaced
      refine ⟨spares, fun other same => ?_⟩
      rw [← Option.some.inj same]
      exact held

/-- Of the two files the model is written first, so it is there if the snapshot fails. -/
theorem writeAll_failed (failed : (writeAll paths compilation : Run _) machine = (.error failure, after)) :
    Spares (paths.scratchPlaces machine.disk.here) machine.disk after.disk ∨
      SnapshotUnwritten paths machine.disk after.disk compilation failure := by
  rw [writeAll, Machine.run_bind] at failed
  generalize first : (writeTo compilation.document paths.output : Run _) machine = result at failed
  obtain ⟨answer, between⟩ := result
  cases answer with
  | error other =>
    obtain ⟨_, rfl⟩ := Prod.mk.inj failed
    obtain ⟨output, fault, model, _, replaced⟩ := writeTo_failed first
    refine .inl ((Machine.spares_of_failed replaced).mono ?_)
    simp [CompilePaths.scratchPlaces, model]
  | ok =>
    obtain ⟨record, fault, snapshot, rfl, replaced⟩ := writeTo_failed failed
    have later := Machine.spares_of_failed replaced
    obtain ⟨earlier, held⟩ := writeTo_done first
    rw [earlier.here] at later
    cases model : paths.output with
    | none =>
      refine .inl (Spares.trans (earlier.mono ?_) (later.mono ?_))
      · simp [model]
      · simp [CompilePaths.scratchPlaces, CompilePaths.record?, snapshot]
    | some output =>
      refine .inr (.intro model snapshot ?_ fun apart => ?_)
      · refine (earlier.mono ?_).trans (later.mono ?_)
        · simp [CompilePaths.scratchPlaces, model]
        · simp [CompilePaths.scratchPlaces, CompilePaths.record?, snapshot]
      · rw [later.files _ (by simpa using apart), held output model]

theorem writeAll_done (done : (writeAll paths compilation : Run _) machine = (.ok (), after)) :
    Saved paths machine.disk after.disk compilation := by
  rw [writeAll, Machine.run_bind] at done
  generalize first : (writeTo compilation.document paths.output : Run _) machine = result at done
  obtain ⟨answer, between⟩ := result
  cases answer with
  | error other => cases (Prod.mk.inj done).1
  | ok =>
    obtain ⟨earlier, model⟩ := writeTo_done first
    obtain ⟨later, snapshot⟩ := writeTo_done done
    rw [earlier.here] at later snapshot
    refine ⟨(earlier.mono ?_).trans (later.mono ?_), fun output named apart => ?_, snapshot⟩
    · cases found : paths.output <;> simp [CompilePaths.scratchPlaces, found]
    · change (paths.record?.toList.flatMap _) ⊆ _
      cases found : paths.record? <;> simp [CompilePaths.scratchPlaces, found]
    · rw [later.files _ ?_, model output named]
      change _ ∉ paths.record?.toList.flatMap _
      cases found : paths.record? with
      | none => simp
      | some record => simpa using apart record found

theorem SnapshotUnwritten.after_spares {before between last : Disk}
    (earlier : Spares (paths.scratchPlaces before.here) before between)
    (unwritten : SnapshotUnwritten paths between last compilation failure) :
    SnapshotUnwritten paths before last compilation failure := by
  cases unwritten with
  | intro model snapshot spares written =>
    rw [earlier.here] at spares written
    exact .intro model snapshot ((earlier.mono (List.subset_cons_self _ _)).trans spares) written

theorem Saved.after_spares {before between last : Disk}
    (earlier : Spares (paths.scratchPlaces before.here) before between)
    (saved : Saved paths between last compilation) : Saved paths before last compilation := by
  obtain ⟨spares, model, snapshot⟩ := saved
  rw [earlier.here] at spares model snapshot
  exact ⟨(earlier.mono (List.subset_append_right _ _)).trans spares, model, snapshot⟩

section Compile

variable {environment : Environment} {send : Store.Request → Run (Option Store.Reply)}
  {config : Option RawText}
  (quiet : ∀ request machine, (send request machine).2.disk = machine.disk)

include quiet

theorem spares_compiled (environment : Environment) (config : Option RawText) (paths : CompilePaths)
    (machine : Machine) : Spares (paths.scratchPlaces machine.disk.here) machine.disk
      (compiled environment send config paths machine).2.disk := by
  have silent (request : Store.Request) :
      Preserves (Sparing (paths.scratchPlaces machine.disk.here) machine.disk) (send request) := by
    intro world sparing
    rw [Sparing, quiet]
    exact sparing
  exact preserves_compiled silent environment config paths (by simp [CompilePaths.scratchPlaces])
    (by simp [CompilePaths.scratchPlaces]) machine (.refl _ _)

theorem compile_failed
    (failed : compile environment send config paths machine = (.error failure, after)) :
    Spares (paths.scratchPlaces machine.disk.here) machine.disk after.disk ∨
      ∃ compilation, (compiled environment send config paths machine).1 = .ok compilation ∧
        SnapshotUnwritten paths machine.disk after.disk compilation failure := by
  have earlier := spares_compiled quiet environment config paths machine
  rw [compile_eq, Machine.run_bind] at failed
  generalize compiled environment send config paths machine = result at failed earlier
  obtain ⟨answer, between⟩ := result
  cases answer with
  | error other =>
    obtain ⟨_, rfl⟩ := Prod.mk.inj failed
    exact .inl earlier
  | ok compilation =>
    dsimp only at failed
    rw [Machine.run_bind] at failed
    generalize written : (writeAll paths compilation : Run _) between = result at failed
    obtain ⟨answer, later⟩ := result
    cases answer with
    | ok => cases (Prod.mk.inj failed).1
    | error other =>
      obtain ⟨same, rfl⟩ := Prod.mk.inj failed
      obtain rfl := Except.error.inj same
      rcases writeAll_failed written with spares | unwritten
      · rw [earlier.here] at spares
        exact .inl (Spares.trans earlier spares)
      · exact .inr ⟨compilation, rfl, unwritten.after_spares earlier⟩

theorem compile_done {report : Report}
    (done : compile environment send config paths machine = (.ok report, after)) :
    ∃ compilation, (compiled environment send config paths machine).1 = .ok compilation ∧
      report = compileReport paths compilation ∧ Saved paths machine.disk after.disk compilation := by
  have earlier := spares_compiled quiet environment config paths machine
  rw [compile_eq, Machine.run_bind] at done
  generalize compiled environment send config paths machine = result at done earlier
  obtain ⟨answer, between⟩ := result
  cases answer with
  | error other => cases (Prod.mk.inj done).1
  | ok compilation =>
    dsimp only at done
    rw [Machine.run_bind] at done
    generalize written : (writeAll paths compilation : Run _) between = result at done
    obtain ⟨answer, later⟩ := result
    cases answer with
    | error other => cases (Prod.mk.inj done).1
    | ok =>
      obtain ⟨same, rfl⟩ := Prod.mk.inj done
      exact ⟨compilation, rfl, (Except.ok.inj same).symm, (writeAll_done written).after_spares earlier⟩

end Compile

end Writing

/-- A run that is done ends with exit code 2 only if its report is asked for as data and is none. -/
theorem exitCode_outcome_ok {setup : Setup} {format : ReportFormat} {report : Report} :
    (outcome setup format (.ok report)).exitCode = 2 ↔ format = .json ∧ ¬ report.IsWritable := by
  rw [outcome]
  cases format with
  | json => by_cases writable : report.IsWritable <;> simp [render, Report.data?, writable, failed]
  | pretty => cases setup.atTerminal <;> simp [render]

/-- Words that are no command change nothing. A compiling run that ends with exit code 2 has touched no file but
that of the ledger and texts on their way; or it compiled and wrote its model, and then met a fault of the files
at its snapshot, so that the model is the one new file; or it wrote both files, and then could not report on
them. The files may fail at any operation, and the network may answer anything. -/
theorem run_failed (setup : Setup) (send : Store.Request → Run (Option Store.Reply))
    (quiet : ∀ request machine, (send request machine).2.disk = machine.disk) (words : List RawText)
    (machine : Machine) :
    (∀ usage, parse words = .error usage → (run setup send words machine).2 = machine) ∧
    ∀ invocation paths format, parse words = .ok invocation → invocation.command = .compile paths format →
      (run setup send words machine).1.exitCode = 2 →
        Spares (paths.scratchPlaces machine.disk.here) machine.disk (run setup send words machine).2.disk ∨
        ∃ compilation failure,
          (compiled setup.environment send invocation.config paths machine).1 = .ok compilation ∧
          (run setup send words machine).1 = outcome setup format (.error failure) ∧
          (SnapshotUnwritten paths machine.disk (run setup send words machine).2.disk compilation failure ∨
            Unreported paths format machine.disk (run setup send words machine).2.disk compilation
              failure) := by
  constructor
  · intro usage misread
    rw [run, misread]
    rfl
  · intro invocation paths format read command
    rw [run, read]
    simp only [execute, command, Command.format]
    rw [Machine.run_bind]
    generalize ended : compile setup.environment send invocation.config paths machine = result
    obtain ⟨answer, after⟩ := result
    intro code
    -- a run that is done can only fail at its report; one that is not has told where it stopped
    cases answer with
    | ok report =>
      obtain ⟨compilation, done, rfl, saved⟩ := compile_done quiet ended
      obtain ⟨rfl, illegible⟩ := exitCode_outcome_ok.mp code
      have nameless : ∃ path ∈ (compileReport paths compilation).paths, path.text? = none := by
        simpa [Report.IsWritable] using illegible
      refine .inr ⟨compilation, .config .unwritablePath, done, ?_, .inr ⟨rfl, rfl, nameless, saved⟩⟩
      change outcome setup .json (.ok _) = _
      simp [outcome, render, Report.data?, illegible]
    | error failure =>
      refine (compile_failed quiet ended).imp_right ?_
      rintro ⟨compilation, done, unwritten⟩
      exact ⟨compilation, failure, done, rfl, .inl unwritten⟩

/-! A snapshot that is to lie in a folder which is a file. -/

/-- A manifest with an empty frame. -/
def sheet : String :=
  "\x7b\"root\":\x7b\"type\":\"FRAME\",\"id\":\"0\",\"name\":\"r\",\"width\":1,\"height\":1\x7d\x7d"

/-- A machine with nothing but the manifest. -/
def desk : Machine := .ofDisk ⟨[], [(["m.json"], sheet)], []⟩

/-- The same machine with a model. -/
def modelled (document : String) : Machine :=
  .ofDisk ⟨[], [(["out.rbxmx"], document), (["m.json"], sheet)], [[]]⟩

def clash : CompilePaths :=
  ⟨"m.json", some "out.rbxmx", "figrbx-assets.json", none, some "m.json/next.json"⟩

def clashWords : List RawText :=
  ["compile", "--manifest", "m.json", "--output", "out.rbxmx", "--snapshot-out", "m.json/next.json"]

/-- Nothing is known of the environment, and nobody is watching. -/
def bare : Setup := ⟨⟨[]⟩, false⟩

/-- A network without replies. -/
def mute (_ : Store.Request) : Run (Option Store.Reply) := pure none

theorem planned_sheet : ∃ (manifest : Manifest Float) (planned : PlannedDesign Float),
    Manifest.parse sheet = some manifest ∧ PlannedDesign.of .default none manifest = .ok planned ∧
      planned.jobs = [] ∧ manifest.unresolved = [] := by
  have all : (Manifest.parse sheet).any (fun manifest : Manifest Float =>
      (PlannedDesign.of .default none manifest).toOption.any fun planned =>
        planned.jobs.isEmpty && manifest.unresolved.isEmpty) = true := by decide +kernel
  obtain ⟨manifest, parsed, all⟩ := (Option.any_eq_true ..).mp all
  obtain ⟨planned, plan, all⟩ := (Option.any_eq_true ..).mp all
  rw [Bool.and_eq_true, List.isEmpty_iff, List.isEmpty_iff] at all
  refine ⟨manifest, planned, parsed, ?_, all⟩
  cases result : PlannedDesign.of .default none manifest with
  | error failure =>
    rw [result] at plan
    cases plan
  | ok other =>
    rw [result] at plan
    rw [Option.some.inj plan]

theorem inputs_desk {manifest : Manifest Float} (parsed : Manifest.parse sheet = some manifest) :
    (inputs bare.environment none clash.manifest clash.previous : Run _) desk =
      (.ok (.default, manifest, none), desk) := by
  have config : (Config.load bare.environment none : Run _) desk = (.ok .default, desk) := rfl
  have read : (Host.readText clash.manifest : Run _) desk = (.ok sheet, desk) := rfl
  have design : (Manifest.load clash.manifest : Run _) desk = (.ok manifest, desk) := by
    rw [Manifest.load, Machine.run_bind, read]
    simp only [parsed]
    rfl
  rw [inputs, Machine.run_bind, config]
  dsimp only
  rw [Machine.run_bind, design]
  rfl

theorem compiled_desk : ∃ compilation,
    compiled bare.environment mute none clash desk = (.ok compilation, desk) := by
  obtain ⟨manifest, planned, parsed, plan, jobs, declared⟩ := planned_sheet
  have load : (Ledger.load clash.cache : Run _) desk = (.ok ⟨some clash.cache, []⟩, desk) := rfl
  have uploader : Store.Uploader.ofEnvironment bare.environment (Config.default : Config Float).upload mute =
    .ok .disabled := rfl
  obtain ⟨resolution, stages, _⟩ := Compilation.Stages.of_known (.disabled : Store.Uploader Run)
    (⟨some clash.cache, []⟩, desk) plan (Compilation.checkDeclared_eq_ok.mpr (by simp [declared]))
    (by simp [jobs])
  obtain ⟨compilation, _, _, ran, _⟩ := stages.compiled
  refine ⟨compilation, ?_⟩
  rw [compiled, Machine.run_bind, inputs_desk parsed]
  dsimp only
  rw [Machine.run_bind, load]
  dsimp only
  rw [uploader]
  exact congrArg (fun result => (result.1.1, result.2)) ran

/-- The model is written, and then there is no way to the snapshot. -/
theorem run_desk : ∃ compilation, compiled bare.environment mute none clash desk = (.ok compilation, desk) ∧
    run bare mute clashWords desk =
      (outcome bare .json (.error (.io .alreadyThere)), modelled compilation.document) := by
  obtain ⟨compilation, done⟩ := compiled_desk
  have model : (replaceFile "out.rbxmx" compilation.document : Run _) desk =
    (.ok (), modelled compilation.document) := rfl
  have snapshot (text : String) : (replaceFile "m.json/next.json" text : Run _)
    (modelled compilation.document) = (.error .alreadyThere, modelled compilation.document) := rfl
  have written : (writeAll clash compilation : Run _) desk =
      (.error (.io .alreadyThere), modelled compilation.document) := by
    have first : (writeTo compilation.document clash.output : Run _) desk =
        (.ok (), modelled compilation.document) := by
      rw [clash, writeTo, Machine.run_bind, model]
      rfl
    rw [writeAll, Machine.run_bind, first]
    dsimp only
    rw [clash, Option.some_or, writeTo, Machine.run_bind, snapshot]
    rfl
  have failed : compile bare.environment mute none clash desk =
      (.error (.io .alreadyThere), modelled compilation.document) := by
    rw [compile_eq, Machine.run_bind, done]
    dsimp only
    rw [Machine.run_bind, written]
    rfl
  have read : parse clashWords = .ok ⟨false, none, .compile clash .json⟩ := rfl
  refine ⟨compilation, done, ?_⟩
  rw [run, read]
  dsimp only [execute]
  rw [Machine.run_bind, failed]
  rfl

/-- Nothing was there, and after a run that failed there is a model. -/
theorem model_left : (run bare mute clashWords desk).1.exitCode = 2 ∧
    desk.disk.file? ["out.rbxmx"] = none ∧
    ((run bare mute clashWords desk).2.disk.file? ["out.rbxmx"]).isSome = true := by
  obtain ⟨compilation, _, ran⟩ := run_desk
  rw [ran]
  exact ⟨rfl, rfl, rfl⟩

/-- The model that is left is the one of the compilation. -/
theorem run_failed_desk : (run bare mute clashWords desk).1.exitCode = 2 ∧
    ∃ compilation failure, (compiled bare.environment mute none clash desk).1 = .ok compilation ∧
      (run bare mute clashWords desk).1 = outcome bare .json (.error failure) ∧
      SnapshotUnwritten clash desk.disk (run bare mute clashWords desk).2.disk compilation failure := by
  obtain ⟨compilation, done, ran⟩ := run_desk
  have code : (run bare mute clashWords desk).1.exitCode = 2 := by
    rw [ran]
    rfl
  refine ⟨code, ?_⟩
  rcases (run_failed bare mute (fun _ _ => rfl) clashWords desk).2 ⟨false, none, .compile clash .json⟩ clash
    .json rfl rfl code with spares | ⟨compilation, failure, done, same, unwritten | unreported⟩
  · have same := spares.files ["out.rbxmx"] (by decide)
    rw [ran] at same
    cases same
  · exact ⟨compilation, failure, done, same, unwritten⟩
  · obtain ⟨path, listed, illegible⟩ := unreported.illegible
    have plain : ∀ path ∈ ["m.json", "out.rbxmx", "m.json/next.json"], (RawText.text? path).isSome := by
      decide +kernel
    have legible := plain path listed
    rw [illegible] at legible
    cases legible

end CommandLine
end DesignCompiler
