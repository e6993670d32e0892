import DesignCompiler.Proofs.Compiling
import DesignCompiler.Proofs.LedgerFiles
import DesignCompiler.Proofs.Reuse
import DesignCompiler.Store.Script

/-!
The life of a ledger: runs of the compiler one after the other, with reloads in between. The exchange of
a hash is completed once at most, and its asset stays the same in all that follows.
-/
namespace DesignCompiler

open Store (Ledger Uploader Yields assetsOf)

variable {α τ : Type} [Scalar α]

/-- The next operation on files meets no fault. -/
def Machine.Calm (machine : Machine) : Prop := ∀ fault rest, machine.faults ≠ some fault :: rest

/-- A ledger that was just opened, in memory or from its file, and the machine then. -/
inductive Opened : Ledger × Machine → Prop where
  | memory : Opened (.inMemory, machine)
  | file {ledger : Ledger} {machine after : Machine} (calm : machine.Calm)
      (load : (Ledger.load path : Machine.Run _) machine = (.ok ledger, after)) : Opened (ledger, after)

/-- What may become of a ledger: runs with all their events, in which no file fails, loads of its file,
and whatever else happens to the machine and leaves this file alone. -/
inductive LedgerHistory (α : Type) [Scalar α] (start : Ledger × Machine) :
    List (List Event) → Ledger × Machine → Prop where
  | start : LedgerHistory α start [] start
  | run {τ : Type} {uploader : Uploader (StateM τ)} {config : Config α}
      {previous : Option (Snapshot α)} {manifest : Manifest α}
      {result : Except Failure (Compilation α)} {state later : τ} {machine after : Machine}
      (before : LedgerHistory α start runs (ledger, machine))
      (ran : Yields (Compilation.run config uploader.apart.watched previous manifest)
        (ledger, ⟨(state, machine), []⟩) result (final, ⟨(later, after), events⟩))
      (fine : ∀ event ∈ events, event.Fine) : LedgerHistory α start (runs ++ [events]) (final, after)
  | reload {again : Ledger} {machine after : Machine} (before : LedgerHistory α start runs (ledger, machine))
      (file : ledger.path = some path) (calm : machine.Calm)
      (load : (Ledger.load path : Machine.Run _) machine = (.ok again, after)) :
      LedgerHistory α start runs (again, after)
  | elsewhere (before : LedgerHistory α start runs (ledger, machine))
      (same : ∀ path, ledger.path = some path → after.disk.read path = machine.disk.read path) :
      LedgerHistory α start runs (ledger, after)

/-- A ledger in order that its file keeps up with. -/
def Sound (state : Ledger × Machine) : Prop := state.1.Ordered ∧ Faithful state.1 state.2.disk

section Loading

variable {disk : Disk} {path : RawText}

theorem loads_unique {entries others : List (String × Store.LedgerEntry)} (one : disk.Loads path entries)
    (other : disk.Loads path others) : entries = others := by
  rcases one with ⟨contents, read, parsed⟩ | ⟨read, rfl⟩ <;>
    rcases other with ⟨contents', read', parsed'⟩ | ⟨read', rfl⟩
  · obtain rfl := Except.ok.inj (read.symm.trans read')
    exact Option.some.inj (parsed.symm.trans parsed')
  · cases read.symm.trans read'
  · cases read.symm.trans read'
  · rfl

theorem readText_of_calm {machine : Machine} (calm : machine.Calm) (path : RawText) :
    (Host.readText path : Machine.Run _) machine =
      (machine.disk.read path, { machine with faults := machine.faults.drop 1 }) := by
  show Machine.operate (fun disk => (disk.read path, disk)) machine = _
  rw [Machine.operate]
  split
  · rename_i fault rest faults
    exact absurd faults (calm fault rest)
  · rfl

/-- A load that meets no fault finds what is on the disk, and leaves it there. -/
theorem load_eq_ok {machine after : Machine} {ledger : Ledger} (calm : machine.Calm)
    (load : (Ledger.load path : Machine.Run _) machine = (.ok ledger, after)) :
    ledger.path = some path ∧ machine.disk.Loads path ledger.entries ∧ after.disk = machine.disk := by
  rw [Ledger.load, Machine.run_bind, readText_of_calm calm] at load
  cases found : machine.disk.read path with
  | ok contents =>
    simp only [found] at load
    cases parsed : Ledger.parse contents with
    | none =>
      simp only [parsed] at load
      cases (Prod.mk.inj load).1
    | some entries =>
      simp only [parsed] at load
      obtain ⟨same, rest⟩ := Prod.mk.inj load
      obtain rfl := Except.ok.inj same
      exact ⟨rfl, .inl ⟨contents, found, parsed⟩, (congrArg Machine.disk rest).symm⟩
  | error fault =>
    rw [found] at load
    cases fault with
    | notFound =>
      obtain ⟨same, rest⟩ := Prod.mk.inj load
      obtain rfl := Except.ok.inj same
      exact ⟨rfl, .inr ⟨found, rfl⟩, (congrArg Machine.disk rest).symm⟩
    | _ => cases (Prod.mk.inj load).1

theorem sound_loaded {machine after : Machine} {ledger : Ledger} (calm : machine.Calm)
    (load : (Ledger.load path : Machine.Run _) machine = (.ok ledger, after)) :
    Sound (ledger, after) := by
  obtain ⟨file, loads, disk⟩ := load_eq_ok calm load
  constructor
  · rcases loads with ⟨_, _, parsed⟩ | ⟨_, nothing⟩
    · exact Store.ordered_parse parsed
    · rw [Ledger.Ordered, nothing]
      exact List.Pairwise.nil
  · intro other found entries again
    obtain rfl := Option.some.inj (file.symm.trans found)
    rw [disk] at again
    rw [loads_unique again loads]

end Loading

section Lives

theorem Opened.sound {state : Ledger × Machine} (opened : Opened state) : Sound state := by
  cases opened with
  | memory => exact ⟨List.Pairwise.nil, fun _ file => nomatch file⟩
  | file calm load => exact sound_loaded calm load

variable {start finish : Ledger × Machine} {runs : List (List Event)}

theorem LedgerHistory.sound (history : LedgerHistory α start runs finish) (sound : Sound start) :
    Sound finish := by
  induction history with
  | start => exact sound
  | run _ ran fine ih =>
    obtain ⟨ordered, faithful⟩ := ih
    obtain ⟨ordered, faithful⟩ := safe_run _ _ _ _ _ _ _ ran ⟨ordered, fun _ => faithful⟩
    exact ⟨ordered, faithful fine⟩
  | reload _ _ calm load => exact sound_loaded calm load
  | elsewhere _ same ih =>
    refine ⟨ih.1, fun path file entries loads => ih.2 path file entries ?_⟩
    rwa [Disk.Loads, same path file] at loads

/-- What a load finds in the life of a ledger is the ledger. -/
theorem asset?_reloaded {ledger again : Ledger} {machine after : Machine} {path : RawText}
    (sound : Sound (ledger, machine)) (file : ledger.path = some path) (calm : machine.Calm)
    (load : (Ledger.load path : Machine.Run _) machine = (.ok again, after)) (hash : String) :
    again.asset? hash = ledger.asset? hash := by
  obtain ⟨_, loads, _⟩ := load_eq_ok calm load
  rw [Store.asset?_eq_lookup, sound.2 path file _ loads, ← Store.asset?_eq_lookup]

/-- No asset of a ledger is changed or dropped. -/
theorem LedgerHistory.keeps (history : LedgerHistory α start runs finish) (sound : Sound start)
    {hash asset : String} (held : start.1.asset? hash = some asset) :
    finish.1.asset? hash = some asset := by
  induction history with
  | start => exact held
  | run _ ran _ ih => exact (Compilation.compiling_of_watched ran).keeps ih
  | reload before file calm load ih =>
    rw [asset?_reloaded (before.sound sound) file calm load]
    exact ih
  | elsewhere _ _ ih => exact ih

/-- The assets that the store gave in some runs. -/
def completionsOf (runs : List (List Event)) : List (String × String) := runs.flatMap (completions none)

theorem completionsOf_append (runs others : List (List Event)) :
    completionsOf (runs ++ others) = completionsOf runs ++ completionsOf others :=
  List.flatMap_append

theorem completionsOf_single (events : List Event) :
    completionsOf [events] = completions none events := by
  rw [completionsOf, List.flatMap_singleton]

theorem LedgerHistory.holds (history : LedgerHistory α start runs finish) (sound : Sound start) :
    ∀ entry ∈ completionsOf runs, finish.1.asset? entry.1 = some entry.2 := by
  induction history with
  | start => exact fun _ member => nomatch member
  | run _ ran _ ih =>
    have compiling := Compilation.compiling_of_watched ran
    intro entry member
    rw [completionsOf_append, completionsOf_single] at member
    rcases List.mem_append.mp member with old | new
    · exact compiling.keeps (ih entry old)
    · rw [compiling.assets, (lookup_eq_some_iff compiling.fresh.1).mpr new, Option.some_or]
  | reload before file calm load ih =>
    intro entry member
    rw [asset?_reloaded (before.sound sound) file calm load]
    exact ih entry member
  | elsewhere _ _ ih => exact ih

theorem LedgerHistory.nodup (history : LedgerHistory α start runs finish) (sound : Sound start) :
    ((completionsOf runs).map (·.1)).Nodup := by
  induction history with
  | start => exact List.nodup_nil
  | run before ran _ ih =>
    obtain ⟨distinct, fresh⟩ := (Compilation.compiling_of_watched ran).fresh
    rw [completionsOf_append, completionsOf_single, List.map_append, List.nodup_append]
    refine ⟨ih, distinct, ?_⟩
    intro hash old other new same
    subst same
    obtain ⟨entry, member, rfl⟩ := List.mem_map.mp old
    have held := before.holds sound entry member
    rw [fresh entry.1 new] at held
    cases held
  | reload _ _ _ _ ih => exact ih
  | elsewhere _ _ ih => exact ih

theorem LedgerHistory.trans {middle : Ledger × Machine} {others : List (List Event)}
    (early : LedgerHistory α start runs middle) (late : LedgerHistory α middle others finish) :
    LedgerHistory α start (runs ++ others) finish := by
  induction late with
  | start =>
    rw [List.append_nil]
    exact early
  | run _ ran fine ih =>
    rw [← List.append_assoc]
    exact ih.run ran fine
  | reload _ file calm load ih => exact ih.reload file calm load
  | elsewhere _ same ih => exact ih.elsewhere same

/-- In the life of a ledger the exchange of a hash is completed once at most, an asset that the ledger
holds is never changed or dropped, and it is the one that all later runs show wherever they do not
carry over another one from the run before. -/
theorem LedgerHistory.completed_once_and_kept {middle : Ledger × Machine} {others : List (List Event)}
    (opened : Opened start) (early : LedgerHistory α start runs middle)
    (late : LedgerHistory α middle others finish) :
    ((completionsOf (runs ++ others)).map (·.1)).Nodup ∧
      (∀ entry ∈ completionsOf runs, middle.1.asset? entry.1 = some entry.2) ∧
      (∀ hash asset, middle.1.asset? hash = some asset → finish.1.asset? hash = some asset) ∧
      ∀ (τ : Type) (uploader : Uploader (StateM τ)) (config : Config α)
        (previous : Option (Snapshot α)) (manifest : Manifest α) (state : τ)
        (compilation : Compilation α) (after : Ledger × τ × Machine),
        Yields (Compilation.run config uploader.apart previous manifest) (finish.1, (state, finish.2))
          (.ok compilation) after →
        ∃ (planned : PlannedDesign α) (arena : Arena α),
          PlannedDesign.of config previous manifest = .ok planned ∧
          compilation.document = arena.document ∧
          ∀ node ∈ Plan.emitted (Diff.applyReuse planned.diff.reuse planned.root).1,
            ∀ wanted ∈ Plan.wantedPictures node, wanted.picture.asset = none →
              ∀ asset, middle.1.asset? wanted.picture.hash = some asset → manifest.Unplanned →
                Plan.WantedPicture.showing ⟨⟨wanted.picture.hash, some asset⟩, wanted.name⟩ ∈
                  arena.showings := by
  have sound := opened.sound
  have kept : ∀ hash asset, middle.1.asset? hash = some asset → finish.1.asset? hash = some asset :=
    fun hash asset held => late.keeps (early.sound sound) held
  refine ⟨(early.trans late).nodup sound, early.holds sound, kept, ?_⟩
  intro τ uploader config previous manifest state compilation after done
  obtain ⟨planned, arena, plan, document, grows, shows⟩ := Compilation.shows_held done
  refine ⟨planned, arena, plan, document, ?_⟩
  intro node live wanted member unfilled asset held fresh
  obtain ⟨found, final, shown⟩ := shows node live wanted member unfilled
  have still := grows.asset (kept _ asset held)
  obtain rfl : asset = found := Option.some.inj (still.symm.trans final)
  exact shown fresh

end Lives

section Garden

open Compilation (bloom bouquet Stages)

/-- Two pictures that come with their design. -/
def garden : Manifest Rat :=
  { bouquet (.container (Layer.plain "0" "garden" ⟨0, 0, 100, 100⟩) ⟨.frame, none, false⟩
      [bloom "1" "rose", bloom "2" "iris"]) with
    rawContent := [("rose", "R0lGODlh"), ("iris", "R0lGODlh")] }

/-- The shortest picture that can be stored. -/
def gif : Store.Content := ⟨"GIF89a".toUTF8.toList, "image/gif", "gif"⟩

def roseJob : UploadJob := ⟨"rose", "1", (bloom "1" "rose").layer.name⟩

def irisJob : UploadJob := ⟨"iris", "2", (bloom "2" "iris").layer.name⟩

/-- What a run leaves that is cut short after the rose. -/
def planted : Ledger := ⟨none, [("rose", ⟨"7", ⟨0, 0⟩⟩)]⟩

def scripted : Uploader (StateM Store.Script) := Store.Script.uploader true

/-- A script under which the second picture fails. -/
def cutShort : Store.Script := ⟨[.ok (.complete "7"), .error .network], [], []⟩

/-- A script under which a picture takes two polls. -/
def patient : Store.Script := ⟨[.ok (.pending "1")], [.ok (.pending "2"), .ok (.complete "8")], []⟩

theorem fine_of_fileless {events : List Event} (fileless : events.filterMap Event.file? = []) :
    ∀ event ∈ events, event.Fine := by
  intro event member fault failed
  rw [List.filterMap_eq_nil_iff] at fileless
  rw [fileless event member] at failed
  cases failed

private theorem garden_planned : ∃ planned screen rose iris,
    PlannedDesign.of plain none garden = .ok planned ∧ planned.jobs = [roseJob, irisJob] ∧
    Plan.emitted (Diff.applyReuse planned.diff.reuse planned.root).1 = [screen, rose, iris] ∧
    Plan.wantedPictures rose = [⟨⟨"rose", none⟩, (bloom "1" "rose").layer.name⟩] :=
  ⟨_, _, _, _, rfl, rfl, rfl, rfl⟩

/-- The first run stores the rose and fails at the iris. -/
private theorem garden_cut_short {planned : PlannedDesign Rat}
    (plan : PlannedDesign.of plain none garden = .ok planned) (jobs : planned.jobs = [roseJob, irisJob]) :
    ∃ events later machine,
      Yields (Compilation.run plain scripted.apart.watched none garden)
        (.inMemory, ⟨(cutShort, Machine.ofDisk .empty), []⟩) (.error .network)
        (planted, ⟨(later, machine), events⟩) ∧
      (∀ event ∈ events, event.Fine) ∧ completions none events = [("rose", "7")] := by
  have sorted : Store.Triage.of .inMemory garden.rawContent (Plan.firstOfEach [roseJob, irisJob]) =
      .ok ⟨[], [(roseJob, gif), (irisJob, gif)]⟩ := by decide +kernel
  obtain ⟨events, later, machine, sent, fileless, completed⟩ : ∃ events later machine,
      Yields (Store.uploadAll scripted.apart.watched plain.upload true [(roseJob, gif), (irisJob, gif)])
        (.inMemory, ⟨(cutShort, Machine.ofDisk .empty), []⟩) (.error .network)
        (planted, ⟨(later, machine), events⟩) ∧
      events.filterMap Event.file? = [] ∧ completions none events = [("rose", "7")] :=
    ⟨_, _, _, rfl, rfl, rfl⟩
  refine ⟨events, later, machine, ?_, fine_of_fileless fileless, completed⟩
  rw [Compilation.run_planned _ plan, jobs]
  refine Store.yields_bind.mpr ⟨_, _, Store.yields_get.mpr ⟨rfl, rfl⟩, ?_⟩
  refine Store.yields_bind.mpr ⟨.error .network, _, ?_, Store.yields_pure.mpr ⟨rfl, rfl⟩⟩
  refine Store.yields_bind.mpr ⟨_, _, Store.yields_get.mpr ⟨rfl, rfl⟩, ?_⟩
  rw [sorted]
  exact Store.yields_bind.mpr ⟨_, _, sent, Store.yields_pure.mpr ⟨rfl, rfl⟩⟩

private theorem garden_finished {planned : PlannedDesign Rat}
    (plan : PlannedDesign.of plain none garden = .ok planned) (jobs : planned.jobs = [roseJob, irisJob])
    (machine : Machine) : ∃ compilation events later final after,
      Yields (Compilation.run plain scripted.apart.watched none garden)
        (planted, ⟨(patient, machine), []⟩) (.ok compilation) (final, ⟨(later, after), events⟩) ∧
      (∀ event ∈ events, event.Fine) ∧ completions none events = [("iris", "8")] := by
  have sorted : Store.Triage.of planted garden.rawContent (Plan.firstOfEach [roseJob, irisJob]) =
      .ok ⟨[("rose", "7")], [(irisJob, gif)]⟩ := by decide +kernel
  obtain ⟨events, later, final, after, sent, fileless, completed⟩ : ∃ events later final after,
      Yields (Store.uploadAll scripted.apart.watched plain.upload true [(irisJob, gif)])
        (planted, ⟨(patient, machine), []⟩) (.ok [("iris", "8")]) (final, ⟨(later, after), events⟩) ∧
      events.filterMap Event.file? = [] ∧ completions none events = [("iris", "8")] :=
    ⟨_, _, _, _, rfl, rfl, rfl⟩
  have assets : Yields (Store.resolveAll planned.jobs garden.rawContent scripted.apart.watched
      plain.upload) (planted, ⟨(patient, machine), []⟩)
      (.ok ⟨[("rose", "7"), ("iris", "8")], ["iris"], 1⟩) (final, ⟨(later, after), events⟩) := by
    rw [jobs]
    refine Store.yields_bind.mpr ⟨_, _, Store.yields_get.mpr ⟨rfl, rfl⟩, ?_⟩
    rw [sorted]
    exact Store.yields_bind.mpr ⟨_, _, sent, Store.yields_pure.mpr ⟨rfl, rfl⟩⟩
  have stages : Stages plain scripted.apart.watched none garden _ _ planned _ := ⟨plan, rfl, assets⟩
  obtain ⟨compilation, _, _, done, _⟩ := stages.compiled
  exact ⟨compilation, events, later, final, after, done, fine_of_fileless fileless, completed⟩

/-- A run that was cut short and the next one upload each flower once, and a third run shows what they
got. -/
theorem garden_completed_once : ∃ (middle finish : Ledger × Machine) (first second : List Event)
    (compilation : Compilation Rat) (arena : Arena Rat) (name : String),
    LedgerHistory Rat (.inMemory, Machine.ofDisk .empty) [first] middle ∧
    LedgerHistory Rat middle [second] finish ∧
    completionsOf [first, second] = [("rose", "7"), ("iris", "8")] ∧
    middle.1.asset? "rose" = some "7" ∧ finish.1.asset? "rose" = some "7" ∧
    compilation.document = arena.document ∧
    Plan.WantedPicture.showing ⟨⟨"rose", some "7"⟩, name⟩ ∈ arena.showings := by
  obtain ⟨planned, screen, rose, iris, plan, jobs, emitted, wantedPictures⟩ := garden_planned
  obtain ⟨first, _, machine, ranFirst, fineFirst, gaveFirst⟩ := garden_cut_short plan jobs
  obtain ⟨_, second, _, final, after, ranSecond, fineSecond, gaveSecond⟩ :=
    garden_finished plan jobs machine
  have early : LedgerHistory Rat (.inMemory, Machine.ofDisk .empty) [first] (planted, machine) :=
    LedgerHistory.start.run ranFirst fineFirst
  have late : LedgerHistory Rat (planted, machine) [second] (final, after) :=
    LedgerHistory.start.run ranSecond fineSecond
  obtain ⟨_, _, kept, shows⟩ := LedgerHistory.completed_once_and_kept .memory early late
  have gave : completionsOf [first, second] = [("rose", "7"), ("iris", "8")] := by
    simp [completionsOf, gaveFirst, gaveSecond]
  have holds := (early.trans late).holds Opened.memory.sound
  have held : ∀ job ∈ planned.jobs, (final.asset? job.hash).isSome = true := by
    intro job member
    rw [jobs] at member
    rcases List.mem_pair.mp member with rfl | rfl
    · rw [show roseJob.hash = "rose" from rfl, holds ("rose", "7") (gave ▸ List.mem_cons_self)]
      rfl
    · rw [show irisJob.hash = "iris" from rfl,
        holds ("iris", "8") (gave ▸ List.mem_cons_of_mem _ List.mem_cons_self)]
      rfl
  -- the third run has no store to ask, so what it shows was kept
  let offline : Uploader (StateM Unit) := .disabled
  obtain ⟨_, stages, _⟩ := Stages.of_known offline.apart (final, ((), after)) plan rfl held
  obtain ⟨compilation, _, _, done, _⟩ := stages.compiled
  obtain ⟨planned', arena, plan', document, shown⟩ := shows Unit offline plain none garden () _ _ done
  obtain rfl : planned = planned' := Except.ok.inj (plan.symm.trans plan')
  have fresh : garden.Unplanned := by
    rintro _ ⟨⟩
    simp [Plan.Blank, Plan.emitted, Plan.emittedAll, Node.isLive, Layer.isLive, Plan.pictures, Node.layer,
      Layer.plain, Annotations.none, bloom]
  refine ⟨(planted, machine), (final, after), first, second, compilation, arena,
    (bloom "1" "rose").layer.name, early, late, gave, rfl,
    kept "rose" "7" rfl, document, ?_⟩
  exact shown rose (by simp [emitted]) ⟨⟨"rose", none⟩, (bloom "1" "rose").layer.name⟩
    (by simp [wantedPictures]) rfl "7" rfl fresh

end Garden

end DesignCompiler
