import DesignCompiler.Proofs.CallTraces

/-!
What finding assets asks of the store and of the file of the ledger, in which order, and what it makes
of the answers.
-/
namespace DesignCompiler

variable {σ : Type}

/-- Making the folder that a file lies in. -/
inductive Foldering (path : RawText) : List Event → Except FileFault Unit → Prop where
  | needless : Foldering path [] (.ok ())
  | asked (folder : Path.parent? path = some name) :
      Foldering path [.foldersMade name answer] answer

/-- Replacing a file by way of another one beside it; the first fault ends it. -/
inductive Replacing (path : RawText) (text : String) : List Event → Except FileFault Unit → Prop where
  | unfoldered (folder : Foldering path events (.error fault)) :
      Replacing path text events (.error fault)
  | unwritten (folder : Foldering path events (.ok ())) :
      Replacing path text (events ++ [.written (path ++ ".tmp") text (.error fault)]) (.error fault)
  | renamed (folder : Foldering path events (.ok ())) :
      Replacing path text
        (events ++ [.written (path ++ ".tmp") text (.ok ()), .renamed (path ++ ".tmp") path answer])
        answer

section Files

variable [Host (StateM σ)]

theorem createParent_asks (path : RawText) (world : σ) : ∃ answer events after,
    Asks (createParent path) (createParent path) world answer events after ∧
      Foldering path events answer := by
  rw [createParent, createParent]
  split
  · exact ⟨_, _, _, asks_pure _ world, .needless⟩
  · exact ⟨_, _, _, asks_pure _ world, .needless⟩
  · rename_i folder _ found
    exact ⟨_, _, _, asks_ask _ _ world, .asked found⟩

theorem replaceFile_asks (path : RawText) (text : String) (world : σ) : ∃ answer events after,
    Asks (replaceFile path text) (replaceFile path text) world answer events after ∧
      Replacing path text events answer := by
  obtain ⟨made, folders, between, asked, folder⟩ := createParent_asks path world
  cases made with
  | error fault =>
    have replaced : Asks (replaceFile path text) (replaceFile path text) world (.error fault)
        (folders ++ []) between := asked.bind (asks_pure _ between)
    rw [List.append_nil] at replaced
    exact ⟨_, _, _, replaced, .unfoldered folder⟩
  | ok =>
    let write : StateM σ (Except FileFault Unit) := Host.writeText (path ++ ".tmp") text
    have wrote := asks_ask (fun answer => [.written (path ++ ".tmp") text answer]) write between
    generalize write between = outcome at wrote
    obtain ⟨answer, later⟩ := outcome
    cases answer with
    | error fault =>
      have ended : Asks (pure (.error fault)) (pure (.error fault)) later
          (.error fault : Except FileFault Unit) [] later := asks_pure _ later
      refine ⟨.error fault, _, later, ?_, .unwritten folder⟩
      exact asked.bind (wrote.bind ended)
    | ok =>
      let rename : StateM σ (Except FileFault Unit) := Host.rename (path ++ ".tmp") path
      have renamed := asks_ask (fun answer => [.renamed (path ++ ".tmp") path answer]) rename later
      generalize rename later = outcome at renamed
      refine ⟨outcome.1, _, outcome.2, ?_, .renamed folder⟩
      exact asked.bind (wrote.bind renamed)

end Files

namespace Store

/-- The polls of an operation, so many of which are left of a limit. Each asks about the operation of
the latest answer. -/
inductive Polling (limit : Nat) : Nat → String → List Event → Except Failure String → Prop where
  | spent : Polling limit 0 operation [] (.error (.pollTimeout operation limit))
  | failed {failure : Failure} :
      Polling limit (left + 1) operation [.polled operation (.error failure)] (.error failure)
  | complete :
      Polling limit (left + 1) operation [.polled operation (.ok (.complete asset))] (.ok asset)
  | pending (later : Polling limit left next events result) :
      Polling limit (left + 1) operation (.polled operation (.ok (.pending next)) :: events) result

/-- The upload of one picture. It is created once; unless it is complete at once, its operation is
polled. -/
inductive Uploading (limit : Nat) (request : UploadRequest) :
    List Event → Except Failure String → Prop where
  | failed {failure : Failure} :
      Uploading limit request [.created request (.error failure)] (.error failure)
  | complete : Uploading limit request [.created request (.ok (.complete asset))] (.ok asset)
  | pending (polls : Polling limit limit operation events result) :
      Uploading limit request (.created request (.ok (.pending operation)) :: events) result

/-- Writing a ledger to its file, if it has one. -/
inductive Saving (ledger : Ledger) : List Event → Except FileFault Unit → Prop where
  | needless (inMemory : ledger.path = none) : Saving ledger [] (.ok ())
  | replaced (file : ledger.path = some path)
      (replacing : Replacing path ledger.fileText events answer) : Saving ledger events answer

/-- The ledger with an entry more. -/
def Ledger.extended (ledger : Ledger) (hash : String) (entry : LedgerEntry) : Ledger :=
  { ledger with entries := insertSorted hash entry ledger.entries }

theorem get?_extended (ledger : Ledger) (hash : String) (entry : LedgerEntry) (other : String) :
    (ledger.extended hash entry).get? other =
      if other = hash then some entry else ledger.get? other :=
  lookup_insertSorted hash other entry ledger.entries

/-- Uploads one after the other: the ledger they start from, the pictures, the events, what comes of
them, and the ledger they leave. Each asset is entered and saved before the next picture is created,
and the first failure ends it all. -/
inductive Session (limit : Nat) : Ledger → List (UploadJob × Content) → List Event →
    Except Failure (List (String × String)) → Ledger → Prop where
  | done : Session limit ledger [] [] (.ok []) ledger
  | failed {failure : Failure}
      (upload : Uploading limit (requestFor job content) events (.error failure)) :
      Session limit ledger ((job, content) :: rest) events (.error failure) ledger
  | unsaved (upload : Uploading limit (requestFor job content) events (.ok asset))
      (saving : Saving (ledger.extended job.hash ⟨asset, time⟩) writes (.error fault)) :
      Session limit ledger ((job, content) :: rest) (events ++ writes) (.error (.io fault))
        (ledger.extended job.hash ⟨asset, time⟩)
  | stored (upload : Uploading limit (requestFor job content) events (.ok asset))
      (saving : Saving (ledger.extended job.hash ⟨asset, time⟩) writes (.ok ()))
      (later : Session limit (ledger.extended job.hash ⟨asset, time⟩) rest others result final) :
      Session limit ledger ((job, content) :: rest) (events ++ writes ++ others)
        (result.map ((job.hash, asset) :: ·)) final

section Runs

variable [Host (StateM σ)] (uploader : Uploader (StateM σ)) (config : UploadConfig)

theorem await_asks (left : Nat) (operation : String) (world : σ) : ∃ result events after,
    Asks (await uploader.watched config left operation) (await uploader config left operation) world
        result events after ∧
      Polling config.maxPollAttempts left operation events result := by
  induction left generalizing operation world with
  | zero => exact ⟨_, _, _, asks_pure _ world, .spent⟩
  | succ left ih =>
    have paused := asks_quietly (Host.pause config.pollInterval : StateM σ Unit) world
    generalize (Host.pause config.pollInterval : StateM σ Unit) world = quiet at paused
    have polled := asks_ask (fun answer => [.polled operation answer]) (uploader.poll operation) quiet.2
    generalize uploader.poll operation quiet.2 = outcome at polled
    obtain ⟨answer, later⟩ := outcome
    cases answer with
    | error failure =>
      have ended := asks_pure (.error failure : Except Failure String) later
      exact ⟨_, _, _, paused.bind (polled.bind ended), .failed⟩
    | ok status =>
      cases status with
      | complete asset =>
        have ended := asks_pure (.ok asset : Except Failure String) later
        exact ⟨_, _, _, paused.bind (polled.bind ended), .complete⟩
      | pending next =>
        obtain ⟨result, events, after, asked, polling⟩ := ih next later
        exact ⟨_, _, _, paused.bind (polled.bind asked), .pending polling⟩

theorem upload_asks (request : UploadRequest) (world : σ) : ∃ result events after,
    Asks (upload uploader.watched config request) (upload uploader config request) world result
        events after ∧
      Uploading config.maxPollAttempts request events result := by
  have created := asks_ask (fun answer => [.created request answer]) (uploader.create request) world
  generalize uploader.create request world = outcome at created
  obtain ⟨answer, later⟩ := outcome
  cases answer with
  | error failure =>
    have ended := asks_pure (.error failure : Except Failure String) later
    exact ⟨_, _, _, created.bind ended, .failed⟩
  | ok status =>
    cases status with
    | complete asset =>
      have ended := asks_pure (.ok asset : Except Failure String) later
      exact ⟨_, _, _, created.bind ended, .complete⟩
    | pending operation =>
      obtain ⟨result, events, after, asked, polling⟩ :=
        await_asks uploader config config.maxPollAttempts operation later
      exact ⟨_, _, _, created.bind asked, .pending polling⟩

theorem send_asks (isFirst : Bool) (request : UploadRequest) (world : σ) : ∃ result events after,
    Asks (send uploader.watched config isFirst request) (send uploader config isFirst request) world
        result events after ∧
      Uploading config.maxPollAttempts request events result := by
  rw [send, send]
  split
  · have paused := asks_quietly (Host.pause config.interUploadDelay : StateM σ Unit) world
    obtain ⟨result, events, after, asked, uploading⟩ := upload_asks uploader config request
      ((Host.pause config.interUploadDelay : StateM σ Unit) world).2
    exact ⟨_, _, _, paused.bind asked, uploading⟩
  · exact upload_asks uploader config request world

theorem persist_asks (ledger : Ledger) (world : σ) : ∃ answer events after,
    Asks (Ledger.persist ledger) (Ledger.persist ledger) world answer events after ∧
      Saving ledger events answer := by
  rw [Ledger.persist, Ledger.persist]
  cases file : ledger.path with
  | none => exact ⟨_, _, _, asks_pure _ world, .needless file⟩
  | some path =>
    obtain ⟨answer, events, after, asked, replacing⟩ := replaceFile_asks path ledger.fileText world
    exact ⟨answer, events, after, asked, .replaced file replacing⟩

/-- A hash that the ledger lacks is entered before the ledger is saved. -/
theorem insert_tells {ledger : Ledger} {hash : String} (fresh : ledger.get? hash = none)
    (asset : String) (world : σ) : ∃ time answer events after,
    Tells (Ledger.insert hash asset) (Ledger.insert hash asset) (ledger, world)
        (answer.mapError Failure.io |>.map fun _ => ⟨asset, time⟩) events
        (ledger.extended hash ⟨asset, time⟩, after) ∧
      Saving (ledger.extended hash ⟨asset, time⟩) events answer := by
  have clock := asks_quietly (Host.now : StateM σ Timestamp) world
  generalize (Host.now : StateM σ Timestamp) world = moment at clock
  obtain ⟨time, later⟩ := moment
  obtain ⟨answer, events, after, asked, saving⟩ :=
    persist_asks (ledger.extended hash ⟨asset, time⟩) later
  refine ⟨time, answer, events, after, ?_, saving⟩
  rw [Ledger.insert, Ledger.insert]
  refine (tells_get (ledger, world)).bind ?_
  simp only [fresh]
  refine (clock.tells ledger).bind ((tells_set _ _).bind ?_)
  cases answer with
  | error fault =>
    rw [← List.append_nil events]
    have ended : Tells (pure (.error (.io fault))) (pure (.error (.io fault)))
        (ledger.extended hash ⟨asset, time⟩, after) (.error (.io fault) : Except Failure LedgerEntry)
        [] (ledger.extended hash ⟨asset, time⟩, after) := tells_pure _ _
    exact (asked.tells _).bind ended
  | ok =>
    rw [← List.append_nil events]
    have ended : Tells (pure (.ok ⟨asset, time⟩)) (pure (.ok ⟨asset, time⟩))
        (ledger.extended hash ⟨asset, time⟩, after) (.ok ⟨asset, time⟩ : Except Failure LedgerEntry)
        [] (ledger.extended hash ⟨asset, time⟩, after) := tells_pure _ _
    exact (asked.tells _).bind ended

theorem uploadAll_tells (isFirst : Bool) {misses : List (UploadJob × Content)} {ledger : Ledger}
    (fresh : ∀ miss ∈ misses, ledger.get? miss.1.hash = none)
    (distinct : (misses.map (·.1.hash)).Nodup) (world : σ) : ∃ result events final after,
    Tells (uploadAll uploader.watched config isFirst misses) (uploadAll uploader config isFirst misses)
        (ledger, world) result events (final, after) ∧
      Session config.maxPollAttempts ledger misses events result final := by
  induction misses generalizing isFirst ledger world with
  | nil => exact ⟨_, _, _, _, tells_pure _ (ledger, world), .done⟩
  | cons miss rest ih =>
    obtain ⟨job, content⟩ := miss
    obtain ⟨here, missing⟩ := List.forall_mem_cons.mp fresh
    obtain ⟨unlisted, distinct⟩ := List.nodup_cons.mp distinct
    obtain ⟨sent, events, between, asked, uploading⟩ :=
      send_asks uploader config isFirst (requestFor job content) world
    rw [uploadAll, uploadAll]
    cases sent with
    | error failure =>
      refine ⟨.error failure, events ++ [], ledger, between, ?_, ?_⟩
      · exact (asked.tells ledger).bind (tells_pure _ _)
      · rw [List.append_nil]
        exact .failed uploading
    | ok asset =>
      obtain ⟨time, answer, writes, saved, inserted, saving⟩ := insert_tells here asset between
      cases answer with
      -- the picture is in the store by now; that the ledger was not saved ends the session
      | error fault =>
        refine ⟨.error (.io fault), events ++ (writes ++ []),
          ledger.extended job.hash ⟨asset, time⟩, saved, ?_, ?_⟩
        · exact (asked.tells ledger).bind (inserted.bind (tells_pure _ _))
        · rw [List.append_nil]
          exact .unsaved uploading saving
      | ok =>
        -- hashes differ, so the entry just made serves none of the rest
        have later : ∀ miss ∈ rest,
            (ledger.extended job.hash ⟨asset, time⟩).get? miss.1.hash = none := by
          intro miss member
          have other : miss.1.hash ≠ job.hash := fun same =>
            unlisted (List.mem_map.mpr ⟨miss, member, same⟩)
          rw [get?_extended, if_neg other, missing miss member]
        obtain ⟨result, others, final, after, told, session⟩ := ih false later distinct saved
        have stored := Session.stored uploading saving session
        cases result with
        | error failure =>
          refine ⟨.error failure, events ++ (writes ++ (others ++ [])), final, after, ?_, ?_⟩
          · exact (asked.tells ledger).bind (inserted.bind (told.bind (tells_pure _ _)))
          · rw [List.append_nil, ← List.append_assoc]
            exact stored
        | ok assets =>
          refine ⟨.ok ((job.hash, asset) :: assets), events ++ (writes ++ (others ++ [])), final, after,
            ?_, ?_⟩
          · exact (asked.tells ledger).bind (inserted.bind (told.bind (tells_pure _ _)))
          · rw [List.append_nil, ← List.append_assoc]
            exact stored

end Runs

end Store
end DesignCompiler
