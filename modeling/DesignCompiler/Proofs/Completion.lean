import DesignCompiler.Proofs.Protocol

/-!
What the events of uploads amount to: the pictures created, the exchanges that were completed, and the
ledger that follows from them.
-/
namespace DesignCompiler

/-- The picture that an event starts the upload of. -/
def Event.request? : Event → Option Store.UploadRequest
  | .created request _ => some request
  | _ => none

/-- What the machine said if an event is about a file. -/
def Event.file? : Event → Option (Except FileFault Unit)
  | .foldersMade _ answer | .written _ _ answer | .renamed _ _ answer => some answer
  | _ => none

/-- The assets that the store gave, by hash. An answer to a poll is about the picture created last. -/
def completions : Option String → List Event → List (String × String)
  | _, [] => []
  | _, .created request (.ok (.complete asset)) :: rest =>
    (request.hash, asset) :: completions (some request.hash) rest
  | _, .created request _ :: rest => completions (some request.hash) rest
  | some hash, .polled _ (.ok (.complete asset)) :: rest =>
    (hash, asset) :: completions (some hash) rest
  | current, _ :: rest => completions current rest

theorem map_eq_ok {β γ ε : Type} {result : Except ε β} {change : β → γ} {changed : γ} :
    result.map change = .ok changed ↔ ∃ value, result = .ok value ∧ change value = changed := by
  cases result <;> simp [Except.map]

theorem map_eq_error {β γ ε : Type} {result : Except ε β} {change : β → γ} {fault : ε} :
    result.map change = .error fault ↔ result = .error fault := by
  cases result <;> simp [Except.map]

/-- Events about files complete nothing. -/
theorem completions_files {files : List Event} (about : ∀ event ∈ files, event.file?.isSome = true)
    (current : Option String) (rest : List Event) :
    completions current (files ++ rest) = completions current rest := by
  induction files with
  | nil => rfl
  | cons event others ih =>
    obtain ⟨own, about⟩ := List.forall_mem_cons.mp about
    rw [List.cons_append, ← ih about]
    cases event with
    | foldersMade | written | renamed => simp [completions]
    | created | polled => simp [Event.file?] at own

theorem requests_files {files : List Event} (about : ∀ event ∈ files, event.file?.isSome = true) :
    files.filterMap Event.request? = [] := by
  rw [List.filterMap_eq_nil_iff]
  intro event member
  cases event with
  | foldersMade | written | renamed => rfl
  | created | polled => simpa [Event.file?] using about _ member

section Files

variable {path : RawText} {text : String} {events : List Event} {answer : Except FileFault Unit}
  {fault : FileFault}

theorem Foldering.about (folder : Foldering path events answer) :
    ∀ event ∈ events, event.file? = some answer := by
  cases folder with
  | needless => simp
  | asked => simp [Event.file?]

theorem Foldering.failing (folder : Foldering path events (.error fault)) :
    ∃ event ∈ events, event.file? = some (.error fault) := by
  cases folder with
  | asked => exact ⟨_, List.mem_singleton_self _, rfl⟩

theorem Replacing.about (replacing : Replacing path text events answer) :
    ∀ event ∈ events, event.file? = some answer ∨ event.file? = some (.ok ()) := by
  intro event member
  cases replacing with
  | unfoldered folder => exact .inl (folder.about event member)
  | unwritten folder =>
    rcases List.mem_append.mp member with made | wrote
    · exact .inr (folder.about event made)
    · obtain rfl := List.mem_singleton.mp wrote
      exact .inl rfl
  | renamed folder =>
    rcases List.mem_append.mp member with made | last
    · exact .inr (folder.about event made)
    · rcases List.mem_pair.mp last with rfl | rfl
      · exact .inr rfl
      · exact .inl rfl

theorem Replacing.failing (replacing : Replacing path text events (.error fault)) :
    ∃ event ∈ events, event.file? = some (.error fault) := by
  cases replacing with
  | unfoldered folder => exact folder.failing
  | unwritten => exact ⟨_, List.mem_append_right _ (List.mem_singleton_self _), rfl⟩
  | renamed => exact ⟨_, List.mem_append_right _ (List.mem_pair.mpr (.inr rfl)), rfl⟩

end Files

namespace Store

section Files

variable {ledger : Ledger} {writes : List Event} {answer : Except FileFault Unit} {fault : FileFault}

theorem Saving.about (saving : Saving ledger writes answer) :
    ∀ event ∈ writes, event.file?.isSome = true := by
  intro event member
  cases saving with
  | needless => simp at member
  | replaced _ replacing =>
    rcases replacing.about event member with own | good
    · rw [own, Option.isSome_some]
    · rw [good, Option.isSome_some]

/-- A ledger that cannot be saved is one whose file failed. -/
theorem Saving.failing (saving : Saving ledger writes (.error fault)) :
    ∃ event ∈ writes, event.file? = some (.error fault) := by
  cases saving with
  | replaced _ replacing => exact replacing.failing

end Files

section Uploads

variable {limit left : Nat} {operation : String} {request : UploadRequest} {events : List Event}
  {result : Except Failure String}

theorem Polling.requests (polls : Polling limit left operation events result) :
    events.filterMap Event.request? = [] := by
  induction polls with
  | spent | failed | complete => rfl
  | pending _ ih => exact ih

/-- Polls complete the picture created last, if they come to an asset. -/
theorem Polling.completions (polls : Polling limit left operation events result) (hash : String)
    (rest : List Event) :
    completions (some hash) (events ++ rest) =
      (result.toOption.map (hash, ·)).toList ++ completions (some hash) rest := by
  induction polls with
  | spent => rfl
  | failed | complete => simp [DesignCompiler.completions, Except.toOption]
  | pending _ ih => simpa [DesignCompiler.completions] using ih

/-- The upload of a picture creates that picture and no other one. -/
theorem Uploading.requests (upload : Uploading limit request events result) :
    events.filterMap Event.request? = [request] := by
  cases upload with
  | failed | complete => rfl
  | pending polls =>
    show request :: _ = [request]
    rw [polls.requests]

theorem Uploading.completions (upload : Uploading limit request events result)
    (current : Option String) (rest : List Event) :
    completions current (events ++ rest) =
      (result.toOption.map (request.hash, ·)).toList ++ completions (some request.hash) rest := by
  cases upload with
  | failed | complete => simp [DesignCompiler.completions, Except.toOption]
  | pending polls =>
    rw [List.cons_append, ← polls.completions]
    simp [DesignCompiler.completions]

/-- An upload that fails completes nothing. -/
theorem Uploading.completes_nothing {failure : Failure}
    (upload : Uploading limit request events (.error failure)) (current : Option String) :
    DesignCompiler.completions current events = [] := by
  have alone := upload.completions current []
  rwa [List.append_nil] at alone

/-- An upload whose asset is saved completes its picture before anything else. -/
theorem Uploading.completes_first {ledger : Ledger} {asset : String} {writes : List Event}
    {answer : Except FileFault Unit} (upload : Uploading limit request events (.ok asset))
    (saving : Saving ledger writes answer) (current : Option String) (rest : List Event) :
    DesignCompiler.completions current (events ++ writes ++ rest) =
      (request.hash, asset) :: DesignCompiler.completions (some request.hash) rest := by
  rw [List.append_assoc, upload.completions, completions_files saving.about]
  rfl

end Uploads

theorem hash_requestFor (job : UploadJob) (content : Content) :
    (requestFor job content).hash = job.hash := rfl

section Sessions

variable {limit : Nat} {ledger final : Ledger} {misses : List (UploadJob × Content)}
  {events : List Event} {result : Except Failure (List (String × String))}

theorem asset?_extended (ledger : Ledger) (hash asset : String) (time : Timestamp) (other : String) :
    (ledger.extended hash ⟨asset, time⟩).asset? other =
      if other = hash then some asset else ledger.asset? other := by
  rw [Ledger.asset?, get?_extended]
  split <;> rfl

theorem Ledger.grows_extended {ledger : Ledger} {hash : String} (fresh : ledger.get? hash = none)
    (entry : LedgerEntry) : ledger.Grows (ledger.extended hash entry) := by
  intro other old found
  have different : other ≠ hash := by
    rintro rfl
    simp [fresh] at found
  rw [get?_extended, if_neg different, found]

/-- Pictures are created in order, each at most once. -/
theorem Session.requests (session : Session limit ledger misses events result final) :
    events.filterMap Event.request? <+: misses.map fun miss => requestFor miss.1 miss.2 := by
  induction session with
  | done => exact List.prefix_rfl
  | failed upload =>
    rw [upload.requests]
    exact List.prefix_append [_] _
  | unsaved upload saving =>
    rw [List.filterMap_append, upload.requests, requests_files saving.about]
    exact List.prefix_append [_] _
  | stored upload saving _ ih =>
    rw [List.filterMap_append, List.filterMap_append, upload.requests, requests_files saving.about]
    exact (List.prefix_append_right_inj [_]).mpr ih

theorem Session.hashes (session : Session limit ledger misses events result final)
    (current : Option String) :
    (completions current events).map (·.1) <+: misses.map (·.1.hash) := by
  induction session generalizing current with
  | done => exact List.prefix_rfl
  | failed upload =>
    rw [upload.completes_nothing]
    exact List.nil_prefix
  | unsaved upload saving =>
    have one := upload.completes_first saving current []
    rw [List.append_nil] at one
    rw [one]
    exact List.prefix_append [_] _
  | stored upload saving _ ih =>
    rw [upload.completes_first saving]
    exact (List.prefix_append_right_inj [_]).mpr (ih _)

/-- A session that succeeds has completed them all. -/
theorem Session.stores (session : Session limit ledger misses events result final)
    (current : Option String) {stored : List (String × String)} (done : result = .ok stored) :
    completions current events = stored ∧ stored.map (·.1) = misses.map (·.1.hash) := by
  induction session generalizing current stored with
  | done =>
    obtain rfl := Except.ok.inj done
    exact ⟨rfl, rfl⟩
  | failed | unsaved => cases done
  | stored upload saving _ ih =>
    obtain ⟨others, later, rfl⟩ := map_eq_ok.mp done
    obtain ⟨completed, hashes⟩ := ih _ later
    rw [upload.completes_first saving, completed, List.map_cons, List.map_cons, hashes]
    exact ⟨rfl, rfl⟩

/-- No exchange is completed of a picture that was not to be uploaded. -/
theorem Session.lookup_unlisted (session : Session limit ledger misses events result final)
    (current : Option String) {hash : String} (unlisted : hash ∉ misses.map (·.1.hash)) :
    (completions current events).lookup hash = none := by
  rw [← Option.not_isSome_iff_eq_none, isSome_lookup]
  exact fun completed => unlisted ((session.hashes current).subset completed)

/-- The ledger ends up with the assets of the completed exchanges besides those it had. -/
theorem Session.assets (session : Session limit ledger misses events result final)
    (distinct : (misses.map (·.1.hash)).Nodup) (current : Option String) (hash : String) :
    final.asset? hash = ((completions current events).lookup hash).or (ledger.asset? hash) := by
  induction session generalizing current with
  | done => rfl
  | failed upload =>
    rw [upload.completes_nothing]
    rfl
  | unsaved upload saving =>
    have one := upload.completes_first saving current []
    rw [List.append_nil] at one
    rw [one, asset?_extended, lookup_cons_eq, hash_requestFor]
    split <;> rfl
  | stored upload saving later ih =>
    obtain ⟨unlisted, distinct⟩ := List.nodup_cons.mp distinct
    rw [upload.completes_first saving, ih distinct, asset?_extended, lookup_cons_eq, hash_requestFor]
    split
    case isFalse => rfl
    case isTrue own =>
      subst own
      rw [later.lookup_unlisted _ unlisted]
      rfl

/-- What a ledger holds stays, whatever becomes of the uploads. -/
theorem Session.grows (session : Session limit ledger misses events result final)
    (fresh : ∀ miss ∈ misses, ledger.get? miss.1.hash = none)
    (distinct : (misses.map (·.1.hash)).Nodup) : ledger.Grows final := by
  induction session with
  | done => exact .refl _
  | failed => exact .refl _
  | unsaved => exact Ledger.grows_extended (fresh _ List.mem_cons_self) _
  | stored upload saving later ih =>
    obtain ⟨here, missing⟩ := List.forall_mem_cons.mp fresh
    obtain ⟨unlisted, distinct⟩ := List.nodup_cons.mp distinct
    refine (Ledger.grows_extended here _).trans (ih ?_ distinct)
    intro miss member
    have other : miss.1.hash ≠ _ := fun same => unlisted (List.mem_map.mpr ⟨miss, member, same⟩)
    rw [get?_extended, if_neg other, missing miss member]

end Sessions

end Store
end DesignCompiler
