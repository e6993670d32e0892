import DesignCompiler.Proofs.Completion
import Mathlib.Data.List.Induction

/-!
Finding assets as a protocol: which hashes are wanted, what stops a run before its first call, and how
the uploads go that it comes to.
-/
namespace DesignCompiler

namespace Plan

theorem firstOfEach_append (jobs : List UploadJob) (job : UploadJob) :
    firstOfEach (jobs ++ [job]) =
      if job.hash ∈ jobs.map (·.hash) then firstOfEach jobs else firstOfEach jobs ++ [job] := by
  have held : (firstOfEach jobs).any (·.hash == job.hash) = true ↔ job.hash ∈ jobs.map (·.hash) := by
    rw [← mem_hashes_firstOfEach]
    simp
  rw [firstOfEach, List.foldl_append]
  exact if_congr held rfl rfl

theorem hashes_firstOfEach (jobs : List UploadJob) :
    (firstOfEach jobs).map (·.hash) = (jobs.map (·.hash)).eraseDups := by
  induction jobs using List.reverseRecOn with
  | nil => rfl
  | append_singleton jobs job ih =>
    have fresh : [job.hash].removeAll (jobs.map (·.hash)) =
        if job.hash ∈ jobs.map (·.hash) then [] else [job.hash] := by
      rw [List.removeAll, List.filter_singleton]
      simp
    rw [firstOfEach_append, List.map_append, List.map_singleton, List.eraseDups_append, fresh, ← ih]
    split
    · rw [List.eraseDups_nil, List.append_nil]
    · rw [List.map_append, List.map_singleton, List.eraseDups_cons]
      rfl

/-- What is kept for a hash is its first job. -/
theorem find?_of_mem_firstOfEach {jobs : List UploadJob} {job : UploadJob}
    (kept : job ∈ firstOfEach jobs) : jobs.find? (·.hash == job.hash) = some job := by
  induction jobs using List.reverseRecOn with
  | nil => simp [firstOfEach] at kept
  | append_singleton jobs last ih =>
    rw [firstOfEach_append] at kept
    rw [List.find?_append]
    split at kept
    · rw [ih kept, Option.some_or]
    · rename_i fresh
      rcases List.mem_append.mp kept with old | new
      · rw [ih old, Option.some_or]
      · obtain rfl := List.mem_singleton.mp new
        have unseen : jobs.find? (·.hash == job.hash) = none := by
          rw [List.find?_eq_none]
          intro other member same
          exact fresh (List.mem_map.mpr ⟨other, member, eq_of_beq same⟩)
        rw [unseen, Option.none_or, List.find?_singleton, if_pos (beq_self_eq_true _)]

end Plan

namespace Store

/-- The hashes of jobs that a ledger lacks, each once, in the order first seen. -/
def wanted (ledger : Ledger) (jobs : List UploadJob) : List String :=
  (jobs.map (·.hash)).eraseDups.filter fun hash => (ledger.asset? hash).isNone

/-- The hashes of jobs that a ledger holds, each once, with their assets. -/
def served (ledger : Ledger) (jobs : List UploadJob) : List (String × String) :=
  (jobs.map (·.hash)).eraseDups.filterMap fun hash => (ledger.asset? hash).map (hash, ·)

/-- What the texts hold for a hash, if that is a picture. -/
def picture? (raw : List (String × String)) (hash : String) : Option Content :=
  (raw.lookup hash).bind fun encoded => (Content.decode encoded).toOption

/-- How a job without a usable picture fails. -/
inductive Unusable (raw : List (String × String)) (job : UploadJob) : Failure → Prop where
  | missing (absent : raw.lookup job.hash = none) :
      Unusable raw job (.missingRawContent job.hash job.nodeId)
  | undecodable (present : raw.lookup job.hash = some encoded)
      (fails : Content.decode encoded = .error fault) :
      Unusable raw job (.invalidRawContent job.hash fault)

/-- Finding the assets of jobs: what comes of it, the events, and the ledger that is left. The first
condition that holds counts. -/
inductive Resolving (limit : Nat) (available : Bool) (raw : List (String × String))
    (jobs : List UploadJob) (ledger : Ledger) :
    Except Failure Resolution → List Event → Ledger → Prop where
  | unusable {hash : String} {failure : Failure}
      (first : (wanted ledger jobs).find? (fun hash => (picture? raw hash).isNone) = some hash)
      (owner : jobs.find? (·.hash == hash) = some job) (fault : Unusable raw job failure) :
      Resolving limit available raw jobs ledger (.error failure) [] ledger
  | cached (nothing : wanted ledger jobs = []) :
      Resolving limit available raw jobs ledger
        (.ok ⟨served ledger jobs, [], (served ledger jobs).length⟩) [] ledger
  | keyless (usable : ∀ hash ∈ wanted ledger jobs, (picture? raw hash).isSome = true)
      (needed : wanted ledger jobs ≠ []) (keyless : available = false) :
      Resolving limit available raw jobs ledger
        (.error (.config (.keyRequired (.uploadAll (wanted ledger jobs).length)))) [] ledger
  | uploading (needed : wanted ledger jobs ≠ []) (keyed : available = true)
      (order : misses.map (·.1.hash) = wanted ledger jobs)
      (owners : ∀ miss ∈ misses, jobs.find? (·.hash == miss.1.hash) = some miss.1)
      (pictures : ∀ miss ∈ misses, picture? raw miss.1.hash = some miss.2)
      (session : Session limit ledger misses events result final) :
      Resolving limit available raw jobs ledger
        (result.map fun stored =>
          ⟨served ledger jobs ++ stored, stored.map (·.1), (served ledger jobs).length⟩)
        events final

section Sorting

variable {ledger : Ledger} {raw : List (String × String)}

/-- The triage of jobs stops at the first one that the ledger lacks and that has no usable picture;
without such a job, it tells apart what the ledger holds and what it lacks. -/
theorem Triage.of_cases (ledger : Ledger) (raw : List (String × String)) (jobs : List UploadJob) :
    let lacking := jobs.filter fun job => (ledger.asset? job.hash).isNone
    let held := jobs.filterMap fun job => (ledger.asset? job.hash).map (job.hash, ·)
    (∃ job failure, lacking.find? (fun job => (picture? raw job.hash).isNone) = some job ∧
        Unusable raw job failure ∧ Triage.of ledger raw jobs = .error failure) ∨
      ∃ misses, misses.map (·.1) = lacking ∧
        (∀ miss ∈ misses, picture? raw miss.1.hash = some miss.2) ∧
        Triage.of ledger raw jobs = .ok ⟨held, misses⟩ := by
  induction jobs with
  | nil => exact .inr ⟨[], rfl, by simp, rfl⟩
  | cons job rest ih =>
    -- what is held is passed over; what is not must have a picture for the search to go on
    cases held : ledger.asset? job.hash with
    | some asset =>
      rcases ih with ⟨first, failure, found, fault, stopped⟩ | ⟨misses, order, pictures, sorted⟩
      · refine .inl ⟨first, failure, ?_, fault, ?_⟩
        · simpa [held] using found
        · simp [Triage.of, held, stopped, bind, Except.bind]
      · refine .inr ⟨misses, ?_, pictures, ?_⟩
        · simpa [held] using order
        · simp [Triage.of, held, sorted, bind, Except.bind, pure, Except.pure]
    | none =>
      cases present : raw.lookup job.hash with
      | none =>
        refine .inl ⟨job, _, ?_, .missing present, ?_⟩
        · simp [held, picture?, present]
        · simp [Triage.of, held, present]
      | some encoded =>
        cases decoded : Content.decode encoded with
        | error fault =>
          refine .inl ⟨job, _, ?_, .undecodable present decoded, ?_⟩
          · simp [held, picture?, present, decoded, Except.toOption]
          · simp [Triage.of, held, present, decoded]
        | ok content =>
          have picture : picture? raw job.hash = some content := by
            simp [picture?, present, decoded, Except.toOption]
          rcases ih with ⟨first, failure, found, fault, stopped⟩ | ⟨misses, order, pictures, sorted⟩
          · refine .inl ⟨first, failure, ?_, fault, ?_⟩
            · simpa [held, picture] using found
            · simp [Triage.of, held, present, decoded, stopped, bind, Except.bind]
          · refine .inr ⟨(job, content) :: misses, ?_, ?_, ?_⟩
            · simpa [held] using order
            · exact List.forall_mem_cons.mpr ⟨picture, pictures⟩
            · simp [Triage.of, held, present, decoded, sorted, bind, Except.bind, pure, Except.pure]

theorem hashes_lacking (ledger : Ledger) (jobs : List UploadJob) :
    ((Plan.firstOfEach jobs).filter fun job => (ledger.asset? job.hash).isNone).map (·.hash) =
      wanted ledger jobs := by
  rw [wanted, ← Plan.hashes_firstOfEach, List.filter_map]
  rfl

theorem served_eq (ledger : Ledger) (jobs : List UploadJob) :
    (Plan.firstOfEach jobs).filterMap (fun job => (ledger.asset? job.hash).map (job.hash, ·)) =
      served ledger jobs := by
  rw [served, ← Plan.hashes_firstOfEach, List.filterMap_map]
  rfl

theorem nodup_wanted (ledger : Ledger) (jobs : List UploadJob) : (wanted ledger jobs).Nodup := by
  rw [wanted, ← Plan.hashes_firstOfEach]
  exact (Plan.nodup_firstOfEach jobs).filter _

theorem asset?_of_mem_wanted {jobs : List UploadJob} {hash : String}
    (lacking : hash ∈ wanted ledger jobs) : ledger.asset? hash = none := by
  simpa using (List.mem_filter.mp lacking).2

end Sorting

section Ways

variable {limit : Nat} {available : Bool} {raw : List (String × String)} {jobs : List UploadJob}
  {ledger final : Ledger} {result : Except Failure Resolution} {events : List Event}

theorem Resolving.created (resolving : Resolving limit available raw jobs ledger result events final) :
    (events.filterMap Event.request?).map (·.hash) <+: wanted ledger jobs := by
  cases resolving with
  | unusable | cached | keyless => exact List.nil_prefix
  | uploading _ _ order _ _ session =>
    rw [← order]
    have hashes := session.requests.map (·.hash)
    rwa [List.map_map] at hashes

theorem Resolving.completed
    (resolving : Resolving limit available raw jobs ledger result events final) :
    (completions none events).map (·.1) <+: wanted ledger jobs := by
  cases resolving with
  | unusable | cached | keyless => exact List.nil_prefix
  | uploading _ _ order _ _ session =>
    rw [← order]
    exact session.hashes none

theorem Resolving.grows (resolving : Resolving limit available raw jobs ledger result events final) :
    ledger.Grows final := by
  cases resolving with
  | unusable | cached | keyless => exact .refl ledger
  | uploading _ _ order _ _ session =>
    refine session.grows ?_ (order ▸ nodup_wanted ledger jobs)
    intro miss member
    have listed := List.mem_map_of_mem (f := (·.1.hash)) member
    rw [order] at listed
    exact Option.map_eq_none_iff.mp (asset?_of_mem_wanted listed)

theorem Resolving.assets (resolving : Resolving limit available raw jobs ledger result events final)
    (hash : String) :
    final.asset? hash = ((completions none events).lookup hash).or (ledger.asset? hash) := by
  cases resolving with
  | unusable | cached | keyless => rfl
  | uploading _ _ order _ _ session =>
    exact session.assets (order ▸ nodup_wanted ledger jobs) none hash

theorem Resolving.ok (resolving : Resolving limit available raw jobs ledger result events final)
    {resolution : Resolution} (done : result = .ok resolution) :
    (completions none events).map (·.1) = wanted ledger jobs ∧
      resolution.uploaded = wanted ledger jobs ∧
      resolution.cacheHits = (served ledger jobs).length := by
  cases resolving with
  | unusable | keyless => cases done
  | cached nothing =>
    obtain rfl := Except.ok.inj done
    exact ⟨nothing.symm, nothing.symm, rfl⟩
  | uploading _ _ order _ _ session =>
    obtain ⟨stored, ended, rfl⟩ := map_eq_ok.mp done
    obtain ⟨completed, hashes⟩ := session.stores none ended
    rw [completed, ← order]
    exact ⟨hashes, hashes, rfl⟩

end Ways

section Runs

variable {σ : Type} [Host (StateM σ)]

/-- Whatever the jobs, the texts, the ledger, the store and the machine are, finding assets goes one
of the ways there are. -/
theorem resolveAll_tells (jobs : List UploadJob) (raw : List (String × String))
    (uploader : Uploader (StateM σ)) (config : UploadConfig) (ledger : Ledger) (world : σ) :
    ∃ result events final after,
      Tells (resolveAll jobs raw uploader.watched config) (resolveAll jobs raw uploader config)
          (ledger, world) result events (final, after) ∧
        Resolving config.maxPollAttempts uploader.available raw jobs ledger result events final := by
  have known := tells_get (ledger, world)
  -- the search ends before anything is sent if a job that is lacking has no picture
  rcases Triage.of_cases ledger raw (Plan.firstOfEach jobs) with
    ⟨job, failure, found, fault, stopped⟩ | ⟨misses, order, pictures, sorted⟩
  · refine ⟨.error failure, [], ledger, world, ?_, ?_⟩
    · rw [resolveAll, resolveAll]
      refine known.bind ?_
      simp only [stopped]
      exact tells_pure _ _
    · have member := (List.mem_filter.mp (List.mem_of_find?_eq_some found)).1
      refine .unusable ?_ (Plan.find?_of_mem_firstOfEach member) fault
      rw [← hashes_lacking, List.find?_map]
      exact Option.map_eq_some_iff.mpr ⟨job, found, rfl⟩
  · have hashes : misses.map (·.1.hash) = wanted ledger jobs := by
      rw [← hashes_lacking, ← order, List.map_map]
      rfl
    have count : misses.length = (wanted ledger jobs).length := by
      rw [← hashes, List.length_map]
    have owners : ∀ miss ∈ misses, jobs.find? (·.hash == miss.1.hash) = some miss.1 := by
      intro miss member
      have lacking := List.mem_map_of_mem (f := (·.1)) member
      rw [order] at lacking
      exact Plan.find?_of_mem_firstOfEach (List.mem_filter.mp lacking).1
    rw [served_eq] at sorted
    rw [resolveAll, resolveAll]
    -- all is in the ledger, or there is a key to upload with, or there is none
    by_cases nothing : misses = []
    · refine ⟨_, [], ledger, world, ?_, .cached (by rw [← hashes, nothing, List.map_nil])⟩
      refine known.bind ?_
      simp only [sorted, nothing, List.isEmpty_nil, if_true]
      exact tells_pure _ _
    · have needed : wanted ledger jobs ≠ [] := by
        rw [← hashes]
        exact fun none => nothing (List.map_eq_nil_iff.mp none)
      have shown : uploader.watched.available = uploader.available := rfl
      by_cases keyed : uploader.available = true
      · have fresh : ∀ miss ∈ misses, ledger.get? miss.1.hash = none := by
          intro miss member
          have listed := List.mem_map_of_mem (f := (·.1.hash)) member
          rw [hashes] at listed
          exact Option.map_eq_none_iff.mp (asset?_of_mem_wanted listed)
        obtain ⟨result, events, final, after, told, session⟩ :=
          uploadAll_tells uploader config true fresh (hashes ▸ nodup_wanted ledger jobs) world
        let outcome : Except Failure Resolution := result.map fun stored =>
          ⟨served ledger jobs ++ stored, stored.map (·.1), (served ledger jobs).length⟩
        refine ⟨outcome, events ++ [], final, after, known.bind ?_, ?_⟩
        · simp only [sorted, List.isEmpty_iff, nothing, if_false, shown, keyed, Bool.not_true,
            Bool.false_eq_true]
          refine told.bind ?_
          cases result with
          | error failure => exact tells_pure _ _
          | ok stored => exact tells_pure _ _
        · rw [List.append_nil]
          exact .uploading needed keyed hashes owners pictures session
      · have keyless := eq_false_of_ne_true keyed
        refine ⟨_, [], ledger, world, known.bind ?_, .keyless ?_ needed keyless⟩
        · simp only [sorted, List.isEmpty_iff, nothing, if_false, shown, keyless, Bool.not_false,
            if_true, ← count]
          exact tells_pure _ _
        · intro hash listed
          rw [← hashes] at listed
          obtain ⟨miss, member, rfl⟩ := List.mem_map.mp listed
          rw [pictures miss member, Option.isSome_some]

/-- Finding assets is a protocol. It goes one of its ways; pictures are created for a prefix of the
hashes wanted, the ledger ends up with just the assets that the store gave besides those it had, and
if all goes well each job has the asset that the ledger holds for its hash. -/
theorem resolveAll_protocol (jobs : List UploadJob) (raw : List (String × String))
    (uploader : Uploader (StateM σ)) (config : UploadConfig) (ledger : Ledger) (world : σ) :
    ∃ result events final after,
      Tells (resolveAll jobs raw uploader.watched config) (resolveAll jobs raw uploader config)
          (ledger, world) result events (final, after) ∧
        Resolving config.maxPollAttempts uploader.available raw jobs ledger result events final ∧
        (events.filterMap Event.request?).map (·.hash) <+: wanted ledger jobs ∧
        (completions none events).map (·.1) <+: wanted ledger jobs ∧
        ledger.Grows final ∧
        (∀ hash, final.asset? hash =
          ((completions none events).lookup hash).or (ledger.asset? hash)) ∧
        ∀ resolution, result = .ok resolution →
          (completions none events).map (·.1) = wanted ledger jobs ∧
            resolution.uploaded = wanted ledger jobs ∧
            resolution.cacheHits = (served ledger jobs).length ∧
            ∀ job ∈ jobs, ∃ asset, resolution.resolved.lookup job.hash = some asset ∧
              final.asset? job.hash = some asset := by
  obtain ⟨result, events, final, after, told, resolving⟩ :=
    resolveAll_tells jobs raw uploader config ledger world
  refine ⟨result, events, final, after, told, resolving, resolving.created, resolving.completed,
    resolving.grows, resolving.assets, ?_⟩
  intro resolution done
  obtain ⟨completed, uploaded, hits⟩ := resolving.ok done
  subst done
  exact ⟨completed, uploaded, hits, fun job member => lookup_resolved told.plain member⟩

end Runs

end Store
end DesignCompiler
