import DesignCompiler.Proofs.Association
import DesignCompiler.Store.Resolution

/-!
What finding assets leaves behind. The ledger only grows, every job ends up with the asset that the
ledger holds for its hash, and jobs that the ledger knows are served without asking the machine.
-/
namespace DesignCompiler

namespace Plan

private theorem foldl_firstOfEach {kept jobs : List UploadJob} (distinct : (kept.map (·.hash)).Nodup) :
    let result := jobs.foldl (fun kept job =>
      if kept.any (·.hash == job.hash) then kept else kept ++ [job]) kept
    (result.map (·.hash)).Nodup ∧
      (∀ hash, hash ∈ result.map (·.hash) ↔ hash ∈ kept.map (·.hash) ∨ hash ∈ jobs.map (·.hash)) ∧
      ∀ job ∈ result, job ∈ kept ∨ job ∈ jobs := by
  induction jobs generalizing kept with
  | nil => exact ⟨distinct, by simp, fun job member => .inl member⟩
  | cons job rest ih =>
    rw [List.foldl_cons]
    by_cases held : kept.any (·.hash == job.hash) = true
    · rw [if_pos held]
      obtain ⟨nodup, hashes, members⟩ := ih distinct
      refine ⟨nodup, fun hash => ?_, fun other member => (members other member).imp_right (.tail _)⟩
      obtain ⟨first, inside, same⟩ : ∃ first ∈ kept, first.hash = job.hash := by simpa using held
      have known : job.hash ∈ kept.map (·.hash) := List.mem_map.mpr ⟨first, inside, same⟩
      rw [hashes, List.map_cons, List.mem_cons]
      constructor
      · exact fun either => either.imp_right .inr
      · rintro (old | rfl | new)
        · exact .inl old
        · exact .inl known
        · exact .inr new
    · rw [if_neg held]
      have fresh : job.hash ∉ kept.map (·.hash) := by simpa using held
      obtain ⟨nodup, hashes, members⟩ := @ih (kept ++ [job]) (by
        rw [List.map_append, List.nodup_append]
        refine ⟨distinct, by simp, ?_⟩
        intro hash member other single same
        obtain rfl := List.mem_singleton.mp single
        exact fresh (by rwa [same] at member))
      refine ⟨nodup, fun hash => ?_, fun other member => ?_⟩
      · rw [hashes, List.map_append, List.mem_append, List.map_cons, List.mem_cons, or_assoc]
        simp
      · rcases members other member with old | new
        · rcases List.mem_append.mp old with old | own
          · exact .inl old
          · exact .inr (by simp_all)
        · exact .inr (.tail _ new)

theorem nodup_firstOfEach (jobs : List UploadJob) : ((firstOfEach jobs).map (·.hash)).Nodup :=
  (foldl_firstOfEach (by simp)).1

theorem mem_hashes_firstOfEach {jobs : List UploadJob} {hash : String} :
    hash ∈ (firstOfEach jobs).map (·.hash) ↔ hash ∈ jobs.map (·.hash) := by
  rw [firstOfEach, (@foldl_firstOfEach [] jobs (by simp)).2.1 hash]
  simp

theorem mem_of_mem_firstOfEach {jobs : List UploadJob} {job : UploadJob}
    (member : job ∈ firstOfEach jobs) : job ∈ jobs := by
  simpa using (@foldl_firstOfEach [] jobs (by simp)).2.2 job member

end Plan

namespace Store

/-- Every entry of a ledger is one of another ledger. -/
def Ledger.Grows (before after : Ledger) : Prop :=
  ∀ hash entry, before.get? hash = some entry → after.get? hash = some entry

theorem Ledger.Grows.refl (ledger : Ledger) : ledger.Grows ledger := fun _ _ held => held

theorem Ledger.Grows.trans {first second third : Ledger} (early : first.Grows second)
    (late : second.Grows third) : first.Grows third :=
  fun hash entry held => late hash entry (early hash entry held)

theorem Ledger.Grows.asset {before after : Ledger} (growth : before.Grows after) {hash asset : String}
    (held : before.asset? hash = some asset) : after.asset? hash = some asset := by
  obtain ⟨entry, found, rfl⟩ := Option.map_eq_some_iff.mp held
  exact Option.map_eq_some_iff.mpr ⟨entry, growth hash entry found, rfl⟩

section Triage

variable {ledger : Ledger} {raw : List (String × String)}

/-- What the triage of some jobs tells about them. -/
structure Triage.Sorts (ledger : Ledger) (jobs : List UploadJob) (triage : Triage) : Prop where
  known : ∀ entry ∈ triage.known, ledger.asset? entry.1 = some entry.2
  missing : ∀ miss ∈ triage.misses, ledger.asset? miss.1.hash = none
  order : (triage.misses.map (·.1)).Sublist jobs
  covers : ∀ job ∈ jobs, job.hash ∈ triage.known.map (·.1) ∨ job ∈ triage.misses.map (·.1)

theorem Triage.of_sorts {jobs : List UploadJob} {triage : Triage}
    (done : Triage.of ledger raw jobs = .ok triage) : triage.Sorts ledger jobs := by
  induction jobs generalizing triage with
  | nil =>
    obtain rfl := Except.ok.inj done
    exact ⟨by simp, by simp, by simp, by simp⟩
  | cons job rest ih =>
    rw [Triage.of] at done
    cases held : ledger.asset? job.hash with
    | some asset =>
      cases later : Triage.of ledger raw rest with
      | error failure => simp [held, later, bind, Except.bind] at done
      | ok others =>
        simp only [held, later, bind, Except.bind, pure, Except.pure, Except.ok.injEq] at done
        subst done
        obtain ⟨known, missing, order, covers⟩ := ih later
        refine ⟨List.forall_mem_cons.mpr ⟨held, known⟩, missing, order.cons _, ?_⟩
        intro other member
        rcases List.mem_cons.mp member with rfl | member
        · exact .inl List.mem_cons_self
        · exact (covers other member).imp_left (List.mem_cons_of_mem _)
    | none =>
      simp only [held] at done
      split at done
      · simp at done
      · split at done
        · simp at done
        · rename_i content _
          cases later : Triage.of ledger raw rest with
          | error failure => simp [later, bind, Except.bind] at done
          | ok others =>
            simp only [later, bind, Except.bind, pure, Except.pure, Except.ok.injEq] at done
            subst done
            obtain ⟨known, missing, order, covers⟩ := ih later
            refine ⟨known, List.forall_mem_cons.mpr ⟨held, missing⟩, order.cons_cons _, ?_⟩
            intro other member
            rcases List.mem_cons.mp member with rfl | member
            · exact .inr List.mem_cons_self
            · exact (covers other member).imp_right (List.mem_cons_of_mem _)

/-- Jobs that the ledger all knows leave nothing to upload. -/
theorem Triage.of_known {jobs : List UploadJob}
    (held : ∀ job ∈ jobs, (ledger.asset? job.hash).isSome = true) :
    ∃ known, Triage.of ledger raw jobs = .ok ⟨known, []⟩ := by
  induction jobs with
  | nil => exact ⟨[], rfl⟩
  | cons job rest ih =>
    obtain ⟨here, others⟩ := List.forall_mem_cons.mp held
    obtain ⟨asset, found⟩ := Option.isSome_iff_exists.mp here
    obtain ⟨known, later⟩ := ih others
    exact ⟨(job.hash, asset) :: known, by
      rw [Triage.of, found, later]
      rfl⟩

end Triage

section Runs

variable {σ β γ : Type}

/-- From a ledger and a world, a program comes to a value and leaves a ledger and a world. -/
def Yields (program : StateT Ledger (StateM σ) β) (before : Ledger × σ) (value : β)
    (after : Ledger × σ) : Prop :=
  program before.1 before.2 = ((value, after.1), after.2)

variable {before after : Ledger × σ}

theorem yields_bind {first : StateT Ledger (StateM σ) β} {next : β → StateT Ledger (StateM σ) γ}
    {result : γ} :
    Yields (first >>= next) before result after ↔
      ∃ value between, Yields first before value between ∧ Yields (next value) between result after := by
  have unfolded : (first >>= next) before.1 before.2 =
      next (first before.1 before.2).1.1 (first before.1 before.2).1.2 (first before.1 before.2).2 := rfl
  rw [Yields, unfolded]
  constructor
  · intro done
    exact ⟨_, (_, _), rfl, done⟩
  · rintro ⟨value, between, start, done⟩
    rw [Yields] at start
    rw [start]
    exact done

theorem yields_pure {value result : β} :
    Yields (pure value : StateT Ledger (StateM σ) β) before result after ↔
      value = result ∧ before = after := by
  have unfolded : (pure value : StateT Ledger (StateM σ) β) before.1 before.2 =
      ((value, before.1), before.2) := rfl
  rw [Yields, unfolded, Prod.mk.injEq, Prod.mk.injEq, and_assoc, ← Prod.ext_iff]

/-- A question to the machine does not touch the ledger. -/
theorem yields_lift {question : StateM σ β} {result : β} :
    Yields (liftM question : StateT Ledger (StateM σ) β) before result after ↔
      before.1 = after.1 ∧ question before.2 = (result, after.2) := by
  have unfolded : (liftM question : StateT Ledger (StateM σ) β) before.1 before.2 =
      (((question before.2).1, before.1), (question before.2).2) := rfl
  rw [Yields, unfolded]
  constructor
  · intro same
    obtain ⟨pair, world⟩ := Prod.mk.inj same
    obtain ⟨value, ledger⟩ := Prod.mk.inj pair
    exact ⟨ledger, Prod.ext value world⟩
  · rintro ⟨ledger, same⟩
    rw [same, ledger]

theorem yields_get {result : Ledger} :
    Yields (get : StateT Ledger (StateM σ) Ledger) before result after ↔
      before.1 = result ∧ before = after := by
  have unfolded : (get : StateT Ledger (StateM σ) Ledger) before.1 before.2 =
      ((before.1, before.1), before.2) := rfl
  rw [Yields, unfolded, Prod.mk.injEq, Prod.mk.injEq, and_assoc, ← Prod.ext_iff]

theorem yields_set {held : Ledger} {result : PUnit} :
    Yields (set held : StateT Ledger (StateM σ) PUnit) before result after ↔
      (held, before.2) = after := by
  have unfolded : (set held : StateT Ledger (StateM σ) PUnit) before.1 before.2 =
      ((⟨⟩, held), before.2) := rfl
  rw [Yields, unfolded, Prod.mk.injEq, Prod.mk.injEq, Prod.ext_iff]
  simp

variable [Host (StateM σ)]

/-- What is entered for a hash that the ledger lacks is held from then on, and all else stays. -/
theorem get?_insert {hash asset : String} {entry : LedgerEntry} (fresh : before.1.get? hash = none)
    (done : Yields (Ledger.insert hash asset) before (.ok entry) after) :
    entry.asset = asset ∧
      ∀ other, after.1.get? other = if other = hash then some entry else before.1.get? other := by
  simp only [Ledger.insert, yields_bind, yields_get] at done
  obtain ⟨ledger, _, ⟨rfl, rfl⟩, done⟩ := done
  simp only [fresh, yields_bind, yields_set, yields_lift] at done
  obtain ⟨stored, asked, ⟨same, _⟩, _, _, rfl, written, wrote, ⟨kept, _⟩, done⟩ := done
  cases written with
  | error fault =>
    simp only [yields_pure] at done
    simp at done
  | ok _ =>
    simp only [yields_pure, Except.ok.injEq] at done
    obtain ⟨rfl, rfl⟩ := done
    refine ⟨rfl, fun other => ?_⟩
    rw [← kept, Ledger.get?, lookup_insertSorted]
    rfl

variable {uploader : Uploader (StateM σ)} {config : UploadConfig}

/-- What a run of uploads does first: it sends a picture, which does not touch the ledger, and enters
its asset. -/
theorem uploadAll_cons {isFirst : Bool} {job : UploadJob} {content : Content}
    {rest : List (UploadJob × Content)} {stored : List (String × String)}
    (done : Yields (uploadAll uploader config isFirst ((job, content) :: rest)) before (.ok stored)
      after) :
    ∃ sent asset entry held others, sent.1 = before.1 ∧
      Yields (Ledger.insert job.hash asset) sent (.ok entry) held ∧
      Yields (uploadAll uploader config false rest) held (.ok others) after ∧
      stored = (job.hash, asset) :: others := by
  simp only [uploadAll, yields_bind, yields_lift] at done
  obtain ⟨answer, sent, ⟨untouched, _⟩, done⟩ := done
  cases answer with
  | error failure => simp [yields_pure] at done
  | ok asset =>
    simp only [yields_bind] at done
    obtain ⟨inserted, held, insert, done⟩ := done
    cases inserted with
    | error failure => simp [yields_pure] at done
    | ok entry =>
      simp only [yields_bind] at done
      obtain ⟨finished, _, later, done⟩ := done
      cases finished with
      | error failure => simp [yields_pure] at done
      | ok others =>
        simp only [yields_pure, Except.ok.injEq] at done
        obtain ⟨rfl, rfl⟩ := done
        exact ⟨sent, asset, entry, held, others, untouched.symm, insert, later, rfl⟩

/-- Uploads of distinct hashes that the ledger lacks add their assets to the ledger, in order, and
take nothing away. -/
theorem uploadAll_ok {isFirst : Bool} {misses : List (UploadJob × Content)}
    {stored : List (String × String)} (fresh : ∀ miss ∈ misses, before.1.get? miss.1.hash = none)
    (distinct : (misses.map (·.1.hash)).Nodup)
    (done : Yields (uploadAll uploader config isFirst misses) before (.ok stored) after) :
    before.1.Grows after.1 ∧ stored.map (·.1) = misses.map (·.1.hash) ∧
      ∀ entry ∈ stored, after.1.asset? entry.1 = some entry.2 := by
  induction misses generalizing isFirst stored before with
  | nil =>
    simp only [uploadAll, yields_pure, Except.ok.injEq] at done
    obtain ⟨rfl, rfl⟩ := done
    exact ⟨.refl _, rfl, by simp⟩
  | cons miss rest ih =>
    obtain ⟨job, content⟩ := miss
    obtain ⟨sent, asset, entry, held, others, untouched, insert, later, rfl⟩ := uploadAll_cons done
    obtain ⟨here, missing⟩ := List.forall_mem_cons.mp fresh
    obtain ⟨unlisted, distinct⟩ := List.nodup_cons.mp distinct
    obtain ⟨own, holds⟩ := get?_insert (untouched ▸ here) insert
    rw [untouched] at holds
    have grown : before.1.Grows held.1 := by
      intro hash old found
      have other : hash ≠ job.hash := by
        rintro rfl
        simp [here] at found
      rw [holds, if_neg other, found]
    have fresh : ∀ miss ∈ rest, held.1.get? miss.1.hash = none := by
      intro miss member
      have other : miss.1.hash ≠ job.hash := fun same =>
        unlisted (List.mem_map.mpr ⟨miss, member, same⟩)
      rw [holds, if_neg other, missing miss member]
    obtain ⟨growth, hashes, assets⟩ := ih fresh distinct later
    refine ⟨grown.trans growth, by simp [hashes], List.forall_mem_cons.mpr ⟨?_, assets⟩⟩
    exact growth.asset (by simp [Ledger.asset?, holds, own])

/-- If all assets are found, the ledger has grown and holds them, and each job has one. -/
theorem resolveAll_ok {jobs : List UploadJob} {raw : List (String × String)} {resolution : Resolution}
    (done : Yields (resolveAll jobs raw uploader config) before (.ok resolution) after) :
    before.1.Grows after.1 ∧
      (∀ entry ∈ resolution.resolved, after.1.asset? entry.1 = some entry.2) ∧
      ∀ job ∈ jobs, job.hash ∈ resolution.resolved.map (·.1) := by
  simp only [resolveAll, yields_bind, yields_get] at done
  obtain ⟨ledger, _, ⟨rfl, rfl⟩, done⟩ := done
  cases sorted : Triage.of before.1 raw (Plan.firstOfEach jobs) with
  | error failure => simp [sorted, yields_pure] at done
  | ok triage =>
    obtain ⟨known, missing, order, covers⟩ := Triage.of_sorts sorted
    have covered : ∀ job ∈ jobs, job.hash ∈ triage.known.map (·.1) ∨
        job.hash ∈ triage.misses.map (·.1.hash) := by
      intro job member
      have listed := Plan.mem_hashes_firstOfEach.mpr (List.mem_map_of_mem (f := (·.hash)) member)
      obtain ⟨first, present, same⟩ := List.mem_map.mp listed
      rw [← same]
      refine (covers first present).imp_right fun missed => ?_
      obtain ⟨miss, inside, rfl⟩ := List.mem_map.mp missed
      exact List.mem_map.mpr ⟨miss, inside, rfl⟩
    -- nothing is missing, nothing can be uploaded, or all that is missing is uploaded
    simp only [sorted] at done
    split at done
    · rename_i nothing
      simp only [yields_pure, Except.ok.injEq] at done
      obtain ⟨rfl, rfl⟩ := done
      refine ⟨.refl _, known, fun job member => (covered job member).resolve_right ?_⟩
      simp [List.isEmpty_iff.mp nothing]
    · split at done
      · simp [yields_pure] at done
      · simp only [yields_bind] at done
        obtain ⟨sent, _, uploaded, done⟩ := done
        cases sent with
        | error failure => simp [yields_pure] at done
        | ok stored =>
          simp only [yields_pure, Except.ok.injEq] at done
          obtain ⟨rfl, rfl⟩ := done
          have distinct : (triage.misses.map (·.1.hash)).Nodup := by
            have names := (order.map (·.hash)).nodup (Plan.nodup_firstOfEach jobs)
            rwa [List.map_map] at names
          have fresh : ∀ miss ∈ triage.misses, before.1.get? miss.1.hash = none := fun miss member =>
            Option.map_eq_none_iff.mp (missing miss member)
          obtain ⟨growth, hashes, assets⟩ := uploadAll_ok fresh distinct uploaded
          refine ⟨growth, ?_, fun job member => ?_⟩
          · intro entry member
            rcases List.mem_append.mp member with old | new
            · exact growth.asset (known entry old)
            · exact assets entry new
          · rw [List.map_append, List.mem_append, hashes]
            exact covered job member

/-- Each job finds the asset that the ledger holds for its hash in the end. -/
theorem lookup_resolved {jobs : List UploadJob} {raw : List (String × String)}
    {resolution : Resolution}
    (done : Yields (resolveAll jobs raw uploader config) before (.ok resolution) after)
    {job : UploadJob} (member : job ∈ jobs) :
    ∃ asset, resolution.resolved.lookup job.hash = some asset ∧
      after.1.asset? job.hash = some asset := by
  obtain ⟨_, held, covered⟩ := resolveAll_ok done
  have found := lookup_of_forall held (covered job member)
  obtain ⟨entry, present, same⟩ := List.mem_map.mp (covered job member)
  have asset := held entry present
  rw [same] at asset
  exact ⟨entry.2, found.trans asset, asset⟩

end Runs

/-- Jobs that the ledger all knows are served from it, and nothing is asked of the machine or the
store. -/
theorem resolveAll_known {m : Type → Type} [Monad m] [LawfulMonad m] [Host m] (uploader : Uploader m)
    (config : UploadConfig) {jobs : List UploadJob} (raw : List (String × String)) {ledger : Ledger}
    (held : ∀ job ∈ jobs, (ledger.asset? job.hash).isSome = true) :
    ∃ known : List (String × String), (∀ job ∈ jobs, known.lookup job.hash = ledger.asset? job.hash) ∧
      (resolveAll jobs raw uploader config).run ledger =
        pure (.ok ⟨known, [], known.length⟩, ledger) := by
  obtain ⟨known, sorted⟩ := @Triage.of_known ledger raw (Plan.firstOfEach jobs)
    fun job member => held job (Plan.mem_of_mem_firstOfEach member)
  obtain ⟨assets, _, _, covers⟩ := Triage.of_sorts sorted
  refine ⟨known, fun job member => lookup_of_forall assets ?_, ?_⟩
  · have listed := Plan.mem_hashes_firstOfEach.mpr (List.mem_map_of_mem (f := (·.hash)) member)
    obtain ⟨first, present, same⟩ := List.mem_map.mp listed
    rw [← same]
    exact (covers first present).resolve_right (by simp)
  · simp [resolveAll, sorted]

end Store
end DesignCompiler
