import DesignCompiler.Proofs.Pipeline

/-!
How the pictures of a node get their assets: first the one that stands for the node as a whole, if its
asset is carried over, and then all that are still open, by their hashes.
-/
namespace DesignCompiler

variable {α : Type}

namespace Annotations

/-- The pictures of a node: its shadow, its background, itself. -/
def pictures (notes : Annotations α) : List Picture :=
  notes.shadow.toList ++ notes.background.toList ++ notes.raster.toList

/-- The picture that stands for a node as a whole. -/
def primary (notes : Annotations α) : Option Picture := notes.raster.or notes.background

theorem mem_of_primary {notes : Annotations α} {picture : Picture}
    (primary : notes.primary = some picture) : picture ∈ notes.pictures := by
  simp only [pictures, List.mem_append, Option.mem_toList]
  rcases Option.or_eq_some_iff.mp primary with own | ⟨_, background⟩
  · exact .inr own
  · exact .inl (.inr background)

end Annotations

theorem Refills.primary {change : Layer α → Annotations α} (refills : Refills change)
    (layer : Layer α) :
    (change layer).primary.map (·.hash) = layer.annotations.primary.map (·.hash) := by
  rw [Annotations.primary, Annotations.primary, Option.map_or, Option.map_or, refills.raster,
    refills.background]

section Pictures

open Plan (fillPicture fillNotes)

variable {lookup other : String → Option String} {picture : Picture}

theorem fillPicture_of_some {asset : String} (held : picture.asset = some asset) :
    fillPicture lookup picture = picture := by
  simp [fillPicture, held]

theorem fillPicture_of_none (unfilled : picture.asset = none) :
    fillPicture lookup picture = { picture with asset := lookup picture.hash } := by
  simp [fillPicture, unfilled]

theorem fillPicture_again {given again : Option String}
    (same : again = (fillPicture lookup (fillPicture (fun _ => given) picture)).asset)
    (some : again.isSome = true) :
    fillPicture other (fillPicture (fun _ => again) picture) =
      fillPicture lookup (fillPicture (fun _ => given) picture) := by
  cases held : picture.asset with
  | some asset => rw [fillPicture_of_some held, fillPicture_of_some held, fillPicture_of_some held,
      fillPicture_of_some held]
  | none =>
    obtain ⟨asset, found⟩ := Option.isSome_iff_exists.mp some
    have hash : (fillPicture lookup (fillPicture (fun _ => given) picture)).hash = picture.hash := by
      simp
    have refilled : fillPicture (fun _ => again) picture = { picture with asset := again } :=
      fillPicture_of_none held
    have kept : fillPicture other { picture with asset := again } = { picture with asset := again } :=
      fillPicture_of_some found
    rw [refilled, kept]
    generalize fillPicture lookup (fillPicture (fun _ => given) picture) = filled at same hash
    obtain ⟨filledHash, filledAsset⟩ := filled
    simp_all

/-- Two ways to look up assets that agree on an open picture fill it alike. -/
theorem fillPicture_congr (agree : picture.asset = none → lookup picture.hash = other picture.hash) :
    fillPicture lookup picture = fillPicture other picture := by
  cases held : picture.asset with
  | some asset => rw [fillPicture_of_some held, fillPicture_of_some held]
  | none => rw [fillPicture_of_none held, fillPicture_of_none held, agree held]

namespace Diff

/-- The annotations with an asset carried over, if there is one. -/
def carry (asset : Option String) (notes : Annotations α) : Annotations α :=
  match asset with
  | some asset => (reuseNotes asset notes).1
  | none => notes

theorem carrying_eq (reuse : List (String × String)) (layer : Layer α) :
    carrying reuse layer = carry (reuse.lookup layer.id) layer.annotations := rfl

theorem carry_eq (asset : Option String) (notes : Annotations α) :
    carry asset notes =
      { notes with
        raster := notes.raster.map (fillPicture fun _ => asset)
        background :=
          if notes.raster.isSome then notes.background
          else notes.background.map (fillPicture fun _ => asset) } := by
  have none_map : ∀ picture : Option Picture, picture.map (fillPicture fun _ => none) = picture := by
    rintro (_ | ⟨hash, _ | asset⟩) <;> rfl
  obtain ⟨duplicate, stroke, raster, background, shadow, native, bounds⟩ := notes
  cases asset with
  | none => simp [carry, none_map]
  | some asset =>
    rcases raster with _ | ⟨hash, _ | held⟩
    · rcases background with _ | ⟨hash, _ | held⟩ <;> rfl
    · rfl
    · rfl

/-- Pictures that stand for no node as a whole are left open by any asset carried over. -/
theorem open_of_carry {notes : Annotations α} {given : Option String}
    (whole : ∀ held, notes.primary = some held → given.isSome = true)
    (member : picture ∈ (carry given notes).pictures) (unfilled : picture.asset = none)
    (again : Option String) : picture ∈ (carry again notes).pictures := by
  have filled : ∀ held, notes.primary = some held →
      (fillPicture (fun _ => given) held).asset ≠ none := by
    intro held primary
    obtain ⟨asset, rfl⟩ := Option.isSome_iff_exists.mp (whole held primary)
    cases own : held.asset with
    | some asset => simp [fillPicture_of_some own, own]
    | none => simp [fillPicture_of_none own]
  rw [carry_eq] at member ⊢
  simp only [Annotations.pictures, List.mem_append, Option.mem_toList] at member ⊢
  cases raster : notes.raster with
  | some own =>
    simp only [raster, Option.isSome_some, if_true] at member ⊢
    rcases member with (shadow | background) | own'
    · exact .inl (.inl shadow)
    · exact .inl (.inr background)
    · obtain rfl : fillPicture (fun _ => given) own = picture := by simpa using own'
      exact absurd unfilled (filled own (by simp [Annotations.primary, raster]))
  | none =>
    simp only [raster, Option.isSome_none] at member ⊢
    rcases member with (shadow | background) | own'
    · exact .inl (.inl shadow)
    · obtain ⟨held, found, rfl⟩ := Option.map_eq_some_iff.mp background
      exact absurd unfilled (filled held (by simp [Annotations.primary, raster, found]))
    · simp at own'

/-- Annotations filled again, with the asset that the node ended up with carried over, are the
same. -/
theorem fill_again {notes : Annotations α} {given again : Option String}
    (same : again = ((fillNotes lookup (carry given notes)).primary.bind (·.asset)))
    (whole : ∀ held, notes.primary = some held → again.isSome = true)
    (agree : ∀ picture ∈ (carry again notes).pictures, picture.asset = none →
      other picture.hash = lookup picture.hash) :
    fillNotes other (carry again notes) = fillNotes lookup (carry given notes) := by
  rw [carry_eq] at same agree ⊢
  rw [carry_eq]
  simp only [Annotations.pictures, List.mem_append, Option.mem_toList] at agree
  have shadow : notes.shadow.map (fillPicture other) = notes.shadow.map (fillPicture lookup) := by
    cases found : notes.shadow with
    | none => rfl
    | some picture =>
      rw [Option.map_some, Option.map_some, fillPicture_congr (agree picture (.inl (.inl found)))]
  cases raster : notes.raster with
  | some own =>
    simp only [raster, Option.isSome_some, if_true, Option.map_some] at same agree
    have primary : fillPicture other (fillPicture (fun _ => again) own) =
        fillPicture lookup (fillPicture (fun _ => given) own) :=
      fillPicture_again same (whole own (by simp [Annotations.primary, raster]))
    have background : notes.background.map (fillPicture other) =
        notes.background.map (fillPicture lookup) := by
      cases found : notes.background with
      | none => rfl
      | some picture =>
        rw [Option.map_some, Option.map_some, fillPicture_congr (agree picture (.inl (.inr found)))]
    simp [fillNotes, shadow, primary, background]
  | none =>
    cases found : notes.background with
    | none => simp [fillNotes, shadow]
    | some picture =>
      have primary : fillPicture other (fillPicture (fun _ => again) picture) =
          fillPicture lookup (fillPicture (fun _ => given) picture) := by
        refine fillPicture_again ?_ (whole picture (by simp [Annotations.primary, raster, found]))
        simpa [fillNotes, Annotations.primary, raster, found] using same
      simp [fillNotes, shadow, primary]

end Diff
end Pictures

namespace Plan

theorem pictures_eq (node : Node α) : pictures node = node.layer.annotations.pictures := rfl

/-- There is a job for just those hashes that some live node has an open picture for. -/
theorem mem_pendingJobs {root : Node α} {hash : String} :
    hash ∈ (pendingJobs root).map (·.hash) ↔ ∃ node ∈ emitted root,
      ∃ picture ∈ node.layer.annotations.pictures, picture.asset = none ∧ picture.hash = hash := by
  rw [pendingJobs, mem_hashes_firstOfEach]
  simp only [List.mem_map, List.mem_flatMap, openJobs, List.mem_filter, pictures_eq,
    Option.isNone_iff_eq_none]
  constructor
  · rintro ⟨job, ⟨node, live, picture, ⟨member, unfilled⟩, rfl⟩, rfl⟩
    exact ⟨node, live, picture, member, unfilled, rfl⟩
  · rintro ⟨node, live, picture, member, unfilled, rfl⟩
    exact ⟨_, ⟨node, live, picture, ⟨member, unfilled⟩, rfl⟩, rfl⟩

end Plan

namespace PlannedDesign

variable {planned : PlannedDesign α} {node : Node α} {picture : Picture}

theorem exists_job (live : node ∈ Plan.emitted planned.root)
    (member : picture ∈ (Diff.carrying planned.diff.reuse node.layer).pictures)
    (unfilled : picture.asset = none) : ∃ job ∈ planned.jobs, job.hash = picture.hash := by
  refine List.mem_map.mp (Plan.mem_pendingJobs.mpr ⟨node.revise (Diff.carrying planned.diff.reuse),
    ?_, picture, ?_, unfilled, rfl⟩)
  · rw [carried, Node.emitted_revise (Diff.refills_carrying _).life]
    exact List.mem_map_of_mem live
  · rwa [Node.layer_revise]

/-- If every job finds an asset, every picture of a live node has one in the end. -/
theorem exists_asset {lookup : String → Option String}
    (found : ∀ job ∈ planned.jobs, (lookup job.hash).isSome = true)
    (live : node ∈ Plan.emitted planned.root)
    (member : picture ∈ (planned.filled lookup node.layer).pictures) :
    ∃ asset, picture.asset = some asset := by
  have origin : ∃ held ∈ (Diff.carrying planned.diff.reuse node.layer).pictures,
      Plan.fillPicture lookup held = picture := by
    simp only [filled, Plan.filling, Plan.fillNotes, Annotations.pictures, List.mem_append,
      Option.mem_toList, Option.map_eq_some_iff] at member
    simp only [Annotations.pictures, List.mem_append, Option.mem_toList]
    rcases member with (⟨held, there, same⟩ | ⟨held, there, same⟩) | ⟨held, there, same⟩
    · exact ⟨held, .inl (.inl there), same⟩
    · exact ⟨held, .inl (.inr there), same⟩
    · exact ⟨held, .inr there, same⟩
  obtain ⟨held, there, rfl⟩ := origin
  cases own : held.asset with
  | some asset => exact ⟨asset, by rw [fillPicture_of_some own, own]⟩
  | none =>
    obtain ⟨job, listed, same⟩ := exists_job live there own
    rw [fillPicture_of_none own, ← same]
    exact Option.isSome_iff_exists.mp (found job listed)

end PlannedDesign
end DesignCompiler
