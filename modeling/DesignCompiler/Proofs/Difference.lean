import DesignCompiler.Proofs.Comparison
import DesignCompiler.Scalar.Rational
import Mathlib.Data.List.Perm.Basic

/-!
What the comparison of a design with a snapshot owes: every live id stands in one part of the result, the
part that its entry calls for, and what the snapshot has besides is removed.
-/
namespace DesignCompiler

variable {α : Type} [Scalar α]

/-- The ids of the live nodes of a tree, the root among them. -/
def Node.liveIds (root : Node α) : List String := (Plan.emitted root).map (·.layer.id)

namespace Diff

/-- The entry of an id in the snapshot, if there is a snapshot. -/
def entryOf? (previous : Option (Snapshot α)) (id : String) : Option (SnapshotEntry α) :=
  previous.bind (·.get? id)

/-- The ids of the snapshot. -/
def recorded (previous : Option (Snapshot α)) : List String :=
  previous.elim [] fun snapshot => snapshot.entries.map (·.1)

/-- A comparison that tells of every live node and of every entry what became of it. -/
structure Correct (root : Node α) (previous : Option (Snapshot α)) (diff : Diff) : Prop where
  disjoint : [diff.changed, diff.unchanged, diff.added, diff.removed].Pairwise List.Disjoint
  /-- The first three parts hold the live ids, each once. -/
  live : (diff.changed ++ diff.unchanged ++ diff.added).Perm root.liveIds
  removed : ∀ id, id ∈ diff.removed ↔ id ∈ recorded previous ∧ id ∉ root.liveIds
  added : ∀ id, id ∈ diff.added ↔ id ∈ root.liveIds ∧ id ∉ recorded previous
  unchanged : ∀ node ∈ Plan.emitted root, node.layer.id ∈ diff.unchanged ↔
    (entryOf? previous node.layer.id).map (·.structuralHash) = some node.fingerprint
  reuse : ∀ id asset, diff.reuse.lookup id = some asset ↔
    id ∈ diff.unchanged ∧ (entryOf? previous id).bind (·.asset) = some asset
  /-- No id is handed two assets. -/
  keys : (diff.reuse.map (·.1)).Pairwise (· < ·)

section Kinds

variable {previous : Option (Snapshot α)} {node : Node α}

omit [Scalar α] in
theorem isAdded_iff : isAdded previous node = true ↔ node.layer.id ∉ recorded previous := by
  rw [isAdded, Option.isNone_iff_eq_none, ← Option.not_isSome_iff_eq_none, held?]
  cases previous with
  | none => simp [recorded]
  | some snapshot =>
    rw [Option.bind_some, Snapshot.get?, isSome_lookup]
    rfl

theorem isUnchanged_iff : isUnchanged previous node = true ↔
    (entryOf? previous node.layer.id).map (·.structuralHash) = some node.fingerprint := by
  rw [isUnchanged, held?, entryOf?]
  cases previous.bind (·.get? node.layer.id) with
  | none => simp
  | some entry => simp

theorem kinds (previous : Option (Snapshot α)) (node : Node α) :
    (isChanged previous node = true ∨ isUnchanged previous node = true ∨ isAdded previous node = true) ∧
    ¬ (isChanged previous node = true ∧ isUnchanged previous node = true) ∧
    ¬ (isChanged previous node = true ∧ isAdded previous node = true) ∧
    ¬ (isUnchanged previous node = true ∧ isAdded previous node = true) := by
  simp only [isChanged, isUnchanged, isAdded]
  cases held? previous node with
  | none => simp
  | some entry =>
    by_cases same : entry.structuralHash = node.fingerprint
    · simp [same]
    · simp [same]

end Kinds

theorem sorted_reuse (root : Node α) (previous : Option (Snapshot α)) :
    ((of root previous).reuse.map (·.1)).Pairwise (· < ·) := by
  have steps (nodes : List (Node α)) {diff : Diff} (sorted : (diff.reuse.map (·.1)).Pairwise (· < ·)) :
      ((nodes.foldl (step previous) diff).reuse.map (·.1)).Pairwise (· < ·) := by
    induction nodes generalizing diff with
    | nil => exact sorted
    | cons node rest ih =>
      refine ih ?_
      rw [step_eq]
      cases carried? previous node with
      | none => exact sorted
      | some asset =>
        rw [Option.elim_some, keys_insertSorted]
        exact sorted_insertText sorted
  have found : (of root previous).reuse = (root.backwards.foldl (step previous) empty).reuse := by
    cases previous <;> rfl
  rw [found]
  exact steps _ .nil

section Distinct

variable {root : Node α} (distinct : root.liveIds.Nodup)

include distinct

omit [Scalar α] in
/-- Where no id is repeated, a part that lists the picked nodes has the id of a node just if it is picked. -/
theorem mem_part {part : List String} {picks : Node α → Bool}
    (lists : ∀ id, id ∈ part ↔ ∃ node ∈ Plan.emitted root, picks node = true ∧ node.layer.id = id)
    {node : Node α} (live : node ∈ Plan.emitted root) :
    node.layer.id ∈ part ↔ picks node = true := by
  rw [lists]
  constructor
  · rintro ⟨other, live', picked, same⟩
    rwa [← List.inj_on_of_nodup_map distinct live' live same]
  · exact fun picked => ⟨node, live, picked, rfl⟩

omit [Scalar α] in
theorem disjoint_parts {part other : List String} {picks picks' : Node α → Bool}
    (lists : ∀ id, id ∈ part ↔ ∃ node ∈ Plan.emitted root, picks node = true ∧ node.layer.id = id)
    (lists' : ∀ id, id ∈ other ↔ ∃ node ∈ Plan.emitted root, picks' node = true ∧ node.layer.id = id)
    (apart : ∀ node, ¬ (picks node = true ∧ picks' node = true)) : part.Disjoint other := by
  intro id member member'
  obtain ⟨node, live, picked, rfl⟩ := (lists id).mp member
  exact apart node ⟨picked, (mem_part distinct lists' live).mp member'⟩

theorem correct_of (previous : Option (Snapshot α)) : Correct root previous (of root previous) := by
  obtain ⟨changed, changedSorted⟩ := changed_iff root previous
  obtain ⟨unchanged, unchangedSorted⟩ := unchanged_iff root previous
  obtain ⟨added, addedSorted⟩ := added_iff root previous
  have gone (id : String) : id ∈ (of root previous).removed ↔
      id ∈ recorded previous ∧ id ∉ root.liveIds := by
    rw [mem_removed]
    cases previous <;> simp [recorded, Node.liveIds]
  have apart {part : List String} {picks : Node α → Bool}
      (lists : ∀ id, id ∈ part ↔ ∃ node ∈ Plan.emitted root, picks node = true ∧ node.layer.id = id) :
      part.Disjoint (of root previous).removed := by
    intro id member member'
    obtain ⟨node, live, _, rfl⟩ := (lists id).mp member
    exact ((gone _).mp member').2 (List.mem_map_of_mem live)
  -- each node is of one kind, and no id is that of two nodes
  have first := disjoint_parts distinct changed unchanged fun node => (kinds previous node).2.1
  have second := disjoint_parts distinct changed added fun node => (kinds previous node).2.2.1
  have third := disjoint_parts distinct unchanged added fun node => (kinds previous node).2.2.2
  refine ⟨?_, ?_, gone, ?_, ?_, ?_, sorted_reuse root previous⟩
  · simp [first, second, third, apart changed, apart unchanged, apart added]
  · have nodup : ((of root previous).changed ++ (of root previous).unchanged ++
        (of root previous).added).Nodup := by
      rw [List.nodup_append', List.nodup_append', List.disjoint_append_left]
      exact ⟨⟨changedSorted.imp fun less => less.ne, unchangedSorted.imp fun less => less.ne, first⟩,
        addedSorted.imp fun less => less.ne, second, third⟩
    refine (List.perm_ext_iff_of_nodup nodup distinct).mpr fun id => ?_
    simp only [List.mem_append, changed, unchanged, added, or_assoc, Node.liveIds, List.mem_map,
      ← exists_or, ← and_or_left, ← or_and_right, (kinds previous _).1, true_and]
  · intro id
    rw [added, Node.liveIds, List.mem_map]
    constructor
    · rintro ⟨node, live, new, rfl⟩
      exact ⟨⟨node, live, rfl⟩, isAdded_iff.mp new⟩
    · rintro ⟨⟨node, live, rfl⟩, new⟩
      exact ⟨node, live, isAdded_iff.mpr new, rfl⟩
  · intro node live
    rw [mem_part distinct unchanged live, isUnchanged_iff]
  · intro id asset
    rw [lookup_reuse, unchanged]
    constructor
    · rintro ⟨node, live, rfl, given⟩
      obtain ⟨same, held⟩ := carried_eq_some.mp given
      exact ⟨⟨node, live, same, rfl⟩, held⟩
    · rintro ⟨⟨node, live, same, rfl⟩, held⟩
      exact ⟨node, live, rfl, carried_eq_some.mpr ⟨same, held⟩⟩

theorem held_own {node : Node α} (live : node ∈ Plan.emitted root) :
    held? (some root.snapshot) node = some node.snapshotEntry := by
  rw [held?, Option.bind_some, Snapshot.get?_snapshot, Snapshot.find?_of_distinct distinct live]
  rfl

/-- A tree whose live nodes have different ids is compared correctly with every snapshot, and with its own
snapshot every live id is unchanged. -/
theorem of_correct : (∀ previous, Correct root previous (of root previous)) ∧
    ∀ id ∈ root.liveIds, id ∈ (of root (some root.snapshot)).unchanged := by
  refine ⟨correct_of distinct, fun id member => ?_⟩
  obtain ⟨node, live, rfl⟩ := List.mem_map.mp member
  refine ((unchanged_iff root (some root.snapshot)).1 _).mpr ⟨node, live, ?_, rfl⟩
  rw [isUnchanged, held_own distinct live]
  simp [Node.snapshotEntry]

end Distinct

/-- A frame with a child, and with a hidden one that repeats its id. -/
def shelf : Node Rat :=
  .container (.plain "0" "shelf" ⟨0, 0, 80, 20⟩) ⟨.frame, none, false⟩
    [.shape (.plain "1" "book" ⟨0, 0, 4, 20⟩) .rectangle,
      .shape { Layer.plain "1" "gap" ⟨4, 0, 4, 20⟩ with visible := false } .rectangle]

theorem of_correct_shelf : shelf.liveIds = ["0", "1"] ∧
    (∀ previous, Correct shelf previous (of shelf previous)) ∧
    ∀ id ∈ ["0", "1"], id ∈ (of shelf (some shelf.snapshot)).unchanged :=
  ⟨rfl, of_correct (by decide)⟩

end Diff
end DesignCompiler
