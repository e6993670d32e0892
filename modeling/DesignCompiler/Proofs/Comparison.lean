import DesignCompiler.Proofs.Resolution
import DesignCompiler.Proofs.Revision
import Mathlib.Data.List.Nodup

/-!
What a snapshot holds, and what the comparison of a planned design with it says about each live node.
-/
namespace DesignCompiler

variable {α : Type} [Scalar α]

namespace Snapshot

omit [Scalar α] in
@[simp] theorem get?_insert (snapshot : Snapshot α) (key id : String) (entry : SnapshotEntry α) :
    (snapshot.insert key entry).get? id = if id = key then some entry else snapshot.get? id := by
  rw [get?, insert, lookup_insertSorted]
  rfl

theorem get?_foldl_insert (nodes : List (Node α)) (snapshot : Snapshot α) (id : String) :
    (nodes.foldl (fun snapshot node => snapshot.insert node.layer.id node.snapshotEntry) snapshot).get? id =
      ((nodes.reverse.find? fun node => node.layer.id == id).map Node.snapshotEntry).or
        (snapshot.get? id) := by
  induction nodes generalizing snapshot with
  | nil => rfl
  | cons node rest ih =>
    rw [List.foldl_cons, ih, List.reverse_cons, List.find?_append, get?_insert]
    cases rest.reverse.find? fun node => node.layer.id == id with
    | some found => rfl
    | none =>
      by_cases same : id = node.layer.id
      · simp [same]
      · have differ : (node.layer.id == id) = false := by simpa using Ne.symm same
        simp [same, differ]

theorem get?_snapshot (root : Node α) (id : String) :
    root.snapshot.get? id =
      (root.backwards.reverse.find? fun node => node.layer.id == id).map Node.snapshotEntry := by
  rw [Node.snapshot, get?_foldl_insert]
  simp [get?, empty]

omit [Scalar α] in
theorem find?_of_distinct {root node : Node α} (distinct : ((Plan.emitted root).map (·.layer.id)).Nodup)
    (live : node ∈ Plan.emitted root) :
    (root.backwards.reverse.find? fun other => other.layer.id == node.layer.id) = some node := by
  have listed : node ∈ root.backwards.reverse :=
    List.mem_reverse.mpr ((Node.backwards_perm root).mem_iff.mpr live)
  cases found : root.backwards.reverse.find? fun other => other.layer.id == node.layer.id with
  | none => simpa using List.find?_eq_none.mp found node listed
  | some other =>
    have same : other.layer.id = node.layer.id := by simpa using List.find?_some found
    have live' : other ∈ Plan.emitted root :=
      (Node.backwards_perm root).mem_iff.mp (List.mem_reverse.mp (List.mem_of_find?_eq_some found))
    rw [List.inj_on_of_nodup_map distinct live' live same]

theorem mem_ids_snapshot {root : Node α} {id : String} :
    id ∈ root.snapshot.entries.map (·.1) ↔ id ∈ (Plan.emitted root).map (·.layer.id) := by
  rw [← isSome_lookup]
  have found : (root.snapshot.entries.lookup id).isSome =
      (root.backwards.reverse.find? fun node => node.layer.id == id).isSome := by
    have entry := congrArg Option.isSome (get?_snapshot root id)
    rwa [Option.isSome_map] at entry
  rw [found, List.find?_isSome, List.mem_map]
  simp only [List.mem_reverse, (Node.backwards_perm root).mem_iff, beq_iff_eq]

end Snapshot

namespace Diff

/-- The entry that a node is compared with. -/
def held? (previous : Option (Snapshot α)) (node : Node α) : Option (SnapshotEntry α) :=
  previous.bind (·.get? node.layer.id)

/-- The asset that an unchanged node is given back. -/
def carried? (previous : Option (Snapshot α)) (node : Node α) : Option String :=
  (held? previous node).bind fun entry =>
    if entry.structuralHash = node.fingerprint then entry.asset else none

/-- The node looks as it did. -/
def isUnchanged (previous : Option (Snapshot α)) (node : Node α) : Bool :=
  (held? previous node).any fun entry => entry.structuralHash == node.fingerprint

/-- The node was there and looks different now. -/
def isChanged (previous : Option (Snapshot α)) (node : Node α) : Bool :=
  (held? previous node).any fun entry => entry.structuralHash != node.fingerprint

def isAdded (previous : Option (Snapshot α)) (node : Node α) : Bool := (held? previous node).isNone

/-- A node is given its asset back just if it is unchanged and its entry has that asset. -/
theorem carried_eq_some {previous : Option (Snapshot α)} {node : Node α} {asset : String} :
    carried? previous node = some asset ↔
      isUnchanged previous node = true ∧ ((held? previous node).bind (·.asset)) = some asset := by
  rw [carried?, isUnchanged]
  cases held? previous node with
  | none => simp
  | some entry =>
    by_cases same : entry.structuralHash = node.fingerprint
    · simp [same]
    · simp [same]

/-- What the comparison with one node adds to each part of the result. -/
theorem step_eq (previous : Option (Snapshot α)) (diff : Diff) (node : Node α) :
    step previous diff node =
      { changed :=
          if isChanged previous node then insertText node.layer.id diff.changed else diff.changed
        unchanged :=
          if isUnchanged previous node then insertText node.layer.id diff.unchanged
          else diff.unchanged
        added := if isAdded previous node then insertText node.layer.id diff.added else diff.added
        removed := diff.removed
        reuse := (carried? previous node).elim diff.reuse fun asset =>
          insertSorted node.layer.id asset diff.reuse } := by
  cases found : held? previous node with
  | none =>
    have absent : previous.bind (·.get? node.layer.id) = none := found
    simp [step, absent, carried?, isChanged, isUnchanged, isAdded, found]
  | some entry =>
    have held : previous.bind (·.get? node.layer.id) = some entry := found
    by_cases same : entry.structuralHash = node.fingerprint
    · cases asset : entry.asset <;>
        simp [step, held, same, asset, carried?, isChanged, isUnchanged, isAdded, found]
    · simp [step, held, same, carried?, isChanged, isUnchanged, isAdded, found]

section Parts

variable {previous : Option (Snapshot α)} {root : Node α} {part : Diff → List String}
  {picks : Node α → Bool}

/-- One part of a comparison lists the ids of the nodes that some test picks. -/
theorem mem_foldl_step (adds : ∀ diff node, part (step previous diff node) =
      if picks node then insertText node.layer.id (part diff) else part diff)
    (nodes : List (Node α)) (diff : Diff) (id : String) :
    id ∈ part (nodes.foldl (step previous) diff) ↔
      (∃ node ∈ nodes, picks node = true ∧ node.layer.id = id) ∨ id ∈ part diff := by
  induction nodes generalizing diff with
  | nil => simp
  | cons node rest ih =>
    rw [List.foldl_cons, ih, adds]
    by_cases picked : picks node = true
    · rw [if_pos picked, mem_insertText]
      simp only [List.mem_cons, exists_eq_or_imp, picked, true_and]
      rw [eq_comm (a := id), or_left_comm, or_assoc]
    · simp [picked]

theorem sorted_foldl_step (adds : ∀ diff node, part (step previous diff node) =
      if picks node then insertText node.layer.id (part diff) else part diff)
    (nodes : List (Node α)) {diff : Diff} (sorted : (part diff).Pairwise (· < ·)) :
    (part (nodes.foldl (step previous) diff)).Pairwise (· < ·) := by
  induction nodes generalizing diff with
  | nil => exact sorted
  | cons node rest ih =>
    rw [List.foldl_cons]
    refine ih ?_
    rw [adds]
    split
    · exact sorted_insertText sorted
    · exact sorted

/-- What was removed is found after all nodes were compared, and changes no other part. -/
private theorem part_of (kept : ∀ (diff : Diff) removed, part { diff with removed } = part diff) :
    part (of root previous) = part (root.backwards.foldl (step previous) empty) := by
  cases previous with
  | none => rfl
  | some snapshot => exact kept _ _

private theorem part_iff (kept : ∀ (diff : Diff) removed, part { diff with removed } = part diff)
    (starts : part empty = [])
    (adds : ∀ diff node, part (step previous diff node) =
      if picks node then insertText node.layer.id (part diff) else part diff) :
    (∀ id, id ∈ part (of root previous) ↔
      ∃ node ∈ Plan.emitted root, picks node = true ∧ node.layer.id = id) ∧
    (part (of root previous)).Pairwise (· < ·) := by
  rw [part_of kept]
  refine ⟨fun id => ?_, sorted_foldl_step adds _ (by simp [starts])⟩
  rw [mem_foldl_step adds, starts]
  simp [(Node.backwards_perm root).mem_iff]

theorem changed_iff (root : Node α) (previous : Option (Snapshot α)) :
    (∀ id, id ∈ (of root previous).changed ↔
      ∃ node ∈ Plan.emitted root, isChanged previous node = true ∧ node.layer.id = id) ∧
    (of root previous).changed.Pairwise (· < ·) :=
  part_iff (fun _ _ => rfl) rfl fun diff node => by rw [step_eq]

theorem unchanged_iff (root : Node α) (previous : Option (Snapshot α)) :
    (∀ id, id ∈ (of root previous).unchanged ↔
      ∃ node ∈ Plan.emitted root, isUnchanged previous node = true ∧ node.layer.id = id) ∧
    (of root previous).unchanged.Pairwise (· < ·) :=
  part_iff (fun _ _ => rfl) rfl fun diff node => by rw [step_eq]

theorem added_iff (root : Node α) (previous : Option (Snapshot α)) :
    (∀ id, id ∈ (of root previous).added ↔
      ∃ node ∈ Plan.emitted root, isAdded previous node = true ∧ node.layer.id = id) ∧
    (of root previous).added.Pairwise (· < ·) :=
  part_iff (fun _ _ => rfl) rfl fun diff node => by rw [step_eq]

theorem mem_removed {id : String} : id ∈ (of root previous).removed ↔
    (∃ snapshot, previous = some snapshot ∧ id ∈ snapshot.entries.map (·.1)) ∧
      id ∉ (Plan.emitted root).map (·.layer.id) := by
  cases previous with
  | none =>
    have none : ∀ (nodes : List (Node α)) diff,
        (nodes.foldl (step none) diff).removed = diff.removed := by
      intro nodes
      induction nodes with
      | nil => exact fun _ => rfl
      | cons node rest ih => exact fun diff => ih _
    simp only [of, none]
    simp [empty]
  | some snapshot =>
    simp only [of, List.mem_filter]
    simp [(Node.backwards_perm root).mem_iff]

/-- Nodes of one id are compared with one entry, so no two of them are given different assets. -/
theorem carried_unique {node other : Node α} {first second : String}
    (same : node.layer.id = other.layer.id) (one : carried? previous node = some first)
    (two : carried? previous other = some second) : first = second := by
  have entries : held? previous node = held? previous other := by rw [held?, held?, same]
  obtain ⟨_, first⟩ := carried_eq_some.mp one
  obtain ⟨_, second⟩ := carried_eq_some.mp two
  rw [entries] at first
  exact Option.some.inj (first.symm.trans second)

/-- What one node of an id is given is given to every unchanged node of that id. -/
theorem carried_of_same {node other : Node α} {asset : String} (same : node.layer.id = other.layer.id)
    (given : carried? previous node = some asset) (unchanged : isUnchanged previous other = true) :
    carried? previous other = some asset := by
  have entries : held? previous node = held? previous other := by rw [held?, held?, same]
  obtain ⟨_, held⟩ := carried_eq_some.mp given
  exact carried_eq_some.mpr ⟨unchanged, entries ▸ held⟩

/-- Of the nodes of an id that are given an asset the last one counts. -/
private theorem lookup_reuse_foldl (nodes : List (Node α)) (diff : Diff) (id : String) :
    (nodes.foldl (step previous) diff).reuse.lookup id =
      (nodes.reverse.findSome? fun node =>
        if node.layer.id = id then carried? previous node else none).or (diff.reuse.lookup id) := by
  induction nodes generalizing diff with
  | nil => rfl
  | cons node rest ih =>
    have own : (step previous diff node).reuse.lookup id =
        (if node.layer.id = id then carried? previous node else none).or (diff.reuse.lookup id) := by
      rw [step_eq]
      cases carried? previous node with
      | none => simp
      | some asset =>
        rw [Option.elim_some, lookup_insertSorted]
        by_cases same : id = node.layer.id
        · simp [same]
        · simp [same, Ne.symm same]
    rw [List.foldl_cons, ih, own, List.reverse_cons, List.findSome?_append, List.findSome?_singleton,
      Option.or_assoc]

/-- An asset is handed to an id if some node of the id is unchanged and its entry has that asset. -/
theorem lookup_reuse {id asset : String} : (of root previous).reuse.lookup id = some asset ↔
    ∃ node ∈ Plan.emitted root, node.layer.id = id ∧ carried? previous node = some asset := by
  have found : (of root previous).reuse = (root.backwards.foldl (step previous) empty).reuse := by
    cases previous <;> rfl
  have listed : ∀ node, node ∈ root.backwards.reverse ↔ node ∈ Plan.emitted root :=
    fun node => List.mem_reverse.trans (Node.backwards_perm root).mem_iff
  rw [found, lookup_reuse_foldl, show empty.reuse.lookup id = none from rfl, Option.or_none]
  constructor
  · intro given
    obtain ⟨node, member, held⟩ := List.exists_of_findSome?_eq_some given
    obtain ⟨same, carried⟩ := Option.ite_none_right_eq_some.mp held
    exact ⟨node, (listed node).mp member, same, carried⟩
  · rintro ⟨node, live, same, carried⟩
    cases given : root.backwards.reverse.findSome? fun node =>
        if node.layer.id = id then carried? previous node else none with
    | none =>
      have nothing := List.findSome?_eq_none_iff.mp given node ((listed node).mpr live)
      simp [same, carried] at nothing
    | some other =>
      obtain ⟨late, _, held⟩ := List.exists_of_findSome?_eq_some given
      obtain ⟨equal, handed⟩ := Option.ite_none_right_eq_some.mp held
      rw [carried_unique (equal.trans same.symm) handed carried]

end Parts

end Diff
end DesignCompiler
