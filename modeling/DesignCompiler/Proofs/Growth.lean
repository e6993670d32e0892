import DesignCompiler.Proofs.Evaluation
import DesignCompiler.Proofs.Readback

/-!
Arenas as they grow: parents first, and each property once. Such an arena can be built by edits that are
read off it, and its document has a place for each of its instances.
-/
namespace DesignCompiler

variable {α : Type}

namespace Arena

/-- Parents stand before their children, and no instance has a property twice. -/
structure Grown (arena : Arena α) : Prop where
  parent {position above : Nat} {inst : Instance α} (found : arena.get? position = some inst)
    (below : inst.parent = some above) : above < position
  keys {inst : Instance α} (member : inst ∈ arena.instances) : (inst.properties.map (·.1)).Nodup

theorem grown_plant (drawn : Drawn α) : (Arena.empty.plant none drawn.item).Grown where
  parent {position above inst} found below := by
    obtain ⟨entry, member, rfl, rfl⟩ := get?_plant.mp found
    obtain ⟨host, first, rfl⟩ := Option.map_eq_some_iff.mp below
    exact (Drawn.behind_entries 0 [] (by simp) drawn member).2 host (List.mem_of_mem_head? first)
  keys {inst} member := by
    rw [instances_plant] at member
    obtain ⟨entry, _, rfl⟩ := List.mem_map.mp member
    exact Properties.nodup_setAll (by simp) _

end Arena

namespace Edit

/-- The edits that insert an instance at a position and set its properties. -/
def ofInstance (inst : Instance α) (position : Nat) : List (Edit α) :=
  .insert inst.className inst.name inst.parent ::
    inst.properties.map fun property => .set position property.1 property.2

/-- The edits that insert some instances, one after the other. -/
def ofInstances (instances : List (Instance α)) : List (Edit α) :=
  instances.zipIdx.flatMap fun entry => ofInstance entry.1 entry.2

theorem ofInstances_concat (front : List (Instance α)) (last : Instance α) :
    ofInstances (front ++ [last]) = ofInstances front ++ ofInstance last front.length := by
  simp [ofInstances, List.zipIdx_append]

theorem literal_ofInstances {edit : Edit α} {instances : List (Instance α)}
    (member : edit ∈ ofInstances instances) :
    ∃ inst ∈ instances, edit.literal = inst.className ∨ edit.literal ∈ inst.properties.map (·.1) := by
  obtain ⟨⟨inst, position⟩, listed, member⟩ := List.mem_flatMap.mp member
  have present : inst ∈ instances := List.mem_of_getElem? (List.mem_zipIdx_iff_getElem?.mp listed)
  refine ⟨inst, present, ?_⟩
  rcases List.mem_cons.mp member with rfl | member
  · exact .inl rfl
  · obtain ⟨property, held, rfl⟩ := List.mem_map.mp member
    exact .inr (List.mem_map_of_mem held)

theorem arrivals_ofInstance (inst : Instance α) (position : Nat) :
    arrivals (ofInstance inst position) = [{ inst with properties := [] }] := by
  have settled : (inst.properties.map fun property => Edit.set position property.1 property.2).filterMap
      arrival? = [] := by
    rw [List.filterMap_map]
    exact List.filterMap_eq_nil_iff.mpr fun _ _ => rfl
  rw [arrivals, ofInstance, List.filterMap_cons, settled]
  rfl

theorem length_arrivals (instances : List (Instance α)) :
    (arrivals (ofInstances instances)).length = instances.length := by
  induction instances using List.reverseRecOn with
  | nil => rfl
  | append_singleton front last ih =>
    rw [ofInstances_concat, arrivals_append, arrivals_ofInstance, List.length_append, ih, List.length_append]
    rfl

theorem Valid.sets {edits : List (Edit α)} (valid : Valid edits) {position : Nat}
    (present : position < (arrivals edits).length) (changes : List (String × Property α)) :
    Valid (edits ++ changes.map fun change => .set position change.1 change.2) := by
  induction changes generalizing edits with
  | nil => simpa using valid
  | cons change rest ih =>
    have same : arrivals (edits ++ [.set position change.1 change.2]) = arrivals edits := by
      rw [arrivals_append]
      exact List.append_nil _
    have within : (Edit.set position change.1 change.2).Within (arrivals edits).length := present
    have next := ih (valid.snoc within) (same ▸ present)
    rwa [List.append_assoc] at next

theorem Valid.ofInstance {edits : List (Edit α)} (valid : Valid edits) {inst : Instance α}
    (known : ∀ above, inst.parent = some above → above < (arrivals edits).length) :
    Valid (edits ++ ofInstance inst (arrivals edits).length) := by
  have within : Within (arrivals edits).length (insert inst.className inst.name inst.parent : Edit α) := known
  have inserted := valid.snoc within
  have one : (arrivals (edits ++ [.insert inst.className inst.name inst.parent])).length =
      (arrivals edits).length + 1 := by
    rw [arrivals_append, List.length_append]
    rfl
  have present : (arrivals edits).length <
      (arrivals (edits ++ [.insert inst.className inst.name inst.parent])).length := by omega
  have done := inserted.sets present inst.properties
  rwa [List.append_assoc] at done

end Edit

namespace Arena

/-- The edits that an arena is built by. -/
def edits (arena : Arena α) : List (Edit α) := Edit.ofInstances arena.instances

/-- What stands at the front of an arena that grew, grew as well. -/
theorem Grown.front {front : List (Instance α)} {last : Instance α} (grown : Grown ⟨front ++ [last]⟩) :
    Grown ⟨front⟩ where
  parent {position above inst} found below := by
    have present := (List.getElem?_eq_some_iff.mp found).1
    have still : get? ⟨front ++ [last]⟩ position = some inst := (List.getElem?_append_left present).trans found
    exact grown.parent still below
  keys member := grown.keys (List.mem_append_left _ member)

theorem Grown.parent_last {front : List (Instance α)} {last : Instance α} (grown : Grown ⟨front ++ [last]⟩)
    {above : Nat} (below : last.parent = some above) : above < front.length := by
  have found : get? ⟨front ++ [last]⟩ front.length = some last := List.getElem?_concat_length ..
  exact grown.parent found below

theorem build_append (front back : List (Edit α)) :
    build (front ++ back) = back.foldl Edit.apply (build front) := List.foldl_append

theorem Grown.valid {arena : Arena α} (grown : arena.Grown) : Edit.Valid arena.edits := by
  obtain ⟨instances⟩ := arena
  induction instances using List.reverseRecOn with
  | nil => exact .nil
  | append_singleton front last ih =>
    rw [edits, Edit.ofInstances_concat, ← Edit.length_arrivals front]
    refine (ih grown.front).ofInstance fun above below => ?_
    rw [edits, Edit.length_arrivals]
    exact grown.parent_last below

theorem Grown.build_edits {arena : Arena α} (grown : arena.Grown) : build arena.edits = arena := by
  obtain ⟨instances⟩ := arena
  induction instances using List.reverseRecOn with
  | nil => rfl
  | append_singleton front last ih =>
    have parent : last.parent.filter (fun position => decide (position < front.length)) = last.parent := by
      cases below : last.parent with
      | none => rfl
      | some above => simp [grown.parent_last below]
    have properties : Properties.setAll [] last.properties = last.properties :=
      Properties.setAll_fresh (grown.keys (List.mem_append_right _ (List.mem_singleton_self _)))
    have built : build (Edit.ofInstances front) = ⟨front⟩ := ih grown.front
    have sets := foldl_set front ⟨last.className, last.name, [], last.parent⟩ last.properties
    rw [edits, Edit.ofInstances_concat, build_append, built, Edit.ofInstance, List.foldl_cons, Edit.apply,
      insert, size, parent, List.foldl_map]
    simp only [Edit.apply]
    rw [sets, properties]

variable [Scalar α]

omit [Scalar α] in
theorem Grown.exists_arrival {arena : Arena α} (grown : arena.Grown) {position : Nat} {inst : Instance α}
    {parent : Option Nat} (found : arena.get? position = some inst) (below : inst.parent = parent) :
    ∃ arrival, (Edit.arrivals arena.edits)[position]? = some arrival ∧ arrival.parent = parent := by
  have same := grown.valid.parents_build position
  rw [grown.build_edits, show arena.instances[position]? = some inst from found, Option.map_some, below] at same
  exact Option.map_eq_some_iff.mp same.symm

omit [Scalar α] in
theorem Grown.mem_children {arena : Arena α} (grown : arena.Grown) {position above : Nat}
    {inst : Instance α} (found : arena.get? position = some inst) (below : inst.parent = some above) :
    position ∈ arena.children above := by
  have listed : position ∈ Edit.offspring arena.edits (some above) ↔ _ := Edit.mem_offspring
  rw [← grown.valid.children_build, grown.build_edits] at listed
  exact listed.mpr (grown.exists_arrival found below)

omit [Scalar α] in
theorem Grown.mem_roots {arena : Arena α} (grown : arena.Grown) {position : Nat} {inst : Instance α}
    (found : arena.get? position = some inst) (top : inst.parent = none) : position ∈ arena.roots := by
  have listed : position ∈ Edit.offspring arena.edits none ↔ _ := Edit.mem_offspring
  rw [← grown.valid.roots_build, grown.build_edits] at listed
  exact listed.mpr (grown.exists_arrival found top)

open Document (item opening)

theorem subset_join (write : Nat → String) {positions : List Nat} {position : Nat}
    (member : position ∈ positions) : (write position).toList ⊆ (String.join (positions.map write)).toList := by
  intro c inside
  rw [String.toList_join]
  exact List.mem_flatMap.mpr ⟨_, List.mem_map_of_mem member, inside⟩

/-- The item of every instance stands somewhere in the document, with enough depth left for what is below
it. -/
theorem Grown.exists_item {arena : Arena α} (grown : arena.Grown) {position : Nat} {inst : Instance α}
    (found : arena.get? position = some inst) : ∃ fuel depth, arena.size ≤ position + fuel ∧
      (item arena fuel depth position).toList ⊆ arena.document.toList := by
  induction position using Nat.strong_induction_on generalizing inst with
  | _ position ih =>
    have present : position < arena.size := (List.getElem?_eq_some_iff.mp found).1
    cases below : inst.parent with
    | none =>
      refine ⟨arena.size, 1, by omega, fun c member => ?_⟩
      have among := subset_join (item arena arena.size 1) (grown.mem_roots found below) member
      simp only [document, String.toList_append, List.mem_append]
      exact .inl (.inr among)
    | some above =>
      have behind := grown.parent found below
      obtain ⟨host, foundHost⟩ : ∃ host, arena.get? above = some host :=
        ⟨_, List.getElem?_eq_getElem (Nat.lt_trans behind present)⟩
      obtain ⟨fuel, depth, enough, inside⟩ := ih above behind foundHost
      obtain ⟨left, rfl⟩ : ∃ left, fuel = left + 1 := ⟨fuel - 1, by omega⟩
      refine ⟨left, depth + 1, by omega, fun c member => inside ?_⟩
      have among := subset_join (item arena left (depth + 1)) (grown.mem_children found below) member
      rw [item, foundHost]
      simp only [String.toList_append, List.mem_append]
      exact .inl (.inr among)

/-- What an instance shows of itself is in the document. -/
theorem Grown.exists_opening {arena : Arena α} (grown : arena.Grown) {position : Nat} {inst : Instance α}
    (found : arena.get? position = some inst) :
    ∃ depth, (opening depth position inst).toList ⊆ arena.document.toList := by
  obtain ⟨fuel, depth, enough, inside⟩ := grown.exists_item found
  have present : position < arena.size := (List.getElem?_eq_some_iff.mp found).1
  obtain ⟨left, rfl⟩ : ∃ left, fuel = left + 1 := ⟨fuel - 1, by omega⟩
  refine ⟨depth, fun c member => inside ?_⟩
  rw [item, found]
  simp only [String.toList_append, List.mem_append]
  exact .inl (.inl member)

end Arena
end DesignCompiler
