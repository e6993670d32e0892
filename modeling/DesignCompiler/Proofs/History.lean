import DesignCompiler.Proofs.Association
import Mathlib.Data.List.Induction

/-!
Arenas by the edits that build them. Which instances there are, what each of them holds and which
stand below it, is read off the edits: the last value of each property, in the order in which the
properties were first set, and the children in the order in which they were inserted.
-/
namespace DesignCompiler

variable {α : Type}

namespace Properties

/-- The value last set for each property, in the order in which the properties were first set. -/
def latest (changes : List (String × Property α)) : Properties α :=
  (changes.map (·.1)).eraseDups.filterMap fun key => (changes.reverse.lookup key).map (key, ·)

theorem keys_setAll (changes : List (String × Property α)) :
    (setAll [] changes).map (·.1) = (changes.map (·.1)).eraseDups := by
  induction changes using List.reverseRecOn with
  | nil => rfl
  | append_singleton front change ih =>
    have step : setAll [] (front ++ [change]) = set change.1 change.2 (setAll [] front) :=
      setAll_append [] front [change]
    rw [step, keys_set, ih, List.map_append, List.eraseDups_append]
    by_cases known : change.1 ∈ front.map (·.1)
    · rw [if_pos (List.mem_eraseDups.mpr known)]
      simp [List.removeAll, known]
    · rw [if_neg fun member => known (List.mem_eraseDups.mp member)]
      simp [List.removeAll, known, List.eraseDups_cons]

theorem lookup_setAll_reverse (changes : List (String × Property α)) (key : String) :
    (setAll [] changes).lookup key = changes.reverse.lookup key := by
  induction changes using List.reverseRecOn with
  | nil => rfl
  | append_singleton front change ih =>
    have step : setAll [] (front ++ [change]) = set change.1 change.2 (setAll [] front) :=
      setAll_append [] front [change]
    rw [step, lookup_set, ih, List.reverse_append]
    exact (lookup_cons_eq _ _ _ _).symm

/-- Entries with distinct keys are given by the keys and the entry of each. -/
theorem eq_filterMap_lookup {properties : Properties α} (distinct : (properties.map (·.1)).Nodup) :
    (properties.map (·.1)).filterMap (fun key => (properties.lookup key).map (key, ·)) =
      properties := by
  induction properties with
  | nil => rfl
  | cons entry rest ih =>
    obtain ⟨fresh, distinct⟩ := List.nodup_cons.mp distinct
    have others : ∀ key ∈ rest.map (·.1), (entry :: rest).lookup key = rest.lookup key := by
      intro key member
      have differ : key ≠ entry.1 := by
        rintro rfl
        exact fresh member
      rw [lookup_cons_eq, if_neg differ]
    have same := List.filterMap_congr fun key member =>
      congrArg (Option.map fun value => (key, value)) (others key member)
    rw [List.map_cons, List.filterMap_cons, same, ih distinct, lookup_cons_eq, if_pos rfl]
    rfl

theorem setAll_nil (changes : List (String × Property α)) : setAll [] changes = latest changes := by
  have distinct : ((setAll [] changes).map (·.1)).Nodup := nodup_setAll (by simp) changes
  rw [← eq_filterMap_lookup distinct, keys_setAll]
  simp only [lookup_setAll_reverse]
  rfl

end Properties

/-- A change to an arena. -/
inductive Edit (α : Type) where
  | insert (className name : String) (parent : Option Nat)
  | set (referent : Nat) (key : String) (value : Property α)

namespace Edit

def apply (arena : Arena α) : Edit α → Arena α
  | insert className name parent => arena.insert className name parent
  | set referent key value => arena.set referent key value

/-- An instance as it is inserted. -/
def arrival? : Edit α → Option (Instance α)
  | insert className name parent => some ⟨className, name, [], parent⟩
  | set .. => none

/-- What the edit sets on an instance. -/
def setting? (position : Nat) : Edit α → Option (String × Property α)
  | insert .. => none
  | set referent key value => if referent = position then some (key, value) else none

/-- The edit is about instances that are there. -/
def Within (count : Nat) : Edit α → Prop
  | insert _ _ parent => ∀ position ∈ parent, position < count
  | set referent _ _ => referent < count

instance (count : Nat) : (edit : Edit α) → Decidable (edit.Within count)
  | insert _ _ parent => inferInstanceAs (Decidable (∀ position ∈ parent, position < count))
  | set referent _ _ => inferInstanceAs (Decidable (referent < count))

/-- The instances by position, as they are inserted. -/
def arrivals (edits : List (Edit α)) : List (Instance α) := edits.filterMap arrival?

/-- What is set on an instance, one after the other. -/
def settings (edits : List (Edit α)) (position : Nat) : List (String × Property α) :=
  edits.filterMap (setting? position)

/-- The instances inserted with a given parent, or with none, in order. -/
def offspring (edits : List (Edit α)) (parent : Option Nat) : List Nat :=
  (List.range (arrivals edits).length).filter fun position =>
    (arrivals edits)[position]?.map (·.parent) = some parent

/-- Each edit is about instances that the edits before it have inserted. -/
inductive Valid : List (Edit α) → Prop
  | nil : Valid []
  | snoc {edits : List (Edit α)} {edit : Edit α} (valid : Valid edits)
      (within : edit.Within (arrivals edits).length) : Valid (edits ++ [edit])

end Edit

/-- The arena after edits to an empty one. -/
def Arena.build (edits : List (Edit α)) : Arena α := edits.foldl Edit.apply Arena.empty

namespace Edit

/-- An instance after all edits. -/
def final (edits : List (Edit α)) (position : Nat) (arrival : Instance α) : Instance α :=
  { arrival with properties := Properties.latest (settings edits position) }

variable {edits : List (Edit α)}

theorem arrivals_append (front back : List (Edit α)) :
    arrivals (front ++ back) = arrivals front ++ arrivals back := List.filterMap_append

theorem settings_append (front back : List (Edit α)) (position : Nat) :
    settings (front ++ back) position = settings front position ++ settings back position :=
  List.filterMap_append

theorem Valid.settings_eq_nil (valid : Valid edits) {position : Nat}
    (absent : (arrivals edits).length ≤ position) : settings edits position = [] := by
  induction valid with
  | nil => rfl
  | @snoc edits edit valid within ih =>
    rw [arrivals_append, List.length_append] at absent
    rw [settings_append, ih (by omega), List.nil_append]
    cases edit with
    | insert => rfl
    | set referent key value =>
      have differ : referent ≠ position := by
        have within : referent < (arrivals edits).length := within
        omega
      simp [settings, setting?, differ]

/-- A parent stands before its children. -/
theorem Valid.parent_lt (valid : Valid edits) {position parent : Nat} {arrival : Instance α}
    (found : (arrivals edits)[position]? = some arrival) (below : arrival.parent = some parent) :
    parent < position := by
  induction valid with
  | nil => cases found
  | @snoc edits edit valid within ih =>
    rw [arrivals_append] at found
    by_cases old : position < (arrivals edits).length
    · rw [List.getElem?_append_left old] at found
      exact ih found
    · rw [List.getElem?_append_right (by omega)] at found
      cases edit with
      | set => cases found
      | insert className name above =>
        obtain rfl := List.mem_singleton.mp (List.mem_of_getElem? found)
        exact Nat.lt_of_lt_of_le (within parent below) (by omega)

theorem final_insert (edits : List (Edit α)) (className name : String) (parent : Option Nat) :
    final (edits ++ [insert className name parent]) = final edits := by
  funext position arrival
  have same : settings (edits ++ [insert className name parent]) position = settings edits position := by
    rw [settings_append]
    exact List.append_nil _
  rw [final, same]
  rfl

theorem final_set (edits : List (Edit α)) (referent : Nat) (key : String) (value : Property α)
    (position : Nat) (arrival : Instance α) :
    final (edits ++ [set referent key value]) position arrival =
      if referent = position then
        { final edits position arrival with
          properties := (final edits position arrival).properties.set key value }
      else final edits position arrival := by
  rw [final, settings_append]
  by_cases here : referent = position
  · have single : settings [set referent key value] position = [(key, value)] := by
      simp [settings, setting?, here]
    rw [single, if_pos here, ← Properties.setAll_nil, Properties.setAll_append]
    simp only [final, ← Properties.setAll_nil]
    rfl
  · have none : settings [set referent key value] position = [] := by
      simp [settings, setting?, here]
    rw [none, List.append_nil, if_neg here]
    rfl

/-- Nothing is set on an instance before it is there. -/
theorem Valid.final_new (valid : Valid edits) (className name : String) (parent : Option Nat) :
    final edits (arrivals edits).length ⟨className, name, [], parent⟩ =
      ⟨className, name, [], parent⟩ := by
  rw [final, valid.settings_eq_nil (Nat.le_refl _)]
  rfl

/-- The instances of an arena are those inserted, with what was last set on each. -/
theorem Valid.instances_build (valid : Valid edits) :
    (Arena.build edits).instances = (arrivals edits).mapIdx (final edits) := by
  induction valid with
  | nil => rfl
  | @snoc edits edit valid within ih =>
    have built : Arena.build (edits ++ [edit]) = apply (Arena.build edits) edit := List.foldl_append
    rw [built]
    -- an insertion adds an arrival behind those there are; a setting adds none and shows in its own
    cases edit with
    | insert className name parent =>
      have size : (Arena.build edits).size = (arrivals edits).length := by
        rw [Arena.size, ih, List.length_mapIdx]
      have known : parent.filter (fun position => decide (position < (Arena.build edits).size)) =
          parent := by
        cases parent with
        | none => rfl
        | some position =>
          have present : position < (Arena.build edits).size := size ▸ within position rfl
          simp [present]
      have arrived : arrivals (edits ++ [insert className name parent]) =
          arrivals edits ++ [⟨className, name, [], parent⟩] := arrivals_append edits _
      simp only [apply, Arena.insert, known, ih, final_insert, arrived, List.mapIdx_concat,
        valid.final_new]
    | set referent key value =>
      have arrived : arrivals (edits ++ [set referent key value]) = arrivals edits := by
        rw [arrivals_append]
        exact List.append_nil _
      rw [apply, Arena.set, ih]
      refine List.ext_getElem? fun position => ?_
      rw [List.getElem?_modify, List.getElem?_mapIdx, List.getElem?_mapIdx, arrived]
      cases (arrivals edits)[position]? with
      | none => rfl
      | some arrival =>
        simp only [Option.map_some, final_set]
        split <;> rfl

theorem withParent_eq_filter (parent : Option Nat) (start : Nat) (instances : List (Instance α)) :
    Arena.withParent parent start instances = (List.range' start instances.length).filter fun position =>
      instances[position - start]?.map (·.parent) = some parent := by
  induction instances generalizing start with
  | nil => rfl
  | cons inst rest ih =>
    have later : ∀ position ∈ List.range' (start + 1) rest.length,
        decide (rest[position - (start + 1)]?.map (·.parent) = some parent) =
          decide ((inst :: rest)[position - start]?.map (·.parent) = some parent) := by
      intro position member
      have behind : start + 1 ≤ position := (List.mem_range'_1.mp member).1
      rw [show position - start = position - (start + 1) + 1 by omega, List.getElem?_cons_succ]
    rw [Arena.withParent, ih, List.length_cons, List.range'_succ, List.filter_cons, Nat.sub_self,
      List.filter_congr later]
    simp

theorem Valid.parents_build (valid : Valid edits) (position : Nat) :
    (Arena.build edits).instances[position]?.map (·.parent) =
      (arrivals edits)[position]?.map (·.parent) := by
  rw [valid.instances_build, List.getElem?_mapIdx, Option.map_map]
  rfl

theorem Valid.length_build (valid : Valid edits) :
    (Arena.build edits).instances.length = (arrivals edits).length := by
  rw [valid.instances_build, List.length_mapIdx]

theorem Valid.roots_build (valid : Valid edits) : (Arena.build edits).roots = offspring edits none := by
  rw [Arena.roots, withParent_eq_filter, valid.length_build, offspring, List.range_eq_range']
  simp only [Nat.sub_zero, valid.parents_build]

theorem Valid.children_build (valid : Valid edits) (parent : Nat) :
    (Arena.build edits).children parent = offspring edits (some parent) := by
  -- What stands before the parent or is the parent has another parent.
  have before : ∀ position ∈ List.range (min (parent + 1) (arrivals edits).length),
      ¬ decide ((arrivals edits)[position]?.map (·.parent) = some (some parent)) = true := by
    intro position member child
    obtain ⟨arrival, found, below⟩ := Option.map_eq_some_iff.mp (of_decide_eq_true child)
    have later := valid.parent_lt found below
    have early := List.mem_range.mp member
    omega
  have behind : ∀ position ∈ List.range' (parent + 1) ((arrivals edits).length - (parent + 1)),
      decide (((Arena.build edits).instances.drop (parent + 1))[position - (parent + 1)]?.map
          (·.parent) = some (some parent)) =
        decide ((arrivals edits)[position]?.map (·.parent) = some (some parent)) := by
    intro position member
    have later := (List.mem_range'_1.mp member).1
    rw [List.getElem?_drop, show parent + 1 + (position - (parent + 1)) = position by omega,
      valid.parents_build]
  have split : List.range (arrivals edits).length =
      List.range (min (parent + 1) (arrivals edits).length) ++
        List.range' (parent + 1) ((arrivals edits).length - (parent + 1)) := by
    have dropped : (List.range (arrivals edits).length).drop (parent + 1) =
        List.range' (parent + 1) ((arrivals edits).length - (parent + 1)) := by
      simp [List.range_eq_range']
    rw [← List.take_range, ← dropped, List.take_append_drop]
  rw [Arena.children, withParent_eq_filter, List.length_drop, valid.length_build, offspring, split,
    List.filter_append, List.filter_eq_nil_iff.mpr before, List.nil_append, List.filter_congr behind]

theorem mem_offspring {parent : Option Nat} {position : Nat} :
    position ∈ offspring edits parent ↔
      ∃ arrival, (arrivals edits)[position]? = some arrival ∧ arrival.parent = parent := by
  rw [offspring, List.mem_filter, List.mem_range, decide_eq_true_eq, Option.map_eq_some_iff]
  constructor
  · exact fun found => found.2
  · rintro ⟨arrival, found, below⟩
    exact ⟨(List.getElem?_eq_some_iff.mp found).1, arrival, found, below⟩

theorem Valid.lt_of_mem_offspring (valid : Valid edits) {parent position : Nat}
    (member : position ∈ offspring edits (some parent)) : parent < position := by
  obtain ⟨arrival, found, below⟩ := mem_offspring.mp member
  exact valid.parent_lt found below

theorem nodup_offspring (edits : List (Edit α)) (parent : Option Nat) :
    (offspring edits parent).Nodup :=
  List.nodup_range.filter _

theorem count_offspring (edits : List (Edit α)) (parent : Option Nat) (position : Nat) :
    (offspring edits parent).count position =
      if (arrivals edits)[position]?.map (·.parent) = some parent then 1 else 0 := by
  rw [(nodup_offspring edits parent).count]
  simp only [mem_offspring, Option.map_eq_some_iff]

end Edit
end DesignCompiler
