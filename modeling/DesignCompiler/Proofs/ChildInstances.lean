import DesignCompiler.Proofs.Evaluation

/-!
The children of an instance. An item that is planted has, as an instance, the instances of the items in
it for children, in the same order; so what is asked about children in an arena is asked about the items
of a drawing.
-/
namespace DesignCompiler

variable {α : Type}

namespace Drawn

/-- The items of a list where they stand, without what lies below them. -/
def tops (own : Nat) (above : List (Nat × Origin)) : List (Drawn α) → List (Entry α)
  | [] => []
  | drawn :: rest => ⟨own, above, drawn⟩ :: tops (own + drawn.size) above rest

@[simp] theorem map_drawn_tops (own : Nat) (above : List (Nat × Origin)) (drawns : List (Drawn α)) :
    (tops own above drawns).map (·.drawn) = drawns := by
  induction drawns generalizing own with
  | nil => rfl
  | cons drawn rest ih => simp [tops, ih]

theorem above_of_tops {own : Nat} {above : List (Nat × Origin)} {drawns : List (Drawn α)}
    {entry : Entry α} (member : entry ∈ tops own above drawns) : entry.above = above := by
  induction drawns generalizing own with
  | nil => simp [tops] at member
  | cons drawn rest ih =>
    rcases List.mem_cons.mp member with rfl | later
    · rfl
    · exact ih later

theorem map_drawn_filter_tops (keep : Drawn α → Bool) (own : Nat) (above : List (Nat × Origin))
    (drawns : List (Drawn α)) :
    ((tops own above drawns).filter fun entry => keep entry.drawn).map (·.drawn) =
      drawns.filter keep := by
  conv_rhs => rw [← map_drawn_tops own above drawns, List.filter_map]
  rfl

end Drawn

/-- The items directly in an entry, where they stand. -/
def Entry.offspring (entry : Entry α) : List (Entry α) :=
  Drawn.tops (entry.position + 1) ((entry.position, entry.drawn.origin) :: entry.above)
    entry.drawn.children

/-- An entry lies directly below a position. -/
def Entry.isBelow (high : Nat) (entry : Entry α) : Bool := entry.row.parent == some high

namespace Drawn

theorem isBelow_iff {high : Nat} {entry : Entry α} :
    entry.isBelow high = true ↔ ∃ origin rest, entry.above = (high, origin) :: rest := by
  rw [Entry.isBelow, Entry.row, beq_iff_eq]
  cases entry.above with
  | nil => simp
  | cons host rest =>
    obtain ⟨position, origin⟩ := host
    simp [eq_comm]

theorem bounds_entriesAll {own : Nat} {above : List (Nat × Origin)} {drawns : List (Drawn α)}
    {entry : Entry α} (member : entry ∈ entriesAll own above drawns) :
    own ≤ entry.position ∧ entry.position < own + sizes drawns := by
  have listed : entry.position ∈ (entriesAll own above drawns).map (·.position) :=
    List.mem_map_of_mem member
  rw [positions_entriesAll, List.mem_range'_1] at listed
  exact listed

theorem bounds_entries {own : Nat} {above : List (Nat × Origin)} {drawn : Drawn α}
    {entry : Entry α} (member : entry ∈ drawn.entries own above) :
    own ≤ entry.position ∧ entry.position < own + drawn.size := by
  have alone : entry ∈ entriesAll own above [drawn] := by simpa [entriesAll] using member
  simpa [sizes] using bounds_entriesAll alone

/-- What lies directly below a position that some items lie below, are those items. -/
theorem filter_direct {own high : Nat} {origin : Origin} {above : List (Nat × Origin)}
    (low : high < own) (drawns : List (Drawn α)) :
    (entriesAll own ((high, origin) :: above) drawns).filter (Entry.isBelow high) =
      tops own ((high, origin) :: above) drawns := by
  induction drawns generalizing own with
  | nil => rfl
  | cons drawn rest ih =>
    have further : ((drawn.entries own ((high, origin) :: above)).filter (Entry.isBelow high)) =
        [⟨own, (high, origin) :: above, drawn⟩] := by
      obtain ⟨label, className, name, properties, children⟩ := drawn
      rw [entries, List.filter_cons_of_pos (isBelow_iff.mpr ⟨origin, above, rfl⟩),
        List.filter_eq_nil_iff.mpr]
      intro entry inside below
      obtain ⟨_, _, lies⟩ := isBelow_iff.mp below
      rcases above_entriesAll _ _ children inside with direct | ⟨host, present, direct⟩
      · rw [lies] at direct
        have same : high = own := congrArg Prod.fst (List.cons.inj direct).1
        omega
      · rw [lies] at direct
        have same : high = host.position := congrArg Prod.fst (List.cons.inj direct).1
        have bounds := bounds_entriesAll present
        omega
    rw [entriesAll, List.filter_append, further, ih (by omega), tops, List.singleton_append]

/-- Nothing among some items lies directly below a position outside them. -/
theorem filter_outside {own high : Nat} {above : List (Nat × Origin)} {drawns : List (Drawn α)}
    (apart : ∀ host ∈ above, host.1 ≠ high) (outside : high < own ∨ own + sizes drawns ≤ high) :
    (entriesAll own above drawns).filter (Entry.isBelow high) = [] := by
  rw [List.filter_eq_nil_iff]
  intro entry inside below
  obtain ⟨origin, rest, lies⟩ := isBelow_iff.mp below
  rcases above_entriesAll own above drawns inside with direct | ⟨host, present, direct⟩
  · exact apart (high, origin) (by simp [← direct, lies]) rfl
  · rw [lies] at direct
    have same : high = host.position := congrArg Prod.fst (List.cons.inj direct).1
    have bounds := bounds_entriesAll present
    omega

mutual

/-- What lies directly below an entry of an item is what its own item has in it. -/
theorem filter_entries {host : Entry α} (own : Nat) (above : List (Nat × Origin))
    (behind : ∀ entry ∈ above, entry.1 < own) : (drawn : Drawn α) →
    host ∈ drawn.entries own above →
    (drawn.entries own above).filter (Entry.isBelow host.position) = host.offspring
  | mk origin className name properties children, member => by
    rw [entries] at member ⊢
    have first : ∀ position, own ≤ position → ¬ Entry.isBelow position
        (⟨own, above, mk origin className name properties children⟩ : Entry α) = true := by
      intro position least below
      obtain ⟨label, rest, lies⟩ := isBelow_iff.mp below
      have low := behind (position, label) (by
        change above = _ at lies
        simp [lies])
      exact absurd low (Nat.not_lt.mpr least)
    rcases List.mem_cons.mp member with rfl | inside
    · rw [List.filter_cons_of_neg (first own (Nat.le_refl _)), filter_direct (Nat.lt_succ_self own)]
      rfl
    · have bounds := bounds_entriesAll inside
      rw [List.filter_cons_of_neg (first host.position (by omega))]
      refine filter_entriesAll (own + 1) ((own, origin) :: above) ?_ children inside
      intro entry lies
      rcases List.mem_cons.mp lies with rfl | lies
      · exact Nat.lt_succ_self _
      · exact Nat.lt_succ_of_lt (behind entry lies)

theorem filter_entriesAll {host : Entry α} (own : Nat) (above : List (Nat × Origin))
    (behind : ∀ entry ∈ above, entry.1 < own) : (drawns : List (Drawn α)) →
    host ∈ entriesAll own above drawns →
    (entriesAll own above drawns).filter (Entry.isBelow host.position) = host.offspring
  | [], member => by simp [entriesAll] at member
  | drawn :: rest, member => by
    have apart : ∀ position, own ≤ position → ∀ entry ∈ above, entry.1 ≠ position :=
      fun position least entry lies same => absurd (behind entry lies) (by omega)
    have alone : entriesAll own above [drawn] = drawn.entries own above := by simp [entriesAll]
    rw [entriesAll] at member
    rw [entriesAll, List.filter_append]
    rcases List.mem_append.mp member with inside | later
    · have bounds := bounds_entries inside
      rw [filter_entries own above behind drawn inside,
        filter_outside (apart _ bounds.1) (.inl bounds.2), List.append_nil]
    · have bounds := bounds_entriesAll later
      have none : (drawn.entries own above).filter (Entry.isBelow host.position) = [] := by
        rw [← alone]
        exact filter_outside (apart _ (by omega)) (.inr (by simpa [sizes] using bounds.1))
      rw [none, List.nil_append]
      exact filter_entriesAll (own + drawn.size) above
        (fun entry lies => Nat.lt_add_right _ (behind entry lies)) rest later

end

end Drawn

namespace Arena

variable {tree : Drawn α}

theorem withParent_map_row (high start : Nat) (entries : List (Entry α))
    (positions : entries.map (·.position) = List.range' start entries.length) :
    withParent (some high) start (entries.map Entry.row) =
      (entries.filter (Entry.isBelow high)).map (·.position) := by
  induction entries generalizing start with
  | nil => rfl
  | cons entry rest ih =>
    rw [List.length_cons, List.range'_succ, List.map_cons, List.cons.injEq] at positions
    obtain ⟨rfl, later⟩ := positions
    rw [List.map_cons, withParent, ih _ later]
    by_cases below : entry.row.parent = some high
    · rw [if_pos below, List.filter_cons_of_pos (by simpa [Entry.isBelow] using below), List.map_cons]
    · rw [if_neg below, List.filter_cons_of_neg (by simpa [Entry.isBelow] using below)]

theorem filter_isBelow {host : Entry α} (member : host ∈ tree.entries 0 []) :
    (tree.entries 0 []).filter (Entry.isBelow host.position) = host.offspring :=
  Drawn.filter_entries 0 [] (by simp) tree member

theorem mem_of_offspring {host entry : Entry α} (member : host ∈ tree.entries 0 [])
    (inside : entry ∈ host.offspring) : entry ∈ tree.entries 0 [] := by
  rw [← filter_isBelow member] at inside
  exact (List.mem_filter.mp inside).1

/-- The children of the instance of an item are the instances of the items in it, in order. -/
theorem children_entry {host : Entry α} (member : host ∈ tree.entries 0 []) :
    tree.arena.children host.position = host.offspring.map (·.position) := by
  have whole : (tree.entries 0 []).map (·.position) = List.range' 0 (tree.entries 0 []).length := by
    rw [Drawn.positions_entries, Drawn.length_entries]
  have rest : ((tree.entries 0 []).drop (host.position + 1)).map (·.position) =
      List.range' (host.position + 1) ((tree.entries 0 []).drop (host.position + 1)).length := by
    rw [List.map_drop, whole, List.length_drop, List.drop_range', Nat.zero_add, Nat.mul_one]
  have front : ((tree.entries 0 []).take (host.position + 1)).filter
      (Entry.isBelow host.position) = [] := by
    rw [List.filter_eq_nil_iff]
    intro entry early below
    obtain ⟨origin, _, lies⟩ := Drawn.isBelow_iff.mp below
    have late := (Drawn.behind_entries 0 [] (by simp) tree (List.mem_of_mem_take early)).2
      (host.position, origin) (by simp [lies])
    obtain ⟨index, found⟩ := List.mem_iff_getElem?.mp early
    rw [List.getElem?_take] at found
    split at found
    · have position := position_of_getElem? found
      omega
    · simp at found
  rw [children, instances_plant, ← List.map_drop, withParent_map_row _ _ _ rest,
    ← filter_isBelow member]
  conv_rhs => rw [← List.take_append_drop (host.position + 1) (tree.entries 0 []), List.filter_append,
    front, List.nil_append]

theorem get?_entry {entry : Entry α} (member : entry ∈ tree.entries 0 []) :
    tree.arena.get? entry.position = some entry.row :=
  get?_plant.mpr ⟨entry, member, rfl, rfl⟩

theorem exists_host {low high : Nat} (hangs : tree.arena.Hangs low high) :
    ∃ host ∈ tree.entries 0 [], ∃ entry ∈ host.offspring, host.position = high ∧
      entry.position = low := by
  obtain ⟨inst, found, parent⟩ := hangs
  obtain ⟨entry, member, rfl, rfl⟩ := get?_plant.mp found
  rcases Drawn.above_entries 0 [] tree member with top | ⟨host, present, lies⟩
  · simp [Entry.row, top] at parent
  · have same : host.position = high := by simpa [Entry.row, lies] using parent
    refine ⟨host, present, entry, ?_, same, rfl⟩
    rw [← filter_isBelow present, List.mem_filter]
    exact ⟨member, Drawn.isBelow_iff.mpr ⟨_, _, lies⟩⟩

/-- Every entry but that of the tree itself lies directly in another one. -/
theorem top_or_offspring {entry : Entry α} (member : entry ∈ tree.entries 0 []) :
    entry = ⟨0, [], tree⟩ ∨ ∃ host ∈ tree.entries 0 [], entry ∈ host.offspring := by
  rcases Drawn.above_entries 0 [] tree member with top | ⟨host, present, lies⟩
  · left
    obtain ⟨origin, className, name, properties, children⟩ := tree
    rw [Drawn.entries] at member
    rcases List.mem_cons.mp member with same | inside
    · exact same
    · rcases Drawn.above_entriesAll _ _ children inside with direct | ⟨host, _, direct⟩
      · simp [top] at direct
      · simp [top] at direct
  · right
    refine ⟨host, present, ?_⟩
    rw [← filter_isBelow present, List.mem_filter]
    exact ⟨member, Drawn.isBelow_iff.mpr ⟨_, _, lies⟩⟩

theorem hangs_offspring {host entry : Entry α} (member : host ∈ tree.entries 0 [])
    (inside : entry ∈ host.offspring) : tree.arena.Hangs entry.position host.position :=
  ⟨_, get?_entry (mem_of_offspring member inside), by
    rw [Entry.row, Drawn.above_of_tops inside]
    rfl⟩

theorem mem_children {low high : Nat} :
    low ∈ tree.arena.children high ↔ tree.arena.Hangs low high := by
  constructor
  · intro member
    by_cases inside : high < tree.size
    · obtain ⟨host, present, rfl⟩ : ∃ host ∈ tree.entries 0 [], host.position = high := by
        have listed : high ∈ (tree.entries 0 []).map (·.position) := by
          rw [Drawn.positions_entries, List.mem_range'_1]
          omega
        simpa using listed
      rw [children_entry present] at member
      obtain ⟨entry, below, rfl⟩ := List.mem_map.mp member
      exact hangs_offspring present below
    · rw [children, instances_plant, List.drop_of_length_le] at member
      · simp [withParent] at member
      · rw [List.length_map, Drawn.length_entries]
        omega
  · intro hangs
    obtain ⟨host, present, entry, below, rfl, rfl⟩ := exists_host hangs
    rw [children_entry present]
    exact List.mem_map_of_mem below

end Arena

/-- A whole number that a property holds. -/
def Property.int? : Property α → Option Int
  | .int value => some value
  | _ => none

/-- The classes of instances that the engine draws. -/
def guiClasses : List String := ["Frame", "ImageLabel", "TextLabel", "TextButton"]

def Instance.isGui (inst : Instance α) : Bool := guiClasses.contains inst.className

namespace Arena

/-- The whole number that an instance holds under a key. -/
def number? (arena : Arena α) (key : String) (position : Nat) : Option Int := do
  (← (← arena.get? position).property? key).int?

/-- The children of an instance that the engine draws, in order. -/
def guiChildren (arena : Arena α) (high : Nat) : List Nat :=
  (arena.children high).filter fun low => (arena.get? low).any Instance.isGui

end Arena

namespace Drawn

def isGui (drawn : Drawn α) : Bool := guiClasses.contains drawn.className

/-- The whole number that an item sets under a key. -/
def number? (key : String) (drawn : Drawn α) : Option Int :=
  ((Properties.setAll [] drawn.properties).lookup key).bind Property.int?

end Drawn

namespace Arena

variable {tree : Drawn α}

/-- The children of some classes are the items of these classes in an entry. -/
theorem filter_children_entry (keep : String → Bool) {host : Entry α} (member : host ∈ tree.entries 0 []) :
    ((tree.arena.children host.position).filter fun low =>
        (tree.arena.get? low).any fun inst => keep inst.className) =
      (host.offspring.filter fun low => keep low.drawn.className).map (·.position) := by
  rw [children_entry member, List.filter_map]
  congr 1
  refine List.filter_congr fun low inside => ?_
  rw [Function.comp_apply, get?_entry (mem_of_offspring member inside)]
  rfl

/-- The children that the engine draws are what is drawn of the items in an entry. -/
theorem guiChildren_entry {host : Entry α} (member : host ∈ tree.entries 0 []) :
    tree.arena.guiChildren host.position =
      (host.offspring.filter fun low => low.drawn.isGui).map (·.position) :=
  filter_children_entry guiClasses.contains member

/-- The numbers of the children that the engine draws are those of the items. -/
theorem map_number_guiChildren (key : String) {host : Entry α} (member : host ∈ tree.entries 0 []) :
    (tree.arena.guiChildren host.position).map (tree.arena.number? key) =
      (host.drawn.children.filter Drawn.isGui).map (Drawn.number? key) := by
  have each : ∀ low ∈ host.offspring.filter (fun low => low.drawn.isGui),
      tree.arena.number? key low.position = low.drawn.number? key := by
    intro low inside
    rw [number?, get?_entry (mem_of_offspring member (List.mem_filter.mp inside).1)]
    rfl
  rw [guiChildren_entry member, List.map_map]
  calc (host.offspring.filter fun low => low.drawn.isGui).map (tree.arena.number? key ∘ (·.position))
    _ = ((host.offspring.filter fun low => low.drawn.isGui).map (·.drawn)).map (Drawn.number? key) := by
      rw [List.map_map]
      exact List.map_congr_left each
    _ = _ := by rw [Entry.offspring, Drawn.map_drawn_filter_tops]

end Arena
end DesignCompiler
