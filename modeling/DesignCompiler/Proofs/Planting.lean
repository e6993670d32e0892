import DesignCompiler.Proofs.Association
import Mathlib.Logic.Relation

/-!
Items that know where they come from, and where the instances of such an item stand in an arena: the
item first, then its children in order, each with all below it.
-/
namespace DesignCompiler

variable {α : Type}

/-- What an item is there for: to stand for a node itself, or to help another item. -/
inductive Part where
  | screen
  | self
  | shadow
  | background
  | content
  | decoration
  | record
  | target
deriving DecidableEq, Repr

/-- The node that an item comes from, by its path, and what it is there for. -/
structure Origin where
  path : List Nat
  part : Part
deriving DecidableEq, Repr

/-- An item that knows where it comes from. -/
inductive Drawn (α : Type) where
  | mk (origin : Origin) (className name : String) (properties : Properties α)
      (children : List (Drawn α))

namespace Item

def className : Item α → String
  | mk className _ _ _ => className

def name : Item α → String
  | mk _ name _ _ => name

def properties : Item α → Properties α
  | mk _ _ properties _ => properties

def children : Item α → List (Item α)
  | mk _ _ _ children => children

end Item

namespace Drawn

def origin : Drawn α → Origin
  | mk origin _ _ _ _ => origin

def className : Drawn α → String
  | mk _ className _ _ _ => className

def name : Drawn α → String
  | mk _ _ name _ _ => name

def properties : Drawn α → Properties α
  | mk _ _ _ properties _ => properties

def children : Drawn α → List (Drawn α)
  | mk _ _ _ _ children => children

mutual

/-- The item without its origin. -/
def item : Drawn α → Item α
  | mk _ className name properties children => .mk className name properties (items children)

def items : List (Drawn α) → List (Item α)
  | [] => []
  | drawn :: rest => drawn.item :: items rest

end

mutual

/-- An item with all below it, put down to one origin. -/
def ofItem (origin : Origin) : Item α → Drawn α
  | .mk className name properties children =>
    .mk origin className name properties (ofItems origin children)

def ofItems (origin : Origin) : List (Item α) → List (Drawn α)
  | [] => []
  | item :: rest => ofItem origin item :: ofItems origin rest

end

mutual

/-- How many instances an item makes. -/
def size : Drawn α → Nat
  | mk _ _ _ _ children => 1 + sizes children

def sizes : List (Drawn α) → Nat
  | [] => 0
  | drawn :: rest => drawn.size + sizes rest

end

mutual

theorem item_ofItem (origin : Origin) : (item : Item α) → (ofItem origin item).item = item
  | .mk className name properties children => by
    rw [ofItem, Drawn.item, items_ofItems origin children]

theorem items_ofItems (origin : Origin) : (items : List (Item α)) →
    Drawn.items (ofItems origin items) = items
  | [] => rfl
  | item :: rest => by
    rw [ofItems, Drawn.items, item_ofItem origin item, items_ofItems origin rest]

end

@[simp] theorem length_items (drawns : List (Drawn α)) : (items drawns).length = drawns.length := by
  induction drawns with
  | nil => rfl
  | cons drawn rest ih => simp [items, ih]

@[simp] theorem items_append (front back : List (Drawn α)) :
    items (front ++ back) = items front ++ items back := by
  induction front with
  | nil => rfl
  | cons drawn rest ih => simp [items, ih]

end Drawn

/-- An item in an arena: its position, and the positions and origins of those it lies below, from the
innermost on. -/
structure Entry (α : Type) where
  position : Nat
  above : List (Nat × Origin)
  drawn : Drawn α

/-- The instance that an entry makes. -/
def Entry.row (entry : Entry α) : Instance α where
  className := entry.drawn.className
  name := entry.drawn.name
  properties := Properties.setAll [] entry.drawn.properties
  parent := entry.above.head?.map (·.1)

/-- An entry without positions. -/
def Entry.line (entry : Entry α) : List Origin × Drawn α := (entry.above.map (·.2), entry.drawn)

namespace Drawn

mutual

/-- The entries of an item at a position, and of all below it. -/
def entries (own : Nat) (above : List (Nat × Origin)) : Drawn α → List (Entry α)
  | mk origin className name properties children =>
    ⟨own, above, .mk origin className name properties children⟩ ::
      entriesAll (own + 1) ((own, origin) :: above) children

def entriesAll (own : Nat) (above : List (Nat × Origin)) : List (Drawn α) → List (Entry α)
  | [] => []
  | drawn :: rest => drawn.entries own above ++ entriesAll (own + drawn.size) above rest

end

mutual

/-- The entries fill the positions from the first on, each once. -/
theorem positions_entries (own : Nat) (above : List (Nat × Origin)) :
    (drawn : Drawn α) →
      (drawn.entries own above).map (·.position) = List.range' own drawn.size
  | mk origin _ _ _ children => by
    rw [entries, List.map_cons, positions_entriesAll (own + 1) ((own, origin) :: above) children,
      size, Nat.add_comm 1, List.range'_succ]

theorem positions_entriesAll (own : Nat) (above : List (Nat × Origin)) :
    (drawns : List (Drawn α)) →
      (entriesAll own above drawns).map (·.position) = List.range' own (sizes drawns)
  | [] => rfl
  | drawn :: rest => by
    rw [entriesAll, List.map_append, positions_entries own above drawn,
      positions_entriesAll (own + drawn.size) above rest, sizes, List.range'_append_1]

end

theorem length_entries (own : Nat) (above : List (Nat × Origin)) (drawn : Drawn α) :
    (drawn.entries own above).length = drawn.size := by
  simpa using congrArg List.length (positions_entries own above drawn)

mutual

/-- An entry lies directly below another one of its item, or where the item itself does. -/
theorem above_entries {entry : Entry α} (own : Nat) (above : List (Nat × Origin)) :
    (drawn : Drawn α) → entry ∈ drawn.entries own above → entry.above = above ∨
      ∃ host ∈ drawn.entries own above,
        entry.above = (host.position, host.drawn.origin) :: host.above
  | mk origin className name properties children, member => by
    rw [entries] at member ⊢
    rcases List.mem_cons.mp member with rfl | inside
    · exact .inl rfl
    · right
      rcases above_entriesAll (own + 1) ((own, origin) :: above) children inside with
        direct | ⟨host, present, lies⟩
      · exact ⟨_, List.mem_cons_self, direct⟩
      · exact ⟨host, List.mem_cons_of_mem _ present, lies⟩

theorem above_entriesAll {entry : Entry α} (own : Nat) (above : List (Nat × Origin)) :
    (drawns : List (Drawn α)) → entry ∈ entriesAll own above drawns → entry.above = above ∨
      ∃ host ∈ entriesAll own above drawns,
        entry.above = (host.position, host.drawn.origin) :: host.above
  | [], member => by simp [entriesAll] at member
  | drawn :: rest, member => by
    rw [entriesAll] at member ⊢
    rcases List.mem_append.mp member with inside | later
    · exact (above_entries own above drawn inside).imp_right fun ⟨host, present, lies⟩ =>
        ⟨host, List.mem_append_left _ present, lies⟩
    · exact (above_entriesAll (own + drawn.size) above rest later).imp_right
        fun ⟨host, present, lies⟩ => ⟨host, List.mem_append_right _ present, lies⟩

end

mutual

/-- An item and all below it, each with the origins of those it lies below, from the innermost on. -/
def lines (above : List Origin) : Drawn α → List (List Origin × Drawn α)
  | mk origin className name properties children =>
    (above, mk origin className name properties children) :: linesAll (origin :: above) children

def linesAll (above : List Origin) : List (Drawn α) → List (List Origin × Drawn α)
  | [] => []
  | drawn :: rest => drawn.lines above ++ linesAll above rest

end

@[simp] theorem linesAll_append (above : List Origin) (front back : List (Drawn α)) :
    linesAll above (front ++ back) = linesAll above front ++ linesAll above back := by
  induction front with
  | nil => rfl
  | cons drawn rest ih => simp [linesAll, ih]

mutual

theorem map_line_entries (own : Nat) (above : List (Nat × Origin)) : (drawn : Drawn α) →
    (drawn.entries own above).map Entry.line = drawn.lines (above.map (·.2))
  | mk origin className name properties children => by
    rw [entries, List.map_cons, map_line_entriesAll (own + 1) ((own, origin) :: above) children, lines]
    rfl

theorem map_line_entriesAll (own : Nat) (above : List (Nat × Origin)) : (drawns : List (Drawn α)) →
    (entriesAll own above drawns).map Entry.line = linesAll (above.map (·.2)) drawns
  | [] => rfl
  | drawn :: rest => by
    rw [entriesAll, List.map_append, map_line_entries own above drawn,
      map_line_entriesAll (own + drawn.size) above rest, linesAll]

end

/-- Items without children come from one origin, and nothing lies below them. -/
theorem mem_linesAll_ofItems {origin : Origin} {above : List Origin} {items : List (Item α)}
    {line : List Origin × Drawn α} (bare : ∀ item ∈ items, item.children = [])
    (member : line ∈ linesAll above (ofItems origin items)) :
    line.1 = above ∧ ∃ item ∈ items,
      line.2 = mk origin item.className item.name item.properties [] := by
  induction items with
  | nil => simp [ofItems, linesAll] at member
  | cons item rest ih =>
    obtain ⟨first, others⟩ := List.forall_mem_cons.mp bare
    rw [ofItems, linesAll] at member
    rcases List.mem_append.mp member with own | later
    · obtain ⟨className, name, properties, children⟩ := item
      obtain rfl : children = [] := first
      simp only [ofItem, ofItems, lines, linesAll, List.mem_singleton] at own
      subst own
      exact ⟨rfl, _, List.mem_cons_self, rfl⟩
    · obtain ⟨here, item, present, same⟩ := ih others later
      exact ⟨here, item, List.mem_cons_of_mem _ present, same⟩

end Drawn

namespace Arena

theorem modify_last {β : Type} (change : β → β) (front : List β) (last : β) :
    (front ++ [last]).modify front.length change = front ++ [change last] := by
  induction front with
  | nil => rfl
  | cons first rest ih => simpa using ih

theorem foldl_set (front : List (Instance α)) (inst : Instance α)
    (changes : List (String × Property α)) :
    changes.foldl (fun (arena : Arena α) change => arena.set front.length change.1 change.2)
        ⟨front ++ [inst]⟩ =
      ⟨front ++ [{ inst with properties := Properties.setAll inst.properties changes }]⟩ := by
  induction changes generalizing inst with
  | nil => rfl
  | cons change rest ih =>
    rw [List.foldl_cons, Arena.set, modify_last, ih]
    rfl

mutual

/-- Planting an item appends its entries, where the place to plant at is one of the arena. -/
theorem plant_item (arena : Arena α) (above : List (Nat × Origin))
    (inside : ∀ entry ∈ above, entry.1 < arena.size) : (drawn : Drawn α) →
      arena.plant (above.head?.map (·.1)) drawn.item =
        ⟨arena.instances ++ (drawn.entries arena.size above).map Entry.row⟩
  | .mk origin className name properties children => by
    have valid : (above.head?.map (·.1)).filter (fun position => decide (position < arena.size)) =
        above.head?.map (·.1) := by
      cases above with
      | nil => rfl
      | cons entry rest => simp [inside entry (by simp)]
    have deeper : ∀ entry ∈ (arena.size, origin) :: above, entry.1 < arena.size + 1 := by
      intro entry member
      rcases List.mem_cons.mp member with rfl | member
      · exact Nat.lt_succ_self _
      · exact Nat.lt_succ_of_lt (inside entry member)
    rw [Drawn.item, plant, insert, valid, size, foldl_set]
    have below := plantAll_items
      ⟨arena.instances ++ [⟨className, name, Properties.setAll [] properties, above.head?.map (·.1)⟩]⟩
      ((arena.size, origin) :: above) (by simpa [size] using deeper) children
    simp only [List.head?_cons, Option.map_some, size] at below
    rw [below, Drawn.entries, List.map_cons, List.append_assoc]
    simp [Entry.row, Drawn.className, Drawn.name, Drawn.properties]

theorem plantAll_items (arena : Arena α) (above : List (Nat × Origin))
    (inside : ∀ entry ∈ above, entry.1 < arena.size) : (drawns : List (Drawn α)) →
      arena.plantAll (above.head?.map (·.1)) (Drawn.items drawns) =
        ⟨arena.instances ++ (Drawn.entriesAll arena.size above drawns).map Entry.row⟩
  | [] => by simp [Drawn.items, plantAll, Drawn.entriesAll]
  | drawn :: rest => by
    have longer : size ⟨arena.instances ++ (drawn.entries arena.size above).map Entry.row⟩ =
        arena.size + drawn.size := by
      simp [size, Drawn.length_entries]
    rw [Drawn.items, plantAll, plant_item arena above inside drawn,
      plantAll_items _ above (fun entry member => by rw [longer]; have := inside entry member; omega)
        rest, longer, Drawn.entriesAll, List.map_append, List.append_assoc]

end

/-- An instance lies directly below another one. -/
def Hangs (arena : Arena α) (low high : Nat) : Prop :=
  ∃ inst, arena.get? low = some inst ∧ inst.parent = some high

/-- An instance lies directly below one other at most. -/
theorem Hangs.unique {arena : Arena α} {low high other : Nat} (one : arena.Hangs low high)
    (also : arena.Hangs low other) : high = other := by
  obtain ⟨inst, found, parent⟩ := one
  obtain ⟨same, foundSame, parentSame⟩ := also
  obtain rfl := Option.some.inj (found.symm.trans foundSame)
  exact Option.some.inj (parent.symm.trans parentSame)

/-- An instance lies below another one. -/
def Below (arena : Arena α) : Nat → Nat → Prop := Relation.TransGen arena.Hangs

variable {drawn : Drawn α}

theorem instances_plant (drawn : Drawn α) :
    (Arena.empty.plant none drawn.item).instances = (drawn.entries 0 []).map Entry.row := by
  simpa [empty, size] using
    congrArg Arena.instances (plant_item Arena.empty [] (by simp) drawn)

/-- An entry stands in the list of entries where its position says. -/
theorem position_of_getElem? {entry : Entry α} {index : Nat}
    (found : (drawn.entries 0 [])[index]? = some entry) : entry.position = index := by
  have position : (List.range' 0 drawn.size)[index]? = some entry.position := by
    rw [← Drawn.positions_entries 0 [], List.getElem?_map, found]
    rfl
  obtain ⟨_, same⟩ := List.getElem?_eq_some_iff.mp position
  simpa using same.symm

theorem getElem?_position {entry : Entry α} (member : entry ∈ drawn.entries 0 []) :
    (drawn.entries 0 [])[entry.position]? = some entry := by
  obtain ⟨index, found⟩ := List.mem_iff_getElem?.mp member
  rwa [position_of_getElem? found]

/-- Two entries of an item at one position are the same. -/
theorem entry_unique {first second : Entry α} (one : first ∈ drawn.entries 0 [])
    (other : second ∈ drawn.entries 0 []) (same : first.position = second.position) :
    first = second := by
  have found := getElem?_position one
  rw [same, getElem?_position other] at found
  exact (Option.some.inj found).symm

/-- The instances of a planted item are its entries. -/
theorem get?_plant {position : Nat} {inst : Instance α} :
    (Arena.empty.plant none drawn.item).get? position = some inst ↔
      ∃ entry ∈ drawn.entries 0 [], entry.position = position ∧ entry.row = inst := by
  rw [get?, instances_plant, List.getElem?_map, Option.map_eq_some_iff]
  constructor
  · rintro ⟨entry, found, rfl⟩
    exact ⟨entry, List.mem_of_getElem? found, position_of_getElem? found, rfl⟩
  · rintro ⟨entry, member, rfl, rfl⟩
    exact ⟨entry, getElem?_position member, rfl⟩

/-- Whatever an entry is said to lie below, is an entry that it lies below in the arena. -/
theorem below_plant {entry : Entry α} (member : entry ∈ drawn.entries 0 []) {high : Nat}
    {origin : Origin} (lies : (high, origin) ∈ entry.above) :
    ∃ host ∈ drawn.entries 0 [], host.position = high ∧ host.drawn.origin = origin ∧
      (Arena.empty.plant none drawn.item).Below entry.position high := by
  induction chain : entry.above generalizing entry with
  | nil => simp [chain] at lies
  | cons next rest ih =>
    rcases Drawn.above_entries 0 [] drawn member with top | ⟨host, present, direct⟩
    · simp [top] at chain
    · have parent : entry.row.parent = some host.position := by simp [Entry.row, direct]
      have hangs : (Arena.empty.plant none drawn.item).Hangs entry.position host.position :=
        ⟨entry.row, get?_plant.mpr ⟨entry, member, rfl, rfl⟩, parent⟩
      rw [direct] at lies chain
      rcases List.mem_cons.mp lies with here | further
      · obtain ⟨rfl, rfl⟩ := Prod.mk.inj here
        exact ⟨host, present, rfl, rfl, .single hangs⟩
      · obtain ⟨top, topMember, position, origin, below⟩ :=
          ih present further (List.cons.inj chain).2
        exact ⟨top, topMember, position, origin, .head hangs below⟩

end Arena
end DesignCompiler
