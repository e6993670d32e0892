import DesignCompiler.Proofs.Digits
import DesignCompiler.Proofs.History
import DesignCompiler.Proofs.Rendering
import Mathlib.Data.List.Nodup

/-!
A document read back tells how its arena was built: which instances were inserted, under which others
and in which order, and what was last set on each. Texts may be anything. Classes and keys are written
as they are, so they must not have the characters that end or mark what stands between quotes.
-/
namespace DesignCompiler

open Markup (Quotable Prints)

/-- The class or the key of the edit, which is written as it is. -/
def Edit.literal {α : Type} : Edit α → String
  | .insert className _ _ => className
  | .set _ key _ => key

namespace Listing

section Telling

variable {α : Type} [Scalar α]

mutual

/-- The listing shows the instance at a position, and below it, in order, those inserted there. -/
def Tells (edits : List (Edit α)) (position : Nat) : Listing → Prop
  | .item className referent name fields children =>
    (∃ arrival, (Edit.arrivals edits)[position]? = some arrival ∧ className = arrival.className ∧
      name = arrival.name) ∧
    referent = referentOf position ∧
    fields = (Properties.latest (Edit.settings edits position)).map (fun property =>
      property.2.field property.1) ∧
    AllTell edits (Edit.offspring edits (some position)) children

/-- The listings show the instances at some positions, one after the other. -/
def AllTell (edits : List (Edit α)) (positions : List Nat) : List Listing → Prop
  | [] => positions = []
  | listing :: rest => ∃ position others, positions = position :: others ∧
    Tells edits position listing ∧ AllTell edits others rest

end

mutual

/-- All referents of an item, its own first. -/
def referents : Listing → List String
  | .item _ referent _ _ children => referent :: allReferents children

def allReferents : List Listing → List String
  | [] => []
  | listing :: rest => listing.referents ++ allReferents rest

end

/-- The listings show all that the edits have built, each instance once. -/
structure Recovers (edits : List (Edit α)) (forest : List Listing) : Prop where
  tells : AllTell edits (Edit.offspring edits none) forest
  referents : (allReferents forest).Perm
    ((List.range (Edit.arrivals edits).length).map referentOf)
  distinct : (allReferents forest).Nodup

mutual

/-- Below a listed instance are the instances inserted under it, and those below them. -/
theorem exists_below {edits : List (Edit α)} {position : Nat} : {listing : Listing} →
    Tells edits position listing → ∃ below : List Nat,
      listing.referents = (position :: below).map referentOf ∧
      below.Perm (Edit.offspring edits (some position) ++
        below.flatMap fun above => Edit.offspring edits (some above))
  | .item _ _ _ _ _, tells => by
    rw [Tells] at tells
    obtain ⟨-, rfl, -, tells⟩ := tells
    obtain ⟨below, same, perm⟩ := exists_listed tells
    exact ⟨below, by rw [referents, same, List.map_cons], perm⟩

theorem exists_listed {edits : List (Edit α)} {positions : List Nat} : {forest : List Listing} →
    AllTell edits positions forest → ∃ listed : List Nat,
      allReferents forest = listed.map referentOf ∧
      listed.Perm (positions ++ listed.flatMap fun above => Edit.offspring edits (some above))
  | [], tells => by
    rw [AllTell] at tells
    subst tells
    exact ⟨[], rfl, .refl _⟩
  | listing :: rest, tells => by
    rw [AllTell] at tells
    obtain ⟨position, others, rfl, own, tells⟩ := tells
    obtain ⟨below, first, perm⟩ := exists_below own
    obtain ⟨listed, later, perm'⟩ := exists_listed tells
    refine ⟨position :: below ++ listed, by rw [allReferents, first, later, List.map_append], ?_⟩
    rw [List.perm_iff_count] at perm perm' ⊢
    intro one
    have inner := perm one
    have outer := perm' one
    simp only [List.count_append, List.cons_append, List.count_cons, List.flatMap_cons,
      List.flatMap_append] at inner outer ⊢
    omega

end

theorem sum_map_ite (listed : List Nat) (one : Nat) :
    (listed.map fun other => if other = one then 1 else 0).sum = listed.count one := by
  induction listed with
  | nil => rfl
  | cons first rest ih =>
    rw [List.map_cons, List.sum_cons, ih, List.count_cons, Nat.add_comm]
    simp

omit [Scalar α] in
/-- If the instances at the top and those below listed ones are the listed ones, each instance is listed
once: what stands below another comes as often as that one, and that one comes earlier. -/
theorem count_listed {edits : List (Edit α)} (valid : Edit.Valid edits) {listed : List Nat}
    (perm : listed.Perm (Edit.offspring edits none ++
      listed.flatMap fun above => Edit.offspring edits (some above))) (position : Nat) :
    listed.count position = if position < (Edit.arrivals edits).length then 1 else 0 := by
  induction position using Nat.strong_induction_on with
  | _ position ih =>
    have counted := perm.count_eq position
    rw [List.count_append, List.count_flatMap, Edit.count_offspring] at counted
    have each : List.count position ∘ (fun above => Edit.offspring edits (some above)) = fun above =>
        if (Edit.arrivals edits)[position]?.map (·.parent) = some (some above) then 1 else 0 :=
      funext fun above => Edit.count_offspring edits (some above) position
    rw [each] at counted
    cases found : (Edit.arrivals edits)[position]? with
    | none =>
      have absent := List.getElem?_eq_none_iff.mp found
      rw [counted, found, if_neg (Nat.not_lt.mpr absent)]
      simp
    | some arrival =>
      have present := (List.getElem?_eq_some_iff.mp found).1
      rw [counted, found, if_pos present]
      cases below : arrival.parent with
      | none => simp [below]
      | some parent =>
        have lower := valid.parent_lt found below
        have placed := ih parent lower
        rw [if_pos (by omega), ← sum_map_ite] at placed
        simpa [below, eq_comm] using placed

omit [Scalar α] in
/-- The instances that stand below others or at the top, taken together, are all of them. -/
theorem perm_range {edits : List (Edit α)} (valid : Edit.Valid edits) {listed : List Nat}
    (perm : listed.Perm (Edit.offspring edits none ++
      listed.flatMap fun above => Edit.offspring edits (some above))) :
    listed.Perm (List.range (Edit.arrivals edits).length) := by
  rw [List.perm_iff_count]
  intro position
  rw [count_listed valid perm, List.nodup_range.count]
  simp

theorem referentOf_injective : Function.Injective referentOf := by
  intro position other same
  have digits : Decimal.natText position = Decimal.natText other := String.append_right_inj _ |>.mp same
  exact Decimal.toDigits_inj (String.ofList_injective digits)

theorem quotable_referentOf (position : Nat) : Quotable (referentOf position) :=
  Document.quotable_of_unmarked
    (Document.unmarked_append (by decide) (Document.unmarked_natText position))

theorem recovers {edits : List (Edit α)} (valid : Edit.Valid edits) {forest : List Listing}
    (tells : AllTell edits (Edit.offspring edits none) forest) : Recovers edits forest := by
  obtain ⟨listed, same, perm⟩ := exists_listed tells
  have complete := (perm_range valid perm).map referentOf
  rw [← same] at complete
  exact ⟨tells, complete, complete.nodup_iff.mpr (List.nodup_range.map referentOf_injective)⟩

end Telling

def keys : Listing → List String
  | .item _ _ _ fields _ => fields.map (·.key)

theorem keys_of_tells {edits : List (Edit Float)} {positions : List Nat} {forest : List Listing}
    (tells : AllTell edits positions forest) : forest.map keys =
      positions.map fun position => (Properties.latest (Edit.settings edits position)).map (·.1) := by
  induction forest generalizing positions with
  | nil =>
    rw [AllTell] at tells
    rw [tells]
    rfl
  | cons listing rest ih =>
    rw [AllTell] at tells
    obtain ⟨position, others, rfl, own, tells⟩ := tells
    cases listing with
    | item className referent name fields children =>
      rw [Tells] at own
      obtain ⟨-, -, rfl, -⟩ := own
      rw [List.map_cons, List.map_cons, ih tells, keys, List.map_map]
      rfl

/-- A text that lists the instance at a position. -/
structure Lists (edits : List (Edit Float)) (depth position : Nat) (text : String) (listing : Listing) :
    Prop where
  tells : Tells edits position listing
  sound : listing.Sound
  prints : Prints text (listing.markup depth)

theorem exists_forest {edits : List (Edit Float)} {depth : Nat} {write : Nat → String}
    {positions : List Nat}
    (each : ∀ position ∈ positions, ∃ listing, Lists edits depth position (write position) listing) :
    ∃ forest, AllTell edits positions forest ∧ (∀ listing ∈ forest, listing.Sound) ∧
      Prints (String.join (positions.map write)) (allMarkup depth forest) := by
  induction positions with
  | nil => exact ⟨[], rfl, by simp, rfl⟩
  | cons position rest ih =>
    obtain ⟨own, others⟩ := List.forall_mem_cons.mp each
    obtain ⟨listing, lists⟩ := own
    obtain ⟨forest, tells, sound, prints⟩ := ih others
    refine ⟨listing :: forest, ⟨position, rest, rfl, lists.tells, tells⟩,
      List.forall_mem_cons.mpr ⟨lists.sound, sound⟩, ?_⟩
    rw [List.map_cons, String.join_cons]
    exact lists.prints.append prints

variable {edits : List (Edit Float)}

theorem quotable_class (plain : ∀ edit ∈ edits, Quotable edit.literal) {position : Nat}
    {arrival : Instance Float} (found : (Edit.arrivals edits)[position]? = some arrival) :
    Quotable arrival.className := by
  obtain ⟨edit, member, arrived⟩ := List.mem_filterMap.mp (List.mem_of_getElem? found)
  cases edit with
  | set => cases arrived
  | insert className name parent =>
    obtain rfl := Option.some.inj arrived
    exact plain _ member

theorem quotable_key (plain : ∀ edit ∈ edits, Quotable edit.literal) {position : Nat}
    {property : String × Property Float}
    (held : property ∈ Properties.latest (Edit.settings edits position)) : Quotable property.1 := by
  have changed : property.1 ∈ (Edit.settings edits position).map (·.1) := by
    rw [← Properties.setAll_nil] at held
    exact (Properties.mem_keys_setAll.mp (List.mem_map_of_mem held)).resolve_left (by simp)
  obtain ⟨change, among, same⟩ := List.mem_map.mp changed
  obtain ⟨edit, member, changes⟩ := List.mem_filterMap.mp among
  rw [← same]
  cases edit with
  | insert => cases changes
  | set referent key value =>
    rw [Edit.setting?] at changes
    split at changes
    · obtain rfl := Option.some.inj changes
      exact plain _ member
    · cases changes

theorem lists_item (valid : Edit.Valid edits) (plain : ∀ edit ∈ edits, Quotable edit.literal)
    (fuel depth : Nat) {position : Nat} (present : position < (Edit.arrivals edits).length)
    (enough : (Edit.arrivals edits).length ≤ position + fuel) :
    ∃ listing, Lists edits depth position
      (Document.item (Arena.build edits) fuel depth position) listing := by
  induction fuel generalizing depth position with
  | zero => omega
  | succ fuel ih =>
    have arrived := List.getElem?_eq_getElem present
    generalize (Edit.arrivals edits)[position] = arrival at arrived
    have found : (Arena.build edits).get? position = some (Edit.final edits position arrival) := by
      rw [Arena.get?, valid.instances_build, List.getElem?_mapIdx, arrived]
      rfl
    have each : ∀ child ∈ Edit.offspring edits (some position), ∃ listing, Lists edits (depth + 1) child
        (Document.item (Arena.build edits) fuel (depth + 1) child) listing := by
      intro child member
      have later := valid.lt_of_mem_offspring member
      obtain ⟨arrival, placed, -⟩ := Edit.mem_offspring.mp member
      exact ih (depth + 1) (List.getElem?_eq_some_iff.mp placed).1 (by omega)
    obtain ⟨children, tells, sound, prints⟩ := exists_forest each
    refine ⟨ofInstance position (Edit.final edits position arrival) children, ?_, ?_, ?_⟩
    · exact ⟨⟨arrival, arrived, rfl, rfl⟩, rfl, rfl, tells⟩
    · have named : Quotable arrival.className := quotable_class plain arrived
      refine .item named (quotable_referentOf position) ?_ sound
      exact List.forall_mem_map.mpr fun property held =>
        property.2.sound_field (quotable_key plain held)
    · rw [Document.item, found, valid.children_build]
      exact prints_item prints position _

end Listing

/-- The document of any arena tells how the arena was built, if classes and keys can stand between
quotes as they are. -/
theorem Arena.document_reads_back (edits : List (Edit Float)) (valid : Edit.Valid edits)
    (plain : ∀ edit ∈ edits, Quotable edit.literal) :
    ∃ forest, Listing.read? (Arena.build edits).document = some forest ∧
      Listing.Recovers edits forest := by
  have each : ∀ position ∈ Edit.offspring edits none, ∃ listing, Listing.Lists edits 1 position
      (Document.item (Arena.build edits) (Arena.build edits).size 1 position) listing := by
    intro position member
    obtain ⟨arrival, placed, -⟩ := Edit.mem_offspring.mp member
    refine Listing.lists_item valid plain _ 1 (List.getElem?_eq_some_iff.mp placed).1 ?_
    rw [Arena.size, valid.length_build]
    omega
  obtain ⟨forest, tells, sound, prints⟩ := Listing.exists_forest each
  refine ⟨forest, Listing.read?_print sound ?_, Listing.recovers valid tells⟩
  rw [Arena.document, valid.roots_build]
  exact Listing.prints_document prints

/-- Texts that look like the markup around them. -/
def disguised : List (Edit Float) :=
  [.insert "Frame" "</Item><Item class=\"Frame\" referent=\"RBX0\">" none,
    .insert "TextLabel" "Fish & chips" (some 0),
    .set 1 "Text" (.string "draft"),
    .set 1 "Image" (.content "rbxassetid://1?a=<b>&amp;c"),
    .set 1 "FontFace" (.font "O'Neill</url>" 400 true),
    .set 1 "Text" (.string "&lt;referent=\"RBX1\"&gt;")]

theorem disguised_reads_back :
    Edit.Valid disguised ∧ (∀ edit ∈ disguised, Quotable edit.literal) ∧ ∃ forest,
      Listing.read? (Arena.build disguised).document = some forest ∧
        Listing.Recovers disguised forest := by
  have valid : Edit.Valid disguised :=
    (((((Edit.Valid.nil.snoc (by decide)).snoc (by decide)).snoc (by decide)).snoc (by decide)).snoc
      (by decide)).snoc (by decide)
  have plain : ∀ edit ∈ disguised, Quotable edit.literal := by
    simp only [disguised, List.forall_mem_cons, Edit.literal]
    exact ⟨by decide, by decide, by decide, by decide, by decide, by decide, by simp⟩
  exact ⟨valid, plain, Arena.document_reads_back disguised valid plain⟩

/-- One property, whose key holds the text of another. -/
def smuggled : List (Edit Float) :=
  [.insert "Frame" "Frame" none, .set 0 "a\">v</string>\n\t\t\t<string name=\"b" (.string "w")]

def honest : List (Edit Float) :=
  [.insert "Frame" "Frame" none, .set 0 "a" (.string "v"), .set 0 "b" (.string "w")]

/-- No reading tells a key from the markup it may hold, and an entity in a key is read as what it
names. -/
theorem keys_mistaken :
    (¬ ∃ read : String → Option (List Listing), ∀ edits : List (Edit Float), Edit.Valid edits →
      ∃ forest, read (Arena.build edits).document = some forest ∧ Listing.Recovers edits forest) ∧
    Markup.read? (Document.property "a&amp;b" (.string "w" : Property Float)) =
      some [((.string "w" : Property Float).field "a&b").markup] := by
  constructor
  · rintro ⟨read, tells⟩
    have same : (Arena.build smuggled).document = (Arena.build honest).document := by decide +kernel
    obtain ⟨forest, found, recovers⟩ := tells smuggled
      ((Edit.Valid.nil.snoc (by decide)).snoc (by decide))
    obtain ⟨other, found', recovers'⟩ := tells honest
      (((Edit.Valid.nil.snoc (by decide)).snoc (by decide)).snoc (by decide))
    rw [same, found'] at found
    obtain rfl := Option.some.inj found
    have keys := Listing.keys_of_tells recovers.tells
    rw [Listing.keys_of_tells recovers'.tells] at keys
    exact absurd keys (by decide +kernel)
  · rfl

end DesignCompiler
