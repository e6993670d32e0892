import DesignCompiler.Proofs.Growth

/-!
The characters of a document. Apart from the texts of a design there are only those of a plain keyboard, so
what holds of these holds of the whole document just if it holds of all texts in the arena.
-/
namespace DesignCompiler

/-- A printable character of seven bits, a tab or a line feed. -/
def Typed (c : Char) : Prop := c.toNat = 9 ∨ c.toNat = 10 ∨ 32 ≤ c.toNat ∧ c.toNat ≤ 126

instance (c : Char) : Decidable (Typed c) := inferInstanceAs (Decidable (_ ∨ _))

/-- All characters of a text are of a kind. -/
def Throughout (kind : Char → Prop) (s : String) : Prop := ∀ c ∈ s.toList, kind c

instance (kind : Char → Prop) [DecidablePred kind] (s : String) : Decidable (Throughout kind s) :=
  List.decidableBAll _ _

section Throughout

variable {kind other : Char → Prop} {s t : String}

theorem throughout_append : Throughout kind (s ++ t) ↔ Throughout kind s ∧ Throughout kind t := by
  rw [Throughout, String.toList_append]
  exact List.forall_mem_append

theorem throughout_ofList [DecidablePred kind] {chars : List Char} (all : chars.all (decide <| kind ·) = true) :
    Throughout kind (String.ofList chars) := by
  rw [Throughout, String.toList_ofList]
  simpa using all

theorem throughout_join {texts : List String} :
    Throughout kind (String.join texts) ↔ ∀ s ∈ texts, Throughout kind s := by
  rw [Throughout, String.toList_join]
  simp only [List.mem_flatMap, forall_exists_index, and_imp]
  exact ⟨fun all s member c inside => all c s member inside, fun all c s member inside => all s member c inside⟩

theorem Throughout.mono (all : Throughout kind s) (more : ∀ c, kind c → other c) : Throughout other s :=
  fun c member => more c (all c member)

theorem Throughout.subset (all : Throughout kind t) (part : s.toList ⊆ t.toList) : Throughout kind s :=
  fun c member => all c (part member)

end Throughout

namespace Document

theorem typed_numerals {s : String} (numerals : Decimal.Numerals s.toList) : Throughout Typed s := by
  intro c member
  have numeral := numerals c member
  rw [Decimal.isNumeral, Bool.or_eq_true] at numeral
  rcases numeral with digit | sign
  · simp only [Char.isDigit, Bool.and_eq_true, decide_eq_true_eq, UInt32.le_iff_toNat_le] at digit
    have low : 48 ≤ c.toNat := digit.1
    have high : c.toNat ≤ 57 := digit.2
    exact .inr (.inr ⟨by omega, by omega⟩)
  · simp only [List.contains_iff_mem, List.mem_cons, List.not_mem_nil, or_false] at sign
    rcases sign with rfl | rfl | rfl | rfl <;> decide

theorem typed_natText (n : Nat) : Throughout Typed (Decimal.natText n) :=
  typed_numerals (Decimal.numerals_natText n)

theorem typed_intText (value : Int) : Throughout Typed (Decimal.intText value) :=
  typed_numerals (Json.Number.numerals_text (.integer value))

theorem typed_plainText (x : Float) : Throughout Typed (Scalar.plainText x) := by
  change Throughout Typed (Binary64.plainText x)
  rw [Binary64.plainText]
  split
  · decide
  · split <;> decide
  · simp only [Decimal.plainText]
    exact throughout_append.mpr ⟨typed_numerals (Decimal.numerals_sign _),
      typed_numerals (Decimal.numerals_positional _)⟩

theorem typed_number (x : Float) : Throughout Typed (number x) := by
  rw [number]
  split
  · decide
  · exact typed_plainText _

theorem typed_pixels (x : Float) : Throughout Typed (pixels x) := typed_intText _

theorem typed_tabs (depth : Nat) : Throughout Typed (tabs depth) := by
  intro c member
  rw [tabs, String.toList_ofList] at member
  obtain rfl := List.eq_of_mem_replicate member
  decide

theorem typed_header : Throughout Typed header := by
  unfold header
  simp only [throughout_append]
  -- a text is read off its characters faster than out of its bytes
  exact ⟨⟨⟨⟨throughout_ofList (by rfl), throughout_ofList (by rfl)⟩, throughout_ofList (by rfl)⟩,
    by decide +kernel⟩, by decide +kernel⟩

theorem typed_element {tag content : String} (plain : Throughout Typed tag)
    (inside : Throughout Typed content) : Throughout Typed (element tag content) := by
  simp only [element, throughout_append]
  exact ⟨⟨⟨⟨⟨⟨by decide, plain⟩, by decide⟩, inside⟩, by decide⟩, plain⟩, by decide⟩

end Document

/-- The texts of a design in a value. -/
def Property.texts {α : Type} : Property α → List String
  | .string text => [text]
  | .content url => [url]
  | .font family _ _ => [family]
  | _ => []

/-- What an instance has in writing is of given kinds: its class and its keys of one, its name and the texts
of its properties of another. -/
structure Instance.Spelled {α : Type} (literal kind : Char → Prop) (inst : Instance α) : Prop where
  className : Throughout literal inst.className
  keys : ∀ property ∈ inst.properties, Throughout literal property.1
  name : Throughout kind inst.name
  texts : ∀ property ∈ inst.properties, ∀ text ∈ property.2.texts, Throughout kind text

theorem Instance.Spelled.literally {α : Type} {literal other kind : Char → Prop} {inst : Instance α}
    (spelled : inst.Spelled literal kind) (more : ∀ c, literal c → other c) : inst.Spelled other kind where
  className := spelled.className.mono more
  keys property member := (spelled.keys property member).mono more
  name := spelled.name
  texts := spelled.texts

namespace Document

variable {kind : Char → Prop} (typed : ∀ c, Typed c → kind c)
include typed

theorem throughout_escape {s : String} : Throughout kind (escape s) ↔ Throughout kind s := by
  have each (c : Char) : (∀ d ∈ escapeChar c, kind d) ↔ kind c := by
    by_cases marked : escapeChar c = [c]
    · rw [marked, List.forall_mem_singleton]
    · have plain : Typed c ∧ ∀ d ∈ escapeChar c, Typed d := by
        unfold escapeChar at marked ⊢
        split at marked <;>
          first | exact absurd rfl marked | exact ⟨by decide, (by decide : Throughout Typed _)⟩
      exact iff_of_true (fun d member => typed d (plain.2 d member)) (typed c plain.1)
  rw [Throughout, escape, String.toList_ofList]
  simp only [List.mem_flatMap, forall_exists_index, and_imp]
  constructor
  · exact fun all c member => (each c).mp fun d inside => all d c member inside
  · exact fun all d c member inside => (each c).mpr (all c member) d inside

/-- What is the same in every document is of any kind that typed characters are of. -/
theorem typed_fixed (s : String) (plain : Throughout Typed s) : Throughout kind s := plain.mono typed

theorem throughout_named {tag key content : String} (plain : Throughout Typed tag) :
    Throughout kind (named tag key content) ↔ Throughout kind key ∧ Throughout kind content := by
  simp only [named, throughout_append, plain.mono typed, typed_fixed typed "<" (by decide),
    typed_fixed typed " name=\"" (by decide), typed_fixed typed "\">" (by decide),
    typed_fixed typed "</" (by decide), typed_fixed typed ">" (by decide), true_and, and_true]

theorem throughout_element {tag content : String} (plain : Throughout Typed tag) :
    Throughout kind (element tag content) ↔ Throughout kind content := by
  simp only [element, throughout_append, plain.mono typed, typed_fixed typed "<" (by decide),
    typed_fixed typed "</" (by decide), typed_fixed typed ">" (by decide), true_and, and_true]

theorem throughout_line {depth : Nat} {content : String} :
    Throughout kind (line depth content) ↔ Throughout kind content := by
  simp only [line, throughout_append, (typed_tabs depth).mono typed,
    (show Throughout Typed "\n" by decide).mono typed, true_and, and_true]

/-- The element of a property has its key and its texts, and nothing else that is not typed. -/
theorem throughout_property (key : String) (value : Property Float) :
    Throughout kind (property key value) ↔
      Throughout kind key ∧ ∀ text ∈ value.texts, Throughout kind text := by
  have plain {tag content : String} (tagged : Throughout Typed tag) (inside : Throughout Typed content) :
      Throughout kind (named tag key content) ↔
        Throughout kind key ∧ ∀ text ∈ ([] : List String), Throughout kind text := by
    rw [throughout_named typed tagged]
    exact and_congr_right fun _ => iff_of_true (inside.mono typed) (List.forall_mem_nil _)
  have part {tag content : String} (tagged : Throughout Typed tag) (inside : Throughout Typed content) :=
    typed_element tagged inside
  have both {s t : String} (first : Throughout Typed s) (second : Throughout Typed t) :=
    throughout_append.mpr ⟨first, second⟩
  cases value with
  | string text =>
    rw [property, throughout_named typed (by decide), throughout_escape typed, Property.texts,
      List.forall_mem_singleton]
  | bool value => exact plain (by decide) (by cases value <;> decide)
  | int value => exact plain (by decide) (typed_intText value)
  | float value => exact plain (by decide) (typed_number value)
  | token value => exact plain (by decide) (typed_natText value)
  | udim value =>
    exact plain (by decide) (both (part (by decide) (typed_number _)) (part (by decide) (typed_pixels _)))
  | udim2 value =>
    have width := both (part (show Throughout Typed "XS" by decide) (typed_number value.x.scale))
      (part (show Throughout Typed "XO" by decide) (typed_pixels value.x.offset))
    exact plain (by decide) (both (both width (part (by decide) (typed_number value.y.scale)))
      (part (by decide) (typed_pixels value.y.offset)))
  | vector2 value =>
    exact plain (by decide) (both (part (by decide) (typed_number _)) (part (by decide) (typed_number _)))
  | color3 value =>
    exact plain (by decide) (both (both (part (by decide) (typed_number _)) (part (by decide) (typed_number _)))
      (part (by decide) (typed_number _)))
  | content url =>
    rw [property, throughout_named typed (by decide), throughout_element typed (by decide),
      throughout_escape typed, Property.texts, List.forall_mem_singleton]
  | font family weight italic =>
    have folder : Throughout kind "rbxasset://fonts/families/" := (by decide : Throughout Typed _).mono typed
    have ending : Throughout kind ".json" := (by decide : Throughout Typed _).mono typed
    have style : Throughout Typed (if italic then "Italic" else "Normal") := by cases italic <;> decide
    have after : Throughout kind (element "Weight" _) := (part (by decide) (typed_natText weight)).mono typed
    have last : Throughout kind (element "Style" _) := (part (by decide) style).mono typed
    simp only [property, throughout_named typed (show Throughout Typed "Font" by decide), throughout_append,
      throughout_element typed (show Throughout Typed "Family" by decide),
      throughout_element typed (show Throughout Typed "url" by decide), throughout_escape typed, folder, ending,
      after, last, true_and, and_true, Property.texts, List.forall_mem_singleton]
  | colorSequence stops =>
    refine plain (by decide) (throughout_join.mpr (List.forall_mem_map.mpr fun stop _ => ?_))
    exact both (both (both (both (both (both (both (typed_number _) (by decide)) (typed_number _)) (by decide))
      (typed_number _)) (by decide)) (typed_number _)) (by decide)
  | numberSequence points =>
    refine plain (by decide) (throughout_join.mpr (List.forall_mem_map.mpr fun point _ => ?_))
    exact both (both (both (typed_number _) (by decide)) (typed_number _)) (by decide)

theorem throughout_opening (depth referent : Nat) (inst : Instance Float) :
    Throughout kind (opening depth referent inst) ↔ inst.Spelled kind kind := by
  simp only [opening, throughout_append, throughout_line typed, throughout_join, List.forall_mem_map,
    throughout_property typed, throughout_named typed (show Throughout Typed "string" by decide),
    throughout_escape typed, typed_fixed typed "<Item class=\"" (by decide),
    typed_fixed typed "\" referent=\"RBX" (by decide), (typed_natText referent).mono typed,
    typed_fixed typed "\">" (by decide), typed_fixed typed "<Properties>" (by decide),
    typed_fixed typed "</Properties>" (by decide), typed_fixed typed "Name" (by decide), true_and, and_true]
  constructor
  · rintro ⟨⟨className, name⟩, all⟩
    exact ⟨className, fun property member => (all property member).1, name,
      fun property member => (all property member).2⟩
  · rintro ⟨className, keys, name, texts⟩
    exact ⟨⟨className, name⟩, fun property member => ⟨keys property member, texts property member⟩⟩

theorem throughout_item {arena : Arena Float} (all : ∀ inst ∈ arena.instances, inst.Spelled kind kind)
    (fuel depth referent : Nat) : Throughout kind (item arena fuel depth referent) := by
  induction fuel generalizing depth referent with
  | zero => exact List.forall_mem_nil _
  | succ fuel ih =>
    rw [item]
    cases found : arena.get? referent with
    | none => exact List.forall_mem_nil _
    | some inst =>
      have own := (throughout_opening typed depth referent inst).mpr (all inst (List.mem_of_getElem? found))
      have below :
          Throughout kind (String.join ((arena.children referent).map (item arena fuel (depth + 1)))) :=
        throughout_join.mpr (List.forall_mem_map.mpr fun child _ => ih (depth + 1) child)
      have ending : Throughout kind (line depth "</Item>") :=
        (throughout_line typed).mpr ((by decide : Throughout Typed _).mono typed)
      exact throughout_append.mpr ⟨throughout_append.mpr ⟨own, below⟩, ending⟩

end Document

/-- What holds of typed characters holds of all those of a document just if it holds of all that is in
writing in the arena. -/
theorem Arena.throughout_document {kind : Char → Prop} (typed : ∀ c, Typed c → kind c) {arena : Arena Float}
    (grown : arena.Grown) :
    Throughout kind arena.document ↔ ∀ inst ∈ arena.instances, inst.Spelled kind kind := by
  constructor
  · intro all inst member
    obtain ⟨position, found⟩ := List.mem_iff_getElem?.mp member
    obtain ⟨depth, inside⟩ := grown.exists_opening found
    exact (Document.throughout_opening typed depth position inst).mp (all.subset inside)
  · intro all
    have header : Throughout kind Document.header := Document.typed_header.mono typed
    have ending : Throughout kind "</roblox>\n" := (by decide : Throughout Typed _).mono typed
    have items : Throughout kind (String.join (arena.roots.map (Document.item arena arena.size 1))) :=
      throughout_join.mpr (List.forall_mem_map.mpr fun root _ => Document.throughout_item typed all _ _ root)
    exact throughout_append.mpr ⟨throughout_append.mpr ⟨header, items⟩, ending⟩

end DesignCompiler
