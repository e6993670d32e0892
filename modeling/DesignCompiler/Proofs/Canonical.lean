import DesignCompiler.Proofs.Association
import DesignCompiler.Proofs.JsonText
import Mathlib.Data.List.Nodup

/-!
What the canonical text of a value tells. Members stand in the order of their keys there, so where no key
is repeated, the text of each member can be told from that of the object, whatever order it was built in.
-/
namespace DesignCompiler

namespace Json

mutual

/-- Values that are alike have the same text. -/
theorem compact_of_alike : (v w : Json) → Alike v w → v.compact = w.compact
  | .null, w, alike => by cases w <;> simp_all [Alike]
  | .bool value, w, alike => by cases w <;> simp_all [Alike]
  | .number value, w, alike => by cases w <;> simp_all [Alike, compact]
  | .string value, w, alike => by cases w <;> simp_all [Alike]
  | .array items, w, alike => by
    cases w with
    | array others => rw [compact, compact, compactItems_of_alike items others alike]
    | _ => exact alike.elim
  | .object members, w, alike => by
    cases w with
    | object others => rw [compact, compact, compactMembers_of_alike members others alike]
    | _ => exact alike.elim

theorem compactItems_of_alike : (xs ys : List Json) → AlikeItems xs ys →
    compactItems xs = compactItems ys
  | [], ys, alike => by
    cases ys with
    | nil => rfl
    | cons y ys => exact alike.elim
  | x :: xs, [], alike => alike.elim
  | x :: xs, y :: ys, alike => by
    obtain ⟨first, rest⟩ := alike
    have here := compact_of_alike x y first
    have later := compactItems_of_alike xs ys rest
    cases xs with
    | nil =>
      cases ys with
      | nil => rw [compactItems, compactItems, here]
      | cons next ys => exact rest.elim
    | cons item xs =>
      cases ys with
      | nil => exact rest.elim
      | cons next ys =>
        have text : ∀ first second rest, compactItems (first :: second :: rest) =
            first.compact ++ "," ++ compactItems (second :: rest) := fun _ _ _ => rfl
        rw [text, text, here, later]

theorem compactMembers_of_alike : (xs ys : List (String × Json)) → AlikeMembers xs ys →
    compactMembers xs = compactMembers ys
  | [], ys, alike => by
    cases ys with
    | nil => rfl
    | cons y ys => exact alike.elim
  | x :: xs, [], alike => alike.elim
  | (key, x) :: xs, (name, y) :: ys, alike => by
    obtain ⟨rfl, first, rest⟩ := alike
    have here := compact_of_alike x y first
    have later := compactMembers_of_alike xs ys rest
    cases xs with
    | nil =>
      cases ys with
      | nil => rw [compactMembers, compactMembers, here]
      | cons next ys => exact rest.elim
    | cons entry xs =>
      cases ys with
      | nil => exact rest.elim
      | cons next ys =>
        have text : ∀ key (first : Json) second rest, compactMembers ((key, first) :: second :: rest) =
            quote key ++ ":" ++ first.compact ++ "," ++ compactMembers (second :: rest) :=
          fun _ _ _ _ => rfl
        rw [text, text, here, later]

end

theorem lookup_of_alike {xs ys : List (String × Json)} (alike : AlikeMembers xs ys) (key : String) :
    (xs.lookup key).map compact = (ys.lookup key).map compact := by
  induction xs generalizing ys with
  | nil =>
    cases ys with
    | nil => rfl
    | cons entry ys => exact alike.elim
  | cons entry xs ih =>
    cases ys with
    | nil => exact alike.elim
    | cons other ys =>
      obtain ⟨same, first, rest⟩ := alike
      rw [lookup_cons_eq, lookup_cons_eq, same]
      split
      · exact congrArg some (compact_of_alike _ _ first)
      · exact ih rest

theorem sortedMembers_eq (members : List (String × Json)) :
    sortedMembers members = members.map fun entry => (entry.1, entry.2.sorted) := by
  induction members with
  | nil => rfl
  | cons entry rest ih => rw [sortedMembers, ih, List.map_cons]

/-- Sorting leaves it to the keys where a value is found, if no key is repeated. -/
theorem lookup_sorted {members : List (String × Json)} (distinct : (members.map (·.1)).Nodup)
    (key : String) :
    (sortMembers (sortedMembers members)).lookup key = (members.lookup key).map sorted := by
  have keys : ((members.map fun entry => (entry.1, entry.2.sorted)).map (·.1)).Nodup := by
    simpa [List.map_map, Function.comp_def] using distinct
  rw [sortedMembers_eq, sortMembers, ← lookup_perm (List.mergeSort_perm _ _).symm keys]
  clear keys distinct
  induction members with
  | nil => rfl
  | cons entry rest ih =>
    rw [List.map_cons, lookup_cons_eq, lookup_cons_eq]
    split
    · rfl
    · exact ih

variable {xs ys : List (String × Json)}

/-- Objects with the same canonical text hold the same for every key. -/
theorem canonical_member (same : (object xs).canonical = (object ys).canonical)
    (distinct : (xs.map (·.1)).Nodup) (distinct' : (ys.map (·.1)).Nodup) (key : String) :
    (xs.lookup key).map canonical = (ys.lookup key).map canonical := by
  rw [canonical, canonical, sorted, sorted] at same
  have held := lookup_of_alike (alike_of_compact same) key
  rwa [lookup_sorted distinct, lookup_sorted distinct', Option.map_map, Option.map_map] at held

/-- Records with the same fields and the same canonical text hold the same in every field. -/
theorem canonical_fields (same : (object xs).canonical = (object ys).canonical)
    (keys : xs.map (·.1) = ys.map (·.1)) (distinct : (xs.map (·.1)).Nodup) :
    xs.map (·.2.canonical) = ys.map (·.2.canonical) := by
  have held := canonical_member same distinct (keys ▸ distinct)
  clear same
  induction xs generalizing ys with
  | nil => rw [List.map_eq_nil_iff.mp keys.symm]
  | cons entry xs ih =>
    cases ys with
    | nil => cases keys
    | cons other ys =>
      obtain ⟨first, rest⟩ : entry.1 = other.1 ∧ xs.map (·.1) = ys.map (·.1) := List.cons.inj keys
      obtain ⟨fresh, distinct⟩ := List.nodup_cons.mp distinct
      have here := held entry.1
      rw [lookup_cons_eq, lookup_cons_eq, if_pos rfl, if_pos first] at here
      rw [List.map_cons, List.map_cons, Option.some.inj here]
      refine congrArg _ (ih rest distinct fun key => ?_)
      have later := held key
      rw [lookup_cons_eq, lookup_cons_eq, ← first] at later
      by_cases own : key = entry.1
      · have absent : ∀ {members : List (String × Json)}, members.map (·.1) = xs.map (·.1) →
            members.lookup key = none := by
          intro members same
          rw [← Option.not_isSome_iff_eq_none, isSome_lookup, same, own]
          exact fresh
        rw [absent rfl, absent rest.symm]
      · rwa [if_neg own, if_neg own] at later

theorem sortedItems_eq (items : List Json) : sortedItems items = items.map sorted := by
  induction items with
  | nil => rfl
  | cons item rest ih => rw [sortedItems, ih, List.map_cons]

theorem map_compact_of_alike {items others : List Json} (alike : AlikeItems items others) :
    items.map compact = others.map compact := by
  induction items generalizing others with
  | nil =>
    cases others with
    | nil => rfl
    | cons other others => exact alike.elim
  | cons item items ih =>
    cases others with
    | nil => exact alike.elim
    | cons other others =>
      rw [List.map_cons, List.map_cons, compact_of_alike _ _ alike.1, ih alike.2]

/-- Lists with the same canonical text have the same items. -/
theorem canonical_items {items others : List Json}
    (same : (array items).canonical = (array others).canonical) :
    items.map canonical = others.map canonical := by
  rw [canonical, canonical, sorted, sorted] at same
  have texts := map_compact_of_alike (alike_of_compact same)
  rwa [sortedItems_eq, sortedItems_eq, List.map_map, List.map_map] at texts

theorem canonical_text {text other : String} (same : (string text).canonical = (string other).canonical) :
    text = other :=
  alike_of_compact same

theorem text?_of_canonical {v w : Json} (same : v.canonical = w.canonical) : text? v = text? w := by
  have alike := alike_of_compact same
  cases v <;> cases w <;> first | rfl | exact alike.elim | exact congrArg some alike

theorem canonical_bool {value other : Bool} (same : (bool value).canonical = (bool other).canonical) :
    value = other :=
  alike_of_compact same

/-- Objects of a union with the same canonical text have the same tag. -/
theorem canonical_tag {tag other : String}
    (same : (object (("type", .string tag) :: xs)).canonical =
      (object (("type", .string other) :: ys)).canonical)
    (distinct : ("type" :: xs.map (·.1)).Nodup) (distinct' : ("type" :: ys.map (·.1)).Nodup) :
    tag = other :=
  canonical_text (Option.some.inj (canonical_member same distinct distinct' "type"))

theorem keys_member? (key : String) (value : Option Json) :
    ((member? key value).map (·.1)).Sublist [key] := by
  cases value <;> simp [member?]

theorem lookup_member? (key other : String) (value : Option Json) :
    (member? key value).lookup other = if other = key then value else none := by
  cases value with
  | none => simp [member?]
  | some value => rw [member?, lookup_cons_eq, List.lookup_nil]

/-- What is told of each member of a list by its canonical text, is told by that of the list. -/
theorem map_of_canonical {β γ : Type} {json : β → Json} {view : β → γ}
    (each : ∀ one other, (json one).canonical = (json other).canonical → view one = view other)
    {list others : List β}
    (same : (array (list.map json)).canonical = (array (others.map json)).canonical) :
    list.map view = others.map view := by
  have texts := canonical_items same
  clear same
  induction list generalizing others with
  | nil => simp_all
  | cons first rest ih =>
    cases others with
    | nil => simp at texts
    | cons other others =>
      simp only [List.map_cons, List.cons.injEq] at texts
      rw [List.map_cons, List.map_cons, each _ _ texts.1, ih texts.2]

/-- What is told of a value by its canonical text, is told if it may be missing. -/
theorem option_of_canonical {β γ : Type} {json : β → Json} {view : β → γ}
    (each : ∀ one other, (json one).canonical = (json other).canonical → view one = view other)
    {value other : Option β} (same : value.map (canonical ∘ json) = other.map (canonical ∘ json)) :
    value.map view = other.map view := by
  cases value <;> cases other <;> simp_all
  exact each _ _ same

theorem canonical_ofText? {text other : Option String}
    (same : (ofText? text).canonical = (ofText? other).canonical) : text = other := by
  have alike := alike_of_compact same
  cases text <;> cases other <;> first | rfl | exact alike.elim | exact congrArg some alike

theorem canonical_number? {value other : Option Number}
    (same : (orNull number value).canonical = (orNull number other).canonical) :
    value.map Number.text = other.map Number.text := by
  have alike := alike_of_compact same
  cases value <;> cases other <;> first | rfl | exact alike.elim | exact congrArg some alike

end Json

end DesignCompiler
