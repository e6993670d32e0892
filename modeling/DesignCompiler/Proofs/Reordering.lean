import DesignCompiler.Proofs.Canonical
import DesignCompiler.Proofs.Digits

/-!
Which values have the same canonical text: just those that are equal up to the order of members. Sorting
brings equal values into the same order, and what is sorted can be told from its text.
-/
namespace DesignCompiler

namespace Json

mutual

/-- The values are equal, but at every level the members of an object may stand in another order. -/
def Reordered : Json → Json → Prop
  | .null, .null => True
  | .bool one, .bool other => one = other
  | .number one, .number other => one = other
  | .string one, .string other => one = other
  | .array items, .array others => ReorderedItems items others
  | .object members, .object others =>
    ∃ arranged, arranged.Perm others ∧ ReorderedMembers members arranged
  | _, _ => False

def ReorderedItems : List Json → List Json → Prop
  | [], [] => True
  | one :: rest, other :: others => Reordered one other ∧ ReorderedItems rest others
  | _, _ => False

/-- The same keys in the same order, with values that are equal in this way. -/
def ReorderedMembers : List (String × Json) → List (String × Json) → Prop
  | [], [] => True
  | (key, one) :: rest, (name, other) :: others =>
    key = name ∧ Reordered one other ∧ ReorderedMembers rest others
  | _, _ => False

end

mutual

/-- At no level an object has two members of the same key. -/
def Distinct : Json → Prop
  | .array items => DistinctItems items
  | .object members => (members.map (·.1)).Nodup ∧ DistinctMembers members
  | _ => True

def DistinctItems : List Json → Prop
  | [] => True
  | item :: rest => item.Distinct ∧ DistinctItems rest

def DistinctMembers : List (String × Json) → Prop
  | [] => True
  | (_, value) :: rest => value.Distinct ∧ DistinctMembers rest

end

mutual

/-- All numbers in a value. -/
def numbers : Json → List Number
  | .number value => [value]
  | .array items => numbersOfItems items
  | .object members => numbersOfMembers members
  | _ => []

def numbersOfItems : List Json → List Number
  | [] => []
  | item :: rest => item.numbers ++ numbersOfItems rest

def numbersOfMembers : List (String × Json) → List Number
  | [] => []
  | (_, value) :: rest => value.numbers ++ numbersOfMembers rest

end

theorem numbersOfMembers_eq (members : List (String × Json)) :
    numbersOfMembers members = members.flatMap (·.2.numbers) := by
  induction members with
  | nil => rfl
  | cons entry rest ih => rw [numbersOfMembers, ih, List.flatMap_cons]

/-- Members with the same keys, each there once, are sorted into one list whatever their order. -/
theorem sortMembers_perm {members others : List (String × Json)} (perm : members.Perm others)
    (distinct : (members.map (·.1)).Nodup) : sortMembers members = sortMembers others := by
  have sorted : ∀ members : List (String × Json), (sortMembers members).Pairwise (·.1 ≤ ·.1) := by
    intro members
    refine (List.pairwise_mergeSort ?_ ?_ members).imp of_decide_eq_true
    · exact fun a b c before after =>
        decide_eq_true (le_trans (of_decide_eq_true before) (of_decide_eq_true after))
    · exact fun a b => by simpa using le_total a.1 b.1
  have same : (sortMembers members).Perm (sortMembers others) :=
    (List.mergeSort_perm _ _).trans (perm.trans (List.mergeSort_perm _ _).symm)
  refine same.eq_of_pairwise ?_ (sorted members) (sorted others)
  intro one other listed listed' before after
  exact List.inj_on_of_nodup_map distinct (List.mem_mergeSort.mp listed)
    (perm.mem_iff.mpr (List.mem_mergeSort.mp listed')) (le_antisymm before after)

mutual

theorem mem_numbers_sorted {number : Number} : (value : Json) →
    (number ∈ value.sorted.numbers ↔ number ∈ value.numbers)
  | .array items => mem_numbers_sortedItems items
  | .object members => by
    have perm : (sortMembers (sortedMembers members)).Perm (sortedMembers members) :=
      List.mergeSort_perm _ _
    rw [sorted, numbers, numbersOfMembers_eq, (perm.flatMap_right _).mem_iff, ← numbersOfMembers_eq]
    exact mem_numbers_sortedMembers members
  | .null | .bool _ | .number _ | .string _ => Iff.rfl

theorem mem_numbers_sortedItems {number : Number} : (items : List Json) →
    (number ∈ numbersOfItems (sortedItems items) ↔ number ∈ numbersOfItems items)
  | [] => Iff.rfl
  | item :: rest => by
    rw [sortedItems, numbersOfItems, numbersOfItems, List.mem_append, List.mem_append,
      mem_numbers_sorted item, mem_numbers_sortedItems rest]

theorem mem_numbers_sortedMembers {number : Number} : (members : List (String × Json)) →
    (number ∈ numbersOfMembers (sortedMembers members) ↔ number ∈ numbersOfMembers members)
  | [] => Iff.rfl
  | (_, value) :: rest => by
    rw [sortedMembers, numbersOfMembers, numbersOfMembers, List.mem_append, List.mem_append,
      mem_numbers_sorted value, mem_numbers_sortedMembers rest]

end

mutual

/-- Values that are equal up to the order of members are the same once they are sorted. -/
theorem sorted_of_reordered : (v w : Json) → v.Distinct → v.Reordered w → v.sorted = w.sorted
  | .array items, w, distinct, same => by
    cases w with
    | array others => rw [sorted, sorted, sortedItems_of_reordered items others distinct same]
    | _ => exact same.elim
  | .object members, w, distinct, same => by
    cases w with
    | object others =>
      obtain ⟨arranged, perm, same⟩ := same
      have inner := sortedMembers_of_reordered members arranged distinct.2 same
      have keys : ((sortedMembers members).map (·.1)).Nodup := by
        rw [sortedMembers_eq, List.map_map]
        exact distinct.1
      have moved : (sortedMembers members).Perm (sortedMembers others) := by
        rw [inner, sortedMembers_eq, sortedMembers_eq]
        exact perm.map _
      rw [sorted, sorted, sortMembers_perm moved keys]
    | _ => exact same.elim
  | .null, w, _, same => by cases w <;> first | rfl | exact same.elim
  | .bool _, w, _, same => by cases w <;> first | exact congrArg bool same | exact same.elim
  | .number _, w, _, same => by cases w <;> first | exact congrArg number same | exact same.elim
  | .string _, w, _, same => by cases w <;> first | exact congrArg string same | exact same.elim

theorem sortedItems_of_reordered : (items others : List Json) → DistinctItems items →
    ReorderedItems items others → sortedItems items = sortedItems others
  | [], [], _, _ => rfl
  | [], _ :: _, _, same | _ :: _, [], _, same => same.elim
  | item :: rest, other :: others, distinct, same => by
    rw [sortedItems, sortedItems, sorted_of_reordered item other distinct.1 same.1,
      sortedItems_of_reordered rest others distinct.2 same.2]

theorem sortedMembers_of_reordered : (members others : List (String × Json)) →
    DistinctMembers members → ReorderedMembers members others →
    sortedMembers members = sortedMembers others
  | [], [], _, _ => rfl
  | [], _ :: _, _, same | _ :: _, [], _, same => same.elim
  | (key, value) :: rest, (name, other) :: others, distinct, same => by
    obtain ⟨rfl, here, later⟩ := same
    rw [sortedMembers, sortedMembers, sorted_of_reordered value other distinct.1 here,
      sortedMembers_of_reordered rest others distinct.2 later]

end

mutual

/-- Values that are the same once they are sorted are equal up to the order of members. -/
theorem reordered_of_sorted : (v w : Json) → v.sorted = w.sorted → v.Reordered w
  | .array items, w, same => by
    cases w with
    | array others => exact reorderedItems_of_sorted items others (array.inj same)
    | _ => cases same
  | .object members, w, same => by
    cases w with
    | object others =>
      have perm : (sortedMembers members).Perm (sortedMembers others) := by
        have lists : sortMembers (sortedMembers members) = sortMembers (sortedMembers others) :=
          object.inj same
        have moved : (sortMembers (sortedMembers members)).Perm (sortedMembers others) := by
          rw [lists]
          exact List.mergeSort_perm _ _
        exact (List.mergeSort_perm _ _).symm.trans moved
      -- the order in which the members of one value are found in the other
      rw [sortedMembers_eq others] at perm
      obtain ⟨arranged, listed, moved⟩ :=
        (congrFun (congrFun (List.eq_map_comp_perm _) _) _).mpr perm
      rw [← sortedMembers_eq] at listed
      exact ⟨arranged, moved, reorderedMembers_of_sorted members arranged listed⟩
    | _ => cases same
  | .null, w, same => by
    cases w with
    | null => trivial
    | _ => cases same
  | .bool _, w, same => by cases w <;> first | exact bool.inj same | cases same
  | .number _, w, same => by cases w <;> first | exact number.inj same | cases same
  | .string _, w, same => by cases w <;> first | exact string.inj same | cases same

theorem reorderedItems_of_sorted : (items others : List Json) →
    sortedItems items = sortedItems others → ReorderedItems items others
  | [], [], _ => trivial
  | [], _ :: _, same | _ :: _, [], same => nomatch same
  | item :: rest, other :: others, same => by
    obtain ⟨here, later⟩ := List.cons.inj same
    exact ⟨reordered_of_sorted item other here, reorderedItems_of_sorted rest others later⟩

theorem reorderedMembers_of_sorted : (members others : List (String × Json)) →
    sortedMembers members = sortedMembers others → ReorderedMembers members others
  | [], [], _ => trivial
  | [], _ :: _, same | _ :: _, [], same => nomatch same
  | (key, value) :: rest, (name, other) :: others, same => by
    obtain ⟨here, later⟩ := List.cons.inj same
    obtain ⟨keys, values⟩ := Prod.mk.inj here
    exact ⟨keys, reordered_of_sorted value other values, reorderedMembers_of_sorted rest others later⟩

end

theorem keys_lastOfEach (members : List (String × Json)) :
    ((lastOfEach members).map (·.1)).Nodup := by
  induction members with
  | nil => exact List.nodup_nil
  | cons entry rest ih =>
    have step : lastOfEach (entry :: rest) =
        if (lastOfEach rest).any (·.1 == entry.1) then lastOfEach rest
          else entry :: lastOfEach rest := rfl
    rw [step]
    split
    · exact ih
    · rename_i absent
      refine List.nodup_cons.mpr ⟨fun listed => absent ?_, ih⟩
      obtain ⟨other, member, same⟩ := List.mem_map.mp listed
      exact List.any_eq_true.mpr ⟨other, member, beq_iff_eq.mpr same⟩

theorem lastOfEach_sublist (members : List (String × Json)) :
    (lastOfEach members).Sublist members := by
  induction members with
  | nil => exact .slnil
  | cons entry rest ih =>
    have step : lastOfEach (entry :: rest) =
        if (lastOfEach rest).any (·.1 == entry.1) then lastOfEach rest
          else entry :: lastOfEach rest := rfl
    rw [step]
    split
    · exact ih.cons _
    · exact ih.cons_cons _

theorem distinctMembers_iff (members : List (String × Json)) :
    DistinctMembers members ↔ ∀ entry ∈ members, entry.2.Distinct := by
  induction members with
  | nil => simp [DistinctMembers]
  | cons entry rest ih => rw [DistinctMembers, ih, List.forall_mem_cons]

mutual

/-- Keeping the last member of each key leaves each key once. -/
theorem distinct_settled : (value : Json) → value.settled.Distinct
  | .array items => distinct_settledItems items
  | .object members => by
    have perm : (sortMembers (lastOfEach (settledMembers members))).Perm
        (lastOfEach (settledMembers members)) := List.mergeSort_perm _ _
    refine ⟨(perm.map (·.1)).nodup_iff.mpr (keys_lastOfEach _), ?_⟩
    rw [distinctMembers_iff]
    intro entry listed
    have kept := (lastOfEach_sublist _).subset (perm.mem_iff.mp listed)
    exact (distinctMembers_iff _).mp (distinct_settledMembers members) entry kept
  | .null | .bool _ | .number _ | .string _ => trivial

theorem distinct_settledItems : (items : List Json) → DistinctItems (settledItems items)
  | [] => trivial
  | item :: rest => ⟨distinct_settled item, distinct_settledItems rest⟩

theorem distinct_settledMembers : (members : List (String × Json)) →
    DistinctMembers (settledMembers members)
  | [] => trivial
  | (_, value) :: rest => ⟨distinct_settled value, distinct_settledMembers rest⟩

end

mutual

/-- Values that are alike are the same where no two numbers share a text. -/
theorem eq_of_alike : (v w : Json) →
    (∀ m ∈ v.numbers, ∀ n ∈ w.numbers, m.text = n.text → m = n) → Alike v w → v = w
  | .array items, w, apart, alike => by
    cases w with
    | array others => rw [eq_of_alikeItems items others apart alike]
    | _ => exact alike.elim
  | .object members, w, apart, alike => by
    cases w with
    | object others => rw [eq_of_alikeMembers members others apart alike]
    | _ => exact alike.elim
  | .number one, w, apart, alike => by
    cases w with
    | number other =>
      rw [apart one (List.mem_singleton_self _) other (List.mem_singleton_self _) alike]
    | _ => exact alike.elim
  | .null, w, _, alike => by cases w <;> first | rfl | exact alike.elim
  | .bool _, w, _, alike => by cases w <;> first | exact congrArg bool alike | exact alike.elim
  | .string _, w, _, alike => by cases w <;> first | exact congrArg string alike | exact alike.elim

theorem eq_of_alikeItems : (items others : List Json) →
    (∀ m ∈ numbersOfItems items, ∀ n ∈ numbersOfItems others, m.text = n.text → m = n) →
    AlikeItems items others → items = others
  | [], [], _, _ => rfl
  | [], _ :: _, _, alike | _ :: _, [], _, alike => alike.elim
  | item :: rest, other :: others, apart, alike => by
    rw [eq_of_alike item other (fun m listed n listed' =>
        apart m (List.mem_append_left _ listed) n (List.mem_append_left _ listed')) alike.1,
      eq_of_alikeItems rest others (fun m listed n listed' =>
        apart m (List.mem_append_right _ listed) n (List.mem_append_right _ listed')) alike.2]

theorem eq_of_alikeMembers : (members others : List (String × Json)) →
    (∀ m ∈ numbersOfMembers members, ∀ n ∈ numbersOfMembers others, m.text = n.text → m = n) →
    AlikeMembers members others → members = others
  | [], [], _, _ => rfl
  | [], _ :: _, _, alike | _ :: _, [], _, alike => alike.elim
  | (key, value) :: rest, (name, other) :: others, apart, alike => by
    obtain ⟨rfl, here, later⟩ := alike
    rw [eq_of_alike value other (fun m listed n listed' =>
        apart m (List.mem_append_left _ listed) n (List.mem_append_left _ listed')) here,
      eq_of_alikeMembers rest others (fun m listed n listed' =>
        apart m (List.mem_append_right _ listed) n (List.mem_append_right _ listed')) later]

end

namespace Number

/-- A number as it is read and written: no zeros behind the last digit of a decimal. -/
def Normal : Number → Prop
  | .integer _ => True
  | .decimal value => value.Normal

theorem intText_cases (value : Int) : ∃ digits, Decimal.Digits digits ∧
    ((Decimal.intText value).toList = digits ∧ Nat.ofDigitChars 10 digits 0 = value ∨
      (Decimal.intText value).toList = '-' :: digits ∧ -(Nat.ofDigitChars 10 digits 0 : Int) = value) := by
  have digits := Decimal.digits_toDigits
  have value_eq : ∀ n, Nat.ofDigitChars 10 (Nat.toDigits 10 n) 0 = n := fun n =>
    Nat.ofDigitChars_toDigits (by decide) (by decide)
  cases value with
  | ofNat n =>
    exact ⟨_, digits n, .inl ⟨by simp [Decimal.intText, Decimal.natText], by rw [value_eq]; rfl⟩⟩
  | negSucc n =>
    exact ⟨_, digits (n + 1), .inr ⟨by simp [Decimal.intText, Decimal.natText], by rw [value_eq]; rfl⟩⟩

theorem intText_inj {value other : Int} (same : Decimal.intText value = Decimal.intText other) :
    value = other := by
  have texts := congrArg String.toList same
  have minus : ('-' : Char).isDigit = false := rfl
  obtain ⟨digits, only, text⟩ := intText_cases value
  obtain ⟨digits', only', text'⟩ := intText_cases other
  rcases text with ⟨text, rfl⟩ | ⟨text, rfl⟩ <;> rcases text' with ⟨text', rfl⟩ | ⟨text', rfl⟩ <;>
    rw [text, text'] at texts
  · rw [texts]
  · exact absurd (texts ▸ List.mem_cons_self) (Decimal.not_mem_digits only minus)
  · exact absurd (texts ▸ List.mem_cons_self) (Decimal.not_mem_digits only' minus)
  · rw [(List.cons.inj texts).2]

/-- A decimal shows a point or a power of ten, and a whole number never does. -/
theorem intText_ne_dataText (value : Int) (d : Decimal) : Decimal.intText value ≠ d.dataText := by
  intro same
  have texts := congrArg String.toList same
  have mark : ∃ c ∈ d.dataText.toList, c = '.' ∨ c = 'e' := by
    rw [Decimal.dataText_eq, String.toList_append]
    rcases Decimal.unsigned_cases d.normalize with ⟨_, _, full⟩ | ⟨_, -, -, text⟩
    · exact ⟨'.', by simp [full.text_eq], .inl rfl⟩
    · exact ⟨'e', by simp [text], .inr rfl⟩
  obtain ⟨c, listed, mark⟩ := mark
  rw [← texts] at listed
  have other : c.isDigit = false ∧ c ≠ '-' := by rcases mark with rfl | rfl <;> decide
  obtain ⟨digits, only, ⟨text, -⟩ | ⟨text, -⟩⟩ := intText_cases value
  · exact Decimal.not_mem_digits only other.1 (text ▸ listed)
  · rw [text] at listed
    exact Decimal.not_mem_digits only other.1 (List.mem_of_ne_of_mem other.2 listed)

/-- No two numbers share a text: not even a whole number and the double of the same value. -/
theorem text_inj {m n : Number} (normal : m.Normal) (normal' : n.Normal) (same : m.text = n.text) :
    m = n := by
  cases m with
  | integer value =>
    cases n with
    | integer other => rw [intText_inj same]
    | decimal other => exact absurd same (intText_ne_dataText value other)
  | decimal value =>
    cases n with
    | integer other => exact absurd same.symm (intText_ne_dataText other value)
    | decimal other =>
      have equal := Decimal.dataText_inj same
      rw [Decimal.normalize_of_normal normal, Decimal.normalize_of_normal normal'] at equal
      rw [equal]

end Number

/-- Two values have the same canonical text just if they are equal up to the order of members, as long as
no two of their numbers share a text. -/
theorem canonical_eq_iff {v w : Json} (distinct : v.Distinct)
    (apart : ∀ m ∈ v.numbers, ∀ n ∈ w.numbers, m.text = n.text → m = n) :
    v.canonical = w.canonical ↔ v.Reordered w := by
  constructor
  · intro same
    refine reordered_of_sorted v w (eq_of_alike _ _ ?_ (alike_of_compact same))
    exact fun m listed n listed' =>
      apart m ((mem_numbers_sorted v).mp listed) n ((mem_numbers_sorted w).mp listed')
  · intro same
    rw [canonical, canonical, sorted_of_reordered v w distinct same]

/-! A dish of the day, and the same with its members in another order. -/

def dish (price : Number) : List (String × Json) :=
  [("name", .string "a \"soup\""), ("price", .number price), ("with", .array [int 2, int 1])]

def menu (price : Number) : Json := .object [("day", int 3), ("dish", .object (dish price))]

def turnedMenu (price : Number) : Json :=
  .object [("dish", .object (dish price).reverse), ("day", int 3)]

theorem distinct_menu (price : Number) : (menu price).Distinct := by
  simp [menu, dish, Distinct, DistinctItems, DistinctMembers, int]

/-- The numbers of these values are told apart by their texts. -/
theorem apart_menu {price price' : Number} (normal : price.Normal) (normal' : price'.Normal) :
    ∀ m ∈ (menu price).numbers, ∀ n ∈ (turnedMenu price').numbers, m.text = n.text → m = n := by
  have whole : ∀ value, (Number.integer value).Normal := fun _ => trivial
  have all : ∀ m ∈ (menu price).numbers, m.Normal := by
    simp [menu, dish, numbers, numbersOfItems, numbersOfMembers, int, whole, normal]
  have all' : ∀ n ∈ (turnedMenu price').numbers, n.Normal := by
    simp [turnedMenu, dish, numbers, numbersOfItems, numbersOfMembers, int, whole, normal']
  exact fun m listed n listed' => Number.text_inj (all m listed) (all' n listed')

/-- The order of the members does not show, but it shows whether the price is a whole number. -/
theorem canonical_menu :
    (menu (.decimal ⟨false, 4, 0⟩)).canonical = (turnedMenu (.decimal ⟨false, 4, 0⟩)).canonical ∧
      (menu (.decimal ⟨false, 4, 0⟩)).canonical ≠ (turnedMenu (.integer 4)).canonical := by
  have normal : (Number.decimal ⟨false, 4, 0⟩).Normal := .inl (by decide)
  have whole : (Number.integer 4).Normal := trivial
  constructor
  · refine (canonical_eq_iff (distinct_menu _) (apart_menu normal normal)).mpr ?_
    refine ⟨[("day", int 3), ("dish", .object (dish _).reverse)], .swap _ _ _, rfl, rfl, rfl, ?_, trivial⟩
    exact ⟨dish _, (List.reverse_perm _).symm, rfl, rfl, rfl, rfl, rfl, ⟨rfl, rfl, trivial⟩, trivial⟩
  · intro same
    have reordered := (canonical_eq_iff (distinct_menu _) (apart_menu normal whole)).mp same
    have sorted := sorted_of_reordered _ _ (distinct_menu _) reordered
    have listed : Number.decimal ⟨false, 4, 0⟩ ∈ (menu (.decimal ⟨false, 4, 0⟩)).sorted.numbers :=
      (mem_numbers_sorted _).mpr (by decide)
    rw [sorted, mem_numbers_sorted] at listed
    exact absurd listed (by decide)

end Json
end DesignCompiler
