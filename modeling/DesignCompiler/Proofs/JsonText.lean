import DesignCompiler.Json.Printer
import Mathlib.Data.List.Basic

/-!
What the text of a JSON value tells. Two values with the same text differ in nothing but how numbers of
the same text are held; where a value ends in a longer text, can be seen from the text.
-/
namespace DesignCompiler

namespace Decimal

/-- A character that numbers are written with. -/
def isNumeral (c : Char) : Bool := c.isDigit || ['-', '+', '.', 'e'].contains c

/-- A text of numerals. -/
def Numerals (text : List Char) : Prop := ∀ c ∈ text, isNumeral c = true

theorem numerals_of_all {text : List Char} (all : text.all isNumeral = true) : Numerals text :=
  List.all_eq_true.mp all

theorem numerals_append {front back : List Char} (first : Numerals front) (second : Numerals back) :
    Numerals (front ++ back) :=
  List.forall_mem_append.mpr ⟨first, second⟩

theorem numerals_digits (n : Nat) : Numerals (Nat.toDigits 10 n) := by
  intro c member
  rw [isNumeral, Nat.isDigit_of_mem_toDigits (by decide) (by decide) member]
  rfl

theorem numerals_natText (n : Nat) : Numerals (natText n).toList := by
  rw [natText, String.toList_ofList]
  exact numerals_digits n

theorem natText_ne_nil (n : Nat) : (natText n).toList ≠ [] := by
  rw [natText, String.toList_ofList]
  exact Nat.toDigits_ne_nil

theorem numerals_zeros (n : Nat) : Numerals (zeros n).toList := by
  intro c member
  rw [zeros, String.toList_ofList] at member
  obtain rfl := List.eq_of_mem_replicate member
  decide

theorem numerals_sign (d : Decimal) : Numerals d.sign.toList := by
  rw [sign]
  split
  · exact numerals_of_all rfl
  · simp [Numerals]

theorem numerals_positional (d : Decimal) : Numerals d.positional.toList := by
  simp only [positional]
  split
  · rw [String.toList_append]
    exact numerals_append (numerals_natText _) (numerals_zeros _)
  · have shown := numerals_digits d.digits
    split
    · simp only [String.toList_append, String.toList_ofList]
      refine numerals_append (numerals_append ?_ ?_) ?_
      · exact fun c member => shown c (List.mem_of_mem_take member)
      · exact numerals_of_all rfl
      · exact fun c member => shown c (List.mem_of_mem_drop member)
    · simp only [String.toList_append]
      refine numerals_append (numerals_append ?_ (numerals_zeros _)) (numerals_natText _)
      exact numerals_of_all rfl

theorem positional_ne_nil (d : Decimal) : d.positional.toList ≠ [] := by
  simp only [positional]
  split
  · rw [String.toList_append]
    exact List.append_ne_nil_of_left_ne_nil (natText_ne_nil _) _
  · split <;> simp

theorem numerals_scientific (d : Decimal) : Numerals d.scientific.toList := by
  have shown := numerals_digits d.digits
  simp only [scientific, String.toList_append]
  refine numerals_append (numerals_append ?_ ?_) (numerals_natText _)
  · split
    · exact numerals_of_all rfl
    · rename_i digit same
      rw [String.toList_ofList, ← same]
      exact shown
    · rename_i digit rest _ same
      rw [same] at shown
      obtain ⟨first, others⟩ := List.forall_mem_cons.mp shown
      rw [String.toList_ofList]
      exact List.forall_mem_cons.mpr ⟨first, List.forall_mem_cons.mpr ⟨by decide, others⟩⟩
  · split
    · exact numerals_of_all rfl
    · exact numerals_of_all rfl

theorem numerals_dataText (d : Decimal) : Numerals d.dataText.toList := by
  simp only [dataText, String.toList_append]
  refine numerals_append (numerals_sign _) ?_
  split
  · rw [String.toList_append]
    refine numerals_append (numerals_positional _) ?_
    split
    · exact numerals_of_all rfl
    · simp [Numerals]
  · exact numerals_scientific _

theorem dataText_ne_nil (d : Decimal) : d.dataText.toList ≠ [] := by
  simp only [dataText, String.toList_append]
  refine List.append_ne_nil_of_right_ne_nil _ ?_
  split
  · rw [String.toList_append]
    exact List.append_ne_nil_of_left_ne_nil (positional_ne_nil _) _
  · simp only [scientific, String.toList_append]
    exact List.append_ne_nil_of_right_ne_nil _ (natText_ne_nil _)

end Decimal

namespace Json

open Decimal (isNumeral Numerals)

theorem Number.numerals_text (number : Number) : Numerals number.text.toList := by
  cases number with
  | integer value =>
    cases value with
    | ofNat n => exact Decimal.numerals_natText n
    | negSucc n =>
      rw [text, Decimal.intText, String.toList_append]
      exact Decimal.numerals_append (Decimal.numerals_of_all rfl)
        (Decimal.numerals_natText _)
  | decimal value => exact Decimal.numerals_dataText value

theorem Number.text_ne_nil (number : Number) : number.text.toList ≠ [] := by
  cases number with
  | integer value =>
    cases value with
    | ofNat n => exact Decimal.natText_ne_nil n
    | negSucc n => simp [text, Decimal.intText]
  | decimal value => exact Decimal.dataText_ne_nil value

theorem digitChar_inj {m n : Nat} (small : m < 16) (other : n < 16)
    (same : Nat.digitChar m = Nat.digitChar n) : m = n := by
  have all : ∀ m < 16, ∀ n < 16, Nat.digitChar m = Nat.digitChar n → m = n := by decide
  exact all m small n other same

/-- The characters that are written by one letter after a mark. -/
def marks : List (Char × Char) :=
  [('"', '"'), ('\\', '\\'), ('\n', 'n'), ('\r', 'r'), ('\t', 't'), ('\x08', 'b'), ('\x0c', 'f')]

/-- A character stands for itself, or it is written after a mark: by a letter or by a number. -/
theorem escapeChar_cases (c : Char) :
    (∃ letter, (c, letter) ∈ marks ∧ escapeChar c = ['\\', letter]) ∨
      (c.toNat < 32 ∧ escapeChar c =
        ['\\', 'u', '0', '0', hexDigit (c.toNat / 16), hexDigit (c.toNat % 16)]) ∨
      (c ≠ '"' ∧ c ≠ '\\' ∧ escapeChar c = [c]) := by
  unfold escapeChar
  split
  · exact .inl ⟨'"', by decide, rfl⟩
  · exact .inl ⟨'\\', by decide, rfl⟩
  · exact .inl ⟨'n', by decide, rfl⟩
  · exact .inl ⟨'r', by decide, rfl⟩
  · exact .inl ⟨'t', by decide, rfl⟩
  · exact .inl ⟨'b', by decide, rfl⟩
  · exact .inl ⟨'f', by decide, rfl⟩
  · rename_i quote back _ _ _ _ _
    split
    · exact .inr (.inl ⟨‹_›, rfl⟩)
    · exact .inr (.inr ⟨quote, back, rfl⟩)

private theorem letters_distinct :
    ∀ one ∈ marks, one.2 ≠ 'u' ∧ ∀ other ∈ marks, one.2 = other.2 → one.1 = other.1 := by decide

/-- No character is written as a beginning of another one, whatever follows. -/
theorem escapeChar_append_inj {c d : Char} {s t : List Char}
    (same : escapeChar c ++ s = escapeChar d ++ t) : c = d ∧ s = t := by
  rcases escapeChar_cases c with ⟨letter, known, text⟩ | ⟨low, text⟩ | ⟨_, unmarked, text⟩ <;>
    rcases escapeChar_cases d with ⟨letter', known', text'⟩ | ⟨low', text'⟩ | ⟨_, unmarked', text'⟩ <;>
    rw [text, text'] at same <;> simp only [List.cons_append, List.nil_append, List.cons.injEq] at same
  · obtain ⟨_, letters, rest⟩ := same
    exact ⟨(letters_distinct _ known).2 _ known' letters, rest⟩
  · exact absurd same.2.1 (letters_distinct _ known).1
  · exact absurd same.1.symm unmarked'
  · exact absurd same.2.1.symm (letters_distinct _ known').1
  · obtain ⟨_, _, _, _, high, least, rest⟩ := same
    have front := digitChar_inj (by omega) (by omega) high
    have back := digitChar_inj (by omega) (by omega) least
    exact ⟨Char.toNat_inj.mp (by omega), rest⟩
  · exact absurd same.1.symm unmarked'
  · exact absurd same.1 unmarked
  · exact absurd same.1 unmarked
  · exact same

/-- A character does not begin like the end of a text. -/
theorem escapeChar_ne_quote (c : Char) (s t : List Char) : escapeChar c ++ s ≠ '"' :: t := by
  intro same
  rcases escapeChar_cases c with ⟨letter, _, text⟩ | ⟨_, text⟩ | ⟨other, _, text⟩ <;>
    rw [text] at same <;> simp only [List.cons_append, List.nil_append, List.cons.injEq] at same
  · exact absurd same.1 (by decide)
  · exact absurd same.1 (by decide)
  · exact other same.1

theorem escape_append_inj {x y s t : List Char}
    (same : x.flatMap escapeChar ++ '"' :: s = y.flatMap escapeChar ++ '"' :: t) : x = y ∧ s = t := by
  induction x generalizing y with
  | nil =>
    cases y with
    | nil => exact ⟨rfl, (List.cons.inj same).2⟩
    | cons d y =>
      rw [List.flatMap_cons, List.append_assoc] at same
      exact absurd same.symm (escapeChar_ne_quote d _ _)
  | cons c x ih =>
    rw [List.flatMap_cons, List.append_assoc] at same
    cases y with
    | nil => exact absurd same (escapeChar_ne_quote c _ _)
    | cons d y =>
      rw [List.flatMap_cons, List.append_assoc] at same
      obtain ⟨rfl, others⟩ := escapeChar_append_inj same
      obtain ⟨rfl, rest⟩ := ih others
      exact ⟨rfl, rest⟩

theorem toList_quote (text : String) :
    (quote text).toList = '"' :: (text.toList.flatMap escapeChar ++ ['"']) := by
  simp [quote]

/-- A text between quotes shows what it is and where it ends. -/
theorem quote_append_inj {a b : String} {s t : List Char}
    (same : (quote a).toList ++ s = (quote b).toList ++ t) : a = b ∧ s = t := by
  rw [toList_quote, toList_quote] at same
  simp only [List.cons_append, List.append_assoc, List.cons.injEq, true_and, List.nil_append] at same
  obtain ⟨texts, rest⟩ := escape_append_inj same
  exact ⟨String.toList_inj.mp texts, rest⟩

mutual

/-- The values are the same but for how numbers of the same text are held. -/
def Alike : Json → Json → Prop
  | .null, .null => True
  | .bool one, .bool other => one = other
  | .number one, .number other => one.text = other.text
  | .string one, .string other => one = other
  | .array one, .array other => AlikeItems one other
  | .object one, .object other => AlikeMembers one other
  | _, _ => False

def AlikeItems : List Json → List Json → Prop
  | [], [] => True
  | one :: rest, other :: others => Alike one other ∧ AlikeItems rest others
  | _, _ => False

def AlikeMembers : List (String × Json) → List (String × Json) → Prop
  | [], [] => True
  | (key, one) :: rest, (name, other) :: others =>
    key = name ∧ Alike one other ∧ AlikeMembers rest others
  | _, _ => False

end

/-- The kind of value that a text begins with; an end of a list or an object is a kind of its own. -/
def kindOf : Char → Nat
  | 'n' => 0
  | 't' => 1
  | 'f' => 1
  | '"' => 2
  | '[' => 3
  | '\x7b' => 4
  | ']' => 5
  | '\x7d' => 5
  | _ => 6

def kind : Json → Nat
  | .null => 0
  | .bool _ => 1
  | .string _ => 2
  | .array _ => 3
  | .object _ => 4
  | .number _ => 6

theorem kindOf_numeral {c : Char} (numeral : isNumeral c = true) : kindOf c = 6 := by
  unfold kindOf
  split <;> first | rfl | exact absurd numeral (by decide)

/-- The first character of a text tells the kind of the value. -/
theorem compact_cons (value : Json) :
    ∃ c rest, value.compact.toList = c :: rest ∧ kindOf c = value.kind := by
  cases value with
  | null => exact ⟨_, _, rfl, rfl⟩
  | bool value => cases value <;> exact ⟨_, _, rfl, rfl⟩
  | number value =>
    obtain ⟨c, rest, same⟩ := List.exists_cons_of_ne_nil value.text_ne_nil
    refine ⟨c, rest, by rw [compact, same], kindOf_numeral (value.numerals_text c ?_)⟩
    simp [same]
  | string value =>
    refine ⟨'"', value.toList.flatMap escapeChar ++ ['"'], ?_, rfl⟩
    rw [compact, toList_quote]
  | array items =>
    refine ⟨'[', (compactItems items).toList ++ [']'], ?_, rfl⟩
    simp [compact]
  | object members =>
    refine ⟨'\x7b', (compactMembers members).toList ++ ['\x7d'], ?_, rfl⟩
    simp [compact]

theorem kind_eq {v w : Json} {s t : List Char}
    (same : v.compact.toList ++ s = w.compact.toList ++ t) : v.kind = w.kind := by
  obtain ⟨c, front, textV, kindV⟩ := compact_cons v
  obtain ⟨d, back, textW, kindW⟩ := compact_cons w
  rw [textV, textW, List.cons_append, List.cons_append, List.cons.injEq] at same
  rw [← kindV, ← kindW, same.1]

/-- The text is at its end, or goes on after the end of a value. -/
def Ends (text : List Char) : Prop := ∀ c ∈ text.head?, c ∈ [',', ']', '\x7d']

theorem numerals_append_inj {x y s t : List Char} (front : Numerals x) (other : Numerals y)
    (ends : Ends s) (ends' : Ends t) (same : x ++ s = y ++ t) : x = y ∧ s = t := by
  have stops : ∀ {c : Char} {rest : List Char}, Ends (c :: rest) → isNumeral c = true → False := by
    intro c rest ends numeral
    have closing := ends c rfl
    simp only [List.mem_cons, List.not_mem_nil, or_false] at closing
    rcases closing with rfl | rfl | rfl <;> exact absurd numeral (by decide)
  induction x generalizing y with
  | nil =>
    cases y with
    | nil => exact ⟨rfl, same⟩
    | cons d y =>
      rw [List.nil_append, List.cons_append] at same
      exact (stops (same ▸ ends) (other d List.mem_cons_self)).elim
  | cons c x ih =>
    cases y with
    | nil =>
      rw [List.nil_append, List.cons_append] at same
      exact (stops (same ▸ ends') (front c List.mem_cons_self)).elim
    | cons d y =>
      rw [List.cons_append, List.cons_append, List.cons.injEq] at same
      obtain ⟨rfl, others⟩ := same
      obtain ⟨rfl, rest⟩ := ih (List.forall_mem_cons.mp front).2 (List.forall_mem_cons.mp other).2 others
      exact ⟨rfl, rest⟩

/-- What follows an item of a list. -/
def itemsAfter : List Json → List Char
  | [] => []
  | item :: rest => ',' :: (compactItems (item :: rest)).toList

theorem toList_compactItems (item : Json) (rest : List Json) :
    (compactItems (item :: rest)).toList = item.compact.toList ++ itemsAfter rest := by
  cases rest with
  | nil => simp [compactItems, itemsAfter]
  | cons next rest => simp [compactItems, itemsAfter]

/-- What follows a member of an object. -/
def membersAfter : List (String × Json) → List Char
  | [] => []
  | entry :: rest => ',' :: (compactMembers (entry :: rest)).toList

theorem toList_compactMembers (key : String) (value : Json) (rest : List (String × Json)) :
    (compactMembers ((key, value) :: rest)).toList =
      (quote key).toList ++ ':' :: (value.compact.toList ++ membersAfter rest) := by
  cases rest with
  | nil => simp [compactMembers, membersAfter]
  | cons next rest => simp [compactMembers, membersAfter]

theorem ends_itemsAfter (rest : List Json) (s : List Char) : Ends (itemsAfter rest ++ ']' :: s) := by
  cases rest <;> simp [itemsAfter, Ends]

theorem ends_membersAfter (rest : List (String × Json)) (s : List Char) :
    Ends (membersAfter rest ++ '\x7d' :: s) := by
  cases rest <;> simp [membersAfter, Ends]

theorem toList_array (items : List Json) :
    (array items).compact.toList = '[' :: ((compactItems items).toList ++ [']']) := by
  simp [compact]

theorem toList_object (members : List (String × Json)) :
    (object members).compact.toList = '\x7b' :: ((compactMembers members).toList ++ ['\x7d']) := by
  simp [compact]

/-- No value begins like the end of a list. -/
theorem compact_ne_close (value : Json) (s t : List Char) : value.compact.toList ++ s ≠ ']' :: t := by
  obtain ⟨c, rest, text, known⟩ := compact_cons value
  rw [text, List.cons_append]
  intro same
  obtain ⟨rfl, _⟩ := List.cons.inj same
  cases value <;> simp [kind, kindOf] at known

mutual

/-- The text of a value, whatever follows it, shows the value and where it ends. -/
theorem compact_append_inj {s t : List Char} (ends : Ends s) (ends' : Ends t) : (v w : Json) →
    v.compact.toList ++ s = w.compact.toList ++ t → Alike v w ∧ s = t
  | .array items, w, same => by
    have kinds := kind_eq same
    cases w with
    | array others =>
      rw [toList_array, toList_array] at same
      simp only [List.cons_append, List.append_assoc, List.cons.injEq, true_and, List.nil_append] at same
      exact items_append_inj items others same
    | _ => simp [kind] at kinds
  | .object members, w, same => by
    have kinds := kind_eq same
    cases w with
    | object others =>
      rw [toList_object, toList_object] at same
      simp only [List.cons_append, List.append_assoc, List.cons.injEq, true_and, List.nil_append] at same
      exact members_append_inj members others same
    | _ => simp [kind] at kinds
  | .number value, w, same => by
    have kinds := kind_eq same
    cases w with
    | number other =>
      obtain ⟨texts, rest⟩ := numerals_append_inj value.numerals_text other.numerals_text ends ends' same
      exact ⟨String.toList_inj.mp texts, rest⟩
    | _ => simp [kind] at kinds
  | .string value, w, same => by
    have kinds := kind_eq same
    cases w with
    | string other => exact quote_append_inj same
    | _ => simp [kind] at kinds
  | .null, w, same => by
    have kinds := kind_eq same
    cases w with
    | null => exact ⟨trivial, List.append_cancel_left same⟩
    | _ => simp [kind] at kinds
  | .bool value, w, same => by
    have kinds := kind_eq same
    cases w with
    | bool other =>
      cases value <;> cases other
      · exact ⟨rfl, List.append_cancel_left same⟩
      · simp [compact] at same
      · simp [compact] at same
      · exact ⟨rfl, List.append_cancel_left same⟩
    | _ => simp [kind] at kinds

theorem items_append_inj {s t : List Char} : (xs ys : List Json) →
    (compactItems xs).toList ++ ']' :: s = (compactItems ys).toList ++ ']' :: t →
    AlikeItems xs ys ∧ s = t
  | [], ys, same => by
    cases ys with
    | nil => exact ⟨trivial, (List.cons.inj same).2⟩
    | cons y ys =>
      rw [toList_compactItems, List.append_assoc] at same
      exact absurd same.symm (compact_ne_close y _ _)
  | x :: xs, ys, same => by
    rw [toList_compactItems, List.append_assoc] at same
    cases ys with
    | nil => exact absurd same (compact_ne_close x _ _)
    | cons y ys =>
      rw [toList_compactItems, List.append_assoc] at same
      obtain ⟨first, rest⟩ := compact_append_inj (ends_itemsAfter xs s) (ends_itemsAfter ys t) x y same
      cases xs with
      | nil =>
        cases ys with
        | nil => exact ⟨⟨first, trivial⟩, (List.cons.inj rest).2⟩
        | cons next ys => simp [itemsAfter] at rest
      | cons item xs =>
        cases ys with
        | nil => simp [itemsAfter] at rest
        | cons next ys =>
          obtain ⟨others, rest⟩ := items_append_inj (item :: xs) (next :: ys) (List.cons.inj rest).2
          exact ⟨⟨first, others⟩, rest⟩

theorem members_append_inj {s t : List Char} : (xs ys : List (String × Json)) →
    (compactMembers xs).toList ++ '\x7d' :: s = (compactMembers ys).toList ++ '\x7d' :: t →
    AlikeMembers xs ys ∧ s = t
  | [], [], same => ⟨trivial, (List.cons.inj same).2⟩
  | [], (name, y) :: ys, same => by
    rw [toList_compactMembers, toList_quote] at same
    simp [compactMembers] at same
  | (key, x) :: xs, [], same => by
    rw [toList_compactMembers, toList_quote] at same
    simp [compactMembers] at same
  | (key, x) :: xs, (name, y) :: ys, same => by
    rw [toList_compactMembers, toList_compactMembers, List.append_assoc, List.append_assoc] at same
    obtain ⟨rfl, after⟩ := quote_append_inj same
    simp only [List.cons_append, List.cons.injEq, true_and, List.append_assoc] at after
    obtain ⟨first, rest⟩ :=
      compact_append_inj (ends_membersAfter xs s) (ends_membersAfter ys t) x y after
    cases xs with
    | nil =>
      cases ys with
      | nil => exact ⟨⟨rfl, first, trivial⟩, (List.cons.inj rest).2⟩
      | cons next ys => simp [membersAfter] at rest
    | cons entry xs =>
      cases ys with
      | nil => simp [membersAfter] at rest
      | cons next ys =>
        obtain ⟨others, rest⟩ := members_append_inj (entry :: xs) (next :: ys) (List.cons.inj rest).2
        exact ⟨⟨rfl, first, others⟩, rest⟩

end

/-- Values with the same text are alike. -/
theorem alike_of_compact {v w : Json} (same : v.compact = w.compact) : Alike v w := by
  have closed : Ends [] := by simp [Ends]
  exact (compact_append_inj closed closed v w (by rw [same])).1

end Json
end DesignCompiler
