import DesignCompiler.Document

/-!
Markup as it is read back. A machine takes one character after the other; it knows what the next one
belongs to and which elements are open. Entities in texts and in attributes are read as the characters
they name. What is written in sound markup is what the machine reads.
-/
namespace DesignCompiler

/-- A character of a text, or an element with its attributes and what is in it. -/
inductive Markup where
  | char (c : Char)
  | element (tag : String) (pairs : List (String × String)) (inside : List Markup)

namespace Markup

/-- The characters of a text. -/
def text (text : String) : List Markup := text.toList.map char

def char? : Markup → Option Char
  | .char c => some c
  | .element .. => none

theorem char?_char (c : Char) : char? (.char c) = some c := rfl

/-- The text, where there is nothing but characters. -/
def text? (markup : List Markup) : Option String := (markup.mapM char?).map String.ofList

theorem mapM_map_eq_some {β γ : Type} {read : γ → Option β} {write : β → γ}
    (back : ∀ x, read (write x) = some x) (items : List β) :
    (items.map write).mapM read = some items := by
  induction items with
  | nil => rfl
  | cons first rest ih => rw [List.map_cons, List.mapM_cons, back, ih]; rfl

theorem text?_text (s : String) : text? (text s) = some s := by
  rw [text?, text, mapM_map_eq_some char?_char, Option.map_some, String.ofList_toList]

/-- A key with its value between quotes. -/
def printPair (pair : String × String) : List Char :=
  pair.1.toList ++ '=' :: '"' :: (pair.2.toList ++ ['"'])

/-- The beginning of an element, after its first character. -/
def printHead (tag : String) (pairs : List (String × String)) : List Char :=
  tag.toList ++ (pairs.flatMap (fun pair => ' ' :: printPair pair) ++ ['>'])

def printEnd (tag : String) : List Char := '<' :: '/' :: (tag.toList ++ ['>'])

mutual

/-- Markup as it is written. Only texts are written with entities. -/
def print : Markup → List Char
  | .char c => Document.escapeChar c
  | .element tag pairs inside => '<' :: (printHead tag pairs ++ (printAll inside ++ printEnd tag))

def printAll : List Markup → List Char
  | [] => []
  | markup :: rest => markup.print ++ printAll rest

end

theorem printAll_append (front back : List Markup) :
    printAll (front ++ back) = printAll front ++ printAll back := by
  induction front with
  | nil => rfl
  | cons markup rest ih => rw [List.cons_append, printAll, printAll, ih, List.append_assoc]

theorem printAll_text (s : String) : printAll (text s) = (Document.escape s).toList := by
  rw [text, Document.escape, String.toList_ofList]
  induction s.toList with
  | nil => rfl
  | cons c rest ih => rw [List.map_cons, printAll, ih, print, List.flatMap_cons]

/-- The beginning of an element. -/
structure Head where
  tag : String
  pairs : List (String × String)

/-- What the next character belongs to. Letters read so far stand last first. -/
inductive Place where
  | text
  | entity (name : List Char)
  | tag (name : List Char)
  | key (head : Head) (name : List Char)
  | quote (head : Head) (key : String)
  | value (head : Head) (key : String) (value : List Char)
  | valueEntity (head : Head) (key : String) (value name : List Char)
  | gap (head : Head)

/-- The markup read so far, last first: inside of the innermost open element, and before each open
element. -/
structure Reader where
  place : Place
  inside : List Markup
  above : List (Head × List Markup)

def letters (reversed : List Char) : String := String.ofList reversed.reverse

/-- The five entities. -/
def entities : List (String × Char) :=
  [("amp", '&'), ("lt", '<'), ("gt", '>'), ("quot", '"'), ("apos", '\'')]

namespace Reader

/-- Goes into an element. -/
def enter (reader : Reader) (head : Head) : Reader :=
  ⟨.text, [], (head, reader.inside) :: reader.above⟩

/-- Leaves the innermost element, if it has the given tag. -/
def leave (reader : Reader) (tag : String) : Option Reader :=
  match reader.above with
  | [] => none
  | (head, before) :: above =>
    if head.tag = tag then
      some ⟨.text, .element head.tag head.pairs reader.inside.reverse :: before, above⟩
    else none

/-- Takes a character. -/
def step (reader : Reader) (c : Char) : Option Reader :=
  match reader.place with
  | .text =>
    if c = '<' then some { reader with place := .tag [] }
    else if c = '&' then some { reader with place := .entity [] }
    else some { reader with inside := .char c :: reader.inside }
  | .entity name =>
    if c = ';' then
      (entities.lookup (letters name)).map fun meant =>
        { reader with place := .text, inside := .char meant :: reader.inside }
    else some { reader with place := .entity (c :: name) }
  | .tag name =>
    if c = '>' then
      match name.reverse with
      | '/' :: tag => reader.leave (String.ofList tag)
      | tag => some (reader.enter ⟨String.ofList tag, []⟩)
    else if c = ' ' then some { reader with place := .key ⟨letters name, []⟩ [] }
    else some { reader with place := .tag (c :: name) }
  | .key head name =>
    if c = '=' then some { reader with place := .quote head (letters name) }
    else some { reader with place := .key head (c :: name) }
  | .quote head key => if c = '"' then some { reader with place := .value head key [] } else none
  | .value head key value =>
    if c = '"' then
      some { reader with place := .gap ⟨head.tag, head.pairs ++ [(key, letters value)]⟩ }
    else if c = '&' then some { reader with place := .valueEntity head key value [] }
    else some { reader with place := .value head key (c :: value) }
  | .valueEntity head key value name =>
    if c = ';' then
      (entities.lookup (letters name)).map fun meant =>
        { reader with place := .value head key (meant :: value) }
    else some { reader with place := .valueEntity head key value (c :: name) }
  | .gap head =>
    if c = '>' then some (reader.enter head)
    else if c = ' ' then some { reader with place := .key head [] }
    else none

/-- Takes characters one after the other. -/
def run (reader : Reader) (chars : List Char) : Option Reader := chars.foldlM step reader

@[simp] theorem run_nil (reader : Reader) : reader.run [] = some reader := rfl

@[simp] theorem run_cons (reader : Reader) (c : Char) (chars : List Char) :
    reader.run (c :: chars) = (reader.step c).bind (run · chars) := rfl

@[simp] theorem run_append (reader : Reader) (front back : List Char) :
    reader.run (front ++ back) = (reader.run front).bind (run · back) := List.foldlM_append

/-- Characters that only add to the letters of a place are all collected there. -/
theorem run_collect {place : List Char → Place} {inside : List Markup}
    {above : List (Head × List Markup)} {chars : List Char}
    (adds : ∀ c ∈ chars, ∀ name,
      step ⟨place name, inside, above⟩ c = some ⟨place (c :: name), inside, above⟩)
    (name : List Char) :
    run ⟨place name, inside, above⟩ chars =
      some ⟨place (chars.reverse ++ name), inside, above⟩ := by
  induction chars generalizing name with
  | nil => rfl
  | cons c rest ih =>
    obtain ⟨first, others⟩ := List.forall_mem_cons.mp adds
    rw [run_cons, first, Option.bind_some, ih others, List.reverse_cons, List.append_assoc]
    rfl

end Reader

/-- All the markup in a text, if every element in it is closed. -/
def read? (text : String) : Option (List Markup) :=
  match Reader.run ⟨.text, [], []⟩ text.toList with
  | some ⟨.text, inside, []⟩ => some inside.reverse
  | _ => none

/-- A text without the characters that end a tag or mark an end tag. -/
def IsTag (tag : String) : Prop := ∀ c ∈ [' ', '>', '/'], c ∉ tag.toList

/-- A text that can stand between quotes as it is. -/
def Quotable (value : String) : Prop := '"' ∉ value.toList ∧ '&' ∉ value.toList

instance (tag : String) : Decidable (IsTag tag) := List.decidableBAll _ _

instance (value : String) : Decidable (Quotable value) := inferInstanceAs (Decidable (_ ∧ _))

/-- Tags and keys have no characters that end them, and what stands in attributes needs no entities. -/
inductive Sound : Markup → Prop
  | char (c : Char) : Sound (.char c)
  | element {tag : String} {pairs : List (String × String)} {inside : List Markup} (ends : IsTag tag)
      (keys : ∀ pair ∈ pairs, '=' ∉ pair.1.toList) (values : ∀ pair ∈ pairs, Quotable pair.2)
      (sound : ∀ markup ∈ inside, Sound markup) : Sound (.element tag pairs inside)

theorem sound_text (s : String) : ∀ markup ∈ text s, Sound markup := by
  intro markup member
  obtain ⟨c, -, rfl⟩ := List.mem_map.mp member
  exact .char c

theorem letters_reverse (s : String) : letters s.toList.reverse = s := by
  rw [letters, List.reverse_reverse, String.ofList_toList]

namespace Reader

variable {inside : List Markup} {above : List (Head × List Markup)}

theorem run_escapeChar (c : Char) :
    run ⟨.text, inside, above⟩ (Document.escapeChar c) =
      some ⟨.text, .char c :: inside, above⟩ := by
  unfold Document.escapeChar
  split
  case h_6 mark less _ _ _ =>
    have unmarked : c ≠ '&' := mark
    have closed : c ≠ '<' := less
    simp [step, unmarked, closed]
  all_goals rfl

theorem run_tag {tag : String} (ends : IsTag tag) (name : List Char) :
    run ⟨.tag name, inside, above⟩ tag.toList =
      some ⟨.tag (tag.toList.reverse ++ name), inside, above⟩ := by
  refine run_collect (fun c member name => ?_) name
  have gapless : c ≠ ' ' := fun same => ends ' ' (by decide) (same ▸ member)
  have more : c ≠ '>' := fun same => ends '>' (by decide) (same ▸ member)
  simp [step, gapless, more]

theorem run_pair {pair : String × String} (key : '=' ∉ pair.1.toList) (value : Quotable pair.2)
    (head : Head) :
    run ⟨.key head [], inside, above⟩ (printPair pair) =
      some ⟨.gap ⟨head.tag, head.pairs ++ [pair]⟩, inside, above⟩ := by
  have named : run ⟨.key head [], inside, above⟩ pair.1.toList =
      some ⟨.key head pair.1.toList.reverse, inside, above⟩ := by
    rw [run_collect (fun c member name => ?_), List.append_nil]
    have more : c ≠ '=' := fun same => key (same ▸ member)
    simp [step, more]
  have held : run ⟨.value head pair.1 [], inside, above⟩ pair.2.toList =
      some ⟨.value head pair.1 pair.2.toList.reverse, inside, above⟩ := by
    rw [run_collect (fun c member name => ?_), List.append_nil]
    have more : c ≠ '"' := fun same => value.1 (same ▸ member)
    have plain : c ≠ '&' := fun same => value.2 (same ▸ member)
    simp [step, more, plain]
  simp [printPair, named, held, step, letters_reverse]

/-- After a first pair, the others are read one after the other. -/
theorem run_pairs {pairs : List (String × String)} (keys : ∀ pair ∈ pairs, '=' ∉ pair.1.toList)
    (values : ∀ pair ∈ pairs, Quotable pair.2) (head : Head) :
    run ⟨.gap head, inside, above⟩ (pairs.flatMap fun pair => ' ' :: printPair pair) =
      some ⟨.gap ⟨head.tag, head.pairs ++ pairs⟩, inside, above⟩ := by
  induction pairs generalizing head with
  | nil => simp
  | cons pair rest ih =>
    obtain ⟨key, keys⟩ := List.forall_mem_cons.mp keys
    obtain ⟨value, values⟩ := List.forall_mem_cons.mp values
    have spaced : step ⟨.gap head, inside, above⟩ ' ' = some ⟨.key head [], inside, above⟩ := rfl
    simp [spaced, run_pair key value, ih keys values]

theorem run_head {tag : String} {pairs : List (String × String)}
    (ends : IsTag tag) (keys : ∀ pair ∈ pairs, '=' ∉ pair.1.toList)
    (values : ∀ pair ∈ pairs, Quotable pair.2) :
    run ⟨.tag [], inside, above⟩ (printHead tag pairs) =
      some ⟨.text, [], (⟨tag, pairs⟩, inside) :: above⟩ := by
  rw [printHead, run_append, run_tag ends, List.append_nil, Option.bind_some]
  cases pairs with
  | nil =>
    have started : ∀ rest, tag.toList = '/' :: rest → False := by
      intro rest same
      exact ends '/' (by decide) (same ▸ List.mem_cons_self)
    simp only [List.flatMap_nil, List.nil_append, run_cons, step, List.reverse_reverse, if_true]
    simp [enter]
  | cons pair rest =>
    obtain ⟨key, keys⟩ := List.forall_mem_cons.mp keys
    obtain ⟨value, values⟩ := List.forall_mem_cons.mp values
    have spaced : step ⟨.tag tag.toList.reverse, inside, above⟩ ' ' =
        some ⟨.key ⟨tag, []⟩ [], inside, above⟩ := by
      simp [step, letters_reverse]
    have entered (head : Head) : step ⟨.gap head, inside, above⟩ '>' =
        some ⟨.text, [], (head, inside) :: above⟩ := rfl
    simp [spaced, run_pair key value, run_pairs keys values, entered]

theorem run_end {tag : String} {pairs : List (String × String)} {before : List Markup}
    (ends : IsTag tag) :
    run ⟨.text, inside, (⟨tag, pairs⟩, before) :: above⟩ (printEnd tag) =
      some ⟨.text, .element tag pairs inside.reverse :: before, above⟩ := by
  simp [printEnd, run_tag ends, step, leave]

/-- Markup that is read piece by piece is read as a whole. -/
theorem run_printAll {content : List Markup}
    (each : ∀ markup ∈ content, ∀ inside above,
      run ⟨.text, inside, above⟩ markup.print = some ⟨.text, markup :: inside, above⟩)
    (inside : List Markup) (above : List (Head × List Markup)) :
    run ⟨.text, inside, above⟩ (printAll content) =
      some ⟨.text, content.reverse ++ inside, above⟩ := by
  induction content generalizing inside with
  | nil => rfl
  | cons first rest ih =>
    obtain ⟨own, others⟩ := List.forall_mem_cons.mp each
    rw [printAll, run_append, own, Option.bind_some, ih others, List.reverse_cons, List.append_assoc]
    rfl

end Reader

/-- Sound markup is read as it was, whatever surrounds it. -/
theorem Sound.run {markup : Markup} (sound : markup.Sound) (inside : List Markup)
    (above : List (Head × List Markup)) :
    Reader.run ⟨.text, inside, above⟩ markup.print = some ⟨.text, markup :: inside, above⟩ := by
  induction sound generalizing inside above with
  | char c => exact Reader.run_escapeChar c
  | @element tag pairs content ends keys values _ ih =>
    have opened : Reader.step ⟨.text, inside, above⟩ '<' = some ⟨.tag [], inside, above⟩ := rfl
    rw [print, Reader.run_cons, opened, Option.bind_some, Reader.run_append,
      Reader.run_head ends keys values, Option.bind_some, Reader.run_append,
      Reader.run_printAll ih, Option.bind_some, Reader.run_end ends, List.append_nil,
      List.reverse_reverse]

theorem read?_print {markup : List Markup} (sound : ∀ part ∈ markup, part.Sound) {text : String}
    (printed : text.toList = printAll markup) : read? text = some markup := by
  rw [read?, printed, Reader.run_printAll fun part member => (sound part member).run]
  simp

end Markup
end DesignCompiler
