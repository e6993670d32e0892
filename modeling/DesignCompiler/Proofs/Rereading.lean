import DesignCompiler.Proofs.Association
import DesignCompiler.Proofs.JsonText
import DesignCompiler.Store.Ledger

/-!
What was written is read back: texts and objects of the printer, and with them the file of a ledger.
-/
namespace DesignCompiler

namespace Json

open Reader (stringBody skipBlank value members hexDigit? hexQuad?)

section Texts

variable {strict : Bool} {taken rest : List Char}

theorem hexDigit?_hexDigit {n : Nat} (small : n < 16) : hexDigit? (hexDigit n) = some n := by
  have all : ∀ n < 16, hexDigit? (hexDigit n) = some n := by decide
  exact all n small

/-- Characters that do not show are not written as they are. -/
theorem plain_escapeChar {c : Char} (low : c.toNat < 32) : escapeChar c ≠ [c] := by
  rcases escapeChar_cases c with ⟨letter, known, text⟩ | ⟨_, text⟩ | _
  · simp [text]
  · simp [text]
  · unfold escapeChar
    split <;> simp [low]

/-- A character is read back from the way it is written. -/
theorem stringBody_escapeChar (c : Char) :
    stringBody strict none taken (escapeChar c ++ rest) = stringBody strict none (c :: taken) rest := by
  rcases escapeChar_cases c with ⟨letter, known, text⟩ | ⟨low, text⟩ | ⟨quote, back, text⟩
  · rw [text]
    simp only [marks, List.mem_cons, Prod.mk.injEq, List.not_mem_nil, or_false] at known
    rcases known with ⟨rfl, rfl⟩ | ⟨rfl, rfl⟩ | ⟨rfl, rfl⟩ | ⟨rfl, rfl⟩ | ⟨rfl, rfl⟩ | ⟨rfl, rfl⟩ |
      ⟨rfl, rfl⟩ <;> rfl
  · have code : hexQuad? '0' '0' (hexDigit (c.toNat / 16)) (hexDigit (c.toNat % 16)) =
        some c.toNat := by
      rw [hexQuad?, hexDigit?_hexDigit (by omega), hexDigit?_hexDigit (by omega)]
      have digits : ((0 * 16 + 0) * 16 + c.toNat / 16) * 16 + c.toNat % 16 = c.toNat := by omega
      exact congrArg some digits
    have high : Reader.isHighSurrogate c.toNat = false := by
      rw [Reader.isHighSurrogate, Bool.and_eq_false_iff]
      exact .inl (decide_eq_false (by omega))
    have second : Reader.isLowSurrogate c.toNat = false := by
      rw [Reader.isLowSurrogate, Bool.and_eq_false_iff]
      exact .inl (decide_eq_false (by omega))
    rw [text]
    simp [stringBody, code, high, second, Char.ofNat_toNat]
  · have visible : ¬c.toNat < 32 := fun low => plain_escapeChar low text
    rw [text, List.singleton_append, stringBody]
    · simp [visible]
    · exact quote
    · exact fun _ _ _ _ _ same => absurd same back
    · exact fun _ _ same => absurd same back

/-- A text is read back from between its quotes. -/
theorem stringBody_escape (text : List Char) :
    stringBody strict none taken (text.flatMap escapeChar ++ '"' :: rest) =
      some (String.ofList (taken.reverse ++ text), rest) := by
  induction text generalizing taken with
  | nil => simp [stringBody]
  | cons c text ih =>
    rw [List.flatMap_cons, List.append_assoc, stringBody_escapeChar, ih, List.reverse_cons,
      List.append_assoc, List.singleton_append]

end Texts

section Values

variable {depth level steps : Nat} {shape : Shape}

theorem skipBlank_indent (level : Nat) (rest : List Char) :
    skipBlank ((indent level).toList ++ rest) = skipBlank rest := by
  rw [indent, String.toList_ofList]
  induction 2 * level with
  | zero => rfl
  | succ n ih => exact ih

/-- At a level, a value is read back from its text, whatever stands behind, in so many steps. -/
def Reads (steps depth : Nat) (shape : Shape) (level : Nat) (held : Json) : Prop :=
  ∀ fuel rest, steps ≤ fuel →
    value fuel depth shape ((held.prettyAt level).toList ++ rest) = some (held, rest)

theorem toList_prettyString (level : Nat) (text : String) :
    ((string text).prettyAt level).toList = '"' :: (text.toList.flatMap escapeChar ++ ['"']) :=
  toList_quote text

theorem reads_string (text : String) : Reads 1 depth shape level (.string text) := by
  intro fuel rest enough
  obtain ⟨fuel, rfl⟩ := Nat.exists_eq_add_of_le' enough
  rw [toList_prettyString, List.cons_append, List.append_assoc, List.singleton_append, value]
  show (stringBody _ none [] (text.toList.flatMap escapeChar ++ '"' :: rest)).map _ = _
  rw [stringBody_escape, List.reverse_nil, List.nil_append, String.ofList_toList]
  rfl

/-- Members after the first one, each behind a comma. -/
def membersBehind (level : Nat) : List (String × Json) → List Char
  | [] => []
  | entry :: rest => ',' :: '\n' :: (prettyMembers level (entry :: rest)).toList

theorem toList_prettyMembers (level : Nat) (key : String) (held : Json) (rest : List (String × Json)) :
    (prettyMembers level ((key, held) :: rest)).toList = (indent level).toList ++
      '"' :: (key.toList.flatMap escapeChar ++
        '"' :: ':' :: ' ' :: ((held.prettyAt level).toList ++ membersBehind level rest)) := by
  cases rest with
  | nil => simp [prettyMembers, quote, membersBehind]
  | cons entry rest => simp [prettyMembers, quote, membersBehind]

theorem skipBlank_members (level : Nat) (key : String) (held : Json) (rest : List (String × Json))
    (after : List Char) :
    skipBlank ((prettyMembers level ((key, held) :: rest)).toList ++ after) =
      '"' :: (key.toList.flatMap escapeChar ++ '"' :: ':' :: ' ' ::
        ((held.prettyAt level).toList ++ (membersBehind level rest ++ after))) := by
  rw [toList_prettyMembers, List.append_assoc, skipBlank_indent]
  simp only [List.cons_append, List.append_assoc]
  rfl

theorem value_blank (fuel : Nat) (text : List Char) :
    value fuel depth shape (' ' :: text) = value fuel depth shape text := by
  have skipped : skipBlank (' ' :: text) = skipBlank text := rfl
  cases fuel with
  | zero => rw [value, value]
  | succ fuel => rw [value, value, skipped]

/-- How the reading of an object goes on behind a member. -/
def afterMember (fuel depth : Nat) (shape : Shape) (taken : List (String × Json)) :
    List Char → Option (List (String × Json) × List Char)
  | ',' :: rest => members fuel depth shape taken rest
  | '\x7d' :: rest => some (taken.reverse, rest)
  | _ => none

/-- One member is read back, and what stands behind it decides how to go on. -/
theorem members_step {fuel : Nat} {taken : List (String × Json)} {text behind : List Char}
    {key : String} {held : Json} (enough : steps ≤ fuel)
    (regarded : (shape.field key).isIgnored = false) (reads : Reads steps depth (shape.field key) level held)
    (front : skipBlank text = '"' :: (key.toList.flatMap escapeChar ++
      '"' :: ':' :: ' ' :: ((held.prettyAt level).toList ++ behind))) :
    members (fuel + 1) depth shape taken text =
      afterMember fuel depth shape ((key, held) :: taken) (skipBlank behind) := by
  have colon : ∀ rest, skipBlank (':' :: rest) = ':' :: rest := fun _ => rfl
  rw [members, front]
  simp only [stringBody_escape, List.reverse_nil, List.nil_append, String.ofList_toList, colon,
    value_blank, reads fuel behind enough, regarded, Bool.false_eq_true, if_false]
  rfl

/-- The members of an object are read back one after the other. -/
theorem members_pretty {outer : Nat} {after : List Char} {key : String} {held : Json}
    {rest : List (String × Json)}
    (reads : ∀ entry ∈ (key, held) :: rest, (shape.field entry.1).isIgnored = false ∧
      Reads steps depth (shape.field entry.1) level entry.2) :
    ∀ fuel taken text, steps + rest.length ≤ fuel →
      skipBlank text = skipBlank ((prettyMembers level ((key, held) :: rest)).toList ++
        '\n' :: ((indent outer).toList ++ '\x7d' :: after)) →
      members (fuel + 1) depth shape taken text = some (taken.reverse ++ (key, held) :: rest, after) := by
  induction rest generalizing key held with
  | nil =>
    intro fuel taken text enough same
    obtain ⟨regarded, own⟩ := reads _ List.mem_cons_self
    rw [skipBlank_members] at same
    rw [members_step (Nat.le_of_add_right_le enough) regarded own same]
    have close : skipBlank (membersBehind level [] ++
        '\n' :: ((indent outer).toList ++ '\x7d' :: after)) = '\x7d' :: after :=
      skipBlank_indent outer ('\x7d' :: after)
    rw [close]
    simp [afterMember]
  | cons entry rest ih =>
    intro fuel taken text enough same
    obtain ⟨⟨regarded, own⟩, others⟩ := List.forall_mem_cons.mp reads
    rw [skipBlank_members] at same
    rw [members_step (Nat.le_of_add_right_le enough) regarded own same]
    rw [List.length_cons] at enough
    obtain ⟨fuel, rfl⟩ : ∃ less, fuel = less + 1 := ⟨fuel - 1, by omega⟩
    have comma : ∀ behind, skipBlank (',' :: behind) = ',' :: behind := fun _ => rfl
    simp only [membersBehind, List.cons_append, comma, afterMember]
    rw [ih others fuel _ ('\n' :: _) (by omega) rfl]
    simp

theorem toList_prettyObject (level : Nat) (key : String) (held : Json) (rest : List (String × Json)) :
    ((object ((key, held) :: rest)).prettyAt level).toList = '\x7b' :: '\n' ::
      ((prettyMembers (level + 1) ((key, held) :: rest)).toList ++
        '\n' :: ((indent level).toList ++ ['\x7d'])) := by
  simp [prettyAt]

/-- An object is read back if its members are. -/
theorem reads_object {entries : List (String × Json)}
    (reads : ∀ entry ∈ entries, (shape.field entry.1).isIgnored = false ∧
      Reads steps depth (shape.field entry.1) (level + 1) entry.2) :
    Reads (steps + (entries.length + 2)) (depth + 1) shape level (.object entries) := by
  intro fuel after enough
  obtain ⟨fuel, rfl⟩ : ∃ less, fuel = less + 2 := ⟨fuel - 2, by omega⟩
  have brace : ∀ behind, skipBlank ('\x7b' :: behind) = '\x7b' :: behind := fun _ => rfl
  cases entries with
  | nil => simp [prettyAt, value, brace, skipBlank]
  | cons entry rest =>
    obtain ⟨key, held⟩ := entry
    rw [List.length_cons] at enough
    have text : ((object ((key, held) :: rest)).prettyAt level).toList ++ after = '\x7b' :: '\n' ::
        ((prettyMembers (level + 1) ((key, held) :: rest)).toList ++
          '\n' :: ((indent level).toList ++ '\x7d' :: after)) := by
      simp [toList_prettyObject]
    have line : ∀ behind, skipBlank ('\n' :: behind) = skipBlank behind := fun _ => rfl
    have quoted : ∀ behind, skipBlank ('"' :: behind) = '"' :: behind := fun _ => rfl
    have inner := members_pretty reads fuel [] ('"' :: _) (by omega)
      ((quoted _).trans (skipBlank_members (level + 1) key held rest
        ('\n' :: ((indent level).toList ++ '\x7d' :: after))).symm)
    rw [text, value, brace]
    simp only [line, skipBlank_members, Nat.add_one_sub_one, Nat.add_one_ne_zero, decide_false,
      Bool.and_false, Bool.false_eq_true, if_false]
    exact congrArg (Option.map _) inner

/-- A text that is read back is no longer than the steps there are for it. -/
theorem read_pretty {held : Json} (reads : Reads steps Reader.depthLimit shape 0 held)
    (enough : steps ≤ 2 * held.pretty.toList.length + 2) :
    Reader.read shape held.pretty = some held := by
  have whole := reads _ [] enough
  rw [List.append_nil, ← pretty] at whole
  simp only [Reader.read, Reader.readWithin, whole]
  rfl

theorem length_prettyMembers (level : Nat) (entries : List (String × Json)) :
    entries.length ≤ (prettyMembers level entries).toList.length := by
  induction entries with
  | nil => exact Nat.zero_le _
  | cons entry rest ih =>
    have behind : rest.length ≤ (membersBehind level rest).length := by
      cases rest with
      | nil => exact Nat.zero_le _
      | cons => exact ih.trans (Nat.le_add_right _ 2)
    rw [toList_prettyMembers]
    simp only [List.length_append, List.length_cons]
    omega

theorem length_prettyObject (level : Nat) (entries : List (String × Json)) :
    entries.length ≤ ((object entries).prettyAt level).toList.length := by
  cases entries with
  | nil => exact Nat.zero_le _
  | cons entry rest =>
    obtain ⟨key, held⟩ := entry
    have members := length_prettyMembers (level + 1) ((key, held) :: rest)
    rw [toList_prettyObject]
    simp only [List.length_append, List.length_cons] at members ⊢
    omega

end Values

end Json

namespace Store

/-- The hashes of a ledger are in order, each there once. -/
def Ledger.Ordered (ledger : Ledger) : Prop := (ledger.entries.map (·.1)).Pairwise (· < ·)

section Files

open Json (Reads reads_string reads_object)

theorem reads_entry (entry : LedgerEntry) (depth level : Nat) :
    Reads 5 (depth + 1) (.only LedgerEntry.keys) level entry.json := by
  have reads := @reads_object depth level 1 (.only LedgerEntry.keys)
    [("assetId", .string entry.asset), ("uploadedAt", .string entry.storedAt.text)]
  refine reads fun member listed => ?_
  simp only [List.mem_cons, List.not_mem_nil, or_false] at listed
  rcases listed with rfl | rfl
  · exact ⟨rfl, reads_string _⟩
  · exact ⟨rfl, reads_string _⟩

/-- The entries of a ledger as they stand in its file. -/
def Ledger.members (ledger : Ledger) : List (String × Json) :=
  ledger.entries.map fun (hash, entry) => (hash, entry.json)

theorem reads_entries (ledger : Ledger) (depth level : Nat) :
    Reads (5 + (ledger.entries.length + 2)) (depth + 2) (.each (.only LedgerEntry.keys)) level
      (.object ledger.members) := by
  have reads := @reads_object (depth + 1) level 5 (.each (.only LedgerEntry.keys)) ledger.members
  rw [Ledger.members, List.length_map] at reads
  refine reads fun member listed => ?_
  obtain ⟨entry, _, rfl⟩ := List.mem_map.mp listed
  exact ⟨rfl, reads_entry entry.2 depth (level + 1)⟩

theorem read_fileText (ledger : Ledger) :
    Json.Reader.read Ledger.fileShape ledger.fileText = some ledger.json := by
  have reads := @reads_object 126 0 (5 + (ledger.entries.length + 2)) Ledger.fileShape
    [("entries", .object ledger.members)]
  refine Json.read_pretty (reads fun member listed => ?_) ?_
  · obtain rfl := List.mem_singleton.mp listed
    exact ⟨rfl, reads_entries ledger 124 1⟩
  · have entries := Json.length_prettyObject (0 + 1) ledger.members
    have name : ("entries".toList.flatMap Json.escapeChar).length = 7 := rfl
    have count : ledger.members.length = ledger.entries.length := List.length_map _
    have shown : ledger.json = .object [("entries", .object ledger.members)] := rfl
    rw [shown, Json.pretty, Json.toList_prettyObject, Json.toList_prettyMembers]
    simp only [List.length_append, List.length_cons, name]
    omega

end Files

section Parsing

/-- What is behind all others in the order is put at the end. -/
theorem insertSorted_last {β : Type} {key : String} {held : β} {entries : List (String × β)}
    (last : ∀ other ∈ entries.map (·.1), other < key) :
    insertSorted key held entries = entries ++ [(key, held)] := by
  induction entries with
  | nil => rfl
  | cons entry rest ih =>
    obtain ⟨other, value⟩ := entry
    obtain ⟨before, others⟩ := List.forall_mem_cons.mp last
    rw [insertSorted, if_neg (not_lt_of_gt before), if_neg (ne_of_gt before), ih others,
      List.cons_append]

theorem foldl_insertSorted {β : Type} {kept entries : List (String × β)}
    (ordered : ((kept ++ entries).map (·.1)).Pairwise (· < ·)) :
    entries.foldl (fun held entry => insertSorted entry.1 entry.2 held) kept = kept ++ entries := by
  induction entries generalizing kept with
  | nil => rw [List.foldl_nil, List.append_nil]
  | cons entry rest ih =>
    rw [List.append_cons] at ordered ⊢
    have front := List.Pairwise.sublist ((List.sublist_append_left _ rest).map (·.1)) ordered
    rw [List.map_append, List.pairwise_append] at front
    have last : ∀ other ∈ kept.map (·.1), other < entry.1 :=
      fun other member => front.2.2 other member entry.1 (List.mem_singleton_self _)
    rw [List.foldl_cons, insertSorted_last last, ih ordered]

theorem foldl_lastOfEach {β : Type} {kept entries : List (String × β)}
    (distinct : ((kept ++ entries).map (·.1)).Nodup) :
    entries.foldl (fun kept entry => kept.filter (·.1 != entry.1) ++ [entry]) kept =
      kept ++ entries := by
  induction entries generalizing kept with
  | nil => rw [List.foldl_nil, List.append_nil]
  | cons entry rest ih =>
    rw [List.append_cons] at distinct ⊢
    have front := List.Nodup.sublist ((List.sublist_append_left _ rest).map (·.1)) distinct
    rw [List.map_append, List.nodup_append] at front
    have fresh : kept.filter (·.1 != entry.1) = kept := by
      rw [List.filter_eq_self]
      intro other member
      exact bne_iff_ne.mpr
        (front.2.2 other.1 (List.mem_map_of_mem member) entry.1 (List.mem_singleton_self _))
    rw [List.foldl_cons, fresh, ih distinct]

/-- An entry is read back but for its moment, which has to be read from its own text. -/
theorem ofJson?_entry (entry : LedgerEntry) : LedgerEntry.ofJson? entry.json =
    (Timestamp.parse entry.storedAt.text).map fun time => ⟨entry.asset, time⟩ := by
  have members : Json.record? LedgerEntry.keys entry.json =
    some [("assetId", .string entry.asset), ("uploadedAt", .string entry.storedAt.text)] := rfl
  have asset : List.lookup "assetId" [("assetId", Json.string entry.asset),
    ("uploadedAt", .string entry.storedAt.text)] = some (.string entry.asset) := rfl
  have time : List.lookup "uploadedAt" [("assetId", Json.string entry.asset),
    ("uploadedAt", .string entry.storedAt.text)] = some (.string entry.storedAt.text) := rfl
  rw [LedgerEntry.ofJson?, members]
  simp only [Option.bind_eq_bind, Option.bind_some, Json.Record.required, asset, time, Json.text?]
  cases Timestamp.parse entry.storedAt.text with
  | none => rfl
  | some => rfl

theorem asset_ofJson {entry read : LedgerEntry} (parsed : LedgerEntry.ofJson? entry.json = some read) :
    read.asset = entry.asset := by
  rw [ofJson?_entry] at parsed
  obtain ⟨time, _, rfl⟩ := Option.map_eq_some_iff.mp parsed
  rfl

/-- The assets of a list of entries. -/
def assetsOf (entries : List (String × LedgerEntry)) : List (String × String) :=
  entries.map fun entry => (entry.1, entry.2.asset)

theorem keys_assetsOf (entries : List (String × LedgerEntry)) :
    (assetsOf entries).map (·.1) = entries.map (·.1) := by
  rw [assetsOf, List.map_map]
  rfl

/-- The entry that a member of the file stands for. -/
def entryOf? (member : String × Json) : Option (String × LedgerEntry) :=
  (LedgerEntry.ofJson? member.2).map fun entry => (member.1, entry)

theorem assets_mapM {entries read : List (String × LedgerEntry)}
    (parsed : (entries.map fun entry => (entry.1, entry.2.json)).mapM entryOf? = some read) :
    assetsOf read = assetsOf entries := by
  induction entries generalizing read with
  | nil =>
    obtain rfl := Option.some.inj parsed
    rfl
  | cons entry rest ih =>
    rw [List.map_cons, List.mapM_cons] at parsed
    obtain ⟨first, own, parsed⟩ := Option.bind_eq_some_iff.mp parsed
    obtain ⟨others, later, parsed⟩ := Option.bind_eq_some_iff.mp parsed
    obtain ⟨held, stated, rfl⟩ := Option.map_eq_some_iff.mp own
    obtain rfl := Option.some.inj parsed
    rw [assetsOf, List.map_cons, asset_ofJson stated]
    exact congrArg _ (ih later)

/-- The file of a ledger in order is read entry by entry. -/
theorem parse_eq_mapM {ledger : Ledger} (ordered : ledger.Ordered) :
    Ledger.parse ledger.fileText = ledger.members.mapM entryOf? := by
  have members : Json.record? ["entries"] ledger.json = some [("entries", .object ledger.members)] := rfl
  have member : Json.Record.orElse [("entries", .object ledger.members)] "entries" []
      (Json.dictionary? LedgerEntry.ofJson?) =
      Json.dictionary? LedgerEntry.ofJson? (.object ledger.members) := rfl
  rw [Ledger.parse, read_fileText]
  simp only [Option.bind_eq_bind, Option.bind_some, members, member]
  have read : Json.dictionary? LedgerEntry.ofJson? (.object ledger.members) =
      (ledger.members.mapM entryOf?).bind fun all =>
        some (all.foldl (fun kept entry => kept.filter (·.1 != entry.1) ++ [entry]) []) := rfl
  rw [read]
  cases each : ledger.members.mapM entryOf? with
  | none => rfl
  | some all =>
    have keys : all.map (·.1) = ledger.entries.map (·.1) := by
      rw [← keys_assetsOf, assets_mapM each, keys_assetsOf]
    have sorted : (all.map (·.1)).Pairwise (· < ·) := keys ▸ ordered
    have distinct : (all.map (·.1)).Nodup := sorted.imp ne_of_lt
    have kept := @foldl_lastOfEach _ [] all distinct
    have held := @foldl_insertSorted _ [] all sorted
    rw [List.nil_append] at kept held
    exact (congrArg some (congrArg _ kept)).trans (congrArg some held)

/-- What is read from the file of a ledger has just the assets of the ledger. -/
theorem assets_parse {ledger : Ledger} (ordered : ledger.Ordered) {entries : List (String × LedgerEntry)}
    (parsed : Ledger.parse ledger.fileText = some entries) :
    assetsOf entries = assetsOf ledger.entries :=
  assets_mapM ((parse_eq_mapM ordered).symm.trans parsed)

/-- What is read from a file is in order, whatever the file. -/
theorem ordered_parse {contents : String} {entries : List (String × LedgerEntry)}
    (parsed : Ledger.parse contents = some entries) : (entries.map (·.1)).Pairwise (· < ·) := by
  obtain ⟨value, _, parsed⟩ := Option.bind_eq_some_iff.mp parsed
  obtain ⟨fields, _, parsed⟩ := Option.bind_eq_some_iff.mp parsed
  obtain ⟨read, _, parsed⟩ := Option.bind_eq_some_iff.mp parsed
  obtain rfl := Option.some.inj parsed
  have sorted : ∀ (kept rest : List (String × LedgerEntry)), (kept.map (·.1)).Pairwise (· < ·) →
      ((rest.foldl (fun held entry => insertSorted entry.1 entry.2 held) kept).map (·.1)).Pairwise
        (· < ·) := by
    intro kept rest ordered
    induction rest generalizing kept with
    | nil => exact ordered
    | cons entry rest ih =>
      refine ih _ ?_
      rw [keys_insertSorted]
      exact sorted_insertText ordered
  exact sorted [] read List.Pairwise.nil

theorem ordered_insertSorted {ledger : Ledger} (ordered : ledger.Ordered) (hash : String)
    (entry : LedgerEntry) :
    Ledger.Ordered { ledger with entries := insertSorted hash entry ledger.entries } := by
  rw [Ledger.Ordered, keys_insertSorted]
  exact sorted_insertText ordered

theorem asset?_eq_lookup (ledger : Ledger) (hash : String) :
    ledger.asset? hash = (assetsOf ledger.entries).lookup hash := by
  rw [Ledger.asset?, Ledger.get?, assetsOf]
  induction ledger.entries with
  | nil => rfl
  | cons entry rest ih =>
    obtain ⟨other, held⟩ := entry
    rw [List.map_cons, lookup_cons_eq, lookup_cons_eq, ← ih]
    split <;> rfl

end Parsing

end Store
end DesignCompiler
