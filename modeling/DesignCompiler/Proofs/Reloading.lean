import DesignCompiler.Proofs.Moments
import DesignCompiler.Proofs.Rereading

/-!
The file of a ledger is read back as the whole ledger, with the moments at which its assets were entered.
-/
namespace DesignCompiler.Store

/-- The entries are of moments of the calendar. -/
def Stamped (entries : List (String × LedgerEntry)) : Prop := ∀ entry ∈ entries, entry.2.storedAt.Valid

theorem mem_insertSorted {β : Type} {key : String} {value : β} {entries : List (String × β)}
    {entry : String × β} (member : entry ∈ insertSorted key value entries) :
    entry = (key, value) ∨ entry ∈ entries := by
  induction entries with
  | nil => exact .inl (List.mem_singleton.mp member)
  | cons head rest ih =>
    obtain ⟨other, held⟩ := head
    rw [insertSorted] at member
    split at member
    · exact List.mem_cons.mp member
    · split at member
      · exact (List.mem_cons.mp member).imp_right (List.mem_cons_of_mem _)
      · rcases List.mem_cons.mp member with rfl | member
        · exact .inr List.mem_cons_self
        · exact (ih member).imp_right (List.mem_cons_of_mem _)

theorem Stamped.insertSorted {entries : List (String × LedgerEntry)} (stamped : Stamped entries)
    {entry : LedgerEntry} (valid : entry.storedAt.Valid) (hash : String) :
    Stamped (insertSorted hash entry entries) := by
  intro held member
  rcases mem_insertSorted member with rfl | member
  · exact valid
  · exact stamped held member

theorem valid_ofJson {value : Json} {entry : LedgerEntry} (read : LedgerEntry.ofJson? value = some entry) :
    entry.storedAt.Valid := by
  obtain ⟨fields, _, read⟩ := Option.bind_eq_some_iff.mp read
  obtain ⟨asset, _, read⟩ := Option.bind_eq_some_iff.mp read
  obtain ⟨moment, found, read⟩ := Option.bind_eq_some_iff.mp read
  obtain rfl := Option.some.inj read
  obtain ⟨value, _, found⟩ := Option.bind_eq_some_iff.mp found
  obtain ⟨text, _, parsed⟩ := Option.bind_eq_some_iff.mp found
  exact Timestamp.valid_of_parse parsed

theorem stamped_mapM {members : List (String × Json)} {entries : List (String × LedgerEntry)}
    (read : members.mapM entryOf? = some entries) : Stamped entries := by
  induction members generalizing entries with
  | nil =>
    obtain rfl := Option.some.inj read
    exact List.forall_mem_nil _
  | cons member rest ih =>
    rw [List.mapM_cons] at read
    obtain ⟨first, own, read⟩ := Option.bind_eq_some_iff.mp read
    obtain ⟨others, later, read⟩ := Option.bind_eq_some_iff.mp read
    obtain rfl := Option.some.inj read
    obtain ⟨entry, found, rfl⟩ := Option.map_eq_some_iff.mp own
    exact List.forall_mem_cons.mpr ⟨valid_ofJson found, ih later⟩

/-- A list that is built from entries one after the other, each time from what there was and the entry. -/
theorem stamped_foldl
    {step : List (String × LedgerEntry) → String × LedgerEntry → List (String × LedgerEntry)}
    (among : ∀ kept entry, ∀ held ∈ step kept entry, held = entry ∨ held ∈ kept)
    {kept entries : List (String × LedgerEntry)} (before : Stamped kept) (stamped : Stamped entries) :
    Stamped (entries.foldl step kept) := by
  induction entries generalizing kept with
  | nil => exact before
  | cons entry rest ih =>
    obtain ⟨own, others⟩ := List.forall_mem_cons.mp stamped
    refine ih (fun held member => ?_) others
    rcases among kept entry held member with rfl | member
    · exact own
    · exact before held member

/-- Whatever is read from a file is of the calendar. -/
theorem stamped_parse {contents : String} {entries : List (String × LedgerEntry)}
    (parsed : Ledger.parse contents = some entries) : Stamped entries := by
  obtain ⟨value, _, parsed⟩ := Option.bind_eq_some_iff.mp parsed
  obtain ⟨fields, _, parsed⟩ := Option.bind_eq_some_iff.mp parsed
  obtain ⟨read, member, parsed⟩ := Option.bind_eq_some_iff.mp parsed
  obtain rfl := Option.some.inj parsed
  refine stamped_foldl (fun kept entry held member => mem_insertSorted member) (List.forall_mem_nil _) ?_
  rw [Json.Record.orElse] at member
  split at member
  · rename_i held _
    unfold Json.dictionary? at member
    split at member
    · obtain ⟨all, each, member⟩ := Option.bind_eq_some_iff.mp member
      obtain rfl := Option.some.inj member
      refine stamped_foldl (fun kept entry held member => ?_) (List.forall_mem_nil _) (stamped_mapM each)
      rcases List.mem_append.mp member with kept | new
      · exact .inr (List.mem_filter.mp kept).1
      · exact .inl (List.mem_singleton.mp new)
    · cases member
  · obtain rfl := Option.some.inj member
    exact List.forall_mem_nil _

theorem mapM_members {entries : List (String × LedgerEntry)} (stamped : Stamped entries) :
    (entries.map fun entry => (entry.1, entry.2.json)).mapM entryOf? = some entries := by
  induction entries with
  | nil => rfl
  | cons entry rest ih =>
    obtain ⟨own, others⟩ := List.forall_mem_cons.mp stamped
    have first : entryOf? (entry.1, entry.2.json) = some entry := by
      rw [entryOf?, ofJson?_entry, Timestamp.parse_text own]
      rfl
    rw [List.map_cons, List.mapM_cons, first, ih others]
    rfl

/-- A ledger in order is read back from its file. -/
theorem parse_fileText {ledger : Ledger} (ordered : ledger.Ordered) (stamped : Stamped ledger.entries) :
    Ledger.parse ledger.fileText = some ledger.entries :=
  (parse_eq_mapM ordered).trans (mapM_members stamped)

end DesignCompiler.Store
