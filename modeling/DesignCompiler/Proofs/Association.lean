import DesignCompiler.Arena
import DesignCompiler.Snapshot
import Mathlib.Data.List.Basic
import Mathlib.Data.String.Basic
import Mathlib.Tactic.Tauto

/-!
Lists of entries by key, as snapshots, ledgers and the properties of instances are kept.
-/
namespace DesignCompiler

variable {α : Type}

theorem lookup_cons_eq {β : Type} (key head : String) (held : β) (rest : List (String × β)) :
    ((head, held) :: rest).lookup key = if key = head then some held else rest.lookup key := by
  rw [List.lookup_cons]
  by_cases same : key = head
  · simp [same]
  · have differ : (key == head) = false := by simpa using same
    simp [same, differ]

theorem lookup_insertSorted {β : Type} (key other : String) (value : β)
    (entries : List (String × β)) :
    (insertSorted key value entries).lookup other =
      if other = key then some value else entries.lookup other := by
  induction entries with
  | nil => rw [insertSorted, lookup_cons_eq]
  | cons entry rest ih =>
    obtain ⟨head, held⟩ := entry
    rw [insertSorted]
    split
    · rw [lookup_cons_eq]
    · split
      · rename_i _ equal
        subst equal
        by_cases same : other = key <;> simp [lookup_cons_eq, same]
      · rename_i _ differ
        by_cases same : other = head
        · rw [lookup_cons_eq, if_pos same, if_neg fun equal => differ (equal.symm.trans same),
            lookup_cons_eq, if_pos same]
        · simp [lookup_cons_eq, same, ih]

theorem keys_insertSorted {β : Type} (key : String) (held : β) (entries : List (String × β)) :
    (insertSorted key held entries).map (·.1) = insertText key (entries.map (·.1)) := by
  induction entries with
  | nil => rfl
  | cons entry rest ih =>
    obtain ⟨other, value⟩ := entry
    rw [insertSorted, List.map_cons, insertText]
    split
    · rfl
    · split
      · rename_i same
        rw [List.map_cons, same]
      · rw [List.map_cons, ih]

/-- A list whose entries are all those of a function is looked up in like the function. -/
theorem lookup_of_forall {β : Type} {find : String → Option β} {entries : List (String × β)}
    (held : ∀ entry ∈ entries, find entry.1 = some entry.2) {key : String}
    (member : key ∈ entries.map (·.1)) : entries.lookup key = find key := by
  induction entries with
  | nil => simp at member
  | cons entry rest ih =>
    obtain ⟨head, value⟩ := entry
    obtain ⟨here, later⟩ := List.forall_mem_cons.mp held
    rw [lookup_cons_eq]
    by_cases same : key = head
    · rw [if_pos same, same, here]
    · rw [if_neg same]
      exact ih later (by simpa [same] using member)

theorem isSome_lookup {β : Type} {entries : List (String × β)} {key : String} :
    (entries.lookup key).isSome = true ↔ key ∈ entries.map (·.1) := by
  induction entries with
  | nil => simp
  | cons entry rest ih =>
    obtain ⟨head, held⟩ := entry
    rw [lookup_cons_eq, List.map_cons, List.mem_cons]
    by_cases same : key = head
    · simp [same]
    · rw [if_neg same, ih]
      simp [same]

/-- Where no key is repeated, looking one up finds its entry. -/
theorem lookup_eq_some_iff {β : Type} {entries : List (String × β)}
    (distinct : (entries.map (·.1)).Nodup) {key : String} {value : β} :
    entries.lookup key = some value ↔ (key, value) ∈ entries := by
  induction entries with
  | nil => simp
  | cons entry rest ih =>
    obtain ⟨head, held⟩ := entry
    obtain ⟨unlisted, distinct⟩ := List.nodup_cons.mp distinct
    rw [lookup_cons_eq, List.mem_cons, Prod.mk.injEq]
    by_cases same : key = head
    · subst same
      have other : (key, value) ∉ rest := fun member => unlisted (List.mem_map_of_mem (f := (·.1)) member)
      simp [other, eq_comm]
    · rw [if_neg same, ih distinct]
      simp [same]

/-- Where no key is repeated, the order of the entries does not matter. -/
theorem lookup_perm {β : Type} {some other : List (String × β)} (perm : some.Perm other)
    (distinct : (some.map (·.1)).Nodup) (key : String) : some.lookup key = other.lookup key := by
  have distinct' := (perm.map (·.1)).nodup_iff.mp distinct
  ext value
  rw [lookup_eq_some_iff distinct, lookup_eq_some_iff distinct', perm.mem_iff]

section Insertion

variable {text other : String} {texts : List String}

theorem mem_insertText : other ∈ insertText text texts ↔ other = text ∨ other ∈ texts := by
  induction texts with
  | nil => simp [insertText]
  | cons head rest ih =>
    rw [insertText]
    split
    · rw [List.mem_cons]
    · split
      · rename_i _ same
        subst same
        simp
      · rw [List.mem_cons, ih, List.mem_cons]
        tauto

/-- A text put into an ordered list of distinct texts leaves one. -/
theorem sorted_insertText (sorted : texts.Pairwise (· < ·)) :
    (insertText text texts).Pairwise (· < ·) := by
  induction texts with
  | nil => simp [insertText]
  | cons head rest ih =>
    obtain ⟨least, sorted⟩ := List.pairwise_cons.mp sorted
    rw [insertText]
    split
    · rename_i less
      refine List.pairwise_cons.mpr ⟨?_, List.pairwise_cons.mpr ⟨least, sorted⟩⟩
      intro later member
      rcases List.mem_cons.mp member with rfl | member
      · exact less
      · exact less.trans (least later member)
    · split
      · exact List.pairwise_cons.mpr ⟨least, sorted⟩
      · rename_i notLess differ
        refine List.pairwise_cons.mpr ⟨?_, ih sorted⟩
        intro later member
        rcases mem_insertText.mp member with rfl | member
        · exact (lt_trichotomy later head).resolve_left notLess |>.resolve_left differ
        · exact least later member

end Insertion

namespace Properties

theorem keys_set (key : String) (value : Property α) (properties : Properties α) :
    (set key value properties).map (·.1) =
      if key ∈ properties.map (·.1) then properties.map (·.1) else properties.map (·.1) ++ [key] := by
  induction properties with
  | nil => rfl
  | cons entry rest ih =>
    obtain ⟨other, held⟩ := entry
    by_cases same : other = key
    · simp [set, same]
    · have differ : ¬ key = other := fun eq => same eq.symm
      simp only [set, if_neg same, List.map_cons, ih, List.mem_cons, differ, false_or]
      split <;> rfl

theorem mem_keys_setAll {key : String} {properties : Properties α}
    {changes : List (String × Property α)} :
    key ∈ (setAll properties changes).map (·.1) ↔
      key ∈ properties.map (·.1) ∨ key ∈ changes.map (·.1) := by
  induction changes generalizing properties with
  | nil => simp [setAll]
  | cons change rest ih =>
    have step : setAll properties (change :: rest) =
        setAll (set change.1 change.2 properties) rest := rfl
    rw [step, ih, keys_set, List.map_cons, List.mem_cons]
    split
    · rename_i held
      constructor
      · exact fun either => either.imp_right .inr
      · rintro (old | rfl | new)
        · exact .inl old
        · exact .inl held
        · exact .inr new
    · rw [List.mem_append, List.mem_singleton, or_assoc]

/-- Setting properties leaves those in front where they are. -/
theorem keys_setAll_prefix (properties changes : Properties α) :
    properties.map (·.1) <+: (setAll properties changes).map (·.1) := by
  induction changes generalizing properties with
  | nil => exact List.prefix_rfl
  | cons change rest ih =>
    refine List.IsPrefix.trans ?_ (ih (set change.1 change.2 properties))
    rw [keys_set]
    split
    · exact List.prefix_rfl
    · exact List.prefix_append _ _

theorem setAll_append (properties front back : Properties α) :
    setAll properties (front ++ back) = setAll (setAll properties front) back := by
  rw [setAll, List.foldl_append]
  rfl

theorem nodup_set {properties : Properties α} (distinct : (properties.map (·.1)).Nodup)
    (key : String) (value : Property α) : ((set key value properties).map (·.1)).Nodup := by
  rw [keys_set]
  split
  · exact distinct
  · rename_i fresh
    exact List.nodup_append.mpr ⟨distinct, by simp, by
      intro a member b single
      obtain rfl := List.mem_singleton.mp single
      exact fun same => fresh (same ▸ member)⟩

/-- Properties set one after the other have each key once. -/
theorem nodup_setAll {properties : Properties α} (distinct : (properties.map (·.1)).Nodup)
    (changes : List (String × Property α)) : ((setAll properties changes).map (·.1)).Nodup := by
  induction changes generalizing properties with
  | nil => exact distinct
  | cons change rest ih => exact ih (nodup_set distinct _ _)

theorem set_fresh {properties : Properties α} {key : String} (value : Property α)
    (fresh : key ∉ properties.map (·.1)) : set key value properties = properties ++ [(key, value)] := by
  induction properties with
  | nil => rfl
  | cons entry rest ih =>
    obtain ⟨other, held⟩ := entry
    simp only [List.map_cons, List.mem_cons, not_or] at fresh
    simp [set, Ne.symm fresh.1, ih fresh.2]

theorem setAll_fresh {properties changes : Properties α}
    (distinct : ((properties ++ changes).map (·.1)).Nodup) :
    setAll properties changes = properties ++ changes := by
  induction changes generalizing properties with
  | nil => simp [setAll]
  | cons change rest ih =>
    have fresh : change.1 ∉ properties.map (·.1) := by
      rw [List.map_append, List.nodup_append] at distinct
      intro member
      exact distinct.2.2 _ member _ (by simp) rfl
    have step : setAll properties (change :: rest) =
        setAll (set change.1 change.2 properties) rest := rfl
    rw [step, set_fresh _ fresh, ih (by simpa using distinct), List.append_assoc]
    rfl

theorem lookup_set (key other : String) (value : Property α) (properties : Properties α) :
    (set key value properties).lookup other =
      if other = key then some value else properties.lookup other := by
  induction properties with
  | nil => rw [set, lookup_cons_eq]
  | cons entry rest ih =>
    obtain ⟨held, content⟩ := entry
    rw [set]
    split
    · rename_i equal
      subst equal
      by_cases same : other = held <;> simp [lookup_cons_eq, same]
    · rename_i differ
      by_cases same : other = held
      · rw [lookup_cons_eq, if_pos same, if_neg fun equal => differ (same.symm.trans equal),
          lookup_cons_eq, if_pos same]
      · rw [lookup_cons_eq, if_neg same, ih, lookup_cons_eq, if_neg same]

/-- Setting other properties does not change one. -/
theorem lookup_setAll {key : String} {properties : Properties α}
    {changes : List (String × Property α)} (absent : key ∉ changes.map (·.1)) :
    (setAll properties changes).lookup key = properties.lookup key := by
  induction changes generalizing properties with
  | nil => rfl
  | cons change rest ih =>
    rw [List.map_cons, List.mem_cons, not_or] at absent
    have step : setAll properties (change :: rest) =
        setAll (set change.1 change.2 properties) rest := rfl
    rw [step, ih absent.2, lookup_set, if_neg absent.1]

/-- What is set last is what is held. -/
theorem lookup_setAll_last {key : String} {value : Property α} {back : List (String × Property α)}
    (front : List (String × Property α)) (absent : key ∉ back.map (·.1)) :
    (setAll [] (front ++ (key, value) :: back)).lookup key = some value := by
  have step : setAll [] (front ++ (key, value) :: back) =
      setAll (set key value (setAll [] front)) back := by
    rw [setAll_append]
    rfl
  rw [step, lookup_setAll absent, lookup_set, if_pos rfl]

/-- Properties that were set are not changed by setting them again. -/
@[simp] theorem setAll_setAll (changes : List (String × Property α)) :
    setAll [] (setAll [] changes) = setAll [] changes := by
  rw [setAll_fresh (by simpa using nodup_setAll (by simp) changes)]
  rfl

end Properties

end DesignCompiler
