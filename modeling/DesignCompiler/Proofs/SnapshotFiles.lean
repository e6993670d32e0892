import DesignCompiler.CommandLine.Run
import DesignCompiler.Proofs.Comparison
import DesignCompiler.Proofs.LedgerHistories
import DesignCompiler.Proofs.Roundtrip

/-!
What one run hands to the next. The file of a snapshot is read back as the whole snapshot, whatever texts are
in it, so the next run compares its design with just what the last one left.
-/
namespace DesignCompiler

variable {α β : Type} [Scalar α]

open Scalar (Legible)

namespace Json

/-- The members of an object are read as a dictionary, each value as what it was written for. -/
theorem dictionary?_map {read : Json → Option β} {json : β → Json} {entries : List (String × β)}
    (distinct : (entries.map (·.1)).Nodup)
    (each : ∀ entry ∈ entries, read (json entry.2) = some entry.2) :
    dictionary? read (.object (entries.map fun entry => (entry.1, json entry.2))) = some entries := by
  have all : (entries.map fun entry => (entry.1, json entry.2)).mapM
      (fun member => (read member.2).map (member.1, ·)) = some entries := by
    clear distinct
    induction entries with
    | nil => rfl
    | cons entry rest ih =>
      obtain ⟨own, others⟩ := List.forall_mem_cons.mp each
      rw [List.map_cons, List.mapM_cons, ih others]
      simp [own]
  have kept := @Store.foldl_lastOfEach _ [] entries distinct
  rw [List.nil_append] at kept
  have opened (members : List (String × Json)) : dictionary? read (.object members) =
      (members.mapM fun member => (read member.2).map (member.1, ·)).bind fun entries =>
        some (entries.foldl (fun kept entry => kept.filter (·.1 != entry.1) ++ [entry]) []) := rfl
  rw [opened, all]
  exact congrArg some kept

end Json

namespace SnapshotEntry

/-- The numbers of an entry. -/
def scalars (entry : SnapshotEntry α) : List α := [entry.width, entry.height]

theorem numbers_json (entry : SnapshotEntry α) : entry.json.numbers = Scalar.numbersOf entry.scalars := by
  cases asset : entry.asset <;>
    simp [json, scalars, asset, Json.member?, Json.numbers, Json.numbersOfMembers]

theorem depth_json (entry : SnapshotEntry α) : entry.json.depth = 1 := by
  have flat : ∀ x : α, (Scalar.json x).depth = 0 := by
    intro x
    rw [Scalar.json]
    cases Scalar.number? x <;> rfl
  cases asset : entry.asset <;>
    simp [json, asset, Json.member?, Json.depth, Json.depthOfMembers, flat]

theorem regarded_json (entry : SnapshotEntry α) : entry.json.Regarded (.only keys) := by
  apply Json.regarded_only
  cases entry.asset <;> simp [Json.member?, keys]

/-- An entry is read back, with an asset or without one. -/
theorem ofJson?_json {entry : SnapshotEntry α} (legible : ∀ x ∈ entry.scalars, Legible x) :
    ofJson? entry.json = some entry := by
  simp only [scalars, List.forall_mem_cons] at legible
  obtain ⟨name, hash, asset, width, height⟩ := entry
  have fields : Json.record? keys (json ⟨name, hash, asset, width, height⟩) =
      some ([("name", .string name), ("structuralHash", .string hash)] ++
        Json.member? "assetId" (asset.map .string) ++
          [("width", Scalar.json width), ("height", Scalar.json height)]) := by
    cases asset <;> rfl
  rw [ofJson?, fields]
  cases asset <;> simp [Json.member?, Json.Record.required, Json.Record.orElse, Json.optional?,
    lookup_cons_eq, Json.text?, Scalar.ofJson?_json, legible]

end SnapshotEntry

namespace Snapshot

/-- The ids of a snapshot are in order, each there once. -/
def Ordered (snapshot : Snapshot α) : Prop := (snapshot.entries.map (·.1)).Pairwise (· < ·)

/-- The members of the file of a snapshot. -/
def members (snapshot : Snapshot α) : List (String × Json) :=
  snapshot.entries.map fun entry => (entry.1, entry.2.json)

theorem json_eq (snapshot : Snapshot α) : snapshot.json = .object [("entries", .object snapshot.members)] :=
  rfl

/-- The numbers of a snapshot. -/
def scalars (snapshot : Snapshot α) : List α := snapshot.entries.flatMap (·.2.scalars)

omit [Scalar α] in
theorem ordered_insert {snapshot : Snapshot α} (ordered : snapshot.Ordered) (id : String)
    (entry : SnapshotEntry α) : (snapshot.insert id entry).Ordered := by
  rw [Ordered, insert, keys_insertSorted]
  exact sorted_insertText ordered

/-- What a run hands on is in order. -/
theorem ordered_snapshot (root : Node α) : root.snapshot.Ordered := by
  have entered : ∀ (nodes : List (Node α)) (snapshot : Snapshot α), snapshot.Ordered →
      (nodes.foldl (fun snapshot node => snapshot.insert node.layer.id node.snapshotEntry)
        snapshot).Ordered := by
    intro nodes
    induction nodes with
    | nil => exact fun _ ordered => ordered
    | cons node rest ih => exact fun _ ordered => ih _ (ordered_insert ordered _ _)
  exact entered _ _ List.Pairwise.nil

theorem numbers_json (snapshot : Snapshot α) :
    snapshot.json.numbers = Scalar.numbersOf snapshot.scalars := by
  have below : Json.numbersOfMembers snapshot.members = Scalar.numbersOf snapshot.scalars := by
    rw [members, scalars, Json.numbersOfMembers_eq, List.flatMap_map, Scalar.numbersOf, List.flatMap_assoc]
    exact List.flatMap_congr fun entry _ => entry.2.numbers_json
  rw [json_eq, Json.numbers, Json.numbersOfMembers, Json.numbers, below]
  exact List.append_nil _

theorem depth_json (snapshot : Snapshot α) : snapshot.json.depth ≤ 3 := by
  have below : Json.depthOfMembers snapshot.members ≤ 1 := by
    rw [members]
    induction snapshot.entries with
    | nil => exact Nat.zero_le _
    | cons entry rest ih =>
      rw [List.map_cons, Json.depthOfMembers, entry.2.depth_json]
      exact Nat.max_le.mpr ⟨Nat.le_refl _, ih⟩
  simp only [json_eq, Json.depth, Json.depthOfMembers]
  omega

theorem regarded_json (snapshot : Snapshot α) : snapshot.json.Regarded fileShape := by
  refine ⟨rfl, ⟨rfl, Json.regardedMembers_of fun member listed => ?_⟩, trivial⟩
  obtain ⟨entry, _, rfl⟩ := List.mem_map.mp listed
  exact entry.2.regarded_json

/-- A snapshot in order is read from its value. -/
theorem ofJson?_json {snapshot : Snapshot α} (ordered : snapshot.Ordered)
    (legible : ∀ x ∈ snapshot.scalars, Legible x) : ofJson? snapshot.json = some snapshot := by
  have entries : Json.dictionary? SnapshotEntry.ofJson?
      (.object snapshot.members) = some snapshot.entries :=
    Json.dictionary?_map (ordered.imp ne_of_lt) fun entry member =>
      SnapshotEntry.ofJson?_json fun x own => legible x (List.mem_flatMap.mpr ⟨entry, member, own⟩)
  have inserted : ∀ (rest : List (String × SnapshotEntry α)) (held : List (String × SnapshotEntry α)),
      rest.foldl (fun snapshot entry => snapshot.insert entry.1 entry.2) (⟨held⟩ : Snapshot α) =
        ⟨rest.foldl (fun held entry => insertSorted entry.1 entry.2 held) held⟩ := by
    intro rest
    induction rest with
    | nil => exact fun _ => rfl
    | cons entry rest ih => exact fun held => ih _
  have kept := @Store.foldl_insertSorted _ [] snapshot.entries ordered
  rw [List.nil_append] at kept
  have field : Json.record? ["entries"] snapshot.json = some [("entries", .object snapshot.members)] := rfl
  have member : Json.Record.orElse [("entries", .object snapshot.members)] "entries" []
      (Json.dictionary? SnapshotEntry.ofJson?) = some snapshot.entries := entries
  have opened (value : Json) : (ofJson? value : Option (Snapshot α)) =
      (Json.record? ["entries"] value).bind fun fields =>
        (fields.orElse "entries" [] (Json.dictionary? SnapshotEntry.ofJson?)).bind fun entries =>
          some (entries.foldl (fun snapshot entry => snapshot.insert entry.1 entry.2) empty) := rfl
  rw [opened, field]
  simp only [Option.bind_some, member, empty, inserted, kept]

/-- A snapshot is read from any text that spells its value. -/
theorem parse_of_spells {snapshot : Snapshot α} (ordered : snapshot.Ordered)
    (legible : ∀ x ∈ snapshot.scalars, Legible x) {text : String}
    (spells : Json.Spells snapshot.json text.toList) : parse text = some snapshot := by
  have back : snapshot.json.ReadsBack := by
    intro number member
    rw [numbers_json] at member
    obtain ⟨x, own, written⟩ := List.mem_flatMap.mp member
    obtain ⟨number', finite, back, _⟩ := legible x own
    rw [finite] at written
    rwa [List.mem_singleton.mp written]
  have read : Json.Reader.read fileShape text = some snapshot.json :=
    Json.readWithin_of_spells spells snapshot.regarded_json
      (snapshot.depth_json.trans (by decide)) back
  rw [parse, read]
  exact ofJson?_json ordered legible

theorem parse_fileText {snapshot : Snapshot α} (ordered : snapshot.Ordered)
    (legible : ∀ x ∈ snapshot.scalars, Legible x) : parse snapshot.fileText = some snapshot :=
  parse_of_spells ordered legible (Json.spells_prettyAt 0 snapshot.json)

end Snapshot

/-- A text that was written to a file is read from it. -/
theorem Machine.read_written {path : RawText} {text : String} {machine after : Machine}
    (written : (writeTo text (some path) : Machine.Run _) machine = (.ok (), after)) :
    after.disk.read path = .ok text := by
  rw [writeTo, Machine.run_bind] at written
  generalize replaced : (replaceFile path text : Machine.Run _) machine = outcome at written
  obtain ⟨answer, final⟩ := outcome
  cases answer with
  | error fault => cases (Prod.mk.inj written).1
  | ok =>
    obtain ⟨_, rfl⟩ := Prod.mk.inj written
    exact Machine.read_replaceFile replaced

namespace Snapshot

/-- A snapshot that was saved is loaded again as it was, provided its sizes are finite and read back from their
text. So every design differs from the one that was loaded just as from the one that was saved, and saving it
once more, wherever that is, writes the same text. -/
theorem load_saved {snapshot : Snapshot Float} (ordered : snapshot.Ordered)
    (legible : ∀ x ∈ snapshot.scalars, Legible x) {path : RawText} {machine after : Machine}
    (saved : (writeTo snapshot.fileText (some path) : Machine.Run _) machine = (.ok (), after))
    (calm : after.Calm) :
    ∃ loaded last, (load path : Machine.Run _) after = (.ok (some loaded), last) ∧ last.disk = after.disk ∧
      loaded = snapshot ∧
      (∀ root : Node Float, Diff.of root (some loaded) = Diff.of root (some snapshot)) ∧
      ∀ place (other final : Machine),
        (writeTo loaded.fileText (some place) : Machine.Run _) other = (.ok (), final) →
          final.disk.read place = .ok snapshot.fileText := by
  have read : after.disk.read path = .ok snapshot.fileText := Machine.read_written saved
  have parsed := parse_fileText ordered legible
  have loads : (load path : Machine.Run _) after =
      (.ok (some snapshot), { after with faults := after.faults.drop 1 }) := by
    rw [load, Machine.run_bind, readText_of_calm calm, read]
    dsimp only
    rw [parsed]
    rfl
  exact ⟨snapshot, _, loads, rfl, rfl, fun _ => rfl, fun _ _ _ => Machine.read_written⟩

/-! A snapshot with ids, names and hashes that need escapes, and with sizes of every layout. -/

def almanac : Snapshot Float :=
  ⟨[("", ⟨"", "h0", none, 0.1, -0.0⟩),
    ("\x00\"é😀", ⟨"Größe", "", some "", 1e16, 3⟩),
    ("1:2", ⟨"Lo\\go\n", "ab\x01c", some "77\t7", 10, 1e-7⟩)]⟩

def press : Machine := .ofDisk ⟨[], [(["runs", "next.json"], "an older one")], [["runs"]]⟩

theorem almanac_loaded : almanac.Ordered ∧ (∀ x ∈ almanac.scalars, Legible x) ∧
    ∃ after last, (writeTo almanac.fileText (some "runs/next.json") : Machine.Run _) press = (.ok (), after) ∧
      after.Calm ∧ (load "runs/next.json" : Machine.Run _) after = (.ok (some almanac), last) := by
  have ordered : almanac.Ordered := by
    rw [Ordered]
    decide
  have legible : ∀ x ∈ almanac.scalars, Legible x := by decide +kernel
  have saved : ((writeTo almanac.fileText (some "runs/next.json") : Machine.Run _) press).1 = .ok () := rfl
  have calm : ((writeTo almanac.fileText (some "runs/next.json") : Machine.Run _) press).2.Calm :=
    fun _ _ faults => by cases faults
  obtain ⟨loaded, last, loads, _, rfl, _⟩ := load_saved ordered legible (Prod.ext saved rfl) calm
  exact ⟨ordered, legible, _, last, Prod.ext saved rfl, calm, loads⟩

end Snapshot
end DesignCompiler
