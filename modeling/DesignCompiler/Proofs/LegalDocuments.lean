import DesignCompiler.Proofs.LineEnds
import DesignCompiler.Proofs.SharedAssets
import DesignCompiler.Proofs.Wording

/-!
What a conforming reader makes of a document. It takes no document that has a character which the markup
language rules out, and it unifies line ends before it looks for markup. Neither is seen to where documents
are written: what a design has in such characters stands in its document, so that the reader rejects the
document or reads other texts.
-/
namespace DesignCompiler

/-- The characters that a document may have. Those that stand for no character of their own are none. -/
def Legal (c : Char) : Prop :=
  c.toNat = 0x9 ∨ c.toNat = 0xA ∨ c.toNat = 0xD ∨ 0x20 ≤ c.toNat ∧ c.toNat ≠ 0xFFFE ∧ c.toNat ≠ 0xFFFF

instance (c : Char) : Decidable (Legal c) := inferInstanceAs (Decidable (_ ∨ _))

theorem legal_of_typed (c : Char) (typed : Typed c) : Legal c := by
  rcases typed with tab | feed | ⟨low, high⟩
  · exact .inl tab
  · exact .inr (.inl feed)
  · exact .inr (.inr (.inr ⟨low, by omega, by omega⟩))

theorem typed_of_wordlike (c : Char) (word : Wordlike c) : Typed c := by
  have between {low high : Char} (above : low.val ≤ c.val) (below : c.val ≤ high.val) (first : 32 ≤ low.toNat)
      (last : high.toNat ≤ 126) : Typed c :=
    .inr (.inr ⟨Nat.le_trans first (UInt32.le_iff_toNat_le.mp above),
      Nat.le_trans (UInt32.le_iff_toNat_le.mp below) last⟩)
  have kinds : (c.isUpper || c.isLower || c.isDigit) = true := word
  rw [Bool.or_eq_true, Bool.or_eq_true] at kinds
  rcases kinds with (upper | lower) | digit
  · have range : 'A'.val ≤ c.val ∧ c.val ≤ 'Z'.val := of_decide_eq_true upper
    exact between range.1 range.2 (by decide) (by decide)
  · obtain ⟨low, high⟩ := Bool.and_eq_true_iff.mp lower
    exact between (of_decide_eq_true low) (of_decide_eq_true high) (by decide) (by decide)
  · obtain ⟨low, high⟩ := Bool.and_eq_true_iff.mp digit
    exact between (of_decide_eq_true low) (of_decide_eq_true high) (by decide) (by decide)

theorem quotable_of_wordlike {s : String} (words : Throughout Wordlike s) : Markup.Quotable s :=
  ⟨fun quote => absurd (words _ quote) (by decide), fun mark => absurd (words _ mark) (by decide)⟩

namespace Arena

/-- An arena that grew, with words of letters for its classes and keys, is read as it is. -/
theorem Grown.reads_back {arena : Arena Float} {kind : Char → Prop} (grown : arena.Grown)
    (words : ∀ inst ∈ arena.instances, inst.Spelled Wordlike kind) :
    ∃ forest, Listing.read? arena.document = some forest ∧ Listing.Recovers arena.edits forest := by
  have plain : ∀ edit ∈ arena.edits, Markup.Quotable edit.literal := by
    intro edit member
    obtain ⟨inst, present, own⟩ := Edit.literal_ofInstances member
    rcases own with same | among
    · rw [same]
      exact quotable_of_wordlike (words inst present).className
    · obtain ⟨property, held, same⟩ := List.mem_map.mp among
      rw [← same]
      exact quotable_of_wordlike ((words inst present).keys property held)
  obtain ⟨forest, read, recovers⟩ := document_reads_back arena.edits grown.valid plain
  rw [grown.build_edits] at read
  exact ⟨forest, read, recovers⟩

theorem words_unified {arena : Arena Float} {kind : Char → Prop}
    (words : ∀ inst ∈ arena.instances, inst.Spelled Wordlike kind) :
    ∀ inst ∈ arena.unified.instances, inst.Spelled Wordlike fun _ => True := by
  intro inst member
  obtain ⟨before, present, rfl⟩ := List.mem_map.mp member
  have spelled := words before present
  exact ⟨spelled.className, List.forall_mem_map.mpr spelled.keys, fun _ _ => trivial,
    fun _ _ _ _ _ _ => trivial⟩

end Arena

/-- The items of a document, as a conforming reader takes them in. -/
def Listing.take? (document : String) : Option (List Listing) :=
  if Throughout Legal document then read? (unified document) else none

namespace Assembly

variable {rules : RuleSet} {config : TextConfig} {root : Node Float} {arena : Arena Float}

/-- All texts that are to stand in a document are of a kind. -/
def AllInscribed (rules : RuleSet) (config : TextConfig) (root : Node Float) (kind : Char → Prop) : Prop :=
  ∀ path node, Node.Emits rules root path node → ∀ text ∈ inscriptions rules config node, Throughout kind text

/-- An arena is spelled like the texts of the nodes that reach the output. -/
structure Inscribed (rules : RuleSet) (config : TextConfig) (root : Node Float)
    (arena : Arena Float) : Prop where
  grown : arena.Grown
  spelled {kind : Char → Prop} (typed : ∀ c, Typed c → kind c) :
    (∀ inst ∈ arena.instances, inst.Spelled Wordlike kind) ↔ AllInscribed rules config root kind

namespace Inscribed

theorem words (inscribed : Inscribed rules config root arena) :
    ∀ inst ∈ arena.instances, inst.Spelled Wordlike fun _ => True :=
  (inscribed.spelled fun _ _ => trivial).mpr fun _ _ _ _ _ _ _ => trivial

/-- What holds of typed characters holds of all those of the document just if it holds of all texts that are
to stand in it. -/
theorem throughout_document (inscribed : Inscribed rules config root arena) {kind : Char → Prop}
    (typed : ∀ c, Typed c → kind c) :
    Throughout kind arena.document ↔ AllInscribed rules config root kind := by
  rw [Arena.throughout_document typed inscribed.grown, ← inscribed.spelled typed]
  refine forall₂_congr fun inst member => ⟨fun spelled => ?_, fun spelled => ?_⟩
  · have own := inscribed.words inst member
    exact ⟨own.className, own.keys, spelled.name, spelled.texts⟩
  · exact spelled.literally fun c word => typed c (typed_of_wordlike c word)

theorem unified_iff (inscribed : Inscribed rules config root arena) :
    arena.unified = arena ↔ AllInscribed rules config root Steady := by
  rw [Arena.unified_eq_iff, ← inscribed.spelled steady_of_typed]
  refine forall₂_congr fun inst member => Instance.unified_eq_iff.trans ⟨fun same => ?_, fun spelled => ?_⟩
  · have own := inscribed.words inst member
    exact ⟨own.className, own.keys, same.1, fun property held =>
      Property.unified_eq_iff.mp (same.2 property held)⟩
  · exact ⟨spelled.name, fun property held => Property.unified_eq_iff.mpr (spelled.texts property held)⟩

theorem reads_unified (inscribed : Inscribed rules config root arena) :
    ∃ forest, Listing.read? (unified arena.document) = some forest ∧
      Listing.Recovers arena.unified.edits forest := by
  rw [Arena.unified_document fun inst member =>
    (inscribed.words inst member).literally fun c word => steady_of_typed c (typed_of_wordlike c word)]
  exact inscribed.grown.unified.reads_back (Arena.words_unified inscribed.words)

theorem taken_iff (inscribed : Inscribed rules config root arena) :
    (∃ forest, Listing.take? arena.document = some forest ∧ Listing.Recovers arena.unified.edits forest) ↔
      AllInscribed rules config root Legal := by
  rw [← inscribed.throughout_document legal_of_typed, Listing.take?]
  constructor
  · rintro ⟨forest, taken, _⟩
    split at taken
    case isTrue legal => exact legal
    case isFalse => cases taken
  · intro legal
    rw [if_pos legal]
    exact inscribed.reads_unified

/-- What it takes in is what the arena holds just if no text has a carriage return either. -/
theorem recovered_iff (inscribed : Inscribed rules config root arena) :
    (∃ forest, Listing.take? arena.document = some forest ∧ Listing.Recovers arena.edits forest) ↔
      AllInscribed rules config root Legal ∧ AllInscribed rules config root Steady := by
  rw [← inscribed.taken_iff, ← inscribed.unified_iff]
  constructor
  · rintro ⟨forest, taken, recovers⟩
    have legal : Throughout Legal arena.document := by
      by_contra illegal
      rw [Listing.take?, if_neg illegal] at taken
      cases taken
    obtain ⟨other, read, changed⟩ := inscribed.reads_unified
    rw [Listing.take?, if_pos legal, read] at taken
    obtain rfl := Option.some.inj taken
    exact ⟨⟨other, by rw [Listing.take?, if_pos legal, read], changed⟩,
      (changed.unified_iff inscribed.grown).mp recovers⟩
  · rintro ⟨⟨forest, taken, recovers⟩, same⟩
    exact ⟨forest, taken, same ▸ recovers⟩

end Inscribed

theorem inscribed_of_assemble {log log' : Diagnostics}
    (done : (assemble rules config root).run log = .ok (arena, log'))
    (matched : ∀ path node, Node.Emits rules root path node → Matched rules node)
    (unshaded : root.layer.annotations.shadow = none) : Inscribed rules config root arena := by
  obtain ⟨children, layout⟩ := Placement.exists_layout rules root
  obtain ⟨_, rfl⟩ := drawn_of_assemble layout done
  exact ⟨Arena.grown_plant _, fun typed => spelled_screen typed config layout matched unshaded⟩

end Assembly

namespace Compilation

open Assembly (AllInscribed Inscribed)
open Store (Yields)

section World

variable {σ : Type} [Host (StateM σ)] {config : Config Float} {uploader : Store.Uploader (StateM σ)}
  {previous : Option (Snapshot Float)} {manifest : Manifest Float} {before after : Store.Ledger × σ}
  {planned : PlannedDesign Float} {resolution : Store.Resolution}

/-- The arena of a run is spelled like the texts of the nodes that reach the output. -/
theorem Stages.inscribed
    (stages : Stages config uploader previous manifest before after planned resolution)
    {log log' : Diagnostics} {arena : Arena Float}
    (done : (Assembly.assemble planned.rules config.text
      (planned.resolved (resolution.resolved.lookup ·))).run log = .ok (arena, log')) :
    Inscribed planned.rules config.text (planned.resolved (resolution.resolved.lookup ·)) arena :=
  Assembly.inscribed_of_assemble done (fun _ _ reached => PlannedDesign.matched_resolved stages.plan reached)
    (PlannedDesign.unshaded_resolved stages.plan)

/-- The document of a run has illegal characters just where a name, a label, a font, a record or an address
of a node that reaches the output has them; then a conforming reader takes nothing in. Otherwise it takes in
the arena with all line ends unified, and that is the arena itself just if none of these texts has a carriage
return. -/
theorem document_accepted_iff {compilation : Compilation Float}
    (done : Yields (run config uploader previous manifest) before (.ok compilation) after) :
    ∃ (planned : PlannedDesign Float) (root : Node Float) (arena : Arena Float) (log : Diagnostics),
      PlannedDesign.of config previous manifest = .ok planned ∧ root = planned.resolved after.1.asset? ∧
      (Assembly.assemble planned.rules config.text root).run ⟨planned.warnings, []⟩ = .ok (arena, log) ∧
      compilation.document = arena.document ∧ Arena.build arena.edits = arena ∧
      (Throughout Legal compilation.document ↔ AllInscribed planned.rules config.text root Legal) ∧
      ((∃ forest, Listing.take? compilation.document = some forest ∧
          Listing.Recovers arena.unified.edits forest) ↔
        AllInscribed planned.rules config.text root Legal) ∧
      ((∃ forest, Listing.take? compilation.document = some forest ∧ Listing.Recovers arena.edits forest) ↔
        AllInscribed planned.rules config.text root Legal ∧
          AllInscribed planned.rules config.text root Steady) := by
  obtain ⟨planned, resolution, stages, finished⟩ := stages_of_run done
  obtain ⟨arena, log, assembled, rfl⟩ := finish_eq_ok.mp finished
  have inscribed := stages.inscribed assembled
  have kept := stages.resolved_kept
  rw [kept] at assembled inscribed
  exact ⟨planned, _, arena, log, stages.plan, rfl, assembled, rfl, inscribed.grown.build_edits,
    inscribed.throughout_document legal_of_typed, inscribed.taken_iff, inscribed.recovered_iff⟩

end World

/-! Designs of one label. -/

def simple : Config Float := { Config.default with classification := ⟨"", []⟩ }

/-- A label with a name and no text. -/
def titled (name : String) : Manifest Float :=
  ⟨some (.text (Layer.plain "0" name ⟨0, 0, 100, 100⟩) ⟨"", .default⟩), [], [], .empty⟩

/-- Without assets, on an empty disk. -/
def bare : Store.Ledger × Machine := (⟨none, []⟩, Machine.ofDisk .empty)

theorem plan_titled (name : String) : ∃ planned, PlannedDesign.of simple none (titled name) = .ok planned ∧
    planned.jobs = [] ∧ ∀ lookup : String → Option String,
      (planned.resolved lookup).strategy planned.rules = .text ∧
      Assembly.inscriptions planned.rules simple.text (planned.resolved lookup) = [name, "", "BuilderSans"] :=
  ⟨_, rfl, rfl, fun _ => ⟨rfl, rfl⟩⟩

theorem inscribed_titled {name : String} {planned : PlannedDesign Float}
    (plan : PlannedDesign.of simple none (titled name) = .ok planned) (lookup : String → Option String)
    {kind : Char → Prop} (typed : ∀ c, Typed c → kind c) :
    AllInscribed planned.rules simple.text (planned.resolved lookup) kind ↔ Throughout kind name := by
  obtain ⟨_, plan', _, shown⟩ := plan_titled name
  obtain rfl := Except.ok.inj (plan.symm.trans plan')
  obtain ⟨leaf, texts⟩ := shown lookup
  have alone : ∀ path node, Node.Emits planned.rules (planned.resolved lookup) path node →
      node = planned.resolved lookup := by
    intro path node emits
    induction emits with
    | root => rfl
    | child parent container found live same =>
      rw [same, leaf] at container
      cases container
  constructor
  · exact fun all => all [] _ .root name (texts ▸ List.mem_cons_self)
  · intro own path node emits
    rw [alone path node emits, texts]
    have fixed : ∀ text ∈ ["", "BuilderSans"], Throughout kind text := fun text member =>
      ((by decide : ∀ text ∈ ["", "BuilderSans"], Throughout Typed text) text member).mono typed
    exact List.forall_mem_cons.mpr ⟨own, fixed⟩

/-- The run on such a design succeeds, and its document is legal, and read as it is meant, just if its name
allows this. -/
theorem run_titled (name : String) : ∃ (compilation : Compilation Float) (arena : Arena Float),
    Yields (run simple .disabled none (titled name)) bare (.ok compilation) bare ∧
    compilation.document = arena.document ∧
    (Throughout Legal compilation.document ↔ Throughout Legal name) ∧
    ((∃ forest, Listing.take? compilation.document = some forest ∧ Listing.Recovers arena.edits forest) ↔
      Throughout Legal name ∧ Throughout Steady name) := by
  obtain ⟨planned, plan, jobless, _⟩ := plan_titled name
  obtain ⟨resolution, stages, _⟩ := Stages.of_known .disabled bare plan
    (checkDeclared_eq_ok.mpr (by simp [titled])) (by simp [jobless])
  obtain ⟨compilation, arena, log, done, assembled, document, _⟩ := stages.compiled
  have inscribed := stages.inscribed assembled
  refine ⟨compilation, arena, done, document, ?_, ?_⟩
  · rw [document, inscribed.throughout_document legal_of_typed, inscribed_titled plan _ legal_of_typed]
  · rw [document, inscribed.recovered_iff, inscribed_titled plan _ legal_of_typed,
      inscribed_titled plan _ steady_of_typed]

theorem home_document_accepted : ∃ (compilation : Compilation Float) (arena : Arena Float),
    Yields (run simple .disabled none (titled "home")) bare (.ok compilation) bare ∧
    compilation.document = arena.document ∧
    ∃ forest, Listing.take? compilation.document = some forest ∧ Listing.Recovers arena.edits forest := by
  obtain ⟨compilation, _, done, _⟩ := run_titled "home"
  obtain ⟨planned, root, arena, log, plan, rfl, _, document, _, _, _, recovered⟩ := document_accepted_iff done
  rw [inscribed_titled plan _ legal_of_typed, inscribed_titled plan _ steady_of_typed] at recovered
  exact ⟨compilation, arena, done, document, recovered.mpr ⟨by decide, by decide⟩⟩

/-- A name with a character that no document may have makes a document that is not legal, and a name with a
carriage return is read as another one. -/
theorem names_mangled :
    (∃ compilation : Compilation Float,
      Yields (run simple .disabled none (titled "\x01")) bare (.ok compilation) bare ∧
      ¬ Throughout Legal compilation.document) ∧
    ∃ (compilation : Compilation Float) (arena : Arena Float),
      Yields (run simple .disabled none (titled "a\rb")) bare (.ok compilation) bare ∧
      compilation.document = arena.document ∧ Throughout Legal compilation.document ∧
      ¬ ∃ forest, Listing.take? compilation.document = some forest ∧ Listing.Recovers arena.edits forest := by
  constructor
  · obtain ⟨compilation, _, done, _, legal, _⟩ := run_titled "\x01"
    exact ⟨compilation, done, fun all => absurd (legal.mp all) (by decide)⟩
  · obtain ⟨compilation, arena, done, document, legal, recovered⟩ := run_titled "a\rb"
    exact ⟨compilation, arena, done, document, legal.mpr (by decide),
      fun taken => absurd (recovered.mp taken).2 (by decide)⟩

end Compilation
end DesignCompiler
