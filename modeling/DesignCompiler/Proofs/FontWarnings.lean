import DesignCompiler.Proofs.Clipping
import DesignCompiler.Proofs.Escaping

/-!
The fonts of labels. A family that the engine has no counterpart of is warned about once in a run, however
many labels have it and wherever they end up, and all of these labels get the default font.
-/
namespace DesignCompiler

variable {α : Type} [Scalar α] {rules : RuleSet}

namespace Label

/-- A family without a counterpart, neither in the settings nor in the engine. A blank one names no font. -/
structure Unmapped (config : TextConfig) (family : String) : Prop where
  named : (Text.trim family).isEmpty = false
  unset : config.fonts.lookup family = none
  foreign : builtinFonts.lookup (normalize family) = none

/-- What is said of a family without a counterpart. -/
def fontWarning (config : TextConfig) (family : String) : Warning where
  kind := .unmappedFont
  nodeId := none
  message := "font family '" ++ family ++ "' has no engine equivalent; using " ++ config.defaultFont

variable {config : TextConfig} {family : String}

theorem mapFont_unmapped (unmapped : Unmapped config family) (log : Diagnostics) :
    mapFont config family log = (config.defaultFont,
      log.warnOnce .unmappedFont family (fontWarning config family).message) := by
  rw [mapFont, unmapped.named, knownFont?, unmapped.unset]
  simp only [unmapped.foreign]
  rfl

/-- Nothing is said of any other family. -/
theorem mapFont_mapped (mapped : ¬Unmapped config family) (log : Diagnostics) :
    (mapFont config family log).2 = log := by
  unfold mapFont
  split
  case isTrue => rfl
  case isFalse named =>
    split
    · rfl
    · rename_i unknown
      unfold knownFont? at unknown
      split at unknown
      · cases unknown
      · rename_i unset
        exact absurd ⟨Bool.eq_false_iff.mpr named, unset, unknown⟩ mapped

end Label

/-- None of some warnings is about a font. -/
def Warning.Fontless (warnings : List Warning) : Prop := ∀ warning ∈ warnings, warning.kind ≠ .unmappedFont

theorem Warning.Within.fontless {kinds : List WarningKind} {warnings : List Warning}
    (within : Within kinds warnings) (apart : .unmappedFont ∉ kinds) : Fontless warnings :=
  fun _ member font => apart (font ▸ within _ member)

namespace Diagnostics

open Label (Unmapped fontWarning)

/-- What has been said about fonts. -/
def fonts (log : Diagnostics) : List Warning := log.warnings.filter (·.kind = .unmappedFont)

/-- A log that warned once of some families: it has one warning for each that has no counterpart, and the keys
of these are the fonts it has warned about. -/
structure WarnedOnce (log : Diagnostics) (config : TextConfig) (families : List String) : Prop where
  seen : ∀ family, (WarningKind.unmappedFont, family) ∈ log.seen ↔ family ∈ families ∧ Unmapped config family
  told : ∃ firsts : List String, firsts.Nodup ∧ log.fonts = firsts.map (fontWarning config) ∧
    ∀ family, family ∈ firsts ↔ family ∈ families ∧ Unmapped config family

variable {log : Diagnostics} {config : TextConfig} {families : List String}

/-- At first no family is known. -/
theorem warnedOnce_nil {warnings : List Warning} (fontless : Warning.Fontless warnings) :
    WarnedOnce ⟨warnings, []⟩ config [] where
  seen := by simp
  told := by
    refine ⟨[], List.nodup_nil, ?_, by simp⟩
    rw [fonts, List.map_nil, List.filter_eq_nil_iff]
    intro warning member
    simpa using fontless warning member

theorem WarnedOnce.warnAll (warnedOnce : log.WarnedOnce config families) {warnings : List Warning}
    (fontless : Warning.Fontless warnings) : (log.warnAll warnings).WarnedOnce config families where
  seen := warnedOnce.seen
  told := by
    have same : (log.warnAll warnings).fonts = log.fonts := by
      have none : warnings.filter (·.kind = .unmappedFont) = [] := by
        rw [List.filter_eq_nil_iff]
        intro warning member
        simpa using fontless warning member
      rw [fonts, Diagnostics.warnAll, List.filter_append, none, List.append_nil, fonts]
    rw [same]
    exact warnedOnce.told

/-- Only the families without a counterpart count. -/
theorem WarnedOnce.congr (warnedOnce : log.WarnedOnce config families) {others : List String}
    (same : ∀ family, Unmapped config family → (family ∈ families ↔ family ∈ others)) :
    log.WarnedOnce config others := by
  have both : ∀ family, family ∈ families ∧ Unmapped config family ↔
      family ∈ others ∧ Unmapped config family := by
    intro family
    constructor
    · exact fun member => ⟨(same family member.2).mp member.1, member.2⟩
    · exact fun member => ⟨(same family member.2).mpr member.1, member.2⟩
  obtain ⟨firsts, distinct, told, listed⟩ := warnedOnce.told
  exact ⟨fun family => (warnedOnce.seen family).trans (both family), firsts, distinct, told,
    fun family => (listed family).trans (both family)⟩

/-- The first time that a family without a counterpart comes up, the log gains the warning about it. -/
theorem WarnedOnce.first (warnedOnce : log.WarnedOnce config families) {family : String}
    (unmapped : Unmapped config family) (new : family ∉ families) :
    WarnedOnce ⟨log.warnings ++ [fontWarning config family], (.unmappedFont, family) :: log.seen⟩ config
      (families ++ [family]) := by
  have grown : ∀ other, other ∈ families ++ [family] ∧ Unmapped config other ↔
      other = family ∨ other ∈ families ∧ Unmapped config other := by
    intro other
    rw [List.mem_append, List.mem_singleton]
    constructor
    · rintro ⟨old | rfl, without⟩
      · exact .inr ⟨old, without⟩
      · exact .inl rfl
    · rintro (rfl | ⟨old, without⟩)
      · exact ⟨.inr rfl, unmapped⟩
      · exact ⟨.inl old, without⟩
  obtain ⟨firsts, distinct, told, listed⟩ := warnedOnce.told
  refine ⟨fun other => ?_, firsts ++ [family], ?_, ?_, fun other => ?_⟩
  · rw [grown, List.mem_cons, warnedOnce.seen, Prod.mk.injEq, eq_self_iff_true, true_and]
  · have fresh : family ∉ firsts := fun member => new ((listed family).mp member).1
    refine List.nodup_append.mpr ⟨distinct, List.nodup_singleton _, ?_⟩
    rintro other member _ single rfl
    exact fresh (List.mem_singleton.mp single ▸ member)
  · rw [fonts, List.filter_append, ← fonts, told, List.map_append]
    rfl
  · rw [grown, List.mem_append, List.mem_singleton, listed, or_comm]

/-- A family is warned about unless it has been before. -/
theorem WarnedOnce.mapFont (warnedOnce : log.WarnedOnce config families) (family : String) :
    (Label.mapFont config family log).2.WarnedOnce config (families ++ [family]) := by
  by_cases unmapped : Unmapped config family
  · rw [Label.mapFont_unmapped unmapped, warnOnce]
    by_cases old : family ∈ families
    · have known := (warnedOnce.seen family).mpr ⟨old, unmapped⟩
      rw [if_pos (List.contains_iff_mem.mpr known)]
      refine warnedOnce.congr fun other _ => ?_
      rw [List.mem_append, List.mem_singleton]
      exact ⟨.inl, fun member => member.elim id fun same => same ▸ old⟩
    · have unknown : (WarningKind.unmappedFont, family) ∉ log.seen :=
        fun member => old ((warnedOnce.seen family).mp member).1
      rw [if_neg (mt List.contains_iff_mem.mp unknown)]
      exact warnedOnce.first unmapped old
  · rw [Label.mapFont_mapped unmapped]
    refine warnedOnce.congr fun other without => ?_
    rw [List.mem_append, List.mem_singleton, or_iff_left]
    rintro rfl
    exact unmapped without

end Diagnostics

namespace Assembly

open Warning (Fontless)

variable {config : TextConfig} {families : List String} {log log' : Diagnostics}

/-- The family that a node asks for, if it shows a text. -/
def typefaces (rules : RuleSet) (node : Node α) : List String :=
  if node.strategy rules = .text then (node.content?.map (·.style.fontFamily)).toList else []

omit [Scalar α] in
theorem typefaces_node (site : Site α) :
    typefaces rules site.node = typefaces rules site.origin := by
  obtain ⟨path, origin, x, y⟩ := site
  rw [typefaces, typefaces, Site.strategy_node]
  cases origin <;> rfl

/-- The families that the nodes of some places ask for. -/
def typefacesAll (rules : RuleSet) (sites : List (Site α)) : List String :=
  sites.flatMap fun site => typefaces rules site.origin

theorem warnedOnce_label (layer : Layer α) (text : TextContent α)
    (warnedOnce : log.WarnedOnce config families) :
    (Label.emit config layer text log).2.2.WarnedOnce config (families ++ [text.style.fontFamily]) := by
  obtain ⟨after, within, same⟩ := exists_label_log config layer text
  have styled := (within_styleWarnings config layer.id text.style).fontless (by decide)
  rw [same]
  exact ((warnedOnce.warnAll styled).mapFont _).warnAll (within.fontless (by decide))

theorem warnedOnce_paint {node : Node α} {painted : List (String × Property α) × List (Item α)}
    (done : (paint config (node.classify rules) node).run log = .ok (painted, log'))
    (warnedOnce : log.WarnedOnce config families) :
    log'.WarnedOnce config (families ++ typefaces rules node) := by
  rcases paint_log done with ⟨text, shown, held, rfl⟩ | ⟨blank, warnings, within, rfl⟩
  · rw [typefaces, if_pos shown, held]
    exact warnedOnce_label node.layer text warnedOnce
  · have none : typefaces rules node = [] := by
      rw [typefaces]
      split
      · rename_i shown
        rw [blank shown]
        rfl
      · rfl
    rw [none, List.append_nil]
    exact warnedOnce.warnAll (within.fontless (by decide))

mutual

/-- Emitting a node comes across the families that it and the nodes below it ask for. -/
theorem warnedOnce_emit {slot : Slot α} {canLift : Bool} {families : List String} {log log' : Diagnostics}
    {item : Item α} : (plot : Plot α) → Plot.Hosted rules plot.site canLift plot.children →
    (plot.site.node.strategy rules ≠ .container → plot.children = []) →
    (emit rules config slot plot.placed).run log = .ok (item, log') → log.WarnedOnce config families →
    log'.WarnedOnce config (families ++ typefacesAll rules plot.sites)
  | .mk site notice children, hosted, leaf, done, warnedOnce => by
    rw [Plot.placed, emit] at done
    simp only [bind_eq_ok, keep_eq_ok] at done
    obtain ⟨_, _, ⟨_, rfl⟩, _, between, painted, done⟩ := done
    have placed := warnedOnce.warnAll ((within_place rules
      (placedLayer site.node.layer (site.node.classify rules).needsRaster slot) slot.frame
      slot.isRoot).fontless (by decide))
    have shown := warnedOnce_paint painted placed
    have whole : typefacesAll rules (Plot.mk site notice children).sites =
        typefaces rules site.node ++ typefacesAll rules (Plot.sitesAll children) := by
      rw [typefaces_node]
      rfl
    rw [whole, ← List.append_assoc]
    by_cases container : site.node.strategy rules = .container
    · simp only [if_pos container, bind_eq_ok, lift_eq_ok, pure_eq_ok] at done
      obtain ⟨_, _, ⟨_, rfl⟩, _, _, ⟨_, rfl⟩, _, _, emitted, _, _, ⟨_, rfl⟩, _, rfl⟩ := done
      have flow := shown.warnAll ((within_flowItems site.node).fontless (by decide))
      exact (warnedOnce_emitAll children hosted emitted flow).warnAll
        ((within_interactions _).fontless (by decide))
    · simp only [if_neg container, bind_eq_ok, keep_eq_ok, pure_eq_ok] at done
      obtain ⟨_, _, ⟨_, rfl⟩, _, rfl⟩ := done
      obtain rfl : children = [] := leaf container
      rw [Plot.sitesAll, typefacesAll, List.flatMap_nil, List.append_nil]
      exact shown.warnAll ((within_interactions _).fontless (by decide))

theorem warnedOnce_emitAll {frame : ParentFrame α} {zIndex order : Int} {host : Site α} {canLift : Bool}
    {families : List String} {log log' : Diagnostics} {result : List (Item α) × Int} :
    (plots : List (Plot α)) → Plot.Hosted rules host canLift plots →
    (emitAll rules config frame zIndex order (Plot.placedAll plots)).run log = .ok (result, log') →
    log.WarnedOnce config families →
      log'.WarnedOnce config (families ++ typefacesAll rules (Plot.sitesAll plots))
  | [], _, done, warnedOnce => by
    rw [Plot.placedAll, emitAll] at done
    obtain ⟨_, rfl⟩ := pure_eq_ok.mp done
    rw [Plot.sitesAll, typefacesAll, List.flatMap_nil, List.append_nil]
    exact warnedOnce
  | .mk site notice children :: rest, hosted, done, warnedOnce => by
    cases hosted with
    | cons comes stays told leaf inner others =>
      rw [Plot.placedAll, emitAll] at done
      simp only [bind_eq_ok, warnAll_eq_ok, pure_eq_ok] at done
      obtain ⟨_, _, rfl, _, _, shadows, _, _, own, _, _, later, _, rfl⟩ := done
      obtain ⟨warnings, within, rfl⟩ := shadows_log shadows
      have said : Fontless notice.toList := by
        rw [told]
        exact (within_notice rules host.node site.node).fontless (by decide)
      have noticed := (warnedOnce.warnAll said).warnAll (within.fontless (by decide))
      have emitted := warnedOnce_emitAll rest others later
        (warnedOnce_emit (.mk site notice children) inner leaf own noticed)
      have split : typefacesAll rules (Plot.sitesAll (.mk site notice children :: rest)) =
          typefacesAll rules (Plot.mk site notice children).sites ++
            typefacesAll rules (Plot.sitesAll rest) := List.flatMap_append
      rw [split, ← List.append_assoc]
      exact emitted

end

section Screen
variable {root : Node α} {children : List (Plot α)} {arena : Arena α}

omit [Scalar α] in
theorem mem_typefaces {node : Node α} {family : String} :
    family ∈ typefaces rules node ↔ ∃ layer content, node = .text layer content ∧
      node.strategy rules = .text ∧ content.style.fontFamily = family := by
  rw [typefaces]
  cases node with
  | container layer props children => simp [Node.content?]
  | shape layer kind => simp [Node.content?]
  | text layer content =>
    by_cases shown : (Node.text layer content).strategy rules = .text
    · simp [Node.content?, shown, eq_comm]
    · simp [shown]

omit [Scalar α] in
/-- The families that are asked for are those of the texts that reach the output as labels. -/
theorem mem_typefaces_emits {family : String} :
    family ∈ (root.emits rules []).flatMap (fun entry => typefaces rules entry.2) ↔
      ∃ path layer content, Node.Emits rules root path (.text layer content) ∧
        (Node.text layer content).strategy rules = .text ∧ content.style.fontFamily = family := by
  rw [List.mem_flatMap]
  constructor
  · rintro ⟨⟨path, node⟩, member, asked⟩
    obtain ⟨layer, content, rfl, shown, same⟩ := mem_typefaces.mp asked
    obtain ⟨_, rfl, reached⟩ := Node.mem_emits.mp member
    exact ⟨_, layer, content, reached, shown, same⟩
  · rintro ⟨path, layer, content, reached, shown, same⟩
    exact ⟨(path, .text layer content), Node.mem_emits.mpr ⟨path, rfl, reached⟩,
      mem_typefaces.mpr ⟨layer, content, rfl, shown, same⟩⟩

/-- Wherever the nodes end up, the emission comes across the families that are asked for. -/
theorem Staging.typefaces_perm (staging : Staging rules root children) :
    (typefacesAll rules (top root children).sites).Perm
      ((root.emits rules []).flatMap fun entry => typefaces rules entry.2) := by
  have whole : typefacesAll rules (top root children).sites =
      (Plot.occurrences [top root children]).flatMap fun entry => typefaces rules entry.2 := by
    have sites : Plot.sitesAll [top root children] = (top root children).sites := List.append_nil _
    rw [Plot.occurrences, sites, List.flatMap_map]
    rfl
  rw [whole]
  exact staging.layout.perm.flatMap_right _

/-- If a design is assembled, the log has warned once of the families that its labels ask for. -/
theorem exists_staging_warnedOnce (done : (assemble rules config root).run log = .ok (arena, log'))
    (fresh : log.WarnedOnce config []) : ∃ children, Staging rules root children ∧
      arena = (drawScreen rules config root children).arena ∧
      log'.WarnedOnce config (typefacesAll rules (top root children).sites) := by
  obtain ⟨children, layout, laid, hosted⟩ := Placement.exists_hosted rules root
  obtain ⟨⟨supplied, ready⟩, drawn⟩ := drawn_of_assemble layout done
  refine ⟨children, ⟨layout, laid, supplied, ready⟩, drawn, ?_⟩
  rw [assemble, layout.placed] at done
  simp only [bind_eq_ok, pure_eq_ok] at done
  obtain ⟨_, _, emitted, _, rfl⟩ := done
  exact warnedOnce_emit (top root children) hosted
    (fun leaf => layout.leaf (by rwa [Plot.site, Site.node_start] at leaf)) emitted fresh

theorem mem_painting_font {node : Node α} {content : TextContent α} (label : node.strategy rules = .text)
    (held : node.content? = some content) (unmapped : Label.Unmapped config content.style.fontFamily) :
    ("FontFace", .font config.defaultFont (Label.fontWeight content.style.fontWeight) false) ∈
      (painting rules config node).1 := by
  simp only [painting, label, held, Label.emit, Label.mapFont_unmapped unmapped]
  simp

end Screen

end Assembly

namespace Compilation

open Store (Yields)
open Label (Unmapped fontWarning)

section World

variable {σ : Type} [Host (StateM σ)] {config : Config α} {uploader : Store.Uploader (StateM σ)}
  {previous : Option (Snapshot α)} {manifest : Manifest α} {before after : Store.Ledger × σ}

/-- The report of a run has one warning for each family that some label asks for and that has no counterpart,
and no other warning about a font. Each label of such a family has the default font. -/
theorem warns_once_of_fonts {compilation : Compilation α}
    (done : Yields (run config uploader previous manifest) before (.ok compilation) after) :
    ∃ (planned : PlannedDesign α) (root : Node α) (arena : Arena α) (place : List Nat → Nat),
      PlannedDesign.of config previous manifest = .ok planned ∧ root = planned.resolved after.1.asset? ∧
      compilation.document = arena.document ∧ arena.HasEachNode planned.rules root place ∧
      (∃ families : List String, families.Nodup ∧
        compilation.report.warnings.filter (·.kind = .unmappedFont) =
          families.map (fontWarning config.text) ∧
        ∀ family, family ∈ families ↔ Unmapped config.text family ∧ ∃ path layer content,
          Node.Emits planned.rules root path (.text layer content) ∧
          (Node.text layer content).strategy planned.rules = .text ∧
          content.style.fontFamily = family) ∧
      ∀ path layer content, Node.Emits planned.rules root path (.text layer content) →
        (Node.text layer content).strategy planned.rules = .text →
        Unmapped config.text content.style.fontFamily →
        ∃ inst, arena.get? (place path) = some inst ∧ inst.properties.lookup "FontFace" =
          some (.font config.text.defaultFont (Label.fontWeight content.style.fontWeight) false) := by
  obtain ⟨planned, resolution, stages, finished⟩ := stages_of_run done
  obtain ⟨arena, log, assembled, rfl⟩ := finish_eq_ok.mp finished
  rw [stages.resolved_kept] at assembled
  obtain ⟨_, _, _, passes⟩ := PlannedDesign.of_eq_ok stages.plan
  -- planning warns of no font, so what is warned of is warned of in the assembly
  have quiet : Warning.Fontless planned.warnings := by
    rw [show planned.warnings = _ from congrArg Prod.snd passes]
    exact (Plan.within_annotateNode _ _ _ _).fontless (by decide)
  obtain ⟨children, staging, rfl, warnedOnce⟩ :=
    Assembly.exists_staging_warnedOnce assembled (Diagnostics.warnedOnce_nil quiet)
  obtain ⟨place, placing⟩ := Assembly.exists_placing config.text staging
  refine ⟨planned, _, _, place, stages.plan, rfl, rfl, placing.houses staging, ?_, ?_⟩
  · obtain ⟨families, distinct, told, listed⟩ := warnedOnce.told
    refine ⟨families, distinct, told, fun family => ?_⟩
    rw [listed, staging.typefaces_perm.mem_iff, Assembly.mem_typefaces_emits, and_comm]
  · intro path layer content reached shown unmapped
    obtain ⟨inst, node, found, kind, held, set⟩ := placing.exists_label staging reached shown
    exact ⟨inst, found, set _ (Assembly.mem_painting_font kind held unmapped)⟩

end World

/-! A playbill in one family without a counterpart. Its ticket reacts, and hangs out of the stall that it is
pinned to. -/

private def lettering (text family : String) : TextContent Rat :=
  ⟨text, { TextStyle.default with fontFamily := family }⟩

private def ticket : Node Rat :=
  .text { Layer.plain "3" "ticket" ⟨15, 5, 30, 5⟩ with reactions := [⟨.onClick, none, none⟩] }
    (lettering "IN" "Papyrus")

private def playbill : Manifest Rat :=
  ⟨some (.container (.plain "0" "bill" ⟨0, 0, 100, 100⟩) ⟨.frame, none, false⟩
    [.text (.plain "1" "title" ⟨0, 0, 50, 10⟩) (lettering "GO" "Papyrus"),
      .container (.plain "2" "stall" ⟨50, 50, 20, 20⟩) ⟨.frame, none, true⟩ [ticket],
      .text (.plain "4" "price" ⟨0, 90, 50, 10⟩) (lettering "1" "Source Sans Pro")]), [], [], .empty⟩

private def plainly : Config Rat := { Config.default with classification := ⟨"", []⟩ }

private theorem plan_playbill : ∃ planned, PlannedDesign.of plainly none playbill = .ok planned ∧
    planned.jobs = [] ∧ ∀ lookup : String → Option String,
      ((planned.resolved lookup).emits planned.rules []).flatMap
        (fun entry => Assembly.typefaces planned.rules entry.2) =
          ["Papyrus", "Papyrus", "Source Sans Pro"] ∧
      ∃ layer, ([1, 0], .text layer (lettering "IN" "Papyrus")) ∈
          (planned.resolved lookup).emits planned.rules [] ∧
        (Node.text layer (lettering "IN" "Papyrus")).strategy planned.rules = .text := by
  exact ⟨_, rfl, by cbv, fun _ => ⟨by cbv, _, .tail _ (.tail _ (.tail _ (.head _))), rfl⟩⟩

private theorem unmapped_playbill : Unmapped plainly.text "Papyrus" ∧
    ¬Unmapped plainly.text "Source Sans Pro" := by
  refine ⟨⟨by decide +kernel, by rfl, by decide +kernel⟩, fun unmapped => ?_⟩
  exact absurd unmapped.foreign (by decide +kernel)

/-- Two labels ask for the same family, and there is one warning; the lifted one has the default font too. -/
theorem playbill_warns_once : ∃ (compilation : Compilation Rat) (arena : Arena Rat) (ticket : Instance Rat),
    Yields (run plainly .disabled none playbill) bare (.ok compilation) bare ∧
    compilation.report.warnings.filter (·.kind = .unmappedFont) = [⟨.unmappedFont, none,
      "font family 'Papyrus' has no engine equivalent; using BuilderSans"⟩] ∧
    compilation.document = arena.document ∧ ticket ∈ arena.instances ∧
    ticket.properties.lookup "FontFace" = some (.font "BuilderSans" 400 false) := by
  obtain ⟨planned, plan, jobless, asked⟩ := plan_playbill
  obtain ⟨resolution, stages, _⟩ := Stages.of_known .disabled bare plan
    (checkDeclared_eq_ok.mpr (by simp [playbill])) (by simp [jobless])
  obtain ⟨compilation, _, _, done, _⟩ := stages.compiled
  obtain ⟨planned', root, arena, place, plan', rfl, document, _, ⟨families, distinct, told, listed⟩, labels⟩ :=
    warns_once_of_fonts done
  obtain rfl := Except.ok.inj (plan.symm.trans plan')
  obtain ⟨papyrus, other⟩ := unmapped_playbill
  obtain ⟨wanted, layer, member, shown⟩ := asked bare.1.asset?
  have one : families = ["Papyrus"] := by
    refine List.perm_singleton.mp ((List.perm_ext_iff_of_nodup distinct (by simp)).mpr fun family => ?_)
    rw [listed, ← Assembly.mem_typefaces_emits, wanted]
    constructor
    · rintro ⟨unmapped, among⟩
      simp only [List.mem_cons, List.not_mem_nil, or_false] at among
      rcases among with rfl | rfl | rfl
      · exact List.mem_singleton_self _
      · exact List.mem_singleton_self _
      · exact absurd unmapped other
    · intro same
      obtain rfl := List.mem_singleton.mp same
      exact ⟨papyrus, List.mem_cons_self⟩
  obtain ⟨_, rfl, reached⟩ := Node.mem_emits.mp member
  obtain ⟨ticket, found, font⟩ := labels _ _ _ reached shown papyrus
  refine ⟨compilation, arena, ticket, done, ?_, document, ?_, ?_⟩
  · rw [told, one]
    rfl
  · exact List.mem_of_getElem? found
  · rw [font]
    have plain : Label.fontWeight (lettering "IN" "Papyrus").style.fontWeight = 400 := by cbv
    rw [plain]
    rfl

end Compilation
end DesignCompiler
