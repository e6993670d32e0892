import DesignCompiler.Proofs.LegalDocuments
import DesignCompiler.Proofs.Roles

/-!
Texts of labels are written in entities twice. A decorated label has its text in an element, with the marks of
rich text in entities; the document then writes all of that in entities of its own, quotes as well. Undone one
after the other, the two give the text of the node in its case.
-/
namespace DesignCompiler

namespace Label

/-- The text with something else in the place of a character. -/
def replaced (mark : Char) (entity text : String) : String :=
  String.ofList (text.toList.flatMap fun c => if c = mark then entity.toList else [c])

/-- Rich text is written by replacing one mark after the other. The mark that entities begin with comes first,
since the others bring it in. -/
theorem escapeRich_eq_replaced (text : String) :
    escapeRich text = replaced '>' "&gt;" (replaced '<' "&lt;" (replaced '&' "&amp;" text)) := by
  simp only [escapeRich, replaced, String.toList_ofList, List.flatMap_assoc]
  congr 1
  refine List.flatMap_congr fun c _ => ?_
  unfold escapeRichChar
  split
  case h_4 mark less greater =>
    have plain : c ≠ '&' ∧ c ≠ '<' ∧ c ≠ '>' := ⟨mark, less, greater⟩
    simp [plain]
  all_goals rfl

example : replaced '&' "&amp;" (replaced '<' "&lt;" "<") = "&amp;lt;" := by decide

/-- The marks of rich text, and the names of their entities. -/
def richEntities : List (Char × String) := [('&', "amp"), ('<', "lt"), ('>', "gt")]

/-- A character stands for itself in rich text, or is a mark and written as an entity. -/
theorem escapeRichChar_cases (c : Char) :
    (∃ name, (c, name) ∈ richEntities ∧ escapeRichChar c = '&' :: (name.toList ++ [';'])) ∨
      c ∉ richEntities.map (·.1) ∧ escapeRichChar c = [c] := by
  unfold escapeRichChar
  split
  case h_1 => exact .inl ⟨"amp", by decide, rfl⟩
  case h_2 => exact .inl ⟨"lt", by decide, rfl⟩
  case h_3 => exact .inl ⟨"gt", by decide, rfl⟩
  case h_4 mark less greater =>
    have plain : c ≠ '&' ∧ c ≠ '<' ∧ c ≠ '>' := ⟨mark, less, greater⟩
    exact .inr ⟨by simp [richEntities, plain], rfl⟩

/-- No tag begins or ends in the text, and the mark of entities begins one wherever it stands. -/
structure Untagged (text : String) : Prop where
  closed : '<' ∉ text.toList ∧ '>' ∉ text.toList
  entities : ∀ front back, text.toList = front ++ '&' :: back →
    ∃ name ∈ richEntities.map (·.2), name.toList ++ [';'] <+: back

theorem not_mem_escapeRichChar {mark : Char} (bracket : mark = '<' ∨ mark = '>') (c : Char) :
    mark ∉ escapeRichChar c := by
  have absent : ∀ entry ∈ richEntities, mark ∉ '&' :: (entry.2.toList ++ [';']) := by
    rcases bracket with rfl | rfl <;> decide
  rcases escapeRichChar_cases c with ⟨name, known, written⟩ | ⟨plain, written⟩
  · exact written ▸ absent _ known
  · rw [written, List.mem_singleton]
    rintro rfl
    rcases bracket with rfl | rfl <;> exact plain (by decide)

/-- Wherever the mark of entities stands in what is written, it was written for the first character there. -/
theorem entity_of_mark {chars front back : List Char}
    (split : chars.flatMap escapeRichChar = front ++ '&' :: back) :
    ∃ name ∈ richEntities.map (·.2), name.toList ++ [';'] <+: back := by
  induction chars generalizing front with
  | nil => simp at split
  | cons c rest ih =>
    rw [List.flatMap_cons] at split
    -- the mark stands behind what is written for the first character, or in it
    rcases List.append_eq_append_iff.mp split with ⟨inner, _, later⟩ | ⟨inner, own, later⟩
    · exact ih later
    · cases inner with
      | nil =>
        have starts : rest.flatMap escapeRichChar = [] ++ '&' :: back := later.symm
        exact ih starts
      | cons mark inner =>
        obtain ⟨rfl, rfl⟩ := List.cons.inj later
        rcases escapeRichChar_cases c with ⟨name, known, written⟩ | ⟨plain, written⟩
        · rw [written] at own
          cases front with
          | nil =>
            obtain ⟨-, rfl⟩ := List.cons.inj own
            exact ⟨name, List.mem_map_of_mem known, List.prefix_append _ _⟩
          | cons first front =>
            -- an entity has no second mark
            have inside : '&' ∈ name.toList ++ [';'] := by
              rw [(List.cons.inj own).2]
              simp
            have absent : ∀ entry ∈ richEntities, '&' ∉ entry.2.toList ++ [';'] := by decide
            exact absurd inside (absent _ known)
        · have among : '&' ∈ [c] := by
            rw [← written, own]
            simp
          rw [← List.mem_singleton.mp among] at plain
          exact absurd (by decide) plain

theorem untagged_escapeRich (text : String) : Untagged (escapeRich text) where
  closed := by
    simp only [escapeRich, String.toList_ofList, List.mem_flatMap, not_exists, not_and]
    exact ⟨fun c _ => not_mem_escapeRichChar (.inl rfl) c, fun c _ => not_mem_escapeRichChar (.inr rfl) c⟩
  entities front back split := by
    rw [escapeRich, String.toList_ofList] at split
    exact entity_of_mark split

/-- The element of a decoration. -/
def tag (decoration : TextDecoration) : String := if decoration = .underline then "u" else "s"

theorem decorated_eq (decoration : TextDecoration) (text : String) :
    decorated decoration text = Document.element (tag decoration) (escapeRich text) := rfl

theorem isTag_tag (decoration : TextDecoration) : Markup.IsTag (tag decoration) := by
  cases decoration <;> decide

end Label

namespace Markup

open Label (escapeRich escapeRichChar escapeRichChar_cases richEntities decorated tag)

variable {inside : List Markup} {above : List (Head × List Markup)}

theorem Reader.run_escapeRichChar (c : Char) :
    run ⟨.text, inside, above⟩ (escapeRichChar c) = some ⟨.text, .char c :: inside, above⟩ := by
  rcases escapeRichChar_cases c with ⟨name, known, written⟩ | ⟨plain, written⟩
  · rw [written]
    simp only [richEntities, List.mem_cons, Prod.mk.injEq, List.not_mem_nil, or_false] at known
    rcases known with ⟨rfl, rfl⟩ | ⟨rfl, rfl⟩ | ⟨rfl, rfl⟩ <;> rfl
  · simp only [richEntities, List.map_cons, List.map_nil, List.mem_cons, not_or] at plain
    simp [written, step, plain.1, plain.2.1]

theorem Reader.run_escapeRich (chars : List Char) :
    run ⟨.text, inside, above⟩ (chars.flatMap escapeRichChar) =
      some ⟨.text, (chars.map char).reverse ++ inside, above⟩ := by
  induction chars generalizing inside with
  | nil => rfl
  | cons c rest ih =>
    rw [List.flatMap_cons, run_append, run_escapeRichChar, Option.bind_some, ih, List.map_cons,
      List.reverse_cons, List.append_assoc]
    rfl

theorem read?_decorated (decoration : TextDecoration) (s : String) :
    read? (decorated decoration s) = some [.element (tag decoration) [] (text s)] := by
  have ends := Label.isTag_tag decoration
  have written : (decorated decoration s).toList = '<' :: (printHead (tag decoration) [] ++
      (s.toList.flatMap escapeRichChar ++ printEnd (tag decoration))) := by
    simp [Label.decorated_eq, Document.element, printHead, printEnd, escapeRich]
  have opened : Reader.step ⟨.text, [], []⟩ '<' = some ⟨.tag [], [], []⟩ := rfl
  rw [read?, written, Reader.run_cons, opened, Option.bind_some, Reader.run_append,
    Reader.run_head ends (by simp) (by simp), Option.bind_some, Reader.run_append, Reader.run_escapeRich,
    Option.bind_some, Reader.run_end ends, List.append_nil, List.reverse_reverse]
  rfl

/-- The text in the one element that rich text consists of. -/
def unwrapped? (rich : String) : Option String :=
  match read? rich with
  | some [.element tag [] inside] => if tag = "u" ∨ tag = "s" then text? inside else none
  | _ => none

theorem unwrapped?_decorated (decoration : TextDecoration) (s : String) :
    unwrapped? (decorated decoration s) = some s := by
  have known : tag decoration = "u" ∨ tag decoration = "s" := by cases decoration <;> decide
  simp only [unwrapped?, read?_decorated, if_pos known, text?_text]

end Markup

namespace Listing

/-- The text of a property of a kind. -/
def text? (kind key : String) (listing : Listing) : Option String := do
  let field ← listing.fields.find? (·.key = key)
  if field.kind = kind then Markup.text? field.value else none

/-- A property that is true or false. -/
def flag? (key : String) (listing : Listing) : Option Bool :=
  (listing.text? "bool" key).bind fun shown => [("true", true), ("false", false)].lookup shown

/-- What a label says: its text, taken out of the element around it if the text is rich. -/
def wording? (label : Listing) : Option String := do
  let shown ← label.text? "string" "Text"
  let rich ← label.flag? "RichText"
  if rich then Markup.unwrapped? shown else some shown

/-- A label says what a text is to say. Its text is rich if there is a decoration, and decorations are kept;
then all of it is one element, with no markup in it but entities. Else it is the text itself. -/
structure Words {α : Type} (config : TextConfig) (content : TextContent α) (label : Listing) : Prop where
  wording : label.wording? = some (Label.transformCase content.characters content.style.textCase)
  rich : label.flag? "RichText" = some (decide (config.mode = .rich ∧ content.style.decoration ≠ .none))
  wrapped : label.flag? "RichText" = some true → ∃ body,
    label.text? "string" "Text" = some (Document.element (Label.tag content.style.decoration) body) ∧
      Label.Untagged body
  plain : label.flag? "RichText" = some false →
    label.text? "string" "Text" = some (Label.transformCase content.characters content.style.textCase)

variable {α : Type} [Scalar α] {inst : Instance α} {listing : Listing}

theorem find?_fields {properties : Properties α} {key : String} {value : Property α}
    (found : properties.lookup key = some value) :
    (properties.map fun property => property.2.field property.1).find? (·.key = key) =
      some (value.field key) := by
  induction properties with
  | nil => cases found
  | cons property rest ih =>
    rw [lookup_cons_eq] at found
    by_cases same : key = property.1
    · rw [if_pos same] at found
      obtain rfl := Option.some.inj found
      rw [List.map_cons, List.find?_cons_of_pos (by simp [Property.field, same]), same]
    · rw [if_neg same] at found
      refine (List.find?_cons_of_neg ?_).trans (ih found)
      exact fun here => same (of_decide_eq_true here).symm

theorem Shows.text? (shows : Shows inst listing) {key s : String} {value : Property α}
    (found : inst.properties.lookup key = some value) (shown : value.shown = Markup.text s) :
    listing.text? value.kind key = some s := by
  rw [Listing.text?, shows.fields, find?_fields found]
  change (if value.kind = value.kind then Markup.text? value.shown else none) = some s
  rw [if_pos rfl, shown, Markup.text?_text]

theorem Shows.flag? (shows : Shows inst listing) {key : String} {value : Bool}
    (found : inst.properties.lookup key = some (.bool value)) : listing.flag? key = some value := by
  have read : listing.text? "bool" key = some (Document.boolText value) := shows.text? found rfl
  rw [Listing.flag?, read]
  cases value <;> rfl

/-- Whatever shows the instance of a label, says what the text is to say. -/
theorem Shows.words (shows : Shows inst listing) {config : TextConfig} {content : TextContent α}
    (text : inst.properties.lookup "Text" = some (.string (Label.content config content)))
    (rich : inst.properties.lookup "RichText" = some (.bool (Label.isRich config content.style))) :
    Words config content listing := by
  have shown : listing.text? "string" "Text" = some (Label.content config content) := shows.text? text rfl
  have flag := shows.flag? rich
  have decided : Label.isRich config content.style =
      decide (config.mode = .rich ∧ content.style.decoration ≠ .none) := by
    rw [Bool.eq_iff_iff]
    simp [Label.isRich, and_comm]
  rw [Label.content] at shown
  refine ⟨?_, decided ▸ flag, fun wrapped => ?_, fun plain => ?_⟩
  · cases kind : Label.isRich config content.style with
    | true =>
      rw [kind] at shown flag
      rw [if_pos rfl] at shown
      simp [wording?, shown, flag, Markup.unwrapped?_decorated]
    | false =>
      rw [kind] at shown flag
      simp [wording?, shown, flag]
  · obtain kind := Option.some.inj (flag.symm.trans wrapped)
    rw [if_pos kind] at shown
    exact ⟨_, shown, Label.untagged_escapeRich _⟩
  · obtain kind := Option.some.inj (flag.symm.trans plain)
    rwa [kind, if_neg (by decide)] at shown

end Listing

namespace Assembly

section Screen

variable {α : Type} [Scalar α] {rules : RuleSet} {config : TextConfig} {root : Node α}
  {children : List (Plot α)} {place : List Nat → Nat}

/-- The first properties of a label are what it shows and whether that is rich. -/
theorem mem_painting_text (config : TextConfig) {node : Node α} {content : TextContent α}
    (label : node.strategy rules = .text) (held : node.content? = some content) :
    ("Text", .string (Label.content config content)) ∈ (painting rules config node).1 ∧
      ("RichText", .bool (Label.isRich config content.style)) ∈ (painting rules config node).1 := by
  simp only [painting, label, held, Label.emit]
  constructor
  · exact .head _
  · exact .tail _ (.head _)

theorem lookup_painting {slot : Slot α} {node : Node α} {property : String × Property α}
    (member : property ∈ (painting rules config node).1) :
    (Properties.setAll [] (nodeProperties rules config slot node)).lookup property.1 = some property.2 := by
  have set : property ∈ nodeProperties rules config slot node :=
    List.mem_append_left _ (List.mem_append_right _ member)
  exact Properties.lookup_of_nodup (nodup_nodeProperties config slot node) set

/-- The instance in the place of a label holds what the paint of a text sets. -/
theorem Placing.exists_label (placing : Placing rules config root children place)
    (staging : Staging rules root children) {path : List Nat} {layer : Layer α} {content : TextContent α}
    (reached : Node.Emits rules root path (.text layer content))
    (label : (Node.text layer content).strategy rules = .text) :
    ∃ inst node, (drawScreen rules config root children).arena.get? (place path) = some inst ∧
      node.strategy rules = .text ∧ node.content? = some content ∧
      ∀ property ∈ (painting rules config node).1, inst.properties.lookup property.1 = some property.2 := by
  obtain ⟨plot, among, rfl, origin⟩ := staging.exists_plot reached
  obtain ⟨entry, member, position, slot, drawn⟩ := placing.stands plot among
  obtain ⟨site, notice, below⟩ := plot
  have kind : site.node.strategy rules = .text := by
    rw [Site.strategy_node, show site.origin = _ from origin, label]
  have held : site.node.content? = some content := by
    rw [Site.node, show site.origin = _ from origin]
    rfl
  refine ⟨entry.row, site.node, position ▸ Arena.get?_entry member, kind, held, fun property set => ?_⟩
  rw [Entry.row, drawn, draw, Drawn.properties, Properties.setAll_setAll]
  exact lookup_painting set

theorem Placing.labelled (placing : Placing rules config root children place)
    (staging : Staging rules root children) {path : List Nat} {layer : Layer α} {content : TextContent α}
    (reached : Node.Emits rules root path (.text layer content))
    (label : (Node.text layer content).strategy rules = .text) :
    ∃ inst, (drawScreen rules config root children).arena.get? (place path) = some inst ∧
      inst.properties.lookup "Text" = some (.string (Label.content config content)) ∧
      inst.properties.lookup "RichText" = some (.bool (Label.isRich config content.style)) := by
  obtain ⟨inst, node, found, kind, held, set⟩ := placing.exists_label staging reached label
  obtain ⟨shown, rich⟩ := mem_painting_text config kind held
  exact ⟨inst, found, set _ shown, set _ rich⟩

end Screen

end Assembly

namespace Compilation

open Store (Yields)

section World

variable {σ : Type} [Host (StateM σ)] {config : Config Float} {uploader : Store.Uploader (StateM σ)}
  {previous : Option (Snapshot Float)} {manifest : Manifest Float} {before after : Store.Ledger × σ}

/-- Each label that reaches the output has an item of its own in the document of a run, and that says the
text of the node in its case, after its entities have been read once if the text is plain, and twice if it
is rich. -/
theorem labels_read_back {compilation : Compilation Float}
    (done : Yields (run config uploader previous manifest) before (.ok compilation) after) :
    ∃ (planned : PlannedDesign Float) (root : Node Float) (arena : Arena Float) (forest : List Listing)
      (place : List Nat → Nat),
      PlannedDesign.of config previous manifest = .ok planned ∧ root = planned.resolved after.1.asset? ∧
      compilation.document = arena.document ∧ arena.HasEachNode planned.rules root place ∧
      Listing.read? compilation.document = some forest ∧ (Listing.allReferents forest).Nodup ∧
      ∀ path layer content, Node.Emits planned.rules root path (.text layer content) →
        (Node.text layer content).strategy planned.rules = .text →
        ∃ label ∈ Listing.allWhole forest, label.referent = Listing.referentOf (place path) ∧
          label.name = layer.name ∧ label.Words config.text content := by
  obtain ⟨planned, resolution, stages, finished⟩ := stages_of_run done
  obtain ⟨arena, log, assembled, rfl⟩ := finish_eq_ok.mp finished
  have inscribed := stages.inscribed assembled
  rw [stages.resolved_kept] at assembled inscribed
  obtain ⟨forest, read, recovers⟩ := inscribed.grown.reads_back inscribed.words
  obtain ⟨children, staging, rfl⟩ := Assembly.staged_of_assemble assembled
  obtain ⟨place, placing⟩ := Assembly.exists_placing config.text staging
  refine ⟨planned, _, _, forest, place, stages.plan, rfl, rfl, placing.houses staging, read,
    recovers.distinct, ?_⟩
  intro path layer content reached kind
  obtain ⟨inst, found, text, rich⟩ := placing.labelled staging reached kind
  obtain ⟨label, listed, own⟩ := recovers.exists_item (List.getElem?_eq_some_iff.mp found).1
  have shows := recovers.shows inscribed.grown listed own found
  obtain ⟨same, found', name, _⟩ := placing.shown staging reached
  obtain rfl := Option.some.inj (found.symm.trans found')
  exact ⟨label, listed, own, shows.name.trans name, shows.words text rich⟩

end World

/-! A label that needs both. -/

/-- A text that looks like markup, to be shown underlined and in capitals. -/
def chalked : TextContent Float :=
  ⟨"<Fish> &amp; 'chips'", { TextStyle.default with textCase := .upper, decoration := .underline }⟩

def chalkboard : Manifest Float :=
  ⟨some (.text (Layer.plain "0" "menu" ⟨0, 0, 100, 100⟩) chalked), [], [], .empty⟩

def richly : Config Float := { simple with text := { simple.text with mode := .rich } }

theorem plan_chalkboard : ∃ planned, PlannedDesign.of richly none chalkboard = .ok planned ∧
    planned.jobs = [] ∧ ∀ lookup : String → Option String, ∃ layer : Layer Float,
      planned.resolved lookup = .text layer chalked ∧
        (Node.text layer chalked).strategy planned.rules = .text :=
  ⟨_, rfl, rfl, fun _ => ⟨_, rfl, rfl⟩⟩

theorem chalkboard_reads_back : ∃ (compilation : Compilation Float) (forest : List Listing) (label : Listing),
    Yields (run richly .disabled none chalkboard) bare (.ok compilation) bare ∧
    Listing.read? compilation.document = some forest ∧ label ∈ Listing.allWhole forest ∧
    label.flag? "RichText" = some true ∧ label.wording? = some "<FISH> &AMP; 'CHIPS'" := by
  obtain ⟨planned, plan, jobless, shown⟩ := plan_chalkboard
  obtain ⟨resolution, stages, _⟩ := Stages.of_known .disabled bare plan
    (checkDeclared_eq_ok.mpr (by simp [chalkboard])) (by simp [jobless])
  obtain ⟨compilation, _, _, done, _⟩ := stages.compiled
  obtain ⟨planned', root, arena, forest, place, plan', rfl, _, _, read, _, labels⟩ := labels_read_back done
  obtain rfl := Except.ok.inj (plan.symm.trans plan')
  obtain ⟨layer, same, kind⟩ := shown bare.1.asset?
  obtain ⟨label, listed, _, _, words⟩ := labels [] layer chalked (same ▸ .root) kind
  have rich : label.flag? "RichText" = some true := words.rich
  have capitals : Label.transformCase chalked.characters chalked.style.textCase = "<FISH> &AMP; 'CHIPS'" := by
    decide +kernel
  exact ⟨compilation, forest, label, done, read, listed, rich, capitals ▸ words.wording⟩

end Compilation
end DesignCompiler
