import DesignCompiler.Design.File
import DesignCompiler.Proofs.Spelling
import DesignCompiler.Proofs.Writing

/-!
The parts of a design, written and read. Each part is read from its value as itself, if its numbers are
finite and written so that they are read as themselves: what is written by a name is listed under it, what is
left out is what is assumed in its place, and members of other keys are passed over.
-/
namespace DesignCompiler

variable {α β : Type}

namespace Json

/-- Names of a table are read as what they name. -/
theorem lookup_nameIn [BEq β] [LawfulBEq β] {table : List (String × β)}
    (distinct : (table.map (·.1)).Nodup) {value : β} (listed : value ∈ table.map (·.2)) :
    table.lookup (nameIn table value) = some value := by
  obtain ⟨known, member, own⟩ := List.mem_map.mp listed
  obtain ⟨entry, found⟩ := Option.isSome_iff_exists.mp
    (List.find?_isSome.mpr ⟨known, member, beq_iff_eq.mpr own⟩ : (table.find? (·.2 == value)).isSome)
  have named : entry.2 = value := by simpa using List.find?_some found
  rw [nameIn, found, Option.map_some, Option.getD_some, lookup_eq_some_iff distinct, ← named]
  exact List.mem_of_find?_eq_some found

theorem oneOf?_nameIn [BEq β] [LawfulBEq β] {table : List (String × β)}
    (distinct : (table.map (·.1)).Nodup) {value : β} (listed : value ∈ table.map (·.2)) :
    oneOf? table (.string (nameIn table value)) = some value := by
  rw [oneOf?, choice?, Option.bind_some, lookup_nameIn distinct listed]

theorem oneOfOr?_nameIn [BEq β] [LawfulBEq β] {table : List (String × β)} (other : β)
    (distinct : (table.map (·.1)).Nodup) {value : β} (listed : value ∈ table.map (·.2)) :
    oneOfOr? table other (.string (nameIn table value)) = some value := by
  rw [oneOfOr?, choice?, Option.map_some, lookup_nameIn distinct listed, Option.getD_some]

/-- A field that is there is read. -/
theorem Record.orElse_found {fields : List (String × Json)} {key : String} {json : Json}
    {fallback value : β} {read : Json → Option β} (found : fields.lookup key = some json)
    (reads : read json = some value) : Record.orElse fields key fallback read = some value := by
  rw [Record.orElse, found]
  exact reads

theorem optional?_text (text : Option String) : optional? text? (ofText? text) = some text := by
  cases text <;> rfl

theorem list?_map {read : Json → Option β} {json : β → Json} {parts : List β}
    (each : ∀ part ∈ parts, read (json part) = some part) :
    list? read (.array (parts.map json)) = some parts := by
  induction parts with
  | nil => rfl
  | cons part rest ih =>
    obtain ⟨own, others⟩ := List.forall_mem_cons.mp each
    have later := ih others
    rw [list?] at later ⊢
    rw [List.map_cons, List.mapM_cons, own, later]
    rfl

theorem eraseDups_of_nodup {names : List String} (distinct : names.Nodup) : names.eraseDups = names := by
  induction names with
  | nil => rfl
  | cons name rest ih =>
    obtain ⟨fresh, others⟩ := List.nodup_cons.mp distinct
    have kept : rest.filter (fun other => !other == name) = rest :=
      List.filter_eq_self.mpr fun other member => by
        simpa using fun same : other = name => fresh (same ▸ member)
    rw [List.eraseDups_cons, kept, ih others]

/-- The fields of an object are its members of known keys, if none of them is repeated. -/
theorem knownMembers?_eq {known : List String} {members kept : List (String × Json)}
    (found : members.filter (fun entry => known.contains entry.1) = kept)
    (distinct : (kept.map (·.1)).Nodup) : knownMembers? known members = some kept := by
  have once : (kept.map (·.1)).eraseDups.length = kept.length := by
    rw [eraseDups_of_nodup distinct, List.length_map]
  simp only [knownMembers?, found, once, if_true]

/-- An object with just the fields of a record is the record. -/
theorem record?_object {known : List String} {members : List (String × Json)}
    (keys : members.map (·.1) = known) (distinct : known.Nodup) :
    record? known (.object members) = some members := by
  refine knownMembers?_eq (List.filter_eq_self.mpr fun entry member => ?_) (keys ▸ distinct)
  rw [List.contains_eq_mem, decide_eq_true_eq, ← keys]
  exact List.mem_map_of_mem member

/-- The tag of an object tells its case, wherever it stands among the members. -/
theorem tagged?_between {tags : List String} {tag : String} (before after : List (String × Json))
    (untagged : ∀ entry ∈ before ++ after, entry.1 ≠ "type") :
    tagged? tags (.object (before ++ ("type", .string tag) :: after)) =
      some (if tags.contains tag then some tag else none, .object (before ++ after)) := by
  have others : ∀ {entries : List (String × Json)}, (∀ entry ∈ entries, entry.1 ≠ "type") →
      entries.filter (·.1 == "type") = [] ∧ entries.filter (·.1 != "type") = entries := by
    intro entries plain
    exact ⟨List.filter_eq_nil_iff.mpr fun entry member => by simpa using plain entry member,
      List.filter_eq_self.mpr fun entry member => by simpa using plain entry member⟩
  obtain ⟨first, last⟩ := List.forall_mem_append.mp untagged
  have own : (before ++ ("type", Json.string tag) :: after).filter (·.1 == "type") =
      [("type", .string tag)] := by
    rw [List.filter_append, List.filter_cons_of_pos rfl, (others first).1, (others last).1, List.nil_append]
  have rest : (before ++ ("type", Json.string tag) :: after).filter (·.1 != "type") = before ++ after := by
    rw [List.filter_append, List.filter_cons_of_neg (by simp), (others first).2, (others last).2]
  simp only [tagged?, own, rest, tagged?.tag?, Option.map_some]

theorem tagged?_object {tags : List String} {tag : String} {members : List (String × Json)}
    (untagged : ∀ entry ∈ members, entry.1 ≠ "type") :
    tagged? tags (.object (("type", .string tag) :: members)) =
      some (if tags.contains tag then some tag else none, .object members) :=
  tagged?_between [] members untagged

end Json

variable [Scalar α]

/-- A number is finite, and written so that it is read as itself. -/
def Scalar.Legible (x : α) : Prop :=
  ∃ number, Scalar.number? x = some number ∧ number.ReadsBack ∧ Scalar.ofNumber number = x

instance Scalar.decidableLegible [DecidableEq α] (x : α) : Decidable (Scalar.Legible x) :=
  match found : Scalar.number? x with
  | some number => decidable_of_iff (number.ReadsBack ∧ Scalar.ofNumber number = x) <| by
      simp [Scalar.Legible, found]
  | none => .isFalse <| by simp [Scalar.Legible, found]

theorem Scalar.ofJson?_json {x : α} (legible : Scalar.Legible x) :
    Scalar.ofJson? (Scalar.json x) = some x := by
  obtain ⟨number, finite, _, same⟩ := legible
  rw [Scalar.json, finite]
  exact congrArg some same

/-- The numbers that are written for some scalars. -/
def Scalar.numbersOf (scalars : List α) : List Json.Number :=
  scalars.flatMap fun x => (Scalar.number? x).toList

namespace Scalar

@[simp] theorem numbersOf_nil : numbersOf ([] : List α) = [] := rfl

@[simp] theorem numbersOf_cons (x : α) (rest : List α) :
    numbersOf (x :: rest) = (number? x).toList ++ numbersOf rest := rfl

@[simp] theorem numbersOf_append (scalars others : List α) :
    numbersOf (scalars ++ others) = numbersOf scalars ++ numbersOf others := List.flatMap_append

@[simp] theorem numbers_json (x : α) : (json x).numbers = (number? x).toList := by
  rw [json]
  cases number? x <;> rfl

/-- Lists hold the numbers of their items. -/
theorem numbers_map {json : β → Json} {scalars : β → List α} {parts : List β}
    (each : ∀ part, (json part).numbers = numbersOf (scalars part)) :
    Json.numbersOfItems (parts.map json) = numbersOf (parts.flatMap scalars) := by
  induction parts with
  | nil => rfl
  | cons part rest ih =>
    rw [List.map_cons, Json.numbersOfItems, List.flatMap_cons, numbersOf_append, each, ih]

end Scalar

theorem Json.numbersOfMembers_append (members others : List (String × Json)) :
    Json.numbersOfMembers (members ++ others) =
      Json.numbersOfMembers members ++ Json.numbersOfMembers others := by
  simp only [Json.numbersOfMembers_eq, List.flatMap_append]

@[simp] theorem Json.numbers_ofText? (text : Option String) : (Json.ofText? text).numbers = [] := by
  cases text <;> rfl

open Scalar (Legible)

namespace Color

def scalars (color : Color α) : List α := [color.r, color.g, color.b, color.a]

theorem numbers_json (color : Color α) : color.json.numbers = Scalar.numbersOf color.scalars := by
  simp [json, scalars, Json.numbers, Json.numbersOfMembers]

theorem ofJson?_json {color : Color α} (legible : ∀ x ∈ color.scalars, Legible x) :
    ofJson? color.json = some color := by
  simp only [scalars, List.forall_mem_cons] at legible
  rw [ofJson?, json, Json.record?_object (by rfl) (by decide)]
  simp [Json.Record.required, Json.Record.orElse, lookup_cons_eq, Scalar.ofJson?_json, legible]

end Color

namespace Point

def scalars (point : Point α) : List α := [point.x, point.y]

theorem numbers_json (point : Point α) : point.json.numbers = Scalar.numbersOf point.scalars := by
  simp [json, scalars, Json.numbers, Json.numbersOfMembers]

theorem ofJson?_json {point : Point α} (legible : ∀ x ∈ point.scalars, Legible x) :
    ofJson? point.json = some point := by
  simp only [scalars, List.forall_mem_cons] at legible
  rw [ofJson?, json, Json.record?_object (by rfl) (by decide)]
  simp [Json.Record.required, lookup_cons_eq, Scalar.ofJson?_json, legible]

end Point

namespace Corners

def scalars : Corners α → List α
  | uniform radius => [radius]
  | each a b c d => [a, b, c, d]

theorem numbers_json (corners : Corners α) : corners.json.numbers = Scalar.numbersOf corners.scalars := by
  cases corners <;> simp [json, scalars, Json.numbers, Json.numbersOfItems]

theorem ofJson?_json {corners : Corners α} (legible : ∀ x ∈ corners.scalars, Legible x) :
    ofJson? corners.json = some corners := by
  cases corners with
  | uniform radius =>
    obtain ⟨number, finite, _, same⟩ := legible radius (List.mem_singleton_self radius)
    rw [json, Scalar.json, finite]
    exact congrArg (some ∘ uniform) same
  | each a b c d =>
    simp only [scalars, List.forall_mem_cons] at legible
    simp [json, ofJson?, Scalar.ofJson?_json, legible]

end Corners

namespace ColorStop

def scalars (stop : ColorStop α) : List α := stop.position :: stop.color.scalars

theorem numbers_json (stop : ColorStop α) : stop.json.numbers = Scalar.numbersOf stop.scalars := by
  simp [json, scalars, Json.numbers, Json.numbersOfMembers, Color.numbers_json]

theorem ofJson?_json {stop : ColorStop α} (legible : ∀ x ∈ stop.scalars, Legible x) :
    ofJson? stop.json = some stop := by
  obtain ⟨position, color⟩ := List.forall_mem_cons.mp legible
  rw [ofJson?, json, Json.record?_object (by rfl) (by decide)]
  simp [Json.Record.required, lookup_cons_eq, Scalar.ofJson?_json position, Color.ofJson?_json color]

end ColorStop

namespace Paint

def scalars : Paint α → List α
  | solid paint => paint.opacity :: paint.color.scalars
  | gradient _ paint =>
    paint.opacity :: (paint.stops.flatMap ColorStop.scalars ++ paint.handles.flatMap Point.scalars)
  | image paint => [paint.opacity]
  | unsupported => []

theorem numbers_json (paint : Paint α) : paint.json.numbers = Scalar.numbersOf paint.scalars := by
  cases paint <;> simp [json, scalars, Json.numbers, Json.numbersOfMembers, Color.numbers_json,
    Scalar.numbers_map ColorStop.numbers_json, Scalar.numbers_map Point.numbers_json]

theorem solidOfJson?_object {paint : SolidPaint α} (legible : ∀ x ∈ (solid paint).scalars, Legible x) :
    solidOfJson? (.object [("visible", .bool paint.visible), ("opacity", Scalar.json paint.opacity),
      ("color", paint.color.json)]) = some paint := by
  obtain ⟨opacity, color⟩ := List.forall_mem_cons.mp legible
  rw [solidOfJson?, Json.record?_object (by rfl) (by decide)]
  simp [Json.Record.required, Json.Record.orElse, lookup_cons_eq, Json.bool?, Scalar.ofJson?_json opacity,
    Color.ofJson?_json color]

theorem gradientOfJson?_object {shape : GradientShape} {paint : GradientPaint α}
    (legible : ∀ x ∈ (gradient shape paint).scalars, Legible x) :
    gradientOfJson? (.object [("visible", .bool paint.visible), ("opacity", Scalar.json paint.opacity),
      ("gradientStops", .array (paint.stops.map ColorStop.json)),
      ("gradientHandlePositions", .array (paint.handles.map Point.json))]) = some paint := by
  obtain ⟨opacity, below⟩ := List.forall_mem_cons.mp legible
  obtain ⟨stops, handles⟩ := List.forall_mem_append.mp below
  have each : ∀ stop ∈ paint.stops, ColorStop.ofJson? stop.json = some stop := fun stop member =>
    ColorStop.ofJson?_json fun x own => stops x (List.mem_flatMap.mpr ⟨stop, member, own⟩)
  have each' : ∀ point ∈ paint.handles, Point.ofJson? point.json = some point := fun point member =>
    Point.ofJson?_json fun x own => handles x (List.mem_flatMap.mpr ⟨point, member, own⟩)
  rw [gradientOfJson?, Json.record?_object (by rfl) (by decide)]
  simp [Json.Record.orElse, lookup_cons_eq, Json.bool?, Scalar.ofJson?_json opacity,
    Json.list?_map each, Json.list?_map each']

theorem imageOfJson?_object {paint : ImagePaint α} (legible : ∀ x ∈ (image paint).scalars, Legible x) :
    imageOfJson? (.object [("visible", .bool paint.visible), ("opacity", Scalar.json paint.opacity),
      ("imageHash", Json.ofText? paint.imageHash), ("scaleMode", Json.ofText? paint.scaleMode)]) =
      some paint := by
  have opacity := legible paint.opacity (List.mem_singleton_self _)
  rw [imageOfJson?, Json.record?_object (by rfl) (by decide)]
  simp [Json.Record.orElse, lookup_cons_eq, Json.bool?, Scalar.ofJson?_json opacity, Json.optional?_text]

theorem ofJson?_json {paint : Paint α} (legible : ∀ x ∈ paint.scalars, Legible x) :
    ofJson? paint.json = some paint := by
  cases paint with
  | solid paint =>
    rw [ofJson?, json, Json.tagged?_object (by simp)]
    simp [tags, solidOfJson?_object legible]
  | gradient shape paint =>
    rw [ofJson?, json, Json.tagged?_object (by simp)]
    have fields := gradientOfJson?_object legible
    cases shape <;> simp [tags, GradientShape.tag, GradientShape.ofTag?, fields]
  | image paint =>
    rw [ofJson?, json, Json.tagged?_object (by simp)]
    simp [tags, imageOfJson?_object legible]
  | unsupported =>
    rw [ofJson?, json, Json.tagged?_object (by simp)]
    simp [tags, Json.nothing?]

end Paint

namespace Effect

def shadowScalars (shadow : ShadowEffect α) : List α :=
  shadow.color.scalars ++ (shadow.offset.scalars ++ [shadow.radius, shadow.spread])

def scalars : Effect α → List α
  | dropShadow shadow => shadowScalars shadow
  | innerShadow shadow => shadowScalars shadow
  | layerBlur blur => [blur.radius]
  | backgroundBlur blur => [blur.radius]
  | unsupported => []

theorem numbers_json (effect : Effect α) : effect.json.numbers = Scalar.numbersOf effect.scalars := by
  cases effect <;> simp [json, shadowMembers, blurMembers, scalars, shadowScalars, Json.numbers,
    Json.numbersOfMembers, Color.numbers_json, Point.numbers_json]

theorem shadowOfJson?_object {shadow : ShadowEffect α} (legible : ∀ x ∈ shadowScalars shadow, Legible x) :
    shadowOfJson? (.object (shadowMembers shadow)) = some shadow := by
  obtain ⟨color, others⟩ := List.forall_mem_append.mp legible
  obtain ⟨offset, others⟩ := List.forall_mem_append.mp others
  simp only [List.forall_mem_cons] at others
  rw [shadowOfJson?, Json.record?_object (by rfl) (by decide)]
  simp [shadowMembers, Json.Record.orElse, lookup_cons_eq, Json.bool?, Color.ofJson?_json color,
    Point.ofJson?_json offset, Scalar.ofJson?_json, others]

theorem blurOfJson?_object {blur : BlurEffect α} (legible : Legible blur.radius) :
    blurOfJson? (.object (blurMembers blur)) = some blur := by
  rw [blurOfJson?, Json.record?_object (by rfl) (by decide)]
  simp [blurMembers, Json.Record.orElse, lookup_cons_eq, Json.bool?, Scalar.ofJson?_json legible]

theorem ofJson?_json {effect : Effect α} (legible : ∀ x ∈ effect.scalars, Legible x) :
    ofJson? effect.json = some effect := by
  cases effect with
  | dropShadow shadow =>
    rw [ofJson?, json, Json.tagged?_object (by simp [shadowMembers])]
    simp [tags, shadowOfJson?_object legible]
  | innerShadow shadow =>
    rw [ofJson?, json, Json.tagged?_object (by simp [shadowMembers])]
    simp [tags, shadowOfJson?_object legible]
  | layerBlur blur =>
    rw [ofJson?, json, Json.tagged?_object (by simp [blurMembers])]
    simp [tags, blurOfJson?_object (legible _ (List.mem_singleton_self _))]
  | backgroundBlur blur =>
    rw [ofJson?, json, Json.tagged?_object (by simp [blurMembers])]
    simp [tags, blurOfJson?_object (legible _ (List.mem_singleton_self _))]
  | unsupported =>
    rw [ofJson?, json, Json.tagged?_object (by simp)]
    simp [tags, Json.nothing?]

end Effect

omit [Scalar α] in
theorem Constraints.ofJson?_json (constraints : Constraints) :
    Constraints.ofJson? constraints.json = some constraints := by
  have axis : ∀ constraint : Constraint,
      Json.oneOf? Constraint.names (.string (Json.nameIn Constraint.names constraint)) = some constraint :=
    fun constraint => Json.oneOf?_nameIn (by decide) (by cases constraint <;> decide)
  rw [Constraints.ofJson?, Constraints.json, Json.record?_object (by rfl) (by decide)]
  simp [Json.Record.orElse, lookup_cons_eq, axis]

namespace FlowLayout

def scalars (layout : FlowLayout α) : List α :=
  [layout.itemSpacing, layout.paddingLeft, layout.paddingRight, layout.paddingTop, layout.paddingBottom]

theorem numbers_json (layout : FlowLayout α) : layout.json.numbers = Scalar.numbersOf layout.scalars := by
  simp [json, scalars, Json.numbers, Json.numbersOfMembers]

theorem ofJson?_json {layout : FlowLayout α} (legible : ∀ x ∈ layout.scalars, Legible x) :
    ofJson? layout.json = some layout := by
  have axis : Json.oneOf? FlowAxis.names (.string (Json.nameIn FlowAxis.names layout.mode)) =
      some layout.mode := Json.oneOf?_nameIn (by decide) (by cases layout.mode <;> decide)
  have align : ∀ align : AxisAlign,
      Json.oneOf? AxisAlign.names (.string (Json.nameIn AxisAlign.names align)) = some align :=
    fun align => Json.oneOf?_nameIn (by decide) (by cases align <;> decide)
  simp only [scalars, List.forall_mem_cons] at legible
  rw [ofJson?, json, Json.record?_object (by rfl) (by decide)]
  simp [Json.Record.required, Json.Record.orElse, lookup_cons_eq, Json.bool?, Scalar.ofJson?_json, legible,
    axis, align]

end FlowLayout

namespace TextStyle

def scalars (style : TextStyle α) : List α :=
  [style.fontWeight, style.fontSize] ++ (style.lineHeight.toList ++ [style.letterSpacing])

theorem numbers_json (style : TextStyle α) : style.json.numbers = Scalar.numbersOf style.scalars := by
  cases height : style.lineHeight <;>
    simp [json, scalars, height, Json.numbers, Json.numbersOfMembers]

theorem ofJson?_json {style : TextStyle α} (legible : ∀ x ∈ style.scalars, Legible x) :
    ofJson? style.json = some style := by
  have across : Json.oneOf? TextAlignHorizontal.names
      (.string (Json.nameIn TextAlignHorizontal.names style.alignHorizontal)) = some style.alignHorizontal :=
    Json.oneOf?_nameIn (by decide) (by cases style.alignHorizontal <;> decide)
  have along : Json.oneOf? TextAlignVertical.names
      (.string (Json.nameIn TextAlignVertical.names style.alignVertical)) = some style.alignVertical :=
    Json.oneOf?_nameIn (by decide) (by cases style.alignVertical <;> decide)
  have letters : Json.oneOf? TextCase.names (.string (Json.nameIn TextCase.names style.textCase)) =
      some style.textCase := Json.oneOf?_nameIn (by decide) (by cases style.textCase <;> decide)
  have line : Json.oneOf? TextDecoration.names
      (.string (Json.nameIn TextDecoration.names style.decoration)) = some style.decoration :=
    Json.oneOf?_nameIn (by decide) (by cases style.decoration <;> decide)
  simp only [scalars, List.forall_mem_append, List.forall_mem_cons] at legible
  obtain ⟨⟨weight, size, _⟩, height, spacing, _⟩ := legible
  have lineHeight : Json.optional? Scalar.ofJson? ((style.lineHeight.map Scalar.json).getD .null) =
      some style.lineHeight := by
    cases found : style.lineHeight with
    | none => rfl
    | some value =>
      have own : Legible value := height value (by simp [found])
      obtain ⟨number, finite, _, same⟩ := own
      rw [Option.map_some, Option.getD_some, Scalar.json, finite]
      exact congrArg (some ∘ some) same
  rw [ofJson?, json, Json.record?_object (by rfl) (by decide)]
  simp [Json.Record.orElse, lookup_cons_eq, Json.text?, Scalar.ofJson?_json, weight, size, spacing,
    across, along, letters, line, lineHeight]

end TextStyle

namespace Transition

def scalars (transition : Transition α) : List α := [transition.duration]

theorem numbers_json (transition : Transition α) :
    transition.json.numbers = Scalar.numbersOf transition.scalars := by
  simp [json, scalars, Json.numbers, Json.numbersOfMembers]

theorem ofJson?_json {transition : Transition α} (legible : ∀ x ∈ transition.scalars, Legible x) :
    ofJson? transition.json = some transition := by
  have easing : Json.oneOfOr? Easing.names .other (.string (Json.nameIn Easing.names transition.easing)) =
      some transition.easing := Json.oneOfOr?_nameIn _ (by decide) (by cases transition.easing <;> decide)
  have duration := legible transition.duration (List.mem_singleton_self _)
  rw [ofJson?, json, Json.record?_object (by rfl) (by decide)]
  simp [Json.Record.required, Json.Record.orElse, lookup_cons_eq, Json.text?, Scalar.ofJson?_json duration,
    easing]

end Transition

namespace Reaction

def scalars (reaction : Reaction α) : List α := reaction.transition.toList.flatMap Transition.scalars

theorem numbers_json (reaction : Reaction α) :
    reaction.json.numbers = Scalar.numbersOf reaction.scalars := by
  cases found : reaction.transition <;>
    simp [json, scalars, found, Json.numbers, Json.numbersOfMembers, Transition.numbers_json]

theorem ofJson?_json {reaction : Reaction α} (legible : ∀ x ∈ reaction.scalars, Legible x) :
    ofJson? reaction.json = some reaction := by
  have trigger : Json.oneOfOr? Trigger.names .other (.string (Json.nameIn Trigger.names reaction.trigger)) =
      some reaction.trigger := Json.oneOfOr?_nameIn _ (by decide) (by cases reaction.trigger <;> decide)
  have transition : Json.optional? Transition.ofJson? ((reaction.transition.map Transition.json).getD .null) =
      some reaction.transition := by
    cases found : reaction.transition with
    | none => rfl
    | some value =>
      have own : Transition.ofJson? value.json = some value :=
        Transition.ofJson?_json fun x member => legible x (by simpa [scalars, found] using member)
      exact congrArg (Option.map some) own
  rw [ofJson?, json, Json.record?_object (by rfl) (by decide)]
  simp [Json.Record.required, Json.Record.orElse, lookup_cons_eq, Json.optional?_text, trigger, transition]

end Reaction

namespace Json

/-- Members of unknown keys are passed over. -/
theorem knownMembers?_between {known : List String} (before members after : List (String × Json))
    (keys : (members.map (·.1)).Sublist known) (distinct : known.Nodup)
    (unknown : ∀ entry ∈ before ++ after, entry.1 ∉ known) :
    knownMembers? known (before ++ (members ++ after)) = some members := by
  obtain ⟨first, last⟩ := List.forall_mem_append.mp unknown
  refine knownMembers?_eq ?_ (distinct.sublist keys)
  have passed : ∀ {entries : List (String × Json)}, (∀ entry ∈ entries, entry.1 ∉ known) →
      entries.filter (fun entry => known.contains entry.1) = [] := fun unknown =>
    List.filter_eq_nil_iff.mpr fun entry member => by simpa using unknown entry member
  have kept : members.filter (fun entry => known.contains entry.1) = members :=
    List.filter_eq_self.mpr fun entry member => by
      simpa using keys.subset (List.mem_map_of_mem member)
  rw [List.filter_append, List.filter_append, passed first, passed last, kept, List.nil_append,
    List.append_nil]

end Json

/-- One field is read, and then the others. -/
theorem then_read {β γ : Type} {read : Option β} {next : β → Option γ} {value : β} {whole : Option γ}
    (found : read = some value) (others : next value = whole) : (read >>= next) = whole := by
  rw [found]
  exact others

namespace Layer

def scalars (layer : Layer α) : List α :=
  [layer.x, layer.y, layer.width, layer.height, layer.rotation] ++ (layer.corners.scalars ++
    (layer.fills.flatMap Paint.scalars ++ (layer.strokes.flatMap Paint.scalars ++ (layer.strokeWeight ::
      (layer.effects.flatMap Effect.scalars ++ (layer.opacity ::
        layer.reactions.flatMap Reaction.scalars))))))

theorem keys_members (layer : Layer α) : (layer.members.map (·.1)).Sublist keys := by
  simp only [members, List.map_append]
  have reactions : ((if layer.reactions.isEmpty then []
      else [("reactions", Json.array (layer.reactions.map Reaction.json))]).map (·.1)).Sublist
        ["reactions"] := by
    split
    · exact List.nil_sublist _
    · exact List.Sublist.refl _
  exact (((List.Sublist.refl (keys.take 17)).append reactions).append
    (Json.keys_member? "contentHash" _)).append (Json.keys_member? "shadowContentHash" _)

/-- The members that may be left out are there just if they say something. -/
theorem lookup_optional (layer : Layer α) :
    layer.members.lookup "reactions" = (if layer.reactions.isEmpty then none
      else some (.array (layer.reactions.map Reaction.json))) ∧
    layer.members.lookup "contentHash" = layer.contentHash.map .string ∧
    layer.members.lookup "shadowContentHash" = layer.shadowHash.map .string := by
  cases found : layer.reactions <;>
    simp [members, found, List.lookup_append, lookup_cons_eq, Json.lookup_member?]

theorem ofMembers?_members {layer : Layer α} (legible : ∀ x ∈ layer.scalars, Legible x)
    {others : List (String × Json)} (unknown : ∀ entry ∈ others, entry.1 ∉ keys) :
    ofMembers? (layer.members ++ others) = some { layer with annotations := .none } := by
  have known := Json.knownMembers?_between [] layer.members others layer.keys_members (by decide)
    (List.forall_mem_append.mpr ⟨List.forall_mem_nil _, unknown⟩)
  rw [List.nil_append] at known
  have sizing : ∀ sizing : Sizing,
      Json.oneOf? Sizing.names (.string (Json.nameIn Sizing.names sizing)) = some sizing :=
    fun sizing => Json.oneOf?_nameIn (by decide) (by cases sizing <;> decide)
  simp only [scalars, List.forall_mem_append, List.forall_mem_cons, List.mem_flatMap, forall_exists_index,
    and_imp] at legible
  obtain ⟨⟨x, y, width, height, rotation, _⟩, corners, fills, strokes, weight, effects, opacity,
    reactions⟩ := legible
  have number : ∀ (key : String) {x fallback : α}, layer.members.lookup key = some (Scalar.json x) →
      Legible x → Json.Record.orElse layer.members key fallback Scalar.ofJson? = some x :=
    fun _ _ _ found legible => Json.Record.orElse_found found (Scalar.ofJson?_json legible)
  have list : ∀ {β : Type} {key : String} {json : β → Json} {read : Json → Option β}
      {parts : List β}, layer.members.lookup key = some (.array (parts.map json)) →
      (∀ part ∈ parts, read (json part) = some part) →
      Json.Record.orElse layer.members key [] (Json.list? read) = some parts :=
    fun found each => Json.Record.orElse_found found (Json.list?_map each)
  have id : Json.Record.required layer.members "id" Json.text? = some layer.id := rfl
  have name : Json.Record.orElse layer.members "name" "" Json.text? = some layer.name := rfl
  have visible : Json.Record.orElse layer.members "visible" true Json.bool? = some layer.visible := rfl
  have corners : Json.Record.orElse layer.members "cornerRadius" (.uniform 0) Corners.ofJson? =
      some layer.corners := Json.Record.orElse_found rfl (Corners.ofJson?_json corners)
  have fills : Json.Record.orElse layer.members "fills" [] (Json.list? Paint.ofJson?) = some layer.fills :=
    list rfl fun paint member => Paint.ofJson?_json fun x own => fills x paint member own
  have strokes : Json.Record.orElse layer.members "strokes" [] (Json.list? Paint.ofJson?) =
      some layer.strokes :=
    list rfl fun paint member => Paint.ofJson?_json fun x own => strokes x paint member own
  have effects : Json.Record.orElse layer.members "effects" [] (Json.list? Effect.ofJson?) =
      some layer.effects :=
    list rfl fun effect member => Effect.ofJson?_json fun x own => effects x effect member own
  have constraints : Json.Record.orElse layer.members "constraints" .default Constraints.ofJson? =
      some layer.constraints := Json.Record.orElse_found rfl (Constraints.ofJson?_json _)
  have across : Json.Record.orElse layer.members "layoutSizingHorizontal" .fixed (Json.oneOf? Sizing.names) =
      some layer.sizingHorizontal := Json.Record.orElse_found rfl (sizing _)
  have along : Json.Record.orElse layer.members "layoutSizingVertical" .fixed (Json.oneOf? Sizing.names) =
      some layer.sizingVertical := Json.Record.orElse_found rfl (sizing _)
  obtain ⟨shownReactions, shownHash, shownShadow⟩ := layer.lookup_optional
  have reactions : Json.Record.orElse layer.members "reactions" [] (Json.list? Reaction.ofJson?) =
      some layer.reactions := by
    by_cases empty : layer.reactions.isEmpty = true
    · rw [Json.Record.orElse, shownReactions, if_pos empty, List.isEmpty_iff.mp empty]
    · rw [if_neg empty] at shownReactions
      exact list shownReactions fun reaction member =>
        Reaction.ofJson?_json fun x own => reactions x reaction member own
  have hash : Json.Record.orElse layer.members "contentHash" none (Json.optional? Json.text?) =
      some layer.contentHash := by
    rw [Json.Record.orElse, shownHash]
    cases layer.contentHash <;> rfl
  have shadow : Json.Record.orElse layer.members "shadowContentHash" none (Json.optional? Json.text?) =
      some layer.shadowHash := by
    rw [Json.Record.orElse, shownShadow]
    cases layer.shadowHash <;> rfl
  -- field by field, in the order of reading; `simp` on the whole chain does not come to an end
  exact then_read known <| then_read id <| then_read name <| then_read visible <|
    then_read (number "x" rfl x) <| then_read (number "y" rfl y) <|
    then_read (number "width" rfl width) <| then_read (number "height" rfl height) <|
    then_read (number "rotation" rfl rotation) <| then_read corners <| then_read fills <|
    then_read strokes <| then_read (number "strokeWeight" rfl weight) <| then_read effects <|
    then_read (number "opacity" rfl opacity) <| then_read constraints <| then_read across <|
    then_read along <| then_read reactions <| then_read hash <| then_read shadow rfl

end Layer

theorem Layer.key_mem {layer : Layer α} {entry : String × Json} (member : entry ∈ layer.members) :
    entry.1 ∈ keys := layer.keys_members.subset (List.mem_map_of_mem member)

theorem Layer.numbers_members (layer : Layer α) :
    Json.numbersOfMembers layer.members = Scalar.numbersOf layer.scalars := by
  have reactions : Json.numbersOfMembers (if layer.reactions.isEmpty then []
      else [("reactions", Json.array (layer.reactions.map Reaction.json))]) =
        Scalar.numbersOf (layer.reactions.flatMap Reaction.scalars) := by
    split
    · rename_i empty
      rw [List.isEmpty_iff.mp empty]
      rfl
    · rw [Json.numbersOfMembers, Json.numbers, Scalar.numbers_map Reaction.numbers_json]
      exact List.append_nil _
  have hash : ∀ key (text : Option String),
      Json.numbersOfMembers (Json.member? key (text.map .string)) = [] := by
    intro key text
    cases text <;> rfl
  have constraints : layer.constraints.json.numbers = [] := rfl
  simp only [members, Json.numbersOfMembers_eq, List.flatMap_append] at reactions hash ⊢
  rw [reactions, hash, hash]
  simp [scalars, Json.numbers, constraints, Corners.numbers_json, Scalar.numbers_map Paint.numbers_json,
    Scalar.numbers_map Effect.numbers_json]

namespace TextContent

theorem ofMembers?_members {content : TextContent α} (legible : ∀ x ∈ content.style.scalars, Legible x)
    {before : List (String × Json)} (unknown : ∀ entry ∈ before, entry.1 ∉ ["characters", "style"]) :
    ofMembers? (before ++ content.members) = some content := by
  have known := Json.knownMembers?_between before content.members [] (List.Sublist.refl _)
    (by simp [members]) (by simpa [members] using unknown)
  rw [List.append_nil] at known
  have characters : Json.Record.required content.members "characters" Json.text? =
      some content.characters := rfl
  have style : Json.Record.orElse content.members "style" TextStyle.default TextStyle.ofJson? =
      some content.style := TextStyle.ofJson?_json legible
  exact then_read known <| then_read characters <| then_read style rfl

theorem numbers_members (content : TextContent α) :
    Json.numbersOfMembers content.members = Scalar.numbersOf content.style.scalars := by
  simp [members, Json.numbersOfMembers, Json.numbers, TextStyle.numbers_json]

end TextContent

namespace ContainerProps

/-- The members of a container behind its tag. -/
def members (props : ContainerProps α) (children : List Json) : List (String × Json) :=
  ("children", .array children) :: (Json.member? "layout" (props.layout.map FlowLayout.json) ++
    [("clipsContent", .bool props.clips)])

def scalars (props : ContainerProps α) : List α := props.layout.toList.flatMap FlowLayout.scalars

theorem keys_members (props : ContainerProps α) (children : List Json) :
    ((props.members children).map (·.1)).Sublist ["children", "layout", "clipsContent"] := by
  simp only [members, List.map_cons, List.map_append]
  exact ((Json.keys_member? "layout" _).append (.refl ["clipsContent"])).cons_cons "children"

theorem ofMembers?_members {props : ContainerProps α} {children : List Json}
    (legible : ∀ x ∈ props.scalars, Legible x) {before : List (String × Json)}
    (unknown : ∀ entry ∈ before, entry.1 ∉ ["children", "layout", "clipsContent"]) :
    ofMembers? props.kind (before ++ props.members children) = some props := by
  have known := Json.knownMembers?_between before (props.members children) []
    (props.keys_members children) (by decide) (by simpa using unknown)
  rw [List.append_nil] at known
  have layout : Json.Record.orElse (props.members children) "layout" none
      (Json.optional? FlowLayout.ofJson?) = some props.layout := by
    have held : (props.members children).lookup "layout" = props.layout.map FlowLayout.json := by
      simp [members, lookup_cons_eq, List.lookup_append, Json.lookup_member?]
    rw [Json.Record.orElse, held]
    cases found : props.layout with
    | none => rfl
    | some value =>
      have own : FlowLayout.ofJson? value.json = some value :=
        FlowLayout.ofJson?_json fun x member => legible x (by simpa [scalars, found] using member)
      exact congrArg (Option.map some) own
  have clips : Json.Record.orElse (props.members children) "clipsContent" false Json.bool? =
      some props.clips := by
    simp [members, Json.Record.orElse, lookup_cons_eq, List.lookup_append, Json.lookup_member?, Json.bool?]
  exact then_read known <| then_read layout <| then_read clips rfl

theorem numbers_members (props : ContainerProps α) (children : List Json) :
    Json.numbersOfMembers (props.members children) =
      Json.numbersOfItems children ++ Scalar.numbersOf props.scalars := by
  cases found : props.layout <;>
    simp [members, scalars, found, Json.member?, Json.numbers, Json.numbersOfMembers, FlowLayout.numbers_json]

end ContainerProps

end DesignCompiler
