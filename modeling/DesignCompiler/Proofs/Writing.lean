import DesignCompiler.Design.Node
import DesignCompiler.Proofs.Canonical

/-!
What canonical texts tell of the parts of a design. Colors, paints, effects and texts with the same
canonical text are the same, as far as their numbers are written alike.
-/
namespace DesignCompiler

variable {α : Type} [Scalar α]

namespace Scalar

/-- A number as files hold it. -/
def written (x : α) : String := (json x).compact

theorem json_eq (x : α) : json x = .orNull .number (number? x) := by
  rw [json]
  cases number? x <;> rfl

theorem canonical_json (x : α) : (json x).canonical = written x := by
  rw [written, json_eq]
  cases number? x <;> rfl

end Scalar

theorem GradientShape.tag_inj {shape other : GradientShape} (same : shape.tag = other.tag) :
    shape = other := by
  cases shape <;> cases other <;> first | rfl | exact absurd same (by decide)

theorem GradientShape.tag_ne (shape : GradientShape) :
    shape.tag ≠ "SOLID" ∧ shape.tag ≠ "IMAGE" ∧ shape.tag ≠ "UNSUPPORTED" := by
  cases shape <;> decide

def Paint.tag : Paint α → String
  | .solid _ => "SOLID"
  | .gradient shape _ => shape.tag
  | .image _ => "IMAGE"
  | .unsupported => "UNSUPPORTED"

theorem Paint.tag_of_canonical {paint other : Paint α}
    (same : paint.json.canonical = other.json.canonical) : paint.tag = other.tag := by
  have tagged : ∀ paint : Paint α,
      ∃ members, paint.json = .object (("type", .string paint.tag) :: members) ∧
        ("type" :: members.map (·.1)).Nodup := by
    intro paint
    cases paint <;> exact ⟨_, rfl, by simp⟩
  obtain ⟨_, json, distinct⟩ := tagged paint
  obtain ⟨_, json', distinct'⟩ := tagged other
  rw [json, json'] at same
  exact Json.canonical_tag same distinct distinct'

def Effect.tag : Effect α → String
  | .dropShadow _ => "DROP_SHADOW"
  | .innerShadow _ => "INNER_SHADOW"
  | .layerBlur _ => "LAYER_BLUR"
  | .backgroundBlur _ => "BACKGROUND_BLUR"
  | .unsupported => "UNSUPPORTED"

theorem Effect.tag_of_canonical {effect other : Effect α}
    (same : effect.json.canonical = other.json.canonical) : effect.tag = other.tag := by
  have tagged : ∀ effect : Effect α,
      ∃ members, effect.json = .object (("type", .string effect.tag) :: members) ∧
        ("type" :: members.map (·.1)).Nodup := by
    intro effect
    cases effect <;> exact ⟨_, rfl, by simp [shadowMembers, blurMembers]⟩
  obtain ⟨_, json, distinct⟩ := tagged effect
  obtain ⟨_, json', distinct'⟩ := tagged other
  rw [json, json'] at same
  exact Json.canonical_tag same distinct distinct'

/-- Choices with different names in a table are told apart by their names. -/
theorem Json.nameIn_inj {β : Type} [BEq β] [LawfulBEq β] {table : List (String × β)}
    (distinct : (table.map (·.1)).Nodup) (listed : ∀ value : β, value ∈ table.map (·.2))
    {value other : β} (same : nameIn table value = nameIn table other) : value = other := by
  have named : ∀ value, ∃ entry ∈ table, entry.2 = value ∧ nameIn table value = entry.1 := by
    intro value
    obtain ⟨known, member, own⟩ := List.mem_map.mp (listed value)
    obtain ⟨entry, found⟩ := Option.isSome_iff_exists.mp
      (List.find?_isSome.mpr ⟨known, member, beq_iff_eq.mpr own⟩ : (table.find? (·.2 == value)).isSome)
    refine ⟨entry, List.mem_of_find?_eq_some found, by simpa using List.find?_some found, ?_⟩
    rw [nameIn, found]
    rfl
  obtain ⟨entry, member, rfl, name⟩ := named value
  obtain ⟨entry', member', rfl, name'⟩ := named other
  rw [name, name'] at same
  rw [List.inj_on_of_nodup_map distinct member member' same]

open Scalar (written canonical_json)

section Reading

variable {ν : Type}

def Color.map (read : α → ν) (color : Color α) : Color ν :=
  ⟨read color.r, read color.g, read color.b, read color.a⟩

def Point.map (read : α → ν) (point : Point α) : Point ν := ⟨read point.x, read point.y⟩

def Corners.map (read : α → ν) : Corners α → Corners ν
  | .uniform radius => .uniform (read radius)
  | .each a b c d => .each (read a) (read b) (read c) (read d)

def ColorStop.map (read : α → ν) (stop : ColorStop α) : ColorStop ν :=
  ⟨read stop.position, stop.color.map read⟩

def Paint.map (read : α → ν) : Paint α → Paint ν
  | .solid paint => .solid ⟨paint.visible, read paint.opacity, paint.color.map read⟩
  | .gradient shape paint => .gradient shape ⟨paint.visible, read paint.opacity,
      paint.stops.map (ColorStop.map read), paint.handles.map (Point.map read)⟩
  | .image paint => .image ⟨paint.visible, read paint.opacity, paint.imageHash, paint.scaleMode⟩
  | .unsupported => .unsupported

def ShadowEffect.map (read : α → ν) (shadow : ShadowEffect α) : ShadowEffect ν :=
  ⟨shadow.visible, shadow.color.map read, shadow.offset.map read, read shadow.radius, read shadow.spread⟩

def BlurEffect.map (read : α → ν) (blur : BlurEffect α) : BlurEffect ν :=
  ⟨blur.visible, read blur.radius⟩

def Effect.map (read : α → ν) : Effect α → Effect ν
  | .dropShadow shadow => .dropShadow (shadow.map read)
  | .innerShadow shadow => .innerShadow (shadow.map read)
  | .layerBlur blur => .layerBlur (blur.map read)
  | .backgroundBlur blur => .backgroundBlur (blur.map read)
  | .unsupported => .unsupported

/-- A line height that files cannot hold is none. -/
def TextStyle.map (read : α → ν) (style : TextStyle α) : TextStyle ν :=
  { style with
    fontWeight := read style.fontWeight
    fontSize := read style.fontSize
    lineHeight := (style.lineHeight.filter fun height => (Scalar.number? height).isSome).map read
    letterSpacing := read style.letterSpacing }

def TextContent.map (read : α → ν) (content : TextContent α) : TextContent ν :=
  ⟨content.characters, content.style.map read⟩

variable {read : α → ν} (tells : read.FactorsThrough written)
include tells

theorem Color.map_of_canonical {color other : Color α}
    (same : color.json.canonical = other.json.canonical) : color.map read = other.map read := by
  have fields := Json.canonical_fields same rfl (by simp)
  simp only [List.map_cons, canonical_json, List.cons.injEq] at fields
  obtain ⟨r, g, b, a, _⟩ := fields
  rw [map, map, tells r, tells g, tells b, tells a]

theorem Point.map_of_canonical {point other : Point α}
    (same : point.json.canonical = other.json.canonical) : point.map read = other.map read := by
  have fields := Json.canonical_fields same rfl (by simp)
  simp only [List.map_cons, canonical_json, List.cons.injEq] at fields
  obtain ⟨x, y, _⟩ := fields
  rw [map, map, tells x, tells y]

theorem ColorStop.map_of_canonical {stop other : ColorStop α}
    (same : stop.json.canonical = other.json.canonical) : stop.map read = other.map read := by
  have fields := Json.canonical_fields same rfl (by simp)
  simp only [List.map_cons, canonical_json, List.cons.injEq] at fields
  obtain ⟨position, color, _⟩ := fields
  rw [map, map, tells position, Color.map_of_canonical tells color]

theorem Corners.map_of_canonical {corners other : Corners α}
    (same : corners.json.canonical = other.json.canonical) : corners.map read = other.map read := by
  have flat : ∀ (x : α) items, (Scalar.json x).canonical ≠ (Json.array items).canonical := by
    intro x items texts
    have alike := Json.alike_of_compact texts
    rw [Scalar.json] at alike
    cases number : Scalar.number? x <;> rw [number] at alike <;> exact alike.elim
  cases corners with
  | uniform radius =>
    cases other with
    | uniform radius' =>
      rw [Corners.json, Corners.json, canonical_json, canonical_json] at same
      rw [map, map, tells same]
    | each => exact absurd same (flat _ _)
  | each a b c d =>
    cases other with
    | uniform => exact absurd same.symm (flat _ _)
    | each a' b' c' d' =>
      have items := Json.canonical_items same
      simp only [List.map_cons, canonical_json, List.cons.injEq] at items
      obtain ⟨first, second, third, fourth, _⟩ := items
      rw [map, map, tells first, tells second, tells third, tells fourth]

theorem Paint.map_of_canonical {paint other : Paint α}
    (same : paint.json.canonical = other.json.canonical) : paint.map read = other.map read := by
  have tags := tag_of_canonical same
  cases paint <;> cases other <;>
    first
    | (refine absurd tags ?_; simp [tag, GradientShape.tag_ne]; done)
    | (refine absurd tags.symm ?_; simp [tag, GradientShape.tag_ne]; done)
    | skip
  case solid.solid paint other =>
    have fields := Json.canonical_fields same rfl (by simp)
    simp only [List.map_cons, canonical_json, List.cons.injEq] at fields
    obtain ⟨_, visible, opacity, color, _⟩ := fields
    rw [map, map, Json.canonical_bool visible, tells opacity, Color.map_of_canonical tells color]
  case gradient.gradient shape paint shape' other =>
    have fields := Json.canonical_fields same rfl (by simp)
    simp only [List.map_cons, canonical_json, List.cons.injEq] at fields
    obtain ⟨_, visible, opacity, stops, handles, _⟩ := fields
    rw [map, map, GradientShape.tag_inj tags, Json.canonical_bool visible, tells opacity,
      Json.map_of_canonical (fun _ _ => ColorStop.map_of_canonical tells) stops,
      Json.map_of_canonical (fun _ _ => Point.map_of_canonical tells) handles]
  case image.image paint other =>
    have fields := Json.canonical_fields same rfl (by simp)
    simp only [List.map_cons, canonical_json, List.cons.injEq] at fields
    obtain ⟨_, visible, opacity, hash, mode, _⟩ := fields
    rw [map, map, Json.canonical_bool visible, tells opacity, Json.canonical_ofText? hash,
      Json.canonical_ofText? mode]
  case unsupported.unsupported => rfl

theorem ShadowEffect.map_of_canonical {tag : String} {shadow other : ShadowEffect α}
    (same : (Json.object (("type", .string tag) :: Effect.shadowMembers shadow)).canonical =
      (Json.object (("type", .string tag) :: Effect.shadowMembers other)).canonical) :
    shadow.map read = other.map read := by
  have fields := Json.canonical_fields same rfl (by simp [Effect.shadowMembers])
  simp only [Effect.shadowMembers, List.map_cons, canonical_json, List.cons.injEq] at fields
  obtain ⟨_, visible, color, offset, radius, spread, _⟩ := fields
  rw [map, map, Json.canonical_bool visible, Color.map_of_canonical tells color,
    Point.map_of_canonical tells offset, tells radius, tells spread]

theorem BlurEffect.map_of_canonical {tag : String} {blur other : BlurEffect α}
    (same : (Json.object (("type", .string tag) :: Effect.blurMembers blur)).canonical =
      (Json.object (("type", .string tag) :: Effect.blurMembers other)).canonical) :
    blur.map read = other.map read := by
  have fields := Json.canonical_fields same rfl (by simp [Effect.blurMembers])
  simp only [Effect.blurMembers, List.map_cons, canonical_json, List.cons.injEq] at fields
  obtain ⟨_, visible, radius, _⟩ := fields
  rw [map, map, Json.canonical_bool visible, tells radius]

theorem Effect.map_of_canonical {effect other : Effect α}
    (same : effect.json.canonical = other.json.canonical) : effect.map read = other.map read := by
  have tags := tag_of_canonical same
  cases effect <;> cases other <;> first | (refine absurd tags ?_; simp [tag]; done) | skip
  case dropShadow.dropShadow => exact congrArg Effect.dropShadow (ShadowEffect.map_of_canonical tells same)
  case innerShadow.innerShadow =>
    exact congrArg Effect.innerShadow (ShadowEffect.map_of_canonical tells same)
  case layerBlur.layerBlur => exact congrArg Effect.layerBlur (BlurEffect.map_of_canonical tells same)
  case backgroundBlur.backgroundBlur =>
    exact congrArg Effect.backgroundBlur (BlurEffect.map_of_canonical tells same)
  case unsupported.unsupported => rfl

theorem TextStyle.lineHeight_of_canonical {height other : Option α}
    (same : ((height.map Scalar.json).getD .null).canonical =
      ((other.map Scalar.json).getD .null).canonical) :
    (height.filter fun height => (Scalar.number? height).isSome).map read =
      (other.filter fun height => (Scalar.number? height).isSome).map read := by
  have cases_of : ∀ height : Option α,
      (height.filter fun height => (Scalar.number? height).isSome) = none ∧
          (height.map Scalar.json).getD .null = .null ∨
        ∃ x value, (height.filter fun height => (Scalar.number? height).isSome) = some x ∧
          Scalar.json x = .number value ∧ (height.map Scalar.json).getD .null = Scalar.json x := by
    rintro (_ | x)
    · exact .inl ⟨rfl, rfl⟩
    · cases number : Scalar.number? x with
      | none => exact .inl (by simp [Scalar.json, number])
      | some value => exact .inr ⟨x, value, by simp [number], by simp [Scalar.json, number], rfl⟩
  rcases cases_of height with ⟨none, text⟩ | ⟨x, value, some, number, text⟩ <;>
    rcases cases_of other with ⟨none', text'⟩ | ⟨x', value', some', number', text'⟩ <;>
    rw [text, text'] at same
  · rw [none, none']
  · rw [number'] at same
    exact (Json.alike_of_compact same).elim
  · rw [number] at same
    exact (Json.alike_of_compact same).elim
  · rw [canonical_json, canonical_json] at same
    rw [some, some', Option.map_some, Option.map_some, tells same]

theorem TextStyle.map_of_canonical {style other : TextStyle α}
    (same : style.json.canonical = other.json.canonical) : style.map read = other.map read := by
  have fields := Json.canonical_fields same rfl (by simp)
  simp only [List.map_cons, canonical_json, List.cons.injEq] at fields
  obtain ⟨family, weight, size, horizontal, vertical, line, spacing, lettering, decoration, _⟩ := fields
  rw [map, map, lineHeight_of_canonical tells line, tells weight, tells size, tells spacing,
    Json.canonical_text family,
    Json.nameIn_inj (by decide) (by intro value; cases value <;> decide) (Json.canonical_text horizontal),
    Json.nameIn_inj (by decide) (by intro value; cases value <;> decide) (Json.canonical_text vertical),
    Json.nameIn_inj (by decide) (by intro value; cases value <;> decide) (Json.canonical_text lettering),
    Json.nameIn_inj (by decide) (by intro value; cases value <;> decide) (Json.canonical_text decoration)]

theorem TextContent.map_of_canonical {content other : TextContent α}
    (same : (Json.object content.members).canonical = (Json.object other.members).canonical) :
    content.map read = other.map read := by
  have fields := Json.canonical_fields same rfl (by simp [members])
  simp only [members, List.map_cons, List.cons.injEq] at fields
  obtain ⟨characters, style, _⟩ := fields
  rw [map, map, Json.canonical_text characters, TextStyle.map_of_canonical tells style]

end Reading

end DesignCompiler
