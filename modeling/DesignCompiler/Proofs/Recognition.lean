import DesignCompiler.Fingerprint
import DesignCompiler.Proofs.Canonical

/-!
What a fingerprint tells. Nodes whose facts have the same text are to have pictures of the same hashes,
and a digest that keeps such texts apart tells as much.
-/
namespace DesignCompiler

variable {α : Type} [Scalar α]

/-- The text held for a key. -/
def Json.textAt (key : String) (members : List (String × Json)) : Option String :=
  (members.lookup key).bind text?

namespace Node

/-- The members of the facts of a node. -/
def factMembers (node : Node α) : List (String × Json) :=
  match node.facts with
  | .object members => members
  | _ => []

theorem facts_eq (node : Node α) : node.facts = .object node.factMembers := rfl

theorem nodup_factMembers (node : Node α) : (node.factMembers.map (·.1)).Nodup := by
  have known : ["name", "width", "height", "fills", "strokes", "strokeWeight", "effects", "opacity",
      "cornerRadius", "text", "raster", "background", "childCount", "childNames"].Nodup := by decide
  refine known.sublist ?_
  simp only [factMembers, facts, List.map_append]
  exact ((((List.Sublist.refl _).append (Json.keys_member? "text" _)).append
    (Json.keys_member? "raster" _)).append (Json.keys_member? "background" _)).append
    (.refl ["childCount", "childNames"])

theorem textAt_raster (node : Node α) :
    Json.textAt "raster" node.factMembers = node.layer.annotations.raster.map (·.hash) := by
  simp only [Json.textAt, factMembers, facts, List.lookup_append]
  cases node.content? <;> cases node.layer.annotations.raster <;>
    cases node.layer.annotations.background <;> rfl

theorem textAt_background (node : Node α) :
    Json.textAt "background" node.factMembers = node.layer.annotations.background.map (·.hash) := by
  simp only [Json.textAt, factMembers, facts, List.lookup_append]
  cases node.content? <;> cases node.layer.annotations.raster <;>
    cases node.layer.annotations.background <;> rfl

/-- Nodes whose facts have the same text are to have pictures of the same hashes. -/
theorem hashes_of_canonical {node other : Node α} (same : node.facts.canonical = other.facts.canonical) :
    node.layer.annotations.raster.map (·.hash) = other.layer.annotations.raster.map (·.hash) ∧
      node.layer.annotations.background.map (·.hash) =
        other.layer.annotations.background.map (·.hash) := by
  rw [facts_eq, facts_eq] at same
  have at_key : ∀ key, Json.textAt key node.factMembers = Json.textAt key other.factMembers := by
    intro key
    have held := Json.canonical_member same node.nodup_factMembers other.nodup_factMembers key
    rw [Json.textAt, Json.textAt]
    cases first : node.factMembers.lookup key <;> cases second : other.factMembers.lookup key <;>
      rw [first, second] at held
    · cases held
    · cases held
    · exact Json.text?_of_canonical (Option.some.inj held)
  rw [← textAt_raster, ← textAt_raster, ← textAt_background, ← textAt_background]
  exact ⟨at_key _, at_key _⟩

end Node

/-- The digest keeps the texts of the facts of some nodes apart from those of others. -/
def KeepsApart (nodes others : List (Node α)) : Prop :=
  ∀ node ∈ nodes, ∀ other ∈ others,
    Sha256.hexOfText node.facts.canonical = Sha256.hexOfText other.facts.canonical →
      node.facts.canonical = other.facts.canonical

end DesignCompiler
