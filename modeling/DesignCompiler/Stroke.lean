import DesignCompiler.Config
import DesignCompiler.Design.Node

/-!
Outlines imitated by copies. A design without text strokes often stacks many copies of a text at small
offsets under a styled one. Each such group is reduced to one survivor that gets an outline; its
copies are marked.
-/
namespace DesignCompiler.Stroke

variable {α : Type} [Scalar α]

/-- How many groups were collapsed and how many texts marked. -/
structure Report where
  groups : Nat
  duplicates : Nat
deriving DecidableEq, Repr

def Report.add (a b : Report) : Report := ⟨a.groups + b.groups, a.duplicates + b.duplicates⟩

/-- What the members of a group have in common. -/
structure Key (α : Type) where
  characters : String
  fontSize : α
  fontFamily : String

def Key.same (a b : Key α) : Bool :=
  a.characters == b.characters && Scalar.identical a.fontSize b.fontSize &&
    a.fontFamily == b.fontFamily

def key? (node : Node α) : Option (Key α) :=
  if node.isLive then
    node.content?.map fun content =>
      ⟨content.characters, content.style.fontSize, content.style.fontFamily⟩
  else none

/-- A child and its position among its siblings. -/
structure Member (α : Type) where
  position : Nat
  layer : Layer α

/-- Adds a member to the group of its key, or starts a group behind the others. -/
def enter (key : Key α) (member : Member α) :
    List (Key α × List (Member α)) → List (Key α × List (Member α))
  | [] => [(key, [member])]
  | (other, members) :: rest =>
    if other.same key then (other, members ++ [member]) :: rest
    else (other, members) :: enter key member rest

/-- The live texts by key, in the order of their first members. -/
def groupsFrom (position : Nat) (groups : List (Key α × List (Member α))) :
    List (Node α) → List (Key α × List (Member α))
  | [] => groups
  | node :: rest =>
    groupsFrom (position + 1)
      (match key? node with
        | some key => enter key ⟨position, node.layer⟩ groups
        | none => groups) rest

def candidates (least : Nat) (children : List (Node α)) : List (List (Member α)) :=
  ((groupsFrom 0 [] children).map (·.2)).filter fun members => decide (least ≤ members.length)

def median (values : List α) : α :=
  let sorted := values.mergeSort fun x y => Scalar.order x y != .gt
  let middle := sorted.length / 2
  if sorted.length % 2 = 0 then (sorted.getD (middle - 1) 0 + sorted.getD middle 0) / 2
  else sorted.getD middle 0

/-- The distance between the least and the greatest value, or zero where the least one is not finite. -/
def spread : List α → α
  | [] => 0
  | first :: rest =>
    let least := rest.foldl Scalar.least first
    if Scalar.isFinite least then rest.foldl Scalar.greatest first - least else 0

/-- What becomes of a group. -/
structure Collapse (α : Type) where
  survivor : Nat
  duplicates : List Nat
  stroke : InferredStroke α

/-- Whether a member lies close to the middle of its group on both axes. -/
def isCore (thresholds : StrokeThresholds α) (x y : α) (member : Member α) : Bool :=
  decide (Scalar.abs (member.layer.x - x) ≤ thresholds.clusterRadius) &&
    decide (Scalar.abs (member.layer.y - y) ≤ thresholds.clusterRadius)

/-- The member that stays: among those apart from the core the first styled one, else the last; if
there are none apart, the last of the core. -/
def survivor? (core outliers : List (Member α)) : Option (Member α) :=
  match outliers.find? fun member =>
      member.layer.hasGradientFill || member.layer.hasVisibleEffect with
  | some member => some member
  | none => (outliers.getLast?).or core.getLast?

def evaluate (thresholds : StrokeThresholds α) (members : List (Member α)) :
    Option (Collapse α) :=
  let x := median (members.map (·.layer.x))
  let y := median (members.map (·.layer.y))
  let (core, outliers) := members.partition (isCore thresholds x y)
  if core.length < thresholds.minGroup then none
  else
    let spreadX := spread (core.map (·.layer.x))
    let spreadY := spread (core.map (·.layer.y))
    if thresholds.maxSpread < spreadX ∨ thresholds.maxSpread < spreadY then none
    else
      match survivor? core outliers with
      | none => none
      | some survivor =>
        let reach := Scalar.greatest spreadX spreadY
        let others (list : List (Member α)) := list.filter (·.position != survivor.position)
        some {
          survivor := survivor.position
          duplicates := (others members).map (·.position)
          stroke := {
            thickness := if reach == 0 then 2 else Scalar.ceil (reach / 2)
            color := (others core).findSome? (·.layer.firstSolid) } }

/-- Marks the copies of a group and gives the survivor its outline. -/
def Collapse.applyTo (collapse : Collapse α) (position : Nat) (node : Node α) : Node α :=
  if collapse.duplicates.contains position then
    node.annotate fun notes => { notes with duplicate := true }
  else if position == collapse.survivor then
    node.annotate fun notes => { notes with inferredStroke := some collapse.stroke }
  else node

def collapses (thresholds : StrokeThresholds α) (children : List (Node α)) : List (Collapse α) :=
  (candidates thresholds.minGroup children).filterMap (evaluate thresholds)

def reportOf (collapses : List (Collapse α)) : Report :=
  ⟨collapses.length, collapses.foldl (fun total collapse => total + collapse.duplicates.length) 0⟩

mutual

/-- Collapses the groups among the children of a node, and then below each child that is live. -/
def resolve (thresholds : StrokeThresholds α) : Node α → Node α × Report
  | .container layer props children =>
    let found := collapses thresholds children
    let (resolved, below) := resolveAll thresholds found 0 children
    (.container layer props resolved, (reportOf found).add below)
  | node => (node, ⟨0, 0⟩)

/-- Marks children from a position on, and goes below those that stay live. -/
def resolveAll (thresholds : StrokeThresholds α) (found : List (Collapse α)) (position : Nat) :
    List (Node α) → List (Node α) × Report
  | [] => ([], ⟨0, 0⟩)
  | child :: rest =>
    let marks (node : Node α) : Node α :=
      found.foldl (fun node collapse => collapse.applyTo position node) node
    let (rest, report) := resolveAll thresholds found (position + 1) rest
    if (marks child).isLive then
      let (below, own) := resolve thresholds child
      (marks below :: rest, own.add report)
    else (marks child :: rest, report)

end

end DesignCompiler.Stroke
