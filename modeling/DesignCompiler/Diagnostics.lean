import DesignCompiler.Json

/-!
Warnings about what the output can only approximate. They never stop a run; they are kept in the
order raised, and some only once for each key.
-/
namespace DesignCompiler

inductive WarningKind where
  | unmappedFont
  | nonUniformCorner
  | unsupportedGradient
  | unsupportedAlignment
  | customEasing
  | unsupportedTextStyle
  | degenerateParent
  | overflow
  | promotionSkipped
  | shadowSkipped
deriving DecidableEq, Repr

namespace WarningKind

def names : List (String × WarningKind) :=
  [("unmapped-font", .unmappedFont), ("non-uniform-corner", .nonUniformCorner),
    ("unsupported-gradient", .unsupportedGradient),
    ("unsupported-alignment", .unsupportedAlignment), ("custom-easing", .customEasing),
    ("unsupported-text-style", .unsupportedTextStyle),
    ("degenerate-parent", .degenerateParent), ("overflow", .overflow),
    ("promotion-skipped", .promotionSkipped), ("shadow-skipped", .shadowSkipped)]

def name (kind : WarningKind) : String :=
  ((names.find? (·.2 == kind)).map (·.1)).getD ""

end WarningKind

structure Warning where
  kind : WarningKind
  /-- The node that the warning is about, if it is about one. -/
  nodeId : Option String
  message : String
deriving DecidableEq, Repr

namespace Warning

def about (kind : WarningKind) (nodeId message : String) : Warning := ⟨kind, some nodeId, message⟩

def json (warning : Warning) : Json :=
  .object ([("kind", .string warning.kind.name)] ++
    Json.member? "nodeId" (warning.nodeId.map .string) ++
    [("message", .string warning.message)])

end Warning

/-- The warnings of a run, and the keys already warned about. -/
structure Diagnostics where
  warnings : List Warning
  seen : List (WarningKind × String)
deriving Repr

namespace Diagnostics

def empty : Diagnostics := ⟨[], []⟩

def warn (log : Diagnostics) (warning : Warning) : Diagnostics :=
  { log with warnings := log.warnings ++ [warning] }

def warnAll (log : Diagnostics) (warnings : List Warning) : Diagnostics :=
  { log with warnings := log.warnings ++ warnings }

/-- Warns unless the key has been warned about before. -/
def warnOnce (log : Diagnostics) (kind : WarningKind) (key message : String) : Diagnostics :=
  if log.seen.contains (kind, key) then log
  else ⟨log.warnings ++ [⟨kind, none, message⟩], (kind, key) :: log.seen⟩

def count (log : Diagnostics) (kind : WarningKind) : Nat :=
  (log.warnings.filter (·.kind == kind)).length

end Diagnostics
end DesignCompiler
