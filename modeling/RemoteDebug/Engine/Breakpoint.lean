import RemoteDebug.Json.Value

/-! Requests for breakpoints, which the engine hands on as they are. -/
namespace RemoteDebug.Engine

/-- What the target of a breakpoint is. -/
inductive BreakpointKind where
  | function
  | scriptName
  | scriptId
  deriving DecidableEq, Repr, Inhabited

def BreakpointKind.name : BreakpointKind → String
  | .function => "Function"
  | .scriptName => "ScriptName"
  | .scriptId => "ScriptId"

structure BreakpointSpec where
  kind : BreakpointKind
  target : String
  line : Option UInt32 := none
  column : Option UInt32 := none
  enabled : Bool := true
  condition : Option String := none
  ignoreCount : UInt32 := 0
  deriving DecidableEq, Repr, Inhabited

namespace BreakpointSpec

/-- One refinement of a request. -/
inductive Change where
  | place (line : UInt32) (column : Option UInt32)
  | condition (text : String)
  | ignore (count : UInt32)
  | disable
  deriving DecidableEq, Repr

def apply (s : BreakpointSpec) : Change → BreakpointSpec
  | .place line column => { s with line := some line, column }
  | .condition text => { s with condition := some text }
  | .ignore count => { s with ignoreCount := count }
  | .disable => { s with enabled := false }

def toJson (s : BreakpointSpec) : Json :=
  let number (n : UInt32) : Json := .int (.ofUInt32 n)
  .ofFields
    [("kind", .str s.kind.name), ("target", .str s.target),
      ("line", .ofOption number s.line), ("column", .ofOption number s.column),
      ("enabled", .bool s.enabled), ("condition", .ofOption .str s.condition),
      ("ignore_count", number s.ignoreCount)]

end BreakpointSpec

end RemoteDebug.Engine
