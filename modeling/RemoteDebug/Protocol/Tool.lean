import RemoteDebug.Text.Quoted

/-! The services behind a connection, by the names that message headers carry. -/
namespace RemoteDebug.Protocol

inductive Tool where
  /-- Liveness, version and the list of tabs. -/
  | devToolsService
  /-- The debugger of one tab. -/
  | v8Debugger
  deriving DecidableEq, Repr, Inhabited

namespace Tool

def name : Tool → String
  | .devToolsService => "DevToolsService"
  | .v8Debugger => "V8Debugger"

/-- The tool with exactly this name. -/
def ofName? (s : String) : Option Tool :=
  if s = devToolsService.name then some .devToolsService
  else if s = v8Debugger.name then some .v8Debugger
  else none

/-- The message for a name that no tool has. -/
def refusal (s : String) : String := s!"unknown tool: {Text.quote s}"

theorem ofName?_name (t : Tool) : ofName? t.name = some t := by cases t <;> decide

end Tool

end RemoteDebug.Protocol
