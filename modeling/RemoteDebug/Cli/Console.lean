import RemoteDebug.Engine.Journal

/-! What the command-line client prints about a tab. It has no breakpoints and no scripts of its
own. -/
namespace RemoteDebug.Cli
open Engine Protocol

def tabLine (tab : TabId) (what : String) : String := s!"[tab {Message.tabText tab}] {what}"

/-- The line for an event of a tab, if it is worth one. -/
def eventLine? (tab : TabId) : TabEvent → Option String
  | .contextDetached => some (tabLine tab "debugger detached")
  | .contextReply payload => some (tabLine tab payload.text)
  | .navigated _ url => some (tabLine tab s!"navigated to {url}")
  | .closed _ => some (tabLine tab "closed")
  | .disconnected _ => some (tabLine tab "disconnected")
  | _ => none

/-- What a request for a breakpoint is answered. -/
def breakpointRefusal : String := "breakpoints are not supported by this client"

/-- The log line of a request for a breakpoint. -/
def breakpointLine (tab : TabId) (kind : BreakpointKind) : String :=
  logLine .warning s!"Breakpoints are not supported here: {kind.name}" (some tab)

end RemoteDebug.Cli
