import RemoteDebug.Protocol.Tool
import RemoteDebug.Protocol.Version

/-! Settings of a session, and where messages of each tool go. -/
namespace RemoteDebug.Engine
open Protocol

/-- The receiver of a tool's messages. -/
inductive Route where
  /-- The session's own service handler. -/
  | service
  /-- The tab that the destination names. -/
  | tab
  deriving DecidableEq, Repr, Inhabited

/-- A route for some of the tools. -/
structure Routes where
  devToolsService : Option Route
  v8Debugger : Option Route
  deriving DecidableEq, Repr, Inhabited

namespace Routes

def empty : Routes := ⟨none, none⟩

def standard : Routes := ⟨some .service, some .tab⟩

def get (r : Routes) : Tool → Option Route
  | .devToolsService => r.devToolsService
  | .v8Debugger => r.v8Debugger

def set (r : Routes) (route : Option Route) : Tool → Routes
  | .devToolsService => { r with devToolsService := route }
  | .v8Debugger => { r with v8Debugger := route }

def withRoute (r : Routes) (tool : Tool) (route : Route) : Routes := r.set (some route) tool

def without (r : Routes) (tool : Tool) : Routes := r.set none tool

theorem get_withRoute (r : Routes) (tool : Tool) (route : Route) (t : Tool) :
    (r.withRoute tool route).get t = if t = tool then some route else r.get t := by
  cases tool <;> cases t <;> rfl

theorem get_without (r : Routes) (tool t : Tool) :
    (r.without tool).get t = if t = tool then none else r.get t := by
  cases tool <;> cases t <;> rfl

end Routes

structure Config where
  /-- How long each exchange of a request and its reply may take, in nanoseconds. -/
  timeout : Nat := 3000000000
  /-- The version that the client speaks. -/
  version : Version := ⟨0, 1⟩
  rule : Compatibility := .sameMajor
  routes : Routes := .standard
  deriving DecidableEq, Repr, Inhabited

def Config.acceptsServer (c : Config) (server : Version) : Bool := c.rule.accepts c.version server

end RemoteDebug.Engine
