import RemoteDebug.Json.Printer
import RemoteDebug.Protocol.Tool

/-! Messages: the name of a tool, perhaps a destination, and a JSON body.

Routing looks at the first two only. An empty destination is none. -/
namespace RemoteDebug.Protocol

abbrev TabId := UInt32

structure Message where
  tool : String
  destination : Option String
  content : Json
  destination_ne_empty : destination ≠ some "" := by simp
  deriving Repr

namespace Message

/-- The message with these headers, an empty destination left out. -/
def ofHeaders (tool : String) (destination : Option String) (content : Json) : Message :=
  if h : destination = some "" then { tool, destination := none, content }
  else { tool, destination, content, destination_ne_empty := h }

instance : Inhabited Message := ⟨ofHeaders "" none .null⟩

/-- A message for a tool without tabs. -/
def forService (tool : Tool) (content : Json) : Message := ofHeaders tool.name none content

def tabText (tab : TabId) : String := String.ofList (Text.digits tab.toNat)

/-- A message for a tool of one tab. -/
def forTab (tool : Tool) (tab : TabId) (content : Json) : Message :=
  ofHeaders tool.name (some (tabText tab)) content

def tool? (m : Message) : Option Tool := Tool.ofName? m.tool

/-- The destination as a tab, if it is a numeral below `2 ^ 32`. -/
def tab? (m : Message) : Option TabId := Text.parseUInt32 (m.destination.getD "").toList

/-- The name of the command in the body, if it has one. -/
def command? (m : Message) : Option String := (m.content.field? "command").bind Json.str?

end Message

end RemoteDebug.Protocol
