import RemoteDebug.Protocol.Message
import RemoteDebug.Protocol.ResultCode
import RemoteDebug.Protocol.Version

/-! Commands of the browser's own service and their responses.

A response is an object with the fields `command`, `result` and `data`, or an
array of them in this order; `data` may be absent. -/
namespace RemoteDebug.Protocol

inductive ServiceCommand where
  | ping
  | version
  | listTabs
  deriving DecidableEq, Repr, Inhabited

namespace ServiceCommand

def name : ServiceCommand → String
  | .ping => "ping"
  | .version => "version"
  | .listTabs => "list_tabs"

def toMessage (c : ServiceCommand) : Message :=
  .forService .devToolsService (.ofFields [("command", .str c.name)])

end ServiceCommand

/-- The three fields of an answer; a field that may be absent is then `none` or `null`. -/
structure Answer where
  command : String
  result : Option ResultCode
  data : Json
  deriving Repr, Inhabited

namespace Answer

/-- A result, where the caller may take `null` for no result. -/
def resultOf (optional : Bool) : Json → Except Json.Mismatch (Option ResultCode)
  | .null => if optional then .ok none else (ResultCode.ofJson .null).map some
  | v => (ResultCode.ofJson v).map some

/-- Reads an answer of the named kind. Fields are decoded in the order in which they stand,
before an absent one is noticed; of an array all items are decoded before their number counts. -/
def ofJson (kind : String) (optional : Bool) : Json → Except Json.Mismatch Answer
  | .obj fields => do
    let command ← ((fields.lookup "command").map Json.asString).elim (.ok none) (·.map some)
    let result ← ((fields.lookup "result").map (resultOf optional)).elim (.ok none) (·.map some)
    let data := (fields.lookup "data").getD .null
    match command, result with
    | none, _ => .error (.missing "command")
    | some command, some result => return ⟨command, result, data⟩
    | some command, none => if optional then return ⟨command, none, data⟩ else .error (.missing "result")
  | .arr items =>
    let short (n : Nat) : Json.Mismatch := .length n s!"struct {kind} with 3 elements"
    match items with
    | [] => .error (short 0)
    | [command] => do
      let command ← command.asString
      if optional then return ⟨command, none, .null⟩ else .error (short 1)
    | [command, result] => do
      return ⟨← command.asString, ← resultOf optional result, .null⟩
    | command :: result :: data :: rest => do
      let answer : Answer := ⟨← command.asString, ← resultOf optional result, data⟩
      if rest.isEmpty then return answer else .error (.tooMany items.length)
  | v => .error (.kind v s!"struct {kind}")

end Answer

structure ServiceResponse where
  command : String
  result : ResultCode
  data : Json
  deriving Repr, Inhabited

/-- A debuggable tab, as the service lists it. -/
structure TabEntry where
  id : TabId
  url : String
  deriving DecidableEq, Repr, Inhabited

/-- Reads a pair of a number and an address. -/
def TabEntry.ofJson : Json → Except Json.Mismatch TabEntry
  | .arr [] => .error (.length 0 "a tuple of size 2")
  | .arr [id] => do
    let _ ← id.asUInt32
    .error (.length 1 "a tuple of size 2")
  | .arr (id :: url :: rest) => do
    let entry : TabEntry := ⟨← id.asUInt32, ← url.asString⟩
    if rest.isEmpty then return entry else .error (.tooMany (rest.length + 2))
  | v => .error (.kind v "a tuple of size 2")

namespace ServiceResponse

def ofJson (v : Json) : Except Json.Mismatch ServiceResponse := do
  let answer ← Answer.ofJson "DevToolsResponse" false v
  return ⟨answer.command, answer.result.getD .ok, answer.data⟩

/-- The version that a response carries, if its data are the text of one. -/
def version? (r : ServiceResponse) : Option Version := r.data.str?.bind Version.ofString?

/-- The tabs that a response carries; the first malformed entry decides a refusal. -/
def tabs (r : ServiceResponse) : Except Json.Mismatch (List TabEntry) := do
  (← r.data.asItems).mapM TabEntry.ofJson

end ServiceResponse

end RemoteDebug.Protocol
