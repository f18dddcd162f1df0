import RemoteDebug.Json.Shape

/-! The numeric result of a command. Five codes have names. -/
namespace RemoteDebug.Protocol

inductive ResultCode where
  | ok
  | illegalTabState
  | unknownTab
  | debuggerError
  | unknownCommand
  | other (code : Int64)
  deriving DecidableEq, Repr, Inhabited

namespace ResultCode

def ofInt64 (code : Int64) : ResultCode :=
  if code = 0 then .ok
  else if code = 1 then .illegalTabState
  else if code = 2 then .unknownTab
  else if code = 3 then .debuggerError
  else if code = 4 then .unknownCommand
  else .other code

def toInt64 : ResultCode → Int64
  | .ok => 0
  | .illegalTabState => 1
  | .unknownTab => 2
  | .debuggerError => 3
  | .unknownCommand => 4
  | .other code => code

def isOk (c : ResultCode) : Bool := c == .ok

def text : ResultCode → String
  | .ok => "OK"
  | .illegalTabState => "ILLEGAL_TAB_STATE"
  | .unknownTab => "UNKNOWN_TAB"
  | .debuggerError => "DEBUGGER_ERROR"
  | .unknownCommand => "UNKNOWN_COMMAND"
  | .other code => s!"result {String.ofList (Text.signedDigits code.toInt)}"

def toJson (c : ResultCode) : Json := .int (.ofInt64 c.toInt64)

def ofJson (v : Json) : Except Json.Mismatch ResultCode := v.asInt64.map ofInt64

theorem toInt64_ofInt64 (code : Int64) : (ofInt64 code).toInt64 = code := by
  unfold ofInt64
  repeat' split
  all_goals simp_all [toInt64]

end ResultCode

end RemoteDebug.Protocol
