import RemoteDebug.Json.Shortest
import RemoteDebug.Json.Value
import RemoteDebug.Text.Quoted

/-! Typed views of a JSON value, and why a value does not have one. -/
namespace RemoteDebug.Json

/-- Why a value has not the shape that is asked for. -/
inductive Mismatch where
  /-- A value of another kind. -/
  | kind (found : Json) (expected : String)
  /-- An integer out of range. -/
  | range (found : Integer) (expected : String)
  | length (found : Nat) (expected : String)
  | missing (field : String)
  /-- A string that the text names as not a value of its type. -/
  | content (reason : String)
  deriving Repr, Inhabited

/-- What a value is, in a message. -/
def describe : Json → String
  | .null => "null"
  | .bool b => s!"boolean `{b}`"
  | .int n => s!"integer `{String.ofList (Text.signedDigits n.val)}`"
  | .double x => s!"floating point `{String.ofList x.text}`"
  | .str s => s!"string {Text.quote s}"
  | .arr _ => "sequence"
  | .obj _ => "map"

def Mismatch.message : Mismatch → String
  | .kind found expected => s!"invalid type: {found.describe}, expected {expected}"
  | .range found expected => s!"invalid value: {(Json.int found).describe}, expected {expected}"
  | .length found expected => s!"invalid length {found}, expected {expected}"
  | .missing field => s!"missing field `{field}`"
  | .content reason => reason

def asString : Json → Except Mismatch String
  | .str s => .ok s
  | v => .error (.kind v "a string")

def asInt64 : Json → Except Mismatch Int64
  | .int n => if n.val < 9223372036854775808 then .ok (Int64.ofInt n.val) else .error (.range n "i64")
  | v => .error (.kind v "i64")

def asUInt32 : Json → Except Mismatch UInt32
  | .int n => if 0 ≤ n.val ∧ n.val < 4294967296 then .ok (UInt32.ofNat n.val.toNat) else .error (.range n "u32")
  | v => .error (.kind v "u32")

def asItems : Json → Except Mismatch (List Json)
  | .arr items => .ok items
  | v => .error (.kind v "a sequence")

/-- More items than places. -/
def Mismatch.tooMany (found : Nat) : Mismatch := .length found "fewer elements in array"

end RemoteDebug.Json
