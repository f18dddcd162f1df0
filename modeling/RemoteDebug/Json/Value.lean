import RemoteDebug.Json.Double

/-! JSON values.

An integer from `-2 ^ 63` to `2 ^ 64 - 1` is exact and any other number is a
double. The fields of an object are kept in the order of their keys, each key
once; `insert` keeps them so, and `Canonical` says it of a whole value. -/
namespace RemoteDebug

namespace Json

structure Integer where
  val : Int
  lower : -9223372036854775808 ≤ val := by omega
  upper : val < 18446744073709551616 := by omega
  deriving DecidableEq, Repr

instance : Inhabited Integer := ⟨{ val := 0 }⟩

def Integer.ofUInt32 (n : UInt32) : Integer :=
  ⟨n.toNat, by omega, by have := n.toNat_lt; omega⟩

def Integer.ofInt64 (n : Int64) : Integer :=
  ⟨n.toInt, Int64.le_toInt n, by have := Int64.toInt_lt n; omega⟩

/-- An integer of the range, if the number is one. -/
def Integer.ofInt? (n : Int) : Option Integer :=
  if h : -9223372036854775808 ≤ n ∧ n < 18446744073709551616 then some ⟨n, h.1, h.2⟩ else none

end Json

inductive Json where
  | null
  | bool (b : Bool)
  | int (n : Json.Integer)
  | double (x : Json.Double)
  | str (s : String)
  | arr (items : List Json)
  | obj (fields : List (String × Json))
  deriving Inhabited, Repr

namespace Json

/-- Puts a field at its place in the order of keys; an equal key gets the new value. -/
def insert (key : String) (value : Json) : List (String × Json) → List (String × Json)
  | [] => [(key, value)]
  | (k, v) :: rest =>
    if key = k then (key, value) :: rest
    else if key < k then (key, value) :: (k, v) :: rest
    else (k, v) :: insert key value rest

/-- The object of a list of fields; of fields with one key the last counts. -/
def ofFields (fields : List (String × Json)) : Json :=
  .obj (fields.foldl (fun kept f => insert f.1 f.2 kept) [])

/-- The number as a value, or null if it has more than 64 bits. -/
def ofNat (n : Nat) : Json := ((Integer.ofInt? n).map .int).getD .null

def ofOption {α : Type} (f : α → Json) (x : Option α) : Json := (x.map f).getD .null

def field? (key : String) : Json → Option Json
  | .obj fields => fields.lookup key
  | _ => none

def str? : Json → Option String
  | .str s => some s
  | _ => none

mutual

/-- How many arrays and objects stand around the innermost value. -/
def depth : Json → Nat
  | .arr items => depthItems items + 1
  | .obj fields => depthFields fields + 1
  | _ => 0

def depthItems : List Json → Nat
  | [] => 0
  | v :: rest => max v.depth (depthItems rest)

def depthFields : List (String × Json) → Nat
  | [] => 0
  | (_, v) :: rest => max v.depth (depthFields rest)

end

mutual

/-- No number in the value is a double. -/
def Exact : Json → Prop
  | .double _ => False
  | .arr items => ExactItems items
  | .obj fields => ExactFields fields
  | _ => True

def ExactItems : List Json → Prop
  | [] => True
  | v :: rest => v.Exact ∧ ExactItems rest

def ExactFields : List (String × Json) → Prop
  | [] => True
  | (_, v) :: rest => v.Exact ∧ ExactFields rest

end

mutual

/-- The keys of every object in the value strictly increase. -/
def Canonical : Json → Prop
  | .arr items => CanonicalItems items
  | .obj fields => fields.Pairwise (fun a b => a.1 < b.1) ∧ CanonicalFields fields
  | _ => True

def CanonicalItems : List Json → Prop
  | [] => True
  | v :: rest => v.Canonical ∧ CanonicalItems rest

def CanonicalFields : List (String × Json) → Prop
  | [] => True
  | (_, v) :: rest => v.Canonical ∧ CanonicalFields rest

end

end Json

end RemoteDebug
