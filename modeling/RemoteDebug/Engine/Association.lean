/-! Lists of pairs as maps that keep the order in which their keys came. -/
namespace RemoteDebug

/-- Sets the value of a key, in the place it has or as the last one. -/
def assign {κ α : Type} [DecidableEq κ] (key : κ) (value : α) : List (κ × α) → List (κ × α)
  | [] => [(key, value)]
  | (k, v) :: rest => if k = key then (key, value) :: rest else (k, v) :: assign key value rest

end RemoteDebug
