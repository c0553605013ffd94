import Mathlib.Data.Int.Notation

/-! A JSON tree as the persisted fee state uses it: objects keep the order of their keys, and 1
differs from 1.0. -/
namespace PyJson

inductive OValue where
  | null
  | bool (b : Bool)
  | int (i : ℤ)
  | float (f : Float)
  | str (s : String)
  | arr (items : List OValue)
  | obj (entries : List (String × OValue))

end PyJson
