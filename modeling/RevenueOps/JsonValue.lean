import RevenueOps.RustText
import Mathlib.Algebra.Group.Int.Defs

/-! JSON values as serde_json holds them, and Python's default serialization of them.
An object lists its members in key order, the order in which serde_json's Map iterates. -/
namespace JsonValue

inductive Json where
  | null
  | bool (b : Bool)
  | int (n : ℤ)
  | float (x : Float)
  | str (s : String)
  | arr (items : List Json)
  | obj (members : List (String × Json))

namespace Json

def isObject : Json → Bool
  | obj _ => true
  | _ => false

/-- Value::get with a text index: only an object has members. -/
def get (j : Json) (k : String) : Option Json :=
  match j with
  | obj members => (members.find? fun m => m.1 = k).map Prod.snd
  | _ => none

def asI64 : Json → Option ℤ
  | int n => if -2 ^ 63 ≤ n ∧ n < 2 ^ 63 then some n else none
  | _ => none

def asStr : Json → Option String
  | str s => some s
  | _ => none

def asBool : Json → Option Bool
  | bool b => some b
  | _ => none

def isTruthy : Json → Bool
  | null => false
  | bool b => b
  | int n => n ≠ 0
  | float x => x != 0.0
  | str s => s ≠ ""
  | arr items => !items.isEmpty
  | obj members => !members.isEmpty

/-- Map::insert: the members stay in key order. -/
def insertMember (members : List (String × Json)) (k : String) (v : Json) :
    List (String × Json) :=
  match members with
  | [] => [(k, v)]
  | m :: ms =>
    match compare k m.1 with
    | .lt => (k, v) :: m :: ms
    | .eq => (k, v) :: ms
    | .gt => m :: insertMember ms k v

end Json

abbrev JsonMap := List (String × Json)

def JsonMap.lookup (m : JsonMap) (k : String) : Option Json := (Json.obj m).get k

/-- The parser and the compact writer of serde_json. -/
class SerdeJson where
  fromStr : String → Option Json
  toString : Json → String

def hexDigit (n : ℕ) : Char :=
  if n < 10 then Char.ofNat (48 + n) else Char.ofNat (87 + n)

/-- The form backslash-u with four lower-case hexadecimal digits. -/
def unicodeUnit (n : ℕ) : List Char :=
  ['\\', 'u', hexDigit (n / 4096 % 16), hexDigit (n / 256 % 16), hexDigit (n / 16 % 16),
    hexDigit (n % 16)]

/-- Code points above the BMP are written as a UTF-16 surrogate pair. -/
def writeUnicodeEscape (c : Char) : List Char :=
  let cp := c.toNat
  if cp > 0xFFFF then
    unicodeUnit (0xD800 + (cp - 0x10000) / 1024) ++ unicodeUnit (0xDC00 + (cp - 0x10000) % 1024)
  else
    unicodeUnit cp

def writeChar (c : Char) : List Char :=
  if c = '"' then ['\\', '"']
  else if c = '\\' then ['\\', '\\']
  else if c = '\n' then ['\\', 'n']
  else if c = '\t' then ['\\', 't']
  else if c = '\r' then ['\\', 'r']
  else if c.toNat = 0x08 then ['\\', 'b']
  else if c.toNat = 0x0C then ['\\', 'f']
  else if c.toNat < 0x20 ∨ 0x7F ≤ c.toNat then writeUnicodeEscape c
  else [c]

def writeString (s : String) : String :=
  String.ofList (['"'] ++ s.toList.flatMap writeChar ++ ['"'])

/-- A number that is not an integer cannot be written; it is the error's value. -/
abbrev DumpResult := Except Float

mutual

/-- json.dumps(x, sort_keys=True) with default separators; integers only. -/
def writeValue : Json → DumpResult String
  | .null => .ok "null"
  | .bool true => .ok "true"
  | .bool false => .ok "false"
  | .int n => .ok (toString n)
  | .float x => .error x
  | .str s => .ok (writeString s)
  | .arr items => (writeItems items).map fun xs => "[" ++ String.intercalate ", " xs ++ "]"
  | .obj members => (writeMembers members).map fun xs => "\x7b" ++
        String.intercalate ", " xs ++ "\x7d"

def writeItems : List Json → DumpResult (List String)
  | [] => .ok []
  | j :: js => do
    let x ← writeValue j
    let xs ← writeItems js
    pure (x :: xs)

def writeMembers : List (String × Json) → DumpResult (List String)
  | [] => .ok []
  | (k, j) :: ms => do
    let x ← writeValue j
    let xs ← writeMembers ms
    pure ((writeString k ++ ": " ++ x) :: xs)

end

mutual

def Integral : Json → Prop
  | .float _ => False
  | .arr items => IntegralItems items
  | .obj members => IntegralMembers members
  | _ => True

def IntegralItems : List Json → Prop
  | [] => True
  | j :: js => Integral j ∧ IntegralItems js

def IntegralMembers : List (String × Json) → Prop
  | [] => True
  | m :: ms => Integral m.2 ∧ IntegralMembers ms

end

mutual

theorem writeValue_ok_iff : ∀ j : Json, (writeValue j).isOk ↔ Integral j
  | .null => by simp [writeValue, Integral, Except.isOk, Except.toBool]
  | .bool true => by simp [writeValue, Integral, Except.isOk, Except.toBool]
  | .bool false => by simp [writeValue, Integral, Except.isOk, Except.toBool]
  | .int _ => by simp [writeValue, Integral, Except.isOk, Except.toBool]
  | .float _ => by simp [writeValue, Integral, Except.isOk, Except.toBool]
  | .str _ => by simp [writeValue, Integral, Except.isOk, Except.toBool]
  | .arr items => by
    have ih := writeItems_ok_iff items
    cases h : writeItems items <;>
      simpa [writeValue, Integral, Except.map, Except.isOk, Except.toBool, h] using ih
  | .obj members => by
    have ih := writeMembers_ok_iff members
    cases h : writeMembers members <;>
      simpa [writeValue, Integral, Except.map, Except.isOk, Except.toBool, h] using ih

theorem writeItems_ok_iff : ∀ js : List Json, (writeItems js).isOk ↔ IntegralItems js
  | [] => by simp [writeItems, IntegralItems, Except.isOk, Except.toBool]
  | j :: js => by
    have hj := writeValue_ok_iff j
    have hjs := writeItems_ok_iff js
    cases h : writeValue j <;> cases h' : writeItems js <;>
      simp_all [writeItems, IntegralItems, Except.isOk, Except.toBool, bind, Except.bind, pure,
        Except.pure]

theorem writeMembers_ok_iff : ∀ ms : List (String × Json),
    (writeMembers ms).isOk ↔ IntegralMembers ms
  | [] => by simp [writeMembers, IntegralMembers, Except.isOk, Except.toBool]
  | (k, j) :: ms => by
    have hj := writeValue_ok_iff j
    have hms := writeMembers_ok_iff ms
    cases h : writeValue j <;> cases h' : writeMembers ms <;>
      simp_all [writeMembers, IntegralMembers, Except.isOk, Except.toBool, bind, Except.bind, pure,
        Except.pure]

end

end JsonValue
