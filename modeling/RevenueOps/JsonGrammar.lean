import RevenueOps.JsonValue

/-! A decoder for the JSON grammar. A text is the characters that are left; every piece of the
decoder takes its part off the front, or refuses. A recursion takes one unit of fuel. -/
namespace JsonGrammar

open JsonValue

abbrev Reader (α : Type) := List Char → Option (α × List Char)

def isWs (c : Char) : Bool := c = ' ' || c = '\t' || c = '\n' || c = '\r'

def skipWs (cs : List Char) : List Char := cs.dropWhile isWs

def hexValue (c : Char) : Option ℕ :=
  if '0' ≤ c ∧ c ≤ '9' then some (c.toNat - 48)
  else if 'a' ≤ c ∧ c ≤ 'f' then some (c.toNat - 87)
  else if 'A' ≤ c ∧ c ≤ 'F' then some (c.toNat - 55)
  else none

def readHex4 : Reader ℕ
  | a :: b :: c :: d :: cs => do
    let a ← hexValue a
    let b ← hexValue b
    let c ← hexValue c
    let d ← hexValue d
    some (((a * 16 + b) * 16 + c) * 16 + d, cs)
  | _ => none

def isHighSurrogate (n : ℕ) : Bool := 0xd800 ≤ n && n ≤ 0xdbff
def isLowSurrogate (n : ℕ) : Bool := 0xdc00 ≤ n && n ≤ 0xdfff

def surrogatePair (hi lo : ℕ) : ℕ := 0x10000 + (hi - 0xd800) * 1024 + (lo - 0xdc00)

def charOf (n : ℕ) : Option Char := if n.isValidChar then some (Char.ofNat n) else none

/-- The second half of a surrogate pair, an escape of its own. -/
def readLow (hi : ℕ) : Reader Char
  | '\\' :: 'u' :: cs => do
    let (lo, cs) ← readHex4 cs
    if isLowSurrogate lo then (charOf (surrogatePair hi lo)).map (·, cs) else none
  | _ => none

def shortEscape (c : Char) : Option Char :=
  if c = '"' then some '"'
  else if c = '\\' then some '\\'
  else if c = '/' then some '/'
  else if c = 'b' then some (Char.ofNat 0x08)
  else if c = 'f' then some (Char.ofNat 0x0c)
  else if c = 'n' then some '\n'
  else if c = 'r' then some '\r'
  else if c = 't' then some '\t'
  else none

def readUnicode (cs : List Char) : Option (Char × List Char) := do
  let (n, cs) ← readHex4 cs
  if isHighSurrogate n then readLow n cs else (charOf n).map (·, cs)

def readEscape : Reader Char
  | [] => none
  | c :: cs => if c = 'u' then readUnicode cs else (shortEscape c).map (·, cs)

/-- The characters of a string up to and with its closing quote. -/
def readChars : ℕ → Reader (List Char)
  | 0, _ => none
  | _ + 1, [] => none
  | n + 1, c :: cs =>
    if c = '"' then some ([], cs)
    else if c = '\\' then do
      let (d, cs) ← readEscape cs
      let (ds, cs) ← readChars n cs
      some (d :: ds, cs)
    else if c.toNat < 0x20 then none
    else do
      let (ds, cs) ← readChars n cs
      some (c :: ds, cs)

def readString : Reader String
  | '"' :: cs => do
    let (ds, cs) ← readChars (cs.length + 1) cs
    some (String.ofList ds, cs)
  | _ => none

def readDigits (cs : List Char) : Option (List Char × List Char) :=
  if (cs.takeWhile Char.isDigit).isEmpty then none
  else some (cs.takeWhile Char.isDigit, cs.dropWhile Char.isDigit)

/-- The whole part of a number: a leading zero stands alone. -/
def readWhole (cs : List Char) : Option (List Char × List Char) := do
  let (ds, cs) ← readDigits cs
  if ds.head? = some '0' ∧ 1 < ds.length then none else some (ds, cs)

/-- The digits of the fraction, when a point stands here. -/
def readFraction : Reader (Option (List Char))
  | '.' :: cs => (readDigits cs).map (Prod.map some id)
  | cs => some (none, cs)

def signedExponent : Reader ℤ
  | '-' :: cs => (readDigits cs).map (Prod.map (fun ds => -(Nat.ofDigitChars 10 ds 0 : ℤ)) id)
  | '+' :: cs => (readDigits cs).map (Prod.map (fun ds => (Nat.ofDigitChars 10 ds 0 : ℤ)) id)
  | cs => (readDigits cs).map (Prod.map (fun ds => (Nat.ofDigitChars 10 ds 0 : ℤ)) id)

def readExponent : Reader (Option ℤ)
  | 'e' :: cs => (signedExponent cs).map (Prod.map some id)
  | 'E' :: cs => (signedExponent cs).map (Prod.map some id)
  | cs => some (none, cs)

def scientific (mantissa : ℕ) (exponent : ℤ) : Float :=
  Float.ofScientific mantissa (exponent < 0) exponent.natAbs

/-- Without a fraction and an exponent the number is an integer; the integers have no -0. -/
def numberValue (negative : Bool) (whole : List Char) (fraction : Option (List Char))
    (exponent : Option ℤ) : Json :=
  let n := Nat.ofDigitChars 10 whole 0
  if fraction = none ∧ exponent = none ∧ ¬(negative ∧ n = 0) then
    .int (if negative then -(n : ℤ) else n)
  else
    let ds := fraction.getD []
    let x := scientific (Nat.ofDigitChars 10 (whole ++ ds) 0) (exponent.getD 0 - ds.length)
    .float (if negative then -x else x)

def readUnsigned (negative : Bool) (cs : List Char) : Option (Json × List Char) := do
  let (whole, cs) ← readWhole cs
  let (fraction, cs) ← readFraction cs
  let (exponent, cs) ← readExponent cs
  some (numberValue negative whole fraction exponent, cs)

def readNumber : Reader Json
  | '-' :: cs => readUnsigned true cs
  | cs => readUnsigned false cs

def readLit (lit : List Char) (j : Json) (cs : List Char) : Option (Json × List Char) :=
  if lit.isPrefixOf cs then some (j, cs.drop lit.length) else none

/-- What a value's first character says about the rest of it. -/
inductive Head where
  | brace
  | bracket
  | quote
  | lit (text : List Char) (value : Json)
  | number

def headOf (c : Char) : Head :=
  if c = '\x7b' then .brace
  else if c = '[' then .bracket
  else if c = '"' then .quote
  else if c = 't' then .lit "true".toList (.bool true)
  else if c = 'f' then .lit "false".toList (.bool false)
  else if c = 'n' then .lit "null".toList .null
  else .number

/-- The text behind one character that has to stand here. -/
def expect (c : Char) : List Char → Option (List Char)
  | [] => none
  | d :: cs => if d = c then some cs else none

/-- After an element: the list ends, goes on, or is broken. -/
def listEnd {α : Type} (close : Char) (x : α) (more : Reader (List α)) :
    Reader (List α) := fun cs =>
  match skipWs cs with
  | [] => none
  | c :: cs =>
    if c = ',' then (more cs).map (Prod.map (x :: ·) id)
    else if c = close then some ([x], cs)
    else none

mutual

def readValue : ℕ → Reader Json
  | 0, _ => none
  | n + 1, cs =>
    match skipWs cs with
    | [] => none
    | c :: cs =>
      match headOf c with
      | .brace =>
        if (skipWs cs).head? = some '\x7d' then some (.obj [], (skipWs cs).tail)
        else (readMembers n cs).map (Prod.map .obj id)
      | .bracket =>
        if (skipWs cs).head? = some ']' then some (.arr [], (skipWs cs).tail)
        else (readItems n cs).map (Prod.map .arr id)
      | .quote => (readString (c :: cs)).map (Prod.map .str id)
      | .lit text j => readLit text j (c :: cs)
      | .number => readNumber (c :: cs)

/-- The elements of an array up to and with its closing bracket. -/
def readItems : ℕ → Reader (List Json)
  | 0, _ => none
  | n + 1, cs => do
    let (j, cs) ← readValue n cs
    listEnd ']' j (readItems n) cs

/-- The members of an object up to and with its closing brace. -/
def readMembers : ℕ → Reader (List (String × Json))
  | 0, _ => none
  | n + 1, cs => do
    let (k, cs) ← readString (skipWs cs)
    let cs ← expect ':' (skipWs cs)
    let (j, cs) ← readValue n cs
    listEnd '\x7d' (k, j) (readMembers n) cs

end

/-- A text is one value with whitespace around it. A level of nesting takes two units of fuel
and at least two characters. -/
def decode (text : String) : Option Json := do
  let (j, cs) ← readValue (text.toList.length + 1) text.toList
  if (skipWs cs).isEmpty then some j else none

example : (decode "[1, -20, \x7b\"a\\u00e9\\ud83d\\ude00\": null\x7d, true] ").isSome = true := by
  decide +kernel

end JsonGrammar
