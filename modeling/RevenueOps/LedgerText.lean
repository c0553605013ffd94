import RevenueOps.BudgetRail
import RevenueOps.EconLedger
import RevenueOps.JsonRoundTrip

/-! The ledger's rows as their texts. An append writes two JSON texts; reading the rows gives the
texts to serde_json, a reader of the JSON grammar with a limit on the nesting. -/
namespace LedgerText

open EconIntents EconLedger JsonValue JsonGrammar

abbrev I64Map := Std.ExtTreeMap String Int64

mutual

/-- What a serde_json Value can hold: numbers within its integers or finite, members with
distinct keys in their order. -/
def wellFormed : Json → Bool
  | .int n => -2 ^ 63 ≤ n && n < 2 ^ 64
  | .float x => x.isFinite
  | .arr items => wellFormedItems items
  | .obj members =>
    decide ((members.map Prod.fst).Pairwise (· < ·)) && wellFormedMembers members
  | _ => true

def wellFormedItems : List Json → Bool
  | [] => true
  | j :: js => wellFormed j && wellFormedItems js

def wellFormedMembers : List (String × Json) → Bool
  | [] => true
  | m :: ms => wellFormed m.2 && wellFormedMembers ms

end

@[ext]
structure Value where
  json : Json
  valid : wellFormed json = true

mutual

/-- The number of arrays and objects around the innermost part of a value. -/
def nesting : Json → ℕ
  | .arr items => nestingItems items + 1
  | .obj members => nestingMembers members + 1
  | _ => 0

def nestingItems : List Json → ℕ
  | [] => 0
  | j :: js => max (nesting j) (nestingItems js)

def nestingMembers : List (String × Json) → ℕ
  | [] => 0
  | m :: ms => max (nesting m.2) (nestingMembers ms)

end

/-- A reader of serde_json gives up where an array or an object would be the 128th around it. -/
def recursionLimit : ℕ := 128

def memberAmount (m : String × Json) : Option (String × Int64) :=
  (m.2.asI64).map fun n => (m.1, Int64.ofInt n)

def memberAmounts (members : List (String × Json)) : Option I64Map :=
  (members.mapM memberAmount).map fun entries => Std.ExtTreeMap.ofList entries

/-- serde_json::from_str at the two types that the ledger reads, with the text of its errors. -/
class SerdeReader where
  fromStr : String → Except String Value
  amountsFromStr : String → Except String I64Map

open SerdeReader

/-- The reader follows the grammar up to its limit. -/
class LawfulReader [SerdeReader] : Prop where
  accepts {text : String} {v : Value} : decode text = some v.json → Integral v.json →
    nesting v.json < recursionLimit → fromStr text = .ok v
  refuses {text : String} {v : Value} : decode text = some v.json →
    recursionLimit ≤ nesting v.json → ∃ err, fromStr text = .error err
  amounts {text : String} {members : List (String × Json)} {m : I64Map} :
    decode text = some (.obj members) → memberAmounts members = some m →
      amountsFromStr text = .ok m

def pythonDumpsDefault (j : Json) : EconResult String := (writeValue j).mapError nonIntegerError

def pythonDumpsSorted (j : Json) : Except BudgetRail.BudgetError String :=
  (writeValue j).mapError fun x =>
    .metadata "budget metadata forbids non-integer numbers: " (.float x)

structure Call where
  eventType : EventType
  intentId : String
  idempotencyKey : String
  cycleId : String
  atTime : ℤ
  amounts : I64Map
  details : Value

structure Row where
  eventType : EventType
  intentId : String
  idempotencyKey : String
  cycleId : String
  atTime : ℤ
  amountsJson : String
  detailsJson : String

structure Event where
  eventId : ℕ
  content : Call

structure EventTable where
  rows : List Row
  faults : List (Option EconError)

/-- The checks of append before it writes a text. -/
def checkFields (c : Call) : EconResult Unit :=
  match c.eventType with
  | .other text => .error ⟨"unknown ledger event type: " ++ text.quote⟩
  | _ =>
    if c.intentId = "" ∨ c.idempotencyKey = "" ∨ c.cycleId = "" then
      .error ⟨"intent_id, idempotency_key, cycle_id required"⟩
    else if c.atTime < 0 then .error ⟨s!"at must be unix seconds: {c.atTime}"⟩
    else .ok ()

def amountsValue (m : I64Map) : Json := .obj (m.toList.map fun e => (e.1, .int e.2.toInt))

def encode (c : Call) : EconResult Row := do
  checkFields c
  let amountsJson ← pythonDumpsDefault (amountsValue c.amounts)
  let detailsJson ← pythonDumpsDefault c.details.json
  pure
    { eventType := c.eventType
      intentId := c.intentId
      idempotencyKey := c.idempotencyKey
      cycleId := c.cycleId
      atTime := c.atTime
      amountsJson := amountsJson
      detailsJson := detailsJson }

/-- EconLedger::append, with the id of the new row. -/
def append (c : Call) (t : EventTable) : EconResult ℕ × EventTable :=
  match encode c with
  | .error err => (.error err, t)
  | .ok row =>
    match t.faults.head?.join with
    | some err => (.error err, { t with faults := t.faults.tail })
    | none => (.ok (t.rows.length + 1), ⟨t.rows ++ [row], t.faults.tail⟩)

def jsonError (err : String) : EconError := ⟨"econ ledger JSON decode error: " ++ err⟩

def decodeRow [SerdeReader] (row : Row) : EconResult Call := do
  let amounts ← (amountsFromStr row.amountsJson).mapError jsonError
  let details ← (fromStr row.detailsJson).mapError jsonError
  pure
    { eventType := row.eventType
      intentId := row.intentId
      idempotencyKey := row.idempotencyKey
      cycleId := row.cycleId
      atTime := row.atTime
      amounts := amounts
      details := details }

def decodeRows [SerdeReader] : List (Row × ℕ) → EconResult (List Event)
  | [] => .ok []
  | r :: rs => do
    let c ← decodeRow r.1
    let es ← decodeRows rs
    pure (⟨r.2, c⟩ :: es)

/-- EconLedger::events; a row that does not decode fails the whole read. -/
def events [SerdeReader] (sinceId : ℕ) (t : EventTable) : EconResult (List Event) :=
  decodeRows ((t.rows.zipIdx 1).filter fun r => sinceId < r.2)

/-- A run of appends, with the events that were acknowledged. -/
def appendAll : List Call → EventTable → List Event × EventTable
  | [], t => ([], t)
  | c :: cs, t =>
    match append c t with
    | (.error _, t) => appendAll cs t
    | (.ok id, t) => (⟨id, c⟩ :: (appendAll cs t).1, (appendAll cs t).2)

end LedgerText
