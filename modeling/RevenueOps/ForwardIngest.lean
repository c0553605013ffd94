import RevenueOps.FallibleState
import RevenueOps.KeyedTable
import RevenueOps.RouteExecutor

/-! The table of settled forwards. Live notifications and the startup backfill read the same members
and insert into it without duplicates; the newest timestamp decides where the backfill starts. -/
namespace ForwardIngest

open FallibleState JsonValue KeyedTable RustNumber
open RouteExecutor (parseMsat)

@[ext] structure ForwardRow where
  inChannel : String
  outChannel : String
  inMsat : ℤ
  outMsat : ℤ
  feeMsat : ℤ
  timestamp : ℤ
  resolvedTime : ℤ
  deriving DecidableEq

abbrev ForwardTable := Table ForwardRow ForwardRow id

def normalizeScid (scid : String) : String :=
  String.ofList (scid.toList.map fun c => if c = ':' then 'x' else c)

/-- Whole seconds of an integer or a float; anything else reads as 0. -/
def jsonTimestamp : Option Json → ℤ
  | some (.int n) => if InI64 n then n else asI64 (asF64 n)
  | some (.float x) => asI64 x
  | _ => 0

def scidMember (event : Json) (key : String) : String :=
  (((event.get key).bind Json.asStr).map normalizeScid).getD ""

/-- The amount under its name since v23.05, or under the one before. -/
def msatMember (event : Json) (key oldKey : String) : ℤ :=
  parseMsat (((event.get key).or (event.get oldKey)).getD .null)

def receivedTime (event : Json) : ℤ := jsonTimestamp (event.get "received_time")

def forwardRowFromJson (event : Json) : ForwardRow :=
  { inChannel := scidMember event "in_channel"
    outChannel := scidMember event "out_channel"
    inMsat := msatMember event "in_msat" "in_msatoshi"
    outMsat := msatMember event "out_msat" "out_msatoshi"
    feeMsat := msatMember event "fee_msat" "fee_msatoshi"
    timestamp := receivedTime event
    resolvedTime := jsonTimestamp (event.get "resolved_time") }

/-- The row that a forward_event inserts; only a settled forward has one. -/
def settledRow (event : Json) : Option ForwardRow :=
  let event := (event.get "forward_event").getD event
  if ((event.get "status").bind Json.asStr).getD "" = "settled" then some (forwardRowFromJson event)
  else none

/-- INSERT OR IGNORE, and whether there is a new row. -/
def insertForwardIgnoreDup (t : ForwardTable) (row : ForwardRow) : Bool × ForwardTable :=
  match t.insert? row with
  | some u => (true, u)
  | none => (false, t)

def lastForwardTs (t : ForwardTable) : Option ℤ := (t.rows.map ForwardRow.timestamp).max?

def forwardHydrationEventJitterSeconds : ℤ := 300

def computeForwardHydrationStart (lastForwardTs : Option ℤ) (flowWindowDays now : ℤ) :
    Outcome Empty (Option ℤ) :=
  match lastForwardTs with
  | none => do
    let span ← .checked (mulI64 (max flowWindowDays 14) 86400)
    let start ← .checked (subI64 now span)
    pure (some start)
  | some last => do
    let gap ← .checked (subI64 now last)
    if max gap 0 ≤ forwardHydrationEventJitterSeconds then pure none
    else do
      let days ← .checked (addI64 flowWindowDays 1)
      let span ← .checked (mulI64 (max days 15) 86400)
      let floor ← .checked (subI64 now span)
      let overlapStart ← .checked (subI64 last 86400)
      pure (some (max overlapStart floor))

section Table

variable {t : ForwardTable} {row other : ForwardRow}

theorem mem_insertForwardIgnoreDup :
    other ∈ (insertForwardIgnoreDup t row).2.rows ↔ other = row ∨ other ∈ t.rows := by
  unfold insertForwardIgnoreDup
  cases hinsert : t.insert? row with
  | some u =>
    obtain ⟨-, hrows⟩ := insert_eq_some.mp hinsert
    simp [hrows, or_comm]
  | none =>
    have hmem : row ∈ t.rows := by
      by_contra hnew
      have hrow : id row ∉ t.rows.map id := by simpa using hnew
      rw [Table.insert?, dif_neg hrow] at hinsert
      cases hinsert
    constructor
    · exact .inr
    · rintro (rfl | hother)
      · exact hmem
      · exact hother

theorem count_eq_one_iff : t.rows.count row = 1 ↔ row ∈ t.rows := by
  constructor
  · intro h
    exact List.count_pos_iff.mp (by omega)
  · have hnodup := t.nodup
    rw [List.map_id] at hnodup
    exact List.count_eq_one_of_mem hnodup

end Table

end ForwardIngest
