import Mathlib.Data.String.Basic
import Mathlib.Tactic.Linarith

/-! Checked domain values and the intent envelope that the governor decides on.
A bounded quantity carries its bounds, as the checked constructors of the source do. -/
namespace EconIntents

def u63Max : ℤ := 9223372036854775807

theorem hundred_nonneg : (0 : ℤ) ≤ 100 := by decide

theorem hundred_le_u63Max : 100 ≤ u63Max := by decide

structure EconError where
  msg : String
  deriving DecidableEq, Repr

abbrev EconResult (α : Type) := Except EconError α

def checkInt (value low high : ℤ) (kind : String) : EconResult ℤ :=
  if value < low ∨ high < value then
    .error ⟨s!"{kind} out of range [{low}, {high}]: {value}"⟩
  else .ok value

structure Msat where
  value : ℤ
  nonneg : 0 ≤ value
  bounded : value ≤ u63Max
  deriving DecidableEq

def Msat.toSatsCeil (m : Msat) : ℤ := (m.value + 999) / 1000

structure UnixTime where
  value : ℤ
  nonneg : 0 ≤ value
  bounded : value ≤ u63Max
  deriving DecidableEq

def UnixTime.new (value : ℤ) : EconResult UnixTime :=
  if h : value < 0 ∨ u63Max < value then
    .error ⟨s!"UnixTime out of range [0, {u63Max}]: {value}"⟩
  else .ok ⟨value, by omega, by omega⟩

theorem UnixTime.new_ok_iff {value : ℤ} {t : UnixTime} :
    UnixTime.new value = .ok t ↔ t.value = value := by
  unfold UnixTime.new
  constructor
  · intro h
    split at h
    · simp at h
    · exact (congrArg UnixTime.value (Except.ok.inj h)).symm
  · intro h
    obtain ⟨v, h0, h1⟩ := t
    obtain rfl : v = value := h
    rw [dif_neg (by omega)]

theorem UnixTime.new_error_iff {value : ℤ} :
    (∃ e, UnixTime.new value = .error e) ↔ value < 0 ∨ u63Max < value := by
  unfold UnixTime.new
  split
  · rename_i h
    simpa using h
  · rename_i h
    simpa using h

def validIntentId (s : String) : Bool :=
  s ≠ "" && s.utf8ByteSize ≤ 64 &&
    s.toList.all fun c => c.isDigit || c.isLower || c = '-'

structure IntentId where
  text : String
  valid : validIntentId text = true
  deriving DecidableEq

/-- Wire strings of the minimum intent vocabulary; validation admits no other. -/
inductive IntentType where
  | setFee
  | setHtlcMax
  | rebalance
  | openChannel
  | closeChannel
  | swapIn
  | swapOut
  | joinLiquiditySwap
  | maintainOnchainReserve
  deriving DecidableEq, Repr

structure IntentEnvelope where
  intentId : IntentId
  intentType : IntentType
  idempotencyKey : String
  snapshotId : String
  expiresAt : UnixTime
  target : String
  maxCostMsat : Msat
  budgetBucket : String
  deriving DecidableEq

/-- The boundary is inclusive: an intent is expired at its expiry. -/
def isExpired (env : IntentEnvelope) (now : UnixTime) : Bool := env.expiresAt.value ≤ now.value

inductive Code where
  | budgetExhausted
  | authorityLevelBlocked
  | paused
  | intentStale
  | intentSuperseded
  | conflictCloseRebalance
  | conflictDuplicateOpen
  | conflictRebalanceSwap
  deriving DecidableEq, Repr

def Code.asStr : Code → String
  | .budgetExhausted => "BUDGET_EXHAUSTED"
  | .authorityLevelBlocked => "AUTHORITY_LEVEL_BLOCKED"
  | .paused => "PAUSED"
  | .intentStale => "INTENT_STALE"
  | .intentSuperseded => "INTENT_SUPERSEDED"
  | .conflictCloseRebalance => "CONFLICT_CLOSE_REBALANCE"
  | .conflictDuplicateOpen => "CONFLICT_DUPLICATE_OPEN"
  | .conflictRebalanceSwap => "CONFLICT_REBALANCE_SWAP"

theorem toSatsCeil_bounds (m : Msat) :
    m.value ≤ m.toSatsCeil * 1000 ∧ m.toSatsCeil * 1000 < m.value + 1000 := by
  unfold Msat.toSatsCeil
  omega

theorem toSatsCeil_nonneg (m : Msat) : 0 ≤ m.toSatsCeil := by
  have := m.nonneg
  unfold Msat.toSatsCeil
  omega

end EconIntents
