import RevenueOps.BudgetRail
import RevenueOps.RouteExecutor

/-! The seams of the rebalance engine: its store, router, executor, policy, clock and RPC are
parameters whose replies may depend on everything before. Every call that reaches the store, the
executor or the node is logged with its reply. -/
namespace RebalanceEngine

open FallibleState JsonValue RouteExecutor
open BudgetRail (ReserveRequest)

/-- The columns of a rebalance_history row that the engine reads and writes. -/
structure HistoryRow where
  id : ℤ
  fromChannel : String
  toChannel : String
  amountSats : ℤ
  maxFeeSats : ℤ
  expectedProfitSats : ℤ
  status : String
  rebalanceType : String
  reasonCode : String
  paymentHash : Option String

structure HistorySuccess where
  actualFeeSats : ℤ
  actualFeeMsat : ℤ
  postLocalRatio : Option Float
  amountSats : Option ℤ

structure RebalanceCost where
  channelId : String
  peerId : String
  costSats : ℤ
  costMsat : ℤ
  amountSats : ℤ
  timestamp : ℤ

inductive BudgetBlock where
  | refused (remaining : ℤ)
  | unavailable (message : String)

structure PeerPolicy where
  strategy : String
  rebalanceMode : String

structure RouteResult where
  success : Bool
  error : Option String
  routeCostSats : ℤ
  route : List SendpayHop
  probabilityPpm : ℤ

structure PlannedPairCtx where
  ourNodeId : String
  sourceChannelId : String
  destChannelId : String
  sourcePeerId : String
  destPeerId : String
  amountSats : ℤ
  layerNames : List String
  invoiceFinalCltv : ℤ

structure PairCandidate where
  sourceChannelId : String
  destChannelId : String
  sourcePeerId : String
  destPeerId : String
  amountSats : ℤ
  pairBudgetSats : ℤ
  effectiveBudgetSats : Option ℤ
  routeCostSats : ℤ
  route : List SendpayHop
  reasonCode : String
  destCapacitySats : ℤ
  destLocalRatio : Float

structure EngineConfig where
  pairFeeCapPpm : ℤ
  capexProbabilityBudgetBonus : Float
  dailyBudgetSats : ℤ
  weeklyBudgetSats : Option ℤ
  totalCostBudgetWindowHours : ℤ
  allowZeroCostAutoRebalanceWhenBudgetZero : Bool
  askreneLayerNames : List String
  invoiceFinalCltv : ℤ

/-- A call with its reply, where it has one. A grant replies without a block. -/
inductive EngineCall where
  | insertOrAdoptHistory (row : HistoryRow) (id : ℤ)
  | updateHistory (id : ℤ) (status : String) (err : Option String)
  | updateHistorySuccess (id : ℤ) (update : HistorySuccess)
  | updateHistoryPendingSettlement (id : ℤ) (error paymentHash : String)
  | reserveBudget (req : ReserveRequest) (block : Option BudgetBlock)
  | markBudgetSpent (reservationId : String) (actualFeeSats : ℤ)
  | releaseReservation (reservationId : String)
  | recordRebalanceCost (cost : RebalanceCost)
  | execute (req : ExecuteRequest) (reply : ExecutionResult)
  | listsendpays (paymentHash : String) (reply : Except RpcFailure Json)
  | delpay (paymentHash status : String)
  | datastoreExport (observerMemberId : String) (now : ℤ)
  | resetFailureCount (key : String)
  | incrementFailureCount (key : String) (attemptedPpm attemptedAmount : ℤ) (errorType : String)
  | setDecision (action reason dominantInput : String) (safetyBlock budgetBlocked : Bool)

/-- `perform` is what a call without a reply does to the world. -/
structure EngineDeps (ω : Type) where
  config : EngineConfig
  policy : Option (String → ω → Except String PeerPolicy × ω)
  now : ω → Float × ω
  tryLock : ω → Bool × ω
  getinfoId : ω → Except RpcFailure String × ω
  beginCycle : ω → Bool × ω
  pricePair : PlannedPairCtx → List String → ω → Except RpcFailure RouteResult × ω
  execute : ExecuteRequest → ω → ExecutionResult × ω
  insertOrAdoptHistory : HistoryRow → ω → ℤ × ω
  reserveBudget : ReserveRequest → ω → Option BudgetBlock × ω
  pendingSettlementRows : ω → List HistoryRow × ω
  listsendpays : String → ω → Except RpcFailure Json × ω
  listpeerchannelsFull : ω → Except RpcFailure Json × ω
  hasObservations : ℤ → ω → Bool × ω
  perform : EngineCall → ω → ω

structure EngineState (ω : Type) where
  world : ω
  ourId : String
  reservationNonce : ℤ
  inflight : List String
  log : List EngineCall

abbrev Engine (ω α : Type) := Eff (EngineState ω) Empty α

variable {ω α : Type}

def EngineState.start (world : ω) (ourId : String) (reservationNonce : ℤ)
    (inflight : List String) : EngineState ω := ⟨world, ourId, reservationNonce, inflight, []⟩

/-- Ask a seam; the call is not logged. -/
def ask (f : ω → α × ω) : Engine ω α := fun s =>
  let (reply, world) := f s.world
  (.ok reply, { s with world := world })

def askLogged (f : ω → α × ω) (call : α → EngineCall) : Engine ω α := fun s =>
  let (reply, world) := f s.world
  (.ok reply, { s with
    world := world
    log := s.log ++ [call reply] })

def tell (deps : EngineDeps ω) (call : EngineCall) : Engine ω Unit := fun s =>
  (.ok (), { s with
    world := deps.perform call s.world
    log := s.log ++ [call] })

structure Bounds where
  fee : ℤ → Prop
  budget : ReserveRequest → Prop

def Bounds.none : Bounds := ⟨fun _ => True, fun _ => True⟩

def Bounds.Allows (b : Bounds) : EngineCall → Prop
  | .execute req _ => b.fee req.maxFeeSats
  | .reserveBudget req _ => b.budget req
  | _ => True

/-- The later log extends the earlier one, by calls within the bounds. -/
def Extends (b : Bounds) (s t : EngineState ω) (calls : List EngineCall) : Prop :=
  t.log = s.log ++ calls ∧ ∀ c ∈ calls, b.Allows c

/-- What a computation appends to the log: calls within the bounds, also when it panics, and
when it returns, calls that go with its value. -/
def Logs (b : Bounds) (m : Engine ω α) (P : α → List EngineCall → Prop) : Prop :=
  ∀ s, wp m ⟨fun a t => ∃ calls, Extends b s t calls ∧ P a calls, fun _ _ => False,
    fun t => ∃ calls, Extends b s t calls⟩ s

def Silent (m : Engine ω α) : Prop :=
  Logs ⟨fun _ => False, fun _ => False⟩ m fun _ calls => calls = []

section Logs

variable {β : Type} {b : Bounds} {m : Engine ω α} {k : α → Engine ω β}
  {P : α → List EngineCall → Prop} {Q : β → List EngineCall → Prop} {s t u : EngineState ω}

theorem Extends.nil (h : t.log = s.log) : Extends b s t [] := ⟨by simpa using h, by simp⟩

theorem Extends.single {c : EngineCall} (h : t.log = s.log ++ [c]) (hc : b.Allows c) :
    Extends b s t [c] := by
  refine ⟨h, fun d hd => ?_⟩
  obtain rfl := List.mem_singleton.mp hd
  exact hc

theorem Extends.trans {cs ds : List EngineCall} (h : Extends b s t cs) (k : Extends b t u ds) :
    Extends b s u (cs ++ ds) := by
  refine ⟨by rw [k.1, h.1, List.append_assoc], fun c hc => ?_⟩
  rcases List.mem_append.mp hc with hc | hc
  · exact h.2 c hc
  · exact k.2 c hc

theorem Logs.run (h : Logs b m P) {a : α} (hm : m s = (.ok a, t)) :
    ∃ calls, t.log = s.log ++ calls ∧ P a calls := by
  obtain ⟨calls, hext, ha⟩ := wp_ok (h s) hm
  exact ⟨calls, hext.1, ha⟩

/-- Whatever the outcome, the log has grown by calls within the bounds. -/
theorem Logs.always (h : Logs b m P) (s : EngineState ω) :
    ∃ calls, Extends b s (m s).2 calls := by
  have hs := h s
  unfold wp at hs
  rcases hm : m s with ⟨r, t⟩
  rw [hm] at hs
  cases r with
  | ok a =>
    obtain ⟨calls, hext, -⟩ := hs
    exact ⟨calls, hext⟩
  | err e => cases hs
  | panic => exact hs

theorem Logs.mono {R : α → List EngineCall → Prop} (h : Logs b m P)
    (hpr : ∀ a calls, P a calls → R a calls) : Logs b m R := by
  intro s
  refine wp_mono (h s) ?_ (fun _ _ => id) fun _ => id
  rintro a t ⟨calls, hext, ha⟩
  exact ⟨calls, hext, hpr a calls ha⟩

theorem Logs.weaken {c : Bounds} (h : Logs b m P) (hbc : ∀ call, b.Allows call → c.Allows call) :
    Logs c m P := by
  have hext : ∀ {s t : EngineState ω} {calls : List EngineCall}, Extends b s t calls →
      Extends c s t calls := fun he => ⟨he.1, fun d hd => hbc d (he.2 d hd)⟩
  intro s
  refine wp_mono (h s) ?_ (fun _ _ => id) ?_
  · rintro a t ⟨calls, he, ha⟩
    exact ⟨calls, hext he, ha⟩
  · rintro t ⟨calls, he⟩
    exact ⟨calls, hext he⟩

theorem Logs.unbounded (h : Logs b m P) : Logs .none m P := by
  refine h.weaken fun call _ => ?_
  cases call <;> trivial

theorem Logs.pure {a : α} (h : P a []) : Logs b (Pure.pure a : Engine ω α) P :=
  fun _ => (wp_pure _ _ _).mpr ⟨[], Extends.nil rfl, h⟩

theorem Logs.bind (hm : Logs b m P)
    (hk : ∀ a calls, P a calls → Logs b (k a) fun r more => Q r (calls ++ more)) :
    Logs b (m >>= k) Q := by
  intro s
  refine (wp_bind _ _ _ _).mpr (wp_mono (hm s) ?_ (fun _ _ => id) fun _ => id)
  rintro a t ⟨calls, hext, ha⟩
  refine wp_mono (hk a calls ha t) ?_ (fun _ _ => id) ?_
  · rintro r u ⟨more, hmore, hr⟩
    exact ⟨calls ++ more, hext.trans hmore, hr⟩
  · rintro u ⟨more, hmore⟩
    exact ⟨calls ++ more, hext.trans hmore⟩

theorem Logs.after_silent (hm : Silent m) (hk : ∀ a, Logs b (k a) Q) : Logs b (m >>= k) Q := by
  have hquiet : Logs b m fun _ calls => calls = [] := by
    refine Logs.weaken hm fun call hcall => ?_
    cases call <;> trivial
  refine Logs.bind hquiet fun a calls hcalls => ?_
  subst hcalls
  simpa using hk a

theorem Logs.after_checked {o : Option α} (hk : ∀ a, o = some a → Logs b (k a) Q) :
    Logs b (Eff.checked o >>= k) Q := by
  intro s
  refine (wp_bind _ _ _ _).mpr ((wp_checked _ _ _).mpr ⟨fun a ha => hk a ha s, fun _ => ?_⟩)
  exact ⟨[], Extends.nil rfl⟩

theorem Logs.ite {c : Prop} [Decidable c] {n : Engine ω α} (hm : c → Logs b m P)
    (hn : ¬c → Logs b n P) : Logs b (if c then m else n) P :=
  fun s => wp_ite.mpr ⟨fun hc => hm hc s, fun hc => hn hc s⟩

theorem logs_askLogged {f : ω → α × ω} {call : α → EngineCall} (h : ∀ a, b.Allows (call a)) :
    Logs b (askLogged f call) fun reply calls => calls = [call reply] := by
  intro s
  unfold wp askLogged
  exact ⟨[call _], Extends.single rfl (h _), rfl⟩

theorem logs_tell {deps : EngineDeps ω} {call : EngineCall} (h : b.Allows call) :
    Logs b (tell deps call) fun _ calls => calls = [call] := by
  intro s
  unfold wp tell
  exact ⟨[call], Extends.single rfl h, rfl⟩

theorem silent_ask {f : ω → α × ω} : Silent (ask f) := by
  intro s
  unfold wp ask
  exact ⟨[], Extends.nil rfl, rfl⟩

theorem silent_read {f : EngineState ω → α} : Silent (Eff.read f) :=
  fun _ => (wp_read _ _ _).mpr ⟨[], Extends.nil rfl, rfl⟩

theorem silent_modify {f : EngineState ω → EngineState ω} (h : ∀ s, (f s).log = s.log) :
    Silent (Eff.modify f) :=
  fun s => (wp_modify _ _ _).mpr ⟨[], Extends.nil (h s), rfl⟩

theorem Silent.pure (a : α) : Silent (Pure.pure a : Engine ω α) := Logs.pure rfl

theorem Silent.bind (hm : Silent m) (hk : ∀ a, Silent (k a)) : Silent (m >>= k) :=
  Logs.after_silent hm hk

end Logs

def Returns (m : Engine ω α) : Prop :=
  ∀ s, wp m ⟨fun _ _ => True, fun _ _ => False, fun _ => False⟩ s

section Returns

variable {β : Type} {m : Engine ω α} {k : α → Engine ω β}

theorem Returns.run (h : Returns m) (s : EngineState ω) : ∃ a t, m s = (.ok a, t) := by
  have hs := h s
  unfold wp at hs
  rcases hm : m s with ⟨r, t⟩
  rw [hm] at hs
  cases r with
  | ok a => exact ⟨a, t, rfl⟩
  | err e => cases hs
  | panic => cases hs

theorem Returns.pure (a : α) : Returns (Pure.pure a : Engine ω α) :=
  fun _ => (wp_pure _ _ _).mpr trivial

theorem Returns.bind (hm : Returns m) (hk : ∀ a, Returns (k a)) : Returns (m >>= k) := by
  intro s
  exact (wp_bind _ _ _ _).mpr (wp_mono (hm s) (fun a t _ => hk a t) (fun _ _ => id) fun _ => id)

theorem Returns.ite {c : Prop} [Decidable c] {n : Engine ω α} (hm : c → Returns m)
    (hn : ¬c → Returns n) : Returns (if c then m else n) :=
  fun s => wp_ite.mpr ⟨fun hc => hm hc s, fun hc => hn hc s⟩

theorem Returns.after_checked {o : Option α} {a : α} (h : o = some a) (hk : Returns (k a)) :
    Returns (Eff.checked o >>= k) := by
  subst h
  exact hk

theorem returns_ask {f : ω → α × ω} : Returns (ask f) := by
  intro s
  unfold wp ask
  trivial

theorem returns_tell {deps : EngineDeps ω} {call : EngineCall} : Returns (tell deps call) := by
  intro s
  unfold wp tell
  trivial

/-- After a logged question, only the replies that the seam can give matter. -/
theorem Returns.after_askLogged {f : ω → α × ω} {call : α → EngineCall}
    (hk : ∀ world, Returns (k (f world).1)) : Returns (askLogged f call >>= k) := by
  intro s
  have hasked : wp (askLogged f call)
      ⟨fun a _ => ∃ world, a = (f world).1, fun _ _ => False, fun _ => False⟩ s := by
    unfold wp askLogged
    exact ⟨s.world, rfl⟩
  refine (wp_bind _ _ _ _).mpr (wp_mono hasked ?_ (fun _ _ => id) fun _ => id)
  rintro a t ⟨world, rfl⟩
  exact hk world t

end Returns

end RebalanceEngine
