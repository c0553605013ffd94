import RevenueOps.EconLedger
import RevenueOps.IntentRegistry

/-! The governor facade: one decision order over injected delegates, a registry and a ledger.
The delegates act on a world of their own; the calls made to them are kept as a trace. -/
namespace Governor

open FallibleState EconIntents EconLedger IntentRegistry KeyedTable JsonValue

structure AuthorizationToken where
  tokenId : String
  intentId : String
  reservationId : String
  reservedMsat : ℤ
  budgetBucket : String
  issuedAt : ℤ
  arbitrationKey : String
  deriving DecidableEq

structure GovernorDecision where
  authorized : Bool
  token : Option AuthorizationToken
  reasonCode : String
  deriving DecidableEq

def refused (code : Code) : GovernorDecision := ⟨false, none, code.asStr⟩

/-- The injected collaborators. An authority check may fail; the provider of the extended rules
may panic, which reads as no value. -/
structure GovernorFacade (ω : Type) where
  reserveSpend : String → ℤ → String → ω → EconResult Bool × ω
  releaseSpend : String → ω → EconResult Bool × ω
  isPaused : ω → Bool
  authorityCheck : Option (ω → EconResult Bool)
  extendedRulesProvider : Option (ω → Option Bool)

inductive SpendCall where
  | reserved (reservationId : String) (sats : ℤ) (granted : Bool)
  | released (reservationId : String)
  deriving DecidableEq

structure GovernorState (ω : Type) where
  world : ω
  registry : Option Active
  ledger : Option Ledger
  calls : List SpendCall

variable {ω : Type}

abbrev Gov (ω α : Type) := Eff (GovernorState ω) EconError α

/-- No check allows; a check that fails does not. -/
def authorityAllowed (g : GovernorFacade ω) (w : ω) : Bool :=
  match g.authorityCheck with
  | none => true
  | some check =>
    match check w with
    | .ok allowed => allowed
    | .error _ => false

def extended (g : GovernorFacade ω) (w : ω) : Bool :=
  match g.extendedRulesProvider with
  | none => false
  | some provider => (provider w).getD false

def effectiveReservationId (env : IntentEnvelope) (reservationId : Option String) : String :=
  match reservationId with
  | some rid => if rid = "" then env.idempotencyKey else rid
  | none => env.idempotencyKey

/-- The first n bytes of the text as characters, if n is a character boundary. -/
def takeBytes : List Char → ℕ → Option (List Char)
  | _, 0 => some []
  | [], _ + 1 => none
  | c :: cs, n + 1 =>
    if c.utf8Size ≤ n + 1 then (takeBytes cs (n + 1 - c.utf8Size)).map (c :: ·) else none

def tokenIdKey (key : String) : String :=
  match takeBytes key.toList 16 with
  | some cs => String.ofList cs
  | none => key

def conflictEvent (env : IntentEnvelope) (code : Code) (now : ℤ) : LedgerEvent where
  eventType := .intentRejected
  intentId := env.intentId.text
  idempotencyKey := env.idempotencyKey
  cycleId := env.snapshotId
  atTime := now
  amounts := ∅
  details := .obj [("arbitration", .bool true), ("reason_code", .str code.asStr)]

def authorizedEvent (env : IntentEnvelope) (now : ℤ) : LedgerEvent where
  eventType := .intentAuthorized
  intentId := env.intentId.text
  idempotencyKey := env.idempotencyKey
  cycleId := env.snapshotId
  atTime := now
  amounts := (∅ : Amounts).insert "max_cost_msat" env.maxCostMsat.value
  details := .obj []

def reservedEvent (env : IntentEnvelope) (rid : String) (reservedMsat now : ℤ) : LedgerEvent where
  eventType := .budgetReserved
  intentId := env.intentId.text
  idempotencyKey := rid
  cycleId := env.snapshotId
  atTime := now
  amounts := (∅ : Amounts).insert "reserved_msat" reservedMsat
  details := .obj []

def releasedEvent (token : AuthorizationToken) (now : ℤ) : LedgerEvent where
  eventType := .reservationReleased
  intentId := token.intentId
  idempotencyKey := token.reservationId
  cycleId := "release"
  atTime := now
  amounts := (∅ : Amounts).insert "released_msat" token.reservedMsat
  details := .obj []

/-- Append to the ledger if one is attached, and hand the result on. -/
def appendEvent (e : LedgerEvent) : Gov ω Unit := fun s =>
  match s.ledger with
  | none => (.ok (), s)
  | some l =>
    match append e l with
    | (.ok _, l) => (.ok (), { s with ledger := some l })
    | (.error err, l) => (.err err, { s with ledger := some l })

/-- Register with the attached registry; its answer is the blocking rule. -/
def register (g : GovernorFacade ω) (env : IntentEnvelope) (now : ℤ) : Gov ω (Option Code) :=
  fun s =>
    match s.registry with
    | none => (.ok none, s)
    | some a =>
      let r := checkAndRegister a env now (extended g s.world)
      (.ok r.1, { s with registry := some r.2 })

def callReserve (g : GovernorFacade ω) (rid : String) (sats : ℤ) (bucket : String) : Gov ω Bool :=
  fun s =>
    match g.reserveSpend rid sats bucket s.world with
    | (.ok granted, w) =>
      (.ok granted, { s with world := w, calls := s.calls ++ [.reserved rid sats granted] })
    | (.error e, w) =>
      (.err e, { s with world := w, calls := s.calls ++ [.reserved rid sats false] })

def callRelease (g : GovernorFacade ω) (rid : String) : Gov ω Bool := fun s =>
  match g.releaseSpend rid s.world with
  | (.ok released, w) =>
    (.ok released, { s with world := w, calls := s.calls ++ [.released rid] })
  | (.error e, w) => (.err e, { s with world := w })

def tokenFor (env : IntentEnvelope) (rid : String) (reservedMsat now : ℤ) :
    AuthorizationToken where
  tokenId := "auth-" ++ tokenIdKey env.idempotencyKey
  intentId := env.intentId.text
  reservationId := rid
  reservedMsat := reservedMsat
  budgetBucket := env.budgetBucket
  issuedAt := now
  arbitrationKey := env.idempotencyKey

def recordGrant (env : IntentEnvelope) (rid : String) (reserveSats now : ℤ) :
    Gov ω GovernorDecision := do
  let reservedMsat ← Eff.ofExcept (EconLedger.checkedI64 (reserveSats * 1000)
    s!"governor authorize: reserve_sats * 1000 overflow: {reserveSats}")
  appendEvent (authorizedEvent env now)
  if 0 < reservedMsat then appendEvent (reservedEvent env rid reservedMsat now)
  pure ⟨true, some (tokenFor env rid reservedMsat now), ""⟩

def reserveAndRecord (g : GovernorFacade ω) (env : IntentEnvelope) (now : ℤ)
    (reservationId : Option String) : Gov ω GovernorDecision := do
  let rid := effectiveReservationId env reservationId
  let reserveSats := env.maxCostMsat.toSatsCeil
  if 0 < reserveSats then
    if ← callReserve g rid reserveSats env.budgetBucket then
      recordGrant env rid reserveSats now
    else pure (refused .budgetExhausted)
  else recordGrant env rid reserveSats now

/-- GovernorFacade::authorize, in the frozen decision order. -/
def authorize (g : GovernorFacade ω) (env : IntentEnvelope) (now : ℤ)
    (reservationId : Option String) : Gov ω GovernorDecision := do
  if ← Eff.read fun s => g.isPaused s.world then pure (refused .paused) else
  if ← Eff.read fun s => !authorityAllowed g s.world then
    pure (refused .authorityLevelBlocked) else
  let time ← Eff.ofExcept (UnixTime.new now)
  if isExpired env time then pure (refused .intentStale) else
  match ← register g env now with
  | some code => do
    -- The audit append is best effort.
    let _ ← Eff.attempt (appendEvent (conflictEvent env code now))
    pure (refused code)
  | none => reserveAndRecord g env now reservationId

def releaseKey (token : AuthorizationToken) : String :=
  if token.arbitrationKey ≠ "" then token.arbitrationKey else token.reservationId

def freeSlot (key : String) : Gov ω Unit :=
  Eff.modify fun s => { s with registry := s.registry.map fun a => IntentRegistry.release a key }

def release (g : GovernorFacade ω) (token : AuthorizationToken) (now : ℤ) : Gov ω Bool := do
  freeSlot (releaseKey token)
  let released ← callRelease g token.reservationId
  appendEvent (releasedEvent token now)
  pure released

section Steps

variable {s : GovernorState ω}

theorem wp_appendEvent {e : LedgerEvent} {Q : Post (GovernorState ω) EconError Unit}
    (hnone : s.ledger = none → Q.ok () s)
    (hok : ∀ l, s.ledger = some l → ¬AppendFails e l →
      Q.ok () { s with ledger := some ⟨l.events ++ [e], l.faults.tail⟩ })
    (herr : ∀ l err faults, s.ledger = some l → AppendFails e l →
      Q.err err { s with ledger := some ⟨l.events, faults⟩ }) : wp (appendEvent e) Q s := by
  unfold wp appendEvent
  cases hl : s.ledger with
  | none => exact hnone hl
  | some l =>
    by_cases hf : AppendFails e l
    · obtain ⟨err, faults, ha⟩ := append_fails hf
      simp only [ha]
      exact herr l err faults hl hf
    · simp only [append_ok hf]
      exact hok l hl hf

theorem wp_register {g : GovernorFacade ω} {env : IntentEnvelope} {now : ℤ}
    {Q : Post (GovernorState ω) EconError (Option Code)}
    (hnone : s.registry = none → Q.ok none s)
    (hfree : ∀ a, s.registry = some a → conflict (prune a now) env (extended g s.world) = none →
      Q.ok none { s with registry := some ((prune a now).insertOrReplace env) })
    (hblock : ∀ a code, s.registry = some a →
      conflict (prune a now) env (extended g s.world) = some code →
      Q.ok (some code) { s with registry := some (prune a now) }) :
    wp (register g env now) Q s := by
  unfold wp register
  cases hr : s.registry with
  | none => exact hnone hr
  | some a =>
    simp only [checkAndRegister]
    cases hc : conflict (prune a now) env (extended g s.world) with
    | none => exact hfree a hr hc
    | some code => exact hblock a code hr hc

theorem wp_callReserve {g : GovernorFacade ω} {rid : String} {sats : ℤ} {bucket : String}
    {Q : Post (GovernorState ω) EconError Bool}
    (hok : ∀ granted w, g.reserveSpend rid sats bucket s.world = (.ok granted, w) →
      Q.ok granted { s with world := w, calls := s.calls ++ [.reserved rid sats granted] })
    (herr : ∀ e w, g.reserveSpend rid sats bucket s.world = (.error e, w) →
      Q.err e { s with world := w, calls := s.calls ++ [.reserved rid sats false] }) :
    wp (callReserve g rid sats bucket) Q s := by
  unfold wp callReserve
  rcases h : g.reserveSpend rid sats bucket s.world with ⟨_ | granted, w⟩
  · exact herr _ w h
  · exact hok granted w h

theorem wp_callRelease {g : GovernorFacade ω} {rid : String}
    {Q : Post (GovernorState ω) EconError Bool}
    (hok : ∀ released w, g.releaseSpend rid s.world = (.ok released, w) →
      Q.ok released { s with world := w, calls := s.calls ++ [.released rid] })
    (herr : ∀ e w, g.releaseSpend rid s.world = (.error e, w) → Q.err e { s with world := w }) :
    wp (callRelease g rid) Q s := by
  unfold wp callRelease
  rcases h : g.releaseSpend rid s.world with ⟨_ | released, w⟩
  · exact herr _ w h
  · exact hok released w h

end Steps

structure GatesOpen (g : GovernorFacade ω) (env : IntentEnvelope) (now : ℤ) (s : GovernorState ω) :
    Prop where
  notPaused : g.isPaused s.world = false
  allowed : authorityAllowed g s.world = true
  time : 0 ≤ now ∧ now ≤ u63Max
  live : now < env.expiresAt.value

def NoConflict (g : GovernorFacade ω) (env : IntentEnvelope) (now : ℤ) (s : GovernorState ω) :
    Prop :=
  ∀ a, s.registry = some a → conflict (prune a now) env (extended g s.world) = none

def registered (env : IntentEnvelope) (now : ℤ) (s : GovernorState ω) : Option Active :=
  s.registry.map fun a => (prune a now).insertOrReplace env

def reserveReply (g : GovernorFacade ω) (env : IntentEnvelope) (reservationId : Option String)
    (s : GovernorState ω) : EconResult Bool × ω :=
  g.reserveSpend (effectiveReservationId env reservationId) env.maxCostMsat.toSatsCeil
    env.budgetBucket s.world

/-- One of the steps after the hold fails: the expansion to msat or a ledger append. -/
def RecordFails (env : IntentEnvelope) (rid : String) (now : ℤ) (l : Option Ledger) : Prop :=
  let sats := env.maxCostMsat.toSatsCeil
  u63Max < sats * 1000 ∨ ∃ a, l = some a ∧ (AppendFails (authorizedEvent env now) a ∨
    (0 < sats ∧ AppendFails (reservedEvent env rid (sats * 1000) now) ⟨[], a.faults.tail⟩))

def grantEvents (env : IntentEnvelope) (rid : String) (now : ℤ) : List LedgerEvent :=
  let sats := env.maxCostMsat.toSatsCeil
  authorizedEvent env now :: if 0 < sats then [reservedEvent env rid (sats * 1000) now] else []

def Recorded (env : IntentEnvelope) (rid : String) (now : ℤ) : Option Ledger → Option Ledger → Prop
  | none, none => True
  | some a, some b => b.events = a.events ++ grantEvents env rid now
  | _, _ => False

def grantedDecision (env : IntentEnvelope) (rid : String) (now : ℤ) : GovernorDecision :=
  ⟨true, some (tokenFor env rid (env.maxCostMsat.toSatsCeil * 1000) now), ""⟩

inductive RecordEffect (env : IntentEnvelope) (rid : String) (now : ℤ) (s : GovernorState ω) :
    Outcome EconError GovernorDecision → GovernorState ω → Prop where
  | failed (e : EconError) (l : Option Ledger) : RecordFails env rid now s.ledger →
      RecordEffect env rid now s (.err e) { s with ledger := l }
  | granted (l : Option Ledger) : ¬RecordFails env rid now s.ledger →
      Recorded env rid now s.ledger l →
      RecordEffect env rid now s (.ok (grantedDecision env rid now)) { s with ledger := l }

theorem recordGrant_effect {env : IntentEnvelope} {rid : String} {now : ℤ} (s : GovernorState ω) :
    wp (recordGrant env rid env.maxCostMsat.toSatsCeil now)
      (Post.ofRel (RecordEffect env rid now s)) s := by
  have hnonneg := toSatsCeil_nonneg env.maxCostMsat
  unfold recordGrant
  rw [wp_bind, wp_ofExcept]
  constructor
  · intro msat hmsat
    have hle : env.maxCostMsat.toSatsCeil * 1000 ≤ u63Max ∧
        msat = env.maxCostMsat.toSatsCeil * 1000 := by
      unfold EconLedger.checkedI64 at hmsat
      split at hmsat
      · rename_i h
        exact ⟨h.2, (Except.ok.inj hmsat).symm⟩
      · simp at hmsat
    obtain ⟨hle, rfl⟩ := hle
    simp only [Post.ofOk]
    rw [wp_bind]
    apply wp_appendEvent
    · intro hl
      have hok : ¬RecordFails env rid now s.ledger := by
        simp [RecordFails, hl]
        omega
      have hdone : RecordEffect env rid now s (.ok (grantedDecision env rid now)) s :=
        .granted (l := s.ledger) hok (by simp [Recorded, hl])
      simp only [Post.ofOk]
      split
      · rw [wp_bind]
        apply wp_appendEvent
        · exact fun _ => (wp_pure ..).mpr hdone
        · simp [hl]
        · simp [hl]
      · exact (wp_pure ..).mpr hdone
    · intro l hl hf
      simp only [Post.ofOk]
      split
      · rename_i hpos
        have hsats : 0 < env.maxCostMsat.toSatsCeil := by omega
        rw [wp_bind]
        apply wp_appendEvent
        · simp
        · rintro l' hl' hf'
          obtain rfl := Option.some.inj hl'
          refine (wp_pure ..).mpr (.granted _ ?_ ?_)
          · rintro (h | ⟨a, ha, h | h⟩)
            · omega
            · exact hf (Option.some.inj (ha.symm.trans hl) ▸ h)
            · exact hf' (Option.some.inj (ha.symm.trans hl) ▸ h.2)
          · simp [Recorded, hl, grantEvents, hsats]
        · rintro l' err faults hl' hf'
          obtain rfl := Option.some.inj hl'
          exact .failed _ _ (Or.inr ⟨l, hl, Or.inr ⟨hsats, hf'⟩⟩)
      · rename_i hzero
        have hsats : ¬0 < env.maxCostMsat.toSatsCeil := by omega
        refine (wp_pure ..).mpr (.granted _ ?_ ?_)
        · rintro (h | ⟨a, ha, h | h⟩)
          · omega
          · exact hf (Option.some.inj (ha.symm.trans hl) ▸ h)
          · exact hsats h.1
        · simp [Recorded, hl, grantEvents, hsats]
    · intro l err faults hl hf
      exact .failed _ _ (Or.inr ⟨l, hl, Or.inl hf⟩)
  · intro e he
    refine .failed _ s.ledger (Or.inl ?_)
    unfold EconLedger.checkedI64 at he
    split at he
    · simp at he
    · rename_i h
      unfold u63Max
      omega

def NotAuthorized (r : Outcome EconError GovernorDecision) : Prop :=
  (∃ code, r = .ok (refused code)) ∨ ∃ e, r = .err e

def ReserveRefusal (x : EconResult Bool) (r : Outcome EconError GovernorDecision) : Prop :=
  (x = .ok false ∧ r = .ok (refused .budgetExhausted)) ∨ ∃ e, x = .error e ∧ r = .err e

theorem ReserveRefusal.not_authorized {x : EconResult Bool}
    {r : Outcome EconError GovernorDecision} (h : ReserveRefusal x r) : NotAuthorized r := by
  rcases h with ⟨-, rfl⟩ | ⟨e, -, rfl⟩
  · exact Or.inl ⟨_, rfl⟩
  · exact Or.inr ⟨e, rfl⟩

theorem ReserveRefusal.ne {x : EconResult Bool} {r : Outcome EconError GovernorDecision}
    (h : ReserveRefusal x r) : x ≠ .ok true := by
  rcases h with ⟨rfl, -⟩ | ⟨e, rfl, -⟩ <;> simp

def Noted (e : LedgerEvent) : Option Ledger → Option Ledger → Prop
  | none, none => True
  | some a, some b => b.events = a.events ∨ b.events = a.events ++ [e]
  | _, _ => False

/-- The state in which the grant is recorded: the slot is taken and the budget is held. -/
def Held (g : GovernorFacade ω) (env : IntentEnvelope) (now : ℤ) (reservationId : Option String)
    (s t : GovernorState ω) : Prop :=
  let sats := env.maxCostMsat.toSatsCeil
  let rid := effectiveReservationId env reservationId
  (0 < sats ∧ ∃ w, reserveReply g env reservationId s = (.ok true, w) ∧
      t = { s with
        registry := registered env now s
        world := w
        calls := s.calls ++ [.reserved rid sats true] }) ∨
    (sats = 0 ∧ t = { s with registry := registered env now s })

inductive AuthorizeEffect (g : GovernorFacade ω) (env : IntentEnvelope) (now : ℤ)
    (reservationId : Option String) (s : GovernorState ω) :
    Outcome EconError GovernorDecision → GovernorState ω → Prop where
  | gated (r) : ¬GatesOpen g env now s → NotAuthorized r →
      AuthorizeEffect g env now reservationId s r s
  | conflict (code : Code) (a : Active) (l : Option Ledger) : GatesOpen g env now s →
      s.registry = some a → conflict (prune a now) env (extended g s.world) = some code →
      Noted (conflictEvent env code now) s.ledger l →
      AuthorizeEffect g env now reservationId s (.ok (refused code))
        { s with registry := some (prune a now), ledger := l }
  | notReserved (r) (x : EconResult Bool) (w : ω) : GatesOpen g env now s → NoConflict g env now s →
      0 < env.maxCostMsat.toSatsCeil → reserveReply g env reservationId s = (x, w) →
      ReserveRefusal x r →
      AuthorizeEffect g env now reservationId s r
        { s with
          registry := registered env now s
          world := w
          calls := s.calls ++ [.reserved (effectiveReservationId env reservationId)
            env.maxCostMsat.toSatsCeil false] }
  | recorded (r) (t u : GovernorState ω) : GatesOpen g env now s → NoConflict g env now s →
      Held g env now reservationId s t →
      RecordEffect env (effectiveReservationId env reservationId) now t r u →
      AuthorizeEffect g env now reservationId s r u

private theorem reserveAndRecord_effect {g : GovernorFacade ω} {env : IntentEnvelope} {now : ℤ}
    {reservationId : Option String} {s t : GovernorState ω} (hopen : GatesOpen g env now s)
    (hfree : NoConflict g env now s) (ht : t = { s with registry := registered env now s }) :
    wp (reserveAndRecord g env now reservationId)
      (Post.ofRel (AuthorizeEffect g env now reservationId s)) t := by
  unfold reserveAndRecord
  have hrecord : ∀ u, Held g env now reservationId s u →
      wp (recordGrant env (effectiveReservationId env reservationId)
        env.maxCostMsat.toSatsCeil now)
        (Post.ofRel (AuthorizeEffect g env now reservationId s)) u := by
    intro u hu
    rw [wp_ofRel]
    exact .recorded _ u _ hopen hfree hu (wp_ofRel.mp (recordGrant_effect u))
  rw [wp_ite]
  constructor
  · intro hpos
    rw [wp_bind]
    apply wp_callReserve
    · intro granted w hw
      have hreply : reserveReply g env reservationId s = (.ok granted, w) := by
        rw [ht] at hw
        exact hw
      simp only [Post.ofOk]
      cases granted with
      | true => exact hrecord _ (Or.inl ⟨hpos, w, hreply, by rw [ht]⟩)
      | false =>
        simp only [Bool.false_eq_true, if_false, wp_pure]
        subst ht
        exact .notReserved _ _ w hopen hfree hpos hreply (Or.inl ⟨rfl, rfl⟩)
    · intro e w hw
      have hreply : reserveReply g env reservationId s = (.error e, w) := by
        rw [ht] at hw
        exact hw
      subst ht
      exact .notReserved _ _ w hopen hfree hpos hreply (Or.inr ⟨e, rfl, rfl⟩)
  · intro hzero
    have := toSatsCeil_nonneg env.maxCostMsat
    exact hrecord t (Or.inr ⟨by omega, ht⟩)

theorem authorize_effect (g : GovernorFacade ω) (env : IntentEnvelope) (now : ℤ)
    (reservationId : Option String) (s : GovernorState ω) :
    AuthorizeEffect g env now reservationId s (authorize g env now reservationId s).1
      (authorize g env now reservationId s).2 := by
  refine wp_ofRel.mp ?_
  have hgated : ∀ r, ¬GatesOpen g env now s → NotAuthorized r →
      AuthorizeEffect g env now reservationId s r s := fun r => .gated r
  unfold authorize
  rw [wp_bind, wp_read]
  simp only [Post.ofOk]
  rw [wp_ite]
  constructor
  · intro hp
    rw [wp_pure]
    exact hgated _ (fun h => by simp [h.notPaused] at hp) (Or.inl ⟨_, rfl⟩)
  intro hp
  rw [wp_bind, wp_read]
  simp only [Post.ofOk]
  rw [wp_ite]
  constructor
  · intro ha
    rw [wp_pure]
    exact hgated _ (fun h => by simp [h.allowed] at ha) (Or.inl ⟨_, rfl⟩)
  intro ha
  rw [wp_bind, wp_ofExcept]
  constructor
  · intro time ht
    have hvalue := UnixTime.new_ok_iff.mp ht
    simp only [Post.ofOk]
    rw [wp_ite]
    constructor
    · intro hexp
      rw [wp_pure]
      refine hgated _ (fun h => ?_) (Or.inl ⟨_, rfl⟩)
      have := h.live
      simp [isExpired, hvalue] at hexp
      omega
    intro hexp
    have hopen : GatesOpen g env now s := by
      refine ⟨by simpa using hp, by simpa using ha, ?_, ?_⟩
      · rw [← hvalue]
        exact ⟨time.nonneg, time.bounded⟩
      · simp [isExpired, hvalue] at hexp
        omega
    rw [wp_bind]
    apply wp_register
    · intro hr
      have hsame : registered env now s = s.registry := by simp [registered, hr]
      exact reserveAndRecord_effect hopen (fun a h => by simp [hr] at h) (by rw [hsame])
    · intro a hr hc
      refine reserveAndRecord_effect hopen (fun b h => ?_) (by simp [registered, hr])
      obtain rfl := Option.some.inj (hr.symm.trans h)
      exact hc
    · intro a code hr hc
      simp only [Post.ofOk]
      rw [wp_bind, wp_attempt]
      apply wp_appendEvent
      · intro hl
        refine (wp_pure ..).mpr (.conflict code a s.ledger hopen hr hc ?_)
        rw [show s.ledger = none from hl]
        trivial
      · intro l hl _
        refine (wp_pure ..).mpr (.conflict code a _ hopen hr hc ?_)
        rw [show s.ledger = some l from hl]
        exact Or.inr rfl
      · intro l err faults hl _
        refine (wp_pure ..).mpr (.conflict code a _ hopen hr hc ?_)
        rw [show s.ledger = some l from hl]
        exact Or.inl rfl
  · intro e he
    refine hgated _ (fun h => ?_) (Or.inr ⟨e, rfl⟩)
    have := UnixTime.new_error_iff.mp ⟨e, he⟩
    have := h.time
    omega

/-- What one release call can do. The slot is freed before the delegate is asked, so it stays
freed when the delegate or the ledger fails. -/
inductive ReleaseEffect (g : GovernorFacade ω) (token : AuthorizationToken) (now : ℤ)
    (s : GovernorState ω) : Outcome EconError Bool → GovernorState ω → Prop where
  | notReleased (e : EconError) (w : ω) :
      g.releaseSpend token.reservationId s.world = (.error e, w) →
      ReleaseEffect g token now s (.err e)
        { s with
          registry := s.registry.map fun a => IntentRegistry.release a (releaseKey token)
          world := w }
  | released (b : Bool) (w : ω) (l : Option Ledger) :
      g.releaseSpend token.reservationId s.world = (.ok b, w) →
      (∀ a, s.ledger = some a → ∃ c, l = some c ∧
        c.events = a.events ++ [releasedEvent token now]) → (s.ledger = none → l = none) →
      ReleaseEffect g token now s (.ok b)
        { s with
          registry := s.registry.map fun a => IntentRegistry.release a (releaseKey token)
          world := w
          ledger := l
          calls := s.calls ++ [.released token.reservationId] }
  | notRecorded (e : EconError) (b : Bool) (w : ω) (l : Option Ledger) :
      g.releaseSpend token.reservationId s.world = (.ok b, w) →
      ReleaseEffect g token now s (.err e)
        { s with
          registry := s.registry.map fun a => IntentRegistry.release a (releaseKey token)
          world := w
          ledger := l
          calls := s.calls ++ [.released token.reservationId] }

theorem release_effect (g : GovernorFacade ω) (token : AuthorizationToken) (now : ℤ)
    (s : GovernorState ω) :
    ReleaseEffect g token now s (release g token now s).1 (release g token now s).2 := by
  refine wp_ofRel.mp ?_
  unfold release freeSlot
  rw [wp_bind, wp_modify]
  simp only [Post.ofOk]
  rw [wp_bind]
  apply wp_callRelease
  · intro b w hw
    simp only [Post.ofOk]
    rw [wp_bind]
    apply wp_appendEvent
    · intro hl
      exact (wp_pure ..).mpr (.released b w s.ledger hw (by simp [show s.ledger = none from hl])
        fun h => h)
    · intro l hl _
      refine (wp_pure ..).mpr (.released b w _ hw ?_ (by simp [show s.ledger = some l from hl]))
      intro a ha
      obtain rfl := Option.some.inj (ha.symm.trans hl)
      exact ⟨_, rfl, rfl⟩
    · intro l err faults hl _
      exact .notRecorded err b w _ hw
  · intro e w hw
    exact .notReleased e w hw

end Governor
