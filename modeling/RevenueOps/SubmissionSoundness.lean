import RevenueOps.WiredEngine

/-! What the class of a submission outcome says about the payments behind it. The class is read off
the one result of an execution, while a submission makes up to nine attempts. -/
namespace SubmissionSoundness

open FallibleState JsonValue RebalanceEngine
open RouteExecutor (ExecutionResult RpcCall RpcFailure PaymentRpc)
open RebalanceExecution PaymentVerdicts WiredEngine RustText UnknownOutcome

variable {ν : Type}

structure Payment where
  hash : String
  calls : List RpcCall

def paymentsOf (attempts : List Attempt) : List Payment :=
  attempts.flatMap fun a => (issued a.calls).map fun hash => ⟨hash, a.calls⟩

def Payment.Completes (p : Payment) : Prop := PaymentVerdicts.Completes p.hash p.calls

def Payment.Fails [SerdeJson] (p : Payment) : Prop := FailsDefinitively p.hash p.calls

def Sound [SerdeJson] : SubmitClass → List Payment → Prop
  | .clean, payments => payments = []
  | .rejected, payments => payments ≠ [] ∧ ∀ p ∈ payments, p.Fails
  | .success, payments => ∃ before p after, payments = before ++ p :: after ∧ p.Completes ∧
    ∀ q ∈ before ++ after, q.Fails ∧ ¬ q.Completes
  | .unknown, _ => True

/-- The last attempt at the amount of the candidate: the first one or its exclusion retry. -/
def lastFull (amountSats : ℤ) (attempts : List Attempt) : Option Attempt :=
  (attempts.filter fun a => a.request.amountSats = amountSats).getLast?

def EndsWith [UnicodeCase] [SerdeJson] (v : Verdict) (attempts : List Attempt) : Prop :=
  ∃ a, attempts.getLast? = some a ∧ verdict a.calls = v

/-- The replies of the node can be told from the one result. No payment is lost; and after a failure
the last attempt at the full amount stopped before its payment when there was no payment at all, and
is labelled as a failed payment when there was one. -/
def Readable [UnicodeCase] [SerdeJson] (amountSats : ℤ) (attempts : List Attempt) : Prop :=
  EndsWith .pending attempts ∨ (∀ a ∈ attempts, ¬ Lost a.calls) ∧
    (EndsWith .completed attempts ∨ ∀ v, lastFull amountSats attempts = some v →
      (verdict v.calls = .before → paymentsOf attempts = []) ∧
      (verdict v.calls = .failed → paymentsOf attempts ≠ []))

section Payments

variable {attempts : List Attempt}

theorem mem_paymentsOf {p : Payment} :
    p ∈ paymentsOf attempts ↔ ∃ a ∈ attempts, p.hash ∈ issued a.calls ∧ p.calls = a.calls := by
  obtain ⟨hash, calls⟩ := p
  simp only [paymentsOf, List.mem_flatMap, List.mem_map, Payment.mk.injEq]
  constructor
  · rintro ⟨a, ha, h, hh, rfl, rfl⟩
    exact ⟨a, ha, hh, rfl⟩
  · rintro ⟨a, ha, hh, rfl⟩
    exact ⟨a, ha, hash, hh, rfl, rfl⟩

theorem paymentsOf_append (before after : List Attempt) :
    paymentsOf (before ++ after) = paymentsOf before ++ paymentsOf after := List.flatMap_append

theorem paymentsOf_singleton (a : Attempt) :
    paymentsOf [a] = (issued a.calls).map fun hash => ⟨hash, a.calls⟩ := by
  simp [paymentsOf]

theorem paymentsOf_eq_nil_iff : paymentsOf attempts = [] ↔ ∀ a ∈ attempts, issued a.calls = [] := by
  simp [paymentsOf]

theorem append_cons_unique {α : Type} {P : α → Prop} {before after init : List α} {p last : α}
    (h : before ++ p :: after = init ++ [last]) (hp : P p) (hinit : ∀ q ∈ init, ¬ P q) :
    before = init ∧ p = last ∧ after = [] := by
  rcases List.eq_nil_or_concat after with rfl | ⟨rest, q, rfl⟩
  · obtain ⟨rfl, hlast⟩ := List.append_inj' h rfl
    exact ⟨rfl, by simpa using hlast, rfl⟩
  · rw [List.concat_eq_append, ← List.cons_append, ← List.append_assoc] at h
    obtain ⟨rfl, -⟩ := List.append_inj' h rfl
    exact absurd hp (hinit p (by simp))

theorem lastFull_eq {amountSats : ℤ} {before rungs : List Attempt} {v : Attempt}
    (hv : v.request.amountSats = amountSats)
    (hrungs : ∀ b ∈ rungs, b.request.amountSats ≠ amountSats) :
    lastFull amountSats (before ++ v :: rungs) = some v := by
  have hnone : rungs.filter (fun a => a.request.amountSats = amountSats) = [] := by
    rw [List.filter_eq_nil_iff]
    intro b hb
    simpa using hrungs b hb
  simp [lastFull, List.filter_append, hv, hnone]

theorem refused_sound [SerdeJson] {r : ExecutionResult} {error : String} (hr : Unpaid r)
    (herror : r.error = some error)
    (hlabel : startsWith error RouteExecutor.nativeSendpayErrorPrefix = false) :
    Sound (classifyExecution r).cls [] := by
  rw [classify_failed hr.1 hr.2 herror, hlabel]
  split
  · rfl
  · trivial

end Payments

section Attempts

variable [UnicodeCase] [SerdeJson] {mode : RouteExecutor.PaymentMode} {a : Attempt}

/-- A failed attempt is read as failed, with a payment or without. -/
theorem verdict_of_unpaid (h : Labels mode (verdict a.calls) a.reply) (hunpaid : Unpaid a.reply) :
    verdict a.calls = .before ∨ verdict a.calls = .failed := by
  cases hv : verdict a.calls with
  | completed =>
    rw [hv] at h
    exact absurd (.inl h.1) hunpaid.not_ends
  | pending =>
    rw [hv] at h
    exact absurd (.inr h.2) hunpaid.not_ends
  | before => exact .inl rfl
  | failed => exact .inr rfl

/-- An attempt of no lost payment has failed definitively with each payment, and conversely. -/
theorem failed_iff_not_lost (h : Native mode a)
    (hfailed : verdict a.calls = .before ∨ verdict a.calls = .failed) :
    (∀ hash ∈ issued a.calls, FailsDefinitively hash a.calls) ↔ ¬ Lost a.calls := by
  rcases h.1.fate with ⟨hunsent, -⟩ | ⟨-, hash, answer, hfate⟩
  · simp [hunsent.sent, hunsent.lost]
  · rw [hfate.sent, List.forall_mem_singleton]
    exact hfate.fails_iff hfailed

theorem not_completes (h : Native mode a)
    (hfailed : verdict a.calls = .before ∨ verdict a.calls = .failed) (hash : String) :
    ¬ PaymentVerdicts.Completes hash a.calls := by
  rcases h.1.fate with ⟨hunsent, -⟩ | ⟨-, own, answer, hfate⟩
  · exact hunsent.completes hash
  · intro hcompletes
    obtain rfl := ((hfate.completes hash).mp hcompletes).1
    rw [hfate.completed_iff.mpr hcompletes] at hfailed
    simp at hfailed

theorem completed_payment (h : Native mode a) (hv : verdict a.calls = .completed) :
    ∃ hash, issued a.calls = [hash] ∧ PaymentVerdicts.Completes hash a.calls ∧ ¬ Lost a.calls := by
  rcases h.1.fate with ⟨-, hno⟩ | ⟨-, hash, answer, hfate⟩
  · exact absurd hv hno
  · have hcompletes := hfate.completed_iff.mp hv
    exact ⟨hash, hfate.sent, hcompletes, hfate.not_lost hcompletes⟩

theorem not_lost_of_unissued (h : Native mode a) (hnone : issued a.calls = []) :
    ¬ Lost a.calls := by
  rcases h.1.fate with ⟨hunsent, -⟩ | ⟨-, hash, answer, hfate⟩
  · exact hunsent.lost
  · rw [hfate.sent] at hnone
    cases hnone

theorem issued_of_dryRun (h : Native .dryRun a) : issued a.calls = [] := by
  rcases h.1.fate with ⟨hunsent, -⟩ | ⟨hmode, -⟩
  · exact hunsent.sent
  · cases hmode

end Attempts

section Runs

variable [UnicodeCase] [SerdeJson] {mode : RouteExecutor.PaymentMode} {attempts : List Attempt}

/-- What the executor and the engine guarantee of the attempts of a call that returned. -/
structure Told (mode : RouteExecutor.PaymentMode) (attempts : List Attempt) : Prop where
  native : ∀ a ∈ attempts, Native mode a
  label : ∀ a ∈ attempts, Labels mode (verdict a.calls) a.reply

theorem not_lost_of_no_payment (h : Told mode attempts) (hnone : paymentsOf attempts = []) :
    ∀ a ∈ attempts, ¬ Lost a.calls := fun a ha =>
  not_lost_of_unissued (h.native a ha) (paymentsOf_eq_nil_iff.mp hnone a ha)

/-- Where every attempt failed, all payments failed definitively unless one is lost. -/
theorem all_fail_iff (h : Told mode attempts) (hunpaid : ∀ a ∈ attempts, Unpaid a.reply) :
    (∀ p ∈ paymentsOf attempts, p.Fails) ↔ ∀ a ∈ attempts, ¬ Lost a.calls := by
  have hattempt : ∀ a ∈ attempts, (∀ hash ∈ issued a.calls, FailsDefinitively hash a.calls) ↔
      ¬ Lost a.calls := fun a ha => failed_iff_not_lost (h.native a ha)
        (verdict_of_unpaid (h.label a ha) (hunpaid a ha))
  constructor
  · intro hfail a ha
    refine (hattempt a ha).mp fun hash hhash => ?_
    exact hfail ⟨hash, a.calls⟩ (mem_paymentsOf.mpr ⟨a, ha, hhash, rfl⟩)
  · intro hlost p hp
    obtain ⟨a, ha, hhash, hcalls⟩ := mem_paymentsOf.mp hp
    unfold Payment.Fails
    rw [hcalls]
    exact (hattempt a ha).mpr (hlost a ha) p.hash hhash

theorem none_complete (h : Told mode attempts) (hunpaid : ∀ a ∈ attempts, Unpaid a.reply) :
    ∀ p ∈ paymentsOf attempts, ¬ p.Completes := by
  intro p hp
  obtain ⟨a, ha, -, hcalls⟩ := mem_paymentsOf.mp hp
  unfold Payment.Completes
  rw [hcalls]
  exact not_completes (h.native a ha) (verdict_of_unpaid (h.label a ha) (hunpaid a ha)) p.hash

theorem not_endsWith (h : Told mode attempts) (hunpaid : ∀ a ∈ attempts, Unpaid a.reply)
    {v : Verdict} (hv : v = .pending ∨ v = .completed) : ¬ EndsWith v attempts := by
  rintro ⟨a, hlast, rfl⟩
  have ha := List.mem_of_getLast? hlast
  rcases verdict_of_unpaid (h.label a ha) (hunpaid a ha) with hb | hb <;> simp [hb] at hv

/-- Where the last attempt completed, the class is right unless an earlier payment is lost. -/
theorem success_sound_iff {before : List Attempt} {a : Attempt} (h : Told mode (before ++ [a]))
    (hunpaid : ∀ b ∈ before, Unpaid b.reply) (hv : verdict a.calls = .completed) :
    Sound .success (paymentsOf (before ++ [a])) ↔ ∀ b ∈ before ++ [a], ¬ Lost b.calls := by
  have hbefore : Told mode before :=
    ⟨fun b hb => h.native b (List.mem_append_left _ hb),
      fun b hb => h.label b (List.mem_append_left _ hb)⟩
  obtain ⟨hash, hissued, hcompletes, hlost⟩ := completed_payment (h.native a (by simp)) hv
  have hpayments : paymentsOf (before ++ [a]) = paymentsOf before ++ [⟨hash, a.calls⟩] := by
    rw [paymentsOf_append, paymentsOf_singleton, hissued]
    rfl
  have hnone := none_complete hbefore hunpaid
  rw [hpayments, List.forall_mem_append, ← all_fail_iff hbefore hunpaid]
  constructor
  · rintro ⟨init, p, rest, hsplit, hp, hothers⟩
    obtain ⟨rfl, rfl, rfl⟩ := append_cons_unique hsplit.symm hp hnone
    refine ⟨fun q hq => (hothers q (List.mem_append_left _ hq)).1, ?_⟩
    exact List.forall_mem_singleton.mpr hlost
  · rintro ⟨hfail, -⟩
    refine ⟨_, _, [], rfl, hcompletes, fun q hq => ?_⟩
    rw [List.append_nil] at hq
    exact ⟨hfail q hq, hnone q hq⟩

/-- Where every attempt failed, the class follows the last attempt at the full amount. -/
theorem failed_sound_iff {amountSats : ℤ} {before rungs : List Attempt} {v : Attempt}
    {r : ExecutionResult} (h : Told mode (before ++ v :: rungs))
    (hunpaid : ∀ b ∈ before ++ v :: rungs, Unpaid b.reply) (hv : v.request.amountSats = amountSats)
    (hrungs : ∀ b ∈ rungs, b.request.amountSats ≠ amountSats) (hshows : Shows r v.reply) :
    Sound (classifyExecution r).cls (paymentsOf (before ++ v :: rungs)) ↔
      Readable amountSats (before ++ v :: rungs) := by
  have hmem : v ∈ before ++ v :: rungs := by simp
  have hlabel := (h.label v hmem).shown hshows.success hshows.pending hshows.error
  have hread : Readable amountSats (before ++ v :: rungs) ↔
      (∀ a ∈ before ++ v :: rungs, ¬ Lost a.calls) ∧
        (verdict v.calls = .before → paymentsOf (before ++ v :: rungs) = []) ∧
        (verdict v.calls = .failed → paymentsOf (before ++ v :: rungs) ≠ []) := by
    unfold Readable
    rw [lastFull_eq hv hrungs]
    simp [not_endsWith h hunpaid]
  rw [hread]
  rcases verdict_of_unpaid (h.label v hmem) (hunpaid v hmem) with hbefore | hfailed
  · rw [hbefore] at hlabel ⊢
    have hlost := not_lost_of_no_payment h
    have hclean : Sound (classifyExecution r).cls (paymentsOf (before ++ v :: rungs)) ↔
        paymentsOf (before ++ v :: rungs) = [] := by
      rcases hlabel.clean with hclass | ⟨rfl, hclass⟩
      · rw [hclass]
        rfl
      · have hnone : paymentsOf (before ++ v :: rungs) = [] :=
          paymentsOf_eq_nil_iff.mpr fun a ha => issued_of_dryRun (h.native a ha)
        simp [hclass, hnone, Sound]
    rw [hclean]
    constructor
    · exact fun hnone => ⟨hlost hnone, fun _ => hnone, by simp⟩
    · exact fun hall => hall.2.1 rfl
  · rw [hfailed] at hlabel ⊢
    rw [hlabel.rejected, ← all_fail_iff h hunpaid]
    simp [Sound, and_comm]

/-- Where the last attempt ended the execution, the class follows that attempt. -/
theorem ended_sound_iff {amountSats : ℤ} {before : List Attempt} {a : Attempt}
    {r : ExecutionResult} (h : Told mode (before ++ [a])) (hunpaid : ∀ b ∈ before, Unpaid b.reply)
    (hends : Ends a.reply) (hshows : Shows r a.reply) :
    Sound (classifyExecution r).cls (paymentsOf (before ++ [a])) ↔
      Readable amountSats (before ++ [a]) := by
  have hmem : a ∈ before ++ [a] := by simp
  have hlast : ∀ v, EndsWith v (before ++ [a]) ↔ verdict a.calls = v := by
    simp [EndsWith]
  have hlabel := (h.label a hmem).shown hshows.success hshows.pending hshows.error
  unfold Readable
  rw [hlast, hlast]
  cases hv : verdict a.calls with
  | completed =>
    rw [hv] at hlabel
    rw [hlabel.success, success_sound_iff h hunpaid hv]
    simp
  | pending =>
    rw [hv] at hlabel
    rw [hlabel.unknown]
    simp [Sound]
  | before =>
    have hreply := h.label a hmem
    rw [hv] at hreply
    exact absurd hends (Unpaid.not_ends ⟨hreply.1, hreply.2.1⟩)
  | failed =>
    have hreply := h.label a hmem
    rw [hv] at hreply
    exact absurd hends (Unpaid.not_ends ⟨hreply.1, hreply.2.1⟩)

/-- The class of a submission is right exactly when the replies of the node can be told from the one
result that it is read off. -/
theorem class_sound_iff (w : Wiring ν) (candidate : RebalanceCandidate) (rebalanceId : ℤ)
    (kw : EngineKwargs) (s : EngineState ν) {r : ExecutionResult} {attempts : List Attempt}
    (h : w.executeCandidate candidate rebalanceId kw s = (.ok r, attempts)) :
    Sound (classifyExecution r).cls (paymentsOf attempts) ↔
      Readable candidate.amountSats attempts := by
  obtain ⟨new, hnew, hnative, hleads⟩ := (adds_executeCandidate w candidate rebalanceId kw).run
    (.start ⟨s.world, []⟩ s.ourId s.reservationNonce s.inflight)
  unfold Wiring.executeCandidate at h
  rw [Prod.mk.injEq] at h
  obtain ⟨hrun, hattempts⟩ := h
  obtain rfl : new = attempts := hnew.symm.trans hattempts
  by_cases hpanic : new.any Attempt.panicked = true
  · rw [if_pos (by rwa [hattempts])] at hrun
    cases hrun
  rw [if_neg (by rwa [hattempts])] at hrun
  rw [hrun] at hleads
  have htold : Told w.mode new := by
    refine ⟨hnative, fun a ha => (hnative a ha).2 ?_⟩
    by_contra hpanicked
    exact hpanic (List.any_eq_true.mpr ⟨a, ha, by simpa using hpanicked⟩)
  cases hleads with
  | refused _ error hunpaid herror hlabel =>
    have hread : Readable candidate.amountSats [] := by
      refine .inr ⟨by simp, .inr fun v hv => ?_⟩
      cases hv
    exact ⟨fun _ => hread, fun _ => refused_sound hunpaid herror hlabel⟩
  | ended before a _ hunpaid hends hshows => exact ended_sound_iff htold hunpaid hends hshows
  | failed before v rungs _ hunpaid hv hrungs hshows =>
    exact failed_sound_iff htold hunpaid hv hrungs hshows

end Runs

section Masked

@[reducible] def failureJson : SerdeJson :=
  ⟨fun _ => some (.obj [("code", .int 204), ("data", .obj [("erring_channel", .str "9x9x9"),
    ("erring_direction", .int 0)]), ("message", .str "failed")]), fun _ => ""⟩

/-- The node bills the first payment, fails it, and then answers the next bill with
an empty object. -/
def emptySecondBill : PaymentRpc ℕ :=
  { invoice := fun _ _ _ bills => (.ok (.obj (if bills = 0 then [("bolt11", .str "lnbc1"),
      ("payment_hash", .str "ab"), ("payment_secret", .str "cd")] else [])), bills + 1)
    sendpay := fun _ _ _ _ bills => (.ok (.obj [("status", .str "pending")]), bills)
    waitsendpay := fun _ _ bills => (.error ⟨"failed"⟩, bills)
    delpay := fun _ _ bills => (.ok (), bills)
    delinvoice := fun _ _ bills => (.ok (), bills) }

/-- Every seam answers at once, and the router always has the same circular route. -/
def circularSeams : EngineDeps ℕ :=
  { config := FeeEnvelope.bonusConfig
    policy := some fun _ bills => (.ok ⟨"dynamic", "enabled"⟩, bills)
    now := fun bills => (0.0, bills)
    tryLock := fun bills => (true, bills)
    getinfoId := fun bills => (.ok "03ff", bills)
    beginCycle := fun bills => (true, bills)
    pricePair := fun _ _ bills => (.ok ⟨true, none, 1, circularRequest.route, 0⟩, bills)
    execute := fun _ bills => (failedResult "" 0, bills)
    insertOrAdoptHistory := fun _ bills => (1, bills)
    reserveBudget := fun _ bills => (none, bills)
    pendingSettlementRows := fun bills => ([], bills)
    listsendpays := fun _ bills => (.ok (.obj []), bills)
    listpeerchannelsFull := fun bills => (.ok (.obj []), bills)
    hasObservations := fun _ bills => (false, bills)
    perform := fun _ bills => bills }

def circularCandidate : RebalanceCandidate :=
  { sourceCandidates := ["1x1x1"]
    toChannel := "2x2x2"
    primarySourcePeerId := "02aa"
    toPeerId := "02bb"
    amountSats := 100
    maxBudgetSats := 1
    maxFeePpm := 0
    expectedProfitSats := 0 }

def circularWiring : Wiring ℕ :=
  { seams := circularSeams
    rpc := emptySecondBill
    mode := .live
    observe := fun _ bills => bills }

def maskedRun : Outcome Empty ExecutionResult × List Attempt :=
  @Wiring.executeCandidate ℕ asciiCase failureJson circularWiring circularCandidate (-1)
    ⟨false, false⟩ (.start 0 "" 0 [])

theorem masked_run_eq : (maskedRun.1.value.map fun r => (classifyExecution r).cls) = some .clean ∧
    (paymentsOf maskedRun.2).map Payment.hash = ["ab"] := by
  constructor
  · decide +kernel
  · decide +kernel

/-- The payment of the first attempt hides behind the retry that never got a bill. -/
theorem masked_payment_reads_clean : ∃ r, maskedRun.1 = .ok r ∧
    ¬ @Sound failureJson (classifyExecution r).cls (paymentsOf maskedRun.2) := by
  obtain ⟨hclass, hpayments⟩ := masked_run_eq
  obtain ⟨r, hr, hclean⟩ := Option.map_eq_some_iff.mp hclass
  refine ⟨r, value_eq_some.mp hr, ?_⟩
  rw [hclean]
  intro hnone
  rw [show paymentsOf maskedRun.2 = [] from hnone] at hpayments
  cases hpayments

/-- The two attempts cannot be told from the result of the second. -/
theorem masked_run_unreadable : ¬ @Readable asciiCase failureJson 100 maskedRun.2 := by
  obtain ⟨hclass, hpayments⟩ := masked_run_eq
  obtain ⟨r, hr, hclean⟩ := Option.map_eq_some_iff.mp hclass
  intro hread
  have hsound := (@class_sound_iff ℕ asciiCase failureJson circularWiring circularCandidate (-1)
    ⟨false, false⟩ (.start 0 "" 0 []) r maskedRun.2 (Prod.ext (value_eq_some.mp hr) rfl)).mpr hread
  rw [hclean] at hsound
  rw [show paymentsOf maskedRun.2 = [] from hsound] at hpayments
  cases hpayments

end Masked

end SubmissionSoundness
