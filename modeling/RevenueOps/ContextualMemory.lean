import RevenueOps.ThompsonRecompute

/-! What a channel has learned in each context: a Normal posterior for a balance, a time bucket and
a role, which its own windows update and those of the adjacent time buckets pollinate. -/
namespace Thompson

open Arithmetic

variable {F : Type} [Add F] [Sub F] [Mul F] [Div F] [Neg F] [LT F] [LE F] [DecidableLT F]
  [DecidableLE F] [OfScientific F] [F64 F] [F64Functions F]

section Keys

def secondaryExploreBoost : F := 1.25
def ctxPrecisionDecay : F := 0.98

/-- str::split with a colon. -/
def splitColon (key : String) : List String := (key.toList.splitOn ':').map String.ofList

def keyParts (key : String) : List String := if ':' ∈ key.toList then splitColon key else []

def keyTime (key : String) : String := (keyParts key).getD 1 "normal"
def keyRole (key : String) : String := (keyParts key).getD 2 "P"

def timeSimilarity (bucket1 bucket2 : String) : F :=
  if bucket1 = bucket2 then 1.0
  else if (bucket1, bucket2) ∈
    [("low", "normal"), ("normal", "low"), ("normal", "peak"), ("peak", "normal")] then 0.5
  else 0.2

def adjacentTimes : String → List String
  | "low" => ["normal"]
  | "normal" => ["low", "peak"]
  | "peak" => ["normal"]
  | _ => []

def adjacentKeys (contextKey observedTime : String) : List String :=
  match splitColon contextKey with
  | [balance, _, role] =>
    (adjacentTimes observedTime).map fun time => balance ++ ":" ++ time ++ ":" ++ role
  | _ => []

end Keys

section Contexts

abbrev Contexts (F : Type) := List (String × CtxPosterior F)

def context? (contexts : Contexts F) (key : String) : Option (CtxPosterior F) :=
  (contexts.find? fun e => e.1 == key).map Prod.snd

def setContext (key : String) (ctx : CtxPosterior F) : Contexts F → Contexts F
  | [] => []
  | e :: rest => if e.1 = key then (e.1, ctx) :: rest else e :: setContext key ctx rest

/-- A new context starts from the posterior of the channel, a secondary one wider. -/
def initContext (s : GaussianThompsonState F) (contextKey : String) (now : ℤ) : CtxPosterior F :=
  let initStd := if keyRole contextKey = "S" then s.posteriorStd * secondaryExploreBoost
    else s.posteriorStd
  { mean := s.posteriorMean
    precision := 1.0 / F64.max (F64Functions.powf initStd 2.0) (minStd * minStd)
    count := 0
    lastUpdate := now
    wasLegacy3tuple := false }

def revenueWeight (revenueRate : F) : F := F64.min 1.0 ((revenueRate + 1.0) / 100.0)

def obsVariance (s : GaussianThompsonState F) : F :=
  F64.max (minStd * minStd) (F64Functions.powf s.posteriorStd 2.0)

/-- What is left of a precision, never under that of a std of 200. -/
def decayedPrecision (ctx : CtxPosterior F) (now : ℤ) : F :=
  let aged := if 0 < ctx.lastUpdate then
      ctx.precision * halfLife (hoursBetween now ctx.lastUpdate) decayHours
    else ctx.precision
  F64.max (aged * ctxPrecisionDecay) (1.0 / (200.0 * 200.0))

def obsPrecision (s : GaussianThompsonState F) (contextKey timeBucket : String)
    (revenueRate : F) : F :=
  let timeWeight : F := timeSimilarity timeBucket (keyTime contextKey)
  let roleBoost := if keyRole contextKey = "S" then 1.3 else 1.0
  revenueWeight revenueRate * timeWeight * roleBoost / obsVariance s

def blendMean (precision mean obs fee : F) : F :=
  (precision * mean + obs * fee) / (precision + obs)

def ownUpdate (s : GaussianThompsonState F) (contextKey timeBucket : String)
    (fee revenueRate : F) (now : ℤ) (ctx : CtxPosterior F) : CtxPosterior F :=
  let precision := decayedPrecision ctx now
  let obs := obsPrecision s contextKey timeBucket revenueRate
  { mean := blendMean precision ctx.mean obs fee
    precision := precision + obs
    count := ctx.count + 1
    lastUpdate := now
    wasLegacy3tuple := false }

def crossPrecision (s : GaussianThompsonState F) (revenueRate : F) : F :=
  0.1 * revenueWeight revenueRate / obsVariance s

/-- Neither the count nor the time of the adjacent context moves, and nothing of it decays. -/
def crossUpdate (s : GaussianThompsonState F) (fee revenueRate : F) (adj : CtxPosterior F) :
    CtxPosterior F :=
  let cross := crossPrecision s revenueRate
  { mean := blendMean adj.precision adj.mean cross fee
    precision := adj.precision + cross
    count := adj.count
    lastUpdate := adj.lastUpdate
    wasLegacy3tuple := false }

def updateRelatedTimeContexts (s : GaussianThompsonState F) (contextKey : String)
    (fee revenueRate : F) (observedTime : String) (contexts : Contexts F) : Contexts F :=
  (adjacentKeys contextKey observedTime).foldl (fun contexts adjKey =>
    match context? contexts adjKey with
    | some adj => setContext adjKey (crossUpdate s fee revenueRate adj) contexts
    | none => contexts) contexts

/-- More than 130 contexts leave the 104 most used ones; equal counts keep their order. -/
def pruneContexts (contexts : Contexts F) : Contexts F :=
  if 130 < contexts.length then
    (contexts.mergeSort fun a b => decide (b.2.count ≤ a.2.count)).take 104
  else contexts

def ensureContext (s : GaussianThompsonState F) (contextKey : String) (now : ℤ) : Contexts F :=
  match context? s.contextualPosteriors contextKey with
  | some _ => s.contextualPosteriors
  | none => s.contextualPosteriors ++ [(contextKey, initContext s contextKey now)]

def updateContextual (s : GaussianThompsonState F) (contextKey : String) (fee revenueRate : F)
    (timeBucket : String) (now : ℤ) : GaussianThompsonState F :=
  let contexts := ensureContext s contextKey now
  match context? contexts contextKey with
  | none => s
  | some ctx =>
    let updated := setContext contextKey
      (ownUpdate s contextKey timeBucket fee revenueRate now ctx) contexts
    let timeWeight : F := timeSimilarity timeBucket (keyTime contextKey)
    let related := if timeWeight ≤ 1.0 ∧ 1.0 ≤ timeWeight then
        updateRelatedTimeContexts s contextKey fee revenueRate timeBucket updated
      else updated
    { s with contextualPosteriors := pruneContexts related }

end Contexts

end Thompson
