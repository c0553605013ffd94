import RevenueOps.FeeMode
import RevenueOps.KeyedTable

/-! Process boots that resolve their startup mode over one store and one consumed directory. Each
call to the filesystem or the store is a step of its own, and between two steps of one boot the
others, the operator, a crash or the loss of records can come. -/
namespace CutoverBoots

open CutoverArms FeeMode

/-- What one boot is started with. The ledger is there or not; the boots that have it share it. -/
structure StartupModeInputs where
  flags : ModeFlags
  cutoverArm : Option (Place × RunningIdentity)
  state : FeeOwner.FeeStateSnapshot
  seedBinding : FeeRunway.SeedBindingState
  rustStateStoreConfigured : Bool
  nonceLedger : Bool
  now : ℤ

inductive StartupModeDenyReason where
  | missingRustState (mode : String)
  | armInvalid (reason : CutoverArmDenyReason)
  | mode (reason : FeeModeDenyReason)

structure ConsumedNonce where
  nonce : String
  consumedAt : ℤ
  sourceCommit : String
  binarySha256 : String
  armExpiresAt : ℤ
  deriving DecidableEq

abbrev NonceTable := KeyedTable.Table ConsumedNonce String ConsumedNonce.nonce

/-- INSERT OR IGNORE: whether the row is new. -/
def insertConsumedNonce (nonces : NonceTable) (row : ConsumedNonce) : Bool × NonceTable :=
  match nonces.insert? row with
  | some after => (true, after)
  | none => (false, nonces)

abbrev Files := Place → Option ArmFile

def Files.move (files : Files) (source target : Place) : Files :=
  match files source with
  | some file => Function.update (Function.update files source none) target (some file)
  | none => files

/-- renameat_with NOREPLACE, where nothing else fails. -/
def renameNoReplace (files : Files) (source target : Place) :
    Except CutoverArmDenyReason Files :=
  if files source = none then
    .error (.consumeFailed (.rename "No such file or directory (os error 2)"))
  else if files target ≠ none then .error .reusedNonce
  else .ok (files.move source target)

abbrev Resolution := Except StartupModeDenyReason ValidatedFeeMode

inductive Phase where
  | start
  | located
  | validated (arm : ValidatedArm)
  | burned (arm : ValidatedArm)
  | moved (arm : ValidatedArm)
  | resolved (result : Resolution)
  | crashed

/-- The names that were moved into the consumed directory since it was last synced are kept with
where they came from. -/
structure World (β : Type) where
  files : Files
  nonces : NonceTable
  unsynced : List (String × Place)
  boots : β → Phase

/-- What comes back from the store: its answer, an error with nothing done, or an error for the
answer alone. -/
inductive StoreReply where
  | answered
  | unreachable (error : String)
  | replyLost (error : String)

inductive RenameFault where
  | createDir (error : String)
  | errno (error : String)

def RenameFault.failure : RenameFault → ConsumeFailure
  | createDir error => .consumedDir error
  | errno error => .rename error

inductive SyncFault where
  | reopen (error : String)
  | fsync (error : String)

def SyncFault.failure : SyncFault → ConsumeFailure
  | reopen error => .reopen error
  | fsync error => .fsync error

inductive Event (β : Type) where
  | begin (b : β) (fault : Option String)
  | read (b : β) (fault : Option ReadFault)
  | insert (b : β) (reply : StoreReply)
  | rename (b : β) (fault : Option RenameFault)
  | sync (b : β) (fault : Option SyncFault)
  | crash (b : β)
  | powerLoss (undone : String → Bool)
  | operator (files : Files)
  | loseNonces (lost : ConsumedNonce → Bool)

def Event.boot : Event β → Option β
  | begin b _ | read b _ | insert b _ | rename b _ | sync b _ => some b
  | _ => none

def refused (reason : CutoverArmDenyReason) : Phase := .resolved (.error (.armInvalid reason))

namespace StartupModeInputs

variable (inputs : StartupModeInputs)

def missingRustState : Option String :=
  if (inputs.flags.feeStatefulShadow || inputs.flags.feeBroadcast) &&
      !inputs.rustStateStoreConfigured then
    some (if inputs.flags.feeBroadcast then "live fee authority mode"
      else "autonomous fee shadow mode")
  else none

def decideMode (arm : Option LiveSessionArm) : Phase :=
  .resolved ((validateFeeMode inputs.flags arm inputs.state inputs.seedBinding).mapError .mode)

def begin (files : Files) (fault : Option String) : Phase :=
  match inputs.missingRustState, inputs.cutoverArm with
  | some mode, _ => .resolved (.error (.missingRustState mode))
  | none, none => inputs.decideMode none
  | none, some (armPath, _) =>
    match lookUp (files armPath) fault with
    | .ok () => .located
    | .error reason => refused reason

def read (parseArm : String → Except String CutoverArm) (files : Files)
    (fault : Option ReadFault) : Phase :=
  match inputs.cutoverArm with
  | none => .located
  | some (armPath, identity) =>
    match openAndValidate parseArm (files armPath) fault identity with
    | .error reason => refused reason
    | .ok arm =>
      if inputs.nonceLedger then .validated ⟨arm, armPath⟩
      else refused (.consumeFailed .noLedger)

def nonceRow (arm : CutoverArm) : ConsumedNonce :=
  ⟨arm.nonce, inputs.now, arm.sourceCommit, arm.binarySha256, arm.expiresAt⟩

end StartupModeInputs

section Steps

variable [DecidableEq β] (parseArm : String → Except String CutoverArm)
  (inputs : β → StartupModeInputs)

def World.set (w : World β) (b : β) (p : Phase) : World β :=
  { w with boots := Function.update w.boots b p }

def insertNext (w : World β) (b : β) (arm : ValidatedArm) : StoreReply → World β
  | .answered =>
    let (inserted, nonces) := insertConsumedNonce w.nonces ((inputs b).nonceRow arm.arm)
    { w.set b (if inserted then .burned arm else refused .reusedNonce) with nonces := nonces }
  | .unreachable error => w.set b (refused (.consumeFailed (.insertFailed error)))
  | .replyLost error =>
    { w.set b (refused (.consumeFailed (.insertFailed error))) with
      nonces := (insertConsumedNonce w.nonces ((inputs b).nonceRow arm.arm)).2 }

def renameNext (w : World β) (b : β) (arm : ValidatedArm) : Option RenameFault → World β
  | some fault => w.set b (refused (.consumeFailed fault.failure))
  | none =>
    match renameNoReplace w.files arm.armPath (.consumed arm.arm.nonce) with
    | .error reason => w.set b (refused reason)
    | .ok files =>
      { w.set b (.moved arm) with
        files := files
        unsynced := (arm.arm.nonce, arm.armPath) :: w.unsynced }

def syncNext (w : World β) (b : β) (arm : ValidatedArm) : Option SyncFault → World β
  | some fault => w.set b (refused (.consumeFailed fault.failure))
  | none =>
    { w.set b ((inputs b).decideMode (some (sessionOf arm.arm))) with unsynced := [] }

def Phase.stopped : Phase → Phase
  | start => start
  | resolved result => resolved result
  | _ => crashed

/-- The renames that no sync made durable may be undone. -/
def undo (undone : String → Bool) (unsynced : List (String × Place)) (files : Files) : Files :=
  unsynced.foldl
    (fun files move => if undone move.1 then files.move (.consumed move.1) move.2 else files) files

/-- A step that its boot is not ready for changes nothing. -/
def next (w : World β) : Event β → World β
  | .begin b fault =>
    match w.boots b with
    | .start => w.set b ((inputs b).begin w.files fault)
    | _ => w
  | .read b fault =>
    match w.boots b with
    | .located => w.set b ((inputs b).read parseArm w.files fault)
    | _ => w
  | .insert b reply =>
    match w.boots b with
    | .validated arm => insertNext inputs w b arm reply
    | _ => w
  | .rename b fault =>
    match w.boots b with
    | .burned arm => renameNext w b arm fault
    | _ => w
  | .sync b fault =>
    match w.boots b with
    | .moved arm => syncNext inputs w b arm fault
    | _ => w
  | .crash b => w.set b (w.boots b).stopped
  | .powerLoss undone =>
    { w with
      files := undo undone w.unsynced w.files
      unsynced := []
      boots := fun b => (w.boots b).stopped }
  | .operator files => { w with files := files }
  | .loseNonces lost => { w with nonces := w.nonces.deleteWhere lost }

def after (w : World β) (es : List (Event β)) : World β := es.foldl (next parseArm inputs) w

/-- Every step of the run, with the worlds before and after it, is one that R allows. -/
def Along (R : World β → Event β → World β → Prop) (w : World β) : List (Event β) → Prop
  | [] => True
  | e :: es =>
    R w e (next parseArm inputs w e) ∧ Along R (next parseArm inputs w e) es

end Steps

def World.Fresh (w : World β) : Prop := ∀ b, w.boots b = .start

def KeepsNonces (w : World β) (_ : Event β) (w' : World β) : Prop :=
  ∀ n, w.nonces.find? n ≠ none → w'.nonces.find? n ≠ none

/-- No name leaves the consumed directory, unless a power loss undoes its rename. -/
def KeepsDirectory (w : World β) (e : Event β) (w' : World β) : Prop :=
  (∃ undone, e = .powerLoss undone) ∨
    ∀ n, w.files (.consumed n) ≠ none → w'.files (.consumed n) ≠ none

end CutoverBoots
