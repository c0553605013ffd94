import Mathlib.Data.Nat.Notation
import Mathlib.Data.Int.Notation

/-! The cutover arm: its document, the checks of its file and fields, and the session it becomes
once it is consumed. -/
namespace CutoverArms

def cutoverArmSchema : String := "revops_fee_cutover_arm/v1"

def cutoverSubsystemFees : String := "fees"

def requiredMode : ℕ := 0o600

structure CutoverArm where
  schema : String
  nodeId : String
  subsystem : String
  sourceCommit : String
  binarySha256 : String
  notBefore : ℤ
  expiresAt : ℤ
  nonce : String
  deriving DecidableEq

structure RunningIdentity where
  nodeId : String
  subsystem : String
  sourceCommit : String
  binarySha256 : String
  ownerUid : ℕ
  now : ℤ
  deriving DecidableEq

inductive ConsumeFailure where
  | noLedger
  | insertFailed (error : String)
  | consumedDir (error : String)
  | rename (error : String)
  | reopen (error : String)
  | fsync (error : String)
  deriving DecidableEq

def ConsumeFailure.detail : ConsumeFailure → String
  | noLedger => "no durable nonce ledger (observer db) available to burn the arm nonce in; the " ++
      "arm file is untouched"
  | insertFailed error =>
      "durable nonce-ledger insert failed (" ++ error ++ "); the arm file is " ++
      "untouched and may be retried by the operator"
  | consumedDir error => "consumed dir: " ++ error
  | rename error => error
  | reopen error => "consumed dir reopen for fsync: " ++ error
  | fsync error => "consumed dir fsync: " ++ error

inductive CutoverArmDenyReason where
  | notFound
  | notRegularFile
  | symlink
  | wrongMode (mode : ℕ)
  | notOwnedByCurrentUser
  | readFailed (error : String)
  | malformed (error : String)
  | wrongSchema (found : String)
  | wrongNode (found : String)
  | wrongSubsystem (found : String)
  | wrongCommit (found : String)
  | wrongBinaryHash (found : String)
  | notYetValid
  | expired
  | emptyNonce
  | invalidNonce (found : String)
  | reusedNonce
  | consumeFailed (failure : ConsumeFailure)
  deriving DecidableEq

def CutoverArmDenyReason.code : CutoverArmDenyReason → String
  | notFound => "not_found"
  | notRegularFile => "not_regular_file"
  | symlink => "symlink"
  | wrongMode _ => "wrong_mode"
  | notOwnedByCurrentUser => "not_owned_by_current_user"
  | readFailed _ => "read_failed"
  | malformed _ => "malformed"
  | wrongSchema _ => "wrong_schema"
  | wrongNode _ => "wrong_node"
  | wrongSubsystem _ => "wrong_subsystem"
  | wrongCommit _ => "wrong_commit"
  | wrongBinaryHash _ => "wrong_binary_hash"
  | notYetValid => "not_yet_valid"
  | expired => "expired"
  | emptyNonce => "empty_nonce"
  | invalidNonce _ => "invalid_nonce"
  | reusedNonce => "reused_nonce"
  | consumeFailed _ => "consume_failed"

inductive FileKind where
  | regular
  | symlink
  | other
  deriving DecidableEq

/-- What is found at a path. The mode has the type bits too; the contents are the text read,
unless the bytes are not UTF-8. -/
structure ArmFile where
  kind : FileKind
  mode : ℕ
  uid : ℕ
  contents : Option String
  deriving DecidableEq

/-- A name in the consumed directory, or a path anywhere else. -/
inductive Place where
  | consumed (name : String)
  | elsewhere (path : String)
  deriving DecidableEq

def isSafeNonce (nonce : String) : Bool :=
  nonce ≠ "" && nonce.utf8ByteSize ≤ 64 &&
    nonce.toList.all fun c => c.isAlphanum || c == '_' || c == '-'

def validateFields (arm : CutoverArm) (identity : RunningIdentity) :
    Except CutoverArmDenyReason Unit :=
  if arm.schema ≠ cutoverArmSchema then .error (.wrongSchema arm.schema)
  else if arm.nodeId ≠ identity.nodeId then .error (.wrongNode arm.nodeId)
  else if arm.subsystem ≠ identity.subsystem then .error (.wrongSubsystem arm.subsystem)
  else if arm.sourceCommit ≠ identity.sourceCommit then .error (.wrongCommit arm.sourceCommit)
  else if arm.binarySha256 ≠ identity.binarySha256 then
    .error (.wrongBinaryHash arm.binarySha256)
  else if arm.nonce = "" then .error .emptyNonce
  else if !isSafeNonce arm.nonce then .error (.invalidNonce arm.nonce)
  else if identity.now < arm.notBefore then .error .notYetValid
  else if identity.now ≥ arm.expiresAt then .error .expired
  else .ok ()

structure Matches (arm : CutoverArm) (identity : RunningIdentity) : Prop where
  schema : arm.schema = cutoverArmSchema
  nodeId : arm.nodeId = identity.nodeId
  subsystem : arm.subsystem = identity.subsystem
  sourceCommit : arm.sourceCommit = identity.sourceCommit
  binarySha256 : arm.binarySha256 = identity.binarySha256
  nonce : isSafeNonce arm.nonce = true
  notBefore : arm.notBefore ≤ identity.now
  expiresAt : identity.now < arm.expiresAt

theorem validateFields_ok_iff {arm : CutoverArm} {identity : RunningIdentity} :
    validateFields arm identity = .ok () ↔ Matches arm identity := by
  constructor
  · intro h
    simp only [validateFields] at h
    repeat' split at h
    all_goals cases h
    constructor <;> simp_all
  · intro h
    have hne : arm.nonce ≠ "" := by
      have := h.nonce
      simp only [isSafeNonce, Bool.and_eq_true, decide_eq_true_eq] at this
      exact this.1.1
    have hn : ¬identity.now < arm.notBefore := Int.not_lt.mpr h.notBefore
    have he : ¬identity.now ≥ arm.expiresAt := Int.not_le.mpr h.expiresAt
    simp [validateFields, h.schema, h.nodeId, h.subsystem, h.sourceCommit, h.binarySha256, hne,
      h.nonce, hn, he]

/-- The part of read_and_validate_fields before the file is opened. -/
def lookUp (file : Option ArmFile) (fault : Option String) : Except CutoverArmDenyReason Unit :=
  match fault, file with
  | some error, _ => .error (.readFailed error)
  | none, none => .error .notFound
  | none, some file =>
    match file.kind with
    | .symlink => .error .symlink
    | .other => .error .notRegularFile
    | .regular => .ok ()

inductive ReadFault where
  | opening (error : String)
  | reading (error : String)

section Parsing

/-! The JSON reader of the document is a parameter. -/

variable (parseArm : String → Except String CutoverArm)

def readDocument (file : ArmFile) (fault : Option ReadFault) :
    Except CutoverArmDenyReason CutoverArm :=
  match fault, file.contents with
  | some (.reading error), _ => .error (.readFailed error)
  | _, none => .error (.readFailed "stream did not contain valid UTF-8")
  | _, some contents => (parseArm contents).mapError .malformed

/-- The part of read_and_validate_fields from the open on: what is at the path may have changed. -/
def openAndValidate (file : Option ArmFile) (fault : Option ReadFault)
    (identity : RunningIdentity) : Except CutoverArmDenyReason CutoverArm :=
  match fault, file with
  | some (.opening error), _ => .error (.readFailed error)
  | _, none => .error .notFound
  | _, some file =>
    match file.kind with
    | .symlink => .error .symlink
    | .other => .error .notRegularFile
    | .regular =>
      let mode := file.mode &&& 0o7777
      if mode ≠ requiredMode then .error (.wrongMode mode)
      else if file.uid ≠ identity.ownerUid then .error .notOwnedByCurrentUser
      else do
        let arm ← readDocument parseArm file fault
        validateFields arm identity
        pure arm

/-- A file that a process with this identity takes for the arm. -/
structure Admits (file : ArmFile) (identity : RunningIdentity) (arm : CutoverArm) : Prop where
  kind : file.kind = .regular
  mode : file.mode &&& 0o7777 = requiredMode
  uid : file.uid = identity.ownerUid
  contents : ∃ text, file.contents = some text ∧ parseArm text = .ok arm
  fields : Matches arm identity

variable {parseArm}

theorem readDocument_ok {file : ArmFile} {fault : Option ReadFault} {arm : CutoverArm}
    (h : readDocument parseArm file fault = .ok arm) :
    ∃ text, file.contents = some text ∧ parseArm text = .ok arm := by
  simp only [readDocument] at h
  split at h
  · cases h
  · cases h
  · rename_i text _ hc
    refine ⟨text, hc, ?_⟩
    cases hp : parseArm text with
    | error e =>
      rw [hp] at h
      cases h
    | ok a =>
      rw [hp] at h
      rw [Except.ok.inj h]

theorem openAndValidate_ok {file : Option ArmFile} {fault : Option ReadFault}
    {identity : RunningIdentity} {arm : CutoverArm}
    (h : openAndValidate parseArm file fault identity = .ok arm) :
    ∃ f, file = some f ∧ Admits parseArm f identity arm := by
  simp only [openAndValidate] at h
  split at h
  · cases h
  · cases h
  · rename_i file _
    refine ⟨file, rfl, ?_⟩
    split at h
    · cases h
    · cases h
    · rename_i hk
      by_cases hm : file.mode &&& 0o7777 = requiredMode
      case neg => simp [hm] at h
      by_cases hu : file.uid = identity.ownerUid
      case neg => simp [hm, hu] at h
      simp only [hm, hu, ne_eq, not_true_eq_false, if_false] at h
      cases hd : readDocument parseArm file fault with
      | error e => simp [hd, bind, Except.bind] at h
      | ok a =>
        cases hv : validateFields a identity with
        | error e => simp [hd, hv, bind, Except.bind] at h
        | ok u =>
          obtain rfl : a = arm := by simpa [hd, hv, bind, Except.bind, pure, Except.pure] using h
          exact ⟨hk, hm, hu, readDocument_ok hd, validateFields_ok_iff.mp hv⟩

end Parsing

structure ValidatedArm where
  arm : CutoverArm
  armPath : Place
  deriving DecidableEq

structure LiveSessionArm where
  nodeId : String
  subsystem : String
  sourceCommit : String
  binarySha256 : String
  nonce : String
  consumedPath : Place
  deriving DecidableEq

def sessionOf (arm : CutoverArm) : LiveSessionArm where
  nodeId := arm.nodeId
  subsystem := arm.subsystem
  sourceCommit := arm.sourceCommit
  binarySha256 := arm.binarySha256
  nonce := arm.nonce
  consumedPath := .consumed arm.nonce

end CutoverArms
