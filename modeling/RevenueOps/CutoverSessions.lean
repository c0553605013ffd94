import RevenueOps.CutoverAuthority
import Mathlib.Data.List.Induction

/-! What a boot that obtained live authority presented, and what a refused boot left as it was. -/
namespace CutoverBoots

open CutoverArms FeeMode OneTimeTokens

/-- The denials that come before anything is written: of the file, of a field, or for want of a
ledger. -/
def CutoverArmDenyReason.beforeBurn : CutoverArmDenyReason → Bool
  | .reusedNonce => false
  | .consumeFailed failure => failure = .noLedger
  | _ => true

def StartupModeDenyReason.beforeBurn : StartupModeDenyReason → Bool
  | missingRustState _ => true
  | armInvalid reason => CutoverArmDenyReason.beforeBurn reason
  | mode _ => false

/-- The denials of a boot that has moved no file: those, and a failed insert. -/
def StartupModeDenyReason.beforeRename : StartupModeDenyReason → Bool
  | armInvalid (.consumeFailed (.insertFailed _)) => true
  | reason => reason.beforeBurn

/-- Nothing was moved, and nothing was burned unless the insert failed. -/
def Phase.Unmoved : Phase → Prop
  | start | located | validated _ => True
  | resolved (.error reason) => reason.beforeRename = true
  | _ => False

def Phase.Shown (P : CutoverArm → Prop) : Phase → Prop
  | validated arm | burned arm | moved arm => P arm.arm
  | resolved (.ok (.liveAuthority session)) => ∃ arm, session = sessionOf arm ∧ P arm
  | _ => True

theorem Phase.Shown.mono {P Q : CutoverArm → Prop} (h : ∀ arm, P arm → Q arm) {p : Phase}
    (hp : p.Shown P) : p.Shown Q := by
  match p, hp with
  | .validated _, hp | .burned _, hp | .moved _, hp => exact h _ hp
  | .resolved (.ok (.liveAuthority session)), ⟨arm, hs, harm⟩ => exact ⟨arm, hs, h arm harm⟩
  | .resolved (.ok .passiveObserver), _ | .resolved (.ok (.autonomousShadow _)), _ => trivial
  | .resolved (.error _), _ | .start, _ | .located, _ | .crashed, _ => trivial

theorem Phase.Shown.stopped {P : CutoverArm → Prop} {p : Phase} (hp : p.Shown P) :
    p.stopped.Shown P := by
  cases p with
  | resolved result => exact hp
  | _ => trivial

theorem Phase.Unmoved.of_stopped {p : Phase} (h : p.stopped.Unmoved) : p.Unmoved := by
  cases p with
  | start => trivial
  | resolved result => exact h
  | _ => exact h.elim

section Steps

variable (parseArm : String → Except String CutoverArm)
  (inputs : β → StartupModeInputs)

/-- A file at the boot's arm path read as this arm, for the boot's own identity and clock. -/
def Presented (w : World β) (b : β) (arm : CutoverArm) : Prop :=
  ∃ armPath identity file, (inputs b).cutoverArm = some (armPath, identity) ∧
    w.files armPath = some file ∧ Admits parseArm file identity arm

variable {parseArm inputs} in
theorem shown_read {w : World β} {P : CutoverArm → Prop} {b : β} {fault : Option ReadFault}
    (h : ∀ arm, Presented parseArm inputs w b arm → P arm) :
    ((inputs b).read parseArm w.files fault).Shown P := by
  simp only [StartupModeInputs.read]
  split
  · trivial
  · rename_i armPath identity hi
    split
    · trivial
    · rename_i arm ha
      obtain ⟨file, hf, hadmits⟩ := openAndValidate_ok ha
      split
      · exact h arm ⟨armPath, identity, file, hi, hf, hadmits⟩
      · trivial

variable [DecidableEq β]

def PresentedIn (w : World β) (es : List (Event β)) (b : β) (arm : CutoverArm) : Prop :=
  ∃ pre fault post, es = pre ++ .read b fault :: post ∧
    Presented parseArm inputs (after parseArm inputs w pre) b arm

def Obtains (w : World β) (es : List (Event β)) (b : β) (session : LiveSessionArm) : Prop :=
  ∃ pre post, es = pre ++ post ∧
    (after parseArm inputs w pre).boots b = .resolved (.ok (.liveAuthority session))

variable {parseArm inputs} {w : World β} {e : Event β}

theorem unmoved_set {b c : β} {p : Phase} (hp : p.Unmoved → (w.boots b).Unmoved)
    (h : ((w.set b p).boots c).Unmoved) : (w.boots c).Unmoved := by
  by_cases hcb : c = b
  · subst hcb
    exact hp (by simpa [World.set] using h)
  · simpa [World.set, hcb] using h

theorem not_unmoved_rename (fault : RenameFault) :
    ¬(refused (.consumeFailed fault.failure)).Unmoved := by
  cases fault <;> exact Bool.false_ne_true

theorem not_unmoved_sync (fault : SyncFault) :
    ¬(refused (.consumeFailed fault.failure)).Unmoved := by
  cases fault <;> exact Bool.false_ne_true

theorem not_unmoved_renameNoReplace {files : Files} {source target : Place}
    {reason : CutoverArmDenyReason} (h : renameNoReplace files source target = .error reason) :
    ¬(refused reason).Unmoved := by
  simp only [renameNoReplace] at h
  split at h
  · cases h
    exact Bool.false_ne_true
  · split at h
    · cases h
      exact Bool.false_ne_true
    · cases h

theorem not_unmoved_decideMode {i : StartupModeInputs} (arm : Option LiveSessionArm) :
    ¬(i.decideMode arm).Unmoved := by
  intro h
  simp only [StartupModeInputs.decideMode] at h
  cases hm : validateFeeMode i.flags arm i.state i.seedBinding with
  | ok mode =>
    rw [hm] at h
    exact h
  | error reason =>
    rw [hm] at h
    exact Bool.false_ne_true h

/-- A boot that has moved or burned something never gets back. -/
theorem unmoved_of_next (b : β) (h : ((next parseArm inputs w e).boots b).Unmoved) :
    (w.boots b).Unmoved := by
  cases e with
  | begin c fault | read c fault =>
    simp only [next] at h
    split at h
    · rename_i hc
      exact unmoved_set (fun _ => by rw [hc]; trivial) h
    · exact h
  | insert c reply =>
    simp only [next] at h
    split at h
    · rename_i arm hc
      cases reply <;> exact unmoved_set (fun _ => by rw [hc]; trivial) h
    · exact h
  | rename c fault =>
    simp only [next] at h
    split at h
    · rename_i arm hc
      cases fault with
      | some fault => exact unmoved_set (fun hp => absurd hp (not_unmoved_rename fault)) h
      | none =>
        simp only [renameNext] at h
        split at h
        · rename_i hr
          exact unmoved_set (fun hp => absurd hp (not_unmoved_renameNoReplace hr)) h
        · exact unmoved_set (p := .moved arm) (fun hp => hp.elim) h
    · exact h
  | sync c fault =>
    simp only [next] at h
    split at h
    · cases fault with
      | some fault => exact unmoved_set (fun hp => absurd hp (not_unmoved_sync fault)) h
      | none => exact unmoved_set (fun hp => absurd hp (not_unmoved_decideMode _)) h
    · exact h
  | crash c => exact unmoved_set Phase.Unmoved.of_stopped h
  | powerLoss undone => exact Phase.Unmoved.of_stopped h
  | operator files | loseNonces lost => exact h

/-- As long as a boot is unmoved its steps write nothing, a failed insert apart. -/
theorem unmoved_next {b : β} (he : e.boot = some b)
    (h : ((next parseArm inputs w e).boots b).Unmoved) :
    (next parseArm inputs w e).files = w.files ∧
      ((next parseArm inputs w e).nonces = w.nonces ∨ ∃ error, e = .insert b (.replyLost error) ∧
        (next parseArm inputs w e).boots b = refused (.consumeFailed (.insertFailed error))) := by
  cases e with
  | begin c fault | read c fault =>
    simp only [next]
    split <;> exact ⟨rfl, .inl rfl⟩
  | insert c reply =>
    obtain rfl : c = b := Option.some.inj he
    simp only [next] at h ⊢
    split
    · rename_i arm hc
      cases reply with
      | answered =>
        simp only [hc, insertNext] at h ⊢
        cases hi : insertConsumedNonce w.nonces ((inputs c).nonceRow arm.arm) with
        | mk inserted nonces =>
        cases inserted with
        | true =>
          simp [hi, World.set] at h
          exact h.elim
        | false =>
          simp [hi, World.set] at h
          exact absurd h Bool.false_ne_true
      | unreachable error => exact ⟨rfl, .inl rfl⟩
      | replyLost error => exact ⟨rfl, .inr ⟨error, rfl, by simp [insertNext, World.set]⟩⟩
    · exact ⟨rfl, .inl rfl⟩
  | rename c fault =>
    obtain rfl : c = b := Option.some.inj he
    have hc := unmoved_of_next c h
    simp only [next]
    split
    · rename_i arm hb
      rw [hb] at hc
      exact hc.elim
    · exact ⟨rfl, .inl rfl⟩
  | sync c fault =>
    obtain rfl : c = b := Option.some.inj he
    have hc := unmoved_of_next c h
    simp only [next]
    split
    · rename_i arm hb
      rw [hb] at hc
      exact hc.elim
    · exact ⟨rfl, .inl rfl⟩
  | crash c | powerLoss undone | operator files | loseNonces lost => cases he

theorem unmoved_of_after {b : β} : ∀ (es : List (Event β)) {w : World β},
    ((after parseArm inputs w es).boots b).Unmoved → (w.boots b).Unmoved
  | [], _, h => h
  | _ :: es, _, h => unmoved_of_next b (unmoved_of_after es h)

theorem shown_set {P : β → CutoverArm → Prop} (h : ∀ c, (w.boots c).Shown (P c)) {b : β}
    {p : Phase} (hp : p.Shown (P b)) (c : β) : ((w.set b p).boots c).Shown (P c) := by
  by_cases hcb : c = b
  · subst hcb
    simpa [World.set] using hp
  · simpa [World.set, hcb] using h c

theorem shown_decideMode {P : CutoverArm → Prop} {i : StartupModeInputs}
    {arm : Option LiveSessionArm}
    (h : ∀ session, arm = some session → ∃ a, session = sessionOf a ∧ P a) :
    (i.decideMode arm).Shown P := by
  cases hd : i.decideMode arm with
  | resolved result =>
    match result, hd with
    | .ok (.liveAuthority session), hd =>
      exact h session (StartupModeInputs.decideMode_live hd)
    | .ok .passiveObserver, _ | .ok (.autonomousShadow _), _ | .error _, _ => trivial
  | _ => cases hd

theorem shown_begin {P : CutoverArm → Prop} {i : StartupModeInputs} (files : Files)
    (fault : Option String) : (i.begin files fault).Shown P := by
  simp only [StartupModeInputs.begin]
  split
  · trivial
  · exact shown_decideMode fun session hs => by cases hs
  · split <;> trivial

theorem shown_next {P : β → CutoverArm → Prop} (h : ∀ c, (w.boots c).Shown (P c))
    (hread : ∀ b fault arm, e = .read b fault → Presented parseArm inputs w b arm → P b arm)
    (c : β) : ((next parseArm inputs w e).boots c).Shown (P c) := by
  cases e with
  | begin b fault =>
    simp only [next]
    split
    · exact shown_set h (shown_begin w.files fault) c
    · exact h c
  | read b fault =>
    simp only [next]
    split
    · exact shown_set h (shown_read fun arm => hread b fault arm rfl) c
    · exact h c
  | insert b reply =>
    simp only [next]
    split
    · rename_i arm hb
      have harm : P b arm.arm := by simpa [hb, Phase.Shown] using h b
      cases reply with
      | answered =>
        cases hi : insertConsumedNonce w.nonces ((inputs b).nonceRow arm.arm) with
        | mk inserted nonces =>
        simp only [insertNext, hi]
        cases inserted with
        | true => exact shown_set (p := .burned arm) h harm c
        | false => exact shown_set (p := refused .reusedNonce) h trivial c
      | unreachable error | replyLost error => exact shown_set (p := refused _) h trivial c
    · exact h c
  | rename b fault =>
    simp only [next]
    split
    · rename_i arm hb
      have harm : P b arm.arm := by simpa [hb, Phase.Shown] using h b
      cases fault with
      | some fault => exact shown_set (p := refused _) h trivial c
      | none =>
        simp only [renameNext]
        split
        · exact shown_set (p := refused _) h trivial c
        · exact shown_set (p := .moved arm) h harm c
    · exact h c
  | sync b fault =>
    simp only [next]
    split
    · rename_i arm hb
      have harm : P b arm.arm := by simpa [hb, Phase.Shown] using h b
      cases fault with
      | some fault => exact shown_set (p := refused _) h trivial c
      | none =>
        refine shown_set h (shown_decideMode fun session hs => ⟨arm.arm, ?_, harm⟩) c
        exact (Option.some.inj hs).symm
    · exact h c
  | crash b => exact shown_set h (h b).stopped c
  | powerLoss undone => exact (h c).stopped
  | operator files | loseNonces lost => exact h c

theorem after_append (es es' : List (Event β)) :
    after parseArm inputs w (es ++ es') = after parseArm inputs (after parseArm inputs w es) es' :=
  List.foldl_append

theorem PresentedIn.snoc {es : List (Event β)} {b : β} {arm : CutoverArm} (e : Event β)
    (h : PresentedIn parseArm inputs w es b arm) :
    PresentedIn parseArm inputs w (es ++ [e]) b arm := by
  obtain ⟨pre, fault, post, rfl, hp⟩ := h
  exact ⟨pre, fault, post ++ [e], by simp, hp⟩

theorem shown_after (fresh : w.Fresh) (es : List (Event β)) (b : β) :
    ((after parseArm inputs w es).boots b).Shown (PresentedIn parseArm inputs w es b) := by
  induction es using List.reverseRecOn generalizing b with
  | nil =>
    rw [after, List.foldl_nil, fresh b]
    trivial
  | append_singleton es e ih =>
    rw [after_append]
    refine shown_next (P := fun c => PresentedIn parseArm inputs w (es ++ [e]) c) (fun c => ?_) ?_ b
    · exact (ih c).mono fun arm => .snoc e
    · rintro c fault arm rfl hp
      exact ⟨es, fault, [], rfl, hp⟩

theorem resolved_set {b c : β} {p : Phase} {result : Resolution}
    (hb : w.boots b ≠ .resolved result) (h : w.boots c = .resolved result) :
    (w.set b p).boots c = .resolved result := by
  have hcb : c ≠ b := by
    rintro rfl
    exact hb h
  simpa [World.set, hcb] using h

theorem resolved_next {c : β} {result : Resolution} (h : w.boots c = .resolved result) :
    (next parseArm inputs w e).boots c = .resolved result := by
  cases e with
  | begin b fault | read b fault =>
    simp only [next]
    split
    · exact resolved_set (by simp [*]) h
    · exact h
  | insert b reply =>
    simp only [next]
    split
    · cases reply <;> exact resolved_set (by simp [*]) h
    · exact h
  | rename b fault =>
    simp only [next]
    split
    · cases fault with
      | some fault => exact resolved_set (by simp [*]) h
      | none =>
        simp only [renameNext]
        split <;> exact resolved_set (by simp [*]) h
    · exact h
  | sync b fault =>
    simp only [next]
    split
    · cases fault <;> exact resolved_set (by simp [*]) h
    · exact h
  | crash b =>
    by_cases hcb : c = b
    · subst hcb
      simp [next, World.set, h, Phase.stopped]
    · simpa [next, World.set, hcb] using h
  | powerLoss undone => simp [next, h, Phase.stopped]
  | operator files | loseNonces lost => exact h

theorem resolved_after {c : β} {result : Resolution} : ∀ (es : List (Event β)) {w : World β},
    w.boots c = .resolved result → (after parseArm inputs w es).boots c = .resolved result
  | [], _, h => h
  | _ :: es, _, h => resolved_after es (resolved_next h)

theorem Obtains.live {es : List (Event β)} {b : β} {session : LiveSessionArm}
    (h : Obtains parseArm inputs w es b session) :
    (after parseArm inputs w es).boots b = .resolved (.ok (.liveAuthority session)) := by
  obtain ⟨pre, post, rfl, hb⟩ := h
  rw [after_append]
  exact resolved_after post hb

/-- For every nonce at most one boot ever obtains live authority; a boot that does read an arm that
was its own and in time; and a boot that is refused before it moves its arm has written nothing,
unless the reply to its insert was lost. -/
theorem one_arm_one_live_session (fresh : w.Fresh) (es : List (Event β))
    (kept : Along parseArm inputs KeepsNonces w es ∨ Along parseArm inputs KeepsDirectory w es) :
    (∀ b c session session', Obtains parseArm inputs w es b session →
      Obtains parseArm inputs w es c session' → session.nonce = session'.nonce → b = c) ∧
    (∀ b session, Obtains parseArm inputs w es b session →
      ∃ arm, session = sessionOf arm ∧ PresentedIn parseArm inputs w es b arm) ∧
    (∀ b reason, (after parseArm inputs w es).boots b = .resolved (.error reason) →
      reason.beforeRename = true → ∀ pre e post, es = pre ++ e :: post → e.boot = some b →
        let before := after parseArm inputs w pre
        (next parseArm inputs before e).files = before.files ∧
          (reason.beforeBurn = true ∨ (∀ error, e ≠ .insert b (.replyLost error)) →
            (next parseArm inputs before e).nonces = before.nonces)) := by
  refine ⟨?_, ?_, ?_⟩
  · intro b c session session' hb hc hn
    refine live_unique (n := session.nonce) fresh kept ?_ ?_
    · rw [hb.live]
      rfl
    · rw [hc.live, hn]
      rfl
  · intro b session hb
    have hs : ((after parseArm inputs w es).boots b).Shown (PresentedIn parseArm inputs w es b) :=
      shown_after fresh es b
    rw [hb.live] at hs
    exact hs
  · intro b reason hb hr pre e post hes he before
    subst hes
    have hafter : after parseArm inputs w (pre ++ e :: post) =
        after parseArm inputs (next parseArm inputs before e) post := after_append pre (e :: post)
    rw [hafter] at hb
    have hlast :
        ((after parseArm inputs (next parseArm inputs before e) post).boots b).Unmoved := by
      rw [hb]
      exact hr
    obtain ⟨hfiles, hnonces | ⟨error, rfl, herror⟩⟩ := unmoved_next he (unmoved_of_after post hlast)
    · exact ⟨hfiles, fun _ => hnonces⟩
    · refine ⟨hfiles, fun hburn => ?_⟩
      have hfinal : (after parseArm inputs (next parseArm inputs before
          (.insert b (.replyLost error))) post).boots b =
            refused (.consumeFailed (.insertFailed error)) := resolved_after post herror
      rw [hb] at hfinal
      obtain rfl : reason = .armInvalid (.consumeFailed (.insertFailed error)) := by
        simpa [refused] using hfinal
      rcases hburn with hburn | hburn
      · cases hburn
      · exact absurd rfl (hburn error)

theorem insertConsumedNonce_keeps {nonces : NonceTable} {row : ConsumedNonce} {n : String}
    (h : nonces.find? n ≠ none) : (insertConsumedNonce nonces row).2.find? n ≠ none := by
  simp only [insertConsumedNonce]
  split
  · rename_i after ha
    obtain ⟨r, hr⟩ := Option.ne_none_iff_exists'.mp h
    obtain ⟨hmem, hkey⟩ := KeyedTable.find_eq_some_iff.mp hr
    have hafter : after.find? n = some r :=
      KeyedTable.find_eq_some_iff.mpr ⟨by simp [(KeyedTable.insert_eq_some.mp ha).2, hmem], hkey⟩
    simp [hafter]
  · exact h

theorem next_keepsNonces (h : ∀ lost, e ≠ .loseNonces lost) :
    KeepsNonces w e (next parseArm inputs w e) := by
  intro n hn
  cases e with
  | begin b fault | read b fault =>
    simp only [next]
    split <;> exact hn
  | insert b reply =>
    simp only [next]
    split
    · cases reply with
      | answered | replyLost error => exact insertConsumedNonce_keeps hn
      | unreachable error => exact hn
    · exact hn
  | rename b fault =>
    simp only [next]
    split
    · cases fault with
      | some fault => exact hn
      | none =>
        simp only [renameNext]
        split <;> exact hn
    · exact hn
  | sync b fault =>
    simp only [next]
    split
    · cases fault <;> exact hn
    · exact hn
  | crash b | powerLoss undone | operator files => exact hn
  | loseNonces lost => exact absurd rfl (h lost)

theorem along_keepsNonces : ∀ (es : List (Event β)) {w : World β},
    (∀ e ∈ es, ∀ lost, e ≠ .loseNonces lost) → Along parseArm inputs KeepsNonces w es
  | [], _, _ => trivial
  | e :: es, _, h => by
    obtain ⟨he, hes⟩ := List.forall_mem_cons.mp h
    exact ⟨next_keepsNonces he, along_keepsNonces es hes⟩

end Steps

def cutoverArm : CutoverArm :=
  ⟨cutoverArmSchema, "lnnode", cutoverSubsystemFees, "deadbeef", "00ff", 100, 200, "cutover-1"⟩

def cutoverInputs : StartupModeInputs where
  flags := ⟨false, false, true, false⟩
  cutoverArm := some (.elsewhere "arm.json", ⟨"lnnode", cutoverSubsystemFees, "deadbeef", "00ff",
    1000, 150⟩)
  state := ⟨1, []⟩
  seedBinding := .verifiedBound "cycle-1"
  rustStateStoreConfigured := true
  nonceLedger := true
  now := 150

def armInstalled : Files :=
  Function.update (fun _ => none) (.elsewhere "arm.json")
    (some ⟨.regular, 0o100600, 1000, some "arm"⟩)

def beforeCutover : World Bool := ⟨armInstalled, .empty, [], fun _ => .start⟩

/-- After the first boot the directory is lost and a copy of the arm installed for the second. -/
def armCopied : List (Event Bool) :=
  [.begin false none, .read false none, .insert false .answered, .rename false none,
    .sync false none, .operator armInstalled, .begin true none, .read true none,
    .insert true .answered]

theorem armCopied_live : Obtains (fun _ => .ok cutoverArm) (fun _ => cutoverInputs) beforeCutover
    armCopied false (sessionOf cutoverArm) :=
  ⟨armCopied.take 5, armCopied.drop 5, rfl, rfl⟩

theorem one_arm_copied_one_live_session :
    Obtains (fun _ => .ok cutoverArm) (fun _ => cutoverInputs) beforeCutover armCopied false
      (sessionOf cutoverArm) ∧
    ∀ b session, Obtains (fun _ => .ok cutoverArm) (fun _ => cutoverInputs) beforeCutover armCopied
      b session → session.nonce = "cutover-1" → b = false :=
  ⟨armCopied_live, fun b session hb hn =>
    (one_arm_one_live_session (fun _ => rfl) armCopied
      (.inl (along_keepsNonces armCopied (by simp [armCopied])))).1 b false session
      (sessionOf cutoverArm) hb armCopied_live hn⟩

end CutoverBoots
