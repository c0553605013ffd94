import RevenueOps.CutoverBoots
import RevenueOps.OneTimeTokens

/-! One cutover arm gives at most one live session. A nonce is a token of two registers, the rows of
the nonce table and the names in the consumed directory; either of them may be lost. -/
namespace CutoverBoots

open CutoverArms FeeMode OneTimeTokens

namespace Phase

def liveNonce : Phase → Option String
  | resolved (.ok (.liveAuthority session)) => some session.nonce
  | _ => none

def movedNonce : Phase → Option String
  | moved arm => some arm.arm.nonce
  | p => p.liveNonce

def burnedNonce : Phase → Option String
  | burned arm => some arm.arm.nonce
  | p => p.movedNonce

@[simp] theorem liveNonce_refused (reason : CutoverArmDenyReason) :
    (refused reason).liveNonce = none := rfl

@[simp] theorem movedNonce_refused (reason : CutoverArmDenyReason) :
    (refused reason).movedNonce = none := rfl

@[simp] theorem burnedNonce_refused (reason : CutoverArmDenyReason) :
    (refused reason).burnedNonce = none := rfl

theorem liveNonce_eq_some {p : Phase} {n : String} (h : p.liveNonce = some n) :
    ∃ session, p = .resolved (.ok (.liveAuthority session)) ∧ session.nonce = n := by
  match p, h with
  | .resolved (.ok (.liveAuthority session)), h => exact ⟨session, rfl, Option.some.inj h⟩

theorem movedNonce_of_live {p : Phase} {n : String} (h : p.liveNonce = some n) :
    p.movedNonce = some n := by
  cases p with
  | moved arm => simp [liveNonce] at h
  | _ => exact h

theorem burnedNonce_of_live {p : Phase} {n : String} (h : p.liveNonce = some n) :
    p.burnedNonce = some n := by
  cases p with
  | burned arm => simp [liveNonce] at h
  | _ => exact movedNonce_of_live h

@[simp] theorem liveNonce_stopped (p : Phase) : p.stopped.liveNonce = p.liveNonce := by
  cases p <;> rfl

/-- Of the boots that a crash stops only those that have resolved rely on anything. -/
@[simp] theorem movedNonce_stopped (p : Phase) : p.stopped.movedNonce = p.liveNonce := by
  cases p <;> rfl

@[simp] theorem burnedNonce_stopped (p : Phase) : p.stopped.burnedNonce = p.liveNonce := by
  cases p <;> rfl

end Phase

namespace StartupModeInputs

variable {inputs : StartupModeInputs} {parseArm : String → Except String CutoverArm}

theorem decideMode_live {arm : Option LiveSessionArm} {session : LiveSessionArm}
    (h : inputs.decideMode arm = .resolved (.ok (.liveAuthority session))) :
    arm = some session := by
  simp only [decideMode, Phase.resolved.injEq] at h
  cases hm : validateFeeMode inputs.flags arm inputs.state inputs.seedBinding with
  | error reason => simp [hm, Except.mapError] at h
  | ok mode =>
    obtain rfl : mode = .liveAuthority session := by simpa [hm, Except.mapError] using h
    exact (validateFeeMode_live hm).1

theorem liveNonce_decideMode {arm : Option LiveSessionArm} {n : String}
    (h : (inputs.decideMode arm).liveNonce = some n) :
    ∃ session, arm = some session ∧ session.nonce = n := by
  obtain ⟨session, hp, hn⟩ := Phase.liveNonce_eq_some h
  exact ⟨session, decideMode_live hp, hn⟩

theorem liveNonce_decided {arm : CutoverArm} {n : String}
    (h : (inputs.decideMode (some (sessionOf arm))).liveNonce = some n) : arm.nonce = n := by
  obtain ⟨session, hs, hn⟩ := liveNonce_decideMode h
  cases hs
  exact hn

@[simp] theorem burnedNonce_decideMode (arm : Option LiveSessionArm) :
    (inputs.decideMode arm).burnedNonce = (inputs.decideMode arm).liveNonce := rfl

@[simp] theorem movedNonce_decideMode (arm : Option LiveSessionArm) :
    (inputs.decideMode arm).movedNonce = (inputs.decideMode arm).liveNonce := rfl

theorem liveNonce_decideMode_none : (inputs.decideMode none).liveNonce = none := by
  cases h : (inputs.decideMode none).liveNonce with
  | none => rfl
  | some n =>
    obtain ⟨session, hs, -⟩ := liveNonce_decideMode h
    cases hs

@[simp] theorem burnedNonce_begin (files : Files) (fault : Option String) :
    (inputs.begin files fault).burnedNonce = none := by
  simp only [begin]
  split
  · rfl
  · exact liveNonce_decideMode_none
  · split <;> rfl

@[simp] theorem burnedNonce_read (files : Files) (fault : Option ReadFault) :
    (inputs.read parseArm files fault).burnedNonce = none := by
  simp only [read]
  split
  · rfl
  · split
    · rfl
    · split <;> rfl

end StartupModeInputs

def nonceRegister (w : World β) : Register β String where
  spent := {n | w.nonces.find? n ≠ none}
  holds b := (w.boots b).burnedNonce

/-- The names in the consumed directory, and the boots that moved their arm there. -/
def directoryRegister (w : World β) : Register β String where
  spent := {n | w.files (.consumed n) ≠ none}
  holds b := (w.boots b).movedNonce

def Synced (w : World β) : Prop :=
  ∀ b n, (w.boots b).liveNonce = some n → ∀ move ∈ w.unsynced, move.1 ≠ n

/-- A boot relies on nothing new: it stays, is stopped, or relies on no nonce. -/
def Rests (p q : Phase) : Prop := q = p ∨ q = p.stopped ∨ q.burnedNonce = none

theorem movedNonce_of_burned_none {p : Phase} (h : p.burnedNonce = none) : p.movedNonce = none := by
  cases p with
  | burned arm => rfl
  | _ => exact h

theorem Rests.burnedNonce {p q : Phase} (h : Rests p q) {n : String}
    (hq : q.burnedNonce = some n) : p.burnedNonce = some n := by
  rcases h with rfl | rfl | h
  · exact hq
  · exact Phase.burnedNonce_of_live (by simpa using hq)
  · simp [h] at hq

theorem Rests.movedNonce {p q : Phase} (h : Rests p q) {n : String}
    (hq : q.movedNonce = some n) : p.movedNonce = some n := by
  rcases h with rfl | rfl | h
  · exact hq
  · exact Phase.movedNonce_of_live (by simpa using hq)
  · simp [movedNonce_of_burned_none h] at hq

theorem Rests.liveNonce {p q : Phase} (h : Rests p q) {n : String}
    (hq : q.liveNonce = some n) : p.liveNonce = some n := by
  rcases h with rfl | rfl | h
  · exact hq
  · simpa using hq
  · simp [Phase.burnedNonce_of_live hq] at h

section Steps

variable [DecidableEq β] {parseArm : String → Except String CutoverArm}
  {inputs : β → StartupModeInputs} {w w' : World β} {e : Event β}

inductive Advance (inputs : β → StartupModeInputs) (w w' : World β) : Prop where
  | rests : (∀ c, Rests (w.boots c) (w'.boots c)) →
      w'.unsynced = w.unsynced ∨ w'.unsynced = [] → Advance inputs w w'
  | burns (b : β) (arm : ValidatedArm) : w.boots b = .validated arm →
      w.nonces.find? arm.arm.nonce = none → w'.nonces.find? arm.arm.nonce ≠ none →
      w'.boots = Function.update w.boots b (.burned arm) → w'.unsynced = w.unsynced →
      Advance inputs w w'
  | moves (b : β) (arm : ValidatedArm) : w.boots b = .burned arm →
      w.files (.consumed arm.arm.nonce) = none → w'.files (.consumed arm.arm.nonce) ≠ none →
      w'.boots = Function.update w.boots b (.moved arm) →
      w'.unsynced = (arm.arm.nonce, arm.armPath) :: w.unsynced → Advance inputs w w'
  | decides (b : β) (arm : ValidatedArm) : w.boots b = .moved arm →
      w'.boots = Function.update w.boots b ((inputs b).decideMode (some (sessionOf arm.arm))) →
      w'.unsynced = [] → Advance inputs w w'

theorem rests_update {b : β} {p : Phase} (h : p.burnedNonce = none) (c : β) :
    Rests (w.boots c) (Function.update w.boots b p c) := by
  by_cases hcb : c = b
  · subst hcb
    exact .inr (.inr (by simpa using h))
  · exact .inl (by simp [hcb])

theorem Advance.of_set {b : β} {p : Phase} (h : p.burnedNonce = none)
    (hb : w'.boots = Function.update w.boots b p) (hu : w'.unsynced = w.unsynced) :
    Advance inputs w w' := by
  refine .rests (fun c => ?_) (.inl hu)
  rw [hb]
  exact rests_update h c

theorem Advance.refl : Advance inputs w w := .rests (fun _ => .inl rfl) (.inl rfl)

theorem insertConsumedNonce_new {nonces after : NonceTable} {row : ConsumedNonce}
    (h : insertConsumedNonce nonces row = (true, after)) :
    nonces.find? row.nonce = none ∧ after.find? row.nonce = some row := by
  simp only [insertConsumedNonce] at h
  split at h
  · rename_i u hu
    obtain rfl : u = after := by simpa using h
    obtain ⟨hfree, hrows⟩ := KeyedTable.insert_eq_some.mp hu
    constructor
    · cases hf : nonces.find? row.nonce with
      | none => rfl
      | some r =>
        obtain ⟨hr, hk⟩ := KeyedTable.find_eq_some_iff.mp hf
        exact absurd (List.mem_map.mpr ⟨r, hr, hk⟩) hfree
    · exact KeyedTable.find_eq_some_iff.mpr ⟨by simp [hrows], rfl⟩
  · cases h

theorem insertNext_advance {b : β} {arm : ValidatedArm} (hb : w.boots b = .validated arm)
    (reply : StoreReply) : Advance inputs w (insertNext inputs w b arm reply) := by
  cases reply with
  | answered =>
    cases hi : insertConsumedNonce w.nonces ((inputs b).nonceRow arm.arm) with
    | mk inserted nonces =>
    cases inserted with
    | true =>
      obtain ⟨hfree, hrow⟩ := insertConsumedNonce_new hi
      refine .burns b arm hb hfree ?_ (by simp [insertNext, hi, World.set])
        (by simp [insertNext, hi, World.set])
      have hnew : nonces.find? arm.arm.nonce ≠ none := Option.ne_none_iff_exists'.mpr ⟨_, hrow⟩
      simpa [insertNext, hi] using hnew
    | false =>
      exact .of_set (b := b) (Phase.burnedNonce_refused .reusedNonce)
        (by simp [insertNext, hi, World.set]) (by simp [insertNext, hi, World.set])
  | unreachable error => exact .of_set (Phase.burnedNonce_refused _) rfl rfl
  | replyLost error => exact .of_set (Phase.burnedNonce_refused _) rfl rfl

theorem Files.move_target {files : Files} {source target : Place} (h : files source ≠ none) :
    files.move source target target ≠ none := by
  cases hf : files source with
  | none => exact absurd hf h
  | some file => simp [move, hf]

theorem renameNext_advance {b : β} {arm : ValidatedArm} (hb : w.boots b = .burned arm)
    (fault : Option RenameFault) : Advance inputs w (renameNext w b arm fault) := by
  cases fault with
  | some fault => exact .of_set (Phase.burnedNonce_refused _) rfl rfl
  | none =>
    by_cases hs : w.files arm.armPath = none
    · exact .of_set (b := b) (p := refused _) rfl
        (by simp [renameNext, renameNoReplace, hs, World.set]; rfl)
        (by simp [renameNext, renameNoReplace, hs, World.set])
    by_cases ht : w.files (.consumed arm.arm.nonce) = none
    · refine .moves b arm hb ht ?_ (by simp [renameNext, renameNoReplace, hs, ht, World.set])
        (by simp [renameNext, renameNoReplace, hs, ht])
      simpa [renameNext, renameNoReplace, hs, ht] using Files.move_target hs
    · exact .of_set (b := b) (Phase.burnedNonce_refused .reusedNonce)
        (by simp [renameNext, renameNoReplace, hs, ht, World.set])
        (by simp [renameNext, renameNoReplace, hs, ht, World.set])

theorem syncNext_advance {b : β} {arm : ValidatedArm} (hb : w.boots b = .moved arm)
    (fault : Option SyncFault) : Advance inputs w (syncNext inputs w b arm fault) := by
  cases fault with
  | some fault => exact .of_set (Phase.burnedNonce_refused _) rfl rfl
  | none => exact .decides b arm hb rfl rfl

theorem next_advance (e : Event β) : Advance inputs w (next parseArm inputs w e) := by
  cases e with
  | begin b fault =>
    simp only [next]
    split
    · exact .of_set (StartupModeInputs.burnedNonce_begin w.files fault) rfl rfl
    · exact .refl
  | read b fault =>
    simp only [next]
    split
    · exact .of_set (StartupModeInputs.burnedNonce_read w.files fault) rfl rfl
    · exact .refl
  | insert b reply =>
    simp only [next]
    split
    · exact insertNext_advance ‹_› reply
    · exact .refl
  | rename b fault =>
    simp only [next]
    split
    · exact renameNext_advance ‹_› fault
    · exact .refl
  | sync b fault =>
    simp only [next]
    split
    · exact syncNext_advance ‹_› fault
    · exact .refl
  | crash b =>
    refine .rests (fun c => ?_) (.inl rfl)
    by_cases hcb : c = b
    · subst hcb
      exact .inr (.inl (by simp [next, World.set]))
    · exact .inl (by simp [next, World.set, hcb])
  | powerLoss undone => exact .rests (fun c => .inr (.inl rfl)) (.inr rfl)
  | operator files => exact .rests (fun _ => .inl rfl) (.inl rfl)
  | loseNonces lost => exact .rests (fun _ => .inl rfl) (.inl rfl)

/-- A step burns at most one nonce, and one that the table does not have. -/
theorem nonces_change (h : Advance inputs w w') (keeps : KeepsNonces w e w') :
    Change (nonceRegister w) (nonceRegister w') := by
  cases h with
  | rests hr _ => exact .keeps ⟨fun c _ => (hr c).burnedNonce, fun _ n _ => keeps n⟩
  | burns b arm hb hfree hnew hboots _ =>
    refine .acquires b arm.arm.nonce ⟨?_, hnew, fun n => keeps n, ?_, ?_⟩
    · simpa [nonceRegister] using hfree
    · simp [nonceRegister, hboots, Phase.burnedNonce]
    · intro c hcb
      simp [nonceRegister, hboots, hcb]
  | moves b arm hb _ _ hboots _ =>
    refine .keeps ⟨fun c n hc => ?_, fun _ n _ => keeps n⟩
    by_cases hcb : c = b
    · subst hcb
      simpa [nonceRegister, hboots, hb, Phase.burnedNonce, Phase.movedNonce] using hc
    · simpa [nonceRegister, hboots, hcb] using hc
  | decides b arm hb hboots _ =>
    refine .keeps ⟨fun c n hc => ?_, fun _ n _ => keeps n⟩
    by_cases hcb : c = b
    · subst hcb
      have hn := StartupModeInputs.liveNonce_decided (by simpa [nonceRegister, hboots] using hc)
      simp [nonceRegister, hb, Phase.burnedNonce, Phase.movedNonce, hn]
    · simpa [nonceRegister, hboots, hcb] using hc

/-- A step moves at most one arm into the directory, and to a name that was free. -/
theorem directory_change (h : Advance inputs w w')
    (keeps : ∀ n, w.files (.consumed n) ≠ none → w'.files (.consumed n) ≠ none) :
    Change (directoryRegister w) (directoryRegister w') := by
  cases h with
  | rests hr _ => exact .keeps ⟨fun c _ => (hr c).movedNonce, fun _ n _ => keeps n⟩
  | burns b arm hb _ _ hboots _ =>
    refine .keeps ⟨fun c n hc => ?_, fun _ n _ => keeps n⟩
    by_cases hcb : c = b
    · subst hcb
      simp [directoryRegister, hboots, Phase.movedNonce, Phase.liveNonce] at hc
    · simpa [directoryRegister, hboots, hcb] using hc
  | moves b arm hb hfree hnew hboots _ =>
    refine .acquires b arm.arm.nonce ⟨?_, hnew, fun n => keeps n, ?_, ?_⟩
    · simpa [directoryRegister] using hfree
    · simp [directoryRegister, hboots, Phase.movedNonce]
    · intro c hcb
      simp [directoryRegister, hboots, hcb]
  | decides b arm hb hboots _ =>
    refine .keeps ⟨fun c n hc => ?_, fun _ n _ => keeps n⟩
    by_cases hcb : c = b
    · subst hcb
      have hn := StartupModeInputs.liveNonce_decided
        (by simpa [directoryRegister, hboots] using hc)
      simp [directoryRegister, hb, Phase.movedNonce, hn]
    · simpa [directoryRegister, hboots, hcb] using hc

theorem Files.move_keeps {files : Files} {source target place : Place} (hne : place ≠ source)
    (h : files place ≠ none) : files.move source target place ≠ none := by
  cases hf : files source with
  | none => simpa [move, hf] using h
  | some file =>
    by_cases ht : place = target
    · simp [move, hf, ht]
    · simpa [move, hf, ht, hne] using h

theorem undo_keeps (undone : String → Bool) {n : String} : ∀ (unsynced : List (String × Place))
    (files : Files), (∀ move ∈ unsynced, move.1 ≠ n) → files (.consumed n) ≠ none →
      undo undone unsynced files (.consumed n) ≠ none
  | [], _, _, h => h
  | move :: unsynced, files, hm, h => by
    refine undo_keeps undone unsynced _ (fun m hm' => hm m (List.mem_cons_of_mem _ hm')) ?_
    by_cases hu : undone move.1 = true
    · have hne : Place.consumed n ≠ .consumed move.1 := by
        simpa using (hm move List.mem_cons_self).symm
      simpa [hu] using Files.move_keeps hne h
    · simpa [hu] using h

/-- A power loss takes names from the directory, but none that a boot still relies on. -/
theorem directory_next (hs : Synced w) (keeps : KeepsDirectory w e (next parseArm inputs w e)) :
    Change (directoryRegister w) (directoryRegister (next parseArm inputs w e)) := by
  rcases keeps with ⟨undone, rfl⟩ | keeps
  · refine .keeps ⟨fun c n hc => ?_, fun c n hc hn => ?_⟩
    · exact Phase.movedNonce_of_live (by simpa [directoryRegister, next] using hc)
    · have hlive : (w.boots c).liveNonce = some n := by
        simpa [directoryRegister, next] using hc
      exact undo_keeps undone w.unsynced w.files (hs c n hlive) hn
  · exact directory_change (next_advance e) keeps

/-- The name of a live boot is in the directory, so no arm is moved there again. -/
theorem synced_next (hs : Synced w) (hd : Sound (directoryRegister w)) (h : Advance inputs w w') :
    Synced w' := by
  intro c n hc
  cases h with
  | rests hr hu =>
    rcases hu with hu | hu
    · rw [hu]
      exact hs c n ((hr c).liveNonce hc)
    · simp [hu]
  | burns b arm hb _ _ hboots hu =>
    rw [hu]
    by_cases hcb : c = b
    · subst hcb
      simp [hboots, Phase.liveNonce] at hc
    · exact hs c n (by simpa [hboots, hcb] using hc)
  | moves b arm hb hfree _ hboots hu =>
    by_cases hcb : c = b
    · subst hcb
      simp [hboots, Phase.liveNonce] at hc
    · have hlive : (w.boots c).liveNonce = some n := by simpa [hboots, hcb] using hc
      have hname : w.files (.consumed n) ≠ none :=
        hd.recorded c n (Phase.movedNonce_of_live hlive)
      have hne : arm.arm.nonce ≠ n := by
        rintro rfl
        exact hname hfree
      rw [hu]
      exact List.forall_mem_cons.mpr ⟨hne, hs c n hlive⟩
  | decides b arm hb _ hu => simp [hu]

theorem nonces_sound : ∀ (es : List (Event β)) {w : World β}, Sound (nonceRegister w) →
    Along parseArm inputs KeepsNonces w es → Sound (nonceRegister (after parseArm inputs w es))
  | [], _, h, _ => h
  | e :: es, _, h, hk =>
    nonces_sound es (h.change (nonces_change (next_advance e) hk.1)) hk.2

/-- As long as no name leaves the consumed directory, its register is sound. -/
theorem directory_sound : ∀ (es : List (Event β)) {w : World β}, Synced w →
    Sound (directoryRegister w) → Along parseArm inputs KeepsDirectory w es →
      Sound (directoryRegister (after parseArm inputs w es))
  | [], _, _, h, _ => h
  | e :: es, _, hs, h, hk =>
    directory_sound es (synced_next hs h (next_advance e)) (h.change (directory_next hs hk.1)) hk.2

theorem live_unique (fresh : w.Fresh) {es : List (Event β)}
    (kept : Along parseArm inputs KeepsNonces w es ∨ Along parseArm inputs KeepsDirectory w es)
    {b c : β} {n : String} (hb : ((after parseArm inputs w es).boots b).liveNonce = some n)
    (hc : ((after parseArm inputs w es).boots c).liveNonce = some n) : b = c := by
  rcases kept with kept | kept
  · have hn : Sound (nonceRegister w) := sound_of_none fun b => by
      simp [nonceRegister, fresh b, Phase.burnedNonce, Phase.movedNonce, Phase.liveNonce]
    exact (nonces_sound es hn kept).unique b c n (Phase.burnedNonce_of_live hb)
      (Phase.burnedNonce_of_live hc)
  · have hd : Sound (directoryRegister w) := sound_of_none fun b => by
      simp [directoryRegister, fresh b, Phase.movedNonce, Phase.liveNonce]
    have hs : Synced w := by
      intro b n h
      simp [fresh b, Phase.liveNonce] at h
    exact (directory_sound es hs hd kept).unique b c n (Phase.movedNonce_of_live hb)
      (Phase.movedNonce_of_live hc)

end Steps

end CutoverBoots
