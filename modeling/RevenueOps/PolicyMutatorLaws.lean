import RevenueOps.PolicyMutators
import Mathlib.Data.List.Nodup

/-! What one policy request, run alone, does to the rows and to the change counts. -/
namespace PolicyMutators

open JsonValue PeerPolicies ConflictSerial

section Vocabulary

variable [SerdeJson] [HostText]

def Names (r : Request) (p : String) : Prop :=
  match r.action with
  | .policyBatch => ∃ entries, batchUpdates r.params = .ok entries ∧
      ∃ e ∈ entries, entryPeer e = p
  | _ => peerParam r.params = p

def Drops (r : Request) (p : String) : Prop :=
  match r.action with
  | .ignore | .unignore | .unban | .policyDelete => peerParam r.params = p
  | .policyUntag => peerParam r.params = p ∧ r.params.lookup "tag" = some (.str bannedTag)
  | .policyBatch => ∃ entries, batchUpdates r.params = .ok entries ∧
      ∃ e ∈ entries, entryPeer e = p ∧ (e.get "tags").isSome
  | .ban | .policySet | .policyTag => False

def Limited : Action → Prop
  | .unignore | .policyDelete => False
  | _ => True

def DistinctPeers (r : Request) : Prop :=
  r.action = .policyBatch → ∀ entries, batchUpdates r.params = .ok entries →
    (entries.map entryPeer).Nodup

def Acknowledged (response : Json) : Prop := response.get "status" = some (.str "success")

def Banned (row : Option PolicyRow) : Prop := ∃ w, row = some w ∧ bannedTag ∈ decodeTagsJson w.tags

/-- The row that replaces what was read as existing has its banned tag still. -/
def Carries (existing : PeerPolicy) (row : Option PolicyRow) : Prop :=
  bannedTag ∈ existing.tags → Banned row

/-- The peer's row after the request: as it was, or changed by an acknowledged request,
which counts the change if it is a limited one. -/
def RowLaw (r : Request) (s : Db) (out : Outcome) (s' : Db) (p : String) : Prop :=
  s' (.row p) = s (.row p) ∨
    (Names r p ∧ Acknowledged out.response ∧ (Limited r.action → p ∈ out.counted) ∧
      (Drops r p ∨ Carries (policyForPeer (s (.row p)) p r.now) (s' (.row p))))

def Within (now : ℤ) (stamps : List ℤ) : Prop := (retain now stamps).length < 10

instance (now : ℤ) (stamps : List ℤ) : Decidable (Within now stamps) :=
  inferInstanceAs (Decidable (_ < _))

/-- The peer's stamps after the request: at most pruned, or with a change counted. -/
def StampLaw (r : Request) (s : Db) (out : Outcome) (s' : Db) (p : String) : Prop :=
  (out.counted.count p = 0 ∧ (s' (.stamps p) = s (.stamps p) ∨
    (Limited r.action ∧ Names r p ∧ s' (.stamps p) = retain r.now (s (.stamps p))))) ∨
  (out.counted.count p = 1 ∧ Limited r.action ∧ Names r p ∧ Within r.now (s (.stamps p)) ∧
    s' (.stamps p) = retain r.now (s (.stamps p)) ++ [r.now])

structure Lawful (r : Request) (s : Db) (out : Outcome) (s' : Db) : Prop where
  rows : ∀ p, RowLaw r s out s' p
  stamps : DistinctPeers r → ∀ p, StampLaw r s out s' p

end Vocabulary

section Stamps

theorem retain_retain {now later : ℤ} (h : now ≤ later) (stamps : List ℤ) :
    retain later (retain now stamps) = retain later stamps := by
  unfold retain
  rw [List.filter_filter]
  apply List.filter_congr
  intro t _
  simp only [Bool.and_eq_decide, decide_eq_true_eq]
  by_cases ht : later - 60 < t
  · simp only [ht, true_and, decide_true]
    exact decide_eq_true (by omega)
  · simp [ht]

end Stamps

section Policies

theorem policyForPeer_peerId (row : Option PolicyRow) (peer : String) (now : ℤ) :
    (policyForPeer row peer now).peerId = peer := by
  unfold policyForPeer
  cases row with
  | none => rfl
  | some w =>
    by_cases h : isExpired w.expiresAt now
    · simp only [h, if_true]; rfl
    · simp only [h]; rfl

theorem carries_mergedRow {existing : PeerPolicy} {p : PeerPolicy}
    (h : bannedTag ∈ existing.tags → bannedTag ∈ p.tags) :
    Carries existing (some (mergedRow p)) := by
  intro hb
  refine ⟨_, rfl, ?_⟩
  have hd : decodeTagsJson (mergedRow p).tags = p.tags := decodeTagsJson_tagsColumn p.tags
  rw [hd]
  exact h hb

theorem mem_banTags (existing : PeerPolicy) : bannedTag ∈ banTags existing := by
  unfold banTags
  split
  · assumption
  · exact List.mem_append_right _ List.mem_cons_self

theorem banned_banPlan (existing : PeerPolicy) (now : ℤ) :
    Banned (some (banPlan existing now)) := by
  refine ⟨_, rfl, ?_⟩
  have hd : decodeTagsJson (banPlan existing now).tags = banTags existing :=
    decodeTagsJson_tagsColumn _
  rw [hd]
  exact mem_banTags existing

theorem replaceAll_mergedRow (ps : List PeerPolicy) (s : Db) {q : String}
    (hq : q ∈ ps.map PeerPolicy.peerId) :
    ∃ p ∈ ps, p.peerId = q ∧
      replaceAll (ps.map fun p => (⟨.row p.peerId, some (mergedRow p)⟩ : (c : Cell) × CellValue c))
        s (.row q) = some (mergedRow p) := by
  induction ps generalizing s with
  | nil => simp at hq
  | cons p ps ih =>
    by_cases hps : q ∈ ps.map PeerPolicy.peerId
    · obtain ⟨p', hp', hpq, hrow⟩ := ih
        (Function.update s (.row p.peerId) (some (mergedRow p))) hps
      exact ⟨p', List.mem_cons_of_mem _ hp', hpq, hrow⟩
    · have hqp : q = p.peerId := by
        rw [List.map_cons, List.mem_cons] at hq
        exact hq.resolve_right hps
      refine ⟨p, List.mem_cons_self, hqp.symm, ?_⟩
      refine (replaceAll_of_notMem _ (Function.update s (.row p.peerId) (some (mergedRow p)))
        ?_).trans ?_
      · simpa using hps
      · rw [hqp]
        exact Function.update_self _ _ _

end Policies

theorem run_rateLimitAllows (r : Request) (peer : String) (k : Bool → Work) (s : Db) :
    (rateLimitAllows r peer k).run s = (k (decide (Within r.now (s (.stamps peer))))).run
      (Function.update s (.stamps peer) (retain r.now (s (.stamps peer)))) := rfl

section Batch

variable (r : Request)

/-- The checks of a batch leave the rows alone; either all pass or one refuses. -/
theorem run_checkLimits (k : Work) (peers : List String) (s : Db) :
    ∃ s' : Db, (∀ p, s' (.row p) = s (.row p)) ∧
      (∀ p, s' (.stamps p) = s (.stamps p) ∨
        (p ∈ peers ∧ s' (.stamps p) = retain r.now (s (.stamps p)))) ∧
      (((checkLimits r k peers).run s = k.run s' ∧ ∀ p ∈ peers,
          Within r.now (s (.stamps p)) ∧ s' (.stamps p) = retain r.now (s (.stamps p))) ∨
        ∃ response, (checkLimits r k peers).run s = (⟨response, []⟩, s')) := by
  induction peers generalizing s with
  | nil => exact ⟨s, by simp, by simp, .inl ⟨rfl, by simp⟩⟩
  | cons q qs ih =>
    have hself : Function.update s (.stamps q) (retain r.now (s (.stamps q))) (.stamps q) =
        retain r.now (s (.stamps q)) := Function.update_self _ _ _
    have hother : ∀ p, p ≠ q → Function.update s (.stamps q)
        (retain r.now (s (.stamps q))) (.stamps p) = s (.stamps p) := fun p hp =>
      Function.update_of_ne (by simpa using hp) _ _
    have hrows : ∀ p, Function.update s (.stamps q) (retain r.now (s (.stamps q))) (.row p) =
        s (.row p) := fun p => Function.update_of_ne (by simp) _ _
    by_cases hw : Within r.now (s (.stamps q))
    · obtain ⟨s', hr', hs', hrun⟩ := ih
        (Function.update s (.stamps q) (retain r.now (s (.stamps q))))
      have hstep : (checkLimits r k (q :: qs)).run s = (checkLimits r k qs).run
          (Function.update s (.stamps q) (retain r.now (s (.stamps q)))) := by
        rw [checkLimits, run_rateLimitAllows, if_pos (decide_eq_true hw)]
      -- pruning a list that is pruned changes nothing
      have hpruned : ∀ p, s' (.stamps p) = s (.stamps p) ∨
          (p ∈ q :: qs ∧ s' (.stamps p) = retain r.now (s (.stamps p))) := by
        intro p
        rcases hs' p with h | ⟨hp, h⟩
        · by_cases hpq : p = q
          · subst hpq
            exact .inr ⟨by simp, h.trans hself⟩
          · exact .inl (h.trans (hother p hpq))
        · refine .inr ⟨List.mem_cons_of_mem _ hp, ?_⟩
          by_cases hpq : p = q
          · subst hpq
            rw [h, hself, retain_retain le_rfl]
          · rw [h, hother p hpq]
      refine ⟨s', fun p => (hr' p).trans (hrows p), hpruned, ?_⟩
      rw [hstep]
      refine hrun.imp (fun h => ⟨h.1, fun p hp => ?_⟩) id
      have hall : ∀ p ∈ qs, Within r.now (s (.stamps p)) ∧
          s' (.stamps p) = retain r.now (s (.stamps p)) := by
        intro p hp
        obtain ⟨h1, h2⟩ := h.2 p hp
        by_cases hpq : p = q
        · subst hpq
          rw [hself] at h2
          exact ⟨hw, by rw [h2, retain_retain le_rfl]⟩
        · rw [hother p hpq] at h1 h2
          exact ⟨h1, h2⟩
      rcases List.mem_cons.mp hp with hpq | hp
      · by_cases hqs : q ∈ qs
        · exact hpq ▸ hall q hqs
        · subst hpq
          refine ⟨hw, ?_⟩
          rcases hs' p with h' | ⟨h', -⟩
          · exact h'.trans hself
          · exact absurd h' hqs
      · exact hall p hp
    · refine ⟨Function.update s (.stamps q) (retain r.now (s (.stamps q))), hrows, ?_, .inr ?_⟩
      · intro p
        by_cases hpq : p = q
        · subst hpq
          exact .inr ⟨by simp, hself⟩
        · exact .inl (hother p hpq)
      · refine ⟨policyRateLimitError q, ?_⟩
        rw [checkLimits, run_rateLimitAllows, if_neg fun h => hw (of_decide_eq_true h)]
        rfl

theorem run_recordAll (out : Outcome) (peers : List String) (s : Db) :
    ∃ s' : Db, (recordAll r (.done out) peers).run s = (out, s') ∧
      (∀ p, s' (.row p) = s (.row p)) ∧
      (∀ p, p ∉ peers → s' (.stamps p) = s (.stamps p)) ∧
      (peers.Nodup → ∀ p ∈ peers, s' (.stamps p) = retain r.now (s (.stamps p)) ++ [r.now]) := by
  induction peers generalizing s with
  | nil => exact ⟨s, rfl, by simp, by simp, by simp⟩
  | cons q qs ih =>
    obtain ⟨s', hrun, hrows, hrest, hrec⟩ := ih (Function.update s (.stamps q)
      (retain r.now (s (.stamps q)) ++ [r.now]))
    refine ⟨s', hrun, fun p => (hrows p).trans (Function.update_of_ne (by simp) _ _), ?_, ?_⟩
    · intro p hp
      rw [List.mem_cons, not_or] at hp
      exact (hrest p hp.2).trans (Function.update_of_ne (by simpa using hp.1) _ _)
    · intro hnd p hp
      rw [List.nodup_cons] at hnd
      by_cases hpq : p = q
      · subst hpq
        exact (hrest p hnd.1).trans (Function.update_self _ _ _)
      · have hqs : p ∈ qs := (List.mem_cons.mp hp).resolve_left hpq
        rw [hrec hnd.2 p hqs, Function.update_of_ne (by simpa using hpq)]

end Batch

variable [SerdeJson] [HostText]

theorem lawful_finish (r : Request) (s : Db) (response : Json) :
    Lawful r s ((finish response).run s).1 ((finish response).run s).2 :=
  ⟨fun _ => .inl rfl, fun _ _ => .inl ⟨by simp [finish, Prog.run], .inl rfl⟩⟩

theorem lawful_pruned {r : Request} {s : Db} {peer : String} (response : Json)
    (hl : Limited r.action) (hn : Names r peer) :
    Lawful r s ⟨response, []⟩
      (Function.update s (.stamps peer) (retain r.now (s (.stamps peer)))) := by
  constructor
  · intro p
    exact .inl (Function.update_of_ne (by simp) _ _)
  · intro _ p
    refine .inl ⟨by simp, ?_⟩
    by_cases hp : p = peer
    · subst hp
      exact .inr ⟨hl, hn, Function.update_self _ _ _⟩
    · exact .inl (Function.update_of_ne (by simpa using hp) _ _)

/-- A single peer's change: the limit allows it, the row is replaced, the change counted. -/
theorem lawful_upserted {r : Request} {s : Db} {peer : String} {write : PolicyRow}
    {success : Json} (hl : Limited r.action) (hn : Names r peer) (ha : Acknowledged success)
    (hw : Within r.now (s (.stamps peer)))
    (hc : Drops r peer ∨ Carries (policyForPeer (s (.row peer)) peer r.now) (some write)) :
    Lawful r s ⟨success, [peer]⟩
      (Function.update (Function.update s (.row peer) (some write)) (.stamps peer)
        (retain r.now (s (.stamps peer)) ++ [r.now])) := by
  constructor
  · intro p
    by_cases hp : p = peer
    · subst hp
      refine .inr ⟨hn, ha, by simp, ?_⟩
      rwa [Function.update_of_ne (by simp), Function.update_self]
    · exact .inl ((Function.update_of_ne (by simp) _ _).trans
        (Function.update_of_ne (by simpa using hp) _ _))
  · intro _ p
    by_cases hp : p = peer
    · subst hp
      exact .inr ⟨by simp, hl, hn, hw, Function.update_self _ _ _⟩
    · refine .inl ⟨List.count_eq_zero.mpr (by simpa using hp), .inl ?_⟩
      exact (Function.update_of_ne (by simpa using hp) _ _).trans
        (Function.update_of_ne (by simp) _ _)

/-- The check, and after it the write and its count, from the state the read left. -/
theorem lawful_checked {r : Request} {s : Db} {peer : String} {write : PolicyRow}
    {success limited : Json} (hl : Limited r.action) (hn : Names r peer)
    (ha : Acknowledged success)
    (hc : Drops r peer ∨ Carries (policyForPeer (s (.row peer)) peer r.now) (some write)) :
    Lawful r s
      ((rateLimitAllows r peer fun allowed =>
        if allowed then completeUpsert r peer write success else finish limited).run s).1
      ((rateLimitAllows r peer fun allowed =>
        if allowed then completeUpsert r peer write success else finish limited).run s).2 := by
  rw [run_rateLimitAllows]
  by_cases hw : Within r.now (s (.stamps peer))
  · rw [if_pos (decide_eq_true hw)]
    unfold completeUpsert completedWrite
    cases hr : r.ack with
    | applied =>
      have hrun : (Prog.store [⟨.row peer, some write⟩]
          (recordCompletedChange r peer (.done ⟨success, [peer]⟩))).run
            (Function.update s (.stamps peer) (retain r.now (s (.stamps peer)))) =
          ((⟨success, [peer]⟩ : Outcome),
            Function.update (Function.update s (.row peer) (some write)) (.stamps peer)
              (retain r.now (s (.stamps peer)) ++ [r.now])) := by
        refine Prod.ext rfl ?_
        simp only [recordCompletedChange, Prog.run, replaceAll, List.foldl]
        rw [Function.update_of_ne (by simp), Function.update_self, retain_retain le_rfl,
          Function.update_comm (by simp), Function.update_idem, Function.update_comm (by simp)]
      rw [hrun]
      exact lawful_upserted hl hn ha hw hc
    | notAdmitted d => exact lawful_pruned _ hl hn
    | storageFailure d => exact lawful_pruned _ hl hn
  · rw [if_neg fun h => hw (of_decide_eq_true h)]
    exact lawful_pruned _ hl hn

theorem lawful_existing {r : Request} {s : Db} {peer : String} {k : PeerPolicy → Work}
    (h : Lawful r s ((k (policyForPeer (s (.row peer)) peer r.now)).run s).1
      ((k (policyForPeer (s (.row peer)) peer r.now)).run s).2) :
    Lawful r s ((existingPolicy r peer k).run s).1 ((existingPolicy r peer k).run s).2 := by
  simp only [existingPolicy, Prog.run]
  cases r.readFault peer with
  | some e => exact lawful_finish r s _
  | none => exact h

theorem lawful_limitedUpsert {r : Request} {s : Db} {peer : String} {limited : Json}
    {plan : PeerPolicy → PolicyRow × Json} (hl : Limited r.action) (hn : Names r peer)
    (ha : ∀ existing, Acknowledged (plan existing).2)
    (hc : ∀ existing, Drops r peer ∨ Carries existing (some (plan existing).1)) :
    Lawful r s ((limitedUpsert r peer limited plan).run s).1
      ((limitedUpsert r peer limited plan).run s).2 :=
  lawful_existing (lawful_checked hl hn (ha _) (hc _))

theorem lawful_mergedUpsert [RustText.UnicodeCase] {r : Request} {s : Db} {peer : String}
    {u : PolicyUpdate} {success : PeerPolicy → Json}
    (hl : Limited r.action) (hn : Names r peer) (ha : ∀ p, Acknowledged (success p))
    (hc : ∀ p, mergePolicy (policyForPeer (s (.row peer)) peer r.now) u r.now .single = .ok p →
      Drops r peer ∨ Carries (policyForPeer (s (.row peer)) peer r.now) (some (mergedRow p))) :
    Lawful r s
      ((mergedUpsert r (policyForPeer (s (.row peer)) peer r.now) u success).run s).1
      ((mergedUpsert r (policyForPeer (s (.row peer)) peer r.now) u success).run s).2 := by
  unfold mergedUpsert
  cases hm : mergePolicy (policyForPeer (s (.row peer)) peer r.now) u r.now .single with
  | error e => exact lawful_finish r s e
  | ok p =>
    simp only [policyForPeer_peerId]
    exact lawful_checked hl hn (ha p) (hc p hm)

theorem lawful_delete {r : Request} {s : Db} {peer : String} {deleted absent : Json}
    (hl : ¬ Limited r.action) (hn : Names r peer) (hd : Drops r peer) (ha : Acknowledged deleted) :
    Lawful r s ((deletePeerPolicy r peer deleted absent).run s).1
      ((deletePeerPolicy r peer deleted absent).run s).2 := by
  unfold deletePeerPolicy completedWrite
  cases r.ack with
  | notAdmitted d => exact lawful_finish r s _
  | storageFailure d => exact lawful_finish r s _
  | applied =>
    simp only [Prog.run, finish]
    constructor
    · intro p
      by_cases hp : p = peer
      · subst hp
        cases hr : s (.row p) with
        | none => exact .inl (by rw [Function.update_self]; exact hr.symm)
        | some w => exact .inr ⟨hn, by simpa using ha, fun h => absurd h hl, .inl hd⟩
      · exact .inl (Function.update_of_ne (by simpa using hp) _ _)
    · intro _ p
      exact .inl ⟨by simp, .inl (Function.update_of_ne (by simp) _ _)⟩

section Whole

def Merged (r : Request) (s : Db) (policies : List PeerPolicy) : Prop :=
  ∀ p ∈ policies, Names r p.peerId ∧ (Drops r p.peerId ∨
    Carries (policyForPeer (s (.row p.peerId)) p.peerId r.now) (some (mergedRow p)))

theorem lawful_commitBatch {r : Request} {s : Db} {policies : List PeerPolicy}
    (hl : Limited r.action) (hm : Merged r s policies)
    (hd : DistinctPeers r → (policies.map PeerPolicy.peerId).Nodup) :
    Lawful r s ((commitBatch r policies).run s).1 ((commitBatch r policies).run s).2 := by
  have hnames : ∀ p ∈ policies.map PeerPolicy.peerId, Names r p := by
    intro p hp
    obtain ⟨q, hq, rfl⟩ := List.mem_map.mp hp
    exact (hm q hq).1
  -- a batch that ends without a write has pruned at most
  have hpruned : ∀ (s' : Db) (response : Json), (∀ p, s' (.row p) = s (.row p)) →
      (∀ p, s' (.stamps p) = s (.stamps p) ∨ (p ∈ policies.map PeerPolicy.peerId ∧
        s' (.stamps p) = retain r.now (s (.stamps p)))) → Lawful r s ⟨response, []⟩ s' := by
    intro s' response hr hs
    refine ⟨fun p => .inl (hr p), fun _ p => .inl ⟨by simp, ?_⟩⟩
    exact (hs p).imp id fun h => ⟨hl, hnames p h.1, h.2⟩
  unfold commitBatch
  obtain ⟨s₁, hr₁, hs₁, hrun⟩ := run_checkLimits r (completedWrite r
    (.store (policies.map fun p => ⟨.row p.peerId, some (mergedRow p)⟩)
      (recordAll r (.done ⟨batchSuccess policies r.now, policies.map PeerPolicy.peerId⟩)
        (policies.map PeerPolicy.peerId)))) (policies.map PeerPolicy.peerId) s
  rcases hrun with ⟨hrun, hlimit⟩ | ⟨response, hrun⟩
  · rw [hrun]
    unfold completedWrite
    cases r.ack with
    | notAdmitted d => exact hpruned s₁ _ hr₁ hs₁
    | storageFailure d => exact hpruned s₁ _ hr₁ hs₁
    | applied =>
      simp only [Prog.run]
      obtain ⟨s₂, hrec, hr₂, hrest, hcount⟩ := run_recordAll r
        ⟨batchSuccess policies r.now, policies.map PeerPolicy.peerId⟩
        (policies.map PeerPolicy.peerId)
        (replaceAll (policies.map fun p =>
          (⟨.row p.peerId, some (mergedRow p)⟩ : (c : Cell) × CellValue c)) s₁)
      rw [hrec]
      have hstamps : ∀ p, replaceAll (policies.map fun p =>
          (⟨.row p.peerId, some (mergedRow p)⟩ : (c : Cell) × CellValue c)) s₁ (.stamps p) =
            s₁ (.stamps p) := fun p => replaceAll_of_notMem _ _ (by simp)
      constructor
      · intro p
        by_cases hp : p ∈ policies.map PeerPolicy.peerId
        · obtain ⟨q, hq, hqp, hrow⟩ := replaceAll_mergedRow policies s₁ hp
          refine .inr ⟨hnames p hp, rfl, fun _ => hp, ?_⟩
          subst hqp
          have hfinal : s₂ (.row q.peerId) = some (mergedRow q) := (hr₂ _).trans hrow
          have hlaw := (hm q hq).2
          rw [← hfinal] at hlaw
          exact hlaw
        · refine .inl ((hr₂ p).trans ((replaceAll_of_notMem _ _ ?_).trans (hr₁ p)))
          simpa using hp
      · intro hdist p
        by_cases hp : p ∈ policies.map PeerPolicy.peerId
        · obtain ⟨hw, hret⟩ := hlimit p hp
          refine .inr ⟨List.count_eq_one_of_mem (hd hdist) hp, hl, hnames p hp, hw,
            (hcount (hd hdist) p hp).trans ?_⟩
          rw [hstamps, hret, retain_retain le_rfl]
        · refine .inl ⟨List.count_eq_zero.mpr hp, .inl ?_⟩
          calc s₂ (.stamps p) = s₁ (.stamps p) := (hrest p hp).trans (hstamps p)
            _ = s (.stamps p) := (hs₁ p).resolve_right fun h => hp h.1
  · rw [hrun]
    exact hpruned s₁ response hr₁ hs₁

variable [RustText.UnicodeCase]

theorem merged_entry {r : Request} {s : Db} {entry : Json} {u : PolicyUpdate} {p : PeerPolicy}
    {entries : List Json} (ha : r.action = .policyBatch)
    (he : batchUpdates r.params = .ok entries) (hmem : entry ∈ entries)
    (hu : entryUpdate entry (entryPeer entry) = .ok u)
    (hp : mergePolicy (policyForPeer (s (.row (entryPeer entry))) (entryPeer entry) r.now) u
      r.now .batch = .ok p) :
    p.peerId = entryPeer entry ∧ Names r p.peerId ∧ (Drops r p.peerId ∨
      Carries (policyForPeer (s (.row p.peerId)) p.peerId r.now) (some (mergedRow p))) := by
  obtain ⟨hpeer, htags⟩ := mergePolicy_ok hp
  rw [policyForPeer_peerId] at hpeer
  have hutags : u.tags = .raw (entry.get "tags") := by
    simp only [entryUpdate, bind, Except.bind, pure, Except.pure] at hu
    repeat' split at hu
    all_goals cases hu
    rfl
  refine ⟨hpeer, ?_, ?_⟩
  · unfold Names
    rw [ha, hpeer]
    exact ⟨entries, he, entry, hmem, rfl⟩
  · rw [hpeer]
    cases ht : entry.get "tags" with
    | some v =>
      left
      unfold Drops
      rw [ha]
      exact ⟨entries, he, entry, hmem, rfl, by rw [ht]; rfl⟩
    | none =>
      right
      apply carries_mergedRow
      rw [hutags, ht] at htags
      rw [← Except.ok.inj htags]
      exact id

theorem lawful_batchEntries {r : Request} {s : Db} {entries : List Json}
    (ha : r.action = .policyBatch) (he : batchUpdates r.params = .ok entries) :
    ∀ (rest before : List Json) (policies : List PeerPolicy), before ++ rest = entries →
      policies.map PeerPolicy.peerId = before.map entryPeer → Merged r s policies →
      Lawful r s ((batchEntries r policies rest).run s).1
        ((batchEntries r policies rest).run s).2
  | [], before, policies, hb, hp, hm => by
    have hbe : before = entries := by rw [← hb, List.append_nil]
    apply lawful_commitBatch (by rw [ha]; trivial) hm
    intro hd
    rw [hp, hbe]
    exact hd ha entries he
  | entry :: rest, before, policies, hb, hp, hm => by
    unfold batchEntries
    by_cases hv : isValidPeerId (entryPeer entry)
    · simp only [hv, if_true]
      apply lawful_existing
      cases hu : entryUpdate entry (entryPeer entry) with
      | error e => exact lawful_finish r s e
      | ok u =>
        simp only
        cases hmp : mergePolicy (policyForPeer (s (.row (entryPeer entry))) (entryPeer entry)
            r.now) u r.now .batch with
        | error e => exact lawful_finish r s e
        | ok p =>
          have hmem : entry ∈ entries := by rw [← hb]; simp
          obtain ⟨hpeer, hlaw⟩ := merged_entry ha he hmem hu hmp
          refine lawful_batchEntries ha he rest (before ++ [entry]) (policies ++ [p])
            (by simpa using hb) (by simp [hp, hpeer]) ?_
          intro q hq
          rcases List.mem_append.mp hq with hq | hq
          · exact hm q hq
          · rw [List.mem_singleton] at hq
            subst hq
            exact hlaw
    · simp only [hv]
      exact lawful_finish r s _

omit [SerdeJson] [HostText] [RustText.UnicodeCase] in
theorem peerId_ok {params : JsonMap} {peer : String} (h : peerId params = .ok peer) :
    peerParam params = peer := by
  simp only [peerId] at h
  split at h
  · exact Except.ok.inj h
  · cases h

omit [SerdeJson] [HostText] [RustText.UnicodeCase] in
theorem policyPeer_ok {params : JsonMap} {usage peer : String}
    (h : policyPeer params usage = .ok peer) : peerParam params = peer := by
  simp only [policyPeer] at h
  split at h
  · cases h
  · split at h
    · exact Except.ok.inj h
    · cases h

omit [HostText] [RustText.UnicodeCase] in
/-- An addition keeps every tag; a removal keeps each tag but the one named. -/
theorem changedTags_keeps {add : Bool} {raw : Json} {tags tags' : List String}
    (h : changedTags add raw tags = some tags') (hraw : add = false → raw ≠ .str bannedTag)
    (hb : bannedTag ∈ tags) : bannedTag ∈ tags' := by
  cases add with
  | true =>
    simp only [changedTags, if_true] at h
    split at h
    · cases h
    · rw [← Option.some.inj h]
      exact List.mem_append_left _ hb
  | false =>
    cases raw with
    | str t =>
      simp only [changedTags, Bool.false_eq_true, if_false] at h
      split at h
      · have hne : bannedTag ≠ t := fun hbt => hraw rfl (by rw [hbt])
        rw [← Option.some.inj h, List.mem_filter]
        exact ⟨hb, decide_eq_true hne⟩
      · cases h
    | null => simp [changedTags] at h
    | bool b => simp [changedTags] at h
    | int n => simp [changedTags] at h
    | float x => simp [changedTags] at h
    | arr items => simp [changedTags] at h
    | obj members => simp [changedTags] at h

theorem setUpdate_tags {params : JsonMap} {u : PolicyUpdate} (h : setUpdate params = .ok u) :
    u.tags = .keep := by
  simp only [setUpdate, bind, Except.bind, pure, Except.pure] at h
  repeat' split at h
  all_goals cases h
  rfl

theorem lawful_policyTag {r : Request} {s : Db} {add : Bool}
    (ha : r.action = if add then .policyTag else .policyUntag) :
    Lawful r s ((policyTag r add).run s).1 ((policyTag r add).run s).2 := by
  have hl : Limited r.action := by rw [ha]; cases add <;> trivial
  have hn : Names r (peerParam r.params) := by unfold Names; rw [ha]; cases add <;> rfl
  unfold policyTag
  dsimp only
  split
  · rename_i raw _ hraw
    split
    · apply lawful_existing
      cases hc : changedTags add raw
          (policyForPeer (s (.row (peerParam r.params))) (peerParam r.params) r.now).tags with
      | none => exact lawful_finish r s _
      | some tags =>
        refine lawful_mergedUpsert hl hn (fun _ => rfl) fun p hp => ?_
        have htags : tags = p.tags := Except.ok.inj (mergePolicy_ok hp).2
        by_cases hd : Drops r (peerParam r.params)
        · exact .inl hd
        · refine .inr (carries_mergedRow fun hb => ?_)
          rw [← htags]
          refine changedTags_keeps hc ?_ hb
          -- an untag of the banned tag is a request that drops it
          rintro rfl rfl
          apply hd
          unfold Drops
          rw [ha]
          exact ⟨rfl, (Option.filter_eq_some_iff.mp hraw).1⟩
    · exact lawful_finish r s _
  · exact lawful_finish r s _

theorem lawful_handle (r : Request) (s : Db) :
    Lawful r s ((handle r).run s).1 ((handle r).run s).2 := by
  unfold handle
  cases ha : r.action with
  | ignore =>
    simp only [ignore]
    split
    · exact lawful_finish r s _
    · split
      · exact lawful_finish r s _
      · rename_i hp
        have hpeer := peerId_ok hp
        refine lawful_limitedUpsert (by rw [ha]; trivial) ?_ (fun _ => rfl) fun _ => .inl ?_
        · unfold Names; rw [ha]; exact hpeer
        · unfold Drops; rw [ha]; exact hpeer
  | unignore =>
    simp only [unignore]
    split
    · exact lawful_finish r s _
    · split
      · exact lawful_finish r s _
      · rename_i hp
        have hpeer := peerId_ok hp
        refine lawful_delete (by rw [ha]; exact id) ?_ ?_ rfl
        · unfold Names; rw [ha]; exact hpeer
        · unfold Drops; rw [ha]; exact hpeer
  | ban =>
    simp only [ban]
    split
    · exact lawful_finish r s _
    · rename_i hp
      have hpeer := peerId_ok hp
      refine lawful_limitedUpsert (by rw [ha]; trivial) ?_ (fun _ => rfl) fun _ => .inr ?_
      · unfold Names; rw [ha]; exact hpeer
      · exact fun _ => banned_banPlan _ _
  | unban =>
    simp only [unban]
    split
    · exact lawful_finish r s _
    · rename_i hp
      have hpeer := peerId_ok hp
      refine lawful_limitedUpsert (by rw [ha]; trivial) ?_ (fun _ => rfl) fun _ => .inl ?_
      · unfold Names; rw [ha]; exact hpeer
      · unfold Drops; rw [ha]; exact hpeer
  | policySet =>
    simp only [policySet]
    split
    · exact lawful_finish r s _
    · rename_i hp
      have hpeer := policyPeer_ok hp
      cases hu : setUpdate r.params with
      | error e => exact lawful_finish r s e
      | ok u =>
        apply lawful_existing
        refine lawful_mergedUpsert (by rw [ha]; trivial) ?_ (fun _ => rfl) fun p hmp => .inr ?_
        · unfold Names; rw [ha]; exact hpeer
        · have htags := (mergePolicy_ok hmp).2
          rw [setUpdate_tags hu] at htags
          exact carries_mergedRow fun hb => Except.ok.inj htags ▸ hb
  | policyDelete =>
    simp only [policyDelete]
    split
    · exact lawful_finish r s _
    · rename_i hp
      have hpeer := policyPeer_ok hp
      refine lawful_delete (by rw [ha]; exact id) ?_ ?_ rfl
      · unfold Names; rw [ha]; exact hpeer
      · unfold Drops; rw [ha]; exact hpeer
  | policyTag => exact lawful_policyTag (by rw [ha]; rfl)
  | policyUntag => exact lawful_policyTag (by rw [ha]; rfl)
  | policyBatch =>
    simp only [policyBatch]
    cases he : batchUpdates r.params with
    | error e => exact lawful_finish r s e
    | ok entries =>
      simp only
      split
      · exact lawful_finish r s _
      · split
        · exact lawful_finish r s _
        · exact lawful_batchEntries ha he entries [] [] rfl rfl (by simp [Merged])

end Whole

end PolicyMutators
