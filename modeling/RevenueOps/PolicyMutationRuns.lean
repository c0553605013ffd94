import RevenueOps.PolicyMutatorLaws
import Mathlib.Data.Finset.Dedup
import Mathlib.Data.Finset.Order
import Mathlib.Data.List.Permutation

/-! Policy requests over whole runs: what a serial run keeps of a ban and of the limit, and
with it every interleaving in which no step conflicts with a request under way. -/
namespace PolicyMutators

open JsonValue PeerPolicies ConflictSerial

section Bans

theorem not_acknowledged_statusError (message : String) :
    ¬ Acknowledged (statusError message) := by
  simp [Acknowledged, statusError, Json.get]

theorem not_acknowledged_writeError (code message : String) :
    ¬ Acknowledged (writeError code message) := by
  simp [Acknowledged, writeError, Json.get]

theorem not_acknowledged_inBandError (message : String) :
    ¬ Acknowledged (inBandError message) := by
  simp [Acknowledged, inBandError, Json.get]

theorem banned_of_acknowledged {r : Request} {s : Db}
    (h : Acknowledged ((ban r).run s).1.response) :
    Banned (((ban r).run s).2 (.row (peerParam r.params))) := by
  unfold ban at h ⊢
  cases hp : peerId r.params with
  | error e =>
    simp only [hp] at h
    simp only [peerId] at hp
    split at hp
    · cases hp
    · cases hp
      exact absurd h (not_acknowledged_inBandError _)
  | ok peer =>
    rw [peerId_ok hp]
    simp only [hp] at h ⊢
    unfold limitedUpsert existingPolicy at h ⊢
    simp only [Prog.run] at h ⊢
    cases hf : r.readFault peer with
    | some e =>
      simp only [hf] at h
      exact absurd h (not_acknowledged_writeError _ _)
    | none =>
      simp only [hf, run_rateLimitAllows] at h ⊢
      by_cases hw : Within r.now (s (.stamps peer))
      · rw [if_pos (decide_eq_true hw)] at h ⊢
        unfold completeUpsert completedWrite at h ⊢
        cases ha : r.ack with
        | applied =>
          simp only [recordCompletedChange, Prog.run, replaceAll, List.foldl]
          rw [Function.update_of_ne (by simp), Function.update_self]
          exact banned_banPlan _ _
        | notAdmitted d =>
          simp only [ha] at h
          exact absurd h (not_acknowledged_writeError _ _)
        | storageFailure d =>
          simp only [ha] at h
          exact absurd h (not_acknowledged_writeError _ _)
      · rw [if_neg fun hd => hw (of_decide_eq_true hd)] at h
        exact absurd h (not_acknowledged_statusError _)

variable [SerdeJson] [HostText] [RustText.UnicodeCase]

/-- The request takes the peer's ban away by its kind, or reads the row as expired. -/
def Overrides (r : Request) (p : String) (s : Db) : Prop :=
  Drops r p ∨ (Names r p ∧ ∃ w, s (.row p) = some w ∧ isExpired w.expiresAt r.now = true)

theorem banned_step {r : Request} {s : Db} {p : String} (h : Banned (s (.row p)))
    (ho : Acknowledged ((handle r).run s).1.response → ¬ Overrides r p s) :
    Banned (((handle r).run s).2 (.row p)) := by
  rcases (lawful_handle r s).rows p with hsame | ⟨hn, hack, -, hrow⟩
  · rw [hsame]
    exact h
  · obtain ⟨w, hw, htag⟩ := h
    have hover := ho hack
    rcases hrow with hd | hc
    · exact absurd (.inl hd) hover
    · apply hc
      have hlive : isExpired w.expiresAt r.now = false := by
        by_contra hexp
        exact hover (.inr ⟨hn, w, hw, by simpa using hexp⟩)
      have hread : policyForPeer (some w) p r.now = decodePolicyRow p w := by
        simp [policyForPeer, hlive]
      rw [hw, hread]
      exact htag

theorem banned_serial {p : String} (rs : List Request) (s : Db) (h : Banned (s (.row p)))
    (ho : ∀ mid q out rest, (serial handle s rs).1 = mid ++ (q, out) :: rest →
      Acknowledged out.response → ¬ Overrides q p (serial handle s (mid.map Prod.fst)).2) :
    Banned ((serial handle s rs).2 (.row p)) := by
  induction rs generalizing s with
  | nil => exact h
  | cons r rs ih =>
    apply ih
    · exact banned_step h (ho [] r _ _ rfl)
    · intro mid q out rest hsplit hack
      exact ho ((r, ((handle r).run s).1) :: mid) q out rest
        (by simp only [serial, hsplit, List.cons_append]) hack

end Bans

section Limits

def changes (p : String) (answered : List (Request × Outcome)) : List ℤ :=
  answered.flatMap fun a => List.replicate (a.2.counted.count p) a.1.now

def window (start : ℤ) (clocks : List ℤ) : List ℤ :=
  clocks.filter fun t => decide (start ≤ t ∧ t < start + 60)

/-- One more change under the limit: a window that has it holds at most ten. -/
theorem window_snoc {clocks : List ℤ} {now : ℤ} (hlimit : (retain now clocks).length < 10)
    (h : ∀ start, (window start clocks).length ≤ 10) (start : ℤ) :
    (window start (clocks ++ [now])).length ≤ 10 := by
  unfold window
  rw [List.filter_append, List.length_append]
  by_cases hn : start ≤ now ∧ now < start + 60
  · have hsub : (clocks.filter fun t => decide (start ≤ t ∧ t < start + 60)).Sublist
        (retain now clocks) := by
      apply List.monotone_filter_right
      intro t ht
      have ht := of_decide_eq_true ht
      exact decide_eq_true (by omega)
    have hlen := hsub.length_le
    simp only [List.filter_cons, hn, and_self, decide_true, if_true, List.filter_nil,
      List.length_singleton]
    omega
  · have hs := h start
    unfold window at hs
    simp only [List.filter_cons, hn, decide_false, List.filter_nil]
    simpa using hs

variable [SerdeJson] [HostText] [RustText.UnicodeCase]

def Counts (r : Request) (p : String) : Prop := Limited r.action ∧ Names r p

/-- Requests that look at one count are answered in the order of their clocks. -/
def ClockOrdered (answered : List (Request × Outcome)) : Prop :=
  answered.Pairwise fun a b => ∀ p, Counts a.1 p → Counts b.1 p → a.1.now ≤ b.1.now

theorem window_serial {p : String} (rs : List Request) (s : Db) (clocks : List ℤ) (last : ℤ)
    (hs : ∀ now, last ≤ now → retain now (s (.stamps p)) = retain now clocks)
    (hlast : ∀ r ∈ rs, Counts r p → last ≤ r.now)
    (hord : rs.Pairwise fun a b => Counts a p → Counts b p → a.now ≤ b.now)
    (hd : ∀ r ∈ rs, DistinctPeers r) (hw : ∀ start, (window start clocks).length ≤ 10)
    (start : ℤ) :
    (window start (clocks ++ changes p (serial handle s rs).1)).length ≤ 10 := by
  induction rs generalizing s clocks last with
  | nil => simpa [serial, changes] using hw start
  | cons r rs ih =>
    rw [List.pairwise_cons] at hord
    have hnext : changes p (serial handle s (r :: rs)).1 =
        List.replicate (((handle r).run s).1.counted.count p) r.now ++
          changes p (serial handle ((handle r).run s).2 rs).1 := rfl
    have hlater : Counts r p → ∀ q ∈ rs, Counts q p → r.now ≤ q.now :=
      fun hr q hq hqp => hord.1 q hq hr hqp
    have hrest : ∀ q ∈ rs, DistinctPeers q := fun q hq => hd q (List.mem_cons_of_mem _ hq)
    rw [hnext]
    rcases (lawful_handle r s).stamps (hd r List.mem_cons_self) p with
      ⟨hc, hst⟩ | ⟨hc, hl, hn, hwithin, hst⟩
    · rw [hc, List.replicate_zero, List.nil_append]
      rcases hst with hst | ⟨hl, hn, hst⟩
      · apply ih _ clocks last _ (fun q hq => hlast q (List.mem_cons_of_mem _ hq)) hord.2 hrest hw
        intro now hnow
        exact (congrArg (retain now) hst).trans (hs now hnow)
      · have hr := hlast r List.mem_cons_self ⟨hl, hn⟩
        apply ih _ clocks r.now _ (hlater ⟨hl, hn⟩) hord.2 hrest hw
        intro now hnow
        rw [hst, retain_retain hnow]
        exact hs now (by omega)
    · have hr := hlast r List.mem_cons_self ⟨hl, hn⟩
      rw [hc, List.replicate_one, ← List.append_assoc]
      apply ih _ (clocks ++ [r.now]) r.now _ (hlater ⟨hl, hn⟩) hord.2 hrest
      · apply window_snoc _ hw
        rw [← hs r.now hr]
        exact hwithin
      · intro now hnow
        rw [hst]
        unfold retain
        rw [List.filter_append, List.filter_append]
        congr 1
        exact (retain_retain hnow _).trans (hs now (by omega))

end Limits

section Runs

def Fresh (s : Db) : Prop := ∀ p, s (.stamps p) = []

variable [SerdeJson] [HostText] [RustText.UnicodeCase]

/-- A ban in a serial list of answers lasts unless a later answer overrides it. -/
theorem banned_answered {s : Db} {answered pre post : List (Request × Outcome)} {ban : Request}
    {out : Outcome} {p : String}
    (hserial : (serial handle s (answered.map Prod.fst)).1 = answered)
    (hsplit : answered = pre ++ (ban, out) :: post) (hban : ban.action = .ban)
    (hn : Names ban p) (hack : Acknowledged out.response)
    (ho : ∀ mid q qout rest, post = mid ++ (q, qout) :: rest → Acknowledged qout.response →
      ¬ Overrides q p (serial handle s ((pre ++ (ban, out) :: mid).map Prod.fst)).2) :
    Banned ((serial handle s (answered.map Prod.fst)).2 (.row p)) := by
  subst hsplit
  obtain ⟨hout, hpost⟩ := serial_split hserial
  have hpeer : peerParam ban.params = p := by
    unfold Names at hn
    rw [hban] at hn
    exact hn
  have hhandle : handle ban = PolicyMutators.ban ban := by
    unfold handle
    rw [hban]
  have hbanned : Banned (((handle ban).run (serial handle s (pre.map Prod.fst)).2).2 (.row p)) := by
    rw [hhandle, ← hpeer]
    apply banned_of_acknowledged
    rw [← hhandle, hout]
    exact hack
  have hmid : ∀ mid : List (Request × Outcome),
      (serial handle s ((pre ++ (ban, out) :: mid).map Prod.fst)).2 =
        (serial handle ((handle ban).run (serial handle s (pre.map Prod.fst)).2).2
          (mid.map Prod.fst)).2 := by
    intro mid
    rw [List.map_append, serial_append]
    rfl
  rw [hmid post]
  apply banned_serial _ _ hbanned
  intro mid q qout rest hq hqack
  rw [← hmid mid]
  exact ho mid q qout rest (hpost.symm.trans hq) hqack

/-- Requests whose steps do not conflict act as if they ran one by one, as answered: an
acknowledged ban lasts until it is overridden, and ten changes a minute is the most. -/
theorem mutations_are_serial (s : Db) (hfresh : Fresh s) (es : List (Event Request))
    (hfree : ConflictFree handle (initial s) es)
    (hset : Settled (exec handle (initial s) es)) :
    serial handle s ((exec handle (initial s) es).answered.map Prod.fst) =
        ((exec handle (initial s) es).answered, (exec handle (initial s) es).store) ∧
      (∀ pre ban out post p, (exec handle (initial s) es).answered = pre ++ (ban, out) :: post →
        ban.action = .ban → Names ban p → Acknowledged out.response →
        (∀ mid q qout rest, post = mid ++ (q, qout) :: rest → Acknowledged qout.response →
          ¬ Overrides q p (serial handle s ((pre ++ (ban, out) :: mid).map Prod.fst)).2) →
        Banned ((exec handle (initial s) es).store (.row p))) ∧
      (ClockOrdered (exec handle (initial s) es).answered →
        (∀ a ∈ (exec handle (initial s) es).answered, DistinctPeers a.1) →
        ∀ p start,
          (window start (changes p (exec handle (initial s) es).answered)).length ≤ 10) := by
  have hserial := settled_serial hfree hset
  have hanswers := congrArg Prod.fst hserial
  have hstore := congrArg Prod.snd hserial
  refine ⟨hserial, ?_, ?_⟩
  · intro pre ban out post p hsplit hban hn hack ho
    have h := banned_answered hanswers hsplit hban hn hack ho
    rw [hstore] at h
    exact h
  · intro hord hd p start
    have hpairs : ((exec handle (initial s) es).answered.map Prod.fst).Pairwise
        fun a b => Counts a p → Counts b p → a.now ≤ b.now := by
      rw [List.pairwise_map]
      exact hord.imp fun h => h p
    have hdist : ∀ r ∈ (exec handle (initial s) es).answered.map Prod.fst,
        DistinctPeers r := by
      intro r hr
      obtain ⟨a, ha, rfl⟩ := List.mem_map.mp hr
      exact hd a ha
    -- no change is counted before the first request, so any early clock starts the account
    obtain ⟨back, hback⟩ := Finset.exists_le
      ((exec handle (initial s) es).answered.map
        fun a : Request × Outcome => -a.1.now).toFinset
    have hlate : ∀ r ∈ (exec handle (initial s) es).answered.map Prod.fst,
        Counts r p → -back ≤ r.now := by
      intro r hr _
      obtain ⟨a, ha, rfl⟩ := List.mem_map.mp hr
      have hle := hback (-a.1.now) (List.mem_toFinset.mpr
        (List.mem_map_of_mem (f := fun a : Request × Outcome => -a.1.now) ha))
      omega
    have h := window_serial _ s [] (-back) (fun now _ => congrArg (retain now) (hfresh p)) hlate
      hpairs hdist (fun _ => by simp [window]) start
    rw [hanswers] at h
    simpa using h

end Runs

section Example

@[reducible] def plainJson : SerdeJson := ⟨fun _ => none, fun _ => ""⟩
@[reducible] def plainText : HostText := ⟨fun _ => "", fun _ => none, fun _ => ""⟩

abbrev sampleHandle : Request → Work := @handle plainJson plainText RustText.asciiCase

def samplePeer : String := "02aaaaaaaaaaaaaaaaaaaaaaaaaaaaaaaaaaaaaaaaaaaaaaaaaaaaaaaaaaaaaaaa"
def otherPeer : String := "03aaaaaaaaaaaaaaaaaaaaaaaaaaaaaaaaaaaaaaaaaaaaaaaaaaaaaaaaaaaaaaaa"

def emptyDb : Db
  | .row _ => none
  | .stamps _ => []

def sampleRequest (action : Action) (params : JsonMap) (now : ℤ) : Request :=
  ⟨action, params, now, fun _ => none, .applied⟩

def sampleBan (peer : String) (now : ℤ) : Request :=
  sampleRequest .ban [("peer_id", .str peer)] now

def sampleTag (peer : String) (now : ℤ) : Request :=
  sampleRequest .policyTag [("peer_id", .str peer), ("tag", .str "vip")] now

def sampleIgnore (peer : String) (now : ℤ) : Request :=
  sampleRequest .ignore [("internal", .bool true), ("peer_id", .str peer)] now

def sampleBatch (now : ℤ) : Request :=
  sampleRequest .policyBatch
    [("updates", .arr (List.replicate 11 (.obj [("peer_id", .str samplePeer)])))] now

abbrev sampleRun (es : List (Event Request)) : State CellValue Outcome Request :=
  exec sampleHandle (initial emptyDb) es

def alone (request : Request) (steps : ℕ) : List (Event Request) :=
  .start 0 request :: (List.replicate steps (.advance 0) ++ [.answer 0])

/-- Two bans of two peers, step by step in turn, then a tag for one of them. -/
def twoPeers : List (Event Request) :=
  [.start 0 (sampleBan samplePeer 100), .start 1 (sampleBan otherPeer 101), .advance 0,
    .advance 1, .advance 1, .advance 0, .advance 0, .advance 1, .advance 1, .answer 1,
    .advance 0, .answer 0, .start 2 (sampleTag samplePeer 102), .advance 2, .advance 2,
    .advance 2, .advance 2, .answer 2]

theorem below_initial (b : ℕ) : Below b (initial emptyDb : State CellValue Outcome Request) :=
  fun _ _ => rfl

theorem twoPeers_answers : ∃ first second third,
    (sampleRun twoPeers).answered = [(sampleBan otherPeer 101, first),
      (sampleBan samplePeer 100, second), (sampleTag samplePeer 102, third)] ∧
    Acknowledged second.response := ⟨_, _, _, rfl, rfl⟩

theorem twoPeers_answered : (sampleRun twoPeers).answered.map Prod.fst =
    [sampleBan otherPeer 101, sampleBan samplePeer 100, sampleTag samplePeer 102] := by
  obtain ⟨first, second, third, hanswered, -⟩ := twoPeers_answers
  rw [hanswered]
  rfl

section Interleaved

local instance sampleJson : SerdeJson := plainJson
local instance sampleText : HostText := plainText
local instance sampleCase : RustText.UnicodeCase := RustText.asciiCase

theorem twoPeers_ordered : ClockOrdered (sampleRun twoPeers).answered := by
  have hpeers : ∀ p, Counts (sampleBan otherPeer 101) p →
      ¬ Counts (sampleBan samplePeer 100) p := by
    rintro p ⟨-, hother⟩ ⟨-, hsample⟩
    exact absurd (hother.trans hsample.symm) (by decide)
  have hpairs : ((sampleRun twoPeers).answered.map Prod.fst).Pairwise
      fun a b => ∀ p, Counts a p → Counts b p → a.now ≤ b.now := by
    rw [twoPeers_answered]
    simp only [List.pairwise_cons, List.mem_cons, List.not_mem_nil, or_false, forall_eq_or_imp,
      forall_eq, false_implies, implies_true, List.Pairwise.nil, and_true]
    exact ⟨⟨fun p h k => absurd k (hpeers p h), fun _ _ _ => by decide⟩, fun _ _ _ => by decide⟩
  exact List.pairwise_map.mp hpairs

/-- The tag request after the two bans neither drops the ban nor finds its row expired. -/
theorem tag_keeps_ban : ¬ Overrides (sampleTag samplePeer 102) samplePeer
    (serial sampleHandle emptyDb [sampleBan otherPeer 101, sampleBan samplePeer 100]).2 := by
  rintro (hdrops | ⟨-, w, hw, hexpired⟩)
  · exact hdrops
  · have hlive : ((serial sampleHandle emptyDb
        [sampleBan otherPeer 101, sampleBan samplePeer 100]).2 (.row samplePeer) :
          Option PolicyRow).all (fun w => !isExpired w.expiresAt 102) = true := by decide
    rw [hw] at hlive
    change isExpired w.expiresAt 102 = true at hexpired
    simp [hexpired] at hlive

theorem interleaved_bans_are_serial :
    serial sampleHandle emptyDb ((sampleRun twoPeers).answered.map Prod.fst) =
        ((sampleRun twoPeers).answered, (sampleRun twoPeers).store) ∧
      Banned ((sampleRun twoPeers).store (.row samplePeer)) ∧
      ∀ p start, (window start (changes p (sampleRun twoPeers).answered)).length ≤ 10 := by
  have hrun : checkedRun sampleHandle 3 (initial emptyDb) twoPeers = true := by decide
  obtain ⟨hfree, hset⟩ := checkedRun_sound (below_initial 3) hrun
  obtain ⟨hserial, hbanned, hlimit⟩ :=
    mutations_are_serial emptyDb (fun _ => rfl) twoPeers hfree hset
  refine ⟨hserial, ?_, hlimit twoPeers_ordered ?_⟩
  · obtain ⟨first, second, third, hanswered, hack⟩ := twoPeers_answers
    refine hbanned [(sampleBan otherPeer 101, first)] _ second _ samplePeer hanswered rfl rfl
      hack ?_
    intro mid q out rest hpost _
    -- the tag request is all that follows the ban
    obtain ⟨rfl, hq⟩ | ⟨_, -, hq⟩ := List.cons_eq_append_iff.mp hpost
    · obtain ⟨heq, -⟩ := List.cons.inj hq
      obtain ⟨rfl, -⟩ := Prod.mk.inj heq
      exact tag_keeps_ban
    · simp at hq
  · intro a ha hbatch
    have hall : ∀ r ∈ (sampleRun twoPeers).answered.map Prod.fst, r.action ≠ .policyBatch := by
      rw [twoPeers_answered]
      decide
    exact absurd hbatch (hall a.1 (List.mem_map_of_mem ha))

end Interleaved

def overtakenTag : List (Event Request) :=
  [.start 0 (sampleTag samplePeer 100), .advance 0, .start 1 (sampleBan samplePeer 101),
    .advance 1, .advance 1, .advance 1, .advance 1, .answer 1, .advance 0, .advance 0,
    .advance 0, .answer 0]

def banThenIgnore : List (Event Request) :=
  alone (sampleBan samplePeer 100) 4 ++ alone (sampleIgnore samplePeer 101) 4

def clockSetBack : List (Event Request) :=
  ([100, 100, 100, 100, 100, 100, 100, 100, 100, 100, 161, 100].flatMap fun now =>
    alone (sampleBan samplePeer now) 4)

def storedTags (m : State CellValue Outcome Request) : Option (List String) :=
  (m.store (.row samplePeer) : Option PolicyRow).map fun w => decodeTagsJson w.tags

theorem not_banned_of_storedTags {m : State CellValue Outcome Request} {tags : List String}
    (h : storedTags m = some tags) (ht : bannedTag ∉ tags) :
    ¬ Banned (m.store (.row samplePeer)) := by
  rintro ⟨w, hw, hmem⟩
  unfold storedTags at h
  rw [hw] at h
  exact ht (Option.some.inj h ▸ hmem)

/-- An overtaken write drops an acknowledged ban, so does a later ignore; a batch with one peer
many times, and a clock set back, pass more than ten changes in a minute. -/
theorem mutations_lose_a_ban :
    (Settled (sampleRun overtakenTag) ∧
      ((sampleRun overtakenTag).answered.map fun a => (a.1.action, a.2.counted.length)) =
        [(.ban, 1), (.policyTag, 1)] ∧
      ¬ Banned ((sampleRun overtakenTag).store (.row samplePeer)) ∧
      ∀ rs, rs.Perm ((sampleRun overtakenTag).answered.map Prod.fst) →
        (serial sampleHandle emptyDb rs).2 ≠ (sampleRun overtakenTag).store) ∧
    (ConflictFree sampleHandle (initial emptyDb) banThenIgnore ∧
      Settled (sampleRun banThenIgnore) ∧
      ((sampleRun banThenIgnore).answered.map fun a => (a.1.action, a.2.counted.length)) =
        [(.ban, 1), (.ignore, 1)] ∧
      ¬ Banned ((sampleRun banThenIgnore).store (.row samplePeer))) ∧
    (ConflictFree sampleHandle (initial emptyDb) (alone (sampleBatch 100) 34) ∧
      Settled (sampleRun (alone (sampleBatch 100) 34)) ∧
      10 < (window 100 (changes samplePeer
        (sampleRun (alone (sampleBatch 100) 34)).answered)).length) ∧
    (ConflictFree sampleHandle (initial emptyDb) clockSetBack ∧
      Settled (sampleRun clockSetBack) ∧
      10 < (window 100 (changes samplePeer (sampleRun clockSetBack).answered)).length) := by
  refine ⟨⟨?_, by decide, ?_, ?_⟩, ?_, ?_, ?_⟩
  · exact settled_of_below (exec_below (by decide) (below_initial 2)) (by decide)
  · exact not_banned_of_storedTags (show storedTags _ = some ["vip"] by decide) (by decide)
  · intro rs hrs hstore
    have hanswered : (sampleRun overtakenTag).answered.map Prod.fst =
        [sampleBan samplePeer 101, sampleTag samplePeer 100] := rfl
    have htags : (((serial sampleHandle emptyDb rs).2 (.row samplePeer) :
        Option PolicyRow).map fun w => decodeTagsJson w.tags) = some ["vip"] := by
      rw [hstore]
      decide
    rw [hanswered, List.perm_pair] at hrs
    rcases hrs with rfl | rfl
    · exact absurd htags (by decide)
    · exact absurd htags (by decide)
  · have hrun : checkedRun sampleHandle 1 (initial emptyDb) banThenIgnore = true := by decide
    obtain ⟨hfree, hset⟩ := checkedRun_sound (below_initial 1) hrun
    exact ⟨hfree, hset, by decide,
      not_banned_of_storedTags (show storedTags _ = some ["ignored", "manual"] by decide)
        (by decide)⟩
  · have hrun : checkedRun sampleHandle 1 (initial emptyDb) (alone (sampleBatch 100) 34) =
        true := by decide +kernel
    obtain ⟨hfree, hset⟩ := checkedRun_sound (below_initial 1) hrun
    exact ⟨hfree, hset, by decide +kernel⟩
  · have hrun : checkedRun sampleHandle 1 (initial emptyDb) clockSetBack = true := by decide
    obtain ⟨hfree, hset⟩ := checkedRun_sound (below_initial 1) hrun
    exact ⟨hfree, hset, by decide⟩

end Example

end PolicyMutators
