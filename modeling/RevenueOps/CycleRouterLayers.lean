import RevenueOps.CallLog
import RevenueOps.CycleRouter
import RevenueOps.StateMachine
import Mathlib.Data.Finset.Lattice.Lemmas

/-! What every run of pricing calls leaves behind on the node: which layers were created, how each
was built, and which of them are still in the cache. -/
namespace CycleRouter

open FallibleState JsonValue RustText KeyedTable CallLog StateMachine Machine
open RouteExecutor (RpcFailure)

variable {ω ε : Type}

def createsLayer : RouterCall → String → Prop
  | .createLayer name (.ok ()), layer => name = layer
  | _, _ => False

def removesLayer : RouterCall → String → Prop
  | .removeLayer name _, layer => name = layer
  | _, _ => False

def Standing (log : List RouterCall) (layer : String) : Prop :=
  Open createsLayer removesLayer log layer

def buildCalls (layer : String) (entries : List String) : List RouterCall :=
  .createLayer layer (.ok ()) ::
    (entries.flatMap disabled).map fun scidDir => .updateChannel layer scidDir false (.ok ())

def Built (log : List RouterCall) (layer : String) (key : Finset String) : Prop :=
  ∃ entries : List String, entries.toFinset = key ∧ buildCalls layer entries <:+: log

theorem Built.mono {log log' : List RouterCall} {layer : String} {key : Finset String}
    (h : Built log layer key) (hlog : log <+: log') : Built log' layer key := by
  obtain ⟨entries, hkey, hin⟩ := h
  exact ⟨entries, hkey, hin.trans hlog.isInfix⟩

/-- What the pair wants excluded: every requested entry, and its own channels where
it names them. -/
def excluded (pair : PlannedPairCtx) (exclude : List String) : Finset String :=
  exclude.toFinset ∪ ([pair.sourceChannelId, pair.destChannelId].filter (· ≠ "")).toFinset

/-- Besides layers of the pair and askrene's own, the request names a layer that excludes what the
pair wants excluded; where that is nothing, it names no other layer. -/
def NamesLayer (log : List RouterCall) (pair : PlannedPairCtx) (exclude : List String)
    (req : GetRoutesRequest) : Prop :=
  ∃ base, (∀ l ∈ base, l ∈ pair.layerNames ∨ l = autoNoMppLayer) ∧
    ((excluded pair exclude = ∅ ∧ req.layers = base) ∨
      ∃ layer, req.layers = base ++ [layer] ∧ Built log layer (excluded pair exclude))

/-- The condition on a new log entry: only a getroutes has one. -/
def Asks (pair : PlannedPairCtx) (exclude : List String) (log : List RouterCall) :
    RouterCall → Prop
  | .getroutes req _ => NamesLayer log pair exclude req
  | _ => True

/-- Every standing layer is cached, and every cached layer was built from its entries. -/
structure Tended (s : RouterState ω) : Prop where
  cached : ∀ layer, Standing s.calls layer → ∃ l ∈ s.excludeLayers.rows, l.name = layer
  built : ∀ l ∈ s.excludeLayers.rows, Built s.calls l.name l.key

theorem tended_beginCycle (world : ω) (excludeCounter : ℕ) :
    Tended (beginCycle world excludeCounter) := by
  constructor
  · intro layer h
    exact absurd h not_open_nil
  · intro l hl
    cases hl

structure Kept (pair : PlannedPairCtx) (exclude : List String) (s t : RouterState ω) : Prop where
  grows : Grows (Asks pair exclude) s.calls t.calls
  tended : Tended s → Tended t

section Rules

variable {pair : PlannedPairCtx} {exclude : List String} {s t u : RouterState ω} {α β : Type}

theorem Kept.refl (s : RouterState ω) : Kept pair exclude s s := ⟨.refl _ _, id⟩

theorem Kept.trans (hst : Kept pair exclude s t) (htu : Kept pair exclude t u) :
    Kept pair exclude s u :=
  ⟨hst.grows.trans htu.grows, fun h => htu.tended (hst.tended h)⟩

theorem Kept.call {c : RouterCall} (hcalls : t.calls = s.calls ++ [c])
    (hlayers : t.excludeLayers = s.excludeLayers) (hask : Asks pair exclude s.calls c)
    (hcreates : ∀ layer, ¬ createsLayer c layer) : Kept pair exclude s t := by
  constructor
  · rw [hcalls]
    exact .snoc hask
  · intro h
    constructor
    · intro layer hstanding
      unfold Standing at hstanding
      rw [hcalls, open_snoc] at hstanding
      rw [hlayers]
      exact h.cached layer (hstanding.resolve_left (hcreates layer)).1
    · intro l hl
      rw [hlayers] at hl
      exact (h.built l hl).mono (by rw [hcalls]; exact List.prefix_append _ _)

variable (pair exclude) in
/-- The program keeps the log and the cache in step, whatever its outcome. -/
def Keeps (m : Route ω ε α) : Prop :=
  ∀ s, wp m (Post.ofRel fun _ t => Kept pair exclude s t) s

theorem keeps_bind {m : Route ω ε α} {f : α → Route ω ε β} (hm : Keeps pair exclude m)
    (hf : ∀ a, Keeps pair exclude (f a)) : Keeps pair exclude (m >>= f) := by
  intro s
  rw [wp_bind]
  apply wp_mono (hm s)
  · intro a t ht
    apply wp_mono (hf a t)
    · exact fun _ _ hu => ht.trans hu
    · exact fun _ _ hu => ht.trans hu
    · exact fun _ hu => ht.trans hu
  · exact fun _ _ ht => ht
  · exact fun _ ht => ht

theorem keeps_pure (a : α) : Keeps pair exclude (pure a : Route ω ε α) :=
  fun s => (wp_pure _ _ _).mpr (.refl s)

theorem keeps_throw (e : ε) : Keeps pair exclude (Eff.throw e : Route ω ε α) :=
  fun s => (wp_throw _ _ _).mpr (.refl s)

theorem keeps_checked (o : Option α) : Keeps pair exclude (Eff.checked o : Route ω ε α) :=
  fun s => (wp_checked _ _ _).mpr ⟨fun _ _ => .refl s, fun _ => .refl s⟩

theorem keeps_ofExcept (x : Except ε α) : Keeps pair exclude (Eff.ofExcept x : Route ω ε α) :=
  fun s => (wp_ofExcept _ _ _).mpr ⟨fun _ _ => .refl s, fun _ _ => .refl s⟩

theorem keeps_outcome (r : Outcome ε α) :
    Keeps pair exclude (Eff.ofOutcome r : Route ω ε α) :=
  fun s => wp_ofOutcome.mpr (.refl s)

theorem keeps_attempt {ε' : Type} {m : Route ω ε' α} (hm : Keeps pair exclude m) :
    Keeps pair exclude (Eff.attempt m : Route ω ε (Except ε' α)) := by
  intro s
  rw [wp_attempt]
  exact wp_mono (hm s) (fun _ _ h => h) (fun _ _ h => h) fun _ h => h

theorem keeps_issue {call : ω → Except RpcFailure α × ω} {entry : Except RpcFailure α → RouterCall}
    (hask : ∀ log reply, Asks pair exclude log (entry reply))
    (hcreates : ∀ reply layer, ¬ createsLayer (entry reply) layer) :
    Keeps pair exclude (issue call entry : Route ω ε (Except RpcFailure α)) := by
  intro s
  rw [wp_ofRel]
  exact .call rfl rfl (hask _ _) (hcreates _)

end Rules

section Lookups

variable (env : Env ω) {pair : PlannedPairCtx} {exclude : List String}

theorem keeps_listpeerchannels (peerId : String) :
    Keeps pair exclude (issue (env.listpeerchannels peerId) (.listpeerchannels peerId) :
      Route ω ε (Except RpcFailure Json)) :=
  keeps_issue (fun _ _ => trivial) fun _ _ => id

theorem keeps_listchannelsScid (scid : String) :
    Keeps pair exclude (issue (env.listchannelsScid scid) (.listchannelsScid scid) :
      Route ω ε (Except RpcFailure Json)) :=
  keeps_issue (fun _ _ => trivial) fun _ _ => id

theorem keeps_getFinalHopPolicy (ourNodeId destPeerId destChannelId : String) :
    Keeps pair exclude (getFinalHopPolicy env ourNodeId destPeerId destChannelId :
      Route ω ε (Option ChannelPolicy)) := by
  apply keeps_bind (keeps_listpeerchannels env destPeerId)
  intro peers
  split
  · exact keeps_pure _
  · by_cases hdest : destChannelId = ""
    · rw [if_pos hdest]
      exact keeps_pure _
    · rw [if_neg hdest]
      exact keeps_bind (keeps_listchannelsScid env destChannelId) fun _ => keeps_pure _

theorem keeps_getDestChannelCltv (destPeerId destChannelId : String) :
    Keeps pair exclude (getDestChannelCltv env destPeerId destChannelId : Route ω ε ℤ) :=
  keeps_bind (keeps_listpeerchannels env destPeerId) fun _ => keeps_pure _

theorem keeps_destCltv (policy : ChannelPolicy) :
    Keeps pair exclude (destCltv env pair policy : Route ω ε ℤ) := by
  unfold destCltv
  by_cases hdelta : policy.cltvDelta ≤ 0
  · rw [if_pos hdelta]
    exact keeps_getDestChannelCltv env _ _
  · rw [if_neg hdelta]
    exact keeps_pure _

variable [SerdeJson]

theorem keeps_getForwardingPolicy (sourceNodeId channelId nextNodeId : String) :
    Keeps pair exclude (getForwardingPolicy env sourceNodeId channelId nextNodeId :
      Route ω ε (Option ChannelPolicy)) := by
  unfold getForwardingPolicy
  by_cases hblank : channelId = "" ∨ nextNodeId = ""
  · rw [if_pos hblank]
    exact keeps_pure _
  · rw [if_neg hblank]
    exact keeps_bind (keeps_listchannelsScid env channelId) fun _ => keeps_pure _

theorem keeps_repriceMiddleRouteAmounts (finalAmountMsat : ℤ)
    (hops : List RouteExecutor.SendpayHop) :
    Keeps pair exclude (repriceMiddleRouteAmounts env finalAmountMsat hops :
      Route ω ε (List RouteExecutor.SendpayHop)) := by
  induction hops with
  | nil => exact keeps_pure _
  | cons hop rest ih =>
    apply keeps_bind ih
    intro repriced
    cases repriced with
    | nil => exact keeps_pure _
    | cons outgoing later =>
      apply keeps_bind (keeps_getForwardingPolicy env hop.id outgoing.channel outgoing.id)
      intro policy
      cases policy with
      | none => exact keeps_pure _
      | some policy => exact keeps_bind (keeps_checked _) fun _ => keeps_pure _

theorem keeps_firstHopForward (p : PlannedPairCtx) (requiredFinalCltv finalHopFeeSats : ℤ)
    (middle : List RouteExecutor.SendpayHop) :
    Keeps pair exclude (firstHopForward env p requiredFinalCltv finalHopFeeSats middle) := by
  cases middle with
  | nil => exact keeps_bind (keeps_checked _) fun _ => keeps_pure _
  | cons first rest =>
    apply keeps_bind (keeps_getForwardingPolicy env p.sourcePeerId first.channel first.id)
    intro policy
    cases policy with
    | none => exact keeps_throw _
    | some policy =>
      apply keeps_bind (keeps_checked _)
      intro total
      exact keeps_bind (keeps_checked _) fun _ => keeps_pure _

theorem keeps_priceRoutes (p : PlannedPairCtx) (routeAmountMsat feePpm feeBaseMsat cltv : ℤ)
    (result : Json) :
    Keeps pair exclude (priceRoutes env p routeAmountMsat feePpm feeBaseMsat cltv result) := by
  unfold priceRoutes
  split
  · apply keeps_bind (keeps_outcome _)
    intro best
    by_cases hvalid :
        validateMiddlePath (items (field best "path")) p.ourNodeId p.destPeerId = false
    · simp only [hvalid, if_true]
      exact keeps_throw _
    · simp only [hvalid]
      apply keeps_bind (keeps_ofExcept _)
      intro hops
      apply keeps_bind (keeps_repriceMiddleRouteAmounts env routeAmountMsat hops)
      intro middle
      apply keeps_bind (keeps_checked _)
      intro finalHopFeeSats
      apply keeps_bind (keeps_firstHopForward env p cltv finalHopFeeSats middle)
      intro forward
      exact keeps_bind (keeps_checked _) fun _ => keeps_pure _
  · exact keeps_throw _

end Lookups

section Building

variable (env : Env ω) {s t u : RouterState ω}

structure Logged (new : List RouterCall) (s t : RouterState ω) : Prop where
  calls : t.calls = s.calls ++ new
  layers : t.excludeLayers = s.excludeLayers

theorem Logged.trans {new new' : List RouterCall} (hst : Logged new s t) (htu : Logged new' t u) :
    Logged (new ++ new') s u := by
  constructor
  · rw [htu.calls, hst.calls, List.append_assoc]
  · rw [htu.layers, hst.layers]

theorem wp_issue {α : Type} {call : ω → Except RpcFailure α × ω}
    {entry : Except RpcFailure α → RouterCall} {Q : Post (RouterState ω) ε (Except RpcFailure α)}
    (h : ∀ reply t, Logged [entry reply] s t → Q.ok reply t) : wp (issue call entry) Q s := by
  unfold wp issue
  exact h _ _ ⟨rfl, rfl⟩

theorem wp_request {α : Type} {call : ω → Except RpcFailure α × ω}
    {entry : Except RpcFailure α → RouterCall} {Q : Post (RouterState ω) RpcFailure α}
    (hok : ∀ a t, Logged [entry (.ok a)] s t → Q.ok a t)
    (herr : ∀ e t, Logged [entry (.error e)] s t → Q.err e t) : wp (request call entry) Q s := by
  unfold request
  rw [wp_bind]
  apply wp_issue
  intro reply t ht
  apply (wp_ofExcept _ _ _).mpr
  constructor
  · rintro a rfl
    exact hok a t ht
  · rintro e rfl
    exact herr e t ht

/-- A call that the build of the layer makes, whatever its reply. -/
def OfBuild (layer : String) (c : RouterCall) : Prop :=
  (∃ reply, c = .createLayer layer reply) ∨
    ∃ scidDir reply, c = .updateChannel layer scidDir false reply

theorem wp_updateChannels (layer : String) (scidDirs : List String) (s : RouterState ω) :
    wp (updateChannels env layer scidDirs)
      ⟨fun _ t => Logged (scidDirs.map fun d => .updateChannel layer d false (.ok ())) s t,
        fun _ t => ∃ new, Logged new s t ∧ ∀ c ∈ new, OfBuild layer c, fun _ => False⟩ s := by
  induction scidDirs generalizing s with
  | nil => exact (wp_pure _ _ _).mpr ⟨by simp, rfl⟩
  | cons d rest ih =>
    unfold updateChannels
    rw [wp_bind]
    apply wp_request
    · intro a t ht
      apply wp_mono (ih t)
      · intro b u hu
        exact ht.trans hu
      · rintro e u ⟨new, hu, hnew⟩
        refine ⟨_, ht.trans hu, fun c hc => ?_⟩
        rcases List.mem_append.mp hc with hc | hc
        · exact .inr ⟨d, _, List.mem_singleton.mp hc⟩
        · exact hnew c hc
      · exact fun _ => id
    · intro e t ht
      refine ⟨_, ht, fun c hc => ?_⟩
      exact .inr ⟨d, _, List.mem_singleton.mp hc⟩

theorem wp_mintExcludeLayerName {Q : Post (RouterState ω) ε String}
    (h : ∀ layer t, Logged [] s t → Q.ok layer t) : wp (mintExcludeLayerName env) Q s := by
  unfold wp mintExcludeLayerName
  exact h _ _ ⟨by simp, rfl⟩

/-- A build makes all its calls, or it ends with the removal of what it created. -/
theorem wp_buildExcludeLayer (entries : List String) (s : RouterState ω) :
    wp (buildExcludeLayer env entries)
      ⟨fun layer t => Logged (buildCalls layer entries) s t,
        fun _ t => ∃ layer new reply, Logged (new ++ [.removeLayer layer reply]) s t ∧
          ∀ c ∈ new, OfBuild layer c, fun _ => False⟩ s := by
  unfold buildExcludeLayer
  rw [wp_bind]
  apply wp_mintExcludeLayerName
  intro layer s₁ h₁
  have hrollback : ∀ e new t, Logged new s t → (∀ c ∈ new, OfBuild layer c) →
      wp (do
        let _ ← issue (env.askreneRemoveLayer layer) (.removeLayer layer)
        (Eff.throw e : Route ω RpcFailure String))
      ⟨fun layer t => Logged (buildCalls layer entries) s t,
        fun _ t => ∃ layer new reply, Logged (new ++ [.removeLayer layer reply]) s t ∧
          ∀ c ∈ new, OfBuild layer c, fun _ => False⟩ t := by
    intro e new t ht hnew
    rw [wp_bind]
    apply wp_issue
    intro reply u hu
    exact (wp_throw _ _ _).mpr ⟨layer, new, reply, ht.trans hu, hnew⟩
  simp only [Post.ofOk]
  rw [wp_bind, wp_attempt, wp_bind]
  apply wp_request
  · intro a s₂ h₂
    apply wp_mono (wp_updateChannels env layer (entries.flatMap disabled) s₂)
    · intro b t ht
      exact (wp_pure _ _ _).mpr (h₁.trans (h₂.trans ht))
    · rintro e t ⟨new, ht, hnew⟩
      apply hrollback e _ t (h₁.trans (h₂.trans ht))
      intro c hc
      simp only [List.nil_append, List.singleton_append, List.mem_cons] at hc
      rcases hc with rfl | hc
      · exact .inl ⟨_, rfl⟩
      · exact hnew c hc
    · exact fun _ => id
  · intro e s₂ h₂
    apply hrollback e _ s₂ (h₁.trans h₂)
    intro c hc
    exact .inl ⟨_, List.mem_singleton.mp hc⟩

/-- A failed build leaves nothing standing that did not stand before. -/
theorem standing_of_rollback {log new : List RouterCall} {layer other : String}
    {reply : Except RpcFailure Unit} (hnew : ∀ c ∈ new, OfBuild layer c)
    (h : Standing (log ++ (new ++ [.removeLayer layer reply])) other) : Standing log other := by
  unfold Standing at h
  rw [← List.append_assoc, open_snoc] at h
  obtain ⟨hopen, hne⟩ : Open createsLayer removesLayer (log ++ new) other ∧ ¬ layer = other :=
    h.resolve_left id
  have hcreates : ∀ c ∈ new, ¬ createsLayer c other := by
    intro c hc hcreate
    rcases hnew c hc with ⟨reply, rfl⟩ | ⟨d, reply, rfl⟩
    · cases reply with
      | ok a => exact hne hcreate
      | error e => exact hcreate
    · exact hcreate
  exact ((open_append_of_none hcreates).mp hopen).1

theorem wp_removeLayers (names : List String) (s : RouterState ω) :
    wp (removeLayers env names : Route ω ε Unit) (Post.ofRel fun _ t => ∃ new, Logged new s t ∧
      (∀ c ∈ new, ∃ layer reply, c = .removeLayer layer reply) ∧
      ∀ layer ∈ names, ∃ reply, .removeLayer layer reply ∈ new) s := by
  induction names generalizing s with
  | nil => exact (wp_pure _ _ _).mpr ⟨[], ⟨by simp, rfl⟩, by simp, by simp⟩
  | cons name names ih =>
    unfold removeLayers
    rw [wp_bind]
    apply wp_issue
    intro reply t ht
    have hstep : ∀ u, (∃ new, Logged new t u ∧
        (∀ c ∈ new, ∃ layer reply, c = RouterCall.removeLayer layer reply) ∧
        ∀ layer ∈ names, ∃ reply, RouterCall.removeLayer layer reply ∈ new) →
        ∃ new, Logged new s u ∧ (∀ c ∈ new, ∃ layer reply, c = RouterCall.removeLayer layer reply) ∧
          ∀ layer ∈ name :: names, ∃ reply, RouterCall.removeLayer layer reply ∈ new := by
      rintro u ⟨new, hu, hnew, hnames⟩
      refine ⟨_, ht.trans hu, ?_, ?_⟩
      · intro c hc
        rcases List.mem_append.mp hc with hc | hc
        · exact ⟨name, reply, List.mem_singleton.mp hc⟩
        · exact hnew c hc
      · intro layer hlayer
        rcases List.mem_cons.mp hlayer with rfl | hlayer
        · exact ⟨reply, by simp⟩
        · obtain ⟨r, hr⟩ := hnames layer hlayer
          exact ⟨r, List.mem_append_right _ hr⟩
    exact wp_mono (ih t) (fun _ u => hstep u) (fun _ u => hstep u) hstep

end Building

section Cache

variable (env : Env ω) {pair : PlannedPairCtx} {exclude : List String} {s t u : RouterState ω}

/-- After a teardown nothing is cached, and what was cached is removed from the node. -/
theorem tended_of_teardown {new : List RouterCall} {layers : List ExcludeLayer}
    (hperm : layers.Perm s.excludeLayers.rows) (hcalls : t.calls = s.calls ++ new)
    (hempty : t.excludeLayers = Table.empty)
    (hnew : ∀ c ∈ new, ∃ layer reply, c = .removeLayer layer reply)
    (hremoved : ∀ layer ∈ layers.map ExcludeLayer.name, ∃ reply, .removeLayer layer reply ∈ new)
    (h : Tended s) : Tended t := by
  constructor
  · intro layer hstanding
    have hcreates : ∀ c ∈ new, ¬ createsLayer c layer := by
      intro c hc hcreate
      obtain ⟨l, reply, rfl⟩ := hnew c hc
      exact hcreate
    unfold Standing at hstanding
    rw [hcalls, open_append_of_none hcreates] at hstanding
    obtain ⟨l, hl, rfl⟩ := h.cached layer hstanding.1
    obtain ⟨reply, hreply⟩ :=
      hremoved l.name (List.mem_map_of_mem (hperm.mem_iff.mpr hl))
    exact absurd rfl (hstanding.2 _ hreply)
  · intro l hl
    rw [hempty] at hl
    cases hl

theorem wp_teardownExcludeLayers (s : RouterState ω) :
    wp (teardownExcludeLayers env : Route ω ε Unit) (Post.ofRel fun _ t =>
      Kept pair exclude s t ∧ t.excludeLayers = Table.empty) s := by
  unfold teardownExcludeLayers
  rw [wp_bind, wp_read]
  simp only [Post.ofOk]
  rw [wp_bind, wp_modify]
  simp only [Post.ofOk]
  have hdone : ∀ t : RouterState ω, (∃ new, Logged new { s with excludeLayers := Table.empty } t ∧
      (∀ c ∈ new, ∃ layer reply, c = RouterCall.removeLayer layer reply) ∧
      ∀ layer ∈ (env.drain s.world s.excludeLayers.rows).map ExcludeLayer.name,
        ∃ reply, RouterCall.removeLayer layer reply ∈ new) →
      Kept pair exclude s t ∧ t.excludeLayers = Table.empty := by
    rintro t ⟨new, ht, hnew, hremoved⟩
    refine ⟨⟨?_, ?_⟩, ht.layers⟩
    · rw [ht.calls]
      refine (Grows.append (S := fun c => ∃ layer reply, c = RouterCall.removeLayer layer reply)
        hnew).mono ?_
      rintro before c ⟨layer, reply, rfl⟩
      trivial
    · exact tended_of_teardown (env.drain_perm _ _) ht.calls ht.layers hnew hremoved
  exact wp_mono (wp_removeLayers env _ _) (fun _ t => hdone t) (fun _ t => hdone t) hdone

theorem keeps_teardownExcludeLayers :
    Keeps pair exclude (teardownExcludeLayers env : Route ω ε Unit) := fun s =>
  wp_mono (wp_teardownExcludeLayers env s) (fun _ _ h => h.1) (fun _ _ h => h.1) fun _ h => h.1

theorem keeps_liveLayerNames (names : Option (List String)) :
    Keeps pair exclude (Eff.modify fun s => { s with liveLayerNames := names } :
      Route ω ε Unit) := by
  intro s
  rw [wp_modify]
  exact ⟨.refl _ _, fun h => ⟨h.cached, h.built⟩⟩

theorem keeps_invalidateLayerCache :
    Keeps pair exclude (invalidateLayerCache env : Route ω ε Unit) :=
  keeps_bind (keeps_liveLayerNames none) fun _ => keeps_teardownExcludeLayers env

theorem wp_probeLayers (requested : List String) (s : RouterState ω) :
    wp (probeLayers env requested : Route ω ε (List String))
      ⟨fun live t => Kept pair exclude s t ∧ ∀ l ∈ live, l ∈ requested, fun _ _ => False,
        fun _ => False⟩ s := by
  unfold probeLayers
  rw [wp_bind, wp_read]
  simp only [Post.ofOk]
  split
  · exact (wp_pure _ _ _).mpr ⟨.refl s, fun l hl => (List.mem_filter.mp hl).1⟩
  · rw [wp_bind]
    apply wp_issue
    intro reply t ht
    have hkept : Kept pair exclude s t := .call ht.calls ht.layers trivial fun _ => id
    cases reply with
    | error e => exact (wp_pure _ _ _).mpr ⟨hkept, by simp⟩
    | ok result =>
      simp only [Post.ofOk]
      rw [wp_bind, wp_modify]
      refine (wp_pure _ _ _).mpr ⟨?_, fun l hl => (List.mem_filter.mp hl).1⟩
      exact hkept.trans ⟨.refl _ _, fun h => ⟨h.cached, h.built⟩⟩

/-- What stands after a build: the layer that was built, and what stood before. -/
theorem standing_of_build {log : List RouterCall} {layer other : String} {entries : List String}
    (h : Standing (log ++ buildCalls layer entries) other) :
    layer = other ∨ Standing log other := by
  unfold Standing buildCalls at h
  rw [List.append_cons, open_append_of_none, open_snoc] at h
  · rcases h.1 with hlayer | hlog
    · exact .inl hlayer
    · exact .inr hlog.1
  · intro c hc hcreate
    obtain ⟨d, -, rfl⟩ := List.mem_map.mp hc
    exact hcreate

theorem tended_of_built {layer : String} {entries : List String}
    (ht : Logged (buildCalls layer entries) s t)
    (hnew : s.excludeLayers.find? entries.toFinset = none) (h : Tended s) :
    Tended { t with excludeLayers :=
      t.excludeLayers.insertOrReplace ⟨entries.toFinset, layer⟩ } := by
  constructor
  · intro other hstanding
    simp only [ht.calls, ht.layers, mem_insertOrReplace] at hstanding ⊢
    rcases standing_of_build hstanding with rfl | hbefore
    · exact ⟨_, .inl rfl, rfl⟩
    · obtain ⟨l, hl, rfl⟩ := h.cached other hbefore
      refine ⟨l, .inr ⟨hl, fun hkey => ?_⟩, rfl⟩
      rw [find_eq_some_iff.mpr ⟨hl, hkey⟩] at hnew
      cases hnew
  · intro l hl
    simp only [ht.calls, ht.layers, mem_insertOrReplace] at hl ⊢
    rcases hl with rfl | ⟨hl, -⟩
    · exact ⟨entries, rfl, (List.suffix_append _ _).isInfix⟩
    · exact (h.built l hl).mono (List.prefix_append _ _)

theorem asks_ofBuild {layer : String} {log : List RouterCall} {c : RouterCall}
    (h : OfBuild layer c) : Asks pair exclude log c := by
  rcases h with ⟨reply, rfl⟩ | ⟨d, reply, rfl⟩ <;> trivial

/-- The cache hands out a layer that was built from the entries, and stays in step with the node. -/
theorem wp_excludeLayer (entries : List String) (htended : Tended s) :
    wp (excludeLayer env entries)
      ⟨fun layer t => Kept pair exclude s t ∧ Built t.calls layer entries.toFinset,
        fun _ t => Kept pair exclude s t, fun _ => False⟩ s := by
  unfold excludeLayer
  rw [wp_bind, wp_read]
  simp only [Post.ofOk]
  cases hcached : s.excludeLayers.find? entries.toFinset with
  | some l =>
    obtain ⟨hl, hkey⟩ := find_eq_some_iff.mp hcached
    exact (wp_pure _ _ _).mpr ⟨.refl s, hkey ▸ htended.built l hl⟩
  | none =>
    rw [wp_bind]
    apply wp_mono (wp_buildExcludeLayer env entries s)
    · intro layer t ht
      simp only [Post.ofOk]
      rw [wp_bind, wp_modify]
      refine (wp_pure _ _ _).mpr ⟨⟨?_, tended_of_built ht hcached⟩, ?_⟩
      · simp only [ht.calls]
        refine (Grows.append (S := OfBuild layer) fun c hc => ?_).mono fun _ _ => asks_ofBuild
        rcases List.mem_cons.mp hc with rfl | hc
        · exact .inl ⟨_, rfl⟩
        · obtain ⟨d, -, rfl⟩ := List.mem_map.mp hc
          exact .inr ⟨d, _, rfl⟩
      · simp only [ht.calls]
        exact ⟨entries, rfl, (List.suffix_append _ _).isInfix⟩
    · rintro e t ⟨layer, new, reply, ht, hnew⟩
      constructor
      · rw [ht.calls, ← List.append_assoc]
        refine Grows.trans ((Grows.append (S := OfBuild layer) hnew).mono fun _ _ =>
          asks_ofBuild) ?_
        exact .snoc trivial
      · intro h
        constructor
        · intro other hstanding
          rw [ht.calls] at hstanding
          rw [ht.layers]
          exact h.cached other (standing_of_rollback hnew hstanding)
        · intro l hl
          rw [ht.layers] at hl
          exact (h.built l hl).mono (by rw [ht.calls]; exact List.prefix_append _ _)
    · exact fun _ => id

theorem kept_getroutes {req : GetRoutesRequest} {reply : Except RpcFailure Json}
    (hreq : NamesLayer s.calls pair exclude req) (ht : Logged [.getroutes req reply] s t) :
    Kept pair exclude s t := .call ht.calls ht.layers hreq fun _ => id

theorem mem_middleExcludes {e : String} :
    e ∈ middleExcludes pair exclude ↔ e ∈ excluded pair exclude := by
  have hstep : ∀ (excludes : List String) (scid : String),
      e ∈ (if scid = "" ∨ scid ∈ excludes then excludes else excludes ++ [scid]) ↔
        e ∈ excludes ∨ (e = scid ∧ e ≠ "") := by
    intro excludes scid
    by_cases hblank : scid = ""
    · subst hblank
      simp
    · by_cases hmem : scid ∈ excludes
      · simp only [hmem, or_true, if_true]
        constructor
        · exact .inl
        · rintro (h | ⟨rfl, -⟩)
          · exact h
          · exact hmem
      · simp only [hblank, hmem, or_self, if_false, List.mem_append, List.mem_singleton]
        constructor
        · rintro (h | rfl)
          · exact .inl h
          · exact .inr ⟨rfl, hblank⟩
        · rintro (h | ⟨h, -⟩)
          · exact .inl h
          · exact .inr h
  simp only [middleExcludes, excluded, List.foldl_cons, List.foldl_nil, hstep, Finset.mem_union,
    List.mem_toFinset, List.mem_filter, List.mem_cons, List.not_mem_nil, or_false,
    decide_eq_true_eq]
  tauto

theorem toFinset_middleExcludes :
    (middleExcludes pair exclude).toFinset = excluded pair exclude := by
  ext e
  rw [List.mem_toFinset, mem_middleExcludes]

theorem mem_baseLayers {live : List String} (hlive : ∀ l ∈ live, l ∈ pair.layerNames) :
    ∀ l ∈ baseLayers live, l ∈ pair.layerNames ∨ l = autoNoMppLayer := by
  intro l hl
  unfold baseLayers at hl
  by_cases hauto : autoNoMppLayer ∈ live
  · rw [if_pos hauto] at hl
    exact .inl (hlive l hl)
  · rw [if_neg hauto, List.mem_append, List.mem_singleton] at hl
    exact hl.imp_left (hlive l)

end Cache

section Pricing

variable [SerdeJson] (env : Env ω) {pair : PlannedPairCtx} {exclude : List String}
  {s t : RouterState ω}

theorem wp_pricePairInner (p : PlannedPairCtx) (routeAmountMsat feePpm feeBaseMsat cltv : ℤ)
    (layers : List String) (hlayers : ∀ req : GetRoutesRequest, req.layers = layers →
      NamesLayer s.calls pair exclude req) :
    wp (pricePairInner env p routeAmountMsat feePpm feeBaseMsat cltv layers :
      Route ω ε RouteResult) (Post.ofRel fun _ t => Kept pair exclude s t) s := by
  unfold pricePairInner
  rw [wp_bind]
  apply wp_issue
  intro reply t ht
  have hkept : Kept pair exclude s t := kept_getroutes (hlayers _ rfl) ht
  have hrest : ∀ {m : Route ω ε RouteResult}, Keeps pair exclude m →
      wp m (Post.ofRel fun _ t => Kept pair exclude s t) t := fun hm =>
    wp_mono (hm t) (fun _ _ hu => hkept.trans hu) (fun _ _ hu => hkept.trans hu)
      fun _ hu => hkept.trans hu
  cases reply with
  | error e =>
    apply hrest
    by_cases hunknown : translateGetroutesError e.message = reasonUnknownLayer
    · simp only [hunknown, if_true]
      exact keeps_bind (keeps_invalidateLayerCache env) fun _ => keeps_pure _
    · simp only [hunknown, if_false]
      exact keeps_pure _
  | ok result =>
    apply hrest
    apply keeps_bind (keeps_attempt (keeps_priceRoutes env p _ _ _ _ result))
    intro priced
    cases priced with
    | ok r => exact keeps_pure _
    | error message => exact keeps_pure _

/-- One pricing call, on any reply of the node: the log and the cache stay in step,
and its getroutes
names the layer of its own exclusions. -/
theorem wp_tryPricePair (htended : Tended s) :
    wp (tryPricePair env pair exclude) (Post.ofRel fun _ t => Kept pair exclude s t) s := by
  have hseq : ∀ {α : Type} {m : Route ω RpcFailure α} {f : α → Route ω RpcFailure RouteResult}
      {t : RouterState ω}, Kept pair exclude s t → Keeps pair exclude m →
      (∀ a u, Kept pair exclude s u → wp (f a) (Post.ofRel fun _ v => Kept pair exclude s v) u) →
      wp (m >>= f) (Post.ofRel fun _ v => Kept pair exclude s v) t := by
    intro α m f t ht hm hf
    rw [wp_bind]
    exact wp_mono (hm t) (fun a u hu => hf a u (ht.trans hu)) (fun _ u hu => ht.trans hu)
      fun u hu => ht.trans hu
  unfold tryPricePair
  apply hseq (.refl s) (keeps_getFinalHopPolicy env _ _ _)
  intro policy t₁ h₁
  cases policy with
  | none => exact (wp_pure _ _ _).mpr h₁
  | some policy =>
    apply hseq h₁ (keeps_destCltv env policy)
    intro destCltv t₂ h₂
    apply hseq h₂ (keeps_checked _)
    intro requiredFinalCltv t₃ h₃
    apply hseq h₃ (keeps_checked _)
    intro finalHopFeeSats t₄ h₄
    apply hseq h₄ (keeps_checked _)
    intro routeAmountMsat t₅ h₅
    rw [wp_bind]
    apply wp_mono (wp_probeLayers env pair.layerNames t₅)
    · rintro live t₆ ⟨h₆, hlive⟩
      replace h₆ := h₅.trans h₆
      have hbase := mem_baseLayers hlive
      have hinner : ∀ {layers : List String} {u : RouterState ω}, Kept pair exclude s u →
          (∀ req : GetRoutesRequest, req.layers = layers → NamesLayer u.calls pair exclude req) →
          wp (pricePairInner env pair routeAmountMsat policy.feePpm policy.feeBaseMsat
            requiredFinalCltv layers : Route ω RpcFailure RouteResult)
            (Post.ofRel fun _ v => Kept pair exclude s v) u := by
        intro layers u hu hlayers
        exact wp_mono (wp_pricePairInner env pair _ _ _ _ layers hlayers)
          (fun _ v hv => hu.trans hv) (fun _ v hv => hu.trans hv) fun v hv => hu.trans hv
      by_cases hnone : middleExcludes pair exclude = []
      · simp only [hnone, if_true, Post.ofOk]
        apply hinner h₆
        intro req hreq
        refine ⟨_, hbase, .inl ⟨?_, hreq⟩⟩
        rw [← toFinset_middleExcludes, hnone, List.toFinset_nil]
      · simp only [hnone, if_false, Post.ofOk]
        rw [wp_bind]
        apply wp_mono (wp_excludeLayer env (middleExcludes pair exclude) (h₆.tended htended))
        · rintro layer t₇ ⟨h₇, hbuilt⟩
          rw [toFinset_middleExcludes] at hbuilt
          apply hinner (h₆.trans h₇)
          intro req hreq
          exact ⟨_, hbase, .inr ⟨layer, hreq, hbuilt⟩⟩
        · exact fun _ t h => h₆.trans h
        · exact fun _ => False.elim
    · exact fun _ _ => False.elim
    · exact fun _ => False.elim

end Pricing

section Runs

variable [SerdeJson] (env : Env ω)

/-- The router under pricing calls, whatever each of them returns. -/
def router : Machine (RouterState ω) (PlannedPairCtx × List String) :=
  { Enabled := fun _ _ => True
    next := fun s e => (tryPricePair env e.1 e.2 s).2 }

theorem kept_next {s : RouterState ω} (h : Tended s) (pair : PlannedPairCtx)
    (exclude : List String) : Kept pair exclude s ((router env).next s (pair, exclude)) :=
  wp_ofRel.mp (wp_tryPricePair env h)

theorem tended_run (world : ω) (counter : ℕ) (requests : List (PlannedPairCtx × List String)) :
    Tended ((router env).run (beginCycle world counter) requests) := by
  have hrun : (router env).Follows (fun _ _ => True) (beginCycle world counter) requests :=
    follows_of_forall fun _ _ => ⟨trivial, trivial⟩
  apply hrun.invariant (tended_beginCycle world counter)
  intro s e hs _ _
  exact (kept_next env hs e.1 e.2).tended hs

def dropped (s : RouterState ω) : RouterState ω := ((drop env : Route ω RpcFailure Unit) s).2

omit [SerdeJson] in
theorem not_standing_dropped {s : RouterState ω} (h : Tended s) (layer : String) :
    ¬ Standing (dropped env s).calls layer := by
  have hwp := @wp_teardownExcludeLayers _ RpcFailure env ⟨"", "", "", "", "", 0, [], 0⟩ [] s
  obtain ⟨hkept, hempty⟩ := wp_ofRel.mp hwp
  intro hstanding
  obtain ⟨l, hl, -⟩ := (hkept.tended h).cached layer hstanding
  rw [hempty] at hl
  cases hl

/-- Over every run of pricing calls on one router, on any replies of the node: by the end of the
drop each layer that was created has been passed to a removal afterwards; the cache holds one layer
for each set of entries; and each getroutes names a layer built from what its own call excludes. -/
theorem exclude_layers_kept (world : ω) (counter : ℕ)
    (requests : List (PlannedPairCtx × List String)) :
    (∀ before layer after,
      (dropped env ((router env).run (beginCycle world counter) requests)).calls =
        before ++ .createLayer layer (.ok ()) :: after →
      ∃ reply, .removeLayer layer reply ∈ after) ∧
    (∀ l ∈ ((router env).run (beginCycle world counter) requests).excludeLayers.rows,
      ∀ l' ∈ ((router env).run (beginCycle world counter) requests).excludeLayers.rows,
        l.key = l'.key → l = l') ∧
    ∀ pair exclude before req reply after,
      ((router env).run (beginCycle world counter) (requests ++ [(pair, exclude)])).calls =
        before ++ .getroutes req reply :: after →
      ((router env).run (beginCycle world counter) requests).calls <+: before →
      NamesLayer before pair exclude req := by
  have htended := tended_run env world counter requests
  refine ⟨?_, ?_, ?_⟩
  · intro before layer after heq
    by_contra hnone
    apply not_standing_dropped env htended layer
    refine ⟨before, _, after, heq, rfl, ?_⟩
    intro d hd hremoves
    cases d with
    | removeLayer name reply =>
      obtain rfl : name = layer := hremoves
      exact hnone ⟨reply, hd⟩
    | _ => exact hremoves
  · intro l hl l' hl' hkey
    exact List.inj_on_of_nodup_map (Table.nodup _) hl hl' hkey
  · intro pair exclude before req reply after heq hbefore
    rw [run_append] at heq
    exact (kept_next env htended pair exclude).grows.entries before _ after heq hbefore

end Runs

section DirectionalEntries

/-- A node that answers every call; its getroutes finds no route. -/
def answering : Env Unit where
  getroutes := fun _ w => (.error ⟨"no usable path"⟩, w)
  askreneCreateLayer := fun _ w => (.ok (), w)
  askreneUpdateChannel := fun _ _ _ w => (.ok (), w)
  askreneRemoveLayer := fun _ w => (.ok (), w)
  askreneListlayers := fun w => (.error ⟨"unknown method"⟩, w)
  listpeerchannels := fun peerId w => (.ok (.obj [("channels", .arr [.obj
    [("peer_id", .str peerId), ("short_channel_id", .str "20x1x0"),
      ("updates", .obj [("remote", .obj [("cltv_expiry_delta", .int 34),
        ("fee_base_msat", .int 0), ("fee_proportional_millionths", .int 100)])])]])]), w)
  listchannelsScid := fun _ w => (.error ⟨"unknown method"⟩, w)
  now := fun w => (1700000000, w)
  otherMints := fun w => (0, w)
  drain := fun _ l => l
  drain_perm := fun _ _ => .refl _

def pairFrom (sourceChannelId destChannelId : String) : PlannedPairCtx :=
  ⟨"02aa", sourceChannelId, destChannelId, "02bb", "02cc", 1000, [], 18⟩

def askedLayers (log : List RouterCall) : List (List String) :=
  log.filterMap fun
    | .getroutes req _ => some req.layers
    | _ => none

def disabledOn (log : List RouterCall) (layer : String) : List String :=
  log.filterMap fun
    | .updateChannel name scidDir false (.ok ()) => if name = layer then some scidDir else none
    | _ => none

def priced (pair : PlannedPairCtx) (exclude : List String) : List RouterCall :=
  let _ : SerdeJson := ⟨fun _ => none, fun _ => ""⟩
  ((router answering).next (beginCycle () 1) (pair, exclude)).calls

/-- A directional exclusion, and a source channel given with a direction, are disabled in that
direction alone; and a pair without channel ids and exclusions names no layer of its own. -/
theorem one_direction_disabled :
    (askedLayers (priced (pairFrom "10x1x0" "20x1x0") ["30x1x0/1"]) =
        [["auto.no_mpp_support", "rebalance-exclude-1700000000-1"]] ∧
      disabledOn (priced (pairFrom "10x1x0" "20x1x0") ["30x1x0/1"])
        "rebalance-exclude-1700000000-1" =
        ["30x1x0/1", "10x1x0/0", "10x1x0/1", "20x1x0/0", "20x1x0/1"]) ∧
    (askedLayers (priced (pairFrom "10x1x0/1" "20x1x0") []) =
        [["auto.no_mpp_support", "rebalance-exclude-1700000000-1"]] ∧
      disabledOn (priced (pairFrom "10x1x0/1" "20x1x0") []) "rebalance-exclude-1700000000-1" =
        ["10x1x0/1", "20x1x0/0", "20x1x0/1"]) ∧
    askedLayers (priced (pairFrom "" "") []) = [["auto.no_mpp_support"]] := by
  decide +kernel

end DirectionalEntries

end CycleRouter
