import RevenueOps.ForwardIngest
import RevenueOps.InteractiveProgram

/-! The backfill of forwards after a start. It reads the newest timestamp of the
table, pages through
the forwards that the node settled since some time before it, and inserts them one by one, while
live notifications insert into the same table. -/
namespace StartupHydration

open FallibleState ForwardIngest InteractiveProgram JsonValue KeyedTable RustNumber

section Program

inductive Op where
  | lastForwardTs
  | listforwards (start limit : ℤ)
  | insertForward (row : ForwardRow)

abbrev Reply : Op → Type
  | .lastForwardTs => Except String (Option ℤ)
  | .listforwards _ _ => Except String Json
  | .insertForward _ => Except String Bool

abbrev Hydration (α : Type) := Prog Op Reply α

def lastForwardTs : Hydration (Except String (Option ℤ)) := .perform Op.lastForwardTs
def listforwards (start limit : ℤ) : Hydration (Except String Json) :=
  .perform (Op.listforwards start limit)
def insertForward (row : ForwardRow) : Hydration (Except String Bool) :=
  .perform (Op.insertForward row)

@[irreducible] def hydrationPageLimit : ℤ := 1000

def hydrationMaxPages : ℕ := 10000

def pageForwards (page : Json) : Option (List Json) :=
  match page.get "forwards" with
  | some (.arr forwards) => some forwards
  | _ => none

def newerThan (startTime : ℤ) (forwards : List Json) : List Json :=
  forwards.filter fun f => startTime < receivedTime f

def createdIndex (f : Json) : Option ℤ := (f.get "created_index").bind Json.asI64

/-- Where the next page starts, past the last index of a full one. -/
def nextPage (nextStart : ℤ) (forwards : List Json) : Outcome String ℤ :=
  match forwards.getLast?.bind createdIndex with
  | none =>
    .err ("listforwards paging requires 'created_index' on a full page " ++
      "(unsupported CLN version, or index paging disabled)")
  | some last => do
    let advanced ← .checked (addI64 last 1)
    if advanced ≤ nextStart then
      .err "listforwards paging did not advance (created_index non-increasing)"
    else pure advanced

/-- Page on from an index; a page below the limit is the last one. -/
def fetchPages (startTime : ℤ) : ℕ → ℤ → List Json → Hydration (Outcome String (List Json))
  | 0, _, _ => pure (.err s!"listforwards paging exceeded max page count ({hydrationMaxPages})")
  | pages + 1, nextStart, collected => do
    let page ← listforwards nextStart hydrationPageLimit
    match page with
    | .error e => pure (.err e)
    | .ok page =>
      match pageForwards page with
      | none => pure (.err "listforwards response missing 'forwards' array")
      | some forwards =>
        let collected := collected ++ newerThan startTime forwards
        if forwards.length < hydrationPageLimit then pure (.ok collected)
        else
          match nextPage nextStart forwards with
          | .ok advanced => fetchPages startTime pages advanced collected
          | .err e => pure (.err e)
          | .panic => pure .panic

def fetchSettledForwards (startTime : ℤ) : Hydration (Outcome String (List Json)) :=
  fetchPages startTime hydrationMaxPages 0 []

def insertForwards : List Json → ℕ → Hydration ℕ
  | [], inserted => pure inserted
  | f :: forwards, inserted => do
    let result ← insertForward (forwardRowFromJson f)
    match result with
    | .ok true => insertForwards forwards (inserted + 1)
    | _ => insertForwards forwards inserted

def backfill (start : ℤ) : Hydration (Outcome Empty ℕ) := do
  let forwards ← fetchSettledForwards start
  match forwards with
  | .ok forwards => do
    let inserted ← insertForwards forwards 0
    pure (.ok inserted)
  | .err _ => pure (.ok 0)
  | .panic => pure .panic

def runStartupHydration (flowWindowDays now : ℤ) : Hydration (Outcome Empty ℕ) := do
  let last ← lastForwardTs
  match last with
  | .error _ => pure (.ok 0)
  | .ok last =>
    match computeForwardHydrationStart last flowWindowDays now with
    | .ok (some start) => backfill start
    | .ok none => pure (.ok 0)
    | .panic => pure .panic

end Program

section Node

structure Forward where
  json : Json
  index : ℤ
  named : createdIndex json = some index
  nonneg : 0 ≤ index

structure Forwards where
  entries : List Forward
  sorted : entries.Pairwise fun f g => f.index < g.index

def Forwards.page (node : Forwards) (start limit : ℤ) : List Forward :=
  (node.entries.filter fun f => start ≤ f.index).take limit.toNat

/-- The table and the node, with the rows that live events brought and the pages that were read. -/
structure Host where
  table : ForwardTable
  node : Forwards
  live : List ForwardRow
  pages : List (List Json)

def Host.start (table : ForwardTable) (node : Forwards) : Host := ⟨table, node, [], []⟩

def Host.reported (s : Host) : List Json := s.pages.flatten

def Host.answer (s : Host) : (op : Op) → Reply op × Host
  | .lastForwardTs => (.ok (ForwardIngest.lastForwardTs s.table), s)
  | .listforwards start limit =>
    let forwards := (s.node.page start limit).map Forward.json
    (.ok (.obj [("forwards", .arr forwards)]), { s with pages := s.pages ++ [forwards] })
  | .insertForward row =>
    let inserted := insertForwardIgnoreDup s.table row
    (.ok inserted.1, { s with table := inserted.2 })

inductive Drifts (s : Host) : Host → Prop where
  | live {event : Json} {row : ForwardRow} (h : settledRow event = some row) :
      Drifts s { s with
        table := (insertForwardIgnoreDup s.table row).2
        live := s.live ++ [row] }
  | settles (node : Forwards) (h : s.node.entries ⊆ node.entries) : Drifts s { s with node := node }

def startup : World Op Reply Host where
  answers op s r t := s.answer op = (r, t)
  drifts := Drifts

end Node

section Law

/-- Where the window starts that a table with this newest timestamp leaves open. -/
def gapStart (last : Option ℤ) (flowWindowDays now : ℤ) : ℤ :=
  match last with
  | none => now - 86400 * max flowWindowDays 14
  | some last => max (last - 86400) (now - 86400 * max (flowWindowDays + 1) 15)

def Settled (s t : Host) (f : Json) : Prop :=
  f ∈ s.node.entries.map Forward.json ∨ f ∈ t.reported

def Closes (s t : Host) (flowWindowDays now : ℤ) : Prop :=
  ∀ f, Settled s t f →
    gapStart (ForwardIngest.lastForwardTs s.table) flowWindowDays now < receivedTime f →
      t.table.rows.count (forwardRowFromJson f) = 1

/-- Every settled forward of the window is later than the backfill that the table calls for when it
is read, or it was there, or it came live. -/
def Covered (s read t : Host) (flowWindowDays now : ℤ) : Prop :=
  ∀ f, Settled s t f →
    gapStart (ForwardIngest.lastForwardTs s.table) flowWindowDays now < receivedTime f →
      (∃ start, computeForwardHydrationStart (ForwardIngest.lastForwardTs read.table)
        flowWindowDays now = .ok (some start) ∧ start < receivedTime f) ∨
      forwardRowFromJson f ∈ s.table.rows ∨ forwardRowFromJson f ∈ t.live

def PagedThrough (pages : List (List Json)) : Prop :=
  ∀ page, pages.getLast? = some page → page.length < hydrationPageLimit

end Law

section Paging

variable {node : Forwards} {start limit : ℤ} {f : Forward}

theorem mem_short_page (h : ((node.page start limit).length : ℤ) < limit)
    (hf : f ∈ node.entries) (hstart : start ≤ f.index) : f ∈ node.page start limit := by
  unfold Forwards.page at h ⊢
  rw [List.length_take] at h
  rw [List.take_of_length_le (by omega)]
  exact List.mem_filter.mpr ⟨hf, by simpa using hstart⟩

theorem mem_page_of_le {last : Forward} (h : (node.page start limit).getLast? = some last)
    (hf : f ∈ node.entries) (hstart : start ≤ f.index) (hle : f.index ≤ last.index) :
    f ∈ node.page start limit := by
  unfold Forwards.page at h ⊢
  have hmem : f ∈ node.entries.filter fun g => start ≤ g.index :=
    List.mem_filter.mpr ⟨hf, by simpa using hstart⟩
  have hsorted := node.sorted.filter fun g => decide (start ≤ g.index)
  rw [← List.take_append_drop limit.toNat (node.entries.filter _)] at hmem hsorted
  rcases List.mem_append.mp hmem with htake | hdrop
  · exact htake
  · have hlast := List.mem_of_getLast? h
    have hlt := (List.pairwise_append.mp hsorted).2.2 last hlast f hdrop
    omega

end Paging

section Assertions

/-- The rows so far: those of the table at the start, the live ones, and the backfilled ones. -/
structure Holding (s : Host) (hydrated : List ForwardRow) (pages : List (List Json)) (t : Host) :
    Prop where
  rows : ∀ row, row ∈ t.table.rows ↔ row ∈ s.table.rows ∨ row ∈ t.live ∨ row ∈ hydrated
  node : s.node.entries ⊆ t.node.entries
  pages : t.pages = pages

variable {s t : Host} {hydrated : List ForwardRow} {pages : List (List Json)}

theorem holding_stable : startup.Stable (Holding s hydrated pages) := by
  intro t u h hdrift
  cases hdrift with
  | @live event row _ =>
    refine ⟨fun other => ?_, h.node, h.pages⟩
    rw [mem_insertForwardIgnoreDup, h.rows, List.mem_append, List.mem_singleton]
    tauto
  | settles node hnode => exact ⟨h.rows, List.Subset.trans h.node hnode, h.pages⟩

theorem Holding.insert (h : Holding s hydrated pages t) (row : ForwardRow) :
    Holding s (hydrated ++ [row]) pages
      { t with table := (insertForwardIgnoreDup t.table row).2 } := by
  refine ⟨fun other => ?_, h.node, h.pages⟩
  rw [mem_insertForwardIgnoreDup, h.rows, List.mem_append, List.mem_singleton]
  tauto

theorem Holding.read (h : Holding s hydrated pages t) (page : List Json) :
    Holding s hydrated (pages ++ [page]) { t with pages := t.pages ++ [page] } := by
  refine ⟨h.rows, h.node, ?_⟩
  rw [← h.pages]

theorem closes_iff_covered {read : Host} {flowWindowDays now : ℤ}
    (h : ∀ f, Settled s t f → (forwardRowFromJson f ∈ t.table.rows ↔
      (∃ start, computeForwardHydrationStart (ForwardIngest.lastForwardTs read.table)
        flowWindowDays now = .ok (some start) ∧ start < receivedTime f) ∨
      forwardRowFromJson f ∈ s.table.rows ∨ forwardRowFromJson f ∈ t.live)) :
    Closes s t flowWindowDays now ↔ Covered s read t flowWindowDays now := by
  unfold Closes Covered
  constructor
  · intro hcloses f hf hwindow
    exact (h f hf).mp (count_eq_one_iff.mp (hcloses f hf hwindow))
  · intro hcovered f hf hwindow
    exact count_eq_one_iff.mpr ((h f hf).mpr (hcovered f hf hwindow))

theorem receivedTime_of_row {f g : Json} (h : forwardRowFromJson f = forwardRowFromJson g) :
    receivedTime f = receivedTime g := congrArg ForwardRow.timestamp h

theorem mem_rows_of_pages {start : ℤ}
    (h : Holding s ((newerThan start t.reported).map forwardRowFromJson) t.pages t)
    (hseen : ∀ f ∈ s.node.entries, f.json ∈ t.reported) {f : Json} (hf : Settled s t f) :
    forwardRowFromJson f ∈ t.table.rows ↔ start < receivedTime f ∨
      forwardRowFromJson f ∈ s.table.rows ∨ forwardRowFromJson f ∈ t.live := by
  have hreported : f ∈ t.reported := by
    rcases hf with hf | hf
    · obtain ⟨g, hg, rfl⟩ := List.mem_map.mp hf
      exact hseen g hg
    · exact hf
  have hhydrated : forwardRowFromJson f ∈ (newerThan start t.reported).map forwardRowFromJson ↔
      start < receivedTime f := by
    rw [List.mem_map]
    constructor
    · rintro ⟨g, hg, hrow⟩
      rw [← receivedTime_of_row hrow]
      simpa using (List.mem_filter.mp hg).2
    · intro hlater
      exact ⟨f, List.mem_filter.mpr ⟨hreported, by simpa using hlater⟩, rfl⟩
  rw [h.rows, hhydrated]
  tauto

end Assertions

section Runs

variable {s t : Host} {α : Type}

abbrev Ends (Q : α → Host → Prop) (p : Hydration α) (t : Host) : Prop :=
  startup.Safe (fun _ => True) Q p t

theorem ends_ret {Q : α → Host → Prop} {a : α} {hydrated : List ForwardRow}
    {pages : List (List Json)} (h : Holding s hydrated pages t)
    (hQ : ∀ u, Holding s hydrated pages u → Q a u) : Ends Q (.ret a) t :=
  World.Safe.ret holding_stable h (fun _ _ => trivial) hQ

theorem ends_call {Q : α → Host → Prop} {op : Op} {next : Reply op → Hydration α}
    {hydrated : List ForwardRow} {pages : List (List Json)} (h : Holding s hydrated pages t)
    (hnext : ∀ u r v, Holding s hydrated pages u → u.answer op = (r, v) → Ends Q (next r) v) :
    Ends Q (.call op next) t :=
  World.Safe.call holding_stable h (fun _ _ => trivial) hnext

theorem ends_ret_pages {Q : α → Host → Prop} {a : α}
    (hQ : ∀ u, u.pages = t.pages → Q a u) : Ends Q (.ret a) t := by
  apply World.Safe.ret (A := fun u => u.pages = t.pages)
  · intro u v hu hdrift
    cases hdrift with
    | live _ => exact hu
    | settles _ _ => exact hu
  · rfl
  · exact fun _ _ => trivial
  · exact hQ

theorem ends_insertForwards (forwards : List Json) (inserted : ℕ) {hydrated : List ForwardRow}
    {pages : List (List Json)} (h : Holding s hydrated pages t) :
    Ends (fun _ => Holding s (hydrated ++ forwards.map forwardRowFromJson) pages)
      (insertForwards forwards inserted) t := by
  induction forwards generalizing inserted hydrated t with
  | nil =>
    apply ends_ret h
    intro u hu
    rwa [List.map_nil, List.append_nil]
  | cons f forwards ih =>
    apply ends_call h
    intro u r v hu hanswer
    obtain ⟨rfl, rfl⟩ := Prod.mk.inj hanswer
    have hnext := hu.insert (forwardRowFromJson f)
    have hrows : hydrated ++ (f :: forwards).map forwardRowFromJson =
        hydrated ++ [forwardRowFromJson f] ++ forwards.map forwardRowFromJson := by simp
    rw [hrows]
    cases (insertForwardIgnoreDup u.table (forwardRowFromJson f)).1 with
    | true => exact ih (inserted + 1) hnext
    | false => exact ih inserted hnext

theorem pageForwards_obj (forwards : List Json) :
    pageForwards (.obj [("forwards", .arr forwards)]) = some forwards := rfl

theorem nextPage_eq_ok {nextStart advanced : ℤ} {forwards : List Json}
    (h : nextPage nextStart forwards = .ok advanced) :
    ∃ f, forwards.getLast? = some f ∧ createdIndex f = some (advanced - 1) := by
  unfold nextPage at h
  cases hlast : forwards.getLast?.bind createdIndex with
  | none =>
    rw [hlast] at h
    cases h
  | some last =>
    rw [hlast] at h
    obtain ⟨f, hf, hindex⟩ := Option.bind_eq_some_iff.mp hlast
    obtain ⟨next, hnext, h⟩ := Outcome.bind_eq_ok.mp h
    obtain ⟨-, rfl⟩ := i64?_eq_some.mp (Outcome.checked_eq_ok.mp hnext)
    by_cases hadvanced : last + 1 ≤ nextStart
    · rw [if_pos hadvanced] at h
      cases h
    · rw [if_neg hadvanced] at h
      obtain rfl := Outcome.pure_eq_ok.mp h
      exact ⟨f, hf, by rw [hindex, Int.add_sub_cancel]⟩

theorem last_of_nextPage {nextStart advanced : ℤ} {page : List Forward}
    (h : nextPage nextStart (page.map Forward.json) = .ok advanced) :
    ∃ last, page.getLast? = some last ∧ advanced = last.index + 1 := by
  obtain ⟨f, hf, hindex⟩ := nextPage_eq_ok h
  rw [List.getLast?_map] at hf
  obtain ⟨last, hlast, rfl⟩ := Option.map_eq_some_iff.mp hf
  rw [last.named, Option.some.injEq] at hindex
  exact ⟨last, hlast, by omega⟩

theorem not_pagedThrough {pages : List (List Json)} {page : List Json}
    (h : ¬ page.length < hydrationPageLimit) : ¬ PagedThrough (pages ++ [page]) :=
  fun hpaged => h (hpaged page (by simp))

def Fetched (s : Host) (start : ℤ) (r : Outcome String (List Json)) (t : Host) : Prop :=
  match r with
  | .ok collected => Holding s [] t.pages t ∧ collected = newerThan start t.reported ∧
      ∀ f ∈ s.node.entries, f.json ∈ t.reported
  | .err _ => ¬ PagedThrough t.pages
  | .panic => True

theorem ends_fetchPages (start : ℤ) (pages : ℕ) (nextStart : ℤ) (collected : List Json)
    {read : List (List Json)} (h : Holding s [] read t)
    (hcollected : collected = newerThan start read.flatten)
    (hseen : ∀ f ∈ s.node.entries, f.index < nextStart → f.json ∈ read.flatten)
    (hpages : pages = 0 → ¬ PagedThrough read) :
    Ends (Fetched s start) (fetchPages start pages nextStart collected) t := by
  induction pages generalizing nextStart collected read t with
  | zero =>
    apply ends_ret h
    intro u hu
    rw [Fetched, hu.pages]
    exact hpages rfl
  | succ pages ih =>
    apply ends_call h
    intro u r v hu hanswer
    obtain ⟨rfl, rfl⟩ := Prod.mk.inj hanswer
    have hread := hu.read ((u.node.page nextStart hydrationPageLimit).map Forward.json)
    generalize hforwards : (u.node.page nextStart hydrationPageLimit).map Forward.json = forwards
      at hread ⊢
    have hgathered : collected ++ newerThan start forwards =
        newerThan start (read ++ [forwards]).flatten := by
      rw [hcollected]
      simp [newerThan]
    simp only [Prog.bind, pageForwards_obj]
    by_cases hshort : (forwards.length : ℤ) < hydrationPageLimit
    · rw [if_pos hshort, hgathered]
      apply ends_ret hread
      intro w hw
      have hreported : w.reported = (read ++ [forwards]).flatten := by rw [Host.reported, hw.pages]
      refine ⟨by rwa [hw.pages], by rw [hreported], fun f hf => ?_⟩
      rw [hreported, List.flatten_concat, List.mem_append]
      by_cases hbefore : f.index < nextStart
      · exact .inl (hseen f hf hbefore)
      · right
        rw [← hforwards] at hshort ⊢
        rw [List.length_map] at hshort
        exact List.mem_map_of_mem (mem_short_page hshort (hu.node hf) (by omega))
    · rw [if_neg hshort]
      cases hnext : nextPage nextStart forwards with
      | err e =>
        apply ends_ret hread
        intro w hw
        rw [Fetched, hw.pages]
        exact not_pagedThrough hshort
      | panic => exact ends_ret hread fun w hw => trivial
      | ok advanced =>
        apply ih advanced _ hread hgathered
        · intro f hf hindex
          rw [List.flatten_concat, List.mem_append]
          by_cases hbefore : f.index < nextStart
          · exact .inl (hseen f hf hbefore)
          · right
            rw [← hforwards] at hnext ⊢
            obtain ⟨last, hlast, hle⟩ := last_of_nextPage hnext
            exact List.mem_map_of_mem (mem_page_of_le hlast (hu.node hf) (by omega) (by omega))
        · exact fun _ => not_pagedThrough hshort

/-- A backfill leaves the rows of all that the node reported after its start. -/
theorem ends_backfill {start : ℤ} (h : Holding s [] [] t) :
    Ends (fun r u => (∃ n, r = .ok n) → PagedThrough u.pages →
        Holding s ((newerThan start u.reported).map forwardRowFromJson) u.pages u ∧
          ∀ f ∈ s.node.entries, f.json ∈ u.reported)
      (backfill start) t := by
  apply World.Safe.bind
  have hfetch : Ends (Fetched s start) (fetchSettledForwards start) t := by
    apply ends_fetchPages start hydrationMaxPages 0 [] h rfl
    · exact fun f _ hindex => absurd f.nonneg (by omega)
    · exact fun hpages => absurd hpages (by decide)
  refine World.Safe.mono hfetch fun r u _ hu => ?_
  cases r with
  | err e => exact ends_ret_pages fun w hw _ hpaged => absurd (hw ▸ hpaged) hu
  | panic =>
    apply ends_ret_pages
    rintro w - ⟨n, hn⟩
    cases hn
  | ok collected =>
    obtain ⟨hholding, hcollected, hseen⟩ := hu
    apply World.Safe.bind
    refine World.Safe.mono (ends_insertForwards collected 0 hholding) fun inserted v _ hv => ?_
    apply ends_ret hv
    intro w hw _ _
    have hreported : w.reported = u.reported := by rw [Host.reported, hw.pages, Host.reported]
    rw [hreported, hw.pages, ← hcollected]
    exact ⟨hw, hseen⟩

/-- The backfill closes the gap exactly when the table that it reads, with whatever
came live by then,
calls for all of the window that nobody else brings. -/
theorem closes_iff (table : ForwardTable) (node : Forwards) (flowWindowDays now : ℤ) {t : Host}
    {log : List (World.Moment Op Reply Host)} {m : World.Moment Op Reply Host} {n : ℕ}
    (h : startup.Run (runStartupHydration flowWindowDays now) (.start table node) (m :: log)
      (.ret (.ok n)) t) (hpaged : PagedThrough t.pages) :
    Closes (.start table node) t flowWindowDays now ↔
      Covered (.start table node) m.state t flowWindowDays now := by
  have hs : Holding (.start table node) [] [] (.start table node) :=
    ⟨fun row => by simp [Host.start], List.Subset.refl _, rfl⟩
  generalize Host.start table node = s at h hs ⊢
  obtain ⟨v, reply, w, hstar, rfl, hanswer, hrun⟩ := h.first
  obtain ⟨rfl, rfl⟩ := Prod.mk.inj hanswer
  have hread : Holding s [] [] v := holding_stable.star hs hstar
  change startup.Run (match computeForwardHydrationStart (ForwardIngest.lastForwardTs v.table)
    flowWindowDays now with
    | .ok (some start) => backfill start
    | .ok none => .ret (.ok 0)
    | .panic => .ret .panic) v log (.ret (.ok n)) t at hrun
  cases hstart : computeForwardHydrationStart (ForwardIngest.lastForwardTs v.table)
      flowWindowDays now with
  | err e => cases e
  | panic =>
    rw [hstart] at hrun
    cases (path_ret hrun.path).2
  | ok start =>
    rw [hstart] at hrun
    apply closes_iff_covered
    intro f hf
    cases start with
    | none =>
      have hend : Ends (fun _ => Holding s [] []) (.ret (.ok 0 : Outcome Empty ℕ)) v :=
        ends_ret hread fun u hu => hu
      have hrows := (hend.run hrun).result.rows (forwardRowFromJson f)
      simpa [hstart] using hrows
    | some start =>
      obtain ⟨hholding, hseen⟩ := ((ends_backfill hread).run hrun).result ⟨n, rfl⟩ hpaged
      have hrows := mem_rows_of_pages hholding hseen hf
      simpa [hstart] using hrows

end Runs

section Unmoved

variable {s read t : Host} {flowWindowDays now : ℤ}

theorem computeForwardHydrationStart_eq {last r : Option ℤ}
    (hgap : ∀ ts, last = some ts → 300 < now - ts)
    (h : computeForwardHydrationStart last flowWindowDays now = .ok r) :
    r = some (gapStart last flowWindowDays now) := by
  unfold computeForwardHydrationStart at h
  cases last with
  | none =>
    obtain ⟨span, hspan, h⟩ := Outcome.bind_eq_ok.mp h
    obtain ⟨start, hstart, h⟩ := Outcome.bind_eq_ok.mp h
    obtain ⟨-, rfl⟩ := i64?_eq_some.mp (Outcome.checked_eq_ok.mp hspan)
    obtain ⟨-, rfl⟩ := i64?_eq_some.mp (Outcome.checked_eq_ok.mp hstart)
    rw [← Outcome.pure_eq_ok.mp h, gapStart, Int.mul_comm]
  | some ts =>
    have hlate := hgap ts rfl
    obtain ⟨gap, hgap, h⟩ := Outcome.bind_eq_ok.mp h
    obtain ⟨-, rfl⟩ := i64?_eq_some.mp (Outcome.checked_eq_ok.mp hgap)
    have hjitter : ¬ max (now - ts) 0 ≤ forwardHydrationEventJitterSeconds := by
      unfold forwardHydrationEventJitterSeconds
      omega
    rw [if_neg hjitter] at h
    obtain ⟨days, hdays, h⟩ := Outcome.bind_eq_ok.mp h
    obtain ⟨span, hspan, h⟩ := Outcome.bind_eq_ok.mp h
    obtain ⟨floor, hfloor, h⟩ := Outcome.bind_eq_ok.mp h
    obtain ⟨overlap, hoverlap, h⟩ := Outcome.bind_eq_ok.mp h
    obtain ⟨-, rfl⟩ := i64?_eq_some.mp (Outcome.checked_eq_ok.mp hdays)
    obtain ⟨-, rfl⟩ := i64?_eq_some.mp (Outcome.checked_eq_ok.mp hspan)
    obtain ⟨-, rfl⟩ := i64?_eq_some.mp (Outcome.checked_eq_ok.mp hfloor)
    obtain ⟨-, rfl⟩ := i64?_eq_some.mp (Outcome.checked_eq_ok.mp hoverlap)
    rw [← Outcome.pure_eq_ok.mp h, gapStart, Int.mul_comm]

theorem covered_of_unmoved
    (hlast : ForwardIngest.lastForwardTs read.table = ForwardIngest.lastForwardTs s.table)
    (hgap : ∀ ts, ForwardIngest.lastForwardTs s.table = some ts → 300 < now - ts)
    {r : Option ℤ}
    (h : computeForwardHydrationStart (ForwardIngest.lastForwardTs read.table) flowWindowDays now =
      .ok r) : Covered s read t flowWindowDays now := by
  intro f _ hwindow
  rw [hlast] at h ⊢
  obtain rfl := computeForwardHydrationStart_eq hgap h
  exact .inl ⟨_, h, hwindow⟩

end Unmoved

section Race

def settledForward (index receivedTime : ℤ) : Json :=
  .obj [("created_index", .int index), ("in_channel", .str "1x1x0"), ("out_channel", .str "2x2x0"),
    ("in_msat", .int 100000), ("out_msat", .int 99000), ("fee_msat", .int 1000),
    ("received_time", .int receivedTime), ("resolved_time", .int receivedTime),
    ("status", .str "settled")]

def startNow : ℤ := 2000000000

def oldTable : ForwardTable :=
  (insertForwardIgnoreDup .empty (forwardRowFromJson (settledForward 1 (startNow - 864000)))).2

/-- In between the node settled one forward, and a payment received lately settles now. -/
def gapForward : Forward := ⟨settledForward 2 (startNow - 432000), 2, rfl, by decide⟩

def lateForward : Forward := ⟨settledForward 3 (startNow - 1000), 3, rfl, by decide⟩

def gapNode : Forwards := ⟨[gapForward, lateForward], by simp [gapForward, lateForward]⟩

def racedHost : Host :=
  { Host.start oldTable gapNode with
    table := (insertForwardIgnoreDup oldTable (forwardRowFromJson lateForward.json)).2
    live := [forwardRowFromJson lateForward.json] }

def racedRun : Option (Outcome Empty ℕ × Host) :=
  World.simulate (fun op (s : Host) => some (s.answer op))
    (runStartupHydration 7 startNow) racedHost

theorem racedRun_eq : racedRun.map (fun run => (run.1.value, run.2.pages.map List.length,
    run.2.table.rows.count (forwardRowFromJson gapForward.json))) = some (some 0, [2], 0) := by
  decide +kernel

theorem raced_run :
    ∃ m log t, startup.Run (runStartupHydration 7 startNow) (.start oldTable gapNode)
    (m :: log) (.ret (.ok 0)) t ∧ PagedThrough t.pages ∧
      t.table.rows.count (forwardRowFromJson gapForward.json) = 0 := by
  obtain ⟨⟨r, t⟩, hrun, ht⟩ := Option.map_eq_some_iff.mp racedRun_eq
  simp only [Prod.mk.injEq, value_eq_some] at ht
  obtain ⟨rfl, hpages, hcount⟩ := ht
  obtain ⟨log, hlog⟩ := World.run_of_simulate (W := startup)
    (fun op s r t h => Option.some.inj h) hrun
  have hlive : settledRow lateForward.json = some (forwardRowFromJson lateForward.json) := by
    decide
  have hpaged : PagedThrough t.pages := by
    intro page hpage
    have hlength : page.length = 2 := by
      have hmap : (t.pages.map List.length).getLast? = some page.length := by
        rw [List.getLast?_map, hpage]
        rfl
      rw [hpages] at hmap
      exact (Option.some.inj hmap).symm
    rw [hlength]
    unfold hydrationPageLimit
    decide
  cases log with
  | nil =>
    rcases path_call hlog.path with ⟨-, hret⟩ | ⟨_, _, hlog, -⟩
    · cases hret
    · cases hlog
  | cons m log => exact ⟨m, log, t, .drift (.live hlive) hlog, hpaged, hcount⟩

theorem gapForward_in_window :
    gapStart (ForwardIngest.lastForwardTs (Host.start oldTable gapNode).table) 7 startNow <
      receivedTime gapForward.json := by
  decide

/-- The live event moved the newest timestamp, and the forward of the gap is never inserted. -/
theorem live_event_hides_gap :
    (∀ ts, ForwardIngest.lastForwardTs oldTable = some ts → 300 < startNow - ts) ∧
      ∃ m log t, startup.Run (runStartupHydration 7 startNow) (.start oldTable gapNode) (m :: log)
        (.ret (.ok 0)) t ∧ PagedThrough t.pages ∧
        ¬ Closes (.start oldTable gapNode) t 7 startNow := by
  constructor
  · intro ts hts
    rw [show ForwardIngest.lastForwardTs oldTable = some (startNow - 864000) by decide,
      Option.some.injEq] at hts
    rw [← hts]
    decide
  · obtain ⟨m, log, t, hrun, hpaged, hcount⟩ := raced_run
    refine ⟨m, log, t, hrun, hpaged, fun hcloses => ?_⟩
    have hone := hcloses gapForward.json (.inl List.mem_cons_self) gapForward_in_window
    omega

theorem raced_read_uncovered : ∃ read t : Host,
    ¬ Covered (.start oldTable gapNode) read t 7 startNow := by
  obtain ⟨m, log, t, hrun, hpaged, hcount⟩ := raced_run
  refine ⟨m.state, t, fun hcovered => ?_⟩
  have hcloses := (closes_iff oldTable gapNode 7 startNow hrun hpaged).mpr hcovered
  have hone := hcloses gapForward.json (.inl List.mem_cons_self) gapForward_in_window
  omega

end Race

end StartupHydration
