import RevenueOps.FallibleState

/-! One writable SQLite connection in WAL mode, over an arbitrary database value.
Statements apply to the open transaction if there is one and commit at once otherwise.
A failure script decides which statements fail, so every result holds under all failures. -/
namespace SqlTransaction

open FallibleState

/-- A statement failure from outside the statement. An error other than busy or locked may
roll the open transaction back by itself. -/
inductive Fault where
  | busy
  | locked
  | other (rollsBack : Bool)
  deriving DecidableEq, Repr

def Fault.rollsBack : Fault → Bool
  | .other b => b
  | _ => false

inductive SqlError where
  | fault (f : Fault)
  | integerOverflow
  | noSuchTable
  | constraint
  | transactionOpen
  | noTransaction
  deriving DecidableEq, Repr

def SqlError.isBusyOrLocked : SqlError → Bool
  | .fault .busy => true
  | .fault .locked => true
  | _ => false

structure Connection (δ : Type) where
  db : δ
  tx : Option δ
  faults : List (Option Fault)

variable {δ α ε : Type}

abbrev Sql (δ α : Type) := Eff (Connection δ) SqlError α

namespace Connection

def visible (c : Connection δ) : δ := c.tx.getD c.db
def fault (c : Connection δ) : Option Fault := c.faults.head?.join

def failed (c : Connection δ) (f : Fault) : Connection δ :=
  { c with tx := if f.rollsBack then none else c.tx, faults := c.faults.tail }

def written (c : Connection δ) (t : δ) : Connection δ :=
  match c.tx with
  | some _ => { c with tx := some t, faults := c.faults.tail }
  | none => { c with db := t, faults := c.faults.tail }

end Connection

/-- A statement that errors by itself leaves no trace in the data. -/
def statement (f : δ → Except SqlError (α × δ)) : Sql δ α := fun c =>
  match c.fault with
  | some k => (.err (.fault k), c.failed k)
  | none =>
    match f c.visible with
    | .error e => (.err e, { c with faults := c.faults.tail })
    | .ok (a, t) => (.ok a, c.written t)

def query (f : δ → Except SqlError α) : Sql δ α := statement fun t => (f t).map fun a => (a, t)

/-- BEGIN IMMEDIATE takes the writer lock or fails before anything is open. -/
def beginImmediate : Sql δ Unit := fun c =>
  match c.fault, c.tx with
  | some k, _ => (.err (.fault k), { c with faults := c.faults.tail })
  | none, some _ => (.err .transactionOpen, { c with faults := c.faults.tail })
  | none, none => (.ok (), { c with tx := some c.db, faults := c.faults.tail })

/-- A COMMIT that fails under the writer lock of WAL mode rolls the transaction back. -/
def commit : Sql δ Unit := fun c =>
  match c.fault, c.tx with
  | _, none => (.err .noTransaction, { c with faults := c.faults.tail })
  | some k, some _ => (.err (.fault k), { c with tx := none, faults := c.faults.tail })
  | none, some t => (.ok (), { db := t, tx := none, faults := c.faults.tail })

/-- ROLLBACK fails only when no transaction is open. -/
def rollback : Sql δ Unit := fun c =>
  match c.tx with
  | some _ => (.ok (), { c with tx := none })
  | none => (.err .noTransaction, c)

def rollbackQuietly : Eff (Connection δ) ε Unit := fun c => (.ok (), { c with tx := none })

/-- The body and its COMMIT; an error of either rolls the transaction back. -/
def guarded (wrap : SqlError → ε) (m : Eff (Connection δ) ε α) : Eff (Connection δ) ε α := do
  let result ← Eff.attempt do
    let a ← m
    Eff.mapErr wrap commit
    pure a
  match result with
  | .ok a => pure a
  | .error e => do
    rollbackQuietly
    Eff.throw e

/-- Run one method on the committed data with a failure script; keep what it committed. -/
def call (m : Eff (Connection δ) ε α) (faults : List (Option Fault)) (t : δ) :
    Outcome ε α × δ :=
  let r := m ⟨t, none, faults⟩
  (r.1, r.2.db)

section Rules

variable {c : Connection δ} {f : δ → Except SqlError (α × δ)}

theorem wp_statement_tx {Q : Post (Connection δ) SqlError α} {t : δ} (h : c.tx = some t)
    (herr : ∀ e d, d.db = c.db → (e.isBusyOrLocked → d.tx = some t) → Q.err e d)
    (hok : ∀ a t' d, f t = .ok (a, t') → d.db = c.db → d.tx = some t' → Q.ok a d) :
    wp (statement f) Q c := by
  have hv : c.visible = t := by simp [Connection.visible, h]
  unfold wp statement
  cases hf : c.fault with
  | some k =>
    refine herr _ _ rfl fun hb => ?_
    cases k <;> simp_all [SqlError.isBusyOrLocked, Connection.failed, Fault.rollsBack]
  | none =>
    rw [hv]
    cases hr : f t with
    | error e => exact herr _ _ rfl fun _ => h
    | ok p =>
      obtain ⟨a, t'⟩ := p
      exact hok a t' _ hr (by simp [Connection.written, h]) (by simp [Connection.written, h])

theorem wp_statement_auto {Q : Post (Connection δ) SqlError α} (h : c.tx = none)
    (herr : ∀ e d, d.db = c.db → d.tx = none → Q.err e d)
    (hok : ∀ a t' d, f c.db = .ok (a, t') → d.db = t' → d.tx = none → Q.ok a d) :
    wp (statement f) Q c := by
  have hv : c.visible = c.db := by simp [Connection.visible, h]
  unfold wp statement
  cases hf : c.fault with
  | some k => exact herr _ _ rfl (by simp [Connection.failed, h])
  | none =>
    rw [hv]
    cases hr : f c.db with
    | error e => exact herr _ _ rfl h
    | ok p =>
      obtain ⟨a, t'⟩ := p
      exact hok a t' _ hr (by simp [Connection.written, h]) (by simp [Connection.written, h])

theorem wp_query_tx {g : δ → Except SqlError α} {Q : Post (Connection δ) SqlError α} {t : δ}
    (h : c.tx = some t) (herr : ∀ e d, d.db = c.db → Q.err e d)
    (hok : ∀ a d, g t = .ok a → d.db = c.db → d.tx = some t → Q.ok a d) :
    wp (query g) Q c := by
  refine wp_statement_tx h (fun e d hdb _ => herr e d hdb) fun a t' d hr hdb htx => ?_
  cases hg : g t with
  | error e => simp [hg, Except.map] at hr
  | ok b =>
    simp only [hg, Except.map, Except.ok.injEq, Prod.mk.injEq] at hr
    obtain ⟨rfl, rfl⟩ := hr
    exact hok b d hg hdb htx

theorem wp_begin {Q : Post (Connection δ) SqlError Unit} (h : c.tx = none)
    (herr : ∀ e d, d.db = c.db → d.tx = none → Q.err e d)
    (hok : ∀ d, d.db = c.db → d.tx = some c.db → Q.ok () d) : wp beginImmediate Q c := by
  unfold wp beginImmediate
  rw [h]
  cases c.fault with
  | some k => exact herr _ _ rfl rfl
  | none => exact hok _ rfl rfl

theorem wp_commit {Q : Post (Connection δ) SqlError Unit} {t : δ} (h : c.tx = some t)
    (herr : ∀ e d, d.db = c.db → d.tx = none → Q.err e d)
    (hok : ∀ d, d.db = t → d.tx = none → Q.ok () d) : wp commit Q c := by
  unfold wp commit
  rw [h]
  cases c.fault with
  | some k => exact herr _ _ rfl rfl
  | none => exact hok _ rfl rfl

theorem wp_rollback {Q : Post (Connection δ) SqlError Unit} {t : δ} (h : c.tx = some t)
    (hok : ∀ d, d.db = c.db → d.tx = none → Q.ok () d) : wp rollback Q c := by
  unfold wp rollback
  rw [h]
  exact hok _ rfl rfl

theorem wp_rollbackQuietly {Q : Post (Connection δ) ε Unit}
    (hok : ∀ d, d.db = c.db → d.tx = none → Q.ok () d) : wp rollbackQuietly Q c := by
  unfold wp rollbackQuietly
  exact hok _ rfl rfl

end Rules

/-- What a method owes its caller when it starts outside a transaction on the data `t`: a
returned call leaves no transaction open, and an error leaves the data as it was. -/
def Atomic (t : δ) (R : α → δ → Prop) : Post (Connection δ) ε α where
  ok a d := d.tx = none ∧ R a d.db
  err _ d := d.tx = none ∧ d.db = t
  panic d := d.db = t

/-- What a step inside the transaction opened on `db` owes: only the transaction moves. -/
def Inside (db : δ) (R : α → δ → Prop) : Post (Connection δ) ε α where
  ok a d := d.db = db ∧ ∃ t, d.tx = some t ∧ R a t
  err _ d := d.db = db
  panic d := d.db = db

section Composition

variable {β : Type} {db t : δ} {c : Connection δ} {R : β → δ → Prop}

theorem inside_query {wrap : SqlError → ε} {g : δ → Except SqlError α}
    {k : α → Eff (Connection δ) ε β} (hdb : c.db = db) (htx : c.tx = some t)
    (hk : ∀ a d, g t = .ok a → d.db = db → d.tx = some t → wp (k a) (Inside db R) d) :
    wp (Eff.mapErr wrap (query g) >>= k) (Inside db R) c := by
  rw [wp_bind, wp_mapErr]
  exact wp_query_tx htx (fun _ d hd => hd.trans hdb) fun a d ha hd htx' =>
    hk a d ha (hd.trans hdb) htx'

theorem inside_statement {wrap : SqlError → ε} {f : δ → Except SqlError (α × δ)}
    {k : α → Eff (Connection δ) ε β} (hdb : c.db = db) (htx : c.tx = some t)
    (hk : ∀ a t' d, f t = .ok (a, t') → d.db = db → d.tx = some t' → wp (k a) (Inside db R) d) :
    wp (Eff.mapErr wrap (statement f) >>= k) (Inside db R) c := by
  rw [wp_bind, wp_mapErr]
  exact wp_statement_tx htx (fun _ d hd _ => hd.trans hdb) fun a t' d ha hd htx' =>
    hk a t' d ha (hd.trans hdb) htx'

theorem inside_checked {o : Option α} {k : α → Eff (Connection δ) ε β} (hdb : c.db = db)
    (hk : ∀ a, o = some a → wp (k a) (Inside db R) c) :
    wp (Eff.checked o >>= k) (Inside db R) c := by
  rw [wp_bind, wp_checked]
  exact ⟨hk, fun _ => hdb⟩

theorem inside_pure {b : β} (hdb : c.db = db) (htx : c.tx = some t) (hb : R b t) :
    wp (Pure.pure b : Eff (Connection δ) ε β) (Inside db R) c :=
  (wp_pure ..).mpr ⟨hdb, t, htx, hb⟩

theorem inside_throw {e : ε} (hdb : c.db = db) :
    wp (Eff.throw e : Eff (Connection δ) ε β) (Inside db R) c :=
  (wp_throw ..).mpr hdb

theorem inside_panic (hdb : c.db = db) :
    wp (Eff.panic : Eff (Connection δ) ε β) (Inside db R) c :=
  (wp_panic ..).mpr hdb

theorem inside_bind {R' : α → δ → Prop} {m : Eff (Connection δ) ε α}
    {k : α → Eff (Connection δ) ε β} (hm : wp m (Inside db R') c)
    (hk : ∀ a t' d, R' a t' → d.db = db → d.tx = some t' → wp (k a) (Inside db R) d) :
    wp (m >>= k) (Inside db R) c := by
  rw [wp_bind]
  refine wp_mono hm ?_ (fun _ _ h => h) fun _ h => h
  rintro a d ⟨hdb, t', htx, ha⟩
  exact hk a t' d ha hdb htx

theorem atomic_statement {wrap : SqlError → ε} {f : δ → Except SqlError (α × δ)}
    {k : α → Eff (Connection δ) ε β} (hdb : c.db = t) (htx : c.tx = none)
    (hk : ∀ a t' d, f t = .ok (a, t') → d.db = t' → d.tx = none → wp (k a) (Atomic t R) d) :
    wp (Eff.mapErr wrap (statement f) >>= k) (Atomic t R) c := by
  rw [wp_bind, wp_mapErr]
  subst hdb
  exact wp_statement_auto htx (fun _ d hd hx => ⟨hx, hd⟩) fun a t' d ha hd hx => hk a t' d ha hd hx

theorem atomic_checked {o : Option α} {k : α → Eff (Connection δ) ε β} (hdb : c.db = t)
    (hk : ∀ a, o = some a → wp (k a) (Atomic t R) c) :
    wp (Eff.checked o >>= k) (Atomic t R) c := by
  rw [wp_bind, wp_checked]
  exact ⟨hk, fun _ => hdb⟩

theorem atomic_pure {b : β} (hdb : c.db = t) (htx : c.tx = none) (hb : R b t) :
    wp (Pure.pure b : Eff (Connection δ) ε β) (Atomic t R) c :=
  (wp_pure ..).mpr ⟨htx, by rwa [hdb]⟩

theorem atomic_throw {e : ε} (hdb : c.db = t) (htx : c.tx = none) :
    wp (Eff.throw e : Eff (Connection δ) ε β) (Atomic t R) c :=
  (wp_throw ..).mpr ⟨htx, hdb⟩

theorem atomic_panic (hdb : c.db = t) :
    wp (Eff.panic : Eff (Connection δ) ε β) (Atomic t R) c :=
  (wp_panic ..).mpr hdb

theorem atomic_begin {wrap : SqlError → ε} {k : Unit → Eff (Connection δ) ε β} (hdb : c.db = t)
    (htx : c.tx = none)
    (hk : ∀ d, d.db = t → d.tx = some t → wp (k ()) (Atomic t R) d) :
    wp (Eff.mapErr wrap beginImmediate >>= k) (Atomic t R) c := by
  rw [wp_bind, wp_mapErr]
  subst hdb
  exact wp_begin htx (fun _ d hd hx => ⟨hx, hd⟩) hk

theorem atomic_commit {wrap : SqlError → ε} {k : Unit → Eff (Connection δ) ε β} {t' : δ}
    (hdb : c.db = t) (htx : c.tx = some t')
    (hk : ∀ d, d.db = t' → d.tx = none → wp (k ()) (Atomic t R) d) :
    wp (Eff.mapErr wrap commit >>= k) (Atomic t R) c := by
  rw [wp_bind, wp_mapErr]
  exact wp_commit htx (fun _ d hd hx => ⟨hx, hd.trans hdb⟩) hk

theorem atomic_rollback {wrap : SqlError → ε} {k : Unit → Eff (Connection δ) ε β} {t' : δ}
    (hdb : c.db = t) (htx : c.tx = some t')
    (hk : ∀ d, d.db = t → d.tx = none → wp (k ()) (Atomic t R) d) :
    wp (Eff.mapErr wrap rollback >>= k) (Atomic t R) c := by
  rw [wp_bind, wp_mapErr]
  exact wp_rollback htx fun d hd hx => hk d (hd.trans hdb) hx

theorem atomic_rollbackQuietly {k : Unit → Eff (Connection δ) ε β} (hdb : c.db = t)
    (hk : ∀ d, d.db = t → d.tx = none → wp (k ()) (Atomic t R) d) :
    wp (rollbackQuietly >>= k) (Atomic t R) c := by
  rw [wp_bind]
  exact wp_rollbackQuietly fun d hd hx => hk d (hd.trans hdb) hx

/-- The body of a transaction, run on behalf of a method that maps its `Result`. -/
theorem atomic_attempt {R' : α → δ → Prop} {m : Eff (Connection δ) ε α}
    {k : Except ε α → Eff (Connection δ) ε β} (hm : wp m (Inside t R') c)
    (hok : ∀ a t' d, R' a t' → d.db = t → d.tx = some t' → wp (k (.ok a)) (Atomic t R) d)
    (herr : ∀ e d, d.db = t → wp (k (.error e)) (Atomic t R) d) :
    wp (Eff.attempt m >>= k) (Atomic t R) c := by
  rw [wp_bind, wp_attempt]
  refine wp_mono hm ?_ (fun e d h => herr e d h) fun _ h => h
  rintro a d ⟨hdb, t', htx, ha⟩
  exact hok a t' d ha hdb htx

theorem atomic_guarded {wrap : SqlError → ε} {m : Eff (Connection δ) ε β}
    (hm : wp m (Inside t R) c) : wp (guarded wrap m) (Atomic t R) c := by
  unfold guarded
  rw [wp_bind, wp_attempt, wp_bind]
  refine wp_mono hm ?_ ?_ fun d hd => hd
  · rintro a d ⟨hdb, t', htx, ha⟩
    change wp (Eff.mapErr wrap commit >>= fun _ => Pure.pure a) _ d
    rw [wp_bind, wp_mapErr]
    refine wp_commit htx ?_ ?_
    · intro e d' hd' _
      exact atomic_rollbackQuietly (hd'.trans hdb) fun d'' hdb' htx' => atomic_throw hdb' htx'
    · intro d' hd' htx'
      exact (wp_pure ..).mpr ((wp_pure ..).mpr ⟨htx', hd' ▸ ha⟩)
  · intro e d hd
    exact atomic_rollbackQuietly hd fun d' hdb' htx' => atomic_throw hdb' htx'

end Composition

theorem call_atomic {m : Eff (Connection δ) ε α} (faults : List (Option Fault)) {t : δ}
    {R : α → δ → Prop} (h : wp m (Atomic t R) ⟨t, none, faults⟩) :
    (∃ a, (call m faults t).1 = .ok a ∧ R a (call m faults t).2) ∨
      ((∀ a, (call m faults t).1 ≠ .ok a) ∧ (call m faults t).2 = t) := by
  unfold wp at h
  unfold call
  rcases hm : m ⟨t, none, faults⟩ with ⟨r, d⟩
  rw [hm] at h
  cases r with
  | ok a => exact Or.inl ⟨a, rfl, h.2⟩
  | err e => exact Or.inr ⟨by simp, h.2⟩
  | panic => exact Or.inr ⟨by simp, h⟩

end SqlTransaction
