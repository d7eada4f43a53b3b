import IpVault.Lib.Prog
import IpVault.Records.Transactions

set_option autoImplicit false

/-! # Statements and handlers

A handler talks to the store one statement at a time. A `Query` reads; the other statements are
the writes of `Schema/Txn.lean` and the three transactions of the record endpoints, each of which
takes effect at once. A statement that fails reports its error to the handler and changes
nothing.

The filters a `WHERE` clause adds to a query that returns several rows are applied by the
handler to the rows it gets, in the order the table has them.
-/

namespace IpVault

open Lib

/-- The reads. -/
inductive Query where
  | key_by_id (id : Uuid)
  | key_by_hash (key_hash : String)
  | all_keys
  | children_of (ids : List Uuid)
  /-- Not a query of the source: it bounds the loop of `collect_key_subtree`, each round of
  which finds a key it has not seen. -/
  | key_count
  | permission (key_id group_id : Uuid)
  | permissions_of (key_id : Uuid)
  | permissions_with_groups (key_id : Uuid)
  | all_permissions
  | group_by_id (id : Uuid)
  | group_by_name (name : String)
  | all_groups
  | record_by_id (id : Uuid)
  | memberships_of (record_id : Uuid)
  | members_with_records
  | webhook_by_id (id : Uuid)
  | all_webhooks
  | execution_by_id (id : Uuid)
  | all_executions

namespace Query

/-- What a read returns. -/
@[reducible] def Reply : Query → Type
  | key_by_id _ => Option ApiKey
  | key_by_hash _ => Option ApiKey
  | all_keys => List ApiKey
  | children_of _ => List ApiKey
  | key_count => Nat
  | permission _ _ => Option GroupPermission
  | permissions_of _ => List GroupPermission
  | permissions_with_groups _ => List (GroupPermission × Option IpGroup)
  | all_permissions => List GroupPermission
  | group_by_id _ => Option IpGroup
  | group_by_name _ => Option IpGroup
  | all_groups => List IpGroup
  | record_by_id _ => Option IpRecord
  | memberships_of _ => List Membership
  | members_with_records => List (Membership × Option IpRecord)
  | webhook_by_id _ => Option WebhookConfig
  | all_webhooks => List WebhookConfig
  | execution_by_id _ => Option WebhookExecution
  | all_executions => List WebhookExecution

/-- The rows a read finds. -/
def eval : (q : Query) → World → q.Reply
  | key_by_id id, w => w.keys.find? id
  | key_by_hash h, w => w.keys.rows.find? fun k => k.key_hash = h
  | all_keys, w => w.keys.rows
  | children_of ids, w => w.keys.rows.filter fun k => k.parent_key_id.any (ids.contains ·)
  | key_count, w => w.keys.rows.length
  | permission key_id group_id, w => w.permission key_id group_id
  | permissions_of key_id, w => w.permissions.rows.filter fun p => p.api_key_id = key_id
  | permissions_with_groups key_id, w =>
      (w.permissions.rows.filter fun p => p.api_key_id = key_id).map fun p =>
        (p, w.groups.find? p.group_id)
  | all_permissions, w => w.permissions.rows
  | group_by_id id, w => w.groups.find? id
  | group_by_name name, w => w.group_named name
  | all_groups, w => w.groups.rows
  | record_by_id id, w => w.records.find? id
  | memberships_of record_id, w =>
      w.memberships.rows.filter fun m => m.ip_record_id = record_id
  | members_with_records, w =>
      w.memberships.rows.map fun m => (m, w.records.find? m.ip_record_id)
  | webhook_by_id id, w => w.webhooks.find? id
  | all_webhooks, w => w.webhooks.rows
  | execution_by_id id, w => w.executions.find? id
  | all_executions, w => w.executions.rows

end Query

/-- The statements a handler issues. -/
inductive Stmt where
  | query (q : Query)
  | insert_key (k : ApiKey)
  | update_key (id : Uuid) (c : Txn.KeyChange)
  | delete_keys (ids : List Uuid)
  | insert_permission (p : GroupPermission)
  | insert_permission_or_ignore (p : GroupPermission)
  | upsert_permission (p : GroupPermission)
  | delete_permission (key_id group_id : Uuid)
  | insert_group (g : IpGroup)
  | insert_group_or_ignore (g : IpGroup)
  | set_group_owner (id : Uuid) (owner : Option Uuid)
  | delete_group (id : Uuid)
  | update_record (id : Uuid) (c : Txn.RecordChange)
  | delete_record (id : Uuid)
  | purge (threshold : Int)
  | insert_webhook (h : WebhookConfig)
  | update_webhook (id : Uuid) (c : Txn.WebhookChange)
  | set_webhook_owner (id : Uuid) (owner : Option Uuid)
  | delete_webhook (id : Uuid)
  | insert_execution (e : WebhookExecution)
  | delete_execution (id : Uuid)
  | insert_audit (a : AuditLog)
  | upsert_txn (t : UpsertTxn)
  | delete_ip_txn (t : DeleteIpTxn)
  | batch_txn (t : BatchTxn)
  | enqueue (e : WebhookEvent)

namespace Stmt

/-- What a statement returns when it succeeds. -/
@[reducible] def Reply : Stmt → Type
  | query q => q.Reply
  | insert_key _ => Uuid
  | update_key _ _ => ApiKey
  | delete_keys _ => Nat
  | insert_permission _ => Unit
  | insert_permission_or_ignore _ => Unit
  | upsert_permission _ => Unit
  | delete_permission _ _ => Nat
  | insert_group _ => Uuid
  | insert_group_or_ignore _ => Unit
  | set_group_owner _ _ => Nat
  | delete_group _ => Nat
  | update_record _ _ => IpRecord
  | delete_record _ => Nat
  | purge _ => Nat
  | insert_webhook _ => Uuid
  | update_webhook _ _ => WebhookConfig
  | set_webhook_owner _ _ => Nat
  | delete_webhook _ => Nat
  | insert_execution _ => Unit
  | delete_execution _ => Nat
  | insert_audit _ => Unit
  | upsert_txn _ => String
  | delete_ip_txn _ => IpRecord
  | batch_txn _ => BatchState
  | enqueue _ => Unit

/-- What a statement does. -/
def txn : (l : Stmt) → Txn l.Reply
  | query q => Txn.read q.eval
  | insert_key k => Txn.insert_key k
  | update_key id c => Txn.update_key id c
  | delete_keys ids => Txn.delete_keys ids
  | insert_permission p => Txn.insert_permission p
  | insert_permission_or_ignore p => Txn.insert_permission_or_ignore p
  | upsert_permission p => Txn.upsert_permission p
  | delete_permission key_id group_id => Txn.delete_permission key_id group_id
  | insert_group g => Txn.insert_group g
  | insert_group_or_ignore g => Txn.insert_group_or_ignore g
  | set_group_owner id owner => Txn.set_group_owner id owner
  | delete_group id => Txn.delete_group id
  | update_record id c => Txn.update_record id c
  | delete_record id => Txn.delete_record id
  | purge threshold => Txn.purge threshold
  | insert_webhook h => Txn.insert_webhook h
  | update_webhook id c => Txn.update_webhook id c
  | set_webhook_owner id owner => Txn.set_webhook_owner id owner
  | delete_webhook id => Txn.delete_webhook id
  | insert_execution e => Txn.insert_execution e
  | delete_execution id => Txn.delete_execution id
  | insert_audit a => Txn.insert_audit a
  | upsert_txn t => t.run
  | delete_ip_txn t => t.run
  | batch_txn t => t.run
  | enqueue e => Txn.enqueue e

/-- The store a statement leaves: unchanged if it fails. -/
def after (l : Stmt) (w : World) : World :=
  match l.txn w with
  | .ok (_, w') => w'
  | .error _ => w

/-- What a statement reports. -/
def answer (l : Stmt) (w : World) : Except AppError l.Reply := (l.txn w).map Prod.fst

theorem wf_txn (l : Stmt) : KeepsWf l.txn := by
  cases l with
  | query q => exact Txn.wf_read _
  | insert_key k => exact Txn.wf_insert_key k
  | update_key id c => exact Txn.wf_update_key id c
  | delete_keys ids => exact Txn.wf_delete_keys ids
  | insert_permission p => exact Txn.wf_insert_permission p
  | insert_permission_or_ignore p => exact Txn.wf_insert_permission_or_ignore p
  | upsert_permission p => exact Txn.wf_upsert_permission p
  | delete_permission key_id group_id => exact Txn.wf_delete_permission key_id group_id
  | insert_group g => exact Txn.wf_insert_group g
  | insert_group_or_ignore g => exact Txn.wf_insert_group_or_ignore g
  | set_group_owner id owner => exact Txn.wf_set_group_owner id owner
  | delete_group id => exact Txn.wf_delete_group id
  | update_record id c => exact Txn.wf_update_record id c
  | delete_record id => exact Txn.wf_delete_records_where _
  | purge threshold => exact Txn.wf_delete_records_where _
  | insert_webhook h => exact Txn.wf_insert_webhook h
  | update_webhook id c => exact Txn.wf_update_webhook id c
  | set_webhook_owner id owner => exact Txn.wf_set_webhook_owner id owner
  | delete_webhook id => exact Txn.wf_delete_webhook id
  | insert_execution e => exact Txn.wf_insert_execution e
  | delete_execution id => exact Txn.wf_delete_execution id
  | insert_audit a => exact Txn.wf_insert_audit a
  | upsert_txn t => exact t.wf_run
  | delete_ip_txn t => exact t.wf_run
  | batch_txn t => exact t.wf_run
  | enqueue e => exact Txn.wf_enqueue e

/-- **Every statement keeps the constraints**, whether it succeeds or fails. -/
theorem wf_after (l : Stmt) {w : World} (hw : w.Wf) : (l.after w).Wf := by
  unfold after
  cases h : l.txn w with
  | error e => exact hw
  | ok p => exact l.wf_txn w p.1 p.2 h hw

@[simp] theorem after_query (q : Query) (w : World) : (query q).after w = w := rfl
@[simp] theorem answer_query (q : Query) (w : World) : (query q).answer w = .ok (q.eval w) := rfl

theorem after_of_ok {l : Stmt} {w w' : World} {a : l.Reply} (h : l.txn w = .ok (a, w')) :
    l.after w = w' := by
  simp only [after, h]

theorem answer_of_ok {l : Stmt} {w w' : World} {a : l.Reply} (h : l.txn w = .ok (a, w')) :
    l.answer w = .ok a := by
  simp only [answer, h, Except.map]

theorem after_of_error {l : Stmt} {w : World} {e : AppError} (h : l.txn w = .error e) :
    l.after w = w := by
  simp only [after, h]

end Stmt

/-- The interface of the store. -/
abbrev Db : Iface := ⟨Stmt, fun l => Except AppError l.Reply⟩

/-- A request handler. -/
abbrev Handler (α : Type) := Prog Db AppError α

/-- The store after a statement. -/
def Vault.after (l : Stmt) (v : Vault) : Vault := ⟨l.after v.toWorld, l.wf_after v.wf⟩

/-- The store of a service that has just created its tables. -/
def Vault.empty (queue_capacity : Nat) : Vault := ⟨.empty queue_capacity, World.wf_empty queue_capacity⟩

/-- The store some statements build up from nothing. -/
def Vault.build (queue_capacity : Nat) (ls : List Stmt) : Vault :=
  ls.foldl (fun v l => v.after l) (.empty queue_capacity)

/-- The database, as the machine that executes statements. -/
def database : Machine Db Vault where
  answer l v := Stmt.answer l v.toWorld
  after l v := v.after l

/-- Issue a statement; its error ends the request. -/
def exec (l : Stmt) : Handler l.Reply := (Prog.op (I := Db) l) >>= Prog.ofExcept

/-- Issue a statement and look at its error. -/
def attempt (l : Stmt) : Handler (Except AppError l.Reply) := Prog.op (I := Db) l

/-- Read. -/
def select (q : Query) : Handler q.Reply := exec (.query q)

@[simp] theorem Vault.after_toWorld (l : Stmt) (v : Vault) :
    (v.after l).toWorld = l.after v.toWorld := rfl

@[simp] theorem Vault.after_query (q : Query) (v : Vault) : v.after (.query q) = v := rfl

@[ext] theorem Vault.ext_world {v v' : Vault} (h : v.toWorld = v'.toWorld) : v = v' := by
  cases v
  cases v'
  simp_all

section Rules

variable {G : Stmt → Vault → Prop} {E : AppError → Vault → Prop} {v : Vault}

theorem meets_exec {l : Stmt} {Q : l.Reply → Vault → Prop} :
    Prog.Meets database G Q E (exec l) v ↔
      G l v ∧ (∀ a w, l.txn v.toWorld = .ok (a, w) → Q a (v.after l)) ∧
        ∀ e, l.txn v.toWorld = .error e → E e (v.after l) := by
  unfold exec
  rw [Prog.meets_bind, Prog.meets_op, Prog.meets_ofExcept]
  refine and_congr_right fun _ => and_congr ?_ ?_
  · show (∀ a, Stmt.answer l v.toWorld = .ok a → _) ↔ _
    unfold Stmt.answer
    cases h : l.txn v.toWorld with
    | error e => simp [Except.map]
    | ok p =>
        obtain ⟨a, w⟩ := p
        simp only [Except.map, Except.ok.injEq, Prod.mk.injEq]
        constructor
        · rintro h' a' w' ⟨rfl, -⟩
          exact h' a rfl
        · rintro h' a' rfl
          exact h' a w ⟨rfl, rfl⟩
  · show (∀ e, Stmt.answer l v.toWorld = .error e → _) ↔ _
    unfold Stmt.answer
    cases h : l.txn v.toWorld with
    | error e => simp [Except.map]; rfl
    | ok p => simp [Except.map]

@[simp] theorem meets_select {q : Query} {Q : q.Reply → Vault → Prop} :
    Prog.Meets database G Q E (select q) v ↔ G (.query q) v ∧ Q (q.eval v.toWorld) v := by
  refine (meets_exec (l := .query q)).trans (and_congr_right fun _ => ?_)
  simp only [Stmt.txn, Txn.read, Except.ok.injEq, Prod.mk.injEq, Vault.after_query]
  constructor
  · rintro ⟨h, -⟩
    exact h _ _ ⟨rfl, rfl⟩
  · intro h
    refine ⟨?_, fun e he => by cases he⟩
    rintro a w ⟨rfl, -⟩
    exact h

end Rules

/-! ## Programs that only read -/

/-- Every statement of the handler is a query. -/
def OnlyReads {α : Type} (p : Handler α) : Prop := p.Issues fun l : Stmt => ∃ q, l = .query q

namespace OnlyReads

variable {α β : Type}

theorem bind {p : Handler α} {f : α → Handler β} (hp : OnlyReads p) (hf : ∀ a, OnlyReads (f a)) :
    OnlyReads (p >>= f) := Prog.Issues.bind hp hf

theorem ofExcept (x : Except AppError α) : OnlyReads (Prog.ofExcept x) := Prog.Issues.ofExcept x

theorem okOr (e : AppError) (x : Option α) : OnlyReads (Prog.okOr e x) := Prog.Issues.okOr e x

theorem require (c : Prop) [Decidable c] (e : AppError) : OnlyReads (Prog.require c e) :=
  Prog.Issues.require c e

theorem ite {c : Prop} [Decidable c] {p q : Handler α} (hp : OnlyReads p) (hq : OnlyReads q) :
    OnlyReads (if c then p else q) := Prog.Issues.ite hp hq

theorem select (q : Query) : OnlyReads (select q) :=
  .bind (Prog.Issues.op ⟨q, rfl⟩) .ofExcept

/-- **A reader leaves the store alone.** -/
theorem meets {G : Stmt → Vault → Prop} {p : Handler α} (hp : OnlyReads p)
    (hG : ∀ q v, G (.query q) v) (v : Vault) :
    Prog.Meets database G (fun _ v' => v' = v) (fun _ v' => v' = v) p v := by
  induction p generalizing v with
  | ret a => rfl
  | fail e => rfl
  | ask l next ih =>
      obtain ⟨⟨q, rfl⟩, hnext⟩ := hp
      exact ⟨hG q v, ih _ (hnext _) v⟩

end OnlyReads

end IpVault
