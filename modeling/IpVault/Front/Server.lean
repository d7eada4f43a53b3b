import IpVault.Front.Authentic
import IpVault.Records.Thresholds
import IpVault.Webhooks.PoolPosts

set_option autoImplicit false

/-! # The whole process

The daemon, the dispatch pool and the two retention sweeps over one store, as `setup_state` and `main`
put them together. The queue of the handlers is the channel of the pool: a request finds in it what the
workers have not picked up yet. A request is a single step, as it is for the daemon. A worker that reads
webhooks reads them from the store as it is at that moment, and the row of an attempt is inserted when the
attempt is over.
-/

namespace IpVault

open Lib

/-- What a process runs with: what serves it, and the variables it reads, if they are set. -/
structure Site where
  frontend : Frontend
  http : Http
  /-- `WEBHOOK_DISPATCH_INTERVAL_MS`. -/
  dispatch_interval_ms : Option String
  /-- `WEBHOOK_MAX_RETRIES`. -/
  max_retries : Option String
  /-- `WEBHOOK_RETRY_BACKOFF_MS`. -/
  retry_backoff_ms : Option String
  /-- `WEBHOOK_EXECUTION_RETENTION_SUCCESS_HOURS`. -/
  success_retention_hours : Option String
  /-- `WEBHOOK_EXECUTION_RETENTION_FAILURE_HOURS`. -/
  failure_retention_hours : Option String

/-- What the pool runs with. -/
def Site.dispatcher (S : Site) : Dispatcher where
  env := S.frontend.env
  http := S.http
  interval := webhook_dispatch_interval S.dispatch_interval_ms
  max_retries := webhook_max_retries S.max_retries
  retry_backoff_ms := webhook_retry_backoff_ms S.retry_backoff_ms

/-- The process: the store, what the middleware keeps, and the pool. -/
structure Server (n : Nat) where
  store : Vault
  gate : Gate
  pool : DispatchPool n

/-! ## The store beside the channel -/

/-- What the channel can hold, as the handlers see it: nothing, once an end of it is gone. -/
def room (c : Channel WebhookEvent) : Nat := if c.senders && c.receiver then c.capacity else 0

theorem World.Wf.with_queue {w : World} (h : w.Wf) (queue : List WebhookEvent) (queue_capacity : Nat) :
    ({ w with queue, queue_capacity } : World).Wf := { h with }

/-- The store, with the channel for its queue. -/
def Vault.beside (v : Vault) (c : Channel WebhookEvent) : Vault where
  toWorld := { v.toWorld with queue := c.buffer, queue_capacity := room c }
  wf := v.wf.with_queue c.buffer (room c)

/-! ## Deliveries and their history -/

/-- The hours that the rows of an outcome are kept. -/
def Site.retention_hours (S : Site) (is_success : Bool) : Int :=
  execution_retention_hours_from_env
    (if is_success then S.success_retention_hours else S.failure_retention_hours)
    (default_execution_retention_hours is_success)

/-- The rows that are due. -/
def expired_execution {c : Chrono} (now : c.Time) (is_success : Bool) (retention_hours : Int)
    (e : WebhookExecution) : Bool :=
  match execution_threshold now retention_hours with
  | some (some threshold) => e.is_success == is_success && Calendar.before e.created_at threshold.val
  | some none | none => false

theorem World.Wf.purge_executions {w : World} (h : w.Wf) (p : WebhookExecution → Bool) :
    ({ w with executions := w.executions.filter p } : World).Wf :=
  { h with
    execution_webhook := fun e he => h.execution_webhook e (Table.mem_filter.mp he).1
    execution_fresh := fun e he => h.execution_fresh e (Table.mem_filter.mp he).1 }

/-- One statement of `purge_expired_webhook_executions`, which has one for each outcome. Where the
threshold panics, nothing is deleted. -/
def purge_expired_webhook_executions {c : Chrono} (now : c.Time) (is_success : Bool)
    (retention_hours : Int) (v : Vault) : Vault where
  toWorld := { v.toWorld with
    executions := v.executions.filter fun e => !expired_execution now is_success retention_hours e }
  wf := v.wf.purge_executions fun e => !expired_execution now is_success retention_hours e

/-- What a delivery does to the store. -/
def DispatchEffect.record (v : Vault) : DispatchEffect → Vault
  | .insert row => v.after (.insert_execution row)
  | .post _ _ _ | .sleep _ => v

/-! ## Steps -/

/-- What happens to the process. What the database answers a worker is the store, if it answers. -/
inductive Server.Event (n : Nat) where
  | incoming (x : Incoming)
  /-- A sweep of `run_retention_worker`. -/
  | sweep (now : Int)
  /-- A statement of a sweep of `run_webhook_execution_retention_worker`. -/
  | sweep_executions (now : Chrono.v0_4.Time) (is_success : Bool)
  | worker (i : Fin n) (client_built reads : Bool) (now : Int) (joined : Nat)
  | task (i : Fin n) (k : Nat) (answer : TaskAnswer)
  | drop_senders
  | returned

namespace Site

variable {n : Nat} (S : Site)

/-- The daemon of the process. -/
def daemon (s : Server n) : Daemon := ⟨s.store.beside s.pool.channel, s.gate⟩

/-- The events a request has put into the channel. -/
def sent (x : Incoming) (s : Server n) : List WebhookEvent :=
  (S.frontend.step (.incoming x) (daemon s)).2.store.queue.drop s.pool.channel.buffer.length

/-- What a step is to the pool. -/
def turns : Server.Event n → Server n → List (PoolTurn n)
  | .incoming x, s => (S.sent x s).map .enqueue
  | .sweep _, _ | .sweep_executions _ _, _ => []
  | .worker i client_built reads now joined, s =>
      [.worker i ⟨client_built, if reads then some s.store.toWorld else none, now, joined⟩]
  | .task i k answer, _ => [.task i k answer]
  | .drop_senders, _ => [.drop_senders]
  | .returned, _ => [.returned]

/-- The deliveries of a step. -/
def effects (e : Server.Event n) (s : Server n) : List DispatchEffect :=
  (outputs (DispatchPool.step S.dispatcher) (S.turns e s) s.pool).flatten

/-- One step of a run. -/
def step (e : Server.Event n) (s : Server n) : List DispatchEffect × Server n :=
  (S.effects e s, {
    store :=
      match e with
      | .incoming x => (S.frontend.step (.incoming x) (daemon s)).2.store
      | .sweep now => (S.frontend.step (.sweep now) (daemon s)).2.store
      | .sweep_executions now is_success =>
          purge_expired_webhook_executions now is_success (S.retention_hours is_success) s.store
      | _ => (S.effects e s).foldl DispatchEffect.record s.store
    gate :=
      match e with
      | .incoming x => (S.frontend.step (.incoming x) (daemon s)).2.gate
      | _ => s.gate
    pool := final (DispatchPool.step S.dispatcher) (S.turns e s) s.pool })

/-- The process as it starts to serve. -/
def start (n capacity : Nat) (v : Vault) (boot : Int) (pinned : Uuid) : Server n :=
  ⟨v, .boot boot ⟨some pinned⟩, .start n capacity⟩

end Site

end IpVault
