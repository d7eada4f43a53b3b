import IpVault.Lib.Channel
import IpVault.Lib.Runs
import IpVault.Webhooks.Reach
import IpVault.Webhooks.Retries
import IpVault.Webhooks.Screening

set_option autoImplicit false

/-! # The dispatch pool (`run_webhook_worker` in `dispatch.rs`)

The events of all requests go through one bounded channel to a fixed number of workers, which take
turns at its receiving end. A worker reads the webhooks of an event, spawns a delivery for each one
that is told of it, reaps those that are done, and pauses. A delivery screens its target and then posts
to it until it is through. Any worker and any delivery may be the next to move, and what the outside
answers (the database, the resolver, the receivers, the clock) comes with the move.

What was picked up by whom, what a worker made of it and which answer let a delivery through is kept in
the books of the pool. The service does not read them.
-/

namespace IpVault

open Lib

/-- `MAX_INFLIGHT`. -/
def MAX_INFLIGHT : Nat := 64

/-- What the pool is started with. -/
structure Dispatcher where
  env : Env
  http : Http
  /-- The pause after an event, in milliseconds. -/
  interval : Nat
  max_retries : Nat
  retry_backoff_ms : Nat

/-! ## Deliveries -/

/-- How far a spawned delivery is. -/
inductive TaskStage where
  | screening
  | delivering (attempt : Nat)
  | finished
  | panicked
  deriving DecidableEq

/-- A spawned delivery. -/
structure Task where
  ctx : DispatchContext
  prepared : PreparedDispatch
  stage : TaskStage

/-- What the outside answers a delivery: the resolver, the switch for private targets, and the
receiver. -/
structure TaskAnswer where
  lookup_host : String → Option (List IpAddr)
  allow_private : Bool
  delivery : Delivery

/-- `join_next` would return it. -/
def Task.done (t : Task) : Bool :=
  match t.stage with
  | .finished | .panicked => true
  | .screening | .delivering _ => false

/-- One move of a delivery: the screen, or one attempt with the pause after it. -/
def Task.move (D : Dispatcher) (answer : TaskAnswer) (t : Task) : List DispatchEffect × Task :=
  match t.stage with
  | .screening =>
      if is_url_safe D.env answer.lookup_host t.prepared.target_url answer.allow_private then
        ([], { t with stage := .delivering 1 })
      else ([], { t with stage := .finished })
  | .delivering attempt =>
      match dispatch_attempt t.prepared t.ctx D.max_retries D.retry_backoff_ms attempt
        answer.delivery with
      | none => ([.post t.prepared.target_url t.prepared.headers t.prepared.payload],
          { t with stage := .panicked })
      | some (effects, none) => (effects, { t with stage := .finished })
      | some (effects, some next) => (effects, { t with stage := .delivering next })
  | .finished | .panicked => ([], t)

/-! ## Workers -/

/-- The webhooks a worker asks for. -/
def World.watching (w : World) (gid : Uuid) : List WebhookConfig :=
  w.webhooks.rows.filter fun h => h.group_id = gid ∧ h.is_active = true

theorem World.mem_watching {w : World} {gid : Uuid} {config : WebhookConfig}
    (h : config ∈ w.watching gid) :
    config ∈ w.webhooks ∧ config.is_active = true ∧ config.group_id = gid := by
  obtain ⟨hmem, hrow⟩ := List.mem_filter.mp h
  obtain ⟨hgroup, hactive⟩ := of_decide_eq_true hrow
  exact ⟨hmem, hactive, hgroup⟩

/-- Where a worker is in its loop. -/
inductive WorkerStage where
  /-- The HTTP client is not built yet. -/
  | starting
  | locking
  | receiving
  | fetching (event : WebhookEvent) (gid : Uuid)
  /-- In the loop over the webhooks: those looked at, with the time, and those to come. -/
  | dispatching (event : WebhookEvent) (store : World) (looked : List (WebhookConfig × Int))
      (todo : List WebhookConfig)
  | reaping
  | sleeping
  | draining
  | stopped

/-- What a worker made of an event: the store it read the webhooks from, if it did, and each of them
with the time it was looked at. -/
structure Handled where
  event : WebhookEvent
  store : Option World
  looked : List (WebhookConfig × Int)

/-- A delivery as it is spawned. -/
structure Spawned where
  event : WebhookEvent
  config : WebhookConfig
  prepared : PreparedDispatch

/-- A worker, with its books: the events it is through with, and the deliveries it spawned. `client`
says whether it has the HTTP client it needs. -/
structure Worker where
  stage : WorkerStage
  client : Bool
  join_set : List Task
  handled : List Handled
  spawned : List Spawned

/-- What the outside answers a worker. `joined` is the place of the task `join_next` returns. -/
structure WorkerAnswer where
  client_built : Bool
  store : Option World
  now : Int
  joined : Nat

/-- `DispatchContext`, as `dispatch_worker` fills it. -/
def dispatch_context (config : WebhookConfig) (event : WebhookEvent) : DispatchContext where
  webhook_id := config.id
  webhook_name := config.name
  event_type := event.action
  target_address := event.address
  cause := event.cause

namespace Worker

/-- A worker that has just been spawned. -/
def new : Worker := ⟨.starting, false, [], [], []⟩

/-- On to the next stage. -/
def goto (w : Worker) (stage : WorkerStage) : Worker := { w with stage }

@[simp] theorem goto_stage (w : Worker) (stage : WorkerStage) : (w.goto stage).stage = stage := rfl

@[simp] theorem goto_join_set (w : Worker) (stage : WorkerStage) :
    (w.goto stage).join_set = w.join_set := rfl

@[simp] theorem goto_handled (w : Worker) (stage : WorkerStage) :
    (w.goto stage).handled = w.handled := rfl

@[simp] theorem goto_client (w : Worker) (stage : WorkerStage) :
    (w.goto stage).client = w.client := rfl

/-- Through with an event. -/
def close (w : Worker) (h : Handled) (stage : WorkerStage) : Worker :=
  { w with stage, handled := w.handled ++ [h] }

/-- An event that was received. One without a group is no one's. -/
def pick (w : Worker) (event : WebhookEvent) : Worker :=
  match event.group_id with
  | none => w.close ⟨event, none, []⟩ .locking
  | some gid => w.goto (.fetching event gid)

/-- `join_next`: the task at this place is done and leaves the set. -/
def join_next (w : Worker) (joined : Nat) : Option (Task × Worker) :=
  match w.join_set[joined]? with
  | none => none
  | some t => if t.done then some (t, { w with join_set := w.join_set.eraseIdx joined }) else none

/-- `join_set.spawn`. -/
def spawn (w : Worker) (event : WebhookEvent) (config : WebhookConfig) (prepared : PreparedDispatch) :
    Worker :=
  { w with
    join_set := w.join_set ++ [⟨dispatch_context config event, prepared, .screening⟩]
    spawned := w.spawned ++ [⟨event, config, prepared⟩] }

/-- The body of the loop over the webhooks, for one of them. `none` is a worker that waits. -/
def look (D : Dispatcher) (answer : WorkerAnswer) (w : Worker) (event : WebhookEvent) (store : World)
    (looked : List (WebhookConfig × Int)) (config : WebhookConfig) (todo : List WebhookConfig) :
    Option Worker :=
  let onward := WorkerStage.dispatching event store (looked ++ [(config, answer.now)]) todo
  if config.subscribed event.action then
    if MAX_INFLIGHT ≤ w.join_set.length then (w.join_next answer.joined).map Prod.snd
    else
      match prepare_dispatch D.env D.http config event answer.now with
      | .error _ => some (w.goto onward)
      | .ok prepared => some ((w.spawn event config prepared).goto onward)
  else some (w.goto onward)

/-- The stage after the reaping: the pause, if there is one. -/
def rest (D : Dispatcher) : WorkerStage := if D.interval = 0 then .locking else .sleeping

/-- `dispatch_worker`, one move away from the channel. `none` is a worker that waits. -/
def turn (D : Dispatcher) (answer : WorkerAnswer) (w : Worker) : Option Worker :=
  match w.stage with
  | .starting =>
      some { w with
        stage := if answer.client_built then .locking else .stopped
        client := answer.client_built }
  | .fetching event gid =>
      match answer.store with
      | none => some (w.close ⟨event, none, []⟩ .locking)
      | some store => some (w.goto (.dispatching event store [] (store.watching gid)))
  | .dispatching event store looked [] => some (w.close ⟨event, some store, looked⟩ .reaping)
  | .dispatching event store looked (config :: todo) => w.look D answer event store looked config todo
  | .reaping =>
      -- `while let Some(Ok(_))`: a task that panicked ends the reaping.
      if w.join_set.any Task.done then
        (w.join_next answer.joined).map fun r =>
          if r.1.stage = .panicked then r.2.goto (rest D) else r.2
      else some (w.goto (rest D))
  | .sleeping => some (w.goto .locking)
  | .draining =>
      if w.join_set = [] then some (w.goto .stopped) else (w.join_next answer.joined).map Prod.snd
  | .locking | .receiving | .stopped => none

/-- One of its deliveries moves. -/
def task_turn (D : Dispatcher) (k : Nat) (answer : TaskAnswer) (w : Worker) :
    List DispatchEffect × Worker :=
  match w.join_set[k]? with
  | none => ([], w)
  | some t => ((t.move D answer).1, { w with join_set := w.join_set.set k (t.move D answer).2 })

end Worker

/-! ## The pool -/

/-- The pool: the channel, which worker holds its receiving end, the workers, and who picked up
what. -/
structure DispatchPool (n : Nat) where
  channel : Channel WebhookEvent
  lock : Option (Fin n)
  workers : Fin n → Worker
  picked : List (Fin n × WebhookEvent)

/-- A move. -/
inductive PoolTurn (n : Nat) where
  /-- `AppState::enqueue_webhook`. -/
  | enqueue (event : WebhookEvent)
  /-- The service goes down, and the last sender with it. -/
  | drop_senders
  | worker (i : Fin n) (answer : WorkerAnswer)
  | task (i : Fin n) (k : Nat) (answer : TaskAnswer)
  /-- All workers are joined, and the receiving end is gone. -/
  | returned

namespace DispatchPool

variable {n : Nat}

/-- The pool as `setup_state` spawns it. -/
def start (n capacity : Nat) : DispatchPool n := ⟨.new capacity, none, fun _ => .new, []⟩

/-- Replace a worker. -/
def set (P : DispatchPool n) (i : Fin n) (w : Worker) : DispatchPool n :=
  { P with workers := Function.update P.workers i w }

/-- A move of a worker. At the channel it needs the lock, which it gives back with what it got. -/
def worker_turn (D : Dispatcher) (P : DispatchPool n) (i : Fin n) (answer : WorkerAnswer) :
    Option (DispatchPool n) :=
  let w := P.workers i
  match w.stage with
  | .locking => if P.lock = none then some { P.set i (w.goto .receiving) with lock := some i } else none
  | .receiving =>
      match P.channel.recv with
      | .message event rest =>
          some { P.set i (w.pick event) with
            channel := rest
            lock := none
            picked := P.picked ++ [(i, event)] }
      | .closed => some { P.set i (w.goto .draining) with lock := none }
      | .pending => none
  | _ => (w.turn D answer).map (P.set i)

/-- One move, with what it does to the world outside. One that has to wait changes nothing. -/
def step (D : Dispatcher) : PoolTurn n → DispatchPool n → List DispatchEffect × DispatchPool n
  | .enqueue event, P => ([], { P with channel := P.channel.try_send event })
  | .drop_senders, P => ([], { P with channel := P.channel.drop_senders })
  | .worker i answer, P => ([], (P.worker_turn D i answer).getD P)
  | .task i k answer, P =>
      (((P.workers i).task_turn D k answer).1, P.set i ((P.workers i).task_turn D k answer).2)
  | .returned, P =>
      -- The last clone of the receiver goes with the last worker.
      ([], if ∀ i, (P.workers i).stage matches .stopped then
        { P with channel := P.channel.drop_receiver } else P)

end DispatchPool

end IpVault
