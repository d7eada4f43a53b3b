import IpVault.Lib.Progress
import IpVault.Webhooks.PoolRuns

set_option autoImplicit false

/-! # The dispatch pool comes to rest

Left without new events, the pool works off what it has, whatever the order of its moves: each of them
takes it down a measure in which an event that waits weighs more than any number of webhooks, and a
webhook that is to be looked at more than the delivery it may lead to. When nothing can move any more,
the pool is done: it waits for the next event, or, once the senders are gone, it has stopped.
-/

namespace IpVault

open Lib

/-! ## What is left to do -/

/-- The moves a delivery has left, at most. -/
def Task.left (D : Dispatcher) (t : Task) : Nat :=
  match t.stage with
  | .screening => D.max_retries + 3
  | .delivering attempt => D.max_retries + 2 - attempt + 1
  | .finished | .panicked => 0

/-- The moves a stage has left until the worker is back at the channel, at most. -/
def WorkerStage.left (D : Dispatcher) : WorkerStage → Nat
  | .starting => 4
  | .locking => 3
  | .receiving => 2
  | .fetching _ _ => 0
  | .dispatching _ _ _ todo => 6 + todo.length * (D.max_retries + 6)
  | .reaping => 5
  | .sleeping => 4
  | .draining => 1
  | .stopped => 0

/-- A worker about to read its webhooks: how many there are is not known. -/
def WorkerStage.fetches : WorkerStage → Nat
  | .fetching _ _ => 1
  | _ => 0

/-- A delivery that moves is nearer to its end. -/
theorem Task.left_move {D : Dispatcher} {t : Task} (h : t.done = false) (answer : TaskAnswer) :
    (t.move D answer).2.left D < t.left D := by
  obtain ⟨ctx, prepared, stage⟩ := t
  cases stage with
  | screening =>
      show ((Task.mk ctx prepared .screening).move D answer).2.left D < D.max_retries + 3
      unfold Task.move
      dsimp only
      split
      · show D.max_retries + 2 - 1 + 1 < D.max_retries + 3
        omega
      · show 0 < D.max_retries + 3
        omega
  | delivering attempt =>
      show ((Task.mk ctx prepared (.delivering attempt)).move D answer).2.left D <
        D.max_retries + 2 - attempt + 1
      unfold Task.move
      dsimp only
      split
      · exact Nat.succ_pos _
      · exact Nat.succ_pos _
      · rename_i effects next hattempt
        obtain ⟨rfl, hretry⟩ := dispatch_attempt_next prepared ctx D.retry_backoff_ms hattempt
        show D.max_retries + 2 - (attempt + 1) + 1 < D.max_retries + 2 - attempt + 1
        omega
  | finished => cases h
  | panicked => cases h

namespace Worker

/-- The moves its deliveries have left, and their way out of the set. -/
def tasks_left (D : Dispatcher) (w : Worker) : Nat := (w.join_set.map fun t => t.left D + 1).sum

def left (D : Dispatcher) (w : Worker) : Nat := w.stage.left D + w.tasks_left D

variable {D : Dispatcher} {w w' : Worker}

/-- The set with one of its tasks singled out. -/
theorem tasks_left_split {k : Nat} {t : Task} (h : w.join_set[k]? = some t) :
    w.tasks_left D = t.left D + 1 + ((w.join_set.eraseIdx k).map fun t => t.left D + 1).sum := by
  obtain ⟨hk, rfl⟩ := List.getElem?_eq_some_iff.mp h
  have hperm := (List.getElem_cons_eraseIdx_perm hk).map fun t => t.left D + 1
  unfold tasks_left
  rw [← hperm.sum_eq]
  simp

/-- A task that leaves the set is one less. -/
theorem tasks_left_joined {k : Nat} {t : Task} (h : w.join_next k = some (t, w')) :
    w'.tasks_left D < w.tasks_left D := by
  unfold join_next at h
  split at h
  · cases h
  · rename_i t' ht
    split at h
    · obtain ⟨-, rfl⟩ := Prod.mk.inj (Option.some.inj h)
      have hsplit := tasks_left_split (D := D) ht
      show ((w.join_set.eraseIdx k).map fun t => t.left D + 1).sum < w.tasks_left D
      omega
    · cases h

/-- One of its deliveries moves. -/
theorem left_task_turn {k : Nat} {t : Task} (ht : w.join_set[k]? = some t) (hdone : t.done = false)
    (answer : TaskAnswer) : (w.task_turn D k answer).2.left D < w.left D := by
  have hmove := t.left_move (D := D) hdone answer
  have hsplit := tasks_left_split (D := D) ht
  obtain ⟨hk, -⟩ := List.getElem?_eq_some_iff.mp ht
  have hperm := (List.set_perm_cons_eraseIdx hk (t.move D answer).2).map fun t => t.left D + 1
  unfold Worker.task_turn
  rw [ht]
  show w.stage.left D + ((w.join_set.set k (t.move D answer).2).map fun t => t.left D + 1).sum <
    w.stage.left D + w.tasks_left D
  rw [hperm.sum_eq, List.map_cons, List.sum_cons]
  omega

/-- A move of a worker away from the channel: it reads its webhooks, or has less left to do. -/
theorem left_turn {answer : WorkerAnswer} (ht : w.turn D answer = some w') :
    (w.stage.fetches = 1 ∧ w'.stage.fetches = 0) ∨
      (w'.stage.fetches = w.stage.fetches ∧ w'.left D < w.left D) := by
  -- A change of stage, with the same deliveries.
  have hgoto : ∀ stage : WorkerStage, stage.fetches = w.stage.fetches →
      stage.left D < w.stage.left D → ∀ v : Worker, v.stage = stage → v.join_set = w.join_set →
        v.stage.fetches = w.stage.fetches ∧ v.left D < w.left D := by
    intro stage hfetches hless v hv hset
    refine ⟨hv ▸ hfetches, ?_⟩
    have htasks : v.tasks_left D = w.tasks_left D := by
      unfold tasks_left
      rw [hset]
    show v.stage.left D + v.tasks_left D < w.stage.left D + w.tasks_left D
    rw [hv, htasks]
    omega
  -- A delivery that leaves the set, in the same stage.
  have hjoined : ∀ (k : Nat) (t : Task) (v : Worker), w.join_next k = some (t, v) →
      v.stage.fetches = w.stage.fetches ∧ v.left D < w.left D := by
    intro k t v hjoin
    have hless := tasks_left_joined (D := D) hjoin
    obtain ⟨-, -, rfl⟩ := join_next_eq_some hjoin
    refine ⟨rfl, ?_⟩
    show w.stage.left D + _ < w.stage.left D + w.tasks_left D
    exact Nat.add_lt_add_left hless _
  have hrest : (rest D).fetches = 0 ∧ (rest D).left D ≤ 4 := by
    unfold rest
    split <;> simp [WorkerStage.fetches, WorkerStage.left]
  unfold Worker.turn at ht
  obtain ⟨stage, hw⟩ : ∃ stage, w.stage = stage := ⟨_, rfl⟩
  cases stage with
  | starting =>
      simp only [hw, Option.some.injEq] at ht
      subst ht
      cases answer.client_built with
      | true => exact .inr (hgoto .locking (by rw [hw]; rfl) (by simp [hw, WorkerStage.left]) _ rfl rfl)
      | false => exact .inr (hgoto .stopped (by rw [hw]; rfl) (by simp [hw, WorkerStage.left]) _ rfl rfl)
  | locking => simp [hw] at ht
  | receiving => simp [hw] at ht
  | fetching event gid =>
      refine .inl ⟨by rw [hw]; rfl, ?_⟩
      cases hstore : answer.store with
      | none =>
          simp only [hw, hstore, Option.some.injEq] at ht
          exact ht ▸ rfl
      | some store =>
          simp only [hw, hstore, Option.some.injEq] at ht
          exact ht ▸ rfl
  | dispatching event store looked todo =>
      cases todo with
      | nil =>
          simp only [hw, Option.some.injEq] at ht
          subst ht
          exact .inr (hgoto .reaping (by rw [hw]; rfl) (by simp [hw, WorkerStage.left]) _ rfl rfl)
      | cons config todo =>
          simp only [hw] at ht
          have honward : ∀ looked', (WorkerStage.dispatching event store looked' todo).left D +
              (D.max_retries + 6) = w.stage.left D := by
            intro looked'
            rw [hw]
            simp only [WorkerStage.left, List.length_cons, Nat.add_mul]
            omega
          have hfewer : (WorkerStage.dispatching event store (looked ++ [(config, answer.now)])
              todo).left D < w.stage.left D := by
            have := honward (looked ++ [(config, answer.now)])
            omega
          have hskip := hgoto _ (by rw [hw]; rfl) hfewer (w.goto _) rfl rfl
          unfold Worker.look at ht
          split at ht
          · split at ht
            · obtain ⟨⟨t, v⟩, hjoin, rfl⟩ := Option.map_eq_some_iff.mp ht
              exact .inr (hjoined _ _ _ hjoin)
            · split at ht
              · obtain rfl := Option.some.inj ht
                exact .inr hskip
              · rename_i prepared hprepared
                obtain rfl := Option.some.inj ht
                refine .inr ⟨by rw [hw]; rfl, ?_⟩
                have := honward (looked ++ [(config, answer.now)])
                show (WorkerStage.dispatching event store _ todo).left D +
                  ((w.join_set ++ [_]).map fun t : Task => t.left D + 1).sum <
                    w.stage.left D + w.tasks_left D
                rw [List.map_append, List.sum_append]
                show _ + (w.tasks_left D + (D.max_retries + 3 + 1 + 0)) < _
                omega
          · obtain rfl := Option.some.inj ht
            exact .inr hskip
  | reaping =>
      simp only [hw] at ht
      split at ht
      · obtain ⟨⟨t, v⟩, hjoin, hv⟩ := Option.map_eq_some_iff.mp ht
        have hless := hjoined _ _ _ hjoin
        obtain ⟨-, -, hv'⟩ := join_next_eq_some hjoin
        have hstage : v.stage = .reaping := by rw [hv', hw]
        simp only at hv
        split at hv
        · subst hv
          refine .inr ⟨by rw [hw]; exact hrest.1, Nat.lt_of_le_of_lt ?_ hless.2⟩
          show (rest D).left D + v.tasks_left D ≤ v.stage.left D + v.tasks_left D
          rw [hstage]
          show (rest D).left D + v.tasks_left D ≤ 5 + v.tasks_left D
          omega
        · exact .inr (hv ▸ hless)
      · obtain rfl := Option.some.inj ht
        refine .inr (hgoto (rest D) (by rw [hw]; exact hrest.1) ?_ _ rfl rfl)
        rw [hw]
        exact Nat.lt_succ_of_le hrest.2
  | sleeping =>
      simp only [hw, Option.some.injEq] at ht
      subst ht
      exact .inr (hgoto .locking (by rw [hw]; rfl) (by simp [hw, WorkerStage.left]) _ rfl rfl)
  | draining =>
      simp only [hw] at ht
      split at ht
      · obtain rfl := Option.some.inj ht
        exact .inr (hgoto .stopped (by rw [hw]; rfl) (by simp [hw, WorkerStage.left]) _ rfl rfl)
      · obtain ⟨⟨t, v⟩, hjoin, rfl⟩ := Option.map_eq_some_iff.mp ht
        exact .inr (hjoined _ _ _ hjoin)
  | stopped => simp [hw] at ht

end Worker

/-! ## The measure of the pool -/

namespace DispatchPool

variable {n : Nat} {D : Dispatcher} {P P' : DispatchPool n}

/-- The move changes something. Events that come from outside are not counted. -/
def Moves (D : Dispatcher) (t : PoolTurn n) (P : DispatchPool n) : Prop :=
  match t with
  | .worker i answer => (P.worker_turn D i answer).isSome = true
  | .task i k _ => ∃ t, (P.workers i).join_set[k]? = some t ∧ t.done = false
  | .returned => (∀ i, (P.workers i).stage = .stopped) ∧ P.channel.receiver = true
  | .enqueue _ | .drop_senders => False

/-- What the pool has left: the events that wait, the workers about to read their webhooks, and the
moves of everybody else. -/
def left (D : Dispatcher) (P : DispatchPool n) : Nat × Nat × Nat :=
  (P.channel.buffer.length, ∑ i, (P.workers i).stage.fetches,
    (∑ i, (P.workers i).left D) + if P.channel.receiver then 1 else 0)

/-- Less is left: compared from the first number on. -/
def Less : Nat × Nat × Nat → Nat × Nat × Nat → Prop :=
  Prod.Lex (· < ·) (Prod.Lex (· < ·) (· < ·))

theorem less_wf : WellFounded Less :=
  WellFounded.prod_lex Nat.lt_wfRel.wf (WellFounded.prod_lex Nat.lt_wfRel.wf Nat.lt_wfRel.wf)

/-- One worker has less left, and the others have what they had. -/
theorem sum_set_lt {i : Fin n} {w : Worker} (f : Worker → Nat) (h : f w < f (P.workers i)) :
    ∑ j, f ((P.set i w).workers j) < ∑ j, f (P.workers j) := by
  refine Finset.sum_lt_sum (fun j _ => ?_) ⟨i, Finset.mem_univ i, by simpa using h⟩
  by_cases hj : j = i
  · subst hj
    simpa using h.le
  · rw [set_workers_ne P hj]

theorem sum_set_eq {i : Fin n} {w : Worker} (f : Worker → Nat) (h : f w = f (P.workers i)) :
    ∑ j, f ((P.set i w).workers j) = ∑ j, f (P.workers j) := by
  refine Finset.sum_congr rfl fun j _ => ?_
  by_cases hj : j = i
  · subst hj
    simpa using h
  · rw [set_workers_ne P hj]

/-- The same events wait, and a worker has less left. -/
theorem less_of_left {Q : DispatchPool n} {i : Fin n} {w : Worker}
    (hbuffer : Q.channel.buffer = P.channel.buffer)
    (hreceiver : Q.channel.receiver = P.channel.receiver) (hworkers : Q.workers = (P.set i w).workers)
    (hfetches : w.stage.fetches = (P.workers i).stage.fetches)
    (hless : w.left D < (P.workers i).left D) : Less (Q.left D) (P.left D) := by
  unfold left
  rw [hbuffer, hreceiver, hworkers, sum_set_eq (fun w => w.stage.fetches) hfetches]
  have hsum := sum_set_lt (P := P) (fun w => w.left D) hless
  exact Prod.Lex.right _ (Prod.Lex.right _ (by omega))

/-- **Every move leaves less.** -/
theorem less_of_moves {t : PoolTurn n} (h : Moves D t P) :
    Less ((step D t P).2.left D) (P.left D) := by
  cases t with
  | enqueue event => exact h.elim
  | drop_senders => exact h.elim
  | worker i answer =>
      obtain ⟨P', hP'⟩ := Option.isSome_iff_exists.mp h
      have hstep : (step D (.worker i answer) P).2 = P' := by
        show (P.worker_turn D i answer).getD P = P'
        rw [hP']
        rfl
      rw [hstep]
      rcases worker_turn_cases hP' with ⟨hstage, -, rfl⟩ | ⟨event, rest, -, hrecv, rfl⟩ |
        ⟨hstage, -, rfl⟩ | ⟨-, -, w, hw, rfl⟩
      · refine less_of_left rfl rfl rfl (by rw [hstage]; rfl) ?_
        show 2 + (P.workers i).tasks_left D < (P.workers i).stage.left D + _
        rw [hstage]
        exact Nat.add_lt_add_right (Nat.lt_succ_self 2) _
      · refine Prod.Lex.left _ _ ?_
        show rest.buffer.length < P.channel.buffer.length
        rw [(Channel.recv_message hrecv).1]
        exact Nat.lt_succ_self _
      · refine less_of_left rfl rfl rfl (by rw [hstage]; rfl) ?_
        show 1 + (P.workers i).tasks_left D < (P.workers i).stage.left D + _
        rw [hstage]
        exact Nat.add_lt_add_right (Nat.lt_succ_self 1) _
      · rcases Worker.left_turn hw with ⟨hfetching, hfetched⟩ | ⟨hfetches, hless⟩
        · refine Prod.Lex.right _ (Prod.Lex.left _ _ ?_)
          exact sum_set_lt (fun w => w.stage.fetches) (by omega)
        · exact less_of_left rfl rfl rfl hfetches hless
  | task i k answer =>
      obtain ⟨t, ht, hdone⟩ := h
      have hstage : ((P.workers i).task_turn D k answer).2.stage = (P.workers i).stage := by
        unfold Worker.task_turn
        rw [ht]
      exact less_of_left rfl rfl rfl (by rw [hstage]) (Worker.left_task_turn ht hdone answer)
  | returned =>
      obtain ⟨hstopped, hreceiver⟩ := h
      have hstep : (step D .returned P).2 = { P with channel := P.channel.drop_receiver } :=
        if_pos fun i => by rw [hstopped i]
      rw [hstep]
      refine Prod.Lex.right _ (Prod.Lex.right _ ?_)
      show (∑ i, (P.workers i).left D) + 0 < _ + if P.channel.receiver then 1 else 0
      rw [hreceiver]
      exact Nat.lt_succ_self _

/-! ## When nothing moves -/

/-- Nothing can move: what is left to do waits for someone outside. -/
def AtRest (D : Dispatcher) (P : DispatchPool n) : Prop := ∀ t, ¬ Moves D t P

/-- All deliveries of a pool at rest are done. -/
theorem AtRest.done (h : AtRest D P) (i : Fin n) {t : Task} (ht : t ∈ (P.workers i).join_set) :
    t.done = true := by
  obtain ⟨k, hk⟩ := List.mem_iff_getElem?.mp ht
  by_contra hdone
  exact h (.task i k ⟨fun _ => none, false, ⟨.Success 200, none, 0, 0, 0⟩⟩)
    ⟨t, hk, Bool.eq_false_iff.mpr hdone⟩

/-- A worker of a pool at rest has no move, whatever it is answered. -/
theorem AtRest.stuck (h : AtRest D P) (i : Fin n) (answer : WorkerAnswer) :
    P.worker_turn D i answer = none :=
  Option.not_isSome_iff_eq_none.mp (h (.worker i answer))

/-- The next delivery to leave a set in which all are done. -/
theorem AtRest.join_next (h : AtRest D P) (i : Fin n) (hset : (P.workers i).join_set ≠ []) :
    ∃ r, (P.workers i).join_next 0 = some r := by
  obtain ⟨t, rest, hcons⟩ := List.exists_cons_of_ne_nil hset
  have hdone : t.done = true := h.done i (hcons ▸ List.mem_cons_self)
  unfold Worker.join_next
  rw [hcons]
  exact ⟨_, if_pos hdone⟩

/-- **A worker of a pool at rest** waits for the lock, waits for an event, or has stopped. -/
theorem AtRest.stage (h : AtRest D P) (i : Fin n) :
    ((P.workers i).stage = .locking ∧ P.lock ≠ none) ∨
      ((P.workers i).stage = .receiving ∧ P.channel.buffer = [] ∧ P.channel.senders = true) ∨
      (P.workers i).stage = .stopped := by
  have hstuck := h.stuck i ⟨true, none, 0, 0⟩
  unfold worker_turn at hstuck
  obtain ⟨stage, hw⟩ : ∃ stage, (P.workers i).stage = stage := ⟨_, rfl⟩
  cases stage with
  | locking =>
      simp only [hw] at hstuck
      by_cases hfree : P.lock = none
      · simp [hfree] at hstuck
      · exact .inl ⟨hw, hfree⟩
  | receiving =>
      simp only [hw] at hstuck
      cases hrecv : P.channel.recv with
      | message event rest => simp [hrecv] at hstuck
      | closed => simp [hrecv] at hstuck
      | pending =>
          exact .inr (.inl ⟨hw, Channel.recv_pending.mp hrecv⟩)
  | stopped => exact .inr (.inr hw)
  | starting => simp [hw, Worker.turn] at hstuck
  | fetching event gid => simp [hw, Worker.turn] at hstuck
  | sleeping => simp [hw, Worker.turn] at hstuck
  | dispatching event store looked todo =>
      cases todo with
      | nil => simp [hw, Worker.turn] at hstuck
      | cons config todo =>
          -- A full set has a delivery that is done, and makes room.
          simp only [hw, Worker.turn, Option.map_eq_none_iff, Worker.look] at hstuck
          split at hstuck
          · split at hstuck
            · rename_i hfull
              have hset : (P.workers i).join_set ≠ [] := by
                intro hnil
                rw [hnil] at hfull
                exact absurd hfull (by decide)
              obtain ⟨r, hr⟩ := h.join_next i hset
              simp [hr] at hstuck
            · split at hstuck <;> cases hstuck
          · cases hstuck
  | reaping =>
      simp only [hw, Worker.turn, Option.map_eq_none_iff] at hstuck
      split at hstuck
      · rename_i hany
        have hset : (P.workers i).join_set ≠ [] := by
          intro hnil
          simp [hnil] at hany
        obtain ⟨r, hr⟩ := h.join_next i hset
        simp [hr] at hstuck
      · cases hstuck
  | draining =>
      simp only [hw, Worker.turn, Option.map_eq_none_iff] at hstuck
      split at hstuck
      · cases hstuck
      · rename_i hset
        obtain ⟨r, hr⟩ := h.join_next i hset
        simp [hr] at hstuck

/-- The pool waits for the next event, and has nothing else to do. -/
structure Waiting (P : DispatchPool n) : Prop where
  idle : P.channel.buffer = [] ∧ P.channel.senders = true
  workers : ∀ i, (P.workers i).stage = .locking ∨ (P.workers i).stage = .receiving ∨
    (P.workers i).stage = .stopped
  done : ∀ i, ∀ t ∈ (P.workers i).join_set, t.done = true

/-- The pool has shut down. -/
structure Down (P : DispatchPool n) : Prop where
  workers : ∀ i, (P.workers i).stage = .stopped ∧ (P.workers i).join_set = []
  receiver : P.channel.receiver = false

/-- **A pool at rest** waits for an event or is down. -/
theorem AtRest.waiting_or_down (h : AtRest D P) (hok : P.Ok D) : P.Waiting ∨ P.Down := by
  by_cases hstopped : ∀ i, (P.workers i).stage = .stopped
  · refine .inr ⟨fun i => ⟨hstopped i, ?_⟩, ?_⟩
    · have hstage := (hok.workers i).stage
      unfold Worker.StageOk at hstage
      rwa [hstopped i] at hstage
    · exact Bool.eq_false_iff.mpr fun hreceiver => h .returned ⟨hstopped, hreceiver⟩
  · obtain ⟨i, hi⟩ := not_forall.mp hstopped
    -- Whoever waits for the lock waits for one that is at the channel.
    have hidle : P.channel.buffer = [] ∧ P.channel.senders = true := by
      rcases h.stage i with ⟨-, hheld⟩ | ⟨-, hidle⟩ | hdown
      · obtain ⟨j, hj⟩ := Option.ne_none_iff_exists'.mp hheld
        rcases h.stage j with ⟨hlocking, -⟩ | ⟨-, hidle⟩ | hdown
        · rw [(hok.holder j).mp hj] at hlocking
          cases hlocking
        · exact hidle
        · rw [(hok.holder j).mp hj] at hdown
          cases hdown
      · exact hidle
      · exact absurd hdown hi
    refine .inl ⟨hidle, fun j => ?_, fun j t => h.done j⟩
    rcases h.stage j with ⟨hlocking, -⟩ | ⟨hreceiving, -⟩ | hdown
    · exact .inl hlocking
    · exact .inr (.inl hreceiving)
    · exact .inr (.inr hdown)

end DispatchPool

/-- **The pool comes to rest.** From whatever state a run has brought it to, no schedule keeps it moving
without new events; and when nothing can move any more, it waits for the next event with nothing left to
do, or it is down. Once the senders are gone, only the latter is left. -/
theorem pool_comes_to_rest {n : Nat} (D : Dispatcher) (capacity : Nat) (run : List (PoolTurn n)) :
    let P := final (DispatchPool.step D) run (.start n capacity)
    (∀ schedule : Stream' (PoolTurn n),
      ∃ k, ¬ DispatchPool.Moves D (schedule.get k) (final (DispatchPool.step D) (schedule.take k) P)) ∧
    ((∀ t : PoolTurn n, ¬ DispatchPool.Moves D t P) →
      (P.Waiting ∨ P.Down) ∧ (P.channel.senders = false → P.Down)) := by
  intro P
  have hP : P.Ok D := DispatchPool.ok_run D capacity run
  refine ⟨fun schedule => ?_, fun hrest => ?_⟩
  · have hless : ∀ (t : PoolTurn n) (Q : DispatchPool n), True → DispatchPool.Moves D t Q →
        DispatchPool.Less ((DispatchPool.step D t Q).2.left D) (Q.left D) :=
      fun t Q _ hmove => DispatchPool.less_of_moves hmove
    exact stops DispatchPool.less_wf (DispatchPool.left D) (fun _ _ _ _ => trivial) hless P trivial
      schedule
  · have hends := DispatchPool.AtRest.waiting_or_down hrest hP
    refine ⟨hends, fun hgone => hends.resolve_left fun hwaiting => ?_⟩
    rw [hwaiting.idle.2] at hgone
    cases hgone

end IpVault
