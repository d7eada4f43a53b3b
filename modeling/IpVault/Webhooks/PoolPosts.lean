import IpVault.Webhooks.PoolRuns

set_option autoImplicit false

/-! # What the dispatch pool sends

Every request the pool makes can be traced back: to an event that was sent to it, to a webhook that was
active and told of it in a store that was read, to `prepare_dispatch`, and to an answer of the resolver
that passed the screen. `Sourced` is what a run has to show for a worker, and each move keeps it.
-/

namespace IpVault

open Lib

variable {n : Nat} (D : Dispatcher) (run : List (PoolTurn n))

/-- The request is the one an enqueued event calls for: that of an active webhook of its group, told of
it, in a store a worker read. -/
def CalledFor (prepared : PreparedDispatch) : Prop :=
  ∃ event ∈ DispatchPool.enqueued run, ∃ (i : Fin n) (answer : WorkerAnswer) (store : World)
    (config : WebhookConfig) (now : Int), PoolTurn.worker i answer ∈ run ∧ answer.store = some store ∧
      config ∈ store.webhooks ∧ config.is_active = true ∧ event.group_id = some config.group_id ∧
      config.subscribed event.action = true ∧
      prepare_dispatch D.env D.http config event now = .ok prepared

/-- The target passed the screen, with an answer that came in the run. -/
def Screened (target_url : String) : Prop :=
  ∃ (i : Fin n) (k : Nat) (answer : TaskAnswer), PoolTurn.task i k answer ∈ run ∧
    is_url_safe D.env answer.lookup_host target_url answer.allow_private = true

/-- What a worker has in hand comes from the run. -/
def InHand (stage : WorkerStage) : Prop :=
  match stage with
  | .fetching event gid => event ∈ DispatchPool.enqueued run ∧ event.group_id = some gid
  | .dispatching event store _ todo => event ∈ DispatchPool.enqueued run ∧
      (∃ (i : Fin n) (answer : WorkerAnswer), PoolTurn.worker i answer ∈ run ∧
        answer.store = some store) ∧
      ∀ config ∈ todo, config ∈ store.webhooks ∧ config.is_active = true ∧
        event.group_id = some config.group_id
  | _ => True

/-- What a worker does comes from the run. -/
structure Sourced (w : Worker) : Prop where
  in_hand : InHand run w.stage
  tasks : ∀ t ∈ w.join_set, CalledFor D run t.prepared ∧
    ∀ attempt, t.stage = .delivering attempt → Screened D run t.prepared.target_url

variable {D run}

/-- A delivery that moves is the same delivery. -/
theorem Task.move_prepared (t : Task) (answer : TaskAnswer) :
    (t.move D answer).2.prepared = t.prepared := by
  unfold Task.move
  split
  · split <;> rfl
  · split <;> rfl
  · rfl
  · rfl

/-- It delivers only once it has passed the screen. -/
theorem Task.move_delivering {t : Task} {answer : TaskAnswer} {attempt : Nat}
    (h : (t.move D answer).2.stage = .delivering attempt) :
    (∃ before, t.stage = .delivering before) ∨
      is_url_safe D.env answer.lookup_host t.prepared.target_url answer.allow_private = true := by
  unfold Task.move at h
  cases ht : t.stage with
  | screening =>
      simp only [ht] at h
      split at h
      · rename_i hsafe
        exact .inr hsafe
      · cases h
  | delivering before => exact .inl ⟨before, rfl⟩
  | finished =>
      simp only [ht] at h
      cases h
  | panicked =>
      simp only [ht] at h
      cases h

/-- An attempt posts the request it is given. -/
theorem dispatch_attempt_posts {prepared : PreparedDispatch} {ctx : DispatchContext}
    {max_retries base_backoff_ms attempt : Nat} {d : Delivery} {effects : List DispatchEffect}
    {next : Option Nat} {target_url payload : String} {headers : DispatchHeaders}
    (h : dispatch_attempt prepared ctx max_retries base_backoff_ms attempt d = some (effects, next))
    (hpost : DispatchEffect.post target_url headers payload ∈ effects) :
    prepared = ⟨target_url, headers, payload⟩ := by
  have hfirst : ∃ later : List DispatchEffect,
      effects = .post prepared.target_url prepared.headers prepared.payload :: later ∧
        ∀ e ∈ later, e.posted = none := by
    unfold dispatch_attempt at h
    cases houtcome : d.outcome with
    | Success status =>
        simp only [houtcome, Option.some.injEq, Prod.mk.injEq] at h
        exact ⟨_, h.1.symm, by simp [DispatchEffect.posted]⟩
    | Permanent status reason =>
        simp only [houtcome, Option.some.injEq, Prod.mk.injEq] at h
        exact ⟨_, h.1.symm, by simp [DispatchEffect.posted]⟩
    | Transient status reason =>
        by_cases hretry : attempt ≤ max_retries
        · simp only [houtcome, if_pos hretry, Option.bind_eq_bind, Option.bind_eq_some_iff,
            Option.some.injEq, Prod.mk.injEq] at h
          obtain ⟨_, -, _, -, _, -, heffects, -⟩ := h
          exact ⟨_, heffects.symm, by simp [DispatchEffect.posted]⟩
        · simp only [houtcome, if_neg hretry, Option.some.injEq, Prod.mk.injEq] at h
          exact ⟨_, h.1.symm, by simp [DispatchEffect.posted]⟩
  obtain ⟨later, rfl, hlater⟩ := hfirst
  rcases List.mem_cons.mp hpost with heq | hmem
  · obtain ⟨rfl, rfl, rfl⟩ := DispatchEffect.post.inj heq
    rfl
  · cases hlater _ hmem

/-- What it posts is its request, and only while it delivers. -/
theorem Task.move_posts {t : Task} {answer : TaskAnswer} {target_url payload : String}
    {headers : DispatchHeaders}
    (h : DispatchEffect.post target_url headers payload ∈ (t.move D answer).1) :
    (∃ attempt, t.stage = .delivering attempt) ∧ t.prepared = ⟨target_url, headers, payload⟩ := by
  unfold Task.move at h
  cases ht : t.stage with
  | screening =>
      simp only [ht] at h
      split at h <;> exact absurd h List.not_mem_nil
  | delivering attempt =>
      refine ⟨⟨attempt, rfl⟩, ?_⟩
      simp only [ht] at h
      split at h
      · obtain ⟨rfl, rfl, rfl⟩ := DispatchEffect.post.inj (List.mem_singleton.mp h)
        rfl
      · rename_i hattempt
        exact dispatch_attempt_posts hattempt h
      · rename_i hattempt
        exact dispatch_attempt_posts hattempt h
  | finished =>
      simp only [ht] at h
      exact absurd h List.not_mem_nil
  | panicked =>
      simp only [ht] at h
      exact absurd h List.not_mem_nil

/-! ## One move -/

namespace Sourced

variable {w w' : Worker}

/-- A task leaves the set. -/
theorem joined (h : Sourced D run w) {k : Nat} {t : Task} (hjoin : w.join_next k = some (t, w')) :
    Sourced D run w' := by
  obtain ⟨-, -, rfl⟩ := Worker.join_next_eq_some hjoin
  exact ⟨h.in_hand, fun t ht => h.tasks t (List.mem_of_mem_eraseIdx ht)⟩

/-- The body of the loop over the webhooks. -/
theorem look (h : Sourced D run w) {answer : WorkerAnswer} {event : WebhookEvent}
    {store : World} {looked : List (WebhookConfig × Int)} {config : WebhookConfig}
    {todo : List WebhookConfig} (hw : w.stage = .dispatching event store looked (config :: todo))
    (ht : w.look D answer event store looked config todo = some w') : Sourced D run w' := by
  have hhand := h.in_hand
  rw [hw] at hhand
  obtain ⟨hevent, hstore, hrows⟩ := hhand
  have honward : InHand run (.dispatching event store (looked ++ [(config, answer.now)]) todo) :=
    ⟨hevent, hstore, fun c hc => hrows c (List.mem_cons_of_mem _ hc)⟩
  unfold Worker.look at ht
  by_cases hsub : config.subscribed event.action = true
  · rw [if_pos hsub] at ht
    by_cases hfull : MAX_INFLIGHT ≤ w.join_set.length
    · rw [if_pos hfull] at ht
      obtain ⟨⟨t, v⟩, hjoin, rfl⟩ := Option.map_eq_some_iff.mp ht
      exact h.joined hjoin
    · rw [if_neg hfull] at ht
      cases hp : prepare_dispatch D.env D.http config event answer.now with
      | error reason =>
          simp only [hp, Option.some.injEq] at ht
          subst ht
          exact ⟨honward, h.tasks⟩
      | ok prepared =>
          simp only [hp, Option.some.injEq] at ht
          subst ht
          refine ⟨honward, fun t ht => ?_⟩
          rcases List.mem_append.mp ht with ht | ht
          · exact h.tasks t ht
          · obtain rfl := List.mem_singleton.mp ht
            obtain ⟨j, answer', hanswer, hread⟩ := hstore
            obtain ⟨hmem, hactive, hgroup⟩ := hrows config List.mem_cons_self
            refine ⟨⟨event, hevent, j, answer', store, config, answer.now, hanswer, hread, hmem,
              hactive, hgroup, hsub, hp⟩, fun attempt hstage => ?_⟩
            cases hstage
  · rw [if_neg hsub] at ht
    obtain rfl := Option.some.inj ht
    exact ⟨honward, h.tasks⟩

/-- A move of a worker away from the channel. -/
theorem turn (h : Sourced D run w) {i : Fin n} {answer : WorkerAnswer}
    (hmem : PoolTurn.worker i answer ∈ run) (ht : w.turn D answer = some w') : Sourced D run w' := by
  have hhand := h.in_hand
  have hrest : InHand run (Worker.rest D) := by
    unfold Worker.rest
    split <;> trivial
  unfold Worker.turn at ht
  cases hw : w.stage with
  | starting =>
      simp only [hw, Option.some.injEq] at ht
      subst ht
      cases answer.client_built <;> exact ⟨trivial, h.tasks⟩
  | locking => simp [hw] at ht
  | receiving => simp [hw] at ht
  | fetching event gid =>
      rw [hw] at hhand
      cases hstore : answer.store with
      | none =>
          simp only [hw, hstore, Option.some.injEq] at ht
          exact ht ▸ ⟨trivial, h.tasks⟩
      | some store =>
          simp only [hw, hstore, Option.some.injEq] at ht
          refine ht ▸ ⟨⟨hhand.1, ⟨i, answer, hmem, hstore⟩, fun config hconfig => ?_⟩, h.tasks⟩
          obtain ⟨hrow, hactive, hgroup⟩ := World.mem_watching hconfig
          exact ⟨hrow, hactive, hgroup ▸ hhand.2⟩
  | dispatching event store looked todo =>
      cases todo with
      | nil =>
          simp only [hw, Option.some.injEq] at ht
          exact ht ▸ ⟨trivial, h.tasks⟩
      | cons config todo =>
          simp only [hw] at ht
          exact h.look hw ht
  | reaping =>
      simp only [hw] at ht
      split at ht
      · obtain ⟨⟨t, v⟩, hjoin, hv⟩ := Option.map_eq_some_iff.mp ht
        have hjoined := h.joined hjoin
        simp only at hv
        split at hv
        · exact hv ▸ ⟨hrest, hjoined.tasks⟩
        · exact hv ▸ hjoined
      · obtain rfl := Option.some.inj ht
        exact ⟨hrest, h.tasks⟩
  | sleeping =>
      simp only [hw, Option.some.injEq] at ht
      exact ht ▸ ⟨trivial, h.tasks⟩
  | draining =>
      simp only [hw] at ht
      split at ht
      · obtain rfl := Option.some.inj ht
        exact ⟨trivial, h.tasks⟩
      · obtain ⟨⟨t, v⟩, hjoin, rfl⟩ := Option.map_eq_some_iff.mp ht
        exact h.joined hjoin
  | stopped => simp [hw] at ht

/-- An event of the run is received. -/
theorem pick (h : Sourced D run w) {event : WebhookEvent} (hevent : event ∈ DispatchPool.enqueued run) :
    Sourced D run (w.pick event) := by
  unfold Worker.pick
  cases hgid : event.group_id with
  | none => exact ⟨trivial, h.tasks⟩
  | some gid => exact ⟨⟨hevent, hgid⟩, h.tasks⟩

/-- A delivery moves, with an answer of the run. -/
theorem task_turn (h : Sourced D run w) {i : Fin n} {k : Nat} {answer : TaskAnswer}
    (hmem : PoolTurn.task i k answer ∈ run) : Sourced D run (w.task_turn D k answer).2 := by
  unfold Worker.task_turn
  split
  · exact h
  · rename_i t ht
    refine ⟨h.in_hand, fun t' ht' => ?_⟩
    rcases List.mem_or_eq_of_mem_set ht' with ht' | rfl
    · exact h.tasks t' ht'
    · obtain ⟨hcalled, hscreened⟩ := h.tasks t (List.mem_of_getElem? ht)
      rw [Task.move_prepared]
      refine ⟨hcalled, fun attempt hstage => ?_⟩
      rcases Task.move_delivering hstage with ⟨before, hbefore⟩ | hsafe
      · exact hscreened before hbefore
      · exact ⟨i, k, answer, hmem, hsafe⟩

end Sourced

namespace DispatchPool

/-- Everything in the pool comes from the run. -/
structure Sourced (D : Dispatcher) (run : List (PoolTurn n)) (P : DispatchPool n) : Prop where
  waiting : ∀ event ∈ P.channel.buffer, event ∈ enqueued run
  workers : ∀ i, IpVault.Sourced D run (P.workers i)

variable {P : DispatchPool n}

theorem sourced_start (D : Dispatcher) (run : List (PoolTurn n)) (capacity : Nat) :
    (start n capacity).Sourced D run where
  waiting := fun _ h => absurd h List.not_mem_nil
  workers := fun _ => ⟨trivial, fun _ h => absurd h List.not_mem_nil⟩

/-- One worker is replaced by another that comes from the run. -/
theorem Sourced.set (h : P.Sourced D run) {i : Fin n} {w : Worker} (hw : IpVault.Sourced D run w)
    (j : Fin n) : IpVault.Sourced D run ((P.set i w).workers j) := by
  by_cases hj : j = i
  · subst hj
    rw [set_workers_self]
    exact hw
  · rw [set_workers_ne P hj]
    exact h.workers j

/-- **One move of the run.** -/
theorem Sourced.step (h : P.Sourced D run) {t : PoolTurn n} (ht : t ∈ run) :
    (DispatchPool.step D t P).2.Sourced D run := by
  cases t with
  | enqueue event =>
      refine ⟨fun e he => ?_, h.workers⟩
      have hbuffer : e ∈ (P.channel.try_send event).buffer := he
      unfold Channel.try_send at hbuffer
      split at hbuffer
      · rcases List.mem_append.mp hbuffer with he | he
        · exact h.waiting e he
        · obtain rfl := List.mem_singleton.mp he
          exact List.mem_filterMap.mpr ⟨_, ht, rfl⟩
      · exact h.waiting e hbuffer
  | drop_senders => exact ⟨h.waiting, h.workers⟩
  | worker i answer =>
      show ((P.worker_turn D i answer).getD P).Sourced D run
      cases hturn : P.worker_turn D i answer with
      | none => exact h
      | some P' =>
          rcases worker_turn_cases hturn with ⟨-, -, rfl⟩ | ⟨event, rest, -, hrecv, rfl⟩ |
            ⟨-, -, rfl⟩ | ⟨-, -, w, hw, rfl⟩
          · exact ⟨h.waiting, h.set ⟨trivial, (h.workers i).tasks⟩⟩
          · have hbuffer := (Channel.recv_message hrecv).1
            refine ⟨fun e he => h.waiting e ?_, h.set ((h.workers i).pick (h.waiting event ?_))⟩
            · rw [hbuffer]
              exact List.mem_cons_of_mem _ he
            · rw [hbuffer]
              exact List.mem_cons_self
          · exact ⟨h.waiting, h.set ⟨trivial, (h.workers i).tasks⟩⟩
          · exact ⟨h.waiting, h.set ((h.workers i).turn ht hw)⟩
  | task i k answer => exact ⟨h.waiting, h.set ((h.workers i).task_turn ht)⟩
  | returned =>
      simp only [DispatchPool.step]
      split
      · exact ⟨h.waiting, h.workers⟩
      · exact h

/-- What a move posts. -/
theorem Sourced.posts (h : P.Sourced D run) (t : PoolTurn n) {target_url payload : String}
    {headers : DispatchHeaders}
    (hpost : DispatchEffect.post target_url headers payload ∈ (DispatchPool.step D t P).1) :
    CalledFor D run ⟨target_url, headers, payload⟩ ∧ Screened D run target_url := by
  cases t with
  | task i k answer =>
      have hmove : DispatchEffect.post target_url headers payload ∈
          ((P.workers i).task_turn D k answer).1 := hpost
      unfold Worker.task_turn at hmove
      split at hmove
      · exact absurd hmove List.not_mem_nil
      · rename_i t ht
        obtain ⟨hcalled, hscreened⟩ := (h.workers i).tasks t (List.mem_of_getElem? ht)
        obtain ⟨⟨attempt, hstage⟩, hprepared⟩ := Task.move_posts hmove
        rw [hprepared] at hcalled hscreened
        exact ⟨hcalled, hscreened attempt hstage⟩
  | enqueue event => exact absurd hpost List.not_mem_nil
  | drop_senders => exact absurd hpost List.not_mem_nil
  | worker i answer => exact absurd hpost List.not_mem_nil
  | returned => exact absurd hpost List.not_mem_nil

end DispatchPool

/-- **Nothing is sent unasked, and nothing unscreened.** After any moves, in any order: each request the
next move posts is the one `prepare_dispatch` makes of an event that was sent to the pool in the moves
before it, for an active webhook of the event's group that is told of it, in a store that was read in
them; and its target has passed the screen in them. -/
theorem posts_accounted_for {n : Nat} (D : Dispatcher) (capacity : Nat) (before : List (PoolTurn n))
    (t : PoolTurn n) :
    let P := final (DispatchPool.step D) before (.start n capacity)
    ∀ target_url headers payload,
      DispatchEffect.post target_url headers payload ∈ (DispatchPool.step D t P).1 →
        CalledFor D before ⟨target_url, headers, payload⟩ ∧ Screened D before target_url := by
  intro P target_url headers payload hpost
  have halong : Along (DispatchPool.step D) (fun t _ => t ∈ before) before
      (DispatchPool.start n capacity) := .of_mem before _
  have hsourced : P.Sourced D before := halong.keeps (I := fun P : DispatchPool n => P.Sourced D before)
    (DispatchPool.sourced_start D before capacity) fun t P ht hP => hP.step ht
  exact hsourced.posts t hpost

/-- The effect is a request. -/
def DispatchEffect.is_post : DispatchEffect → Bool
  | .post _ _ _ => true
  | _ => false

/-- The request of the one delivery. -/
theorem one_delivery_accounted_for : ∃ target_url headers payload,
    CalledFor .sample (one_delivery.take 8) ⟨target_url, headers, payload⟩ ∧
      Screened .sample (one_delivery.take 8) target_url := by
  let P := final (DispatchPool.step .sample) (one_delivery.take 8) (.start 1 8)
  have hposts : ((DispatchPool.step .sample (one_delivery.getD 8 .returned) P).1.any
      DispatchEffect.is_post) = true := by decide +kernel
  obtain ⟨e, hmem, hpost⟩ := List.any_eq_true.mp hposts
  cases e with
  | post target_url headers payload =>
      exact ⟨target_url, headers, payload, posts_accounted_for .sample 8 (one_delivery.take 8)
        (one_delivery.getD 8 .returned) target_url headers payload hmem⟩
  | _ => cases hpost

end IpVault
