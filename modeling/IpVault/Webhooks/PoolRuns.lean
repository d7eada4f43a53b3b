import IpVault.Webhooks.Pool

set_option autoImplicit false

/-! # The books of the dispatch pool

Whatever the order of the moves, an event the channel takes in is picked up once, by one worker, in the
order in which it came; a worker makes of it exactly the deliveries its webhooks call for; and no worker
has more than `MAX_INFLIGHT` of them under way. `DispatchPool.Ok` is the invariant, one lemma for each
kind of move keeps it, and at the end of a shutdown it leaves nothing behind.
-/

namespace IpVault

open Lib

/-! ## What a worker has in its books -/

namespace Handled

/-- The deliveries an event calls for. -/
def deliveries (D : Dispatcher) (h : Handled) : List Spawned :=
  h.looked.filterMap fun seen =>
    if seen.1.subscribed h.event.action then
      match prepare_dispatch D.env D.http seen.1 h.event seen.2 with
      | .ok prepared => some ⟨h.event, seen.1, prepared⟩
      | .error _ => none
    else none

/-- Every webhook of the group was looked at, in the store it was read from. -/
def Complete (h : Handled) : Prop :=
  match h.store with
  | none => h.looked = []
  | some store => ∃ gid, h.event.group_id = some gid ∧ h.looked.map Prod.fst = store.watching gid

theorem deliveries_nil (D : Dispatcher) (event : WebhookEvent) (store : Option World) :
    deliveries D ⟨event, store, []⟩ = [] := rfl

theorem deliveries_append (D : Dispatcher) (event : WebhookEvent) (store : Option World)
    (looked : List (WebhookConfig × Int)) (seen : WebhookConfig × Int) :
    deliveries D ⟨event, store, looked ++ [seen]⟩ =
      deliveries D ⟨event, store, looked⟩ ++ deliveries D ⟨event, store, [seen]⟩ := by
  unfold deliveries
  rw [List.filterMap_append]

/-- A webhook that is not told of the event. -/
theorem deliveries_unsubscribed (D : Dispatcher) {event : WebhookEvent} {store : Option World}
    {config : WebhookConfig} {now : Int} (h : config.subscribed event.action = false) :
    deliveries D ⟨event, store, [(config, now)]⟩ = [] := by
  simp [deliveries, h]

/-- A webhook no request can be made for. -/
theorem deliveries_error (D : Dispatcher) {event : WebhookEvent} {store : Option World}
    {config : WebhookConfig} {now : Int} {reason : String}
    (h : prepare_dispatch D.env D.http config event now = .error reason) :
    deliveries D ⟨event, store, [(config, now)]⟩ = [] := by
  simp [deliveries, h]

theorem deliveries_ok (D : Dispatcher) {event : WebhookEvent} {store : Option World}
    {config : WebhookConfig} {now : Int} {prepared : PreparedDispatch}
    (hsub : config.subscribed event.action = true)
    (h : prepare_dispatch D.env D.http config event now = .ok prepared) :
    deliveries D ⟨event, store, [(config, now)]⟩ = [⟨event, config, prepared⟩] := by
  simp [deliveries, hsub, h]

end Handled

namespace Worker

/-- The event a worker has in hand, and what it has made of it so far. -/
def in_hand (w : Worker) : List Handled :=
  match w.stage with
  | .fetching event _ => [⟨event, none, []⟩]
  | .dispatching event store looked _ => [⟨event, some store, looked⟩]
  | _ => []

/-- The events a worker received. -/
def events (w : Worker) : List WebhookEvent := (w.handled ++ w.in_hand).map Handled.event

/-- What the stage of a worker promises. -/
def StageOk (w : Worker) : Prop :=
  match w.stage with
  | .starting => w.join_set = [] ∧ w.client = false
  | .fetching event gid => event.group_id = some gid ∧ w.client = true
  | .dispatching event store looked todo =>
      (∃ gid, event.group_id = some gid ∧ looked.map Prod.fst ++ todo = store.watching gid) ∧
        w.client = true
  | .stopped => w.join_set = []
  | _ => w.client = true

/-- The books of a worker are in order. -/
structure Ok (D : Dispatcher) (w : Worker) : Prop where
  complete : ∀ h ∈ w.handled, h.Complete
  stage : w.StageOk
  fan_out : w.spawned = (w.handled ++ w.in_hand).flatMap (Handled.deliveries D)
  bounded : w.join_set.length ≤ MAX_INFLIGHT
  tasks : ∀ t ∈ w.join_set, ∃ s ∈ w.spawned,
    t.prepared = s.prepared ∧ t.ctx = dispatch_context s.config s.event

/-- A worker that runs down or has run down, after it had its client. -/
def Ending (w : Worker) : Prop :=
  (w.stage = .draining ∨ w.stage = .stopped) ∧ w.client = true

theorem ok_new (D : Dispatcher) : Worker.new.Ok D where
  complete := fun _ h => absurd h List.not_mem_nil
  stage := ⟨rfl, rfl⟩
  fan_out := rfl
  bounded := Nat.zero_le _
  tasks := fun _ h => absurd h List.not_mem_nil

/-! ## One move of a worker -/

variable {D : Dispatcher} {w w' : Worker}

/-- What leaves the set was done, and nothing else changes. -/
theorem join_next_eq_some {k : Nat} {t : Task} (h : w.join_next k = some (t, w')) :
    t ∈ w.join_set ∧ t.done = true ∧ w' = { w with join_set := w.join_set.eraseIdx k } := by
  unfold join_next at h
  split at h
  · cases h
  · rename_i t' ht
    split at h
    · rename_i hdone
      obtain ⟨rfl, rfl⟩ := Prod.mk.inj (Option.some.inj h)
      exact ⟨List.mem_of_getElem? ht, hdone, rfl⟩
    · cases h

/-- Fewer tasks are still in order. -/
theorem Ok.erase (h : w.Ok D) (k : Nat) (hstage : w.stage ≠ .starting) (hstopped : w.stage ≠ .stopped) :
    ({ w with join_set := w.join_set.eraseIdx k } : Worker).Ok D where
  complete := h.complete
  stage := by
    have hs := h.stage
    unfold StageOk at hs ⊢
    cases hw : w.stage <;> simp_all
  fan_out := h.fan_out
  bounded := Nat.le_trans (List.length_eraseIdx_le _ _) h.bounded
  tasks := fun t ht => h.tasks t (List.mem_of_mem_eraseIdx ht)

/-- Between two events the stage says nothing but that there is a client. -/
theorem Ok.goto (h : w.Ok D) {stage : WorkerStage} (hhand : w.in_hand = (w.goto stage).in_hand)
    (hstage : (w.goto stage).StageOk) : (w.goto stage).Ok D where
  complete := h.complete
  stage := hstage
  fan_out := by
    rw [← hhand]
    exact h.fan_out
  bounded := h.bounded
  tasks := h.tasks

/-- An event is put to the books. -/
theorem Ok.close (h : w.Ok D) {done : Handled} {stage : WorkerStage} (hhand : w.in_hand = [done])
    (hcomplete : done.Complete) (hidle : (w.close done stage).in_hand = [])
    (hstage : (w.close done stage).StageOk) : (w.close done stage).Ok D where
  complete := by
    intro h' hh'
    rcases List.mem_append.mp hh' with hh' | hh'
    · exact h.complete h' hh'
    · rw [List.mem_singleton.mp hh']
      exact hcomplete
  stage := hstage
  fan_out := by
    show w.spawned = ((w.handled ++ [done]) ++ (w.close done stage).in_hand).flatMap _
    rw [hidle, List.append_nil, ← hhand]
    exact h.fan_out
  bounded := h.bounded
  tasks := h.tasks

theorem events_close {done : Handled} {stage : WorkerStage} (hhand : w.in_hand = [done])
    (hidle : (w.close done stage).in_hand = []) : (w.close done stage).events = w.events := by
  unfold events
  rw [hidle, hhand, List.append_nil]
  rfl

/-- What every move of a worker away from the channel keeps: its books are in order, its events are the
same, it does not turn up at the channel, and it does not run down of itself. -/
structure Kept (D : Dispatcher) (w w' : Worker) : Prop where
  ok : w'.Ok D
  events : w'.events = w.events
  away : w'.stage ≠ .receiving
  ending : w'.Ending → w.Ending

/-- A worker that is neither draining nor stopped does not run down. -/
theorem not_ending (hdraining : w.stage ≠ .draining) (hstopped : w.stage ≠ .stopped) : ¬ w.Ending :=
  fun h => h.1.elim hdraining hstopped

/-- On to a stage with the same event in hand. -/
theorem Ok.kept_goto (h : w.Ok D) {stage : WorkerStage} (hhand : w.in_hand = (w.goto stage).in_hand)
    (hstage : (w.goto stage).StageOk) (haway : stage ≠ .receiving)
    (hending : (w.goto stage).Ending → w.Ending) : Kept D w (w.goto stage) where
  ok := h.goto hhand hstage
  events := by
    unfold Worker.events
    rw [← hhand]
    rfl
  away := haway
  ending := hending

/-- Through with the event in hand. -/
theorem Ok.kept_close (h : w.Ok D) {done : Handled} {stage : WorkerStage} (hhand : w.in_hand = [done])
    (hcomplete : done.Complete) (hstage : (w.close done stage).StageOk)
    (hidle : stage = .locking ∨ stage = .reaping) : Kept D w (w.close done stage) := by
  have hnone : (w.close done stage).in_hand = [] := by
    rcases hidle with rfl | rfl <;> rfl
  refine ⟨h.close hhand hcomplete hnone hstage, events_close hhand hnone, ?_, fun hend => ?_⟩
  · rcases hidle with rfl | rfl <;> simp [Worker.close]
  · refine absurd hend (not_ending ?_ ?_) <;> rcases hidle with rfl | rfl <;> simp [Worker.close]

/-- A task leaves the set. -/
theorem Ok.joined (h : w.Ok D) {k : Nat} {t : Task} (hstage : w.stage ≠ .starting)
    (hstopped : w.stage ≠ .stopped) (hreceiving : w.stage ≠ .receiving)
    (hjoin : w.join_next k = some (t, w')) : Kept D w w' := by
  obtain ⟨-, -, rfl⟩ := join_next_eq_some hjoin
  exact ⟨h.erase k hstage hstopped, rfl, hreceiving, id⟩

/-- The body of the loop over the webhooks. -/
theorem Ok.look (h : w.Ok D) {answer : WorkerAnswer} {event : WebhookEvent} {store : World}
    {looked : List (WebhookConfig × Int)} {config : WebhookConfig} {todo : List WebhookConfig}
    (hw : w.stage = .dispatching event store looked (config :: todo))
    (ht : w.look D answer event store looked config todo = some w') : Kept D w w' := by
  have hstage := h.stage
  have hfan := h.fan_out
  have hhand : w.in_hand = [⟨event, some store, looked⟩] := by simp [in_hand, hw]
  unfold StageOk at hstage
  rw [hw] at hstage
  rw [hhand] at hfan
  obtain ⟨⟨gid, hgid, hrows⟩, hclient⟩ := hstage
  -- Whatever becomes of the webhook, the worker goes on to the next one of the list.
  have hnext : ∀ v : Worker, v.client = true →
      (v.goto (.dispatching event store (looked ++ [(config, answer.now)]) todo)).StageOk := by
    intro v hv
    refine ⟨⟨gid, hgid, ?_⟩, hv⟩
    rw [← hrows]
    simp
  have hsame : ∀ v : Worker, v.handled = w.handled →
      (v.goto (.dispatching event store (looked ++ [(config, answer.now)]) todo)).events =
        w.events := by
    intro v hv
    unfold events
    rw [hhand, goto_handled, hv]
    simp [in_hand]
  have hnot : ∀ v : Worker,
      (v.goto (.dispatching event store (looked ++ [(config, answer.now)]) todo)).Ending →
        w.Ending := fun v hend => absurd hend (not_ending (by simp) (by simp))
  have hskip : Handled.deliveries D ⟨event, some store, [(config, answer.now)]⟩ = [] →
      Kept D w (w.goto (.dispatching event store (looked ++ [(config, answer.now)]) todo)) := by
    intro hnone
    refine ⟨⟨h.complete, hnext w hclient, ?_, h.bounded, h.tasks⟩, hsame w rfl, by simp, hnot w⟩
    show w.spawned = (w.handled ++ [_]).flatMap _
    rw [hfan, List.flatMap_append, List.flatMap_append, List.flatMap_singleton,
      List.flatMap_singleton, Handled.deliveries_append, hnone, List.append_nil]
  unfold Worker.look at ht
  by_cases hsub : config.subscribed event.action = true
  · rw [if_pos hsub] at ht
    by_cases hfull : MAX_INFLIGHT ≤ w.join_set.length
    · rw [if_pos hfull] at ht
      obtain ⟨⟨t, w''⟩, hjoin, rfl⟩ := Option.map_eq_some_iff.mp ht
      exact h.joined (by simp [hw]) (by simp [hw]) (by simp [hw]) hjoin
    · rw [if_neg hfull] at ht
      cases hp : prepare_dispatch D.env D.http config event answer.now with
      | error reason =>
          simp only [hp, Option.some.injEq] at ht
          subst ht
          exact hskip (Handled.deliveries_error D hp)
      | ok prepared =>
          simp only [hp, Option.some.injEq] at ht
          subst ht
          refine ⟨⟨h.complete, hnext _ hclient, ?_, ?_, ?_⟩, hsame _ rfl, by simp, hnot _⟩
          · show w.spawned ++ [_] = (w.handled ++ [_]).flatMap _
            rw [hfan, List.flatMap_append, List.flatMap_append, List.flatMap_singleton,
              List.flatMap_singleton, Handled.deliveries_append,
              Handled.deliveries_ok D hsub hp, List.append_assoc]
          · show (w.join_set ++ [_]).length ≤ MAX_INFLIGHT
            rw [List.length_append, List.length_singleton]
            omega
          · intro t ht
            rcases List.mem_append.mp ht with ht | ht
            · obtain ⟨s, hs, hparts⟩ := h.tasks t ht
              exact ⟨s, List.mem_append_left _ hs, hparts⟩
            · rw [List.mem_singleton.mp ht]
              exact ⟨_, List.mem_append_right _ (List.mem_singleton_self _), rfl, rfl⟩
  · rw [if_neg hsub] at ht
    obtain rfl := Option.some.inj ht
    exact hskip (Handled.deliveries_unsubscribed D (Bool.eq_false_iff.mpr hsub))

/-- The first move: with a client to the channel, without one to the end. -/
theorem Ok.started (h : w.Ok D) (hw : w.stage = .starting) (built : Bool) :
    Kept D w { w with stage := if built then .locking else .stopped, client := built } := by
  have hstage := h.stage
  have hfan := h.fan_out
  have hidle : w.in_hand = [] := by simp [in_hand, hw]
  unfold StageOk at hstage
  rw [hw] at hstage
  rw [hidle] at hfan
  cases built with
  | true =>
      refine ⟨⟨h.complete, rfl, hfan, h.bounded, h.tasks⟩, ?_, by simp, ?_⟩
      · simp [events, in_hand, hw]
      · exact fun hend => absurd hend (not_ending (by simp) (by simp))
  | false =>
      refine ⟨⟨h.complete, hstage.1, hfan, h.bounded, h.tasks⟩, ?_, by simp, ?_⟩
      · simp [events, in_hand, hw]
      · rintro ⟨-, hclient⟩
        cases hclient

/-- The reaping is over. -/
theorem Ok.rested (h : w.Ok D) (hw : w.stage = .reaping) (hclient : w.client = true) :
    Kept D w (w.goto (rest D)) := by
  have hidle : w.in_hand = [] := by simp [in_hand, hw]
  unfold rest
  split
  · exact h.kept_goto (by rw [hidle]; rfl) hclient (by simp)
      fun hend => absurd hend (not_ending (by simp) (by simp))
  · exact h.kept_goto (by rw [hidle]; rfl) hclient (by simp)
      fun hend => absurd hend (not_ending (by simp) (by simp))

/-- **One move of a worker.** -/
theorem Ok.turn (h : w.Ok D) {answer : WorkerAnswer} (ht : w.turn D answer = some w') :
    Kept D w w' := by
  have hstage := h.stage
  unfold StageOk at hstage
  unfold Worker.turn at ht
  cases hw : w.stage with
  | starting =>
      simp only [hw, Option.some.injEq] at ht
      exact ht ▸ h.started hw answer.client_built
  | locking => simp [hw] at ht
  | receiving => simp [hw] at ht
  | fetching event gid =>
      rw [hw] at hstage
      have hhand : w.in_hand = [⟨event, none, []⟩] := by simp [in_hand, hw]
      cases hstore : answer.store with
      | none =>
          simp only [hw, hstore, Option.some.injEq] at ht
          exact ht ▸ h.kept_close hhand rfl hstage.2 (.inl rfl)
      | some store =>
          simp only [hw, hstore, Option.some.injEq] at ht
          subst ht
          refine ⟨⟨h.complete, ⟨⟨gid, hstage.1, rfl⟩, hstage.2⟩, ?_, h.bounded, h.tasks⟩, ?_, by simp,
            fun hend => absurd hend (not_ending (by simp) (by simp))⟩
          · have hfan := h.fan_out
            rw [hhand, List.flatMap_append, List.flatMap_singleton, Handled.deliveries_nil] at hfan
            show w.spawned = (w.handled ++ [_]).flatMap _
            rw [hfan, List.flatMap_append, List.flatMap_singleton, Handled.deliveries_nil]
          · simp [events, in_hand, hw]
  | dispatching event store looked todo =>
      cases todo with
      | nil =>
          rw [hw] at hstage
          simp only [hw, Option.some.injEq] at ht
          obtain ⟨⟨gid, hgid, hrows⟩, hclient⟩ := hstage
          rw [List.append_nil] at hrows
          have hhand : w.in_hand = [⟨event, some store, looked⟩] := by simp [in_hand, hw]
          exact ht ▸ h.kept_close hhand ⟨gid, hgid, hrows⟩ hclient (.inr rfl)
      | cons config todo =>
          simp only [hw] at ht
          exact h.look hw ht
  | reaping =>
      rw [hw] at hstage
      simp only [hw] at ht
      split at ht
      · obtain ⟨⟨t, v⟩, hjoin, hv⟩ := Option.map_eq_some_iff.mp ht
        have hkept := h.joined (by simp [hw]) (by simp [hw]) (by simp [hw]) hjoin
        obtain ⟨-, -, hv'⟩ := join_next_eq_some hjoin
        simp only at hv
        split at hv
        · -- A panic ends the reaping early.
          subst hv
          have hpause := hkept.ok.rested (by simp [hv', hw]) (by simpa [hv'] using hstage)
          exact ⟨hpause.ok, hpause.events.trans hkept.events, hpause.away,
            fun hend => hkept.ending (hpause.ending hend)⟩
        · exact hv ▸ hkept
      · obtain rfl := Option.some.inj ht
        exact h.rested hw hstage
  | sleeping =>
      rw [hw] at hstage
      simp only [hw, Option.some.injEq] at ht
      have hidle : w.in_hand = [] := by simp [in_hand, hw]
      exact ht ▸ h.kept_goto (by rw [hidle]; rfl) hstage (by simp)
        fun hend => absurd hend (not_ending (by simp) (by simp))
  | draining =>
      simp only [hw] at ht
      split at ht
      · rename_i hempty
        obtain rfl := Option.some.inj ht
        have hidle : w.in_hand = [] := by simp [in_hand, hw]
        exact h.kept_goto (by rw [hidle]; rfl) hempty (by simp) fun hend => ⟨.inl hw, hend.2⟩
      · obtain ⟨⟨t, v⟩, hjoin, rfl⟩ := Option.map_eq_some_iff.mp ht
        exact h.joined (by simp [hw]) (by simp [hw]) (by simp [hw]) hjoin
  | stopped => simp [hw] at ht

/-! ## At the channel -/

/-- An event is received. -/
theorem Ok.pick (h : w.Ok D) (hw : w.stage = .receiving) (event : WebhookEvent) :
    (w.pick event).Ok D ∧ (w.pick event).events = w.events ++ [event] ∧
      (w.pick event).stage ≠ .receiving ∧ ¬ (w.pick event).Ending := by
  have hidle : w.in_hand = [] := by simp [in_hand, hw]
  have hclient : w.client = true := by
    have hstage := h.stage
    unfold StageOk at hstage
    rwa [hw] at hstage
  have hfan := h.fan_out
  rw [hidle, List.append_nil] at hfan
  -- The books of the event are empty when it comes.
  have hempty : (w.handled ++ [(⟨event, none, []⟩ : Handled)]).flatMap (Handled.deliveries D) =
      w.spawned := by
    rw [List.flatMap_append, hfan, List.flatMap_singleton, Handled.deliveries_nil, List.append_nil]
  unfold Worker.pick
  cases hgid : event.group_id with
  | none =>
      refine ⟨⟨?_, hclient, ?_, h.bounded, h.tasks⟩, ?_, by simp [Worker.close], ?_⟩
      · intro done hdone
        rcases List.mem_append.mp hdone with hdone | hdone
        · exact h.complete done hdone
        · rw [List.mem_singleton.mp hdone]
          exact rfl
      · show w.spawned = ((w.handled ++ [_]) ++ []).flatMap _
        rw [List.append_nil, hempty]
      · simp [events, in_hand, Worker.close, hw]
      · exact not_ending (by simp [Worker.close]) (by simp [Worker.close])
  | some gid =>
      refine ⟨⟨h.complete, ⟨hgid, hclient⟩, hempty.symm, h.bounded, h.tasks⟩, ?_, by simp, ?_⟩
      · simp [events, in_hand, hw]
      · exact not_ending (by simp) (by simp)

/-- One of its deliveries moves. -/
theorem Ok.task_turn (h : w.Ok D) (k : Nat) (answer : TaskAnswer) :
    (w.task_turn D k answer).2.Ok D ∧ (w.task_turn D k answer).2.events = w.events ∧
      (w.task_turn D k answer).2.stage = w.stage ∧ (w.task_turn D k answer).2.client = w.client := by
  unfold Worker.task_turn
  split
  · exact ⟨h, rfl, rfl, rfl⟩
  · rename_i t ht
    refine ⟨⟨h.complete, ?_, h.fan_out, ?_, ?_⟩, rfl, rfl, rfl⟩
    · -- A worker without deliveries has none that moves.
      have hmem := List.mem_of_getElem? ht
      have hstage := h.stage
      unfold StageOk at hstage ⊢
      cases hw : w.stage <;> simp_all
    · show (w.join_set.set k _).length ≤ MAX_INFLIGHT
      rw [List.length_set]
      exact h.bounded
    · intro t' ht'
      rcases List.mem_or_eq_of_mem_set ht' with ht' | rfl
      · exact h.tasks t' ht'
      · obtain ⟨s, hs, hparts⟩ := h.tasks t (List.mem_of_getElem? ht)
        refine ⟨s, hs, ?_⟩
        have hsame : (t.move D answer).2.prepared = t.prepared ∧
            (t.move D answer).2.ctx = t.ctx := by
          unfold Task.move
          split
          · split <;> exact ⟨rfl, rfl⟩
          · split <;> exact ⟨rfl, rfl⟩
          · exact ⟨rfl, rfl⟩
          · exact ⟨rfl, rfl⟩
        rw [hsame.1, hsame.2]
        exact hparts

end Worker

namespace DispatchPool

variable {n : Nat} {D : Dispatcher} {P P' : DispatchPool n}

@[simp] theorem set_workers_self (P : DispatchPool n) (i : Fin n) (w : Worker) :
    (P.set i w).workers i = w := by
  simp [set]

theorem set_workers_ne (P : DispatchPool n) {i j : Fin n} (h : j ≠ i) (w : Worker) :
    (P.set i w).workers j = P.workers j := by
  simp [set, h]

/-- The events a worker picked up, in order. -/
def picked_by (P : DispatchPool n) (i : Fin n) : List WebhookEvent :=
  (P.picked.filter fun p => p.1 = i).map Prod.snd

/-- The books of the pool are in order. -/
structure Ok (D : Dispatcher) (P : DispatchPool n) : Prop where
  channel : P.channel.Sound
  taken : P.picked.map Prod.snd = P.channel.taken
  share : ∀ i, P.picked_by i = (P.workers i).events
  holder : ∀ i, P.lock = some i ↔ (P.workers i).stage = .receiving
  workers : ∀ i, (P.workers i).Ok D
  ended : ∀ i, (P.workers i).Ending → P.channel.buffer = [] ∧ P.channel.senders = false

theorem ok_start (D : Dispatcher) (capacity : Nat) : (start n capacity).Ok D where
  channel := Channel.sound_new capacity
  taken := rfl
  share := fun _ => rfl
  holder := fun i => by simp [start, Worker.new]
  workers := fun _ => Worker.ok_new D
  ended := fun i h => by simp [start, Worker.new, Worker.Ending] at h

/-- **What a worker can do**: take the lock, receive, find the channel closed, or move on by itself. -/
theorem worker_turn_cases {i : Fin n} {answer : WorkerAnswer}
    (h : P.worker_turn D i answer = some P') :
    ((P.workers i).stage = .locking ∧ P.lock = none ∧
      P' = { P.set i ((P.workers i).goto .receiving) with lock := some i }) ∨
    (∃ event rest, (P.workers i).stage = .receiving ∧ P.channel.recv = .message event rest ∧
      P' = { P.set i ((P.workers i).pick event) with
        channel := rest, lock := none, picked := P.picked ++ [(i, event)] }) ∨
    ((P.workers i).stage = .receiving ∧ P.channel.recv = .closed ∧
      P' = { P.set i ((P.workers i).goto .draining) with lock := none }) ∨
    ((P.workers i).stage ≠ .locking ∧ (P.workers i).stage ≠ .receiving ∧
      ∃ w, (P.workers i).turn D answer = some w ∧ P' = P.set i w) := by
  unfold worker_turn at h
  simp only at h
  split at h
  · rename_i hstage
    split at h
    · rename_i hfree
      exact .inl ⟨hstage, hfree, (Option.some.inj h).symm⟩
    · cases h
  · rename_i hstage
    split at h
    · rename_i event rest hrecv
      exact .inr (.inl ⟨event, rest, hstage, hrecv, (Option.some.inj h).symm⟩)
    · rename_i hrecv
      exact .inr (.inr (.inl ⟨hstage, hrecv, (Option.some.inj h).symm⟩))
    · cases h
  · rename_i hlocking hreceiving
    obtain ⟨w, hw, rfl⟩ := Option.map_eq_some_iff.mp h
    exact .inr (.inr (.inr ⟨hlocking, hreceiving, w, hw, rfl⟩))

/-- One worker moves, and does not come to the channel or leave it. -/
theorem Ok.set (h : P.Ok D) {i : Fin n} {w : Worker} (hok : w.Ok D)
    (hevents : w.events = (P.workers i).events)
    (hstage : w.stage = .receiving ↔ (P.workers i).stage = .receiving)
    (hending : w.Ending → (P.workers i).Ending) : (P.set i w).Ok D where
  channel := h.channel
  taken := h.taken
  share := by
    intro j
    by_cases hj : j = i
    · subst hj
      rw [set_workers_self, hevents]
      exact h.share j
    · rw [set_workers_ne P hj]
      exact h.share j
  holder := by
    intro j
    by_cases hj : j = i
    · subst hj
      rw [set_workers_self, hstage]
      exact h.holder j
    · rw [set_workers_ne P hj]
      exact h.holder j
  workers := by
    intro j
    by_cases hj : j = i
    · subst hj
      rw [set_workers_self]
      exact hok
    · rw [set_workers_ne P hj]
      exact h.workers j
  ended := by
    intro j hend
    by_cases hj : j = i
    · subst hj
      rw [set_workers_self] at hend
      exact h.ended j (hending hend)
    · rw [set_workers_ne P hj] at hend
      exact h.ended j hend

/-- A worker that comes to the channel or leaves it: it alone changes, and no lock is held twice. -/
theorem Ok.at_channel (h : P.Ok D) {i : Fin n} {w : Worker} (hw : w.Ok D)
    {channel : Channel WebhookEvent} {lock : Option (Fin n)} {picked : List (Fin n × WebhookEvent)}
    (hchannel : channel.Sound) (htaken : picked.map Prod.snd = channel.taken)
    (hmine : (picked.filter fun p => p.1 = i).map Prod.snd = w.events)
    (hothers : ∀ j, j ≠ i → picked.filter (fun p => p.1 = j) = P.picked.filter fun p => p.1 = j)
    (hlock : ∀ j, lock = some j ↔ j = i ∧ w.stage = .receiving)
    (hfree : ∀ j, j ≠ i → (P.workers j).stage ≠ .receiving)
    (hended : ∀ j, ((P.set i w).workers j).Ending → channel.buffer = [] ∧ channel.senders = false) :
    DispatchPool.Ok D { P.set i w with channel := channel, lock := lock, picked := picked } where
  channel := hchannel
  taken := htaken
  share := by
    intro j
    by_cases hj : j = i
    · subst hj
      show (picked.filter fun p => p.1 = j).map Prod.snd = ((P.set j w).workers j).events
      rw [set_workers_self]
      exact hmine
    · show (picked.filter fun p => p.1 = j).map Prod.snd = ((P.set i w).workers j).events
      rw [set_workers_ne P hj, hothers j hj]
      exact h.share j
  holder := by
    intro j
    show lock = some j ↔ ((P.set i w).workers j).stage = .receiving
    rw [hlock j]
    by_cases hj : j = i
    · subst hj
      rw [set_workers_self]
      simp
    · rw [set_workers_ne P hj]
      exact iff_of_false (fun hi => hj hi.1) (hfree j hj)
  workers := by
    intro j
    show ((P.set i w).workers j).Ok D
    by_cases hj : j = i
    · subst hj
      rw [set_workers_self]
      exact hw
    · rw [set_workers_ne P hj]
      exact h.workers j
  ended := hended

/-- A move of a worker. -/
theorem Ok.worker_turn (h : P.Ok D) {i : Fin n} {answer : WorkerAnswer}
    (ht : P.worker_turn D i answer = some P') : P'.Ok D := by
  -- Who else could be at the channel is known from the lock.
  have hothers : ∀ j, P.lock = some i → j ≠ i → (P.workers j).stage ≠ .receiving := by
    intro j hlock hj hreceiving
    have hheld := (h.holder j).mpr hreceiving
    rw [hlock] at hheld
    exact hj (Option.some.inj hheld).symm
  rcases worker_turn_cases ht with ⟨hstage, hfree, rfl⟩ | ⟨event, rest, hstage, hrecv, rfl⟩ |
    ⟨hstage, hrecv, rfl⟩ | ⟨-, hreceiving, w, hw, rfl⟩
  · have hclient : (P.workers i).client = true := by
      have hok := (h.workers i).stage
      unfold Worker.StageOk at hok
      rwa [hstage] at hok
    have hidle : (P.workers i).in_hand = [] := by simp [Worker.in_hand, hstage]
    have hw : ((P.workers i).goto .receiving).Ok D :=
      (h.workers i).goto (by rw [hidle]; rfl) hclient
    refine h.at_channel hw h.channel h.taken ?_
      (fun _ _ => rfl) (fun j => ?_) (fun j _ hj => ?_) (fun j hend => ?_)
    · refine (h.share i).trans ?_
      simp [Worker.events, Worker.in_hand, hstage]
    · simp [eq_comm]
    · have hheld := (h.holder j).mpr hj
      rw [hfree] at hheld
      cases hheld
    · by_cases hj : j = i
      · subst hj
        rw [set_workers_self] at hend
        exact absurd hend (Worker.not_ending (by simp) (by simp))
      · rw [set_workers_ne P hj] at hend
        exact h.ended j hend
  · obtain ⟨hok, hevents, haway, hnot⟩ := (h.workers i).pick hstage event
    have hlock := (h.holder i).mpr hstage
    obtain ⟨hbuffer, hrest⟩ := Channel.recv_message hrecv
    refine h.at_channel hok (h.channel.recv hrecv) ?_ ?_ (fun j hj => ?_) (fun j => ?_)
      (fun j => hothers j hlock) (fun j hend => ?_)
    · rw [List.map_append, h.taken, hrest]
      rfl
    · rw [List.filter_append, List.map_append, hevents, ← h.share i]
      simp [picked_by]
    · rw [List.filter_append]
      simp [Ne.symm hj]
    · simp [haway]
    · by_cases hj : j = i
      · subst hj
        rw [set_workers_self] at hend
        exact absurd hend hnot
      · -- Nobody runs down while something waits in the channel.
        rw [set_workers_ne P hj] at hend
        have hempty := (h.ended j hend).1
        rw [hbuffer] at hempty
        cases hempty
  · have hlock := (h.holder i).mpr hstage
    obtain ⟨hbuffer, hsenders⟩ := Channel.recv_closed.mp hrecv
    have hclient : (P.workers i).client = true := by
      have hok := (h.workers i).stage
      unfold Worker.StageOk at hok
      rwa [hstage] at hok
    have hidle : (P.workers i).in_hand = [] := by simp [Worker.in_hand, hstage]
    have hw : ((P.workers i).goto .draining).Ok D :=
      (h.workers i).goto (by rw [hidle]; rfl) hclient
    refine h.at_channel hw h.channel h.taken ?_
      (fun _ _ => rfl) (fun j => ?_) (fun j => hothers j hlock) (fun j _ => ⟨hbuffer, hsenders⟩)
    · refine (h.share i).trans ?_
      simp [Worker.events, Worker.in_hand, hstage]
    · simp
  · have hkept := (h.workers i).turn hw
    exact h.set hkept.ok hkept.events (iff_of_false hkept.away hreceiving) hkept.ending

/-- **One move keeps the books.** -/
theorem Ok.step (h : P.Ok D) (t : PoolTurn n) : (step D t P).2.Ok D := by
  cases t with
  | enqueue event =>
      refine ⟨h.channel.try_send event, ?_, h.share, h.holder, h.workers, fun i hend => ?_⟩
      · show P.picked.map Prod.snd = (P.channel.try_send event).taken
        rw [Channel.taken_try_send]
        exact h.taken
      · obtain ⟨hbuffer, hsenders⟩ := h.ended i hend
        show (P.channel.try_send event).buffer = [] ∧ (P.channel.try_send event).senders = false
        rw [Channel.try_send_of_closed hsenders]
        exact ⟨hbuffer, hsenders⟩
  | drop_senders =>
      exact ⟨h.channel.drop_senders, h.taken, h.share, h.holder, h.workers,
        fun i hend => ⟨(h.ended i hend).1, rfl⟩⟩
  | worker i answer =>
      show ((P.worker_turn D i answer).getD P).Ok D
      cases ht : P.worker_turn D i answer with
      | none => exact h
      | some P' => exact h.worker_turn ht
  | task i k answer =>
      obtain ⟨hok, hevents, hstage, hclient⟩ := (h.workers i).task_turn k answer
      refine h.set hok hevents (by rw [hstage]) fun hend => ?_
      unfold Worker.Ending at hend ⊢
      rwa [hstage, hclient] at hend
  | returned =>
      show (if _ then _ else P : DispatchPool n).Ok D
      split
      · exact ⟨h.channel.drop_receiver, h.taken, h.share, h.holder, h.workers, h.ended⟩
      · exact h

/-- **The books of every run.** -/
theorem ok_run (D : Dispatcher) (capacity : Nat) (run : List (PoolTurn n)) :
    (final (step D) run (start n capacity)).Ok D :=
  (Along.of_forall (P := fun _ _ => True) run _ fun _ _ _ => trivial).keeps
    (I := fun P : DispatchPool n => P.Ok D) (ok_start D capacity) fun t _ _ hP => hP.step t

/-! ## What the books say -/

/-- The events a run asks the channel to take in. -/
def enqueued : List (PoolTurn n) → List WebhookEvent :=
  List.filterMap fun
    | .enqueue event => some event
    | _ => none

/-- A move takes in what it enqueues, or nothing, and the room stays what it is. -/
theorem channel_step (D : Dispatcher) (t : PoolTurn n) (P : DispatchPool n) :
    (step D t P).2.channel.capacity = P.channel.capacity ∧
      ∃ new : List WebhookEvent, (step D t P).2.channel.accepted = P.channel.accepted ++ new ∧
        new.Sublist (enqueued [t]) := by
  have hnone : ∀ Q : DispatchPool n, Q.channel.accepted = P.channel.accepted →
      ∃ new : List WebhookEvent, Q.channel.accepted = P.channel.accepted ++ new ∧
        new.Sublist (enqueued [t]) :=
    fun Q hQ => ⟨[], hQ.trans (List.append_nil _).symm, List.nil_sublist _⟩
  cases t with
  | enqueue event =>
      refine ⟨Channel.capacity_try_send _ _, ?_⟩
      show ∃ new, (P.channel.try_send event).accepted = _ ∧ List.Sublist new [event]
      unfold Channel.try_send
      split
      · exact ⟨[event], rfl, List.Sublist.refl _⟩
      · exact ⟨[], (List.append_nil _).symm, List.nil_sublist _⟩
  | drop_senders => exact ⟨rfl, hnone _ rfl⟩
  | worker i answer =>
      show ((P.worker_turn D i answer).getD P).channel.capacity = _ ∧
        ∃ new, ((P.worker_turn D i answer).getD P).channel.accepted = _ ∧ _
      cases ht : P.worker_turn D i answer with
      | none => exact ⟨rfl, hnone P rfl⟩
      | some P' =>
          rcases worker_turn_cases ht with ⟨-, -, rfl⟩ | ⟨event, rest, -, hrecv, rfl⟩ |
            ⟨-, -, rfl⟩ | ⟨-, -, w, -, rfl⟩
          · exact ⟨rfl, hnone _ rfl⟩
          · have hrest := (Channel.recv_message hrecv).2
            have hroom : rest.capacity = P.channel.capacity := by rw [hrest]
            have hsent : rest.accepted = P.channel.accepted := by rw [hrest]
            exact ⟨hroom, hnone _ hsent⟩
          · exact ⟨rfl, hnone _ rfl⟩
          · exact ⟨rfl, hnone _ rfl⟩
  | task i k answer => exact ⟨rfl, hnone _ rfl⟩
  | returned =>
      simp only [step]
      split
      · exact ⟨rfl, hnone _ rfl⟩
      · exact ⟨rfl, hnone _ rfl⟩

/-- Nothing is taken in that was not sent, and nothing out of order. -/
theorem channel_run (D : Dispatcher) (run : List (PoolTurn n)) (P : DispatchPool n) :
    (final (step D) run P).channel.capacity = P.channel.capacity ∧
      ∃ new : List WebhookEvent,
        (final (step D) run P).channel.accepted = P.channel.accepted ++ new ∧
          new.Sublist (enqueued run) := by
  induction run generalizing P with
  | nil => exact ⟨rfl, [], (List.append_nil _).symm, List.nil_sublist _⟩
  | cons t run ih =>
      obtain ⟨hcapacity, first, hfirst, hsub⟩ := channel_step D t P
      obtain ⟨hcapacity', later, hlater, hsub'⟩ := ih (step D t P).2
      refine ⟨hcapacity'.trans hcapacity, first ++ later, ?_, ?_⟩
      · rw [final_cons, hlater, hfirst, List.append_assoc]
      · have hsplit : enqueued (t :: run) = enqueued [t] ++ enqueued run := by
          rw [← List.singleton_append]
          exact List.filterMap_append
        rw [hsplit]
        exact hsub.append hsub'

end DispatchPool

/-- **No event is lost, doubled or overtaken.** In every order of moves, the events the channel took in
are, in the order in which they were sent, those the workers picked up followed by those that wait; each
of the former is in the books of exactly the worker that picked it up; and no more wait than there is
room for. -/
theorem events_conserved {n : Nat} (D : Dispatcher) (capacity : Nat) (run : List (PoolTurn n)) :
    let P := final (DispatchPool.step D) run (.start n capacity)
    P.channel.accepted.Sublist (DispatchPool.enqueued run) ∧
      P.channel.accepted = P.picked.map Prod.snd ++ P.channel.buffer ∧
      (∀ i, P.picked_by i = (P.workers i).events) ∧ P.channel.buffer.length ≤ capacity := by
  intro P
  have hP : P.Ok D := DispatchPool.ok_run D capacity run
  obtain ⟨hcapacity, new, hnew, hsub⟩ := DispatchPool.channel_run D run (.start n capacity)
  refine ⟨?_, ?_, hP.share, ?_⟩
  · have hsent : P.channel.accepted = new := hnew
    rw [hsent]
    exact hsub
  · rw [hP.taken]
    exact hP.channel.balanced
  · have hroom : P.channel.capacity = capacity := hcapacity
    rw [← hroom]
    exact hP.channel.bounded

/-- **Each event is delivered where it should be, and nowhere else.** What a worker has spawned is, event
by event and in order, one delivery for each webhook that is told of the event and for which a request
can be made; for an event it is through with, the webhooks looked at are all the active ones of the
event's group in the store they were read from; and no delivery under way is any other. -/
theorem deliveries_exact {n : Nat} (D : Dispatcher) (capacity : Nat) (run : List (PoolTurn n))
    (i : Fin n) :
    let w := (final (DispatchPool.step D) run (.start n capacity)).workers i
    w.spawned = (w.handled ++ w.in_hand).flatMap (Handled.deliveries D) ∧
      (∀ h ∈ w.handled, h.Complete) ∧
      ∀ t ∈ w.join_set, ∃ s ∈ w.spawned,
        t.prepared = s.prepared ∧ t.ctx = dispatch_context s.config s.event := by
  intro w
  have hw : w.Ok D := (DispatchPool.ok_run D capacity run).workers i
  exact ⟨hw.fan_out, hw.complete, hw.tasks⟩

/-- If they were all looked at in one instant, they are the deliveries of `dispatch_worker`. -/
theorem Handled.deliveries_eq_dispatch_worker (D : Dispatcher) {h : Handled} {store : World} {now : Int}
    (hcomplete : h.Complete) (hstore : h.store = some store) (hnow : ∀ seen ∈ h.looked, seen.2 = now) :
    (h.deliveries D).map (fun s => (s.config, s.prepared)) =
      dispatch_worker D.env D.http h.event now store := by
  unfold Handled.Complete at hcomplete
  rw [hstore] at hcomplete
  obtain ⟨gid, hgid, hrows⟩ := hcomplete
  have hlooked : h.looked = (store.watching gid).map fun config => (config, now) := by
    rw [← hrows, List.map_map]
    refine (List.map_id _).symm.trans (List.map_congr_left fun seen hseen => ?_)
    exact Prod.ext rfl (hnow seen hseen)
  unfold Handled.deliveries dispatch_worker
  rw [hgid, hlooked]
  show List.map _ (List.filterMap _ _) =
    ((store.watching gid).filter fun config => config.subscribed h.event.action).filterMap _
  rw [List.filterMap_map, List.map_filterMap, List.filterMap_filter]
  refine List.filterMap_congr fun config _ => ?_
  simp only [Function.comp_apply]
  cases hsub : config.subscribed h.event.action with
  | false => rfl
  | true =>
      cases prepare_dispatch D.env D.http config h.event now with
      | error e => rfl
      | ok prepared => rfl

/-- **The pool is bounded.** Whatever is sent, no worker has more than `MAX_INFLIGHT` deliveries, and no
two of them are at the receiving end of the channel. -/
theorem inflight_bounded {n : Nat} (D : Dispatcher) (capacity : Nat) (run : List (PoolTurn n)) :
    let P := final (DispatchPool.step D) run (.start n capacity)
    (∀ i, (P.workers i).join_set.length ≤ MAX_INFLIGHT) ∧
      (∑ i, (P.workers i).join_set.length) ≤ n * MAX_INFLIGHT ∧
      ∀ i j, (P.workers i).stage = .receiving → (P.workers j).stage = .receiving → i = j := by
  intro P
  have hP : P.Ok D := DispatchPool.ok_run D capacity run
  have hbounded : ∀ i, (P.workers i).join_set.length ≤ MAX_INFLIGHT := fun i => (hP.workers i).bounded
  refine ⟨hbounded, ?_, fun i j hi hj => ?_⟩
  · calc (∑ i, (P.workers i).join_set.length)
        ≤ ∑ _i : Fin n, MAX_INFLIGHT := Finset.sum_le_sum fun i _ => hbounded i
      _ = n * MAX_INFLIGHT := by simp
  · have hlock := (hP.holder i).mpr hi
    rw [(hP.holder j).mpr hj] at hlock
    exact (Option.some.inj hlock).symm

/-- **A shutdown leaves nothing behind.** Once all workers have stopped, and one of them had its client,
every event the channel ever took in was picked up and dealt with, and no delivery is under way. -/
theorem shutdown_complete {n : Nat} (D : Dispatcher) (capacity : Nat) (run : List (PoolTurn n))
    (hstopped : ∀ i, ((final (DispatchPool.step D) run (.start n capacity)).workers i).stage = .stopped)
    (hclient : ∃ i, ((final (DispatchPool.step D) run (.start n capacity)).workers i).client = true) :
    let P := final (DispatchPool.step D) run (.start n capacity)
    P.channel.accepted = P.picked.map Prod.snd ∧
      ∀ i, (P.workers i).join_set = [] ∧ P.picked_by i = (P.workers i).handled.map Handled.event ∧
        (P.workers i).spawned = (P.workers i).handled.flatMap (Handled.deliveries D) := by
  intro P
  have hP : P.Ok D := DispatchPool.ok_run D capacity run
  obtain ⟨i, hi⟩ := hclient
  have hempty : P.channel.buffer = [] := (hP.ended i ⟨.inr (hstopped i), hi⟩).1
  refine ⟨?_, fun i => ?_⟩
  · rw [hP.channel.balanced, hempty, List.append_nil]
    exact hP.taken.symm
  · have hstage : (P.workers i).stage = .stopped := hstopped i
    have hidle : (P.workers i).in_hand = [] := by simp [Worker.in_hand, hstage]
    refine ⟨?_, ?_, ?_⟩
    · have hok := (hP.workers i).stage
      unfold Worker.StageOk at hok
      rwa [hstage] at hok
    · rw [hP.share i, Worker.events, hidle, List.append_nil]
    · rw [(hP.workers i).fan_out, hidle, List.append_nil]

/-- A pool that sends to private targets and does not pause. -/
def Dispatcher.sample : Dispatcher := ⟨Service.sample_siem.env, .sample, 0, 3, 1000⟩

/-- The worker has stopped. -/
def WorkerStage.is_stopped : WorkerStage → Bool
  | .stopped => true
  | _ => false

/-- One event is enqueued, picked up and delivered, and the service goes down. -/
def one_delivery : List (PoolTurn 1) :=
  let store : World := (Service.sample_siem.handle .exports .webhook_manager).2.toWorld
  let answer : WorkerAnswer := ⟨true, some store, 9, 0⟩
  let receiver : TaskAnswer := ⟨fun _ => none, true, ⟨.Success 204, none, 5, 9, 9⟩⟩
  [.enqueue .sample] ++ List.replicate 6 (.worker 0 answer) ++ [.task 0 0 receiver, .task 0 0 receiver] ++
    List.replicate 3 (.worker 0 answer) ++ [.drop_senders] ++ List.replicate 2 (.worker 0 answer)

theorem one_delivery_complete :
    let P := final (DispatchPool.step .sample) one_delivery (.start 1 8)
    P.channel.accepted = P.picked.map Prod.snd ∧
      (∀ i, (P.workers i).join_set = [] ∧ P.picked_by i = (P.workers i).handled.map Handled.event ∧
        (P.workers i).spawned = (P.workers i).handled.flatMap (Handled.deliveries .sample)) ∧
      (P.workers 0).spawned.length = 1 := by
  have hdown : ((final (DispatchPool.step .sample) one_delivery (.start 1 8)).workers 0).stage.is_stopped =
      true := by decide +kernel
  have hstopped : ∀ i, ((final (DispatchPool.step .sample) one_delivery (.start 1 8)).workers i).stage =
      .stopped := by
    intro i
    obtain rfl : i = 0 := Subsingleton.elim i 0
    revert hdown
    generalize ((final (DispatchPool.step .sample) one_delivery (.start 1 8)).workers 0).stage = stage
    cases stage <;> simp [WorkerStage.is_stopped]
  have h := shutdown_complete .sample 8 one_delivery hstopped ⟨0, by decide +kernel⟩
  exact ⟨h.1, h.2, by decide +kernel⟩

end IpVault
