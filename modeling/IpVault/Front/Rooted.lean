import IpVault.Front.Server
import IpVault.Webhooks.Outbox

set_option autoImplicit false

/-! # Every POST goes back to a signed request

What the process sends is followed back through the pool, the channel, the handler and the middleware:
to a webhook that was in the store when a worker read it, and to an event that a request put into the
channel, whose key may have that group told.
-/

namespace IpVault

open Lib

/-! ## One request -/

/-- A step of the daemon is at most one entry of the log. -/
theorem Frontend.logged_cases (F : Frontend) (e : Daemon.Event) (d : Daemon) :
    F.logged e d = [] ∨ ∃ l, F.logged e d = [l] := by
  have hpassed : ∀ x c, F.passed x d c = [] ∨ ∃ l, F.passed x d c = [l] := by
    intro x c
    unfold Frontend.passed
    split
    · exact .inl rfl
    · split
      · exact .inr ⟨_, rfl⟩
      · exact .inl rfl
  unfold Frontend.logged
  split
  · exact .inr ⟨_, rfl⟩
  · split
    · split
      · exact hpassed _ _
      · exact .inl rfl
    · exact .inl rfl

/-- The request and its caller, as the handler has them. -/
def Frontend.ctx_of (F : Frontend) (pinned : Uuid) (x : Incoming) (v : Verified) (c : Call) : Ctx :=
  (⟨F.env, pinned⟩ : Service).ctx (F.request x v.key c) v.key

/-- **What a request puts into the queue** its key may have told. -/
theorem Frontend.step_queues {F : Frontend} {d : Daemon} {pinned : Uuid}
    (hpin : d.gate.master_pin = ⟨some pinned⟩) (x : Incoming) :
    Queued (fun event => ∃ v c, x.Vouched F v d.store.toWorld ∧ x.Asks F c ∧
      Entitled (F.ctx_of pinned x v c) d.store.toWorld event) d.store
        (F.step (.incoming x) d).2.store := by
  obtain ⟨hstore, hauthentic, -⟩ := Frontend.step_refines hpin (List.mem_singleton_self (.incoming x))
  rw [hstore]
  rcases F.logged_cases (.incoming x) d with hnone | ⟨l, hone⟩
  · rw [hnone]
    exact Queued.refl _ _
  · rw [hone] at hauthentic ⊢
    rcases hauthentic.1 with ⟨now, hsweep, -⟩ | ⟨x', v, c, hx, hvouched, hasks, rfl⟩
    · cases List.mem_singleton.mp hsweep
    · obtain rfl := Daemon.Event.incoming.inj (List.mem_singleton.mp hx)
      have hkey : d.store.keys.find? (F.request x' v.key c).key_id = some v.key :=
        Table.find?_key hvouched.key
      obtain ⟨sent, hqueue, hsent⟩ : Queued (Entitled (F.ctx_of pinned x' v c) d.store.toWorld) d.store
          ((⟨F.env, pinned⟩ : Service).handle (F.request x' v.key c) d.store).2 :=
        Service.handle_queues hkey
      exact ⟨sent, hqueue, fun e he => ⟨v, c, hvouched, hasks, hsent e he⟩⟩

namespace Site

variable {n : Nat} {S : Site}

/-- The process has pinned its master. -/
def Pinned (pinned : Uuid) (s : Server n) : Prop := s.gate.master_pin = ⟨some pinned⟩

theorem pinned_step {pinned : Uuid} {s : Server n} (h : Pinned pinned s) (e : Server.Event n) :
    Pinned pinned (S.step e s).2 := by
  cases e with
  | incoming x =>
      have hpin : (daemon s).gate.master_pin = ⟨some pinned⟩ := h
      exact (Frontend.step_refines hpin (List.mem_singleton_self (.incoming x))).2.2
  | _ => exact h

/-- The tables beside the channel are those of the store. -/
theorem vouched_of_beside {F : Frontend} {x : Incoming} {v : Verified} {s : Server n}
    (h : x.Vouched F v (daemon s).store.toWorld) : x.Vouched F v s.store.toWorld :=
  ⟨h.key, h.api_key, h.timestamp, h.body, h.signature, h.network⟩

/-- **Where an event comes from**: a request put it into the channel, signed with a key of the store it
met, which may have the group told. -/
structure Origin (S : Site) (pinned : Uuid) (x : Incoming) (s : Server n) (event : WebhookEvent) :
    Prop where
  sent : event ∈ S.sent x s
  vouched : ∃ v c, x.Vouched S.frontend v s.store.toWorld ∧ x.Asks S.frontend c ∧
    Entitled (S.frontend.ctx_of pinned x v c) s.store.toWorld event

/-- Every event that was sent has one. -/
theorem origin_of_sent {pinned : Uuid} {s : Server n} (h : Pinned pinned s) {x : Incoming}
    {event : WebhookEvent} (he : event ∈ S.sent x s) : Origin S pinned x s event := by
  have hpin : (daemon s).gate.master_pin = ⟨some pinned⟩ := h
  obtain ⟨sent, hqueue, hsent⟩ := Frontend.step_queues (F := S.frontend) hpin x
  have hnew : S.sent x s = sent := by
    unfold Site.sent
    rw [hqueue]
    exact List.drop_left
  rw [hnew] at he
  obtain ⟨v, c, hvouched, hasks, hentitled⟩ := hsent event he
  exact ⟨hnew ▸ he, v, c, vouched_of_beside hvouched, hasks, hentitled⟩

/-! ## A run -/

/-- The pool of the process goes the way its turns take it. -/
theorem pool_step (e : Server.Event n) (s : Server n) :
    (S.step e s).2.pool = final (DispatchPool.step S.dispatcher) (S.turns e s) s.pool := rfl

/-- What the process has done to the world outside, its pool has done. -/
theorem outputs_pool (run : List (Server.Event n)) (s : Server n) :
    (outputs S.step run s).flatten =
      (outputs (DispatchPool.step S.dispatcher) (collect S.step S.turns run s) s.pool).flatten :=
  outputs_collect Server.pool pool_step (fun _ _ => rfl) run s

/-- An event enqueued in the pool was sent by a request of the run. -/
theorem sent_of_enqueued {run : List (Server.Event n)} {s : Server n} {event : WebhookEvent}
    (h : event ∈ DispatchPool.enqueued (collect S.step S.turns run s)) :
    ∃ x t, Met S.step run s (.incoming x) t ∧ event ∈ S.sent x t := by
  obtain ⟨turn, hturn, hevent⟩ := List.mem_filterMap.mp h
  obtain ⟨e, t, hmet, hturn⟩ := mem_collect hturn
  cases e with
  | incoming x =>
      obtain ⟨event', hsent, rfl⟩ := List.mem_map.mp hturn
      obtain rfl := Option.some.inj hevent
      exact ⟨x, t, hmet, hsent⟩
  | sweep now => exact absurd hturn List.not_mem_nil
  | sweep_executions now is_success => exact absurd hturn List.not_mem_nil
  | worker i client_built reads now joined =>
      obtain rfl := List.mem_singleton.mp hturn
      cases hevent
  | task i k answer =>
      obtain rfl := List.mem_singleton.mp hturn
      cases hevent
  | drop_senders =>
      obtain rfl := List.mem_singleton.mp hturn
      cases hevent
  | returned =>
      obtain rfl := List.mem_singleton.mp hturn
      cases hevent

/-- What a worker of the pool has read is the store of the process. -/
theorem read_of_worker {run : List (Server.Event n)} {s : Server n} {i : Fin n} {answer : WorkerAnswer}
    {store : World} (h : PoolTurn.worker i answer ∈ collect S.step S.turns run s)
    (hstore : answer.store = some store) :
    ∃ client_built now joined t, Met S.step run s (.worker i client_built true now joined) t ∧
      store = t.store.toWorld := by
  obtain ⟨e, t, hmet, hturn⟩ := mem_collect h
  cases e with
  | incoming x =>
      obtain ⟨event, -, hne⟩ := List.mem_map.mp hturn
      cases hne
  | sweep now => exact absurd hturn List.not_mem_nil
  | sweep_executions now is_success => exact absurd hturn List.not_mem_nil
  | worker j client_built reads now joined =>
      obtain ⟨rfl, rfl⟩ := PoolTurn.worker.inj (List.mem_singleton.mp hturn)
      cases reads with
      | false => cases hstore
      | true => exact ⟨client_built, now, joined, t, hmet, (Option.some.inj hstore).symm⟩
  | task j k answer => cases List.mem_singleton.mp hturn
  | drop_senders => cases List.mem_singleton.mp hturn
  | returned => cases List.mem_singleton.mp hturn

/-- What a delivery was answered, it was answered in the run. -/
theorem answer_of_task {run : List (Server.Event n)} {s : Server n} {i : Fin n} {k : Nat}
    {answer : TaskAnswer} (h : PoolTurn.task i k answer ∈ collect S.step S.turns run s) :
    .task i k answer ∈ run := by
  obtain ⟨e, t, hmet, hturn⟩ := mem_collect h
  cases e with
  | incoming x =>
      obtain ⟨event, -, hne⟩ := List.mem_map.mp hturn
      cases hne
  | sweep now => exact absurd hturn List.not_mem_nil
  | sweep_executions now is_success => exact absurd hturn List.not_mem_nil
  | worker j client_built reads now joined => cases List.mem_singleton.mp hturn
  | task j k' answer' =>
      obtain ⟨rfl, rfl, rfl⟩ := PoolTurn.task.inj (List.mem_singleton.mp hturn)
      exact hmet.mem
  | drop_senders => cases List.mem_singleton.mp hturn
  | returned => cases List.mem_singleton.mp hturn

/-- What the pool posts is sourced in its turns. -/
theorem sourced_posts {D : Dispatcher} {capacity : Nat} {turns : List (PoolTurn n)}
    (effects : List DispatchEffect)
    (h : effects ∈ outputs (DispatchPool.step D) turns (.start n capacity)) {target_url payload : String}
    {headers : DispatchHeaders} (hpost : .post target_url headers payload ∈ effects) :
    CalledFor D turns ⟨target_url, headers, payload⟩ ∧ Screened D turns target_url := by
  have halong : Along (DispatchPool.step D) (fun t _ => t ∈ turns) turns (.start n capacity) := .of_mem _ _
  have hposts : ∀ effects ∈ outputs (DispatchPool.step D) turns (.start n capacity),
      ∀ target_url headers payload, DispatchEffect.post target_url headers payload ∈ effects →
        CalledFor D turns ⟨target_url, headers, payload⟩ ∧ Screened D turns target_url :=
    halong.outputs (I := fun P : DispatchPool n => P.Sourced D turns)
      (DispatchPool.sourced_start D turns capacity) (fun t P ht hP => hP.step ht)
      fun t P _ hP target_url headers payload hpost => hP.posts t hpost
  exact hposts effects h _ _ _ hpost

/-- **Where a POST comes from.** An event with an origin in the run; a webhook of its group that was
active, and told of it, in the store a worker has read; the request `prepare_dispatch` makes of the two;
and an answer of the resolver that passed the screen. -/
structure Rooted (S : Site) (pinned : Uuid) (run : List (Server.Event n)) (start : Server n)
    (prepared : PreparedDispatch) : Prop where
  root : ∃ (event : WebhookEvent) (config : WebhookConfig) (now : Int),
    (∃ x s, Met S.step run start (.incoming x) s ∧ Origin S pinned x s event) ∧
    (∃ i client_built at_ joined s, Met S.step run start (.worker i client_built true at_ joined) s ∧
      config ∈ s.store.webhooks) ∧
    config.is_active = true ∧ event.group_id = some config.group_id ∧
    config.subscribed event.action = true ∧
    prepare_dispatch S.frontend.env S.http config event now = .ok prepared
  screened : ∃ i k answer, .task i k answer ∈ run ∧
    is_url_safe S.frontend.env answer.lookup_host prepared.target_url answer.allow_private = true

end Site

/-- **Every POST is rooted in a signed request.** Whatever comes in and in whatever order the workers,
the deliveries and the sweeps move: each POST that leaves the process is the one `prepare_dispatch` makes
of an event that a request of the run has sent, signed with a key of the store it met which may have the
group of the event told, for a webhook of that group that was active and subscribed when it was read; and
its target has passed the screen. -/
theorem every_post_rooted (S : Site) (n capacity : Nat) (v : Vault) (boot : Int) (pinned : Uuid)
    (run : List (Server.Event n)) :
    let start := Site.start n capacity v boot pinned
    ∀ target_url headers payload,
      DispatchEffect.post target_url headers payload ∈ (outputs S.step run start).flatten →
        Site.Rooted S pinned run start ⟨target_url, headers, payload⟩ := by
  intro start target_url headers payload hpost
  rw [Site.outputs_pool] at hpost
  obtain ⟨effects, heffects, hpost⟩ := List.mem_flatten.mp hpost
  have hpool : start.pool = .start n capacity := rfl
  rw [hpool] at heffects
  obtain ⟨hcalled, hscreened⟩ := Site.sourced_posts effects heffects hpost
  obtain ⟨event, hevent, i, answer, store, config, now, hworker, hstore, hmem, hactive, hgroup, hsub,
    hprepared⟩ := hcalled
  obtain ⟨j, k, task_answer, htask, hsafe⟩ := hscreened
  have hpinned : Along S.step (fun _ s => Site.Pinned pinned s) run start := by
    have htrivial : Along S.step (fun _ _ => True) run start := .of_forall run start fun _ _ _ => trivial
    exact htrivial.shows (I := Site.Pinned pinned) rfl (fun e s _ hs => Site.pinned_step hs e)
      fun _ _ _ hs => hs
  obtain ⟨x, s, hmet, hsent⟩ := Site.sent_of_enqueued hevent
  obtain ⟨client_built, at_, joined, t, hread, rfl⟩ := Site.read_of_worker hworker hstore
  exact ⟨⟨event, config, now, ⟨x, s, hmet, Site.origin_of_sent (hpinned.met hmet) hsent⟩,
    ⟨i, client_built, at_, joined, t, hread, hmem⟩, hactive, hgroup, hsub, hprepared⟩,
    j, k, task_answer, Site.answer_of_task htask, hsafe⟩

end IpVault
