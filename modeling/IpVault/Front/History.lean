import IpVault.Front.Rooted

set_option autoImplicit false

/-! # The history of deliveries

Every row of `webhook_executions` tells of a POST that was made, with the answer it got, or of a test.
Rows go when they are old enough, each outcome in its own time, and when somebody who may deletes them,
their webhook or its group, by itself or with a key.
-/

namespace IpVault

open Lib

/-! ## Statements -/

/-- The statements that delete rows of the history. -/
def Stmt.drops_history : Stmt → Bool
  | .delete_execution _ | .delete_webhook _ | .delete_group _ => true
  | _ => false

/-- The statements that write one. -/
def Stmt.records_execution : Stmt → Bool
  | .insert_execution _ => true
  | _ => false

/-- The other statements leave the history as it is. -/
theorem executions_after {l : Stmt} (hdrops : l.drops_history = false)
    (hrecords : l.records_execution = false) (w : World) : (l.after w).executions = w.executions := by
  refine Stmt.after_of_keeps (R := fun w w' => w'.executions = w.executions) (fun w a w' ht => ?_)
    (fun _ => rfl) w
  cases l with
  | upsert_txn t => exact (t.only_records w a w' ht).executions
  | delete_ip_txn t => exact (t.only_records w a w' ht).executions
  | batch_txn t => exact (t.only_records w a w' ht).executions
  | insert_execution row => cases hrecords
  | delete_execution id => cases hdrops
  | delete_webhook id => cases hdrops
  | delete_group id => cases hdrops
  | _ =>
      simp only [Stmt.txn, Txn.read, Txn.insert_key, Txn.update_key, Txn.delete_keys,
        Txn.insert_permission, Txn.insert_permission_or_ignore, Txn.upsert_permission,
        Txn.delete_permission, Txn.insert_group, Txn.insert_group_or_ignore,
        Txn.set_group_owner, Txn.update_record, Txn.delete_record, Txn.purge,
        Txn.delete_records_where, Txn.insert_webhook, Txn.update_webhook, Txn.set_webhook_owner,
        Txn.insert_audit, Txn.enqueue, Txn.db_error] at ht
      repeat' split at ht
      all_goals first | cases ht; done | skip
      all_goals
        cases ht
        rfl

/-- The row of an attempt is inserted if its webhook is there. -/
theorem insert_execution_after (row : WebhookExecution) (w : World) :
    ((Stmt.insert_execution row).after w).executions =
      if w.webhooks.has row.webhook_id then w.executions.insert { row with id := w.next_uuid }
      else w.executions := by
  unfold Stmt.after
  simp only [Stmt.txn, Txn.insert_execution, Txn.db_error]
  cases w.webhooks.has row.webhook_id <;> rfl

/-- A row after an insertion. -/
theorem mem_after_insert {row r : WebhookExecution} {w : World}
    (h : r ∈ ((Stmt.insert_execution row).after w).executions) :
    r ∈ w.executions ∨ ∃ id, r = { row with id } := by
  rw [insert_execution_after] at h
  split at h
  · exact (Table.mem_of_mem_insert h).imp_right fun hr => ⟨_, hr⟩
  · exact .inl h

/-- The rows that were there are still there. -/
theorem mem_insert_of_mem {row r : WebhookExecution} {w : World} (h : r ∈ w.executions) :
    r ∈ ((Stmt.insert_execution row).after w).executions := by
  rw [insert_execution_after]
  split
  · exact Table.mem_insert_of_mem h
  · exact h

/-- A deletion brings no row. -/
theorem mem_of_drops {l : Stmt} (h : l.drops_history = true) {r : WebhookExecution} {w : World}
    (hr : r ∈ (l.after w).executions) : r ∈ w.executions := by
  cases l with
  | delete_execution id => exact (Table.mem_filter.mp hr).1
  | delete_webhook id => exact (Table.mem_filter.mp hr).1
  | delete_group id => exact (Table.mem_filter.mp hr).1
  | _ => cases h

/-- If its webhook is there, the new row is. -/
theorem mem_insert_self {row : WebhookExecution} {v : Vault} (h : v.webhooks.has row.webhook_id = true) :
    ∃ id, { row with id } ∈ (v.after (.insert_execution row)).executions := by
  have hfresh : v.executions.has v.next_uuid = false :=
    Table.has_eq_false.mpr fun r hr => (v.wf.execution_fresh r hr).ne
  refine ⟨v.next_uuid, ?_⟩
  rw [Vault.after_toWorld, insert_execution_after, if_pos h]
  exact Table.mem_insert.mpr (.inr ⟨hfresh, rfl⟩)

/-! ## Requests -/

/-- The endpoints that may delete rows of the history. -/
def Call.drops_history : Call → Bool
  | .delete_webhook_execution _ | .delete_webhook _ | .delete_ip_group _ | .delete_api_key _ _ => true
  | _ => false

/-- The call asks for the deletion of the row: of the row itself, of its webhook or of the group of its
webhook. With a key, its map names the webhook or the group. -/
def Call.Drops (call : Call) (w : World) (r : WebhookExecution) : Prop :=
  match call with
  | .delete_webhook_execution id => r.id = id
  | .delete_webhook id => r.webhook_id = id
  | .delete_ip_group id => ∃ h ∈ w.webhooks, h.id = r.webhook_id ∧ h.group_id = id
  | .delete_api_key _ resolutions =>
      resolution_of resolutions (EntityType.webhook.as_str, r.webhook_id) = some .Delete ∨
        ∃ h ∈ w.webhooks, h.id = r.webhook_id ∧
          resolution_of resolutions (EntityType.group.as_str, h.group_id) = some .Delete
  | _ => False

/-- The row is one of a test that the endpoint makes. -/
def Call.tests (call : Call) (row : WebhookExecution) : Prop :=
  match call with
  | .test_webhook id _ => row.webhook_id = id ∧ row.event_type = "TEST"
  | _ => False

/-- The rows that a statement inserts are those of a test. -/
def Stmt.Tests (call : Call) (l : Stmt) : Prop := ∀ row, l = .insert_execution row → call.tests row

theorem Call.tests_with_id {call : Call} {row : WebhookExecution} (h : call.tests row) (id : Uuid) :
    call.tests { row with id } := by
  unfold Call.tests at h ⊢
  split at h
  · exact h
  · exact h

theorem drops_of_footprint {call : Call} {l : Stmt} (hl : call.footprint l = true)
    (hdrops : l.drops_history = true) : call.drops_history = true := by
  cases l with
  | delete_execution id => cases call <;> first | rfl | cases hl
  | delete_webhook id => cases call <;> first | rfl | cases hl
  | delete_group id => cases call <;> first | rfl | cases hl
  | _ => cases hdrops

/-- The webhooks of `w'` were in `w`, each in its group. -/
def KeepsPlace (w w' : World) : Prop :=
  ∀ h ∈ w'.webhooks, ∃ h₀ ∈ w.webhooks, h₀.id = h.id ∧ h₀.group_id = h.group_id

/-- A request that deletes history moves no webhook. -/
theorem KeepsPlace.after {call : Call} (hcall : call.drops_history = true) {w w' : World}
    (h : KeepsPlace w w') {l : Stmt} (hl : call.footprint l = true) : KeepsPlace w (l.after w') := by
  intro r hr
  rcases Stmt.mem_webhooks_after hr with hr | ⟨h₀, rfl, -⟩ | ⟨id, c, h₀, rfl, -⟩ |
    ⟨id, owner, h₀, rfl, hh₀, -, rfl⟩
  · exact h r hr
  · cases call <;> first | cases hcall; done | cases hl
  · cases call <;> first | cases hcall; done | cases hl
  · exact h h₀ hh₀

/-- **A row that a statement of the request deletes** is one that the request asks to delete. -/
theorem dropped_of_footprint {call : Call} {l : Stmt} (hl : call.footprint l = true)
    (hdrops : l.drops_history = true) {w : World} {v : Vault} (hgroups : KeepsPlace w v.toWorld)
    {r : WebhookExecution} (hr : r ∈ v.executions) :
    r ∈ (v.after l).executions ∨ call.Drops w r := by
  cases l with
  | delete_execution id =>
      by_cases hid : r.id = id
      · cases call with
        | delete_webhook_execution id' => exact .inr (hid.trans (beq_iff_eq.mp hl))
        | _ => cases hl
      · exact .inl (Table.mem_filter.mpr ⟨hr, decide_eq_true hid⟩)
  | delete_webhook id =>
      by_cases hid : r.webhook_id = id
      · subst hid
        cases call with
        | delete_webhook id' => exact .inr (beq_iff_eq.mp hl)
        | delete_api_key key resolutions => exact .inr (.inl (beq_iff_eq.mp hl))
        | _ => cases hl
      · exact .inl (Table.mem_filter.mpr ⟨hr, decide_eq_true hid⟩)
  | delete_group id =>
      -- The row goes if its webhook does, which is there, and was there at the start.
      obtain ⟨h, hh, hid⟩ := Table.has_iff.mp (v.wf.execution_webhook r hr)
      by_cases hgroup : h.group_id = id
      · obtain ⟨h₀, hh₀, hid₀, hsame⟩ := hgroups h hh
        subst hgroup
        cases call with
        | delete_ip_group id' =>
            exact .inr ⟨h₀, hh₀, hid₀.trans hid, hsame.trans (beq_iff_eq.mp hl)⟩
        | delete_api_key key resolutions =>
            refine .inr (.inr ⟨h₀, hh₀, hid₀.trans hid, ?_⟩)
            rw [hsame]
            exact beq_iff_eq.mp hl
        | _ => cases hl
      · refine .inl (Table.mem_filter.mpr ⟨hr, Table.has_iff.mpr ⟨h, ?_, hid⟩⟩)
        exact Table.mem_filter.mpr ⟨hh, decide_eq_true hgroup⟩
  | _ => cases hdrops

theorem tests_of_quiet {call : Call} {l : Stmt} (h : l.records_execution = false) : l.Tests call := by
  rintro row rfl
  cases h

theorem reads_tests {call : Call} {α : Type} {p : Handler α} (h : OnlyReads p) :
    p.Issues fun l : Stmt => l.Tests call :=
  Prog.Issues.mono h fun _ ⟨_, hq⟩ => hq ▸ tests_of_quiet rfl

/-- A test inserts a row of its webhook, which says that it is one. -/
theorem test_webhook_tests (ctx : Ctx) (id : Uuid) (delivery : TestDelivery) :
    (test_webhook ctx id delivery).Issues fun l : Stmt => l.Tests (.test_webhook id delivery) := by
  have hlog : (log_execution id delivery.logged).Issues
      fun l : Stmt => l.Tests (.test_webhook id delivery) := by
    unfold log_execution
    split
    · trivial
    · refine .bind (.op fun row hrow => ?_) fun _ => trivial
      obtain rfl := Stmt.insert_execution.inj hrow
      exact ⟨rfl, rfl⟩
  refine .bind (reads_tests (find_own_webhook_only_reads id)) fun target => ?_
  refine .bind (reads_tests (.select _)) fun _ => .bind hlog fun _ => ?_
  exact .bind (.bind (.op (tests_of_quiet rfl)) fun _ => .ofExcept _) fun _ => trivial

/-- **Only a test inserts a row**, of all requests. -/
theorem Service.serve_tests (S : Service) (req : Request) :
    (S.serve req).Issues fun l : Stmt => l.Tests req.call := by
  refine .bind (reads_tests (.select _)) fun key => .bind (.okOr _ _) fun key => ?_
  have hwithin : Within req.call (req.call.handler (S.ctx req key)) := req.call.within
  cases hcall : req.call with
  | test_webhook id delivery => exact test_webhook_tests _ id delivery
  | _ =>
      rw [hcall] at hwithin
      refine Prog.Issues.mono hwithin fun l hl row hrow => ?_
      rw [hrow] at hl
      cases hl

/-- The rows after a request are those before it, but for what a test adds and a deletion takes. -/
structure SameHistory (call : Call) (v v' : Vault) : Prop where
  added : ∀ r ∈ v'.executions, r ∈ v.executions ∨ call.tests r
  taken : ∀ r ∈ v.executions, r ∈ v'.executions ∨ call.Drops v.toWorld r
  groups : call.drops_history = true → KeepsPlace v.toWorld v'.toWorld

theorem SameHistory.refl (call : Call) (v : Vault) : SameHistory call v v :=
  ⟨fun _ h => .inl h, fun _ h => .inl h, fun _ h hh => ⟨h, hh, rfl, rfl⟩⟩

/-- One statement. -/
theorem SameHistory.after {call : Call} {v v' : Vault} (h : SameHistory call v v') {l : Stmt}
    (hl : call.footprint l = true) (htests : l.Tests call) : SameHistory call v (v'.after l) := by
  have hgroups : call.drops_history = true → KeepsPlace v.toWorld (v'.after l).toWorld :=
    fun hcall => (h.groups hcall).after hcall hl
  cases hdrops : l.drops_history with
  | true =>
      have hstart := h.groups (drops_of_footprint hl hdrops)
      refine ⟨fun r hr => h.added r (mem_of_drops hdrops hr), fun r hr => ?_, hgroups⟩
      rcases h.taken r hr with hr | htaken
      · exact dropped_of_footprint hl hdrops hstart hr
      · exact .inr htaken
  | false =>
      -- A statement that deletes no row inserts one, or leaves the history as it is.
      cases hrecords : l.records_execution with
      | true =>
          obtain ⟨row, rfl⟩ : ∃ row, l = .insert_execution row := by
            cases l with
            | insert_execution row => exact ⟨row, rfl⟩
            | _ => cases hrecords
          refine ⟨fun r hr => ?_, fun r hr => (h.taken r hr).imp_left mem_insert_of_mem, hgroups⟩
          rcases mem_after_insert hr with hold | ⟨id, rfl⟩
          · exact h.added r hold
          · exact .inr (Call.tests_with_id (htests row rfl) id)
      | false =>
          have hsame : (v'.after l).executions = v'.executions :=
            executions_after hdrops hrecords v'.toWorld
          exact ⟨fun r hr => h.added r (hsame ▸ hr), fun r hr => hsame ▸ h.taken r hr, hgroups⟩

theorem Service.handle_history (S : Service) (req : Request) (v : Vault) :
    SameHistory req.call v (S.handle req v).2 := by
  have hmeets := Prog.Meets.and (M := database) ((S.within req).meets v)
    ((S.serve_tests req).meets v)
  exact Service.handle_meets hmeets (SameHistory.refl req.call v) fun l w hl hw =>
    SameHistory.after hw hl.1 hl.2

/-- The history over a request to the daemon, by what it asks for. -/
theorem Frontend.step_history {F : Frontend} {d : Daemon} {pinned : Uuid}
    (hpin : d.gate.master_pin = ⟨some pinned⟩) (x : Incoming) :
    (F.step (.incoming x) d).2.store = d.store ∨ ∃ v c, x.Vouched F v d.store.toWorld ∧ x.Asks F c ∧
      SameHistory c d.store (F.step (.incoming x) d).2.store := by
  obtain ⟨hstore, hauthentic, -⟩ := Frontend.step_refines hpin (List.mem_singleton_self (.incoming x))
  rw [hstore]
  rcases F.logged_cases (.incoming x) d with hnone | ⟨l, hone⟩
  · rw [hnone]
    exact .inl rfl
  · rw [hone] at hauthentic ⊢
    rcases hauthentic.1 with ⟨now, hsweep, -⟩ | ⟨x', v, c, hx, hvouched, hasks, rfl⟩
    · cases List.mem_singleton.mp hsweep
    · obtain rfl := Daemon.Event.incoming.inj (List.mem_singleton.mp hx)
      exact .inr ⟨v, c, hvouched, hasks, Service.handle_history _ (F.request x' v.key c) d.store⟩

/-! ## Deliveries -/

/-- **What an attempt does** that is counted from one: it posts its request, and inserts one row, which
tells of it. -/
theorem dispatch_attempt_effects (prepared : PreparedDispatch) (ctx : DispatchContext)
    {max_retries : Nat} (base_backoff_ms : Nat) {attempt : Nat} (d : Delivery) (hmax : max_retries ≤ 10)
    (hfirst : 1 ≤ attempt) :
    ∃ (pauses : List Nat) (next : Option Nat),
      dispatch_attempt prepared ctx max_retries base_backoff_ms attempt d =
        some (.post prepared.target_url prepared.headers prepared.payload ::
          .insert (execution_row prepared ctx d) :: pauses.map .sleep, next) ∧
      ∀ later, next = some later → 1 ≤ later := by
  obtain ⟨i, rfl⟩ : ∃ i, attempt = i + 1 := ⟨attempt - 1, by omega⟩
  -- The last attempt is not followed by a pause, and any other one is followed by one.
  by_cases hlast : d.outcome.is_transient = false ∨ max_retries < i + 1
  · exact ⟨[], none, dispatch_attempt_last prepared ctx base_backoff_ms hlast,
      fun _ h => (nomatch h)⟩
  · obtain ⟨htransient, hretry⟩ := not_or.mp hlast
    refine ⟨[backoff base_backoff_ms i], some (i + 2), ?_, fun later h => ?_⟩
    · exact dispatch_attempt_again prepared ctx base_backoff_ms (by simpa using htransient)
        (Nat.le_of_not_lt hretry) hmax
    · obtain rfl := Option.some.inj h
      exact Nat.le_add_left 1 (i + 1)

/-- The attempts of the delivery are counted from one. -/
def Task.Counted (t : Task) : Prop := ∀ attempt, t.stage = .delivering attempt → 1 ≤ attempt

/-- What a move of a delivery does: nothing, or it posts its request and inserts the row of the answer. -/
def Task.Tells (t : Task) (answer : TaskAnswer) (effects : List DispatchEffect) : Prop :=
  effects = [] ∨ ∃ pauses : List Nat,
    effects = .post t.prepared.target_url t.prepared.headers t.prepared.payload ::
      .insert (execution_row t.prepared t.ctx answer.delivery) :: pauses.map .sleep

/-- **A move of a delivery**. -/
theorem Task.move_tells {D : Dispatcher} {answer : TaskAnswer} {t : Task} (hmax : D.max_retries ≤ 10)
    (h : t.Counted) : (t.move D answer).2.Counted ∧ t.Tells answer (t.move D answer).1 := by
  unfold Task.move
  cases ht : t.stage with
  | screening =>
      simp only
      split
      · refine ⟨fun attempt hstage => ?_, .inl rfl⟩
        obtain rfl := TaskStage.delivering.inj hstage
        exact le_rfl
      · exact ⟨fun attempt hstage => (nomatch hstage), .inl rfl⟩
  | delivering attempt =>
      obtain ⟨pauses, next, heffects, hnext⟩ :=
        dispatch_attempt_effects t.prepared t.ctx D.retry_backoff_ms answer.delivery hmax (h attempt ht)
      simp only [heffects]
      cases next with
      | none => exact ⟨fun attempt hstage => (nomatch hstage), .inr ⟨pauses, rfl⟩⟩
      | some later =>
          refine ⟨fun attempt hstage => ?_, .inr ⟨pauses, rfl⟩⟩
          obtain rfl := TaskStage.delivering.inj hstage
          exact hnext later rfl
  | finished => exact ⟨fun attempt hstage => absurd (ht.symm.trans hstage) (by simp), .inl rfl⟩
  | panicked => exact ⟨fun attempt hstage => absurd (ht.symm.trans hstage) (by simp), .inl rfl⟩

/-! ## The pool -/

namespace Worker

/-- All deliveries of the worker are counted from one. -/
def Counted (w : Worker) : Prop := ∀ t ∈ w.join_set, t.Counted

variable {D : Dispatcher} {w w' : Worker}

theorem Counted.joined (h : w.Counted) {k : Nat} {t : Task} (hjoin : w.join_next k = some (t, w')) :
    w'.Counted := by
  obtain ⟨-, -, rfl⟩ := join_next_eq_some hjoin
  exact fun t' ht' => h t' (List.mem_of_mem_eraseIdx ht')

/-- A delivery that is spawned has not begun. -/
theorem Counted.look (h : w.Counted) {answer : WorkerAnswer} {event : WebhookEvent} {store : World}
    {looked : List (WebhookConfig × Int)} {config : WebhookConfig} {todo : List WebhookConfig}
    (ht : w.look D answer event store looked config todo = some w') : w'.Counted := by
  unfold Worker.look at ht
  by_cases hsub : config.subscribed event.action = true
  · rw [if_pos hsub] at ht
    by_cases hfull : MAX_INFLIGHT ≤ w.join_set.length
    · rw [if_pos hfull] at ht
      obtain ⟨⟨t, v⟩, hjoin, rfl⟩ := Option.map_eq_some_iff.mp ht
      exact h.joined hjoin
    · rw [if_neg hfull] at ht
      cases hp : prepare_dispatch D.env D.http config event answer.now with
      | error reason =>
          simp only [hp, Option.some.injEq] at ht
          exact ht ▸ h
      | ok prepared =>
          simp only [hp, Option.some.injEq] at ht
          subst ht
          intro t ht
          rcases List.mem_append.mp ht with ht | ht
          · exact h t ht
          · obtain rfl := List.mem_singleton.mp ht
            exact fun attempt hstage => (nomatch hstage)
  · rw [if_neg hsub] at ht
    obtain rfl := Option.some.inj ht
    exact h

/-- A move of a worker away from the channel. -/
theorem Counted.turn (h : w.Counted) {answer : WorkerAnswer} (ht : w.turn D answer = some w') :
    w'.Counted := by
  -- Most stages leave the set of the deliveries alone; the loop over the webhooks spawns, and the
  -- reaping and the draining take one out.
  unfold Worker.turn at ht
  split at ht
  · obtain rfl := Option.some.inj ht
    exact h
  · split at ht
    · obtain rfl := Option.some.inj ht
      exact h
    · obtain rfl := Option.some.inj ht
      exact h
  · obtain rfl := Option.some.inj ht
    exact h
  · exact h.look ht
  · split at ht
    · obtain ⟨⟨t, v⟩, hjoin, hv⟩ := Option.map_eq_some_iff.mp ht
      have hjoined := h.joined hjoin
      simp only at hv
      split at hv
      · exact hv ▸ hjoined
      · exact hv ▸ hjoined
    · obtain rfl := Option.some.inj ht
      exact h
  · obtain rfl := Option.some.inj ht
    exact h
  · split at ht
    · obtain rfl := Option.some.inj ht
      exact h
    · obtain ⟨⟨t, v⟩, hjoin, rfl⟩ := Option.map_eq_some_iff.mp ht
      exact h.joined hjoin
  · cases ht
  · cases ht
  · cases ht

theorem Counted.pick (h : w.Counted) (event : WebhookEvent) : (w.pick event).Counted := by
  unfold Worker.pick
  split <;> exact h

/-- One of its deliveries moves. -/
theorem Counted.task_turn (h : w.Counted) (hmax : D.max_retries ≤ 10) (k : Nat) (answer : TaskAnswer) :
    (w.task_turn D k answer).2.Counted ∧ ((w.task_turn D k answer).1 = [] ∨
      ∃ t ∈ w.join_set, t.Tells answer (w.task_turn D k answer).1) := by
  unfold Worker.task_turn
  split
  · exact ⟨h, .inl rfl⟩
  · rename_i t ht
    have hmem := List.mem_of_getElem? ht
    obtain ⟨hcounted, htells⟩ : (t.move D answer).2.Counted ∧ t.Tells answer (t.move D answer).1 :=
      Task.move_tells hmax (h t hmem)
    refine ⟨fun t' ht' => ?_, .inr ⟨t, hmem, htells⟩⟩
    rcases List.mem_or_eq_of_mem_set ht' with ht' | rfl
    · exact h t' ht'
    · exact hcounted

end Worker

namespace DispatchPool

variable {n : Nat} {D : Dispatcher} {P : DispatchPool n}

/-- All deliveries of the pool are counted from one. -/
def Counted (P : DispatchPool n) : Prop := ∀ i, (P.workers i).Counted

theorem counted_start (n capacity : Nat) : (start n capacity).Counted :=
  fun _ _ h => absurd h List.not_mem_nil

theorem Counted.set (h : P.Counted) {i : Fin n} {w : Worker} (hw : w.Counted) : (P.set i w).Counted := by
  intro j
  by_cases hj : j = i
  · subst hj
    rw [set_workers_self]
    exact hw
  · rw [set_workers_ne P hj]
    exact h j

theorem Counted.step (h : P.Counted) (hmax : D.max_retries ≤ 10) (t : PoolTurn n) :
    (DispatchPool.step D t P).2.Counted := by
  cases t with
  | enqueue event => exact h
  | drop_senders => exact h
  | worker i answer =>
      show ((P.worker_turn D i answer).getD P).Counted
      cases hturn : P.worker_turn D i answer with
      | none => exact h
      | some P' =>
          rcases worker_turn_cases hturn with ⟨-, -, rfl⟩ | ⟨event, rest, -, -, rfl⟩ |
            ⟨-, -, rfl⟩ | ⟨-, -, w, hw, rfl⟩
          · exact h.set (h i)
          · exact h.set ((h i).pick event)
          · exact h.set (h i)
          · exact h.set ((h i).turn hw)
  | task i k answer => exact h.set ((h i).task_turn hmax k answer).1
  | returned =>
      show (DispatchPool.step D .returned P).2.Counted
      simp only [DispatchPool.step]
      split
      · exact h
      · exact h

end DispatchPool

/-- What was spawned, `prepare_dispatch` has made of its event and its webhook. -/
theorem DispatchPool.Ok.prepared {n : Nat} {D : Dispatcher} {P : DispatchPool n} (h : P.Ok D) {i : Fin n}
    {t : Task} (ht : t ∈ (P.workers i).join_set) :
    ∃ (event : WebhookEvent) (config : WebhookConfig) (now : Int),
      prepare_dispatch D.env D.http config event now = .ok t.prepared ∧
        t.ctx = dispatch_context config event := by
  obtain ⟨s, hs, hprepared, hctx⟩ := (h.workers i).tasks t ht
  rw [(h.workers i).fan_out] at hs
  obtain ⟨handled, -, hs⟩ := List.mem_flatMap.mp hs
  obtain ⟨⟨config, now⟩, -, hseen⟩ := List.mem_filterMap.mp hs
  split at hseen
  · split at hseen
    · rename_i prepared hok
      obtain rfl := Option.some.inj hseen
      exact ⟨handled.event, config, now, hprepared ▸ hok, hctx⟩
    · cases hseen
  · cases hseen

/-! ## The process -/

namespace Site

variable {n : Nat} {S : Site}

/-- A delivery as the process makes it: a request that `prepare_dispatch` has made of an event and a
webhook is posted, and the row of its answer is inserted. -/
structure Delivers (S : Site) (delivery : Delivery) (prepared : PreparedDispatch)
    (row : WebhookExecution) (effects : List DispatchEffect) : Prop where
  made : ∃ (event : WebhookEvent) (config : WebhookConfig) (now : Int),
    prepare_dispatch S.frontend.env S.http config event now = .ok prepared ∧
      row = execution_row prepared (dispatch_context config event) delivery
  effects : ∃ pauses : List Nat, effects =
    .post prepared.target_url prepared.headers prepared.payload :: .insert row :: pauses.map .sleep

/-- What the process promises from step to step. -/
structure Going (pinned : Uuid) (S : Site) (s : Server n) : Prop where
  pinned : Pinned pinned s
  ok : s.pool.Ok S.dispatcher
  counted : s.pool.Counted

theorem going_start (S : Site) (n capacity : Nat) (v : Vault) (boot : Int) (pinned : Uuid) :
    Going pinned S (start n capacity v boot pinned) where
  pinned := rfl
  ok := DispatchPool.ok_start S.dispatcher capacity
  counted := DispatchPool.counted_start n capacity

theorem Going.step {pinned : Uuid} {s : Server n} (h : Going pinned S s) (e : Server.Event n) :
    Going pinned S (S.step e s).2 where
  pinned := pinned_step h.pinned e
  ok := (Along.of_forall (P := fun _ _ => True) _ _ fun _ _ _ => trivial).keeps
    (I := fun P : DispatchPool n => P.Ok S.dispatcher) h.ok fun t _ _ hP => hP.step t
  counted := (Along.of_forall (P := fun _ _ => True) _ _ fun _ _ _ => trivial).keeps
    (I := fun P : DispatchPool n => P.Counted) h.counted
    fun t _ _ hP => hP.step (webhook_max_retries_le _) t

/-- The invariant holds in every state a run meets. -/
theorem along_going (S : Site) (n capacity : Nat) (v : Vault) (boot : Int) (pinned : Uuid)
    (run : List (Server.Event n)) :
    Along S.step (fun _ s => Going pinned S s) run (start n capacity v boot pinned) := by
  have htrivial : Along S.step (fun _ _ => True) run (start n capacity v boot pinned) :=
    .of_forall run _ fun _ _ _ => trivial
  exact htrivial.shows (I := fun s => Going pinned S s) (going_start S n capacity v boot pinned)
    (fun e s _ hs => hs.step e) fun _ _ _ hs => hs

/-- A move of a delivery does nothing, or delivers. -/
theorem effects_of_task {pinned : Uuid} {s : Server n} (h : Going pinned S s) (i : Fin n) (k : Nat)
    (answer : TaskAnswer) : S.effects (.task i k answer) s = [] ∨
      ∃ prepared row, S.Delivers answer.delivery prepared row (S.effects (.task i k answer) s) := by
  have heffects : S.effects (.task i k answer) s =
      ((s.pool.workers i).task_turn S.dispatcher k answer).1 := List.append_nil _
  rw [heffects]
  have hmax : S.dispatcher.max_retries ≤ 10 := webhook_max_retries_le _
  rcases ((h.counted i).task_turn hmax k answer).2 with hnone | ⟨t, ht, htells⟩
  · exact .inl hnone
  · rcases htells with hnone | ⟨pauses, hposts⟩
    · exact .inl hnone
    · obtain ⟨event, config, now, hprepared, hctx⟩ := h.ok.prepared ht
      rw [hctx] at hposts
      exact .inr ⟨t.prepared, _, ⟨event, config, now, hprepared, rfl⟩, pauses, hposts⟩

/-- A request enqueues, which delivers nothing. -/
theorem effects_of_incoming (x : Incoming) (s : Server n) : S.effects (.incoming x) s = [] := by
  have hquiet : ∀ (sent : List WebhookEvent) (P : DispatchPool n),
      (outputs (DispatchPool.step S.dispatcher) (sent.map .enqueue) P).flatten = [] := by
    intro sent
    induction sent with
    | nil => exact fun _ => rfl
    | cons event sent ih => exact fun P => ih _
  exact hquiet _ _

/-- The rows after a delivery are those before it, and the row of the delivery if its webhook is there. -/
theorem Delivers.store {delivery : Delivery} {prepared : PreparedDispatch} {row : WebhookExecution}
    {effects : List DispatchEffect} (h : S.Delivers delivery prepared row effects) (v : Vault) :
    effects.foldl DispatchEffect.record v = v.after (.insert_execution row) := by
  obtain ⟨pauses, rfl⟩ := h.effects
  have hsleeps : ∀ (pauses : List Nat) (v : Vault),
      (pauses.map DispatchEffect.sleep).foldl DispatchEffect.record v = v := by
    intro pauses
    induction pauses with
    | nil => exact fun _ => rfl
    | cons pause pauses ih => exact fun v => ih v
  exact hsleeps pauses _

theorem Delivers.step_store {s : Server n} {i : Fin n} {k : Nat} {answer : TaskAnswer}
    {prepared : PreparedDispatch} {row : WebhookExecution}
    (h : S.Delivers answer.delivery prepared row (S.effects (.task i k answer) s)) :
    (S.step (.task i k answer) s).2.store = s.store.after (.insert_execution row) :=
  h.store s.store

/-- It posts its request and no other. -/
theorem Delivers.prepared_eq {delivery : Delivery} {prepared : PreparedDispatch} {row : WebhookExecution}
    {effects : List DispatchEffect} (h : S.Delivers delivery prepared row effects)
    {target_url payload : String} {headers : DispatchHeaders}
    (hpost : .post target_url headers payload ∈ effects) : prepared = ⟨target_url, headers, payload⟩ := by
  obtain ⟨pauses, rfl⟩ := h.effects
  rcases List.mem_cons.mp hpost with heq | hpost
  · obtain ⟨rfl, rfl, rfl⟩ := DispatchEffect.post.inj heq
    rfl
  · rcases List.mem_cons.mp hpost with heq | hpost
    · cases heq
    · obtain ⟨pause, -, heq⟩ := List.mem_map.mp hpost
      cases heq

/-! ## One step -/

/-- How a row comes into the history: a delivery inserts it, or somebody who may tests a webhook. -/
inductive Brings (S : Site) (e : Server.Event n) (s : Server n) (r : WebhookExecution) : Prop where
  | delivery (i : Fin n) (k : Nat) (answer : TaskAnswer) (prepared : PreparedDispatch)
      (row : WebhookExecution) (id : Uuid) (he : e = .task i k answer)
      (hdelivers : S.Delivers answer.delivery prepared row (S.effects e s)) (hr : r = { row with id })
  | test (x : Incoming) (v : Verified) (c : Call) (he : e = .incoming x)
      (hvouched : x.Vouched S.frontend v s.store.toWorld) (hasks : x.Asks S.frontend c)
      (htest : c.tests r)

/-- How a row goes: it is due, or a request asks for it that somebody who may has sent. -/
inductive Takes (S : Site) (e : Server.Event n) (s : Server n) (r : WebhookExecution) : Prop where
  | sweep (now : Chrono.v0_4.Time) (he : e = .sweep_executions now r.is_success)
      (hdue : expired_execution now r.is_success (S.retention_hours r.is_success) r = true)
  | request (x : Incoming) (v : Verified) (c : Call) (he : e = .incoming x)
      (hvouched : x.Vouched S.frontend v s.store.toWorld) (hasks : x.Asks S.frontend c)
      (hdrops : c.Drops s.store.toWorld r)

/-- Where no row comes or goes, there is nothing to tell. -/
theorem history_of_same {e : Server.Event n} {s : Server n}
    (hrows : (S.step e s).2.store.executions = s.store.executions) :
    (∀ r ∈ (S.step e s).2.store.executions, r ∈ s.store.executions ∨ S.Brings e s r) ∧
    ∀ r ∈ s.store.executions, r ∈ (S.step e s).2.store.executions ∨ S.Takes e s r :=
  ⟨fun _ hr => .inl (hrows ▸ hr), fun _ hr => .inl (hrows ▸ hr)⟩

/-- A request keeps the history but for a test and a deletion. -/
theorem history_of_incoming {pinned : Uuid} {s : Server n} (h : Going pinned S s) (x : Incoming) :
    (∀ r ∈ (S.step (.incoming x) s).2.store.executions,
      r ∈ s.store.executions ∨ S.Brings (.incoming x) s r) ∧
    ∀ r ∈ s.store.executions, r ∈ (S.step (.incoming x) s).2.store.executions ∨
      S.Takes (.incoming x) s r := by
  have hpin : (daemon s).gate.master_pin = ⟨some pinned⟩ := h.pinned
  rcases S.frontend.step_history hpin x with hsame | ⟨v, c, hvouched, hasks, hhistory⟩
  · have hrows : (S.frontend.step (.incoming x) (daemon s)).2.store.executions =
        (daemon s).store.executions := congrArg (fun v : Vault => v.executions) hsame
    exact history_of_same hrows
  · have hstore := vouched_of_beside hvouched
    exact ⟨fun r hr => (hhistory.added r hr).imp_right fun htest => .test x v c rfl hstore hasks htest,
      fun r hr => (hhistory.taken r hr).imp_right fun hdrops => .request x v c rfl hstore hasks hdrops⟩

/-- The history is the same. -/
def SameExecutions (v v' : Vault) : Prop := v'.executions = v.executions

/-- The sweep over the records keeps it. -/
theorem executions_of_sweep (F : Frontend) (now : Int) (d : Daemon) :
    (F.step (.sweep now) d).2.store.executions = d.store.executions := by
  have hissues : (purge_expired_ip_records now F.env.retention_days).Issues fun l : Stmt =>
      l.drops_history = false ∧ l.records_execution = false := by
    unfold purge_expired_ip_records
    split
    · trivial
    · exact .bind (.op ⟨rfl, rfl⟩) fun _ => .ofExcept _
  have hstart : SameExecutions d.store d.store := rfl
  exact (hissues.meets d.store).keeps hstart fun l v hl hv =>
    (executions_after hl.1 hl.2 v.toWorld).trans hv

/-- **One step of the history**: what is new was brought, and what is gone was taken. -/
theorem history_step {pinned : Uuid} {s : Server n} (h : Going pinned S s) (e : Server.Event n) :
    (∀ r ∈ (S.step e s).2.store.executions, r ∈ s.store.executions ∨ S.Brings e s r) ∧
    ∀ r ∈ s.store.executions, r ∈ (S.step e s).2.store.executions ∨ S.Takes e s r := by
  -- Requests, the sweeps and the deliveries can touch the history; what a worker reads, and the channel,
  -- cannot.
  cases e with
  | incoming x => exact history_of_incoming h x
  | sweep now =>
      have hrows : (S.step (.sweep now) s).2.store.executions = s.store.executions :=
        executions_of_sweep S.frontend now (daemon s)
      exact history_of_same hrows
  | sweep_executions now is_success =>
      refine ⟨fun r hr => .inl (Table.mem_filter.mp hr).1, fun r hr => ?_⟩
      by_cases hdue : expired_execution now is_success (S.retention_hours is_success) r = true
      · -- Each of the two statements deletes rows of one outcome.
        obtain rfl : r.is_success = is_success := by
          unfold expired_execution at hdue
          split at hdue
          · simp only [Bool.and_eq_true, beq_iff_eq] at hdue
            exact hdue.1
          · cases hdue
          · cases hdue
        exact .inr (.sweep now rfl hdue)
      · exact .inl (Table.mem_filter.mpr ⟨hr, by simpa using hdue⟩)
  | task i k answer =>
      rcases effects_of_task h i k answer with hnone | ⟨prepared, row, hdelivers⟩
      · have hstore : (S.step (.task i k answer) s).2.store = s.store :=
          congrArg (List.foldl DispatchEffect.record s.store) hnone
        exact history_of_same (congrArg (fun v : Vault => v.executions) hstore)
      · rw [hdelivers.step_store]
        refine ⟨fun r hr => (mem_after_insert hr).imp_right fun ⟨id, hid⟩ => ?_,
          fun r hr => .inl (mem_insert_of_mem hr)⟩
        exact .delivery i k answer prepared row id rfl hdelivers hid
  | worker i client_built reads now joined => exact history_of_same rfl
  | drop_senders => exact history_of_same rfl
  | returned => exact history_of_same rfl

/-- **A POST has its row**: it is a delivery, and if the webhook is still there its row is in the
history. -/
structure Kept (S : Site) (e : Server.Event n) (s : Server n) (prepared : PreparedDispatch) : Prop where
  row : ∃ delivery row, S.Delivers delivery prepared row (S.effects e s) ∧
    (s.store.webhooks.has row.webhook_id = true →
      ∃ id, { row with id } ∈ (S.step e s).2.store.executions)

theorem kept_of_post {pinned : Uuid} {s : Server n} (h : Going pinned S s) {e : Server.Event n}
    {target_url payload : String} {headers : DispatchHeaders}
    (hpost : .post target_url headers payload ∈ S.effects e s) :
    S.Kept e s ⟨target_url, headers, payload⟩ := by
  cases e with
  | task i k answer =>
      rcases effects_of_task h i k answer with hnone | ⟨prepared, row, hdelivers⟩
      · rw [hnone] at hpost
        exact absurd hpost List.not_mem_nil
      · obtain rfl := hdelivers.prepared_eq hpost
        refine ⟨answer.delivery, row, hdelivers, fun hwebhook => ?_⟩
        rw [hdelivers.step_store]
        exact mem_insert_self hwebhook
  | incoming x =>
      rw [effects_of_incoming] at hpost
      exact absurd hpost List.not_mem_nil
  | sweep now => exact absurd hpost List.not_mem_nil
  | sweep_executions now is_success => exact absurd hpost List.not_mem_nil
  | worker i client_built reads now joined => exact absurd hpost List.not_mem_nil
  | drop_senders => exact absurd hpost List.not_mem_nil
  | returned => exact absurd hpost List.not_mem_nil

end Site

/-- **The history of deliveries is the truth.** Whatever comes in and in whatever order workers,
deliveries and sweeps move: each row at the end was there at the start, or is the row of an attempt the
run has posted, or of a test that was asked for; each POST of the pool has its row as soon as it is
answered, if its webhook is still there; and a row goes only when its outcome has been kept its hours, or
with a signed request to delete it, its webhook or its group, or a key with a map that deletes one of
these two. -/
theorem delivery_history (S : Site) (n capacity : Nat) (v : Vault) (boot : Int) (pinned : Uuid)
    (run : List (Server.Event n)) :
    let start := Site.start n capacity v boot pinned
    (∀ r ∈ (final S.step run start).store.executions, r ∈ v.executions ∨
      ∃ e s, Met S.step run start e s ∧ S.Brings e s r) ∧
    ∀ e s, Met S.step run start e s →
      (∀ r ∈ s.store.executions, r ∈ (S.step e s).2.store.executions ∨ S.Takes e s r) ∧
      ∀ target_url headers payload, .post target_url headers payload ∈ S.effects e s →
        S.Kept e s ⟨target_url, headers, payload⟩ := by
  intro start
  have halong := Site.along_going S n capacity v boot pinned run
  refine ⟨fun r hr => ?_, fun e s hmet => ?_⟩
  · exact halong.brought (K := fun s r => r ∈ s.store.executions) (B := S.Brings)
      (fun e s r hs => (Site.history_step hs e).1 r) hr
  · have hgoing := halong.met hmet
    exact ⟨(Site.history_step hgoing e).2, fun target_url headers payload hpost =>
      Site.kept_of_post hgoing hpost⟩

end IpVault
