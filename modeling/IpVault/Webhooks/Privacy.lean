import IpVault.Access.Absence
import IpVault.Api.WebhookListing
import IpVault.Keys.Deletion

set_option autoImplicit false

/-! # A webhook is its owner's alone

Dispatch targets are private to the key that made them. Two stores that differ only in the webhooks
of other keys and in their executions (`SameOwn`) are the same store to a key that is not the
master: every webhook endpoint gives it the same answer and leaves such a pair of stores again. The
listing of executions looks names and groups up among all webhooks, and the intersection with the
caller's own is what keeps it within them (`ExecutionFilter.selects_alike`).
-/

namespace IpVault

open Lib

/-! ## What a key owns -/

namespace World

/-- The webhooks of a key. -/
def own_webhooks (w : World) (key_id : Uuid) : Table WebhookConfig.id :=
  w.webhooks.filter fun h => h.owner_key_id == some key_id

/-- The executions of the webhooks of a key. -/
def own_executions (w : World) (key_id : Uuid) : Table WebhookExecution.id :=
  w.executions.filter fun e => (w.own_webhooks key_id).has e.webhook_id

/-- The two stores differ only in the webhooks of keys other than `key_id` and their executions. -/
structure SameOwn (key_id : Uuid) (v w : World) : Prop where
  keys : v.keys = w.keys
  permissions : v.permissions = w.permissions
  groups : v.groups = w.groups
  records : v.records = w.records
  memberships : v.memberships = w.memberships
  webhooks : v.own_webhooks key_id = w.own_webhooks key_id
  executions : v.own_executions key_id = w.own_executions key_id
  audit_logs : v.audit_logs = w.audit_logs
  queue : v.queue = w.queue
  queue_capacity : v.queue_capacity = w.queue_capacity
  next_uuid : v.next_uuid = w.next_uuid

end World

/-! ## Handlers that end alike -/

section Alike

variable {α β : Type} {key_id : Uuid} {v w : Vault}

/-- The handler ends in the same way from both stores, and leaves two that differ only in what the
key does not own. -/
def EndsAlike (key_id : Uuid) (v w : Vault) (p : Handler α) : Prop :=
  Prog.Twins database (fun a v' b w' => a = b ∧ v'.SameOwn key_id w'.toWorld)
    (fun e v' e' w' => e = e' ∧ v'.SameOwn key_id w'.toWorld) p v p w

namespace EndsAlike

theorem pure (h : v.SameOwn key_id w.toWorld) (a : α) :
    EndsAlike key_id v w (.ret a : Handler α) := ⟨rfl, h⟩

/-- After a part that only reads. -/
theorem after_reading (h : v.SameOwn key_id w.toWorld) {P : α → Prop} {p : Handler α}
    {f : α → Handler β} (hp : ReadsAlike v w (fun a b => a = b ∧ P a) p p)
    (hf : ∀ a, P a → EndsAlike key_id v w (f a)) : EndsAlike key_id v w (p >>= f) := by
  refine Prog.Twins.bind (Prog.Twins.mono hp (fun _ _ _ _ h => h) ?_) ?_
  · rintro e _ _ _ ⟨rfl, rfl, rfl⟩
    exact ⟨rfl, h⟩
  · rintro a _ _ _ ⟨rfl, rfl, rfl, ha⟩
    exact hf a ha

/-- A handler that only reads. -/
theorem of_reading (h : v.SameOwn key_id w.toWorld) {p : Handler α}
    (hp : ReadsAlike v w Eq p p) : EndsAlike key_id v w p := by
  refine Prog.Twins.mono hp ?_ ?_
  · rintro a _ _ _ ⟨rfl, rfl, rfl⟩
    exact ⟨rfl, h⟩
  · rintro e _ _ _ ⟨rfl, rfl, rfl⟩
    exact ⟨rfl, h⟩

/-- One statement, which reports the same to both. -/
theorem exec_bind {l : Stmt} {f : l.Reply → Handler β}
    (hanswer : l.answer v.toWorld = l.answer w.toWorld)
    (hafter : (v.after l).SameOwn key_id (w.after l).toWorld)
    (hf : ∀ a, EndsAlike key_id (v.after l) (w.after l) (f a)) :
    EndsAlike key_id v w (exec l >>= f) := by
  refine Prog.Twins.bind (Q := fun a v' b w' => a = b ∧ v' = v.after l ∧ w' = w.after l)
    (twins_exec ?_) ?_
  · rw [hanswer]
    exact Prog.twins_ofExcept_same (fun _ _ => ⟨rfl, rfl, rfl⟩) fun _ _ => ⟨rfl, hafter⟩
  · rintro a _ _ _ ⟨rfl, rfl, rfl⟩
    exact hf a

theorem require_bind (h : v.SameOwn key_id w.toWorld) {c : Prop} [Decidable c] {e : AppError}
    {f : Unit → Handler β} (hf : c → EndsAlike key_id v w (f ())) :
    EndsAlike key_id v w (Prog.require c e >>= f) :=
  after_reading h (P := fun _ => c) (.require Iff.rfl fun hc => ⟨rfl, hc⟩) fun _ hc => hf hc

theorem ofExcept_bind (h : v.SameOwn key_id w.toWorld) {x : Except AppError α}
    {f : α → Handler β} (hf : ∀ a, EndsAlike key_id v w (f a)) :
    EndsAlike key_id v w (Prog.ofExcept x >>= f) :=
  after_reading h (P := fun _ => True) (.ofExcept fun _ _ => ⟨rfl, trivial⟩) fun a _ => hf a

/-- One statement whose failure does not end the request. -/
theorem attempt_bind {l : Stmt} {f : Except AppError l.Reply → Handler β}
    (hanswer : l.answer v.toWorld = l.answer w.toWorld)
    (hf : ∀ a, EndsAlike key_id (v.after l) (w.after l) (f a)) :
    EndsAlike key_id v w (attempt l >>= f) := by
  refine Prog.Twins.bind (Q := fun a v' b w' => a = b ∧ v' = v.after l ∧ w' = w.after l)
    (Prog.twins_op.mpr ⟨hanswer, rfl, rfl⟩) ?_
  rintro a _ _ _ ⟨rfl, rfl, rfl⟩
  exact hf a

/-- Both runs are refused in the same way before they write. -/
theorem of_refused (h : v.SameOwn key_id w.toWorld) {p : Handler α} {e : AppError}
    (hv : Prog.Meets database (fun _ _ => True) (fun _ _ => False) (fun e' v' => e' = e ∧ v' = v) p v)
    (hw : Prog.Meets database (fun _ _ => True) (fun _ _ => False) (fun e' w' => e' = e ∧ w' = w) p
      w) : EndsAlike key_id v w p := by
  refine Prog.Twins.of_refused hv hw ?_
  rintro _ _ _ _ ⟨rfl, rfl⟩ ⟨rfl, rfl⟩
  exact ⟨rfl, h⟩

end EndsAlike

/-! ## What a statement does to what the key owns -/

namespace World

variable {x y : World} {key_id id : Uuid}

theorem SameOwn.symm (h : x.SameOwn key_id y) : y.SameOwn key_id x :=
  ⟨h.1.symm, h.2.symm, h.3.symm, h.4.symm, h.5.symm, h.6.symm, h.7.symm, h.8.symm, h.9.symm,
    h.10.symm, h.11.symm⟩

/-- A webhook of the key is in both stores or in neither. -/
theorem SameOwn.find_own (h : x.SameOwn key_id y) {hook : WebhookConfig}
    (hfound : x.webhooks.find? id = some hook) (hown : hook.owner_key_id = some key_id) :
    y.webhooks.find? id = some hook := by
  have hmine : (x.own_webhooks key_id).find? id = some hook := by
    rw [own_webhooks, Table.find?_filter, hfound]
    simp [hown]
  rw [h.webhooks, own_webhooks, Table.find?_filter] at hmine
  exact (Option.filter_eq_some_iff.mp hmine).1

theorem own_webhooks_has {hook : WebhookConfig} (hfound : x.webhooks.find? id = some hook)
    (hown : hook.owner_key_id = some key_id) : (x.own_webhooks key_id).has id = true := by
  rw [Table.has, own_webhooks, Table.find?_filter, hfound]
  simp [hown]

/-- An execution of a webhook of the key is in both stores or in neither. -/
theorem SameOwn.find_own_execution (h : x.SameOwn key_id y) {e : WebhookExecution}
    {hook : WebhookConfig} (hfound : x.executions.find? id = some e)
    (hhook : x.webhooks.find? e.webhook_id = some hook) (hown : hook.owner_key_id = some key_id) :
    y.executions.find? id = some e := by
  have hmine : (x.own_executions key_id).find? id = some e := by
    rw [own_executions, Table.find?_filter, hfound]
    simp [own_webhooks_has hhook hown]
  rw [h.executions, own_executions, Table.find?_filter] at hmine
  exact (Option.filter_eq_some_iff.mp hmine).1

/-! ### A webhook is changed -/

theorem own_webhooks_update (w : World) (c : Txn.WebhookChange) :
    { w with webhooks := w.webhooks.modify id c.apply c.apply_id }.own_webhooks key_id =
      (w.own_webhooks key_id).modify id c.apply c.apply_id := by
  have howner : ∀ h : WebhookConfig, ((c.apply h).owner_key_id == some key_id) =
      (h.owner_key_id == some key_id) := fun _ => rfl
  exact Table.filter_modify howner _

theorem own_executions_update (w : World) (c : Txn.WebhookChange) :
    { w with webhooks := w.webhooks.modify id c.apply c.apply_id }.own_executions key_id =
      w.own_executions key_id := by
  unfold own_executions
  rw [own_webhooks_update]
  simp only [Table.has_modify]

theorem SameOwn.update (h : x.SameOwn key_id y) (c : Txn.WebhookChange) :
    SameOwn key_id { x with webhooks := x.webhooks.modify id c.apply c.apply_id }
      { y with webhooks := y.webhooks.modify id c.apply c.apply_id } :=
  { h with
    webhooks := by rw [own_webhooks_update, own_webhooks_update, h.webhooks]
    executions := by rw [own_executions_update, own_executions_update, h.executions] }

/-! ### A webhook is deleted -/

/-- The store without a webhook and its executions. -/
def without_webhook (w : World) (id : Uuid) : World :=
  { w with
    webhooks := w.webhooks.filter fun h => h.id ≠ id
    executions := w.executions.filter fun e => e.webhook_id ≠ id }

theorem own_webhooks_delete (w : World) :
    (w.without_webhook id).own_webhooks key_id =
      (w.own_webhooks key_id).filter fun h => h.id ≠ id :=
  Table.filter_comm _ _ _

theorem own_executions_delete (w : World) :
    (w.without_webhook id).own_executions key_id =
      (w.own_executions key_id).filter fun e => e.webhook_id ≠ id := by
  ext1
  show (w.executions.rows.filter _).filter _ = (w.executions.rows.filter _).filter _
  rw [List.filter_filter, List.filter_filter]
  refine List.filter_congr fun e _ => ?_
  rw [own_webhooks_delete, Bool.and_comm]
  by_cases hid : e.webhook_id = id
  · simp [hid]
  · -- another webhook: the deletion does not touch it
    have hkept : ((w.own_webhooks key_id).filter fun h => h.id ≠ id).has e.webhook_id =
        (w.own_webhooks key_id).has e.webhook_id := by
      rw [Table.has, Table.has, Table.find?_filter]
      rcases hfound : (w.own_webhooks key_id).find? e.webhook_id with _ | hook
      · rfl
      · have hkey := (Table.find?_eq_some.mp hfound).2
        simp [Option.filter, hkey, hid]
    rw [hkept]

theorem SameOwn.delete (h : x.SameOwn key_id y) :
    (x.without_webhook id).SameOwn key_id (y.without_webhook id) :=
  { h with
    webhooks := by rw [own_webhooks_delete, own_webhooks_delete, h.webhooks]
    executions := by rw [own_executions_delete, own_executions_delete, h.executions] }

/-! ### A webhook is created -/

/-- The store with a webhook of the key, under the next identifier. -/
def with_webhook (w : World) (hook : WebhookConfig) : World :=
  { w with
    webhooks := w.webhooks.insert { hook with id := w.next_uuid }
    next_uuid := w.next_uuid + 1 }

theorem Wf.webhook_new (hw : x.Wf) : x.webhooks.has x.next_uuid = false :=
  Table.has_eq_false.mpr fun hook hmem => (hw.webhook_fresh hook hmem).ne

theorem own_webhooks_insert (hw : x.Wf) {hook : WebhookConfig}
    (hown : hook.owner_key_id = some key_id) :
    (x.with_webhook hook).own_webhooks key_id =
      (x.own_webhooks key_id).insert { hook with id := x.next_uuid } :=
  Table.filter_insert hw.webhook_new (by simp [hown])

/-- No execution is one of a webhook that has just been created. -/
theorem own_executions_insert (hw : x.Wf) {hook : WebhookConfig}
    (hown : hook.owner_key_id = some key_id) :
    (x.with_webhook hook).own_executions key_id = x.own_executions key_id := by
  unfold own_executions
  rw [own_webhooks_insert hw hown]
  ext1
  refine List.filter_congr fun e he => ?_
  obtain ⟨owner, howner, hid⟩ := Table.has_iff.mp (hw.execution_webhook e he)
  have hold : x.next_uuid ≠ e.webhook_id := (hid ▸ hw.webhook_fresh owner howner).ne'
  rw [Table.has, Table.find?_insert, if_neg fun hnew => hold hnew.2]
  rfl

theorem SameOwn.insert (h : x.SameOwn key_id y) (hx : x.Wf) (hy : y.Wf) {hook : WebhookConfig}
    (hown : hook.owner_key_id = some key_id) :
    (x.with_webhook hook).SameOwn key_id (y.with_webhook hook) :=
  { h with
    webhooks := by
      rw [own_webhooks_insert hx hown, own_webhooks_insert hy hown, h.webhooks, h.next_uuid]
    executions := by
      rw [own_executions_insert hx hown, own_executions_insert hy hown, h.executions]
    next_uuid := congrArg (· + 1) h.next_uuid }

/-! ### An execution is logged or deleted -/

/-- The store with an execution, under the next identifier. -/
def with_execution (w : World) (e : WebhookExecution) : World :=
  { w with
    executions := w.executions.insert { e with id := w.next_uuid }
    next_uuid := w.next_uuid + 1 }

theorem own_executions_log (hw : x.Wf) {e : WebhookExecution}
    (hown : (x.own_webhooks key_id).has e.webhook_id = true) :
    (x.with_execution e).own_executions key_id =
      (x.own_executions key_id).insert { e with id := x.next_uuid } := by
  have hnew : x.executions.has x.next_uuid = false :=
    Table.has_eq_false.mpr fun e he => (hw.execution_fresh e he).ne
  exact Table.filter_insert hnew hown

theorem SameOwn.log (h : x.SameOwn key_id y) (hx : x.Wf) (hy : y.Wf) {e : WebhookExecution}
    (hown : (x.own_webhooks key_id).has e.webhook_id = true) :
    (x.with_execution e).SameOwn key_id (y.with_execution e) :=
  { h with
    executions := by
      rw [own_executions_log hx hown, own_executions_log hy (h.webhooks ▸ hown), h.executions,
        h.next_uuid]
    next_uuid := congrArg (· + 1) h.next_uuid }

/-- The store without an execution. -/
def without_execution (w : World) (id : Uuid) : World :=
  { w with executions := w.executions.filter fun e => e.id ≠ id }

theorem own_executions_erase (w : World) :
    (w.without_execution id).own_executions key_id =
      (w.own_executions key_id).filter fun e => e.id ≠ id :=
  Table.filter_comm _ _ _

theorem SameOwn.erase (h : x.SameOwn key_id y) :
    (x.without_execution id).SameOwn key_id (y.without_execution id) :=
  { h with
    executions := by rw [own_executions_erase, own_executions_erase, h.executions] }

end World

/-! ## Statements -/

/-- The statement reports the same to both stores, and leaves two that differ only in what the key
does not own. -/
def Stmt.SameFor (key_id : Uuid) (x y : World) (l : Stmt) : Prop :=
  l.answer x = l.answer y ∧ (l.after x).SameOwn key_id (l.after y)

namespace Stmt.SameFor

variable {x y x' y' : World} {key_id : Uuid} {l : Stmt}

theorem of_ok {a : l.Reply} (hx : l.txn x = .ok (a, x')) (hy : l.txn y = .ok (a, y'))
    (h : x'.SameOwn key_id y') : l.SameFor key_id x y := by
  refine ⟨(answer_of_ok hx).trans (answer_of_ok hy).symm, ?_⟩
  rw [after_of_ok hx, after_of_ok hy]
  exact h

theorem of_error {e : AppError} (hx : l.txn x = .error e) (hy : l.txn y = .error e)
    (h : x.SameOwn key_id y) : l.SameFor key_id x y := by
  constructor
  · unfold answer
    rw [hx, hy]
  · rw [after_of_error hx, after_of_error hy]
    exact h

theorem insert_audit (h : x.SameOwn key_id y) (a : AuditLog) :
    (Stmt.insert_audit a).SameFor key_id x y := by
  by_cases hkey : a.api_key_id.all (x.keys.has ·) = true
  · refine of_ok (l := .insert_audit a) (a := ()) (if_pos hkey) (if_pos (h.keys ▸ hkey)) ?_
    exact { h with audit_logs := congrArg (· ++ [a]) h.audit_logs }
  · exact of_error (l := .insert_audit a) (if_neg hkey) (if_neg (h.keys ▸ hkey)) h

section Own

variable {id : Uuid} {hook : WebhookConfig} (h : x.SameOwn key_id y)
include h

theorem update_webhook (hfound : x.webhooks.find? id = some hook)
    (hown : hook.owner_key_id = some key_id) (c : Txn.WebhookChange) :
    (Stmt.update_webhook id c).SameFor key_id x y := by
  have hfound' := h.find_own hfound hown
  have hx : (Stmt.update_webhook id c).txn x = if !x.groups.has (c.apply hook).group_id then
      Txn.db_error .foreign_key_constraint_violation
      else .ok (c.apply hook, { x with webhooks := x.webhooks.modify id c.apply c.apply_id }) := by
    show Txn.update_webhook id c x = _
    unfold Txn.update_webhook
    rw [hfound]
  have hy : (Stmt.update_webhook id c).txn y = if !x.groups.has (c.apply hook).group_id then
      Txn.db_error .foreign_key_constraint_violation
      else .ok (c.apply hook, { y with webhooks := y.webhooks.modify id c.apply c.apply_id }) := by
    show Txn.update_webhook id c y = _
    unfold Txn.update_webhook
    rw [hfound', h.groups]
  by_cases hgroup : (!x.groups.has (c.apply hook).group_id) = true
  · rw [if_pos hgroup] at hx hy
    exact of_error hx hy h
  · rw [if_neg hgroup] at hx hy
    exact of_ok hx hy (h.update c)

theorem delete_webhook (hfound : x.webhooks.find? id = some hook)
    (hown : hook.owner_key_id = some key_id) : (Stmt.delete_webhook id).SameFor key_id x y := by
  have hx : x.webhooks.has id = true := Option.isSome_of_eq_some hfound
  have hy : y.webhooks.has id = true := Option.isSome_of_eq_some (h.find_own hfound hown)
  refine @of_ok _ _ (x.without_webhook id) (y.without_webhook id) _ (.delete_webhook id) 1 ?_ ?_
    h.delete
  · show Txn.delete_webhook id x = _
    unfold Txn.delete_webhook
    rw [if_pos hx]
    rfl
  · show Txn.delete_webhook id y = _
    unfold Txn.delete_webhook
    rw [if_pos hy]
    rfl

theorem insert_webhook (hx : x.Wf) (hy : y.Wf) (hown : hook.owner_key_id = some key_id) :
    (Stmt.insert_webhook hook).SameFor key_id x y := by
  by_cases hgroup : (!x.groups.has hook.group_id) = true
  · exact of_error (l := .insert_webhook hook) (if_pos hgroup) (if_pos (h.groups ▸ hgroup)) h
  · refine of_ok (l := .insert_webhook hook) (a := x.next_uuid) (if_neg hgroup) ?_
      (h.insert hx hy hown)
    show Txn.insert_webhook hook y = _
    unfold Txn.insert_webhook
    rw [if_neg (h.groups ▸ hgroup), h.next_uuid]
    rfl

theorem insert_execution (hx : x.Wf) (hy : y.Wf) {e : WebhookExecution}
    (hfound : x.webhooks.find? e.webhook_id = some hook) (hown : hook.owner_key_id = some key_id) :
    (Stmt.insert_execution e).SameFor key_id x y := by
  have hhas : x.webhooks.has e.webhook_id = true := Option.isSome_of_eq_some hfound
  have hhas' : y.webhooks.has e.webhook_id = true :=
    Option.isSome_of_eq_some (h.find_own hfound hown)
  exact of_ok (l := .insert_execution e) (a := ()) (if_neg (by simp [hhas]))
    (if_neg (by simp [hhas'])) (h.log hx hy (World.own_webhooks_has hfound hown))

theorem delete_execution {e : WebhookExecution} (hfound : x.executions.find? id = some e)
    (hhook : x.webhooks.find? e.webhook_id = some hook) (hown : hook.owner_key_id = some key_id) :
    (Stmt.delete_execution id).SameFor key_id x y := by
  have hx : x.executions.has id = true := Option.isSome_of_eq_some hfound
  have hy : y.executions.has id = true :=
    Option.isSome_of_eq_some (h.find_own_execution hfound hhook hown)
  refine @of_ok _ _ (x.without_execution id) (y.without_execution id) _ (.delete_execution id) 1
    ?_ ?_ h.erase
  · show Txn.delete_execution id x = _
    unfold Txn.delete_execution
    rw [if_pos hx]
    rfl
  · show Txn.delete_execution id y = _
    unfold Txn.delete_execution
    rw [if_pos hy]
    rfl

end Own

end Stmt.SameFor

end Alike

/-! ## The endpoints -/

section Endpoints

variable {ctx : Ctx} {v w : Vault} {id : Uuid}

/-- The webhook is there and the key's own. -/
def OwnWebhook (v : Vault) (key_id id : Uuid) (hook : WebhookConfig) : Prop :=
  v.webhooks.find? id = some hook ∧ hook.owner_key_id = some key_id

section Reading

variable (hkey : ctx.key.is_master = false) (h : v.SameOwn ctx.key.id w.toWorld)
include hkey h

omit hkey in
theorem group_guard_alike (group_id : Uuid) :
    ReadsAlike v w (fun a b => a = b ∧ True) (webhook_group_guard ctx group_id)
      (webhook_group_guard ctx group_id) := by
  have hperm : w.permission ctx.key.id group_id = v.permission ctx.key.id group_id := by
    unfold World.permission
    rw [h.permissions]
  unfold webhook_group_guard caller_group_permission
  refine .ite Iff.rfl (fun _ => .pure ⟨rfl, trivial⟩) fun _ => ?_
  exact .select_bind rfl hperm (.require Iff.rfl fun _ => ⟨rfl, trivial⟩)

omit hkey in
theorem update_group_guard_alike (target : WebhookConfig) (group_id : Option Uuid) :
    ReadsAlike v w (fun a b => a = b ∧ True) (update_group_guard ctx target group_id)
      (update_group_guard ctx target group_id) := by
  cases group_id with
  | none => exact .pure ⟨rfl, trivial⟩
  | some gid =>
      exact .ite Iff.rfl (fun _ => .pure ⟨rfl, trivial⟩) fun _ => group_guard_alike h gid

/-- A webhook of another key is answered as one that does not exist. -/
theorem find_own_webhook_private :
    ReadsAlike v w (fun a b => a = b ∧ OwnWebhook v ctx.key.id id a) (find_own_webhook ctx id)
      (find_own_webhook ctx id) := by
  refine .require_bind fun _ => ?_
  by_cases hown : ∃ hook, OwnWebhook v ctx.key.id id hook
  · obtain ⟨hook, hfound, howner⟩ := hown
    refine .select_bind (a := some hook) hfound (h.find_own hfound howner) ?_
    refine .okOr_bind fun a ha => ?_
    obtain rfl := Option.some.inj ha
    exact .require_bind fun _ => .pure ⟨rfl, hfound, howner⟩
  · have refused : ∀ {u : Vault}, (∀ hook, ¬ OwnWebhook u ctx.key.id id hook) →
        RefusedWith u (· = .NotFound) (select (.webhook_by_id id) >>= fun found =>
          Prog.okOr .NotFound found >>= fun webhook => Prog.require
            (ctx.key.is_master ∨ webhook.owner_key_id = some ctx.key.id) .NotFound >>=
              fun _ => (pure webhook : Handler WebhookConfig)) := by
      intro u hu
      refine .select ?_
      rcases hfound : u.webhooks.find? id with _ | hook
      · exact .okOr_none hfound rfl
      · refine .okOr hfound (.require_not ?_ rfl)
        rintro (hmaster | howner)
        · rw [hkey] at hmaster
          cases hmaster
        · exact hu hook ⟨hfound, howner⟩
    have reads : OnlyReads (select (.webhook_by_id id) >>= fun found =>
        Prog.okOr .NotFound found >>= fun webhook => Prog.require
          (ctx.key.is_master ∨ webhook.owner_key_id = some ctx.key.id) .NotFound >>=
            fun _ => (pure webhook : Handler WebhookConfig)) :=
      .bind (.select _) fun _ => .bind (.okOr _ _) fun _ => .bind (.require _ _) fun _ => trivial
    refine RefusedWith.alike (refused fun hook hv => hown ⟨hook, hv⟩) (refused fun hook hw => ?_)
      reads reads
    exact hown ⟨hook, h.symm.find_own hw.1 hw.2, hw.2⟩

end Reading

section Writing

variable (hkey : ctx.key.is_master = false) (h : v.SameOwn ctx.key.id w.toWorld)
include h

theorem audit_alike {α : Type} (action : String) (target_address group_names details : Option String)
    {f : Unit → Handler α} (hf : ∀ v' w' : Vault, v'.SameOwn ctx.key.id w'.toWorld →
      EndsAlike ctx.key.id v' w' (f ())) :
    EndsAlike ctx.key.id v w
      (create_audit_log ctx action target_address group_names details >>= f) := by
  have hstmt := Stmt.SameFor.insert_audit h
    (audit_row ctx.caller ctx.now action target_address group_names details)
  exact .exec_bind hstmt.1 hstmt.2 fun _ => hf _ _ hstmt.2

include hkey

theorem create_webhook_private (payload : CreateWebhookPayload) :
    EndsAlike ctx.key.id v w (create_webhook ctx payload) := by
  refine .require_bind h fun _ => .after_reading h (group_guard_alike h _) fun _ _ => ?_
  refine .ofExcept_bind h fun _ => .ofExcept_bind h fun _ => .ofExcept_bind h fun mode => ?_
  refine .ofExcept_bind h fun _ => ?_
  have howner : (new_webhook ctx payload mode).owner_key_id = some ctx.key.id := by
    show resource_owner ctx.key = _
    rw [resource_owner, hkey]
    rfl
  have hstmt := Stmt.SameFor.insert_webhook h v.wf w.wf howner
  refine .exec_bind hstmt.1 hstmt.2 fun new_id => ?_
  exact audit_alike hstmt.2 _ _ _ _ fun _ _ h' => .pure h' _

theorem update_webhook_private (payload : UpdateWebhookPayload) :
    EndsAlike ctx.key.id v w (update_webhook ctx id payload) := by
  refine .after_reading h (find_own_webhook_private hkey h) fun target htarget => ?_
  refine .ofExcept_bind h fun _ => .ofExcept_bind h fun _ => .ofExcept_bind h fun _ => ?_
  refine .after_reading h (update_group_guard_alike h _ _) fun _ _ => ?_
  refine .ofExcept_bind h fun requested => .ofExcept_bind h fun _ => ?_
  have hstmt := Stmt.SameFor.update_webhook h htarget.1 htarget.2
    (WebhookEdit.change ⟨target, payload, requested⟩ ctx.entropy.signing_secret)
  refine .exec_bind hstmt.1 hstmt.2 fun updated => ?_
  exact audit_alike hstmt.2 _ _ _ _ fun _ _ h' => .pure h' _

theorem clone_webhook_private (name : String) :
    EndsAlike ctx.key.id v w (clone_webhook ctx id name) := by
  refine .after_reading h (find_own_webhook_private hkey h) fun source hsource => ?_
  refine .after_reading h (group_guard_alike h _) fun _ _ => .require_bind h fun _ => ?_
  have howner : ∀ secret, (cloned_webhook ctx source name secret).owner_key_id =
      some ctx.key.id := by
    intro secret
    show resource_owner ctx.key = _
    rw [resource_owner, hkey]
    rfl
  have hstmt := fun secret => Stmt.SameFor.insert_webhook h v.wf w.wf (howner secret)
  refine .exec_bind (hstmt _).1 (hstmt _).2 fun new_id => ?_
  exact audit_alike (hstmt _).2 _ _ _ _ fun _ _ h' => .pure h' _

theorem delete_webhook_private : EndsAlike ctx.key.id v w (delete_webhook ctx id) := by
  refine .after_reading h (find_own_webhook_private hkey h) fun target htarget => ?_
  have hstmt := Stmt.SameFor.delete_webhook h htarget.1 htarget.2
  refine .exec_bind hstmt.1 hstmt.2 fun rows_affected => .require_bind hstmt.2 fun _ => ?_
  exact audit_alike hstmt.2 _ _ _ _ fun _ _ h' => .pure h' _

omit hkey in
theorem log_execution_private {α : Type} {hook : WebhookConfig}
    (hown : OwnWebhook v ctx.key.id id hook) (logged : Option WebhookExecution)
    {f : Unit → Handler α} (hf : ∀ v' w' : Vault, v'.SameOwn ctx.key.id w'.toWorld →
      EndsAlike ctx.key.id v' w' (f ())) :
    EndsAlike ctx.key.id v w (log_execution id logged >>= f) := by
  cases logged with
  | none => exact hf v w h
  | some row =>
      have hstmt := Stmt.SameFor.insert_execution
        (e := { row with webhook_id := id, event_type := "TEST" }) h v.wf w.wf hown.1 hown.2
      exact .attempt_bind hstmt.1 fun _ => hf _ _ hstmt.2

theorem test_webhook_private (delivery : TestDelivery) :
    EndsAlike ctx.key.id v w (test_webhook ctx id delivery) := by
  refine .after_reading h (find_own_webhook_private hkey h) fun target htarget => ?_
  have hgroup : (Query.group_by_id target.group_id).eval w.toWorld =
      (Query.group_by_id target.group_id).eval v.toWorld := congrArg (·.find? target.group_id)
        h.groups.symm
  refine .after_reading h (P := fun _ => True) (.select ⟨hgroup.symm, trivial⟩) fun _ _ => ?_
  refine log_execution_private h htarget delivery.logged fun v' w' h' => ?_
  exact audit_alike h' _ _ _ _ fun _ _ h'' => .pure h'' _

theorem reassign_webhook_owner_private (payload : ReassignOwnerPayload) :
    EndsAlike ctx.key.id v w (reassign_webhook_owner ctx id payload) := by
  refine .require_bind h fun hmaster => ?_
  rw [hkey] at hmaster
  cases hmaster

omit h in
/-- An execution of a webhook of another key is answered as one that does not exist. -/
theorem execution_refused {rest : WebhookExecution → Handler Response}
    (hother : ∀ e hook, v.executions.find? id = some e →
      ¬ OwnWebhook v ctx.key.id e.webhook_id hook) :
    Prog.Meets database (fun _ _ => True) (fun _ _ => False)
      (fun e v' => e = AppError.NotFound ∧ v' = v)
      (select (.execution_by_id id) >>= fun found => Prog.okOr .NotFound found >>= fun e =>
        execution_guard ctx e >>= fun _ => rest e) v := by
  rw [Prog.meets_bind, meets_select, Prog.meets_bind, Prog.meets_okOr]
  refine ⟨trivial, fun e he => ?_, fun _ => ⟨rfl, rfl⟩⟩
  unfold execution_guard
  rw [Prog.meets_bind, hkey, if_neg Bool.false_ne_true, Prog.meets_bind, meets_select,
    Prog.meets_require]
  refine ⟨trivial, fun howner => ?_, fun _ => ⟨rfl, rfl⟩⟩
  obtain ⟨hook, hhook, howner⟩ := Option.bind_eq_some_iff.mp howner
  exact (hother e hook he ⟨hhook, howner⟩).elim

theorem delete_webhook_execution_private :
    EndsAlike ctx.key.id v w (delete_webhook_execution ctx id) := by
  refine .require_bind h fun _ => ?_
  by_cases hown : ∃ e hook, v.executions.find? id = some e ∧
      OwnWebhook v ctx.key.id e.webhook_id hook
  · obtain ⟨e, hook, hfound, hhook, howner⟩ := hown
    have hfound' := h.find_own_execution hfound hhook howner
    have hread : ReadsAlike v w (fun a b => a = b ∧ a = some e) (select (.execution_by_id id))
        (select (.execution_by_id id)) :=
      @ReadsAlike.select v w (.execution_by_id id) (.execution_by_id id) _
        ⟨hfound.trans hfound'.symm, hfound⟩
    refine .after_reading h hread ?_
    rintro _ rfl
    rw [show ∀ f : WebhookExecution → Handler Response,
      (Prog.okOr AppError.NotFound (some e) >>= f) = f e from fun _ => rfl]
    have hguard : ReadsAlike v w (fun a b => a = b ∧ True) (execution_guard ctx e)
        (execution_guard ctx e) := by
      refine .ite Iff.rfl (fun _ => .pure ⟨rfl, trivial⟩) fun _ => ?_
      exact .select_bind hhook (h.find_own hhook howner)
        (.require Iff.rfl fun _ => ⟨rfl, trivial⟩)
    have hstmt := Stmt.SameFor.delete_execution h hfound hhook howner
    refine .after_reading h hguard fun _ _ => .exec_bind hstmt.1 hstmt.2 fun rows_affected => ?_
    refine .require_bind hstmt.2 fun _ => ?_
    exact audit_alike hstmt.2 _ _ _ _ fun _ _ h' => .pure h' _
  · refine .of_refused h (execution_refused hkey fun e hook he hhook => ?_)
      (execution_refused hkey fun e hook he hhook => ?_)
    · exact hown ⟨e, hook, he, hhook⟩
    · have hback := h.symm.find_own hhook.1 hhook.2
      exact hown ⟨e, hook, h.symm.find_own_execution he hhook.1 hhook.2, hback, hhook.2⟩

end Writing

/-! ## The listings -/

section Listings

variable (hkey : ctx.key.is_master = false) (h : v.SameOwn ctx.key.id w.toWorld)
include hkey h

theorem list_webhooks_private : EndsAlike ctx.key.id v w (list_webhooks ctx) := by
  have hrows : v.webhooks.rows.filter (fun hook => hook.owner_key_id == some ctx.key.id) =
      w.webhooks.rows.filter (fun hook => hook.owner_key_id == some ctx.key.id) :=
    congrArg Table.rows h.webhooks
  have hread : ReadsAlike v w (fun a b : List WebhookConfig =>
      a.filter (fun hook => hook.owner_key_id == some ctx.key.id) =
        b.filter (fun hook => hook.owner_key_id == some ctx.key.id))
      (select .all_webhooks) (select .all_webhooks) :=
    @ReadsAlike.select v w .all_webhooks .all_webhooks _ hrows
  refine .of_reading h (.require_bind fun _ => .bind hread fun a b hab => .pure ?_)
  simp only [hkey, Bool.false_or, hab]

/-- The webhooks a condition selects, seen from those the key owns: both lists agree on each of
them. -/
def AgreeOnOwn (own : Table WebhookConfig.id) : Option (List Uuid) → Option (List Uuid) → Prop
  | none, none => True
  | some a, some b => ∀ id, own.has id = true → a.contains id = b.contains id
  | _, _ => False

omit hkey in
/-- What a condition says of a webhook of the key does not depend on the webhooks of others. -/
theorem webhook_ids_where_private (condition : Option (WebhookConfig → Bool)) :
    ReadsAlike v w (AgreeOnOwn (v.own_webhooks ctx.key.id)) (webhook_ids_where condition)
      (webhook_ids_where condition) := by
  cases condition with
  | none => exact .pure trivial
  | some holds =>
      have hread : ReadsAlike v w (fun a b => a = v.webhooks.rows ∧ b = w.webhooks.rows)
          (select .all_webhooks) (select .all_webhooks) :=
        @ReadsAlike.select v w .all_webhooks .all_webhooks _ ⟨rfl, rfl⟩
      refine .bind hread ?_
      rintro _ _ ⟨rfl, rfl⟩
      refine .pure fun id hid => ?_
      obtain ⟨hook, hmine, rfl⟩ := Table.has_iff.mp hid
      obtain ⟨hv, howner⟩ := Table.mem_filter.mp hmine
      have hw : hook ∈ w.webhooks :=
        (Table.find?_eq_some.mp (h.find_own (Table.find?_key hv) (by simpa using howner))).1
      -- the row with this identifier is the same in both stores
      have selected : ∀ t : Table WebhookConfig.id, hook ∈ t →
          (((t.rows.filter holds).map WebhookConfig.id).contains hook.id = true ↔
            holds hook = true) := by
        intro t ht
        rw [List.contains_iff_mem, List.mem_map]
        constructor
        · rintro ⟨other, hother, hsame⟩
          obtain ⟨hin, hholds⟩ := List.mem_filter.mp hother
          rwa [Table.eq_of_key hin ht hsame] at hholds
        · intro hholds
          exact ⟨hook, List.mem_filter.mpr ⟨ht, hholds⟩, rfl⟩
      rw [Bool.eq_iff_iff, selected _ hv, selected _ hw]

theorem owned_ids_private :
    ReadsAlike v w (fun a b => a = b ∧
        a = some ((v.own_webhooks ctx.key.id).rows.map WebhookConfig.id))
      (webhook_ids_where (owner_condition ctx.key)) (webhook_ids_where (owner_condition ctx.key)) := by
  unfold owner_condition
  rw [hkey]
  have hread : ReadsAlike v w (fun a b => a = v.webhooks.rows ∧ b = w.webhooks.rows)
      (select .all_webhooks) (select .all_webhooks) :=
    @ReadsAlike.select v w .all_webhooks .all_webhooks _ ⟨rfl, rfl⟩
  refine .bind hread ?_
  rintro _ _ ⟨rfl, rfl⟩
  refine .pure ⟨?_, rfl⟩
  exact congrArg (fun t : Table WebhookConfig.id => some (t.rows.map WebhookConfig.id)) h.webhooks

omit h hkey in
theorem own_ids_contains (own : Table WebhookConfig.id) (id : Uuid) :
    (own.rows.map WebhookConfig.id).contains id = own.has id := by
  rw [Bool.eq_iff_iff, List.contains_iff_mem, List.mem_map, Table.has_iff]
  rfl

omit h hkey in
/-- On an execution of a webhook of the key, the filter does not depend on the webhooks of others. -/
theorem ExecutionFilter.selects_agree {own : Table WebhookConfig.id}
    {query : WebhookExecutionQuery} {owned_ids a a' b b' : Option (List Uuid)}
    {status : Option ExecutionStatus} {from_threshold to_threshold : Option Int} (env : Env)
    (ha : AgreeOnOwn own a a') (hb : AgreeOnOwn own b b') {e : WebhookExecution}
    (he : own.has e.webhook_id = true) :
    ExecutionFilter.selects ⟨query, owned_ids, status, a, b, from_threshold, to_threshold⟩ env e =
      ExecutionFilter.selects ⟨query, owned_ids, status, a', b', from_threshold, to_threshold⟩ env
        e := by
  have hall : (a.all fun ids => ids.contains e.webhook_id) =
      a'.all fun ids => ids.contains e.webhook_id := by
    cases a <;> cases a'
    · rfl
    · exact ha.elim
    · exact ha.elim
    · exact ha _ he
  have hany : (b.any fun ids => ids.contains e.webhook_id) =
      b'.any fun ids => ids.contains e.webhook_id := by
    cases b <;> cases b'
    · rfl
    · exact hb.elim
    · exact hb.elim
    · exact hb _ he
  unfold ExecutionFilter.selects
  simp only [hall, hany]

omit h hkey in
/-- The intersection with the caller's own webhooks: what the listing selects is selected among the
executions of those. -/
theorem ExecutionFilter.selects_own {f : ExecutionFilter} {env : Env} {own : Table WebhookConfig.id}
    (hf : f.owned_ids = some (own.rows.map WebhookConfig.id)) (rows : List WebhookExecution) :
    rows.filter (f.selects env) =
      (rows.filter fun e => own.has e.webhook_id).filter (f.selects env) := by
  rw [List.filter_filter]
  refine List.filter_congr fun e _ => ?_
  rcases hsel : f.selects env e with _ | _
  · rfl
  · -- the first conjunct of the clause
    have hown : own.has e.webhook_id = true := by
      unfold ExecutionFilter.selects at hsel
      rw [hf, Option.all_some, own_ids_contains] at hsel
      simp only [Bool.and_eq_true] at hsel
      tauto
    rw [hown]
    rfl

theorem list_webhook_executions_private (order : ExecutionOrder) (query : WebhookExecutionQuery) :
    EndsAlike ctx.key.id v w (list_webhook_executions ctx order query) := by
  refine .of_reading h (.require_bind fun _ => .bind (owned_ids_private hkey h) ?_)
  rintro owned_ids _ ⟨rfl, howned⟩
  refine .ofExcept_bind fun status _ => .bind (webhook_ids_where_private h _) fun a a' ha => ?_
  refine .bind (webhook_ids_where_private h _) fun b b' hb => ?_
  refine .ofExcept_bind fun from_threshold _ => .ofExcept_bind fun to_threshold _ => ?_
  have hread : ReadsAlike v w (fun a b => a = v.executions.rows ∧ b = w.executions.rows)
      (select .all_executions) (select .all_executions) :=
    @ReadsAlike.select v w .all_executions .all_executions _ ⟨rfl, rfl⟩
  refine .bind hread ?_
  rintro _ _ ⟨rfl, rfl⟩
  refine .pure ?_
  have hexecs : v.executions.rows.filter (fun e => (v.own_webhooks ctx.key.id).has e.webhook_id) =
      w.executions.rows.filter fun e => (v.own_webhooks ctx.key.id).has e.webhook_id := by
    have hrows := congrArg Table.rows h.executions
    unfold World.own_executions at hrows
    rw [← h.webhooks] at hrows
    exact hrows
  have hselected : v.executions.rows.filter (ExecutionFilter.selects
      ⟨query, owned_ids, status, a, b, from_threshold, to_threshold⟩ ctx.env) =
      w.executions.rows.filter (ExecutionFilter.selects
        ⟨query, owned_ids, status, a', b', from_threshold, to_threshold⟩ ctx.env) := by
    refine (ExecutionFilter.selects_own howned _).trans (Eq.trans ?_
      (ExecutionFilter.selects_own howned _).symm)
    rw [hexecs]
    refine List.filter_congr fun e he => ?_
    exact ExecutionFilter.selects_agree ctx.env ha hb (List.mem_filter.mp he).2
  simp only [hselected]

end Listings

end Endpoints

/-! ## Requests -/

/-- The webhook endpoints. -/
inductive Call.OnWebhooks : Call → Prop
  | list : OnWebhooks (.read list_webhooks list_webhooks_only_reads)
  | create (payload : CreateWebhookPayload) : OnWebhooks (.create_webhook payload)
  | update (id : Uuid) (payload : UpdateWebhookPayload) : OnWebhooks (.update_webhook id payload)
  | clone (id : Uuid) (name : String) : OnWebhooks (.clone_webhook id name)
  | delete (id : Uuid) : OnWebhooks (.delete_webhook id)
  | reassign (id : Uuid) (payload : ReassignOwnerPayload) :
      OnWebhooks (.reassign_webhook_owner id payload)
  | test (id : Uuid) (delivery : TestDelivery) : OnWebhooks (.test_webhook id delivery)
  | list_executions (order : ExecutionOrder) (query : WebhookExecutionQuery) :
      OnWebhooks (.read (fun ctx => list_webhook_executions ctx order query)
        fun ctx => list_webhook_executions_only_reads ctx order query)
  | delete_execution (id : Uuid) : OnWebhooks (.delete_webhook_execution id)

theorem Call.OnWebhooks.private {call : Call} (hcall : call.OnWebhooks) {ctx : Ctx} {v w : Vault}
    (hkey : ctx.key.is_master = false) (h : v.SameOwn ctx.key.id w.toWorld) :
    EndsAlike ctx.key.id v w (call.handler ctx) := by
  cases hcall with
  | list => exact list_webhooks_private hkey h
  | create payload => exact create_webhook_private hkey h payload
  | update id payload => exact update_webhook_private hkey h payload
  | clone id name => exact clone_webhook_private hkey h name
  | delete id => exact delete_webhook_private hkey h
  | reassign id payload => exact reassign_webhook_owner_private hkey h payload
  | test id delivery => exact test_webhook_private hkey h delivery
  | list_executions order query => exact list_webhook_executions_private hkey h order query
  | delete_execution id => exact delete_webhook_execution_private hkey h

/-- **Webhook privacy.** Two stores that differ only in the webhooks of other keys and their
executions give a key that is not the master the same answer at every webhook endpoint, and again
differ only in those afterwards. -/
theorem webhooks_private (S : Service) {req : Request} {v w : Vault} (hcall : req.call.OnWebhooks)
    (hreq : S.NonMaster req v) (h : v.SameOwn req.key_id w.toWorld) :
    (S.handle req v).1 = (S.handle req w).1 ∧
      (S.handle req v).2.SameOwn req.key_id (S.handle req w).2.toWorld := by
  have hserve : EndsAlike req.key_id v w (S.serve req) := by
    have hread : ReadsAlike v w (fun a b => a = b ∧ a = v.keys.find? req.key_id)
        (select (.key_by_id req.key_id)) (select (.key_by_id req.key_id)) :=
      @ReadsAlike.select v w (.key_by_id req.key_id) (.key_by_id req.key_id) _
        ⟨congrArg (·.find? req.key_id) h.keys, rfl⟩
    refine .after_reading h hread ?_
    rintro _ rfl
    rcases hfound : v.keys.find? req.key_id with _ | key
    · exact .of_reading h (.fail _)
    · have hid : key.id = req.key_id := (Table.find?_eq_some.mp hfound).2
      have hnon : (S.ctx req key).key.is_master = false := hreq key hfound
      have hsame : v.SameOwn (S.ctx req key).key.id w.toWorld := by
        rw [show (S.ctx req key).key.id = req.key_id from hid]
        exact h
      have hend := hcall.private hnon hsame
      rw [show (S.ctx req key).key.id = req.key_id from hid] at hend
      exact hend
  unfold EndsAlike Prog.Twins at hserve
  unfold Service.handle
  rcases hv : (S.serve req).run database v with ⟨e | a, v'⟩ <;>
    rcases hw : (S.serve req).run database w with ⟨e' | b, w'⟩ <;> rw [hv, hw] at hserve
  · exact ⟨congrArg AppError.into_response hserve.1, hserve.2⟩
  · exact hserve.elim
  · exact hserve.elim
  · exact hserve

/-- The newest executions first, in the order of the table where they are equally old. -/
def ExecutionOrder.newest : ExecutionOrder where
  arrange rows := rows.mergeSort fun a b => decide (b.created_at ≤ a.created_at)
  perm rows := List.mergeSort_perm rows _
  sorted rows := by
    have hsorted := @List.pairwise_mergeSort WebhookExecution
      (fun a b => decide (b.created_at ≤ a.created_at))
      (fun a b c hab hbc => by simp only [decide_eq_true_eq] at *; omega)
      (fun a b => by simp only [Bool.or_eq_true, decide_eq_true_eq]; omega) rows
    exact hsorted.imp of_decide_eq_true

/-- One delivery to the webhook `webhook_id`. -/
def WebhookExecution.sample (webhook_id : Uuid) : WebhookExecution where
  id := 0
  webhook_id := webhook_id
  event_type := "IP_ADD"
  status_code := some 200
  is_success := true
  duration_ms := 12
  response_body := none
  resolved_target_url := none
  target_address := some "203.0.113.7/32"
  cause := none
  created_at := 5

/-- Two tenants, keys 1 and 2, with a webhook each on the group 3, and a delivery to each. -/
def Vault.tenants : Vault :=
  .build 8
    [.insert_key { ApiKey.sample 0 with name := "master", key_hash := "m", is_master := true },
      .insert_key { ApiKey.sample 1 with can_manage_webhooks := true },
      .insert_key { ApiKey.sample 2 with key_hash := "o", can_manage_webhooks := true },
      .insert_group (new_group "bans" "banlist" none 0),
      .insert_webhook (.sample 3 (some 1)),
      .insert_webhook { WebhookConfig.sample 3 (some 2) with name := "billing" },
      .insert_execution (.sample 4), .insert_execution (.sample 5)]

/-- Key 1 searches its deliveries for a name that only the webhook of key 2 has. -/
def Request.probe : Request :=
  .sample 1 10 (.read (fun ctx => list_webhook_executions ctx .newest { search := some "billing" })
    fun ctx => list_webhook_executions_only_reads ctx .newest { search := some "billing" })

/-- The answer is the same when that webhook does not exist. -/
theorem webhooks_private_tenants :
    (Service.sample.handle .probe .tenants).1 =
        (Service.sample.handle .probe (Vault.tenants.after (.delete_webhook 5))).1 ∧
      (Service.sample.handle .probe .tenants).2.SameOwn 1
        (Service.sample.handle .probe (Vault.tenants.after (.delete_webhook 5))).2.toWorld :=
  webhooks_private Service.sample (.list_executions .newest { search := some "billing" })
    (by decide) ⟨rfl, rfl, rfl, rfl, rfl, rfl, rfl, rfl, rfl, rfl, rfl⟩

end IpVault
