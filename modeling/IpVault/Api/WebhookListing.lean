import IpVault.Api.Listing
import IpVault.Api.Webhooks

set_option autoImplicit false

/-! # The webhook listings (`list_webhooks` and `list_webhook_executions` in `api/webhooks.rs`) -/

namespace IpVault

open Lib

/-- `list_webhooks`. -/
def list_webhooks (ctx : Ctx) : Handler Response := do
  Prog.require (ctx.key.is_master ∨ ctx.key.can_manage_webhooks) (.Forbidden "Permission denied")
  let rows ← select .all_webhooks
  let webhooks := rows.filter fun h => ctx.key.is_master || h.owner_key_id == some ctx.key.id
  pure (json (.arr (webhooks.map fun h => .obj (webhook_summary h))))

/-- `WebhookExecutionQuery`. -/
structure WebhookExecutionQuery where
  webhook_id : Option Uuid := none
  event_type : Option String := none
  is_success : Option Bool := none
  status : Option String := none
  search : Option String := none
  group_id : Option Uuid := none
  ip : Option String := none
  from_date : Option Int := none
  to_date : Option Int := none
  limit : Option Nat := none
  offset : Option Nat := none

/-- What `status` asks of an execution: an outcome, or a status code. -/
inductive ExecutionStatus where
  | outcome (is_success : Bool)
  | code (status_code : Nat)

namespace ExecutionStatus

def met (s : ExecutionStatus) (e : WebhookExecution) : Bool :=
  match s with
  | outcome is_success => e.is_success == is_success
  | code status_code => e.status_code == some (status_code : Int)

/-- `status`, in any casing. -/
def parse (status : Option String) : Except AppError (Option ExecutionStatus) :=
  match nonempty status with
  | none => .ok none
  | some raw =>
      match Text.to_ascii_lowercase raw with
      | "success" => .ok (some (outcome true))
      | "failed" | "failure" | "error" => .ok (some (outcome false))
      | text =>
          match Text.parse_u16 text with
          | some parsed => .ok (some (code parsed))
          | none => .error (.InvalidInput (s!"Invalid status filter '{raw}': must be 'success', " ++
              "'failed', or a numeric HTTP status code"))

end ExecutionStatus

/-- `from_date` or `to_date`, as a threshold. -/
def date_threshold (field : String) (date : Option Int) : Except AppError (Option Int) :=
  match date with
  | none => .ok none
  | some secs =>
      match from_timestamp secs with
      | none => .error (.InvalidInput ("Invalid " ++ field ++ " timestamp"))
      | some t => .ok (some t)

/-- An order in which the database may return the rows of `ORDER BY created_at DESC`: rows with equal
timestamps come in any order. -/
structure ExecutionOrder where
  arrange : List WebhookExecution → List WebhookExecution
  perm : ∀ rows, (arrange rows).Perm rows
  sorted : ∀ rows, (arrange rows).Pairwise fun a b => b.created_at ≤ a.created_at

/-- What `list_webhook_executions` has worked out before it reads the executions. -/
structure ExecutionFilter where
  query : WebhookExecutionQuery
  owned_ids : Option (List Uuid)
  status : Option ExecutionStatus
  group_webhook_ids : Option (List Uuid)
  name_matched_ids : Option (List Uuid)
  from_threshold : Option Int
  to_threshold : Option Int

/-- The `WHERE` clause on an execution. -/
def ExecutionFilter.selects (f : ExecutionFilter) (env : Env) (e : WebhookExecution) : Bool :=
  (f.owned_ids.all fun ids => ids.contains e.webhook_id) &&
    (f.query.webhook_id.all fun id => e.webhook_id == id) &&
    ((nonempty f.query.event_type).all fun event_type => e.event_type == event_type) &&
    (f.query.is_success.all fun is_success => e.is_success == is_success) &&
    (f.status.all fun status => status.met e) &&
    (f.group_webhook_ids.all fun ids => ids.contains e.webhook_id) &&
    ((nonempty f.query.ip).all fun ip => e.target_address.any fun address =>
      Text.like address (normalize_ip_or_cidr env (Text.trim ip))) &&
    ((trimmed f.query.search).all fun term =>
      (e.target_address.any fun address => Text.like address term) ||
        (e.cause.any fun cause => Text.like cause term) ||
        (f.name_matched_ids.any fun ids => ids.contains e.webhook_id)) &&
    (f.from_threshold.all fun threshold => decide (threshold ≤ e.created_at)) &&
    (f.to_threshold.all fun threshold => decide (e.created_at ≤ threshold))

/-- The webhooks that satisfy a condition, if there is one. -/
def webhook_ids_where (condition : Option (WebhookConfig → Bool)) :
    Handler (Option (List Uuid)) :=
  match condition with
  | none => pure none
  | some holds => do
      let webhooks ← select .all_webhooks
      pure (some ((webhooks.filter holds).map WebhookConfig.id))

/-- The condition on the owner; `none` for the master. -/
def owner_condition (key : ApiKey) : Option (WebhookConfig → Bool) :=
  if key.is_master then none else some fun h => h.owner_key_id == some key.id

/-- `webhook_execution::Model`, as it is serialized. -/
def execution_json (e : WebhookExecution) : Json :=
  .obj [("id", .uuid e.id), ("webhook_id", .uuid e.webhook_id), ("event_type", .str e.event_type),
    ("status_code", .ofOption .num e.status_code), ("is_success", .bool e.is_success),
    ("duration_ms", .num e.duration_ms), ("response_body", .ofOption .str e.response_body),
    ("resolved_target_url", .ofOption .str e.resolved_target_url),
    ("target_address", .ofOption .str e.target_address), ("cause", .ofOption .str e.cause),
    ("created_at", .date e.created_at)]

/-- `list_webhook_executions`. -/
def list_webhook_executions (ctx : Ctx) (order : ExecutionOrder) (query : WebhookExecutionQuery) :
    Handler Response := do
  Prog.require (ctx.key.is_master ∨ ctx.key.can_manage_webhooks) (.Forbidden "Permission denied")
  let owned_ids ← webhook_ids_where (owner_condition ctx.key)
  let status ← Prog.ofExcept (ExecutionStatus.parse query.status)
  let group_webhook_ids ← webhook_ids_where (query.group_id.map fun id h => h.group_id == id)
  let name_matched_ids ← webhook_ids_where
    ((trimmed query.search).map fun term h => Text.like h.name term)
  let from_threshold ← Prog.ofExcept (date_threshold "`from_date`" query.from_date)
  let to_threshold ← Prog.ofExcept (date_threshold "`to_date`" query.to_date)
  let filter : ExecutionFilter :=
    ⟨query, owned_ids, status, group_webhook_ids, name_matched_ids, from_threshold, to_threshold⟩
  let rows ← select .all_executions
  let selected := rows.filter (filter.selects ctx.env)
  let page := ((order.arrange selected).drop (query.offset.getD 0)).take (query.limit.getD 50)
  pure (json (.arr (page.map execution_json)))

/-! ## Listing is reading -/

theorem list_webhooks_only_reads (ctx : Ctx) : OnlyReads (list_webhooks ctx) :=
  .bind (.require _ _) fun _ => .bind (.select _) fun _ => trivial

theorem webhook_ids_where_only_reads (condition : Option (WebhookConfig → Bool)) :
    OnlyReads (webhook_ids_where condition) := by
  cases condition with
  | none => trivial
  | some holds => exact .bind (.select _) fun _ => trivial

theorem list_webhook_executions_only_reads (ctx : Ctx) (order : ExecutionOrder)
    (query : WebhookExecutionQuery) : OnlyReads (list_webhook_executions ctx order query) := by
  refine .bind (.require _ _) fun _ => .bind (webhook_ids_where_only_reads _) fun _ => ?_
  refine .bind (.ofExcept _) fun _ => .bind (webhook_ids_where_only_reads _) fun _ => ?_
  refine .bind (webhook_ids_where_only_reads _) fun _ => .bind (.ofExcept _) fun _ => ?_
  exact .bind (.ofExcept _) fun _ => .bind (.select _) fun _ => trivial

example : (ExecutionStatus.parse (some "Failed")).toOption =
    some (some (.outcome false)) := by rfl

end IpVault
