import IpVault.Api.Guards

set_option autoImplicit false

/-! # The record listing (`list_ips` in `api/records.rs`) -/

namespace IpVault

open Lib

/-- `QueryFilters`. -/
structure QueryFilters where
  groups : Option String := none
  group_name : Option String := none
  group_id : Option Uuid := none
  ip : Option String := none
  cause : Option String := none
  status : Option String := none
  max_age : Option Int := none
  since : Option Int := none
  limit : Option Nat := none
  offset : Option Nat := none
  format : Option String := none
  mode : Option String := none
  include_deleted : Option Bool := none
  include_total : Option Bool := none

/-- `IpRecordResponse`. -/
structure IpRecordResponse where
  id : Uuid
  target_address : String
  group_name : String
  group_type : String
  cause : Option String
  is_locked : Bool
  created_at : Int
  updated_at : Int
  last_seen_at : Int
  is_deleted : Bool
  deleted_at : Option Int
  deleted_by : Option String
  deriving DecidableEq

/-- The three shapes of the answer: the flat export, the page with its total, the plain page. -/
inductive ListReply where
  | ip_list (addresses : List String)
  | envelope (data : List IpRecordResponse) (total limit offset total_pages : Nat)
  | items (data : List IpRecordResponse)
  deriving DecidableEq

/-- A row of the join: a membership and the record it names. -/
abbrev MemberRow := Membership × Option IpRecord

/-- An order in which the database may return the rows of `ORDER BY updated_at DESC`: rows with
equal timestamps come in any order. -/
structure RowOrder where
  arrange : List MemberRow → List MemberRow
  perm : ∀ rows, (arrange rows).Perm rows
  sorted : ∀ rows, (arrange rows).Pairwise fun a b =>
    ∀ r ∈ a.2, ∀ r' ∈ b.2, r'.updated_at ≤ r.updated_at

/-- A nanosecond count from a count of seconds. -/
def seconds (n : Int) : Int := n * 1000000000

/-- `DateTime::from_timestamp`: the seconds chrono can represent. -/
def from_timestamp (secs : Int) : Option Int :=
  if -8334601228800 ≤ secs ∧ secs ≤ 8210266876799 then some (seconds secs) else none

/-- How a database compares dates: whether the first is not after the second. -/
abbrev DateOrder := Int → Int → Bool

/-- In the order of time. -/
def DateOrder.time : DateOrder := fun t u => decide (t ≤ u)

/-- In the order of the texts that SQLite keeps. -/
def DateOrder.text : DateOrder := fun t u => !Calendar.before u t

/-- `since`, as a threshold. -/
def since_threshold (since : Option Int) : Except AppError (Option Int) :=
  match since with
  | none => .ok none
  | some secs =>
      match from_timestamp secs with
      | none => .error (.InvalidInput "Invalid `since` timestamp")
      | some t => .ok (some t)

/-- `status`, as a group type. -/
def status_type (status : Option String) : Except AppError (Option String) :=
  match status with
  | none | some "" => .ok none
  | some "ban" | some "banlist" => .ok (some "banlist")
  | some "white" | some "whitelist" => .ok (some "whitelist")
  | some other => .error (.InvalidInput s!"Invalid status filter: {other}")

namespace QueryFilters

def with_deleted (f : QueryFilters) : Bool := f.include_deleted.getD false

def format_iplist (f : QueryFilters) : Bool :=
  f.format == some "iplist" || f.mode == some "iplist"

def with_total (f : QueryFilters) : Bool := f.include_total.getD false && !f.format_iplist

def page_limit (f : QueryFilters) : Nat := f.limit.getD 50

def page_offset (f : QueryFilters) : Nat := f.offset.getD 0

/-- The names of `groups` and `group_name`. -/
def group_names (f : QueryFilters) : List String :=
  let listed := ((Text.split ',' (f.groups.getD "")).map Text.trim).filter (!Text.is_empty ·)
  let single := ((f.group_name.map Text.trim).filter (!Text.is_empty ·)).toList
  listed ++ single

/-- `empty_ips_response`. -/
def empty_response (f : QueryFilters) : ListReply :=
  if f.format_iplist then .ip_list []
  else if f.with_total then .envelope [] 0 f.page_limit f.page_offset 0
  else .items []

/-- A filter with nothing in it is no filter. -/
def nonempty_text (s : Option String) : Option String := s.filter fun v => !Text.is_empty v

/-- The differential window: last seen since the threshold or, when deleted rows are asked for,
deleted since. -/
def in_window (dates : DateOrder) (f : QueryFilters) (threshold : Option Int) (r : IpRecord) : Bool :=
  match threshold with
  | none => true
  | some t =>
      dates t r.last_seen_at ||
        (f.with_deleted && r.is_deleted && r.deleted_at.any (dates t ·))

/-- The conditions on the record of a row. A `max_age` beyond what `chrono::Duration` holds makes the
request panic; see `list_ips_or_panic`. -/
def selects_by (dates : DateOrder) (f : QueryFilters) (env : Env) (now : Int)
    (threshold : Option Int) (r : IpRecord) : Bool :=
  (f.with_deleted || !r.is_deleted) &&
    ((nonempty_text f.ip).all fun ip =>
      Text.like r.target_address (normalize_ip_or_cidr env (Text.trim ip))) &&
    ((nonempty_text f.cause).all fun c => r.cause.any fun rc => Text.like rc (Text.trim c)) &&
    (f.max_age.all fun age => dates (now - seconds age) r.last_seen_at) &&
    in_window dates f threshold r

/-- The conditions, on dates in the order of time. -/
def selects (f : QueryFilters) : Env → Int → Option Int → IpRecord → Bool := selects_by .time f

/-- Whether a condition on the record is set at all: without one a row need not have a record. -/
def constrains_record (f : QueryFilters) : Bool :=
  !f.with_deleted || (f.ip.any (!Text.is_empty ·)) || (f.cause.any (!Text.is_empty ·)) ||
    f.max_age.isSome || f.since.isSome

/-- The `WHERE` clause on a row of the join. -/
def matches_row (dates : DateOrder) (f : QueryFilters) (env : Env) (now : Int)
    (threshold : Option Int) (group_ids : Option (List Uuid)) (row : MemberRow) : Bool :=
  (group_ids.all fun ids => ids.contains row.1.group_id) &&
    match row.2 with
    | some r => selects_by dates f env now threshold r
    | none => !f.constrains_record

end QueryFilters

/-- The groups the caller may read; `none` for the master. -/
def readable_groups (ctx : Ctx) : Handler (Option (List Uuid)) :=
  if ctx.key.is_master then pure none
  else do
    let rows ← select (.permissions_of ctx.key.id)
    pure (some ((rows.filter fun p => p.can_read).map GroupPermission.group_id))

/-- The groups the filters name; `none` if they name none. -/
def named_groups (f : QueryFilters) : Handler (Option (List Uuid)) := do
  let groups ← select .all_groups
  let by_name := (groups.filter fun g => f.group_names.contains g.name).map IpGroup.id
  if f.group_names = [] ∧ f.group_id = none then pure none
  else pure (some (by_name ++ f.group_id.toList))

/-- The groups of the requested type; `none` if no type is requested. -/
def typed_groups (status : Option String) : Handler (Option (List Uuid)) :=
  match status with
  | none => pure none
  | some group_type => do
      let groups ← select .all_groups
      pure (some ((groups.filter fun g => g.group_type = group_type).map IpGroup.id))

/-- The intersection of the constraints on the group; `none` if there is none. -/
def intersect (constraints : List (Option (List Uuid))) : Option (List Uuid) :=
  match constraints.filterMap id with
  | [] => none
  | ids :: rest => some (ids.filter fun g => rest.all (·.contains g))

/-- The row of the response, unless its record or its group is gone. -/
def record_response (ctx : Ctx) (groups : List IpGroup) (row : MemberRow) :
    Option IpRecordResponse := do
  let record ← row.2
  let group ← groups.find? fun g => g.id = row.1.group_id
  some
    { id := record.id
      target_address := record.target_address
      group_name := group.name
      group_type := group.group_type
      cause := record.cause
      is_locked := record.is_locked
      created_at := record.created_at
      updated_at := record.updated_at
      last_seen_at := record.last_seen_at
      is_deleted := record.is_deleted
      deleted_at := record.deleted_at
      deleted_by := if ctx.key.is_master then record.deleted_by else none }

/-- `list_ips` once the groups are known. The lookups of the groups of a page are one read. -/
def list_page (dates : DateOrder) (ctx : Ctx) (order : RowOrder) (f : QueryFilters)
    (threshold : Option Int) (group_ids : Option (List Uuid)) : Handler ListReply := do
  let joined ← select .members_with_records
  let selected := joined.filter (f.matches_row dates ctx.env ctx.now threshold group_ids)
  let page := ((order.arrange selected).drop f.page_offset).take f.page_limit
  let groups ← select .all_groups
  let data := page.filterMap (record_response ctx groups)
  let total := selected.length
  if f.format_iplist then
    let addresses := page.filterMap fun row => row.2.map IpRecord.target_address
    pure (.ip_list ((addresses.mergeSort (decide <| · ≤ ·)).destutter (· ≠ ·)))
  else if f.with_total then
    pure (.envelope data total f.page_limit f.page_offset
      (if f.page_limit = 0 then 0 else (total + f.page_limit - 1) / f.page_limit))
  else pure (.items data)

/-- `list_ips`, on dates that the database keeps in the order of time: those of years of four digits. -/
def list_ips (ctx : Ctx) (order : RowOrder) (f : QueryFilters) : Handler ListReply := do
  let accessible ← readable_groups ctx
  if accessible = some [] then pure f.empty_response
  else do
    let named ← named_groups f
    let status ← Prog.ofExcept (status_type f.status)
    let typed ← typed_groups status
    let group_ids := intersect [accessible, named, typed]
    if group_ids = some [] then pure f.empty_response
    else do
      let threshold ← Prog.ofExcept (since_threshold f.since)
      list_page .time ctx order f threshold group_ids

end IpVault
