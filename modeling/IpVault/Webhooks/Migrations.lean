import IpVault.Lib.Runs
import IpVault.Webhooks.Modes

set_option autoImplicit false

/-! # The migrations of the webhooks (`migration/`)

Four migrations change the columns of `webhook_configs` after the first one has made it. Each treats all
rows alike, so that one row is followed here through upgrades and downgrades. What a version has no
column for is read as the service reads it where it is missing.
-/

namespace IpVault

open Lib

/-! ## Versions -/

/-- The columns that a webhook has in all versions. -/
structure WebhookRow where
  id : Uuid
  name : String
  target_url : String
  secret_token : String
  headers_json : Option String
  payload_template : String
  group_id : Uuid
  is_active : Bool
  events : Option String
  created_at : Int
  deriving DecidableEq

/-- A row as it is stored, after the last migration that has changed the table. -/
inductive StoredWebhook where
  | initial_schema (row : WebhookRow)
  | add_webhook_signature_mode (row : WebhookRow) (signature_mode : String)
  | add_webhook_auth_modes (row : WebhookRow) (auth_mode : String) (api_key hmac_template : Option String)
  | add_lineage_and_ownership (row : WebhookRow) (auth_mode : String)
      (api_key hmac_template : Option String) (owner_key_id : Option Uuid)
  | webhook_hmac_only_mode (row : WebhookRow) (auth_mode : String)
      (api_key hmac_template : Option String) (owner_key_id : Option Uuid)
      (signature_header signature_prefix : Option String)
  deriving DecidableEq

/-- `rewrite_mode`, of one row. -/
def rewrite_mode (before after auth_mode : String) : String :=
  if auth_mode = before then after else auth_mode

namespace StoredWebhook

/-- `up` of the next migration that changes the table, if there is one. -/
def up : StoredWebhook → StoredWebhook
  | initial_schema row => add_webhook_signature_mode row "BODY_ONLY"
  | add_webhook_signature_mode row signature_mode =>
      add_webhook_auth_modes row signature_mode none (some DEFAULT_HMAC_TEMPLATE)
  | add_webhook_auth_modes row auth_mode api_key hmac_template =>
      add_lineage_and_ownership row auth_mode api_key hmac_template none
  | add_lineage_and_ownership row auth_mode api_key hmac_template owner_key_id =>
      webhook_hmac_only_mode row (rewrite_mode "BODY_ONLY" "HMAC_ONLY" auth_mode) api_key hmac_template
        owner_key_id none none
  | webhook_hmac_only_mode row auth_mode api_key hmac_template owner_key_id signature_header
      signature_prefix =>
      webhook_hmac_only_mode row auth_mode api_key hmac_template owner_key_id signature_header
        signature_prefix

/-- `down` of the last migration that changed the table. The first one drops it. -/
def down : StoredWebhook → Option StoredWebhook
  | initial_schema _ => none
  | add_webhook_signature_mode row _ => some (initial_schema row)
  | add_webhook_auth_modes row auth_mode _ _ =>
      -- `signature_mode` starts as `BODY_ONLY`, and two modes are carried over.
      some (add_webhook_signature_mode row
        (if auth_mode = "BODY_ONLY" ∨ auth_mode = "CANONICAL_V1" then auth_mode else "BODY_ONLY"))
  | add_lineage_and_ownership row auth_mode api_key hmac_template _ =>
      some (add_webhook_auth_modes row auth_mode api_key hmac_template)
  | webhook_hmac_only_mode row auth_mode api_key hmac_template owner_key_id _ _ =>
      some (add_lineage_and_ownership row (rewrite_mode "HMAC_ONLY" "BODY_ONLY" auth_mode) api_key
        hmac_template owner_key_id)

end StoredWebhook

/-- A step of `Migrator`, as far as it changes the table. -/
inductive MigrationStep where
  | up
  | down
  deriving DecidableEq

/-- One step. A row that went with its table does not come back. -/
def migrate (step : MigrationStep) (stored : Option StoredWebhook) : Unit × Option StoredWebhook :=
  match step with
  | .up => ((), stored.map StoredWebhook.up)
  | .down => ((), stored.bind StoredWebhook.down)

/-! ## What a version says of a webhook -/

/-- The row with these credentials. -/
def WebhookRow.config (row : WebhookRow) (auth_mode : String) (api_key hmac_template : Option String)
    (owner_key_id : Option Uuid) (signature_header signature_prefix : Option String) :
    WebhookConfig where
  id := row.id
  name := row.name
  target_url := row.target_url
  secret_token := row.secret_token
  auth_mode := auth_mode
  api_key := api_key
  hmac_template := hmac_template
  signature_header := signature_header
  signature_prefix := signature_prefix
  headers_json := row.headers_json
  payload_template := row.payload_template
  group_id := row.group_id
  is_active := row.is_active
  events := row.events
  owner_key_id := owner_key_id
  created_at := row.created_at

/-- The webhook of a row. A row of an older version reads as what the columns of the later ones begin with,
so that versions can be compared: a process only ever reads rows of its own version. -/
def StoredWebhook.config : StoredWebhook → WebhookConfig
  | initial_schema row => row.config "BODY_ONLY" none (some DEFAULT_HMAC_TEMPLATE) none none none
  | add_webhook_signature_mode row signature_mode =>
      row.config signature_mode none (some DEFAULT_HMAC_TEMPLATE) none none none
  | add_webhook_auth_modes row auth_mode api_key hmac_template =>
      row.config auth_mode api_key hmac_template none none none
  | add_lineage_and_ownership row auth_mode api_key hmac_template owner_key_id =>
      row.config auth_mode api_key hmac_template owner_key_id none none
  | webhook_hmac_only_mode row auth_mode api_key hmac_template owner_key_id signature_header
      signature_prefix =>
      row.config auth_mode api_key hmac_template owner_key_id signature_header signature_prefix

theorem WebhookRow.config_mode (row : WebhookRow) (auth_mode : String)
    (api_key hmac_template : Option String) (owner_key_id : Option Uuid)
    (signature_header signature_prefix : Option String) :
    (row.config auth_mode api_key hmac_template owner_key_id signature_header signature_prefix).mode =
      AuthMode.from_stored auth_mode := rfl

/-- It is as it was, or as a new column begins. -/
def KeptOr {α : Type} (fresh before after : α) : Prop := after = before ∨ after = fresh

theorem KeptOr.refl {α : Type} (fresh a : α) : KeptOr fresh a a := .inl rfl

theorem KeptOr.trans {α : Type} {fresh a b c : α} (hab : KeptOr fresh a b) (hbc : KeptOr fresh b c) :
    KeptOr fresh a c := by
  rcases hbc with rfl | rfl
  · exact hab
  · exact .inr rfl

/-- What migrations may make of a webhook. -/
structure Conservative (before after : WebhookConfig) : Prop where
  /-- Where it goes, what it tells and when, and its secret, stay. -/
  same : ({ after with
    auth_mode := before.auth_mode
    api_key := before.api_key
    hmac_template := before.hmac_template
    signature_header := before.signature_header
    signature_prefix := before.signature_prefix
    owner_key_id := before.owner_key_id } : WebhookConfig) = before
  mode : KeptOr .HmacOnly before.mode after.mode
  api_key : KeptOr none before.api_key after.api_key
  hmac_template : KeptOr (some DEFAULT_HMAC_TEMPLATE) before.hmac_template after.hmac_template
  signature_header : KeptOr none before.signature_header after.signature_header
  signature_prefix : KeptOr none before.signature_prefix after.signature_prefix
  owner_key_id : KeptOr none before.owner_key_id after.owner_key_id

namespace Conservative

theorem refl (c : WebhookConfig) : Conservative c c :=
  ⟨rfl, .refl _ _, .refl _ _, .refl _ _, .refl _ _, .refl _ _, .refl _ _⟩

theorem trans {a b c : WebhookConfig} (hab : Conservative a b) (hbc : Conservative b c) :
    Conservative a c where
  same := by
    have hb := hbc.same
    have ha := hab.same
    rw [← ha, ← hb]
  mode := hab.mode.trans hbc.mode
  api_key := hab.api_key.trans hbc.api_key
  hmac_template := hab.hmac_template.trans hbc.hmac_template
  signature_header := hab.signature_header.trans hbc.signature_header
  signature_prefix := hab.signature_prefix.trans hbc.signature_prefix
  owner_key_id := hab.owner_key_id.trans hbc.owner_key_id

/-- A webhook that signs goes on signing. -/
theorem signs {a b : WebhookConfig} (h : Conservative a b) (hsigns : a.mode.requires_secret = true) :
    b.mode.requires_secret = true := by
  rcases h.mode with hmode | hmode
  · rw [hmode]
    exact hsigns
  · rw [hmode]
    rfl

end Conservative

/-! ## One step -/

/-- The old name of the mode is still read. -/
theorem from_stored_body_only : AuthMode.from_stored "BODY_ONLY" = .HmacOnly := by decide

/-- A name is read like the one that it is rewritten to. -/
theorem from_stored_rewrite {before after : String}
    (h : AuthMode.from_stored after = AuthMode.from_stored before) (auth_mode : String) :
    AuthMode.from_stored (rewrite_mode before after auth_mode) = AuthMode.from_stored auth_mode := by
  unfold rewrite_mode
  split
  · rename_i heq
    rw [heq, h]
  · rfl

/-- **An upgrade** changes the name of a mode at most. -/
theorem config_up (s : StoredWebhook) : ∃ auth_mode, s.up.config = { s.config with auth_mode } ∧
    AuthMode.from_stored auth_mode = s.config.mode := by
  cases s with
  | add_lineage_and_ownership row auth_mode api_key hmac_template owner_key_id =>
      exact ⟨_, rfl, from_stored_rewrite (by decide) auth_mode⟩
  | initial_schema row => exact ⟨_, rfl, rfl⟩
  | add_webhook_signature_mode row signature_mode => exact ⟨_, rfl, rfl⟩
  | add_webhook_auth_modes row auth_mode api_key hmac_template => exact ⟨_, rfl, rfl⟩
  | webhook_hmac_only_mode row auth_mode api_key hmac_template owner_key_id header pre =>
      exact ⟨_, rfl, rfl⟩

theorem conservative_up (s : StoredWebhook) : Conservative s.config s.up.config := by
  obtain ⟨auth_mode, hconfig, hmode⟩ := config_up s
  rw [hconfig]
  exact ⟨rfl, .inl hmode, .inl rfl, .inl rfl, .inl rfl, .inl rfl, .inl rfl⟩

/-- **A downgrade** takes back columns, and signs the body where it cannot keep the mode. -/
theorem conservative_down {s s' : StoredWebhook} (h : s.down = some s') :
    Conservative s.config s'.config := by
  cases s with
  | initial_schema row => cases h
  | add_webhook_signature_mode row signature_mode =>
      obtain rfl := Option.some.inj h
      refine ⟨rfl, .inr ?_, .inl rfl, .inl rfl, .inl rfl, .inl rfl, .inl rfl⟩
      simp only [StoredWebhook.config, WebhookRow.config_mode, from_stored_body_only]
  | add_webhook_auth_modes row auth_mode api_key hmac_template =>
      obtain rfl := Option.some.inj h
      refine ⟨rfl, ?_, .inr rfl, .inr rfl, .inl rfl, .inl rfl, .inl rfl⟩
      simp only [StoredWebhook.config, WebhookRow.config_mode]
      split
      · exact .refl _ _
      · exact .inr from_stored_body_only
  | add_lineage_and_ownership row auth_mode api_key hmac_template owner_key_id =>
      obtain rfl := Option.some.inj h
      refine ⟨rfl, ?_, .inl rfl, .inl rfl, .inl rfl, .inl rfl, .inr rfl⟩
      simp only [StoredWebhook.config, WebhookRow.config_mode]
      exact .refl _ _
  | webhook_hmac_only_mode row auth_mode api_key hmac_template owner_key_id header pre =>
      obtain rfl := Option.some.inj h
      refine ⟨rfl, .inl ?_, .inl rfl, .inl rfl, .inr rfl, .inr rfl, .inl rfl⟩
      simp only [StoredWebhook.config, WebhookRow.config_mode]
      exact from_stored_rewrite (by decide) auth_mode

/-! ## All steps -/

/-- What is still there after a step comes from a row that was there before it. -/
theorem migrate_some {step : MigrationStep} {stored : Option StoredWebhook} {s' : StoredWebhook}
    (h : (migrate step stored).2 = some s') :
    ∃ s, stored = some s ∧ (step = .up ∧ s' = s.up ∨ step = .down ∧ s.down = some s') := by
  cases step with
  | up =>
      obtain ⟨s, hstored, hs⟩ := Option.map_eq_some_iff.mp h
      exact ⟨s, hstored, .inl ⟨rfl, hs.symm⟩⟩
  | down =>
      obtain ⟨s, hstored, hs⟩ := Option.bind_eq_some_iff.mp h
      exact ⟨s, hstored, .inr ⟨rfl, hs⟩⟩

theorem conservative_run {run : List MigrationStep} {s s' : StoredWebhook}
    (h : final migrate run (some s) = some s') : Conservative s.config s'.config := by
  have halong : Along migrate (fun step _ => step ∈ run) run (some s) := .of_mem _ _
  have hrun := halong.keeps
    (I := fun stored => ∀ t, stored = some t → Conservative s.config t.config)
    (fun t ht => by
      obtain rfl := Option.some.inj ht
      exact .refl _)
    (fun step stored _ ih t' ht' => by
      obtain ⟨t, hstored, ⟨-, rfl⟩ | ⟨-, hdown⟩⟩ := migrate_some ht'
      · exact (ih t hstored).trans (conservative_up t)
      · exact (ih t hstored).trans (conservative_down hdown))
  exact hrun s' h

theorem dispatch_run {run : List MigrationStep} {s s' : StoredWebhook}
    (h : final migrate run (some s) = some s') (hup : ∀ step ∈ run, step = .up) (env : Env) (http : Http)
    (event : WebhookEvent) (now : Int) :
    prepare_dispatch env http s'.config event now = prepare_dispatch env http s.config event now := by
  have halong : Along migrate (fun step _ => step ∈ run) run (some s) := .of_mem _ _
  have hrun := halong.keeps
    (I := fun stored => ∀ t, stored = some t →
      prepare_dispatch env http t.config event now = prepare_dispatch env http s.config event now)
    (fun t ht => by
      obtain rfl := Option.some.inj ht
      rfl)
    (fun step stored hmem ih t' ht' => by
      obtain ⟨t, hstored, ⟨-, rfl⟩ | ⟨hstep, -⟩⟩ := migrate_some ht'
      · -- Both versions read the mode alike, and nothing else of the webhook has changed.
        obtain ⟨auth_mode, hconfig, hmode⟩ := config_up t
        rw [hconfig, prepare_dispatch_mode hmode]
        exact ih t hstored
      · exact absurd ((hup step hmem).symm.trans hstep) (by decide))
  exact hrun s' h

/-- **Migrations never weaken a webhook.** Whatever upgrades and downgrades a row goes through, and in
whatever order: if it is still there, its place, its texts and its secret are as they were, each of its
credentials is as it was or as a new column begins, its mode is the same or signs the body, and one that
signed still signs. Upgrades alone do not change a single request that is made of it. -/
theorem migrations_keep_webhooks (run : List MigrationStep) (s s' : StoredWebhook)
    (h : final migrate run (some s) = some s') :
    Conservative s.config s'.config ∧
    (s.config.mode.requires_secret = true → s'.config.mode.requires_secret = true) ∧
    ((∀ step ∈ run, step = .up) → ∀ (env : Env) (http : Http) (event : WebhookEvent) (now : Int),
      prepare_dispatch env http s'.config event now = prepare_dispatch env http s.config event now) :=
  ⟨conservative_run h, (conservative_run h).signs, dispatch_run h⟩

/-- A webhook that sends a key of its own, under a header of its own. -/
def StoredWebhook.sample : StoredWebhook :=
  .webhook_hmac_only_mode ⟨1, "SIEM", "https://siem.example/hook", "s3cret", none, "", 1, true, none, 0⟩
    "API_KEY_ONLY" (some "k3y") none (some 1) (some "X-Sig") none

/-- The same after three steps back and three forth: it signs the body. -/
def StoredWebhook.sample_returned : StoredWebhook :=
  .webhook_hmac_only_mode ⟨1, "SIEM", "https://siem.example/hook", "s3cret", none, "", 1, true, none, 0⟩
    "HMAC_ONLY" none (some DEFAULT_HMAC_TEMPLATE) none none none

theorem migrations_keep_webhooks_returned :
    Conservative StoredWebhook.sample.config StoredWebhook.sample_returned.config :=
  (migrations_keep_webhooks [.down, .down, .down, .up, .up, .up] .sample .sample_returned
    (by decide)).1

end IpVault
