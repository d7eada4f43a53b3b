import IpVault.Access.Records
import IpVault.Schema.Effects

set_option autoImplicit false

/-! # The signing secret of a webhook

A webhook that signs does so for one destination: its URL, what the signature covers, and the mode.
Nobody can read the secret back, but whoever may edit the webhook could aim it elsewhere, so each
change of the aim comes with a new secret. A run carries along when each webhook got the secret it
has, and when it was last aimed (`History`); the secret is never the older of the two.
-/

namespace IpVault

open Lib

/-! ## Where a webhook aims -/

/-- Where the signatures of a webhook go and what they cover. -/
structure Aim where
  target_url : String
  hmac_template : String
  auth_mode : AuthMode
  deriving DecidableEq

namespace WebhookConfig

/-- The mode a row is read as. -/
def mode (h : WebhookConfig) : AuthMode := AuthMode.from_stored h.auth_mode

/-- The aim of a webhook, with the template in effect. -/
def aim (h : WebhookConfig) : Aim :=
  ⟨h.target_url, h.hmac_template.getD DEFAULT_HMAC_TEMPLATE, h.mode⟩

/-- The aim tells the mode. -/
theorem mode_eq_of_aim {h h₀ : WebhookConfig} (haim : h.aim = h₀.aim) : h.mode = h₀.mode := by
  unfold aim at haim
  exact (Aim.mk.inj haim).2.2

theorem mode_own_webhook (owner : Option Uuid) (h : WebhookConfig) :
    (Txn.own_webhook owner h).mode = h.mode := rfl

theorem aim_own_webhook (owner : Option Uuid) (h : WebhookConfig) :
    (Txn.own_webhook owner h).aim = h.aim := rfl

end WebhookConfig

theorem AuthMode.from_stored_as_str (m : AuthMode) : from_stored m.as_str = m := by
  cases m <;> decide

/-- A template that passes the check is not empty. -/
theorem nonempty_of_validate_hmac_template {t : String} (h : validate_hmac_template t = .ok ()) :
    nonempty (some t) = some t := by
  unfold validate_hmac_template at h
  have hne : Text.is_empty t = false := by
    cases hc : t.toList with
    | nil =>
        have hnot : Text.contains t "\x7bbody\x7d" = false := by
          unfold Text.contains
          rw [hc]
          rfl
        rw [hnot] at h
        cases h
    | cons c cs =>
        unfold Text.is_empty
        rw [hc]
        rfl
  unfold nonempty
  rw [Option.filter_some, hne]
  rfl

/-! ## What an update does to the secret -/

namespace WebhookEdit

variable (e : WebhookEdit) (drawn : String)

/-- The edit that `update_webhook` works out in a store. -/
def found (w : World) (id : Uuid) (payload : UpdateWebhookPayload) : Option WebhookEdit := do
  let target ← w.webhooks.find? id
  let requested ← (requested_mode payload).toOption
  pure ⟨target, payload, requested⟩

/-- The row an update leaves. -/
def updated : WebhookConfig := (e.change drawn).apply e.target

theorem mode_target : e.target.mode = e.current_mode := rfl

theorem mode_updated : (e.updated drawn).mode = e.effective_mode := by
  have stored : (e.updated drawn).auth_mode =
      (e.requested.map AuthMode.as_str).getD e.target.auth_mode := rfl
  unfold WebhookConfig.mode effective_mode current_mode
  rw [stored]
  cases e.requested with
  | none => simp only [Option.map_none, Option.getD_none]
  | some m => simp only [Option.map_some, Option.getD_some, m.from_stored_as_str]

/-- An update that changes nothing of the aim leaves it alone. -/
theorem aim_updated (htemplate : validate_opt validate_hmac_template e.payload.hmac_template = .ok ())
    (hurl : e.url_changed = false) (htpl : e.template_changed = false)
    (hmode : e.auth_mode_changed = false) : (e.updated drawn).aim = e.target.aim := by
  have url : (e.updated drawn).target_url = e.target.target_url := by
    show e.payload.target_url.getD e.target.target_url = _
    unfold url_changed at hurl
    cases hu : e.payload.target_url with
    | none => rfl
    | some u =>
        rw [hu] at hurl
        simpa using hurl
  have template : (e.updated drawn).hmac_template.getD DEFAULT_HMAC_TEMPLATE =
      e.target.hmac_template.getD DEFAULT_HMAC_TEMPLATE := by
    show ((e.payload.hmac_template.map fun t => nonempty (some t)).getD
      e.target.hmac_template).getD DEFAULT_HMAC_TEMPLATE = _
    unfold template_changed at htpl
    cases ht : e.payload.hmac_template with
    | none => rfl
    | some t =>
        rw [ht] at htpl htemplate
        have hne := nonempty_of_validate_hmac_template htemplate
        rw [hne] at htpl
        show (nonempty (some t)).getD DEFAULT_HMAC_TEMPLATE = _
        rw [hne]
        simpa using htpl
  have mode : (e.updated drawn).mode = e.target.mode := by
    rw [mode_updated, mode_target]
    unfold effective_mode
    unfold auth_mode_changed at hmode
    cases hm : e.requested with
    | none => simp only [Option.getD_none]
    | some m =>
        rw [hm] at hmode
        have heq : m = e.current_mode := by simpa using hmode
        simp only [Option.getD_some, heq]
  unfold WebhookConfig.aim
  rw [url, template, mode]

/-- **Rotation.** An update of a webhook that signs afterwards supplies or generates the secret it
leaves, or leaves both the secret and the aim alone. -/
theorem rotates (htemplate : validate_opt validate_hmac_template e.payload.hmac_template = .ok ())
    (hsigns : (e.updated drawn).mode.requires_secret = true) :
    e.new_secret drawn = some (e.updated drawn).secret_token ∨
      (e.updated drawn).aim = e.target.aim ∧
        (e.updated drawn).secret_token = e.target.secret_token := by
  have secret : (e.updated drawn).secret_token =
      (e.new_secret drawn).getD e.target.secret_token := rfl
  cases hnew : e.new_secret drawn with
  | some s =>
      left
      rw [secret, hnew]
      rfl
  | none =>
      right
      rw [secret, hnew]
      refine ⟨?_, rfl⟩
      -- Nothing is supplied and nothing is generated, so the update need not rotate.
      have hkeeps : e.must_rotate = false := by
        unfold new_secret generated_secret at hnew
        cases hs : e.supplied_secret with
        | some s =>
            rw [hs] at hnew
            cases hnew
        | none =>
            rw [hs] at hnew
            cases hr : e.must_rotate with
            | false => rfl
            | true =>
                rw [hr] at hnew
                cases hnew
      unfold must_rotate at hkeeps
      rw [mode_updated] at hsigns
      rw [hsigns, Bool.and_true, Bool.or_eq_false_iff, Bool.or_eq_false_iff] at hkeeps
      exact e.aim_updated drawn htemplate hkeeps.1.1 hkeeps.1.2 hkeeps.2

end WebhookEdit

/-- The secret a request supplies or generates for the webhook `id`, in the store it finds. A
webhook that was not there is the one it creates. -/
def Call.gives (call : Call) (drawn : String) (before : World) (id : Uuid) : Option String :=
  match call with
  | .create_webhook payload => if before.webhooks.has id then none else payload.secret_token
  | .clone_webhook _ _ => if before.webhooks.has id then none else some drawn
  | .update_webhook target payload =>
      if id = target then (WebhookEdit.found before id payload).bind (·.new_secret drawn) else none
  | _ => none

theorem Call.gives_new_webhook {payload : CreateWebhookPayload} {drawn : String} {before : World}
    {id : Uuid} (h : before.webhooks.has id = false) :
    (create_webhook payload).gives drawn before id = payload.secret_token := by
  unfold gives
  simp only [h, Bool.false_eq_true, if_false]

theorem Call.gives_new_clone {source : Uuid} {name drawn : String} {before : World} {id : Uuid}
    (h : before.webhooks.has id = false) :
    (clone_webhook source name).gives drawn before id = some drawn := by
  unfold gives
  simp only [h, Bool.false_eq_true, if_false]

theorem Call.gives_update {ctx : Ctx} {id : Uuid} {payload : UpdateWebhookPayload} {before : World}
    {e : WebhookEdit} (h : UpdateAdmitted ctx id payload before e) (drawn : String) :
    (update_webhook id payload).gives drawn before id = e.new_secret drawn := by
  have hfound : WebhookEdit.found before id payload = some e := by
    have htarget : before.webhooks.find? id = some e.target :=
      Table.find?_eq_some.mpr ⟨h.target, h.target_id⟩
    unfold WebhookEdit.found
    rw [htarget, h.requested, ← h.payload_eq]
    rfl
  unfold gives
  simp only [if_true, hfound, Option.bind_some]

/-! ## The history of a run -/

/-- What a run remembers: the number of its steps, the secret each webhook was given last and at
which step, and the step that last changed its aim. -/
structure History where
  clock : Nat
  given : Uuid → Option (Nat × String)
  aimed : Uuid → Nat

namespace History

/-- At the start, each webhook has its secret and its aim. -/
def start (w : World) : History where
  clock := 0
  given id := (w.webhooks.find? id).map fun h => (0, h.secret_token)
  aimed _ := 0

variable (H : History)

/-- The history after one more step, which gives secrets as `gives` says. A step gives a webhook
its secret if it changes the row, and leaves there what it gives. -/
def next (gives : Uuid → Option String) (before after : World) : History where
  clock := H.clock + 1
  given id :=
    match after.webhooks.find? id with
    | none => H.given id
    | some h =>
        if before.webhooks.find? id ≠ some h ∧ gives id = some h.secret_token then
          some (H.clock + 1, h.secret_token)
        else H.given id
  aimed id :=
    if (after.webhooks.find? id).map WebhookConfig.aim =
        (before.webhooks.find? id).map WebhookConfig.aim then H.aimed id
    else H.clock + 1

/-- **The invariant.** A webhook that signs has the secret it was given last, and was given it no
earlier than it was aimed. -/
structure Sound (w : World) : Prop where
  past : ∀ id, H.aimed id ≤ H.clock
  secret : ∀ h ∈ w.webhooks, h.mode.requires_secret = true →
    ∃ n, H.given h.id = some (n, h.secret_token) ∧ H.aimed h.id ≤ n

theorem sound_start (w : World) : (start w).Sound w where
  past _ := le_rfl
  secret h hh _ := ⟨0, by simp [start, Table.find?_key hh], le_rfl⟩

/-- A step leaves a webhook that signs with the secret it has just given it, or with the secret and
the aim it had. -/
def Accounted (gives : Uuid → Option String) (before after : World) : Prop :=
  ∀ h ∈ after.webhooks, h.mode.requires_secret = true →
    gives h.id = some h.secret_token ∨
      ∃ h₀ ∈ before.webhooks, h₀.id = h.id ∧ h.aim = h₀.aim ∧ h.secret_token = h₀.secret_token

theorem aimed_next_le {gives : Uuid → Option String} {before after : World} {H : History} (id : Uuid)
    (h : H.aimed id ≤ H.clock) : (H.next gives before after).aimed id ≤ H.clock + 1 := by
  simp only [next]
  split <;> omega

/-- A webhook whose aim a step leaves alone was aimed when it was. -/
theorem aimed_next_same {gives : Uuid → Option String} {before after : World} {H : History}
    {r r₀ : WebhookConfig} (hr : r ∈ after.webhooks) (hr₀ : r₀ ∈ before.webhooks)
    (hid : r₀.id = r.id) (haim : r.aim = r₀.aim) :
    (H.next gives before after).aimed r.id = H.aimed r.id := by
  have hafter : after.webhooks.find? r.id = some r := Table.find?_key hr
  have hbefore : before.webhooks.find? r.id = some r₀ := hid ▸ Table.find?_key hr₀
  simp only [next, hafter, hbefore, Option.map_some, haim, if_true]

/-- **Step lemma.** -/
theorem Sound.next {H : History} {gives : Uuid → Option String} {before after : World}
    (hH : H.Sound before) (h : Accounted gives before after) :
    (H.next gives before after).Sound after := by
  refine ⟨fun id => aimed_next_le id (hH.past id), fun r hr hsigns => ?_⟩
  have hafter : after.webhooks.find? r.id = some r := Table.find?_key hr
  -- A webhook with the secret and the aim it had is as sound as it was.
  have kept : ∀ r₀ ∈ before.webhooks, r₀.id = r.id → r.aim = r₀.aim →
      r.secret_token = r₀.secret_token →
      (H.next gives before after).given r.id = H.given r.id →
      ∃ n, (H.next gives before after).given r.id = some (n, r.secret_token) ∧
        (H.next gives before after).aimed r.id ≤ n := by
    intro r₀ hr₀ hid haim hsecret hgiven
    have hsigns₀ : r₀.mode.requires_secret = true := by
      rw [← WebhookConfig.mode_eq_of_aim haim]
      exact hsigns
    obtain ⟨n, hn, hle⟩ := hH.secret r₀ hr₀ hsigns₀
    rw [hid] at hn hle
    refine ⟨n, ?_, ?_⟩
    · rw [hgiven, hn, hsecret]
    · rw [aimed_next_same hr hr₀ hid haim]
      exact hle
  by_cases hgives : before.webhooks.find? r.id ≠ some r ∧ gives r.id = some r.secret_token
  · refine ⟨H.clock + 1, ?_, aimed_next_le r.id (hH.past r.id)⟩
    simp only [History.next, hafter, if_pos hgives]
  · have hgiven : (H.next gives before after).given r.id = H.given r.id := by
      simp only [History.next, hafter, if_neg hgives]
    by_cases hrow : before.webhooks.find? r.id = some r
    · exact kept r (Table.find?_eq_some.mp hrow).1 rfl rfl rfl hgiven
    · rcases h r hr hsigns with hnew | ⟨r₀, hr₀, hid, haim, hsecret⟩
      · exact absurd ⟨hrow, hnew⟩ hgives
      · exact kept r₀ hr₀ hid haim hsecret hgiven

end History

/-! ## Requests -/

theorem new_webhook_mode (ctx : Ctx) (payload : CreateWebhookPayload) (mode : AuthMode) (id : Uuid) :
    ({ new_webhook ctx payload mode with id := id } : WebhookConfig).mode = mode := by
  show AuthMode.from_stored mode.as_str = mode
  exact mode.from_stored_as_str

theorem cloned_webhook_mode (ctx : Ctx) (source : WebhookConfig) (name secret_token : String)
    (id : Uuid) :
    ({ cloned_webhook ctx source name secret_token with id := id } : WebhookConfig).mode =
      source.mode := by
  unfold WebhookConfig.mode cloned_webhook
  dsimp only
  rw [AuthMode.from_stored_as_str]

theorem cloned_webhook_secret (ctx : Ctx) (source : WebhookConfig) (name secret_token : String)
    (id : Uuid) :
    ({ cloned_webhook ctx source name secret_token with id := id } : WebhookConfig).secret_token =
      secret_token := rfl

/-- A new webhook that signs brings its secret. -/
theorem secret_of_validate {mode : AuthMode} {payload : CreateWebhookPayload}
    (h : validate_new_credentials mode payload = .ok ()) (hsigns : mode.requires_secret = true) :
    payload.secret_token = some (payload.secret_token.getD "") := by
  cases hs : payload.secret_token with
  | some s => rfl
  | none =>
      have hrefused : validate_new_credentials mode payload =
          .error (requires_secret_error mode) := by
        unfold validate_new_credentials
        rw [if_pos ⟨hsigns, by rw [hs]; rfl⟩]
      cases hrefused.symm.trans h

section Request

variable {ctx : Ctx} {call : Call} {start w : Vault} {l : Stmt}

/-- **One write** leaves every webhook that signs accounted for. -/
theorem History.Accounted.after
    (h : History.Accounted (call.gives ctx.entropy.signing_secret start.toWorld) start.toWorld
      w.toWorld)
    (hcounter : start.next_uuid ≤ w.next_uuid) (hl : Permits ctx call start l w) :
    History.Accounted (call.gives ctx.entropy.signing_secret start.toWorld) start.toWorld
      (w.after l).toWorld := by
  -- The webhook of an insert was not there.
  have fresh : start.webhooks.has w.next_uuid = false := by
    refine Table.has_eq_false.mpr fun h₀ hh₀ hid => ?_
    have hlt : h₀.id < start.next_uuid := start.wf.webhook_fresh h₀ hh₀
    have hge : start.next_uuid ≤ h₀.id := hid ▸ hcounter
    exact absurd hlt (Nat.not_lt.mpr hge)
  intro r hr hsigns
  rcases Stmt.mem_webhooks_after hr with
    hold | ⟨r₀, rfl, rfl⟩ | ⟨id, c, r₀, rfl, hr₀, hid, rfl⟩ | ⟨id, owner, r₀, rfl, hr₀, hid, rfl⟩
  · exact h r hold hsigns
  · left
    rcases hl with ⟨payload, mode, rfl, rfl, hvalid⟩ | ⟨id, name, rfl, source, -, -, -, rfl⟩
    · rw [new_webhook_mode] at hsigns
      exact (Call.gives_new_webhook fresh).trans (secret_of_validate hvalid hsigns)
    · rw [cloned_webhook_mode] at hsigns
      have hdrawn : clone_secret ctx source = ctx.entropy.signing_secret := by
        unfold WebhookConfig.mode at hsigns
        unfold clone_secret
        rw [if_pos hsigns]
      rw [hdrawn]
      exact Call.gives_new_clone fresh
  · obtain ⟨rfl, payload, e, rfl, hadmitted, rfl⟩ := hl
    have htarget : r₀ = e.target :=
      Table.eq_of_key hr₀ hadmitted.target (hid.trans hadmitted.target_id.symm)
    subst htarget
    subst hid
    have htemplate := hadmitted.hmac_template
    rw [← hadmitted.payload_eq] at htemplate
    rcases e.rotates ctx.entropy.signing_secret htemplate hsigns with hnew | ⟨haim, hsecret⟩
    · exact .inl ((Call.gives_update hadmitted _).trans hnew)
    · exact .inr ⟨e.target, hr₀, rfl, haim, hsecret⟩
  · rw [WebhookConfig.mode_own_webhook] at hsigns
    rw [WebhookConfig.aim_own_webhook]
    exact h r₀ hr₀ hsigns

end Request

/-! ## Runs -/

/-- The secret an event supplies or generates for a webhook. -/
def Service.Event.gives (before : World) (id : Uuid) : Service.Event → Option String
  | .request req => req.call.gives req.entropy.signing_secret before id
  | .sweep _ => none

namespace Service

variable (S : Service)

/-- A run of the service, with its history. -/
def remember (e : Event) (st : Vault × History) : Option Response × (Vault × History) :=
  ((S.step e st.1).1, ((S.step e st.1).2,
    st.2.next (fun id => e.gives st.1.toWorld id) st.1.toWorld (S.step e st.1).2.toWorld))

/-- The secret of a clone is drawn where the source signs, and empty where it does not: it is not a
secret the source has, unless that very secret is drawn again. -/
def CloneSecret (req : Request) (v : Vault) : Prop :=
  ∀ id name, req.call = .clone_webhook id name →
    ∀ h ∈ (S.handle req v).2.webhooks, v.webhooks.has h.id = false →
      ∃ source ∈ v.webhooks, source.id = id ∧
        h.secret_token =
          (if source.mode.requires_secret then req.entropy.signing_secret else "") ∧
        (source.secret_token ≠ "" → req.entropy.signing_secret ≠ source.secret_token →
          h.secret_token ≠ source.secret_token)

variable {S}

/-- **One event** leaves every webhook that signs accounted for. -/
theorem accounted (e : Event) (v : Vault) :
    History.Accounted (fun id => e.gives v.toWorld id) v.toWorld (S.step e v).2.toWorld := by
  have same : ∀ gives, History.Accounted gives v.toWorld v.toWorld :=
    fun gives r hr _ => .inr ⟨r, hr, rfl, rfl, rfl⟩
  cases e with
  | request req =>
      refine (S.handle_keeps req v (I := fun w => v.next_uuid ≤ w.next_uuid ∧
        History.Accounted (req.call.gives req.entropy.signing_secret v.toWorld) v.toWorld w.toWorld)
        ⟨le_rfl, same _⟩ fun key _ _ l w hl hw => ⟨?_, ?_⟩).2
      · exact hw.1.trans (l.frame w.toWorld).next_uuid
      · have h : History.Accounted (req.call.gives (S.ctx req key).entropy.signing_secret v.toWorld)
            v.toWorld w.toWorld := hw.2
        exact h.after hw.1 hl
  | sweep now =>
      refine S.sweep_keeps (I := fun w => History.Accounted _ v.toWorld w.toWorld) (same _)
        fun threshold => ?_
      have hframe := (Stmt.frame (.purge threshold) v.toWorld).webhooks rfl
      intro r hr _
      have hr₀ : r ∈ v.webhooks := hframe ▸ hr
      exact .inr ⟨r, hr₀, rfl, rfl, rfl⟩

/-- **A clone** takes no secret over. -/
theorem clone_secret (req : Request) (v : Vault) : S.CloneSecret req v := by
  intro id name hcall h hh hnew
  -- Every webhook that was not there is a copy of the source, with the secret of a copy.
  have hcopies : ∀ h ∈ (S.handle req v).2.webhooks, v.webhooks.has h.id = true ∨
      ∃ source ∈ v.webhooks, source.id = id ∧ ∃ key,
        h.secret_token = IpVault.clone_secret (S.ctx req key) source := by
    refine S.handle_keeps req v (I := fun w => ∀ h ∈ w.webhooks, v.webhooks.has h.id = true ∨
      ∃ source ∈ v.webhooks, source.id = id ∧ ∃ key,
        h.secret_token = IpVault.clone_secret (S.ctx req key) source)
      (fun h hh => .inl (Table.has_iff.mpr ⟨h, hh, rfl⟩)) fun key _ _ l w hl hw h hh => ?_
    rcases Stmt.mem_webhooks_after hh with
      hold | ⟨r, rfl, rfl⟩ | ⟨_, c, r, rfl, hr, -, rfl⟩ | ⟨_, owner, r, rfl, hr, -, rfl⟩
    · exact hw h hold
    · rcases hl with ⟨payload, mode, hother, -⟩ | ⟨id', _, hsame, source, hsource, hid, -, rfl⟩
      · cases hcall.symm.trans hother
      · cases hcall.symm.trans hsame
        exact .inr ⟨source, hsource, hid, key, cloned_webhook_secret _ _ _ _ _⟩
    · obtain ⟨-, payload, -, hother, -⟩ := hl
      cases hcall.symm.trans hother
    · exact hw r hr
  rcases hcopies h hh with hold | ⟨source, hsource, hid, key, hsecret⟩
  · cases hold.symm.trans hnew
  · have hclone : h.secret_token =
        (if source.mode.requires_secret then req.entropy.signing_secret else "") := hsecret
    refine ⟨source, hsource, hid, hclone, fun hne hdrawn heq => ?_⟩
    rw [heq] at hclone
    split at hclone
    · exact hdrawn hclone.symm
    · exact hne hclone

theorem sound_from (run : List Event) {v : Vault} {H : History} (h : H.Sound v.toWorld) :
    (final S.remember run (v, H)).2.Sound (final S.remember run (v, H)).1.toWorld := by
  have hall : Along S.remember (fun _ _ => True) run (v, H) :=
    Along.of_forall run _ fun _ _ _ => trivial
  exact hall.keeps (I := fun st : Vault × History => st.2.Sound st.1.toWorld) h
    fun e st _ hst => hst.next (accounted e st.1)

end Service

/-- **Secrets are not carried over.** At the end of every run, whoever makes its requests, each
webhook that signs has a secret that was supplied or generated for it no earlier than its URL, its
template or its mode was last changed; and no clone has a secret of its source. -/
theorem signing_secrets_isolated (S : Service) (run : List Service.Event) (v : Vault) :
    (final S.remember run (v, .start v.toWorld)).2.Sound
        (final S.remember run (v, .start v.toWorld)).1.toWorld ∧
      ∀ (req : Request) (w : Vault), S.CloneSecret req w :=
  ⟨Service.sound_from run (History.sound_start v.toWorld), fun req w => Service.clone_secret req w⟩

/-- The small service, for webhooks to the host `siem`. -/
def Service.sample_siem : Service :=
  ⟨{ Env.sample with parse_url := fun _ => some ⟨"https", some "siem"⟩ }, 0⟩

-- Moved while it did not sign, the webhook gets a new secret when it signs again.
example : (final Service.sample_siem.remember
    [.request (.sample 0 5 (.create_webhook
      { name := "siem", target_url := "https://siem/", payload_template := "", group_id := 2
        secret_token := some "old", auth_mode := some "NONE" })),
    .request (.sample 0 6 (.update_webhook 3 { target_url := some "https://elsewhere/" })),
    .request (.sample 0 7 (.update_webhook 3 { auth_mode := some "HMAC_ONLY" }))]
    (.sample, .start Vault.sample.toWorld)).2.given 3 = some (3, "s3cret") := by decide

/-! ## A source without a secret -/

/-- The store after the master has created a webhook on `bans` that does not sign. -/
def Vault.unsigned : Vault :=
  (Service.sample_siem.handle (.sample 0 5 (.create_webhook
    { name := "siem", target_url := "https://siem/", payload_template := "", group_id := 2
      auth_mode := some "NONE" })) .sample).2

/-- Neither the source nor its clone has a secret, so they have the same. -/
theorem clone_of_unsigned :
    ¬ ∀ (S : Service) (req : Request) (v : Vault) (id : Uuid) (name : String),
      req.call = .clone_webhook id name →
      ∀ source ∈ v.webhooks, source.id = id → ∀ h ∈ (S.handle req v).2.webhooks,
        v.webhooks.has h.id = false → h.secret_token ≠ source.secret_token := by
  intro h
  have hsource : ∃ source ∈ Vault.unsigned.webhooks.rows, source.id = 3 ∧
      source.secret_token = "" := by decide
  have hcopy : ∃ copy ∈ (Service.sample_siem.handle (.sample 0 6 (.clone_webhook 3 "copy"))
      .unsigned).2.webhooks.rows,
      Vault.unsigned.webhooks.has copy.id = false ∧ copy.secret_token = "" := by decide
  obtain ⟨source, hmem, hid, hsecret⟩ := hsource
  obtain ⟨copy, hmem', hnew, hsecret'⟩ := hcopy
  exact h .sample_siem (.sample 0 6 (.clone_webhook 3 "copy")) .unsigned 3 "copy" rfl source hmem hid
    copy hmem' hnew (hsecret'.trans hsecret.symm)

end IpVault
