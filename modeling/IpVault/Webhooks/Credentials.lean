import IpVault.Access.Footprint
import IpVault.Webhooks.Dispatch
import IpVault.Webhooks.Secrets

set_option autoImplicit false

/-! # Where a stored credential is sent

A webhook that stores an `api_key` acts at its receiver in the name of somebody. Only the master may
change where it goes, what it signs, its mode and the key itself; its owner keeps the rest. Among the
rest is the group, and a URL may name the group.
-/

namespace IpVault

open Lib

/-- What an event says, apart from its group. -/
structure EventContent where
  action : String
  address : String
  is_whitelist : Bool
  cause : Option String

/-- The event, of a group. -/
def EventContent.about (content : EventContent) (g : IpGroup) : WebhookEvent where
  action := content.action
  address := content.address
  is_whitelist := content.is_whitelist
  group_id := some g.id
  group_name := some g.name
  cause := content.cause

/-- Where the key of a webhook is sent for an event of its group, in the modes that send it. -/
def WebhookConfig.credential_url (h : WebhookConfig) (w : World) (content : EventContent)
    (now : Int) : Option String :=
  if h.mode.sends_api_key then
    (w.groups.find? h.group_id).map fun g =>
      resolve_event_variables h.target_url (content.about g) (toString (clock_seconds now))
  else none

/-- It is the URL of the request that `prepare_dispatch` makes. -/
theorem credential_url_of_prepare_dispatch {env : Env} {http : Http} {h : WebhookConfig} {w : World}
    {content : EventContent} {now : Int} {g : IpGroup} {d : PreparedDispatch}
    (hsends : h.mode.sends_api_key = true) (hg : w.groups.find? h.group_id = some g)
    (hd : prepare_dispatch env http h (content.about g) now = .ok d) :
    h.credential_url w content now = some d.target_url := by
  unfold WebhookConfig.credential_url
  rw [if_pos hsends, hg, prepare_dispatch_target_url hd]
  rfl

/-! ## Requests that edit webhooks -/

/-- An update or a clone. -/
def Call.EditsWebhook : Call → Prop
  | .update_webhook _ _ | .clone_webhook _ _ => True
  | _ => False

instance (call : Call) : Decidable call.EditsWebhook := by
  unfold Call.EditsWebhook
  split <;> infer_instance

/-- What such a request can issue. -/
def Stmt.EditsWebhook : Stmt → Prop
  | .query _ | .update_webhook _ _ | .insert_webhook _ | .insert_audit _ => True
  | _ => False

theorem Call.EditsWebhook.issues {ctx : Ctx} {call : Call} (h : call.EditsWebhook) :
    (call.handler ctx).Issues Stmt.EditsWebhook := by
  refine call.within.mono fun l hl => ?_
  cases call with
  | update_webhook | clone_webhook => cases l <;> first | exact trivial | cases hl
  | _ => exact absurd h id

/-- **Invariants of an edit.** What every write of an update or a clone keeps, the request keeps. -/
theorem Service.edit_keeps (S : Service) {req : Request} {v : Vault} (hcall : req.call.EditsWebhook)
    {I : Vault → Prop} (hv : I v)
    (step : ∀ key, v.keys.find? req.key_id = some key → ∀ l w, l.EditsWebhook →
      Permits (S.ctx req key) req.call v l w → I w → I (w.after l)) : I (S.handle req v).2 := by
  have hissues : (S.serve req).Issues Stmt.EditsWebhook :=
    .bind (Prog.Issues.mono (OnlyReads.select _) fun _ ⟨_, hq⟩ => hq ▸ trivial) fun found =>
      .bind (.okOr _ _) fun key => hcall.issues
  have hrun := ((serve_meets S req v).and (hissues.meets v)).keeps hv fun l w hl hw => by
    rcases hl with ⟨⟨q, rfl⟩ | ⟨key, hmem, hid, hpermits⟩, hedits⟩
    · exact hw
    · exact step key (hid ▸ Table.find?_key hmem) l w hedits hpermits hw
  unfold Service.handle
  generalize (S.serve req).run database v = r at hrun ⊢
  obtain ⟨_ | _, w⟩ := r <;> exact hrun

/-! ## One write -/

namespace WebhookEdit

variable {e : WebhookEdit} {drawn : String} {caller : ApiKey}

/-- **The gate.** An ordinary caller changes none of the four fields of a webhook that stores a
key. -/
theorem gate (hvalid : e.validate caller drawn = .ok ()) (hm : caller.is_master = false)
    (hp : e.target.is_privileged = true) : e.url_changed = false ∧ e.template_changed = false ∧
      e.auth_mode_changed = false ∧ e.api_key_changed = false := by
  unfold validate at hvalid
  rw [hm, hp] at hvalid
  split at hvalid
  · cases hvalid
  · rename_i hgate
    simpa [and_assoc] using hgate

theorem api_key_updated (h : e.api_key_changed = false) :
    (e.updated drawn).api_key = e.target.api_key := by
  have hnone : e.requested_api_key = none := by
    simpa [api_key_changed] using h
  show e.requested_api_key.getD e.target.api_key = e.target.api_key
  rw [hnone]
  rfl

/-- A key that a webhook has after an update it had before, or the payload brings it. -/
theorem api_key_of_updated {k : String} (h : nonempty (e.updated drawn).api_key = some k) :
    nonempty e.target.api_key = some k ∨ e.payload.api_key.map Text.trim = some k := by
  have hkey : (e.updated drawn).api_key = e.requested_api_key.getD e.target.api_key := rfl
  rw [hkey] at h
  unfold requested_api_key at h
  cases hp : e.payload.api_key with
  | none =>
      rw [hp, Option.map_none, Option.getD_none] at h
      exact .inl h
  | some v =>
      rw [hp, Option.map_some, Option.getD_some] at h
      right
      have htrim : nonempty (nonempty (some (Text.trim v))) = some k := h
      simp only [nonempty, Option.filter_eq_some_iff] at htrim
      exact htrim.1.1

end WebhookEdit

/-- What becomes of a webhook: it stays, or it is updated. -/
theorem Stmt.EditsWebhook.kept {l : Stmt} (hl : l.EditsWebhook) {w : World} {r : WebhookConfig}
    (hr : r ∈ w.webhooks) : r ∈ (l.after w).webhooks ∨
      ∃ c, l = .update_webhook r.id c ∧ c.apply r ∈ (l.after w).webhooks ∧
        w.groups.has (c.apply r).group_id = true := by
  cases l with
  | query q => exact .inl hr
  | insert_audit a =>
      left
      rw [(Stmt.frame (.insert_audit a) w).webhooks rfl]
      exact hr
  | insert_webhook h =>
      left
      unfold Stmt.after
      simp only [Stmt.txn, Txn.insert_webhook, Txn.db_error]
      split
      · rename_i heq
        split at heq
        · cases heq
        · cases heq
          exact Table.mem_insert_of_mem hr
      · exact hr
  | update_webhook id c =>
      by_cases hid : r.id = id
      · subst hid
        have hfound : w.webhooks.find? r.id = some r := Table.find?_key hr
        unfold Stmt.after
        simp only [Stmt.txn, Txn.update_webhook, Txn.db_error, hfound]
        cases hg : w.groups.has (c.apply r).group_id with
        | false => exact .inl hr
        | true => exact .inr ⟨c, rfl, (Table.mem_modify c.apply_id).mpr (.inr ⟨r, hr, rfl, rfl⟩), hg⟩
      · left
        unfold Stmt.after
        simp only [Stmt.txn, Txn.update_webhook, Txn.db_error]
        split
        · rename_i heq
          split at heq
          · cases heq
          · split at heq
            · cases heq
            · cases heq
              exact (Table.mem_modify c.apply_id).mpr (.inl ⟨hr, hid⟩)
        · exact hr
  | _ => exact absurd hl id

/-! ## Runs -/

/-- An admitted update gives another group to a webhook that sends its key to a URL which names the
group. -/
def Service.MovesCredential (S : Service) (req : Request) (v : Vault) : Prop :=
  ∃ key id payload e g, v.keys.find? req.key_id = some key ∧
    req.call = .update_webhook id payload ∧
    UpdateAdmitted (S.ctx req key) id payload v.toWorld e ∧
    e.target.is_privileged = true ∧ e.target.mode.sends_api_key = true ∧
    names_group e.target.target_url = true ∧
    payload.group_id = some g ∧ g ≠ e.target.group_id ∧ v.groups.has g = true

/-- The request brings the key `k` for the webhook `id` itself. -/
def Request.Brings (req : Request) (id : Uuid) (k : String) : Prop :=
  ∃ payload, req.call = .update_webhook id payload ∧ payload.api_key.map Text.trim = some k

/-- **The invariant.** The webhook `h` of the store `start` still stores its key and has its aim, and
has another group only if nobody can tell by the URL. -/
structure CredentialKept (h : WebhookConfig) (start w : World) : Prop where
  groups : w.groups = start.groups
  row : ∃ h' ∈ w.webhooks, h'.id = h.id ∧ h'.api_key = h.api_key ∧ h'.aim = h.aim ∧
    (h'.group_id = h.group_id ∨ h.mode.sends_api_key = false ∨ names_group h.target_url = false)

namespace CredentialKept

variable {S : Service} {req : Request} {h : WebhookConfig} {start w : World} {v : Vault}

theorem refl (hh : h ∈ w.webhooks) : CredentialKept h w w :=
  ⟨rfl, h, hh, rfl, rfl, rfl, .inl rfl⟩

/-- **One request.** -/
theorem handle (hkept : CredentialKept h start v.toWorld) (hp : h.is_privileged = true)
    (hcall : req.call.EditsWebhook) (hord : S.NonMaster req v) (hmoves : ¬ S.MovesCredential req v) :
    CredentialKept h start (S.handle req v).2.toWorld := by
  refine S.edit_keeps hcall (I := fun w => CredentialKept h start w.toWorld) hkept
    fun key hkey l w hl hpermits hw => ⟨?_, ?_⟩
  · rw [Vault.after_toWorld, ← hw.groups]
    refine (Stmt.frame l w.toWorld).groups ?_
    cases l with
    | query | update_webhook | insert_webhook | insert_audit => rfl
    | _ => exact absurd hl id
  -- The webhook is as it was, or the statement is an update of it that `Permits` admits. As the webhook
  -- is privileged and the caller is not the master, the update leaves its URL, mode, template and key.
  · obtain ⟨h', hmem, hid, hapi, haim, hgroup⟩ := hw.row
    rcases hl.kept hmem with hold | ⟨c, rfl, hnew, hhas⟩
    · exact ⟨h', hold, hid, hapi, haim, hgroup⟩
    · obtain ⟨rfl, payload, e, hupdate, hadmitted, rfl⟩ := hpermits
      have htarget : h' = e.target := Table.eq_of_key hmem hadmitted.target hadmitted.target_id.symm
      subst htarget
      have hpriv : e.target.is_privileged = true := by
        unfold WebhookConfig.is_privileged at hp ⊢
        rw [hapi]
        exact hp
      obtain ⟨hurl, htemplate, hmode, hkeyfield⟩ := WebhookEdit.gate hadmitted.valid (hord key hkey) hpriv
      have hvalid := hadmitted.hmac_template
      rw [← hadmitted.payload_eq] at hvalid
      have hsame := e.aim_updated (S.ctx req key).entropy.signing_secret hvalid hurl htemplate hmode
      refine ⟨_, hnew, hid, ?_, hsame.trans haim, ?_⟩
      · exact (WebhookEdit.api_key_updated hkeyfield).trans hapi
      · have hafter : ((e.change (S.ctx req key).entropy.signing_secret).apply e.target).group_id =
            payload.group_id.getD e.target.group_id := by
          rw [← hadmitted.payload_eq]
          rfl
        rw [hafter] at hhas ⊢
        have hmode' : e.target.mode = h.mode := WebhookConfig.mode_eq_of_aim haim
        have hurl' : e.target.target_url = h.target_url := congrArg Aim.target_url haim
        rcases hgroup with hgroup | hstays
        · cases hg : payload.group_id with
          | none => exact .inl hgroup
          | some g =>
              rw [hg] at hhas
              by_cases hne : g = e.target.group_id
              · exact .inl (hne.trans hgroup)
              · -- The webhook moves; so it does not send its key, or the URL does not name the group.
                right
                cases hsends : h.mode.sends_api_key with
                | false => exact .inl rfl
                | true =>
                    cases hnames : names_group h.target_url with
                    | false => exact .inr rfl
                    | true =>
                        rw [← hmode'] at hsends
                        rw [← hurl'] at hnames
                        exact absurd ⟨key, _, payload, e, g, hkey, hupdate, hadmitted, hpriv, hsends,
                          hnames, hg, hne, hhas⟩ hmoves
        · exact .inr hstays

/-- What is kept sends the key to where it was sent. -/
theorem credential_url (hkept : CredentialKept h start w) (hgroup : start.Wf) (hwf : w.Wf)
    (hh : h ∈ start.webhooks) : ∃ h' ∈ w.webhooks, h'.id = h.id ∧ h'.api_key = h.api_key ∧
      ∀ content now, h'.credential_url w content now = h.credential_url start content now := by
  obtain ⟨h', hmem, hid, hapi, haim, hsame⟩ := hkept.row
  refine ⟨h', hmem, hid, hapi, fun content now => ?_⟩
  have hmode : h'.mode = h.mode := WebhookConfig.mode_eq_of_aim haim
  have hurl : h'.target_url = h.target_url := congrArg Aim.target_url haim
  unfold WebhookConfig.credential_url
  rw [hmode, hurl, hkept.groups]
  rcases hsame with hsame | hmute | hfree
  · rw [hsame]
  · rw [hmute]
    rfl
  · -- Both groups are there, and the URL is the same for both.
    obtain ⟨g, hg, hgid⟩ := Table.has_iff.mp (hgroup.webhook_group h hh)
    obtain ⟨g', hg', hgid'⟩ := Table.has_iff.mp (hwf.webhook_group h' hmem)
    rw [hkept.groups] at hg'
    have hfind : start.groups.find? h.group_id = some g := Table.find?_eq_some.mpr ⟨hg, hgid⟩
    have hfind' : start.groups.find? h'.group_id = some g' := Table.find?_eq_some.mpr ⟨hg', hgid'⟩
    have hexpand : resolve_event_variables h.target_url (content.about g')
          (toString (clock_seconds now)) =
        resolve_event_variables h.target_url (content.about g) (toString (clock_seconds now)) :=
      resolve_event_variables_congr hfree (content.about g) (some g'.id) (some g'.name) _
    rw [hfind, hfind', Option.map_some, Option.map_some, hexpand]

end CredentialKept

/-- **One request** stores a key for a webhook only if the webhook has it, or the request brings
it. -/
theorem Service.key_not_copied {S : Service} {req : Request} {v : Vault}
    (hcall : req.call.EditsWebhook) (hord : S.NonMaster req v) :
    ∀ h' ∈ (S.handle req v).2.webhooks, ∀ k, nonempty h'.api_key = some k →
      (∃ h ∈ v.webhooks, h.id = h'.id ∧ nonempty h.api_key = some k) ∨ req.Brings h'.id k := by
  refine S.edit_keeps hcall (I := fun w => ∀ h' ∈ w.webhooks, ∀ k, nonempty h'.api_key = some k →
    (∃ h ∈ v.webhooks, h.id = h'.id ∧ nonempty h.api_key = some k) ∨ req.Brings h'.id k)
    (fun h' hh' k hk => .inl ⟨h', hh', rfl, hk⟩) fun key hkey l w hl hpermits hw h' hh' k hk => ?_
  rcases Stmt.mem_webhooks_after hh' with
    hold | ⟨r, rfl, rfl⟩ | ⟨id, c, r, rfl, hr, hid, rfl⟩ | ⟨_, _, r, rfl, -, -, rfl⟩
  · exact hw h' hold k hk
  · rcases hpermits with ⟨payload, mode, hother, -⟩ | ⟨id, name, -, source, -, -, hgate, rfl⟩
    · rw [hother] at hcall
      exact (show False from hcall).elim
    · -- The source of a clone stores no key.
      have hnot : source.is_privileged = false := by
        refine hgate.resolve_right fun hm => ?_
        cases hm.symm.trans (hord key hkey)
      have hsome : source.is_privileged = true := by
        unfold WebhookConfig.is_privileged
        have hk' : nonempty source.api_key = some k := hk
        rw [hk']
        rfl
      cases hnot.symm.trans hsome
  · obtain ⟨rfl, payload, e, hupdate, hadmitted, rfl⟩ := hpermits
    have htarget : r = e.target :=
      Table.eq_of_key hr hadmitted.target (hid.trans hadmitted.target_id.symm)
    subst htarget
    rcases WebhookEdit.api_key_of_updated hk with hold | hbrought
    · exact hw e.target hr k hold
    · right
      rw [hadmitted.payload_eq] at hbrought
      exact ⟨payload, hid ▸ hupdate, hbrought⟩
  · exact (show False from hl).elim

/-- **The key stays where it is.** Along a run of updates and clones by ordinary keys, none of which
moves a webhook whose URL names its group to another group, a webhook that stores a key keeps it and
sends it to where it did; and no key gets to a webhook but by a request that brings it. -/
theorem credential_not_reaimed (S : Service) (run : List Request) (v : Vault)
    (h : Along S.handle (fun req w => req.call.EditsWebhook ∧ S.NonMaster req w ∧
      ¬ S.MovesCredential req w) run v) :
    (∀ h ∈ v.webhooks, h.is_privileged = true →
      ∃ h' ∈ (final S.handle run v).webhooks, h'.id = h.id ∧ h'.api_key = h.api_key ∧
        ∀ content now, h'.credential_url (final S.handle run v).toWorld content now =
          h.credential_url v.toWorld content now) ∧
    ∀ h' ∈ (final S.handle run v).webhooks, ∀ k, nonempty h'.api_key = some k →
      (∃ h ∈ v.webhooks, h.id = h'.id ∧ nonempty h.api_key = some k) ∨
        ∃ req ∈ run, req.Brings h'.id k := by
  constructor
  · intro r hr hp
    have hkept := h.keeps (I := fun w => CredentialKept r v.toWorld w.toWorld)
      (CredentialKept.refl hr) fun req w ⟨hcall, hord, hmoves⟩ hw =>
        hw.handle hp hcall hord hmoves
    exact hkept.credential_url v.wf (final S.handle run v).wf hr
  · refine h.and_mem.keeps (I := fun w => ∀ h' ∈ w.webhooks, ∀ k, nonempty h'.api_key = some k →
      (∃ h ∈ v.webhooks, h.id = h'.id ∧ nonempty h.api_key = some k) ∨
        ∃ req ∈ run, req.Brings h'.id k)
      (fun h' hh' k hk => .inl ⟨h', hh', rfl, hk⟩)
      fun req w ⟨⟨hcall, hord, _⟩, hmem⟩ hw h' hh' k hk => ?_
    rcases Service.key_not_copied hcall hord h' hh' k hk with ⟨r, hr, hid, hold⟩ | hbrought
    · rw [← hid]
      exact hw r hr k hold
    · exact .inr ⟨req, hmem, hbrought⟩

/-! ## A URL that names the group -/

/-- A store in which key 1 owns webhook 4, which sends the key `k` to a URL with the name of its
group, and reads in the groups 2 and 3. -/
def Vault.chained : Vault :=
  .build 8
    [.insert_key { ApiKey.sample 0 with name := "master", key_hash := "m", is_master := true },
      .insert_key { ApiKey.sample 1 with can_manage_webhooks := true },
      .insert_group (new_group "bans" "banlist" none 0),
      .insert_group (new_group "scans" "banlist" none 0),
      .insert_permission ⟨1, 2, true, false, false, false, 0⟩,
      .insert_permission ⟨1, 3, true, false, false, false, 0⟩,
      .insert_webhook
        { id := 0, name := "chain", target_url := "https://siem/$group_name", secret_token := ""
          auth_mode := "API_KEY_ONLY", api_key := some "k", hmac_template := none
          signature_header := none, signature_prefix := none, headers_json := none
          payload_template := "", group_id := 2, is_active := true, events := none
          owner_key_id := some 1, created_at := 0 }]

/-- An event of the groups of that store. -/
def EventContent.sample : EventContent := ⟨"IP_ADD", "203.0.113.7/32", false, none⟩

/-- Its owner gives it another URL, which is refused, and renames it: the key goes where it went. -/
theorem credential_not_reaimed_refused :
    let run : List Request := [.sample 1 5 (.update_webhook 4 { target_url := some "https://elsewhere" }),
      .sample 1 6 (.update_webhook 4 { name := some "siem" })]
    (outputs Service.sample_siem.handle run .chained).map Response.status = [403, 200] ∧
      ∃ h' ∈ (final Service.sample_siem.handle run .chained).webhooks,
        h'.id = 4 ∧ h'.api_key = some "k" ∧ ∀ http d,
          prepare_dispatch .sample http h' (EventContent.sample.about
            { id := 2, name := "bans", group_type := "banlist", description := none
              owner_key_id := none, created_at := 0 }) 0 = .ok d → d.target_url = "https://siem/bans" := by
  intro run
  refine ⟨by decide, ?_⟩
  -- Neither request asks for another group.
  have hstays : ∀ req ∈ run, ∀ w, ¬ Service.sample_siem.MovesCredential req w := by
    rintro req hreq w ⟨_, _, payload, _, _, -, hcall, -, -, -, -, hgroup, -⟩
    simp only [run, List.mem_cons, List.not_mem_nil, or_false] at hreq
    rcases hreq with rfl | rfl
    · cases hcall
      cases hgroup
    · cases hcall
      cases hgroup
  obtain ⟨h', hmem, hid, hapi, hurl⟩ := (credential_not_reaimed .sample_siem run .chained
    ⟨⟨trivial, by decide, hstays _ (by simp [run]) _⟩,
      ⟨trivial, by decide, hstays _ (by simp [run]) _⟩, trivial⟩).1 _ (List.mem_singleton.mpr rfl)
      (by decide)
  have hsends : ∀ r ∈ (final Service.sample_siem.handle run .chained).webhooks.rows,
      r.mode.sends_api_key = true := by decide
  have hgroup : ∀ r ∈ (final Service.sample_siem.handle run .chained).webhooks.rows,
      (final Service.sample_siem.handle run .chained).groups.find? r.group_id = some
        { id := 2, name := "bans", group_type := "banlist", description := none
          owner_key_id := none, created_at := 0 } := by decide
  refine ⟨h', hmem, hid, hapi, fun http d hd => ?_⟩
  have hsent := credential_url_of_prepare_dispatch (hsends h' hmem) (hgroup h' hmem) hd
  have hbefore := hsent.symm.trans (hurl .sample 0)
  exact Option.some.inj (hbefore.trans (by decide))

/-- Its owner gives it the other group: the key goes elsewhere. -/
theorem key_sent_elsewhere :
    ¬ ∀ (S : Service) (run : List Request) (v : Vault),
      Along S.handle (fun req w => req.call.EditsWebhook ∧ S.NonMaster req w) run v →
      ∀ h ∈ v.webhooks, h.is_privileged = true →
        ∃ h' ∈ (final S.handle run v).webhooks, h'.id = h.id ∧ h'.api_key = h.api_key ∧
          ∀ content now, h'.credential_url (final S.handle run v).toWorld content now =
            h.credential_url v.toWorld content now := by
  intro hall
  let run : List Request := [.sample 1 5 (.update_webhook 4 { group_id := some 3 })]
  obtain ⟨h', hmem, -, -, hurl⟩ := hall .sample run .chained ⟨⟨trivial, by decide⟩, trivial⟩ _
    (List.mem_singleton.mpr rfl) (by decide)
  have hgroup : ∀ r ∈ (final Service.sample.handle run .chained).webhooks.rows,
      r.credential_url (final Service.sample.handle run .chained).toWorld
        .sample 0 = some "https://siem/scans" := by decide
  have hbefore := (hurl .sample 0).symm.trans (hgroup h' hmem)
  exact absurd hbefore (by decide)

end IpVault
