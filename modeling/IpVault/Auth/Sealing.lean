import IpVault.Access.Footprint
import IpVault.Auth.Canary

set_option autoImplicit false

/-! # Every secret is sealed before it is stored

Three handlers write a signing secret, and each of them seals it first, under the cipher the service is
configured with. So the secrets of a store are what `seal` makes under the ciphers that were configured
while it was written.
-/

namespace IpVault

open Lib

/-! ## Statements -/

/-- The secrets a statement stores are as `P` says. -/
def Stmt.Stores (P : String → Prop) : Stmt → Prop
  | .insert_key k => ∀ stored, k.signing_secret = some stored → P stored
  | .update_key _ c => ∀ stored, c.signing_secret = some stored → P stored
  | _ => True

/-- The secrets of a table are as `P` says. -/
def StoredSecrets (P : String → Prop) (keys : Table ApiKey.id) : Prop :=
  ∀ k ∈ keys, ∀ stored, k.signing_secret = some stored → P stored

theorem Stmt.Stores.mono {P P' : String → Prop} {l : Stmt} (h : l.Stores P)
    (hP : ∀ stored, P stored → P' stored) : l.Stores P' := by
  cases l with
  | insert_key k => exact fun stored hstored => hP stored (h stored hstored)
  | update_key id c => exact fun stored hstored => hP stored (h stored hstored)
  | _ => trivial

section Statements

variable {P : String → Prop} {l : Stmt} {w : World}

/-- One statement. -/
theorem StoredSecrets.after (h : StoredSecrets P w.keys) (hl : l.Stores P) :
    StoredSecrets P (l.after w).keys := by
  intro k hk stored hstored
  rcases Stmt.mem_keys_after hk with hold | ⟨k₀, rfl, rfl⟩ | ⟨id, c, k₀, rfl, hk₀, -, rfl⟩
  · exact h k hold stored hstored
  · exact hl stored hstored
  · rcases Option.or_eq_some_iff.mp hstored with hnew | ⟨-, hold⟩
    · exact hl stored hnew
    · exact h k₀ hk₀ stored hold

end Statements

/-! ## Handlers -/

/-- What `seal` makes of the secret a request draws. -/
def SealedHere (ctx : Ctx) (stored : String) : Prop :=
  Crypto.seal_secret ctx.env ctx.entropy.nonce ctx.entropy.signing_secret = .ok stored

/-- The endpoints that write the row of a key. -/
def Call.writes_a_key : Call → Bool
  | .create_api_key _ | .update_api_key _ _ | .rotate_api_key _ | .rotate_signing_secret _ => true
  | _ => false

/-- The handler `p` stores no secret but what it has sealed. -/
abbrev Seals {α : Type} (ctx : Ctx) (p : Handler α) : Prop :=
  p.Issues fun l : Stmt => l.Stores (SealedHere ctx)

section Handlers

variable {ctx : Ctx} {α β : Type}

theorem seals_reads {p : Handler α} (h : OnlyReads p) : Seals ctx p :=
  Prog.Issues.mono h fun _ ⟨_, hq⟩ => hq ▸ trivial

theorem seals_exec {l : Stmt} (h : l.Stores (SealedHere ctx)) : Seals ctx (exec l) :=
  .bind (.op h) fun _ => .ofExcept _

/-- The rest of a handler goes on with what was sealed. -/
theorem seals_seal_for {f : String → Handler β} (h : ∀ stored, SealedHere ctx stored → Seals ctx (f stored)) :
    Seals ctx (seal_for ctx >>= f) := by
  unfold seal_for
  cases hseal : Crypto.seal_secret ctx.env ctx.entropy.nonce ctx.entropy.signing_secret with
  | error e => trivial
  | ok stored => exact h stored hseal

theorem create_api_key_seals (payload : CreateApiKeyPayload) :
    Seals ctx (create_api_key ctx payload) := by
  refine .bind (.require _ _) fun _ => .bind (.ofExcept _) fun _ => .bind (.ofExcept _) fun _ => ?_
  refine seals_seal_for fun stored hsealed => .bind (seals_exec ?_) fun id => ?_
  · rintro _ ⟨⟩
    exact hsealed
  · exact .bind (seals_exec trivial) fun _ => trivial

theorem update_api_key_seals (id : Uuid) (payload : UpdateApiKeyPayload) :
    Seals ctx (update_api_key ctx id payload) := by
  refine .bind (.require _ _) fun _ => ?_
  refine .bind (seals_reads (find_administrable_key_only_reads _ _)) fun target => ?_
  refine .bind (.ofExcept _) fun _ => .bind (.ofExcept _) fun _ => .bind (.ofExcept _) fun _ => ?_
  refine .bind (.ofExcept _) fun _ => .bind (seals_exec ?_) fun updated => ?_
  · rintro _ ⟨⟩
  · refine .bind (seals_exec trivial) fun _ => ?_
    exact .bind (seals_reads (full_api_key_summary_only_reads _)) fun _ => trivial

theorem rotate_api_key_seals (id : Uuid) : Seals ctx (rotate_api_key ctx id) := by
  refine .bind (seals_reads (rotation_target_only_reads _ _)) fun target => ?_
  refine seals_seal_for fun stored hsealed => .bind (seals_exec ?_) fun _ => ?_
  · rintro _ ⟨⟩
    exact hsealed
  · exact .bind (seals_exec trivial) fun _ => trivial

theorem rotate_signing_secret_seals (id : Uuid) : Seals ctx (rotate_signing_secret ctx id) := by
  refine .bind (seals_reads (rotation_target_only_reads _ _)) fun target => ?_
  refine seals_seal_for fun stored hsealed => .bind (seals_exec ?_) fun _ => ?_
  · rintro _ ⟨⟩
    exact hsealed
  · exact .bind (seals_exec trivial) fun _ => trivial

/-- An endpoint that writes no row of a key stores no secret. -/
theorem stores_of_footprint {P : String → Prop} {call : Call} {l : Stmt}
    (hcall : call.writes_a_key = false) (hl : call.footprint l = true) : l.Stores P := by
  cases l with
  | insert_key k =>
      cases call <;> first | (cases hl; done) | cases hcall
  | update_key id c =>
      cases call <;> first | (cases hl; done) | cases hcall
  | _ => trivial

/-- **Every endpoint seals what it stores.** -/
theorem Call.seals (call : Call) : Seals ctx (call.handler ctx) := by
  by_cases hcall : call.writes_a_key = false
  · exact Prog.Issues.mono call.within fun l hl => stores_of_footprint hcall hl
  · cases call with
    | create_api_key payload => exact create_api_key_seals payload
    | update_api_key id payload => exact update_api_key_seals id payload
    | rotate_api_key id => exact rotate_api_key_seals id
    | rotate_signing_secret id => exact rotate_signing_secret_seals id
    | _ => exact absurd rfl hcall

end Handlers

/-! ## Requests -/

namespace Service

variable {S : Service} {P : String → Prop} {v : Vault}

/-- A request leaves the secrets as they were, but for what it seals. -/
theorem handle_stores (h : StoredSecrets P v.keys) (req : Request)
    (hreq : ∀ stored,
      Crypto.seal_secret S.env req.entropy.nonce req.entropy.signing_secret = .ok stored → P stored) :
    StoredSecrets P (S.handle req v).2.keys := by
  have hserve : (S.serve req).Issues fun l : Stmt => l.Stores P :=
    .bind (Prog.Issues.mono (OnlyReads.select _) fun _ ⟨_, hq⟩ => hq ▸ trivial) fun _ =>
      .bind (.okOr _ _) fun key => Prog.Issues.mono req.call.seals fun l hl => hl.mono hreq
  have hkeeps : Prog.Meets database (fun _ _ => True) (fun _ w => StoredSecrets P w.keys)
      (fun _ w => StoredSecrets P w.keys) (S.serve req) v :=
    Prog.Issues.keeps (I := Db) hserve h fun l w hl hw => StoredSecrets.after hw hl
  exact S.handle_of_meets (P := fun w => StoredSecrets P w.keys) hkeeps

/-- So does whatever happens. -/
theorem step_stores (h : StoredSecrets P v.keys) (e : Event)
    (hreq : ∀ req, e = .request req → ∀ stored,
      Crypto.seal_secret S.env req.entropy.nonce req.entropy.signing_secret = .ok stored → P stored) :
    StoredSecrets P (S.step e v).2.keys := by
  cases e with
  | request req => exact handle_stores h req (hreq req rfl)
  | sweep now =>
      exact S.sweep_keeps (I := fun w => StoredSecrets P w.keys) h fun threshold => h.after trivial

end Service

end IpVault
