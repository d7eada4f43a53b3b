import IpVault.Auth.Master
import IpVault.Service

set_option autoImplicit false

/-! # The first start (`bootstrap_master_key` in `main.rs`)

Before it serves anything the service makes sure that there is a master key, and pins it. This is
the only place where a row with `is_master` is written.
-/

namespace IpVault

open Lib

/-- `MASTER_KEY_HEX_LEN`. -/
def MASTER_KEY_HEX_LEN : Nat := 64

/-- `InvalidInitialMasterKey`. -/
structure InvalidInitialMasterKey where
  got : Nat
  detail : String
  deriving DecidableEq

/-- `char::is_ascii_hexdigit`. -/
def is_ascii_hexdigit (c : Char) : Bool :=
  ('0' ≤ c ∧ c ≤ '9') ∨ ('a' ≤ c ∧ c ≤ 'f') ∨ ('A' ≤ c ∧ c ≤ 'F')

/-- `validate_initial_master_key`. -/
def validate_initial_master_key (raw : String) : Except InvalidInitialMasterKey Unit :=
  let is_hex := raw.toList.all is_ascii_hexdigit
  if (Crypto.as_bytes raw).length = MASTER_KEY_HEX_LEN && is_hex then .ok ()
  else .error {
    got := raw.toList.length
    detail := if is_hex then "" else ", and it contains non-hexadecimal characters" }

/-- The environment variables of the first start. -/
structure BootConfig where
  /-- `INITIAL_MASTER_KEY`. -/
  initial_master_key : Option String
  /-- `INITIAL_MASTER_SIGNING_SECRET`. -/
  initial_master_signing_secret : Option String
  /-- `BOOTSTRAP_SUBNET`. -/
  bootstrap_subnet : Option String

/-- The master's credential: the one that is configured, or a random one. -/
def BootConfig.plaintext_key (cfg : BootConfig) (entropy : Entropy) :
    Except InvalidInitialMasterKey String :=
  match cfg.initial_master_key.filter fun k => !Text.is_empty k with
  | some fixed_key => do
      validate_initial_master_key fixed_key
      .ok fixed_key
  | none => .ok entropy.plaintext_key

/-- The master's signing secret: the one that is configured, or a random one. -/
def BootConfig.signing_secret (cfg : BootConfig) (entropy : Entropy) : String :=
  (cfg.initial_master_signing_secret.filter fun s => !Text.is_empty s).getD entropy.signing_secret

/-- The row `bootstrap_master_key` inserts. -/
def master_row (env : Env) (cfg : BootConfig) (plaintext_key stored_signing_secret : String)
    (now : Int) : ApiKey where
  id := 0
  name := "System Master"
  key_hash := env.sha256_hex plaintext_key
  signing_secret := some stored_signing_secret
  key_prefix := Text.take 8 plaintext_key
  bound_ips := some (cfg.bootstrap_subnet.getD "0.0.0.0/0,::/0")
  is_master := true
  can_manage_keys := true
  can_manage_webhooks := true
  can_create_groups := true
  parent_key_id := none
  created_at := now
  updated_at := now

/-- `bootstrap_master_key`. A key that is not valid and a secret that cannot be sealed stop the
start; the text they stop it with is not told apart here. -/
def bootstrap_master_key (env : Env) (cfg : BootConfig) (entropy : Entropy) (now : Int) :
    Handler Unit := do
  let keys ← select .all_keys
  if keys.any (·.is_master) then pure ()
  else do
    let plaintext_key ← Prog.ofExcept ((cfg.plaintext_key entropy).mapError fun _ => .Internal)
    let stored_signing_secret ← Prog.ofExcept ((Crypto.seal_secret env entropy.nonce
      (cfg.signing_secret entropy)).mapError Crypto.CryptoError.into_app_error)
    let _ ← exec (.insert_key (master_row env cfg plaintext_key stored_signing_secret now))
    pure ()

/-- What `MasterPin` reads of a store whose index is there. -/
def World.master_view (w : World) : MasterView where
  masters := .ok ((w.keys.rows.filter (·.is_master)).map ApiKey.id)
  has_index := .ok true

/-- The service has pinned its master in this store: `pin_at_boot` has returned its identifier. -/
def Service.Booted (S : Service) (w : World) : Prop :=
  (MasterPin.new.pin_at_boot w.master_view).1 = .ok S.pinned

/-- **The pin is the only row that says it is master.** -/
theorem Service.booted_iff {S : Service} {w : World} :
    S.Booted w ↔ ∃ m ∈ w.keys, m.is_master = true ∧ m.id = S.pinned ∧
      ∀ k ∈ w.keys, k.is_master = true → k = m := by
  unfold Service.Booted MasterPin.new MasterPin.pin_at_boot
  have nodup : (w.keys.rows.filter (·.is_master)).Nodup :=
    (List.Nodup.of_map _ w.keys.unique).filter _
  have mem : ∀ k, k ∈ w.keys.rows.filter (·.is_master) ↔ k ∈ w.keys ∧ k.is_master = true :=
    fun k => List.mem_filter
  simp only [MasterPin.sole_master, World.master_view, MasterPin.check_index]
  generalize w.keys.rows.filter (·.is_master) = masters at nodup mem ⊢
  match masters with
  | [] =>
      simp only [List.map_nil, reduceCtorEq, false_iff]
      rintro ⟨m, hm, hmaster, -⟩
      exact absurd ((mem m).mpr ⟨hm, hmaster⟩) List.not_mem_nil
  | [m] =>
      simp only [List.map_cons, List.map_nil, Except.ok.injEq]
      obtain ⟨hm, hmaster⟩ := (mem m).mp (List.mem_singleton_self m)
      have sole : ∀ k ∈ w.keys, k.is_master = true → k = m :=
        fun k hk hkm => List.mem_singleton.mp ((mem k).mpr ⟨hk, hkm⟩)
      constructor
      · intro hid
        exact ⟨m, hm, hmaster, hid, sole⟩
      · rintro ⟨m', hm', hmaster', hid, -⟩
        rw [← sole m' hm' hmaster', hid]
  | m :: m' :: rest =>
      simp only [List.map_cons, reduceCtorEq, false_iff]
      rintro ⟨k, -, -, -, sole⟩
      have hm := (mem m).mp List.mem_cons_self
      have hm' := (mem m').mp (List.mem_cons_of_mem _ List.mem_cons_self)
      have hsame : m = m' := (sole m hm.1 hm.2).trans (sole m' hm'.1 hm'.2).symm
      rw [hsame] at nodup
      exact absurd List.mem_cons_self (List.nodup_cons.mp nodup).1

/-- **What the first start leaves** of a store without keys: the row of the master. -/
theorem bootstrap_master_key_meets {G : Stmt → Vault → Prop} {E : AppError → Vault → Prop}
    {v : Vault} (hG : ∀ l w, G l w) (hE : ∀ e w, E e w) (hv : v.keys = .empty) (env : Env)
    (cfg : BootConfig) (entropy : Entropy) (now : Int) :
    Prog.Meets database G (fun _ w => ∃ plaintext_key stored_signing_secret,
        w = v.after (.insert_key (master_row env cfg plaintext_key stored_signing_secret now)))
      E (bootstrap_master_key env cfg entropy now) v := by
  unfold bootstrap_master_key
  rw [Prog.meets_bind, meets_select]
  refine ⟨hG _ _, ?_⟩
  have hnone : ((Query.all_keys.eval v.toWorld : List ApiKey).any (·.is_master)) = false := by
    show v.keys.rows.any _ = false
    rw [hv]
    rfl
  rw [hnone]
  simp only [Bool.false_eq_true, if_false]
  rw [Prog.meets_bind, Prog.meets_ofExcept]
  refine ⟨fun plaintext_key _ => ?_, fun e _ => hE _ _⟩
  rw [Prog.meets_bind, Prog.meets_ofExcept]
  refine ⟨fun stored _ => ?_, fun e _ => hE _ _⟩
  rw [Prog.meets_bind, meets_exec]
  exact ⟨hG _ _, fun _ _ _ => ⟨plaintext_key, stored, rfl⟩, fun _ _ => hE _ _⟩

end IpVault
