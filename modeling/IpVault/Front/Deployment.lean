import IpVault.Auth.Canary
import IpVault.Front.Daemon
import IpVault.Keys.MasterRow

set_option autoImplicit false

/-! # Starts and stops (`main` in `main.rs`)

A process finds the store as the one before it has left it. It sees to the master key, tries the
encryption key, and pins the master, in this order, before it serves anything; each of the three may
refuse the start. What a process keeps in memory, the queue of the webhooks included, ends with it.
-/

namespace IpVault

open Lib

/-! ## The start -/

/-- Why `main` returns before it serves. -/
inductive StartError where
  | bootstrap (e : AppError)
  | canary (e : Crypto.CryptoError)
  | master (e : MasterPinError)

/-- What a process is started with. -/
structure Start where
  frontend : Frontend
  cfg : BootConfig
  /-- The capacity of the webhook channel, which `setup_state` makes anew. -/
  queue_capacity : Nat
  entropy : Entropy
  now : Int

theorem World.Wf.reopened {w : World} (h : w.Wf) (queue_capacity : Nat) :
    ({ w with queue := [], queue_capacity } : World).Wf := { h with }

/-- The store, with an empty channel beside it. -/
def Vault.reopened (v : Vault) (queue_capacity : Nat) : Vault where
  toWorld := { v.toWorld with queue := [], queue_capacity }
  wf := v.wf.reopened queue_capacity

/-- The second half of the start: the encryption key is tried, and the master is pinned. -/
def Start.identity (s : Start) (w : Vault) : Except StartError MasterPin :=
  match verify_encryption_key s.frontend.env w.keys with
  | .error e => .error (.canary e)
  | .ok _ =>
      match MasterPin.new.pin_at_boot w.master_view with
      | (.error e, _) => .error (.master e)
      | (.ok _, pin) => .ok pin

/-- What `main` does before it serves: the master's identity, or why there is none. -/
def Start.main (s : Start) (v : Vault) : Except StartError MasterPin × Vault :=
  match (bootstrap_master_key s.frontend.env s.cfg s.entropy s.now).run database
      (v.reopened s.queue_capacity) with
  | (.error e, w) => (.error (.bootstrap e), w)
  | (.ok (), w) => (s.identity w, w)

/-! ## The deployment -/

/-- A process that serves. -/
structure Process where
  frontend : Frontend
  gate : Gate

/-- The store, and the process that serves it, if one does. -/
structure Deployment where
  store : Vault
  process : Option Process

/-- What happens to a deployment. The process may end at any moment, and while none serves, no request
is answered. -/
inductive Deployment.Event where
  | start (s : Start)
  | daemon (e : Daemon.Event)
  | stop

/-- What is seen of a step. -/
inductive Deployment.Outcome where
  | quiet
  | started (pin : MasterPin)
  | refused (e : StartError)
  | answered (a : Answer)

namespace Deployment

/-- The store before its first process. -/
def new (queue_capacity : Nat) : Deployment := ⟨.empty queue_capacity, none⟩

/-- One step of a run. A process that is started takes the place of the one that served. -/
def step : Event → Deployment → Outcome × Deployment
  | .start s, d =>
      match s.main d.store with
      | (.error e, v) => (.refused e, ⟨v, none⟩)
      | (.ok pin, v) => (.started pin, ⟨v, some ⟨s.frontend, .boot s.now pin⟩⟩)
  | .stop, d => (.quiet, { d with process := none })
  | .daemon e, d =>
      match d.process with
      | none => (.quiet, d)
      | some p =>
          match p.frontend.step e ⟨d.store, p.gate⟩ with
          | (answer, next) =>
              ((answer.map Outcome.answered).getD .quiet, ⟨next.store, some ⟨p.frontend, next.gate⟩⟩)

end Deployment

/-! ## What a start does -/

/-- What a call that succeeds pins. -/
theorem pin_of_booted {S : Service} {w : World} (h : S.Booted w) :
    MasterPin.new.pin_at_boot w.master_view = (.ok S.pinned, ⟨some S.pinned⟩) := by
  unfold Service.Booted at h
  unfold MasterPin.pin_at_boot MasterPin.new at h ⊢
  simp only at h ⊢
  split at h
  · cases h
  · rename_i pinned hsole
    split at h
    · cases h
    · obtain rfl := Except.ok.inj h
      rfl

theorem of_mapError_ok {α ε ε' : Type} {f : ε → ε'} {x : Except ε α} {a : α}
    (h : x.mapError f = .ok a) : x = .ok a := by
  cases x with
  | error e => cases h
  | ok b =>
      cases h
      rfl

section Start

variable {env : Env} {cfg : BootConfig} {entropy : Entropy} {now : Int} {v : Vault}

/-- A store that has a master is left as it is, whatever is configured. -/
theorem bootstrap_of_master (h : ∃ k ∈ v.keys, k.is_master = true) :
    (bootstrap_master_key env cfg entropy now).run database v = (.ok (), v) := by
  have hany : ((Query.all_keys.eval v.toWorld : List ApiKey).any (·.is_master)) = true := by
    obtain ⟨k, hk, hmaster⟩ := h
    exact List.any_eq_true.mpr ⟨k, hk, hmaster⟩
  unfold bootstrap_master_key
  rw [Prog.run_bind]
  show (if ((Query.all_keys.eval v.toWorld : List ApiKey).any (·.is_master)) = true then _ else _
    : Handler Unit).run database v = _
  rw [if_pos hany]
  rfl

/-- The row of a master that is bootstrapped with what is configured and what is drawn. -/
def Bootstrapped (env : Env) (cfg : BootConfig) (entropy : Entropy) (now : Int) (row : ApiKey) : Prop :=
  ∃ plaintext_key stored, cfg.plaintext_key entropy = .ok plaintext_key ∧
    Crypto.seal_secret env entropy.nonce (cfg.signing_secret entropy) = .ok stored ∧
    row = master_row env cfg plaintext_key stored now

/-- Without a master the row of one is inserted, or nothing is done. -/
theorem bootstrap_without_master (env : Env) (cfg : BootConfig) (entropy : Entropy) (now : Int)
    (h : ∀ k ∈ v.keys, k.is_master = false) :
    Prog.Meets database (fun _ _ => True)
      (fun _ w => ∃ row, Bootstrapped env cfg entropy now row ∧ w = v.after (.insert_key row))
      (fun _ w => w = v) (bootstrap_master_key env cfg entropy now) v := by
  have hnone : ((Query.all_keys.eval v.toWorld : List ApiKey).any (·.is_master)) = false :=
    List.any_eq_false.mpr fun k hk => by simp [h k hk]
  unfold bootstrap_master_key
  rw [Prog.meets_bind, meets_select]
  refine ⟨trivial, ?_⟩
  rw [hnone]
  simp only [Bool.false_eq_true, if_false]
  rw [Prog.meets_bind, Prog.meets_ofExcept]
  refine ⟨fun plaintext_key hkey => ?_, fun e _ => rfl⟩
  rw [Prog.meets_bind, Prog.meets_ofExcept]
  refine ⟨fun stored hstored => ?_, fun e _ => rfl⟩
  rw [Prog.meets_bind, meets_exec]
  refine ⟨trivial, fun _ _ _ => ⟨_, ⟨plaintext_key, stored, ?_, ?_, rfl⟩, rfl⟩, fun e he => ?_⟩
  · exact of_mapError_ok hkey
  · exact of_mapError_ok hstored
  · exact Vault.ext_world (Stmt.after_of_error he)

/-- The row of the master in the store it is the first row of. -/
def ApiKey.first (row : ApiKey) : ApiKey := { row with id := 0 }

theorem MasterKept.reopened {m : ApiKey} (h : MasterKept m v.toWorld) (n : Nat) :
    MasterKept m (v.reopened n).toWorld := ⟨h.row, h.sole, h.permissions, h.groups, h.webhooks⟩

end Start

end IpVault
