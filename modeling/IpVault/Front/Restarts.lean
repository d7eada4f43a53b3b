import IpVault.Auth.AtRest
import IpVault.Auth.Sealing
import IpVault.Front.Authentic
import IpVault.Front.Deployment

set_option autoImplicit false

/-! # One store, many processes

Two things hold of a deployment however often its process ends and another takes its place. The store
has one master, the one the first start has made, and every later process pins it, whatever it is
configured with. And as long as the encryption key stays what it is, once it is set, every secret opens:
no start is refused on its account, and nobody is locked out.
-/

namespace IpVault

open Lib

/-! ## What a step of the daemon keeps -/

/-- What the service keeps with each entry of the log, the daemon keeps. -/
theorem Frontend.step_keeps {F : Frontend} {d : Daemon} {pinned : Uuid} {e : Daemon.Event}
    {I : Vault → Prop} (hpin : d.gate.master_pin = ⟨some pinned⟩) (h : I d.store)
    (hstep : ∀ (l : Logged) w, l.Authentic F [e] w → I w → I ((⟨F.env, pinned⟩ : Service).step l.event w).2) :
    I (F.step e d).2.store := by
  obtain ⟨hstore, hauthentic, -⟩ := Frontend.step_refines hpin (List.mem_singleton_self e)
  rw [hstore]
  exact hauthentic.keeps h hstep

/-- The pin stays. -/
theorem Frontend.step_pin {F : Frontend} {d : Daemon} {pinned : Uuid} (e : Daemon.Event)
    (hpin : d.gate.master_pin = ⟨some pinned⟩) : (F.step e d).2.gate.master_pin = ⟨some pinned⟩ :=
  (Frontend.step_refines hpin (List.mem_singleton_self e)).2.2

namespace Deployment

/-! ## One master -/

/-- No start has got as far as a master yet. -/
def Blank (d : Deployment) : Prop := d.process = none ∧ ∃ n, d.store = .empty n

/-- The store has the master `m`, and the process, if there is one, has pinned it. -/
def Mastered (m : ApiKey) (d : Deployment) : Prop :=
  MasterKept m d.store.toWorld ∧ ∀ p, d.process = some p → p.gate.master_pin = ⟨some m.id⟩

/-- **A step under the master `m`.** It finds a store without keys, or with this master. A start does not
fail on its account and pins no other; and where there is a master, it leaves the store as it is. -/
structure Steady (m : ApiKey) (e : Event) (d : Deployment) : Prop where
  found : d.Blank ∨ d.Mastered m
  refused : ∀ err, (step e d).1 ≠ .refused (.master err)
  started : ∀ pin, (step e d).1 = .started pin → pin = ⟨some m.id⟩
  left : ∀ s, e = .start s → d.Mastered m → (step e d).2.store = d.store.reopened s.queue_capacity

section Steps

variable {m : ApiKey} {d : Deployment}

/-- A process that has pinned the master serves. -/
theorem step_daemon {p : Process} (hp : d.process = some p) (e : Daemon.Event) :
    (step (.daemon e) d).2 = ⟨(p.frontend.step e ⟨d.store, p.gate⟩).2.store,
      some ⟨p.frontend, (p.frontend.step e ⟨d.store, p.gate⟩).2.gate⟩⟩ := by
  unfold step
  simp only [hp]

/-- No request is answered while no process serves. -/
theorem step_daemon_down (hp : d.process = none) (e : Daemon.Event) :
    step (.daemon e) d = (.quiet, d) := by
  unfold step
  simp only [hp]

/-- A start, by what `main` makes of it. -/
theorem step_start_error {s : Start} {err : StartError} {v : Vault}
    (h : s.main d.store = (.error err, v)) : step (.start s) d = (.refused err, ⟨v, none⟩) := by
  unfold step
  simp only [h]

theorem step_start_ok {s : Start} {pin : MasterPin} {v : Vault} (h : s.main d.store = (.ok pin, v)) :
    step (.start s) d = (.started pin, ⟨v, some ⟨s.frontend, .boot s.now pin⟩⟩) := by
  unfold step
  simp only [h]

end Steps

end Deployment

/-- What the cipher seals, it opens. -/
def SecretCipher.Lossless (cipher : SecretCipher) : Prop :=
  ∀ aead, cipher = .Sealed aead → aead.Lossless

/-- The process seals in plaintext, or under this cipher. -/
def Env.MayUse (env : Env) (cipher : SecretCipher) : Prop :=
  env.HexCrate ∧ (env.cipher = .Plaintext ∨ env.cipher = cipher)

/-- The stored value is what `seal` makes of a secret, in plaintext mode or under this cipher. -/
def WrittenUnder (cipher : SecretCipher) (stored : String) : Prop :=
  ∃ env nonce secret, Env.MayUse env cipher ∧ nonce.length = Crypto.NONCE_LEN ∧
    Crypto.seal_secret env nonce secret = .ok stored

section OneKey

variable {env : Env} {cipher : SecretCipher}

/-- The configured cipher opens what was written under it, or under none. -/
theorem opens_written (hhex : env.HexCrate) (hcipher : env.cipher = cipher) (hlossless : cipher.Lossless)
    {stored : String} (h : WrittenUnder cipher stored) : Opens env stored := by
  obtain ⟨env', nonce, secret, ⟨hhex', huse⟩, hnonce, hseal⟩ := h
  have hencode : env'.hex_encode = env.hex_encode := hhex'.encode.trans hhex.encode.symm
  cases hmode : env'.cipher with
  | Plaintext =>
      unfold Crypto.seal_secret at hseal
      simp only [hmode] at hseal
      obtain rfl := Except.ok.inj hseal
      rw [hencode]
      exact ⟨secret, open_plaintext_row hhex env.cipher⟩
  | Sealed aead =>
      obtain ⟨ciphertext, hmade, hrow⟩ := (Crypto.seal_sealed_iff hmode).mp hseal
      have hsame : cipher = .Sealed aead := by
        rcases huse with hplain | hsealed
        · cases hplain.symm.trans hmode
        · exact hsealed.symm.trans hmode
      have hrow' : stored = Crypto.sealed_row env nonce ciphertext := by
        rw [hrow]
        unfold Crypto.sealed_row
        rw [hencode]
      rw [hrow']
      exact ⟨secret, (Crypto.open_sealed_row_iff hhex).mpr
        ⟨hnonce, aead, hcipher.trans hsame, hlossless aead hsame _ _ _ hmade⟩⟩

theorem stored_open (hhex : env.HexCrate) (hcipher : env.cipher = cipher) (hlossless : cipher.Lossless)
    {keys : Table ApiKey.id} (h : StoredSecrets (WrittenUnder cipher) keys) :
    StoredSecrets (Opens env) keys :=
  fun k hk stored hstored => opens_written hhex hcipher hlossless (h k hk stored hstored)

/-- The canary refuses no table whose secrets open. -/
theorem canary_of_opens {keys : Table ApiKey.id} (h : StoredSecrets (Opens env) keys) (e : Crypto.CryptoError) :
    verify_encryption_key env keys ≠ .error e := by
  unfold verify_encryption_key
  cases hsample : canary_sample keys with
  | none => exact fun h => (nomatch h)
  | some stored =>
      obtain ⟨k, hk, hstored⟩ := mem_of_canary_sample hsample
      obtain ⟨secret, hopen⟩ := h k hk stored hstored
      have hcheck : Crypto.check_key_canary env (some stored) =
          (Crypto.open_secret env stored >>= fun _ => .ok .Verified) := rfl
      rw [hcheck, hopen]
      exact fun h => (nomatch h)

end OneKey

section Starts

variable {s : Start} {v : Vault}

/-- A start that succeeds has pinned somebody. -/
theorem Start.main_pin {pin : MasterPin} (h : (s.main v).1 = .ok pin) : ∃ id, pin = ⟨some id⟩ := by
  unfold Start.main at h
  split at h
  · cases h
  · rename_i w hrun
    unfold Start.identity at h
    split at h
    · cases h
    · split at h
      · cases h
      · rename_i id pin' hpin
        have hbooted : (⟨s.frontend.env, id⟩ : Service).Booted w.toWorld := congrArg Prod.fst hpin
        obtain rfl : pin' = pin := Except.ok.inj h
        exact ⟨id, congrArg Prod.snd (hpin.symm.trans (pin_of_booted hbooted))⟩

/-- A start that the canary refuses has left a store the canary refuses. -/
theorem Start.main_canary {e : Crypto.CryptoError} (h : (s.main v).1 = .error (.canary e)) :
    verify_encryption_key s.frontend.env (s.main v).2.keys = .error e := by
  unfold Start.main at h ⊢
  split at h
  · cases h
  · rename_i w hrun
    unfold Start.identity at h
    split at h
    · rename_i e' hcanary
      obtain rfl := StartError.canary.inj (Except.error.inj h)
      exact hcanary
    · split at h
      · cases h
      · cases h

/-- The secrets a start leaves are those it has found, and what it has sealed itself. -/
theorem Start.main_stores {P : String → Prop} (h : StoredSecrets P v.keys)
    (hseal : ∀ stored, Crypto.seal_secret s.frontend.env s.entropy.nonce
      (s.cfg.signing_secret s.entropy) = .ok stored → P stored) :
    StoredSecrets P (s.main v).2.keys := by
  have hreopened : StoredSecrets P (v.reopened s.queue_capacity).keys := h
  have hboot : StoredSecrets P ((bootstrap_master_key s.frontend.env s.cfg s.entropy s.now).run database
      (v.reopened s.queue_capacity)).2.keys := by
    by_cases hmaster : ∃ k ∈ (v.reopened s.queue_capacity).keys, k.is_master = true
    · rw [bootstrap_of_master hmaster]
      exact hreopened
    · have hordinary : ∀ k ∈ (v.reopened s.queue_capacity).keys, k.is_master = false :=
        fun k hk => Bool.eq_false_iff.mpr fun hkm => hmaster ⟨k, hk, hkm⟩
      have hrun := (bootstrap_without_master s.frontend.env s.cfg s.entropy s.now hordinary).run
      cases hresult : (bootstrap_master_key s.frontend.env s.cfg s.entropy s.now).run database
          (v.reopened s.queue_capacity) with
      | mk outcome w =>
          cases outcome with
          | error e =>
              obtain rfl := hrun.2 e w hresult
              exact hreopened
          | ok u =>
              obtain ⟨row, ⟨_, stored, -, hstored, rfl⟩, rfl⟩ := hrun.1 u w hresult
              refine hreopened.after ?_
              rintro _ ⟨⟩
              exact hseal _ hstored
  have hstore : (s.main v).2 = ((bootstrap_master_key s.frontend.env s.cfg s.entropy s.now).run database
      (v.reopened s.queue_capacity)).2 := by
    unfold Start.main
    split
    · rename_i hrun
      rw [hrun]
    · rename_i hrun
      rw [hrun]
  rw [hstore]
  exact hboot

end Starts

/-- **The run keeps its encryption key**, from the first start on that has one, and the nonces are as
long as they should be. -/
structure KeepsKey (cipher : SecretCipher) (run : List Deployment.Event) : Prop where
  start : ∀ s, .start s ∈ run →
    s.frontend.env.MayUse cipher ∧ s.entropy.nonce.length = Crypto.NONCE_LEN
  request : ∀ x, .daemon (.incoming x) ∈ run → x.entropy.nonce.length = Crypto.NONCE_LEN

namespace Deployment

/-- Every secret of the store was written in plaintext or under the cipher, and the process goes on so. -/
def Written (cipher : SecretCipher) (d : Deployment) : Prop :=
  StoredSecrets (WrittenUnder cipher) d.store.keys ∧ ∀ p, d.process = some p →
    p.frontend.env.MayUse cipher ∧ ∃ pinned, p.gate.master_pin = ⟨some pinned⟩

/-- A process with the cipher opens every secret of the store it serves, and no start with the cipher is
refused because of a secret. -/
def Opening (cipher : SecretCipher) (e : Event) (d : Deployment) : Prop :=
  (∀ p, d.process = some p → p.frontend.env.cipher = cipher →
    StoredSecrets (Opens p.frontend.env) d.store.keys) ∧
  ∀ s, e = .start s → s.frontend.env.cipher = cipher →
    ∀ err, (step e d).1 ≠ .refused (.canary err)

section Steps

variable {cipher : SecretCipher} {d : Deployment} {run : List Event} {e : Event}

theorem start_written (hkey : KeepsKey cipher run) {s : Start} (hs : .start s ∈ run) (h : d.Written cipher) :
    StoredSecrets (WrittenUnder cipher) (s.main d.store).2.keys :=
  Start.main_stores h.1 fun _ hseal =>
    ⟨_, _, _, (hkey.start s hs).1, (hkey.start s hs).2, hseal⟩

/-- **One step** of a run that keeps its key. -/
theorem step_written (hkey : KeepsKey cipher run) (he : e ∈ run) (h : d.Written cipher) :
    (step e d).2.Written cipher := by
  obtain ⟨hsecrets, hprocess⟩ := h
  cases e with
  | stop => exact ⟨hsecrets, fun p hp => (nomatch hp)⟩
  | start s =>
      have hleft := start_written hkey he ⟨hsecrets, hprocess⟩
      cases hmain : s.main d.store with
      | mk outcome w =>
          rw [hmain] at hleft
          cases outcome with
          | error err =>
              rw [step_start_error hmain]
              exact ⟨hleft, fun p hp => (nomatch hp)⟩
          | ok pin =>
              rw [step_start_ok hmain]
              refine ⟨hleft, fun p hp => ?_⟩
              obtain rfl := Option.some.inj hp
              exact ⟨(hkey.start s he).1, Start.main_pin (congrArg Prod.fst hmain)⟩
  | daemon e =>
      cases hp : d.process with
      | none =>
          rw [step_daemon_down hp]
          exact ⟨hsecrets, hprocess⟩
      | some p =>
          obtain ⟨huse, pinned, hpin⟩ := hprocess p hp
          rw [step_daemon hp]
          refine ⟨?_, fun p' hp' => ?_⟩
          · refine Frontend.step_keeps (I := fun v => StoredSecrets (WrittenUnder cipher) v.keys) hpin
              hsecrets fun l w hl hw => Service.step_stores hw l.event fun req hreq stored hseal => ?_
            rcases hl with ⟨now, -, rfl⟩ | ⟨x, v, c, hx, -, -, rfl⟩
            · cases hreq
            · obtain rfl := Service.Event.request.inj hreq
              obtain rfl := List.mem_singleton.mp hx
              exact ⟨_, _, _, huse, hkey.request x he, hseal⟩
          · obtain rfl := Option.some.inj hp'
            exact ⟨huse, pinned, Frontend.step_pin e hpin⟩

/-- What such a step shows. -/
theorem opening_of_written (hlossless : cipher.Lossless) (hkey : KeepsKey cipher run) (he : e ∈ run)
    (h : d.Written cipher) : d.Opening cipher e := by
  refine ⟨fun p hp hcipher => stored_open (h.2 p hp).1.1 hcipher hlossless h.1, ?_⟩
  rintro s rfl hcipher err hrefused
  have hopens := stored_open (hkey.start s he).1.1 hcipher hlossless (start_written hkey he h)
  cases hmain : s.main d.store with
  | mk outcome w =>
      cases outcome with
      | error err' =>
          rw [step_start_error hmain] at hrefused
          obtain rfl := Outcome.refused.inj hrefused
          exact canary_of_opens hopens err (Start.main_canary (congrArg Prod.fst hmain))
      | ok pin =>
          rw [step_start_ok hmain] at hrefused
          cases hrefused

end Steps

end Deployment

/-- **Nobody is locked out.** In a run that keeps its encryption key, a process that has the key opens
the secret of every key of the store it serves, in every state, whatever has come in and however often
the process has been started, with the key or before there was one; and no start with the key is refused
because of a secret. -/
theorem nobody_locked_out {cipher : SecretCipher} (hlossless : cipher.Lossless)
    {run : List Deployment.Event} (hkey : KeepsKey cipher run) (queue_capacity : Nat) :
    Along Deployment.step (fun e d => d.Opening cipher e) run (.new queue_capacity) := by
  have hnew : (Deployment.new queue_capacity).Written cipher :=
    ⟨fun k hk => absurd hk (Table.mem_empty k), fun p hp => (nomatch hp)⟩
  exact (Along.of_mem run _).shows hnew (fun e d he hd => Deployment.step_written hkey he hd)
    fun e d he hd => Deployment.opening_of_written hlossless hkey he hd

/-- A start under the key 9, with nothing configured but that. -/
def Start.sample : Start where
  frontend := ⟨.tagging, fun _ _ _ _ => .error .Internal, fun _ => ⟨404, none⟩⟩
  cfg := ⟨none, none, none⟩
  queue_capacity := 8
  entropy := ⟨"vault-key", "s3cret", List.replicate Crypto.NONCE_LEN 0⟩
  now := 0

/-- The same before there is a key. -/
def Start.plain : Start :=
  { Start.sample with
    frontend := { Start.sample.frontend with env := { Env.tagging with cipher := .Plaintext } } }

/-- A first start without a key, and a second one with it. -/
theorem nobody_locked_out_restart :
    Along Deployment.step (fun e d => d.Opening (.Sealed (tagging_aead 9)) e)
      [.start .plain, .stop, .start .sample] (.new 8) := by
  refine nobody_locked_out (fun aead haead => ?_) ⟨fun s hs => ?_, fun x hx => ?_⟩ 8
  · obtain rfl := SecretCipher.Sealed.inj haead
    exact lossless_tagging_aead 9
  · obtain rfl | rfl : s = .plain ∨ s = .sample := by simpa using hs
    · exact ⟨⟨⟨rfl, rfl⟩, .inl rfl⟩, by decide⟩
    · exact ⟨⟨⟨rfl, rfl⟩, .inr rfl⟩, by decide⟩
  · simp at hx

end IpVault
