import IpVault.Api.Support
import IpVault.Auth.SingleUse

set_option autoImplicit false

/-! # Authenticate, then authorize

The network restriction of a key is read last. A caller that has not proved possession of the
signing secret with a fresh signature gets the same answer whatever that restriction says and
wherever the request seems to come from. This is a statement about two runs of the middleware:
the two requests differ at most in the peer, the forwarding headers and the proxies trusted for
them, and the two databases at most in `bound_ips` and in who is master.
-/

namespace IpVault

open Lib

/-- A key without its network restriction. -/
def ApiKey.unbound (k : ApiKey) : ApiKey := { k with bound_ips := none }

/-- A verified request without the network restriction of its key. -/
def Verified.unbound (v : Verified) : Verified := { v with key := v.key.unbound }

@[simp] theorem Verified.unbound_signature (v : Verified) : v.unbound.signature = v.signature := rfl

/-- Two arrivals that differ at most in the network they come from and in the restrictions of the
keys. -/
structure SameButNetwork (a b : Arrival) : Prop where
  now : a.now = b.now
  method : a.request.method = b.request.method
  target : a.request.target = b.request.target
  body : a.request.body = b.request.body
  header : ∀ name ∈ ["x-timestamp", "x-api-key", "x-signature-256"],
    IpVault.header a.request.headers name = IpVault.header b.request.headers name
  find_key : ∀ hash, (a.find_key hash).map (Option.map ApiKey.unbound) =
    (b.find_key hash).map (Option.map ApiKey.unbound)

/-- Whether the caller proves possession of the signing secret with a fresh signature. -/
def proves_possession (env : Env) (a : Arrival) (gate : Gate) : Bool :=
  match verify_request env a with
  | .error _ => false
  | .ok v => (gate.replay.check_and_record a.now v.signature).1

/-- The key lookup answers alike, up to the restriction. -/
theorem find_key_record_unbound {env : Env} {a b : Arrival} (h : SameButNetwork a b)
    (auth_header : String) :
    (find_key_record env a auth_header).map ApiKey.unbound =
      (find_key_record env b auth_header).map ApiKey.unbound := by
  have hk := h.find_key (env.sha256_hex auth_header)
  unfold find_key_record
  generalize a.find_key (env.sha256_hex auth_header) = x at hk ⊢
  generalize b.find_key (env.sha256_hex auth_header) = y at hk ⊢
  match x, y with
  | .error e, .error e' => simpa [Except.map] using hk
  | .ok none, .ok none => rfl
  | .ok (some k), .ok (some k') => simpa [Except.map] using hk
  | .error e, .ok y => simp [Except.map] at hk
  | .ok x, .error e => simp [Except.map] at hk
  | .ok none, .ok (some k') => simp [Except.map] at hk
  | .ok (some k), .ok none => simp [Except.map] at hk

/-- **Verification does not look at the network.** -/
theorem verify_request_unbound {env : Env} {a b : Arrival} (h : SameButNetwork a b) :
    (verify_request env a).map Verified.unbound = (verify_request env b).map Verified.unbound := by
  unfold verify_request validate_timestamp
  rw [h.now, h.header "x-timestamp" (by simp), h.header "x-api-key" (by simp),
    h.header "x-signature-256" (by simp), h.body, h.method, h.target]
  refine except_map_bind_same _ fun timestamp => ?_
  refine except_map_bind_same _ fun auth_header => ?_
  refine except_map_bind_same _ fun provided => ?_
  split
  · rfl
  · refine except_map_bind_congr (find_key_record_unbound h auth_header) fun k k' hk => ?_
    have hsecret : k.unbound.signing_secret = k'.unbound.signing_secret :=
      congrArg ApiKey.signing_secret hk
    change k.signing_secret = k'.signing_secret at hsecret
    unfold open_signing_secret
    rw [hsecret]
    refine except_map_bind_same _ fun secret => ?_
    refine except_map_bind_same _ fun body => ?_
    refine except_map_bind_same _ fun digest => ?_
    simp only [pure, Except.pure, Except.map, Verified.unbound, hk]

/-- **Authenticate, then authorize.** A caller that has not proved possession gets the same status
and body, and leaves the process in the same state, whatever network it comes from and whatever
the keys are bound to. -/
theorem refused_alike {env : Env} {a b : Arrival} {gate : Gate} (h : SameButNetwork a b)
    (hp : proves_possession env a gate = false) (next next' : Principal → Response) :
    respond next (auth_middleware env a gate).1 = respond next' (auth_middleware env b gate).1 ∧
      (auth_middleware env a gate).2 = (auth_middleware env b gate).2 := by
  have hv := @verify_request_unbound env a b h
  unfold proves_possession at hp
  unfold auth_middleware
  cases ha : verify_request env a with
  | error e =>
      cases hb : verify_request env b with
      | error e' =>
          obtain rfl : e = e' := by simpa [ha, hb, Except.map] using hv
          exact ⟨rfl, rfl⟩
      | ok v' => simp [ha, hb, Except.map] at hv
  | ok v =>
      cases hb : verify_request env b with
      | error e' => simp [ha, hb, Except.map] at hv
      | ok v' =>
          have hsig : v.signature = v'.signature := by
            have hu : v.unbound = v'.unbound := by simpa [ha, hb, Except.map] using hv
            rw [← v.unbound_signature, hu, v'.unbound_signature]
          simp only [ha] at hp
          simp [← hsig, ← h.now, hp, respond]

/-- The sample request used twice, the second time through a key bound to something unreadable
and from another peer. -/
theorem replay_refused_alike :
    let a := sample_arrival 1001000000000
    let b : Arrival :=
      { a with
        request := { a.request with peer := .v6 1#128 }
        find_key := fun _ => .ok (some { ApiKey.sample 1 with bound_ips := some "nonsense" }) }
    let gate := (auth_middleware Env.sample a (.boot 0 .new)).2
    respond (fun _ => ok_empty) (auth_middleware Env.sample a gate).1 =
      respond (fun _ => ok_empty) (auth_middleware Env.sample b gate).1 :=
  (refused_alike ⟨rfl, rfl, rfl, rfl, fun _ _ => rfl, fun _ => rfl⟩ (by decide) _ _).1

end IpVault
