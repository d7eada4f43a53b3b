import IpVault.Auth.Middleware
import IpVault.Lib.Atomic
import IpVault.Lib.Runs
import Mathlib.Data.List.ReduceOption

set_option autoImplicit false

/-! # How often one signed request is let through

Two windows guard against a replay: the timestamp must be close to the clock, on either side, and
an accepted signature is remembered for `MAX_TIMESTAMP_SKEW_SECS` seconds from its acceptance.
The second window outlasts the first only for a request dated before the second it is accepted
in. For such requests `admitted_at_most_once` holds over every run; a request dated at or after
that second passes again one window later (`admitted_again`).
-/

namespace IpVault

open Lib

/-- What a signature covers, with the signature itself. -/
structure SignedRequest where
  signature : SignatureId
  method : String
  target : String
  timestamp : String
  body : List UInt8
  deriving DecidableEq

/-- The signed request a verified request carries. -/
def Verified.signed (v : Verified) (a : Arrival) : SignedRequest :=
  ⟨v.signature, a.request.method, a.request.target, v.timestamp, v.body_bytes⟩

/-- One step of the middleware: the signed request it lets through, if it lets it through. -/
def accept (env : Env) (a : Arrival) (gate : Gate) : Option SignedRequest × Gate :=
  let (result, gate) := auth_middleware env a gate
  match verify_request env a, result with
  | .ok v, .ok _ => (some (v.signed a), gate)
  | _, _ => (none, gate)

/-- The timestamp of the request, if it has one that parses, is before the server's clock. -/
def Predated (a : Arrival) : Prop :=
  ∀ raw supplied, (header a.request.headers "x-timestamp").map Text.trim = some raw →
    Text.parse_i64 raw = some supplied → supplied < clock_seconds a.now

/-! ## One request -/

/-- Passing `verify_request` includes passing `validate_timestamp`. -/
theorem verify_request_ok {env : Env} {a : Arrival} {v : Verified}
    (h : verify_request env a = .ok v) :
    validate_timestamp a.request.headers a.now = .ok v.timestamp := by
  unfold verify_request at h
  obtain ⟨timestamp, ht, h⟩ := except_bind_ok.mp h
  obtain ⟨auth_header, -, h⟩ := except_bind_ok.mp h
  obtain ⟨provided, -, h⟩ := except_bind_ok.mp h
  split at h
  · cases h
  · obtain ⟨key, -, h⟩ := except_bind_ok.mp h
    obtain ⟨secret, -, h⟩ := except_bind_ok.mp h
    obtain ⟨body, -, h⟩ := except_bind_ok.mp h
    obtain ⟨digest, -, h⟩ := except_bind_ok.mp h
    obtain rfl : (⟨key, timestamp, body, digest⟩ : Verified) = v := by simpa [pure, Except.pure] using h
    exact ht

/-- The guard after a request: untouched unless the signature verified. -/
theorem auth_middleware_replay (env : Env) (a : Arrival) (gate : Gate) :
    (auth_middleware env a gate).2.replay =
      match verify_request env a with
      | .error _ => gate.replay
      | .ok v => (gate.replay.check_and_record a.now v.signature).2 := by
  unfold auth_middleware
  cases verify_request env a with
  | error e => rfl
  | ok v =>
      simp only
      split
      · rfl
      · split
        · rfl
        · rfl

/-- What is let through has verified, is a first use and comes from an allowed network. -/
theorem accept_eq_some {env : Env} {a : Arrival} {gate : Gate} {r : SignedRequest} :
    (accept env a gate).1 = some r ↔
      ∃ v, verify_request env a = .ok v ∧ v.signed a = r ∧
        (gate.replay.check_and_record a.now v.signature).1 = true ∧
        authorize_network env v.key (resolve_client_ip env.parse_ip a.request.peer
          a.request.headers a.trusted_proxies) = .ok () := by
  unfold accept auth_middleware
  cases hv : verify_request env a with
  | error e => simp
  | ok v =>
      cases hc : (gate.replay.check_and_record a.now v.signature).1 with
      | false => simp [hc]
      | true =>
          cases hn : authorize_network env v.key
              (resolve_client_ip env.parse_ip a.request.peer a.request.headers a.trusted_proxies) with
          | error e => simp [hc, hn]
          | ok u => simp [hc, hn]

@[simp] theorem accept_gate (env : Env) (a : Arrival) (gate : Gate) :
    (accept env a gate).2 = (auth_middleware env a gate).2 := by
  unfold accept
  simp only
  split <;> rfl

@[simp] theorem accept_window (env : Env) (a : Arrival) (gate : Gate) :
    (accept env a gate).2.replay.window = gate.replay.window := by
  rw [accept_gate, auth_middleware_replay]
  split
  · rfl
  · exact ReplayGuard.check_window _ _ _

/-! ## Spent requests

A request is spent from the instant it is let through. While the guard remembers the signature it
is refused as a replay; when the guard has forgotten it, its timestamp is too old. -/

/-- The window of the service, in nanoseconds. -/
def window : Int := Crypto.MAX_TIMESTAMP_SKEW_SECS * ReplayGuard.second

/-- `r` was let through at an instant not after `t` and after its own date, and the guard
remembers it if it still has to. -/
def Spent (gate : Gate) (t : Int) (r : SignedRequest) : Prop :=
  ∃ since ≤ t, (∀ supplied, Text.parse_i64 r.timestamp = some supplied →
      supplied < clock_seconds since) ∧
    (t < since + window → gate.replay.Holds r.signature (since + window))

/-- A timestamp before the second `since` is out of the window one window later. -/
theorem skew_of_old {supplied since now : Int} (hs : supplied < clock_seconds since)
    (hn : since + window ≤ now) :
    Crypto.MAX_TIMESTAMP_SKEW_SECS < abs_i64 (saturating_sub (clock_seconds now) supplied) := by
  have hc : clock_seconds since + 300 ≤ clock_seconds now := by
    simp only [window, Crypto.MAX_TIMESTAMP_SKEW_SECS, ReplayGuard.second] at hn
    simp only [clock_seconds]
    omega
  have hsub : 300 < saturating_sub (clock_seconds now) supplied := by
    simp only [saturating_sub]
    omega
  rw [abs_i64_eq (by omega), abs_of_pos (by omega)]
  exact hsub

/-- **A spent request is not let through.** -/
theorem Spent.refused {env : Env} {a : Arrival} {gate : Gate} {t : Int} {r : SignedRequest}
    (h : Spent gate t r) (ht : t ≤ a.now) : (accept env a gate).1 ≠ some r := by
  intro hr
  obtain ⟨since, -, hold, hmem⟩ := h
  obtain ⟨v, hv, rfl, hfirst, -⟩ := accept_eq_some.mp hr
  by_cases hw : a.now < since + window
  · have hheld := hmem (by omega)
    have hno := ReplayGuard.refused_of_holds hheld hw
    exact absurd (hno.symm.trans hfirst) Bool.false_ne_true
  · obtain ⟨-, supplied, hparse, hskew⟩ := validate_timestamp_eq_ok.mp (verify_request_ok hv)
    have := skew_of_old (hold supplied hparse) (by omega : since + window ≤ a.now)
    omega

/-- A spent request stays spent whatever comes next. -/
theorem Spent.step {env : Env} {a : Arrival} {gate : Gate} {t : Int} {r : SignedRequest}
    (h : Spent gate t r) (ht : t ≤ a.now) : Spent (accept env a gate).2 a.now r := by
  obtain ⟨since, hle, hold, hmem⟩ := h
  refine ⟨since, by omega, hold, fun hw => ?_⟩
  have hheld := hmem (by omega)
  rw [accept_gate, auth_middleware_replay]
  split
  · exact hheld
  · exact ReplayGuard.holds_after hheld hw

/-- A predated request is spent once it is let through. -/
theorem spent_of_admitted {env : Env} {a : Arrival} {gate : Gate} {r : SignedRequest}
    (hwin : gate.replay.window = window) (hdate : Predated a)
    (h : (accept env a gate).1 = some r) : Spent (accept env a gate).2 a.now r := by
  obtain ⟨v, hv, rfl, hfirst, -⟩ := accept_eq_some.mp h
  obtain ⟨hraw, -⟩ := validate_timestamp_eq_ok.mp (verify_request_ok hv)
  refine ⟨a.now, le_rfl, fun supplied hs => hdate _ _ hraw hs, fun _ => ?_⟩
  rw [accept_gate, auth_middleware_replay, hv]
  have := ReplayGuard.holds_accepted hfirst
  rwa [hwin] at this

/-! ## Runs -/

/-- What a run lets through, after requests that are already spent: none of those, and nothing
twice. -/
theorem admitted_fresh (env : Env) (run : List Arrival) (gate : Gate) (t : Int)
    (hwin : gate.replay.window = window) (ht : ∀ a ∈ run, t ≤ a.now)
    (mono : (run.map Arrival.now).Pairwise (· ≤ ·)) (hdate : ∀ a ∈ run, Predated a) :
    (∀ r, Spent gate t r → r ∉ (outputs (accept env) run gate).reduceOption) ∧
      (outputs (accept env) run gate).reduceOption.Nodup := by
  induction run generalizing gate t with
  | nil => simp
  | cons a run ih =>
      have ha : t ≤ a.now := ht a List.mem_cons_self
      obtain ⟨hle, mono'⟩ := List.pairwise_cons.mp mono
      obtain ⟨hspent, hnodup⟩ := ih (accept env a gate).2 a.now ((accept_window env a gate).trans hwin)
        (fun b hb => hle _ (List.mem_map_of_mem hb)) mono' fun b hb =>
          hdate b (List.mem_cons_of_mem a hb)
      rw [outputs_cons]
      cases hr : (accept env a gate).1 with
      | none =>
          rw [List.reduceOption_cons_of_none]
          exact ⟨fun r hr' => hspent r (hr'.step ha), hnodup⟩
      | some r =>
          rw [List.reduceOption_cons_of_some]
          have hnew : Spent (accept env a gate).2 a.now r :=
            spent_of_admitted hwin (hdate a List.mem_cons_self) hr
          refine ⟨fun r' hr' hmem => ?_, List.nodup_cons.mpr ⟨hspent r hnew, hnodup⟩⟩
          rcases List.mem_cons.mp hmem with rfl | hmem
          · exact hr'.refused ha hr
          · exact hspent r' (hr'.step ha) hmem

/-- The state of the process when it starts. -/
def Gate.boot (now : Int) (master_pin : MasterPin) : Gate :=
  ⟨.new Crypto.MAX_TIMESTAMP_SKEW_SECS now, master_pin⟩

/-- **At most once.** However requests arrive from the start of the process on, at times that do
not decrease, if each is dated before the second it arrives in then no signed request is let
through twice. -/
theorem admitted_at_most_once (env : Env) (boot : Int) (master_pin : MasterPin)
    (run : List Arrival) (mono : (run.map Arrival.now).Pairwise (· ≤ ·))
    (dated : ∀ a ∈ run, Predated a) :
    (outputs (accept env) run (.boot boot master_pin)).reduceOption.Nodup := by
  cases run with
  | nil => simp
  | cons a run =>
      refine (admitted_fresh env (a :: run) _ a.now rfl (fun b hb => ?_) mono dated).2
      rcases List.mem_cons.mp hb with rfl | hb
      · exact le_rfl
      · exact (List.pairwise_cons.mp mono).1 _ (List.mem_map_of_mem hb)

/-- The request the sample environment knows, dated in the second 1000. -/
def sample_request : HttpRequest where
  headers :=
    [⟨"x-api-key", some "vault-key"⟩, ⟨"x-timestamp", some "1000"⟩,
      ⟨"x-signature-256",
        some "sha256=3c5cdd1dbcfe1c6e62198a33a113ff25177a49737cba2125c9c0c33a61463215"⟩]
  peer := host7.ip
  method := "GET"
  target := "/api/auth/me"
  body := some []

/-- It arrives at `now`. -/
def sample_arrival (now : Int) : Arrival where
  request := sample_request
  now := now
  trusted_proxies := []
  find_key _ := .ok (some (ApiKey.sample 1))
  master_view := ⟨.ok [0], .ok true⟩

/-- It arrives after the second it is dated in. -/
theorem sample_predated {now : Int} (h : 1000 < clock_seconds now) :
    Predated (sample_arrival now) := by
  have htrim : (header sample_request.headers "x-timestamp").map Text.trim = some "1000" := by
    decide
  have hdate : Text.parse_i64 "1000" = some 1000 := by decide
  intro raw supplied hraw hs
  change (header sample_request.headers "x-timestamp").map Text.trim = some raw at hraw
  rw [htrim] at hraw
  cases hraw
  rw [hdate] at hs
  cases hs
  exact h

/-- Sent twice within the window, it is let through once. -/
theorem admitted_at_most_once_in_window :
    (outputs (accept Env.sample) [sample_arrival 1001000000000, sample_arrival 1002000000000]
      (.boot 0 .new)).reduceOption.Nodup := by
  refine admitted_at_most_once _ _ _ _ (by decide) fun a ha => ?_
  simp only [List.mem_cons, List.not_mem_nil, or_false] at ha
  rcases ha with rfl | rfl
  · exact sample_predated (by decide)
  · exact sample_predated (by decide)

/-- Sent in the second it is dated in and once more 300 seconds later, it is let through twice. -/
theorem same_second_request_admitted_twice :
    let run := [sample_arrival 1000000000000, sample_arrival 1300000000000]
    (run.map Arrival.now).Pairwise (· ≤ ·) ∧
      ¬ (outputs (accept Env.sample) run (.boot 0 .new)).reduceOption.Nodup := by
  decide

/-! ## The other requests

A request dated at or after the second it is let through in passes again exactly one window
later: the guard has just forgotten it, and its timestamp is not too old yet. -/

/-- The guard remembers an accepted signature no longer than one window. -/
theorem ReplayGuard.expires_of_accepted {g : ReplayGuard} {id : SignatureId} {now : Int}
    (h : (g.check_and_record now id).1 = true) :
    ∀ e ∈ (g.check_and_record now id).2.seen, e.id = id → e.expires_at = now + g.window := by
  unfold check_and_record record at h ⊢
  by_cases hr : (g.prune_if_due now).remembers id now = true
  · rw [if_pos hr] at h
    cases h
  · rw [if_neg hr]
    intro e he hid
    rcases Table.mem_of_mem_insert he with he' | rfl
    · exact absurd hid (by simpa using (Table.mem_filter.mp he').2)
    · simp

/-- The same request, later. -/
def Arrival.later (a : Arrival) (delay : Int) : Arrival := { a with now := a.now + delay }

/-- A request verifies at any time its timestamp is fresh. -/
theorem verify_request_later {env : Env} {a : Arrival} {v : Verified} {delay : Int}
    (h : verify_request env a = .ok v)
    (ht : validate_timestamp a.request.headers (a.now + delay) = .ok v.timestamp) :
    verify_request env (a.later delay) = .ok v := by
  have hsame : validate_timestamp (a.later delay).request.headers (a.later delay).now =
      validate_timestamp a.request.headers a.now := ht.trans (verify_request_ok h).symm
  rw [← h]
  unfold verify_request
  rw [hsame]
  rfl

/-- A timestamp at or after the second `now`, and within the window then, still is one window
later. -/
theorem skew_of_future {supplied now : Int} (hpos : 0 ≤ now) (hmax : supplied < 2 ^ 63)
    (hs : clock_seconds now ≤ supplied)
    (hskew : abs_i64 (saturating_sub (clock_seconds now) supplied) ≤
      Crypto.MAX_TIMESTAMP_SKEW_SECS) :
    abs_i64 (saturating_sub (clock_seconds (now + window)) supplied) ≤
      Crypto.MAX_TIMESTAMP_SKEW_SECS := by
  have hc : clock_seconds (now + window) = clock_seconds now + 300 := by
    simp only [window, Crypto.MAX_TIMESTAMP_SKEW_SECS, ReplayGuard.second, clock_seconds]
    omega
  have hnow : 0 ≤ clock_seconds now := by
    simp only [clock_seconds]
    omega
  rw [saturating_sub_eq (by omega) (by omega), abs_i64_eq (by omega),
    abs_of_nonpos (by omega)] at hskew
  simp only [Crypto.MAX_TIMESTAMP_SKEW_SECS] at hskew ⊢
  rw [hc, saturating_sub_eq (by omega) (by omega), abs_i64_eq (by omega),
    abs_of_nonneg (by omega)]
  omega

/-- **Admitted again.** After the epoch, a request that is let through and is dated at or after
the second it arrives in is let through once more when it comes back one window later. -/
theorem admitted_again {env : Env} {a : Arrival} {gate : Gate} {r : SignedRequest}
    (hwin : gate.replay.window = window) (hpos : 0 ≤ a.now)
    (hdate : ¬ Predated a) (h : (accept env a gate).1 = some r) :
    (accept env (a.later window) (accept env a gate).2).1 = some r := by
  obtain ⟨v, hv, rfl, hfirst, hnet⟩ := accept_eq_some.mp h
  obtain ⟨hraw, supplied, hparse, hskew⟩ := validate_timestamp_eq_ok.mp (verify_request_ok hv)
  have hlate : clock_seconds a.now ≤ supplied := by
    by_contra hlt
    refine hdate fun raw supplied' hraw' hs' => ?_
    rw [hraw] at hraw'
    cases hraw'
    rw [hparse] at hs'
    cases hs'
    omega
  have hv' : verify_request env (a.later window) = .ok v := by
    refine verify_request_later hv (validate_timestamp_eq_ok.mpr ⟨hraw, supplied, hparse, ?_⟩)
    exact skew_of_future hpos (Text.parse_i64_lt hparse) hlate hskew
  refine accept_eq_some.mpr ⟨v, hv', rfl, ReplayGuard.accepted_of_expired fun e he hid => ?_, hnet⟩
  rw [accept_gate, auth_middleware_replay, hv] at he
  rw [ReplayGuard.expires_of_accepted hfirst e he hid, hwin]
  exact le_rfl

end IpVault
