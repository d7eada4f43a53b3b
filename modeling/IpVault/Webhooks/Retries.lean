import IpVault.Config
import IpVault.Lib.Retrying
import IpVault.Lib.Words
import IpVault.Webhooks.Dispatch

set_option autoImplicit false

/-! # Delivering a webhook, and trying again (`dispatch_with_retries_config` in `dispatch.rs`)

A delivery posts the prepared request until an answer settles it or the retries are used up. Every
attempt leaves one row behind; between two attempts there is a pause, twice as long each time.
-/

namespace IpVault

open Lib

/-- `DispatchOutcome`. -/
inductive DispatchOutcome where
  | Success (status : Nat)
  | Transient (status : Option Nat) (reason : String)
  | Permanent (status : Option Nat) (reason : String)
  deriving DecidableEq

/-- `DispatchContext`. -/
structure DispatchContext where
  webhook_id : Uuid
  webhook_name : String
  event_type : String
  target_address : String
  cause : Option String

/-- One HTTP attempt: what `attempt_delivery` answers, how long it took, and the id and the time its row
is given. -/
structure Delivery where
  outcome : DispatchOutcome
  body : Option String
  elapsed_ms : Nat
  execution_id : Uuid
  recorded_at : Int

/-- What a delivery does to the world. -/
inductive DispatchEffect where
  | post (target_url : String) (headers : DispatchHeaders) (payload : String)
  | insert (row : WebhookExecution)
  | sleep (ms : Nat)

/-- `n as i64`. -/
def as_i64 (n : Nat) : Int := (n + 2 ^ 63) % 2 ^ 64 - 2 ^ 63

/-- `n.try_into().unwrap_or(i32::MAX)`, of an `i64`. -/
def saturate_i32 (n : Int) : Int := if -(2 ^ 31) ≤ n ∧ n < 2 ^ 31 then n else 2 ^ 31 - 1

/-- `log_execution`: the row it inserts for an attempt. -/
def DispatchContext.log_execution (ctx : DispatchContext) (resolved_target_url : String) (d : Delivery)
    (status_code : Option Nat) (is_success : Bool) (duration_ms : Int)
    (response_body : Option String) : WebhookExecution where
  id := d.execution_id
  webhook_id := ctx.webhook_id
  event_type := ctx.event_type
  status_code := status_code.map Int.ofNat
  is_success := is_success
  duration_ms := saturate_i32 duration_ms
  response_body := response_body
  resolved_target_url := some resolved_target_url
  target_address := some ctx.target_address
  cause := ctx.cause
  created_at := d.recorded_at

section Loop

variable (prepared : PreparedDispatch) (ctx : DispatchContext) (max_retries base_backoff_ms : Nat)

/-- The body of the loop: what attempt number `attempt` does, and the number of the next one if there is
to be one. `none` is an overflow. -/
def dispatch_attempt (attempt : Nat) (d : Delivery) : Option (List DispatchEffect × Option Nat) :=
  let post := DispatchEffect.post prepared.target_url prepared.headers prepared.payload
  let duration_ms := as_i64 d.elapsed_ms
  match d.outcome with
  | .Success status =>
      some ([post, .insert (ctx.log_execution prepared.target_url d (some status) true duration_ms
        d.body)], none)
  | .Permanent status reason =>
      let detail := d.body.or (some reason)
      some ([post, .insert (ctx.log_execution prepared.target_url d status false duration_ms detail)],
        none)
  | .Transient status reason =>
      let detail := d.body.or (some reason)
      let row := ctx.log_execution prepared.target_url d status false duration_ms detail
      if attempt ≤ max_retries then do
        let exponent ← Word.sub attempt 1
        let factor ← Word.shl 64 1 (min exponent 20)
        let backoff_ms := Word.saturating_mul 64 base_backoff_ms factor
        let next ← Word.add 32 attempt 1
        some ([post, .insert row, .sleep backoff_ms], some next)
      else some ([post, .insert row], none)

variable {max_retries} in
theorem dispatch_attempt_next {attempt next : Nat} {d : Delivery} {effects : List DispatchEffect}
    (h : dispatch_attempt prepared ctx max_retries base_backoff_ms attempt d =
      some (effects, some next)) : next = attempt + 1 ∧ attempt ≤ max_retries := by
  unfold dispatch_attempt at h
  cases houtcome : d.outcome with
  | Success status => simp [houtcome] at h
  | Permanent status reason => simp [houtcome] at h
  | Transient status reason =>
      by_cases hretry : attempt ≤ max_retries
      · simp only [houtcome, if_pos hretry, Option.bind_eq_bind, Option.bind_eq_some_iff,
          Option.some.injEq, Prod.mk.injEq] at h
        obtain ⟨_, -, _, -, n, hn, -, rfl⟩ := h
        unfold Word.add at hn
        split at hn
        · exact ⟨(Option.some.inj hn).symm, hretry⟩
        · cases hn
      · simp [houtcome, if_neg hretry] at h

/-- The loop, from attempt number `attempt` on. -/
def dispatch_loop (attempt : Nat) (deliveries : Stream' Delivery) : Option (List DispatchEffect) :=
  match _h : dispatch_attempt prepared ctx max_retries base_backoff_ms attempt deliveries.head with
  | none => none
  | some (effects, none) => some effects
  | some (effects, some next) =>
      (dispatch_loop next deliveries.tail).map (effects ++ ·)
  termination_by max_retries + 1 - attempt
  decreasing_by
    have hnext := dispatch_attempt_next prepared ctx base_backoff_ms _h
    omega

/-- `dispatch_with_retries_config`: what it does in order, where the `i`-th HTTP request is answered by
`deliveries.get i`. -/
def dispatch_with_retries_config (deliveries : Stream' Delivery) : Option (List DispatchEffect) :=
  dispatch_loop prepared ctx max_retries base_backoff_ms 1 deliveries

end Loop

/-! ## What an attempt leaves behind -/

namespace DispatchOutcome

/-- Another attempt may help. -/
def is_transient : DispatchOutcome → Bool
  | Transient _ _ => true
  | _ => false

def is_success : DispatchOutcome → Bool
  | Success _ => true
  | _ => false

def status : DispatchOutcome → Option Nat
  | Success status => some status
  | Transient status _ | Permanent status _ => status

/-- What is kept of the answer: its body, and the reason of a failure without one. -/
def detail (body : Option String) : DispatchOutcome → Option String
  | Success _ => body
  | Transient _ reason | Permanent _ reason => body.or (some reason)

end DispatchOutcome

namespace DispatchEffect

def posted : DispatchEffect → Option (String × DispatchHeaders × String)
  | post target_url headers payload => some (target_url, headers, payload)
  | _ => none

def inserted : DispatchEffect → Option WebhookExecution
  | insert row => some row
  | _ => none

def slept : DispatchEffect → Option Nat
  | sleep ms => some ms
  | _ => none

end DispatchEffect

/-- The row of an attempt. -/
def execution_row (prepared : PreparedDispatch) (ctx : DispatchContext) (d : Delivery) :
    WebhookExecution :=
  ctx.log_execution prepared.target_url d d.outcome.status d.outcome.is_success (as_i64 d.elapsed_ms)
    (d.outcome.detail d.body)

/-- The pause after the `i`-th attempt, counted from zero. -/
def backoff (base_backoff_ms i : Nat) : Nat := Word.saturating_mul 64 base_backoff_ms (2 ^ i)

/-- The pauses do not get shorter. -/
theorem backoff_mono {base_backoff_ms i j : Nat} (h : i ≤ j) :
    backoff base_backoff_ms i ≤ backoff base_backoff_ms j :=
  Word.saturating_mul_mono (Nat.pow_le_pow_right (by decide) h)

section Run

variable (prepared : PreparedDispatch) (ctx : DispatchContext) {max_retries : Nat}
  (base_backoff_ms : Nat)

/-- What the `i`-th attempt does before anything is slept. -/
def attempt_effects (deliveries : Stream' Delivery) (i : Nat) : List DispatchEffect :=
  [.post prepared.target_url prepared.headers prepared.payload,
    .insert (execution_row prepared ctx (deliveries.get i))]

/-- The attempt that ends the delivery. -/
theorem dispatch_attempt_last {attempt : Nat} {d : Delivery}
    (h : d.outcome.is_transient = false ∨ max_retries < attempt) :
    dispatch_attempt prepared ctx max_retries base_backoff_ms attempt d =
      some ([.post prepared.target_url prepared.headers prepared.payload,
        .insert (execution_row prepared ctx d)], none) := by
  unfold dispatch_attempt execution_row
  cases houtcome : d.outcome with
  | Success status => rfl
  | Permanent status reason => rfl
  | Transient status reason =>
      rw [houtcome] at h
      have hlast : ¬ attempt ≤ max_retries := Nat.not_le_of_lt (h.resolve_left (by simp [
        DispatchOutcome.is_transient]))
      dsimp only
      rw [if_neg hlast]
      rfl

/-- An attempt that is followed by another. No operation overflows: the counter stays small and the
distance of the shift below 64. -/
theorem dispatch_attempt_again {i : Nat} {d : Delivery} (h : d.outcome.is_transient = true)
    (hretry : i + 1 ≤ max_retries) (hmax : max_retries ≤ 10) :
    dispatch_attempt prepared ctx max_retries base_backoff_ms (i + 1) d =
      some ([.post prepared.target_url prepared.headers prepared.payload,
        .insert (execution_row prepared ctx d), .sleep (backoff base_backoff_ms i)],
        some (i + 2)) := by
  have hsub : Word.sub (i + 1) 1 = some i := Word.sub_of_le (Nat.le_add_left 1 i)
  have hmin : min i 20 = i := by omega
  have hshl : Word.shl 64 1 i = some (2 ^ i) := Word.one_shl (by omega)
  have hadd : Word.add 32 (i + 1) 1 = some (i + 2) := Word.add_of_lt (by omega)
  unfold dispatch_attempt execution_row
  cases houtcome : d.outcome with
  | Success status => rw [houtcome] at h; cases h
  | Permanent status reason => rw [houtcome] at h; cases h
  | Transient status reason =>
      dsimp only
      rw [if_pos hretry, hsub, hadd]
      simp only [Option.bind_eq_bind, Option.bind_some, hmin, hshl]
      rfl

theorem dispatch_loop_last {attempt : Nat} {deliveries : Stream' Delivery}
    {effects : List DispatchEffect}
    (h : dispatch_attempt prepared ctx max_retries base_backoff_ms attempt deliveries.head =
      some (effects, none)) :
    dispatch_loop prepared ctx max_retries base_backoff_ms attempt deliveries = some effects := by
  rw [dispatch_loop]
  split <;> simp_all

theorem dispatch_loop_again {attempt next : Nat} {deliveries : Stream' Delivery}
    {effects : List DispatchEffect}
    (h : dispatch_attempt prepared ctx max_retries base_backoff_ms attempt deliveries.head =
      some (effects, some next)) :
    dispatch_loop prepared ctx max_retries base_backoff_ms attempt deliveries =
      (dispatch_loop prepared ctx max_retries base_backoff_ms next deliveries.tail).map
        (effects ++ ·) := by
  rw [dispatch_loop]
  split <;> simp_all

/-- **The loop, from its `i`-th attempt on**: by induction on the retries that are left. -/
theorem dispatch_loop_eq (hmax : max_retries ≤ 10) {i left : Nat} (hleft : i + left = max_retries)
    (deliveries : Stream' Delivery) :
    dispatch_loop prepared ctx max_retries base_backoff_ms (i + 1) deliveries =
      some (transcript (attempt_effects prepared ctx deliveries)
        (fun k => .sleep (backoff base_backoff_ms (i + k)))
        (tries (·.outcome.is_transient) left deliveries)) := by
  induction left generalizing i deliveries with
  | zero =>
      have hlimit : max_retries < i + 1 := by omega
      rw [dispatch_loop_last _ _ _ (dispatch_attempt_last _ _ _ (.inr hlimit)), tries, transcript_one]
      rfl
  | succ left ih =>
      cases houtcome : deliveries.head.outcome.is_transient with
      | false =>
          rw [dispatch_loop_last _ _ _ (dispatch_attempt_last _ _ _ (.inl houtcome)), tries, houtcome,
            if_neg Bool.false_ne_true, transcript_one]
          rfl
      | true =>
          have hagain := dispatch_attempt_again prepared ctx base_backoff_ms houtcome
            (show i + 1 ≤ max_retries by omega) hmax
          have hrest := @ih (i + 1) (by omega) deliveries.tail
          have hpause : ∀ k, i + 1 + k = i + (k + 1) := fun k => by omega
          simp only [hpause] at hrest
          rw [dispatch_loop_again _ _ _ hagain, hrest, tries, houtcome, if_pos rfl, Option.map_some,
            transcript_succ (tries_pos _ _ _)]
          rfl

/-- The whole delivery. -/
theorem dispatch_with_retries_config_eq (hmax : max_retries ≤ 10) (deliveries : Stream' Delivery) :
    dispatch_with_retries_config prepared ctx max_retries base_backoff_ms deliveries =
      some (transcript (attempt_effects prepared ctx deliveries)
        (fun i => .sleep (backoff base_backoff_ms i))
        (tries (·.outcome.is_transient) max_retries deliveries)) := by
  have hrun := dispatch_loop_eq prepared ctx base_backoff_ms hmax (Nat.zero_add max_retries) deliveries
  simp only [Nat.zero_add] at hrun
  exact hrun

/-- What a delivery has done after `n` attempts: they end with the first one that settles it or with the
last one allowed, each posts the request and records how it went, and any two have a pause between
them, no shorter than the one before. -/
structure DeliveryRun (max_retries : Nat) (deliveries : Stream' Delivery) (n : Nat)
    (effects : List DispatchEffect) : Prop where
  stops : StopsAfter (·.outcome.is_transient) max_retries deliveries n
  order : effects = transcript (attempt_effects prepared ctx deliveries)
    (fun i => .sleep (backoff base_backoff_ms i)) n
  posts : effects.filterMap DispatchEffect.posted =
    List.replicate n (prepared.target_url, prepared.headers, prepared.payload)
  rows : effects.filterMap DispatchEffect.inserted =
    (List.range n).map fun i => execution_row prepared ctx (deliveries.get i)
  sleeps : effects.filterMap DispatchEffect.slept = (List.range (n - 1)).map (backoff base_backoff_ms)
  no_shorter : (effects.filterMap DispatchEffect.slept).Pairwise (· ≤ ·)

/-- The transcript of the loop is such a run. -/
theorem deliveryRun_transcript {deliveries : Stream' Delivery} {n : Nat}
    (h : StopsAfter (·.outcome.is_transient) max_retries deliveries n) :
    DeliveryRun prepared ctx base_backoff_ms max_retries deliveries n
      (transcript (attempt_effects prepared ctx deliveries)
        (fun i => .sleep (backoff base_backoff_ms i)) n) := by
  have hsleeps : (transcript (attempt_effects prepared ctx deliveries)
      (fun i => .sleep (backoff base_backoff_ms i)) n).filterMap DispatchEffect.slept =
        (List.range (n - 1)).map (backoff base_backoff_ms) := by
    have hturn : ∀ i, (attempt_effects prepared ctx deliveries i).filterMap DispatchEffect.slept = [] :=
      fun _ => rfl
    have hpause : ∀ i, DispatchEffect.slept (.sleep (backoff base_backoff_ms i)) =
        some (backoff base_backoff_ms i) := fun _ => rfl
    exact filterMap_transcript_pauses hturn hpause n
  refine ⟨h, rfl, ?_, ?_, hsleeps, ?_⟩
  · have hturn : ∀ i, (attempt_effects prepared ctx deliveries i).filterMap DispatchEffect.posted =
        [(prepared.target_url, prepared.headers, prepared.payload)] := fun _ => rfl
    rw [filterMap_transcript_turns fun _ => rfl]
    simp only [hturn]
    rw [← List.map_eq_flatMap, List.map_const', List.length_range]
  · have hturn : ∀ i, (attempt_effects prepared ctx deliveries i).filterMap DispatchEffect.inserted =
        [execution_row prepared ctx (deliveries.get i)] := fun _ => rfl
    rw [filterMap_transcript_turns fun _ => rfl]
    simp only [hturn]
    rw [← List.map_eq_flatMap]
  · rw [hsleeps, List.pairwise_map]
    exact List.pairwise_lt_range.imp fun hlt => backoff_mono hlt.le

/-- **Rows, pauses and attempts stay in step**, whatever the answers, the base of the pauses and the
retries allowed; no operation of the loop overflows. -/
theorem retries_in_step (hmax : max_retries ≤ 10) (deliveries : Stream' Delivery) :
    ∃ n effects, dispatch_with_retries_config prepared ctx max_retries base_backoff_ms deliveries =
        some effects ∧
      DeliveryRun prepared ctx base_backoff_ms max_retries deliveries n effects :=
  ⟨_, _, dispatch_with_retries_config_eq prepared ctx base_backoff_ms hmax deliveries,
    deliveryRun_transcript prepared ctx base_backoff_ms (tries_stops _ _ _)⟩

end Run

/-- A receiver that never answers: the second pause is as long as a `u64` can say. -/
theorem retries_in_step_unanswered :
    ∃ effects, dispatch_with_retries_config ⟨"https://hook.example/", [], "{}"⟩
        ⟨0, "siem", "IP_ADD", "203.0.113.7", none⟩ 2 (2 ^ 63)
        (Stream'.const ⟨.Transient none "operation timed out", none, 10000, 1, 0⟩) = some effects ∧
      effects.filterMap DispatchEffect.slept = [2 ^ 63, 2 ^ 64 - 1] := by
  obtain ⟨n, effects, heffects, hrun⟩ :=
    retries_in_step ⟨"https://hook.example/", [], "{}"⟩ ⟨0, "siem", "IP_ADD", "203.0.113.7", none⟩
      (2 ^ 63) (show 2 ≤ 10 by decide)
      (Stream'.const ⟨.Transient none "operation timed out", none, 10000, 1, 0⟩)
  have hn : n = 3 := hrun.stops.unique (tries_stops _ _ _)
  refine ⟨effects, heffects, ?_⟩
  rw [hrun.sleeps, hn]
  decide

end IpVault
