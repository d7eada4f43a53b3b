import IpVault.Front.Daemon
import IpVault.Lib.Simulate

set_option autoImplicit false

/-! # The daemon refines the service

What the daemon does to its store is what the service of `Service.lean` does, given the requests that
got through the middleware. Each of them was signed with the secret of the key it names, as that key is
in the store the request meets; and if every request is dated before the second it comes in, no signed
request gets through twice.
-/

namespace IpVault

open Lib

/-! ## What gets through -/

/-- Something that reached the store, with the signed request it came with. -/
structure Logged where
  event : Service.Event
  signed : Option SignedRequest

/-- What `auth_middleware` takes for the address of the client. -/
def Incoming.client_ip (x : Incoming) (env : Env) : IpAddr :=
  resolve_client_ip env.parse_ip x.request.peer x.request.headers x.trusted_proxies

namespace Frontend

variable (F : Frontend)

/-- The request the service is given, when the key is found. -/
def request (x : Incoming) (key : ApiKey) (c : Call) : Request where
  key_id := key.id
  client_ip := F.env.show_ip (x.client_ip F.env)
  now := x.now
  entropy := x.entropy
  call := c

/-- What the middleware lets through to a call. -/
def passed (x : Incoming) (d : Daemon) (c : Call) : List Logged :=
  match verify_request F.env (x.arrival d.store.toWorld) with
  | .error _ => []
  | .ok v =>
      if ((accept F.env (x.arrival d.store.toWorld) d.gate).1).isSome then
        [⟨.request (F.request x v.key c), some (v.signed (x.arrival d.store.toWorld))⟩]
      else []

/-- What a step does to the store. -/
def logged : Daemon.Event → Daemon → List Logged
  | .sweep now, _ => [⟨.sweep now, none⟩]
  | .incoming x, d =>
      match route (path_of x.request.target) with
      | .api found params =>
          match F.job x found params with
          | some (.call c) => F.passed x d c
          | _ => []
      | _ => []

/-- What a run does to the store. -/
def log : List Daemon.Event → Daemon → List Logged := collect F.step F.logged

end Frontend

/-- One step of the service, as the daemon logs it. -/
def Service.replay (S : Service) (l : Logged) (v : Vault) : Option Response × Vault := S.step l.event v

/-! ## The middleware, read backwards -/

/-- **What a request that verifies carries**: the key was found by the hash of the header, and its secret
verifies the signature over the method, the target, the timestamp and the body. -/
structure Signed (env : Env) (a : Arrival) (v : Verified) : Prop where
  timestamp : validate_timestamp a.request.headers a.now = .ok v.timestamp
  key : ∃ api_key, header a.request.headers "x-api-key" = some api_key ∧
    a.find_key (env.sha256_hex api_key) = .ok (some v.key)
  body : buffer_body env a.request.body = .ok v.body_bytes
  signature : ∃ secret provided, open_signing_secret env v.key = .ok secret ∧
    header a.request.headers "x-signature-256" = some provided ∧
    Crypto.verify_signature env secret a.request.method a.request.target v.timestamp v.body_bytes
      provided = some v.digest

theorem present_or_ok {α : Type} {e : AppError} {x : Option α} {a : α}
    (h : present_or e x = .ok a) : x = some a := by
  cases x with
  | none => cases h
  | some b =>
      cases h
      rfl

theorem find_key_record_ok {env : Env} {a : Arrival} {auth_header : String} {key : ApiKey}
    (h : find_key_record env a auth_header = .ok key) :
    a.find_key (env.sha256_hex auth_header) = .ok (some key) := by
  unfold find_key_record at h
  split at h
  · cases h
  · cases h
  · rename_i hfound
    cases h
    exact hfound

theorem signed_of_verified {env : Env} {a : Arrival} {v : Verified}
    (h : verify_request env a = .ok v) : Signed env a v := by
  have htime := verify_request_ok h
  unfold verify_request at h
  obtain ⟨timestamp, ht, h⟩ := except_bind_ok.mp h
  obtain ⟨auth_header, hauth, h⟩ := except_bind_ok.mp h
  obtain ⟨provided, hprovided, h⟩ := except_bind_ok.mp h
  split at h
  · cases h
  · obtain ⟨key, hkey, h⟩ := except_bind_ok.mp h
    obtain ⟨secret, hsecret, h⟩ := except_bind_ok.mp h
    obtain ⟨body, hbody, h⟩ := except_bind_ok.mp h
    obtain ⟨digest, hdigest, h⟩ := except_bind_ok.mp h
    cases h
    exact {
      timestamp := htime
      key := ⟨auth_header, present_or_ok hauth, find_key_record_ok hkey⟩
      body := hbody
      signature := ⟨secret, provided, hsecret, present_or_ok hprovided, present_or_ok hdigest⟩ }

/-- The body that was verified is the one the extractors get. -/
theorem body_of_buffered {env : Env} {body : Option (List UInt8)} {bytes : List UInt8}
    (h : buffer_body env body = .ok bytes) : body.getD [] = bytes := by
  have hsome := present_or_ok h
  rw [Option.filter_eq_some_iff] at hsome
  rw [hsome.1, Option.getD_some]

section Middleware

variable {env : Env} {a : Arrival} {gate : Gate} {pinned : Uuid}

/-- The middleware leaves a pin that is set alone. -/
theorem auth_middleware_pin (hpin : gate.master_pin = ⟨some pinned⟩) :
    (auth_middleware env a gate).2.master_pin = ⟨some pinned⟩ := by
  unfold auth_middleware
  cases verify_request env a with
  | error e => exact hpin
  | ok v =>
      simp only
      split
      · exact hpin
      · split
        · exact hpin
        · show (MasterPin.authenticate _ _ _).2 = _
          rw [hpin]
          exact MasterPin.authenticate_pinned rfl a.master_view v.key

/-- **Inversion.** Under a pinned master a request passes as the effective key it was signed with, or it
is refused and not accepted. -/
theorem auth_middleware_cases (env : Env) (a : Arrival) (hpin : gate.master_pin = ⟨some pinned⟩) :
    (∃ v, verify_request env a = .ok v ∧ (accept env a gate).1 = some (v.signed a) ∧
        authorize_network env v.key (resolve_client_ip env.parse_ip a.request.peer a.request.headers
          a.trusted_proxies) = .ok () ∧
        (auth_middleware env a gate).1 = .ok ⟨(⟨env, pinned⟩ : Service).effective v.key,
          resolve_client_ip env.parse_ip a.request.peer a.request.headers a.trusted_proxies⟩) ∨
      ((accept env a gate).1 = none ∧ ∃ e, (auth_middleware env a gate).1 = .error e) := by
  cases haccept : (accept env a gate).1 with
  | some r =>
      obtain ⟨v, hv, rfl, hfirst, hnet⟩ := accept_eq_some.mp haccept
      refine .inl ⟨v, hv, rfl, hnet, ?_⟩
      unfold auth_middleware
      simp only [hv, hfirst, hnet, hpin, Bool.not_true, Bool.false_eq_true, if_false]
      rw [← Service.authenticate_eq_effective ⟨env, pinned⟩ a.master_view v.key]
  | none =>
      refine .inr ⟨rfl, ?_⟩
      cases hauth : (auth_middleware env a gate).1 with
      | error e => exact ⟨e, rfl⟩
      | ok p =>
          cases hv : verify_request env a with
          | error e =>
              unfold auth_middleware at hauth
              simp [hv] at hauth
          | ok v =>
              unfold accept at haccept
              simp [hauth, hv] at haccept

end Middleware

/-! ## Steps -/

/-- **Who a request comes from**: a key of the store, named by the hash of the header, that may be used
from the address of the client, and whose secret verifies the signature over what the handler gets. -/
structure Incoming.Vouched (F : Frontend) (x : Incoming) (v : Verified) (w : World) : Prop where
  key : v.key ∈ w.keys
  api_key : ∃ api_key, header x.request.headers "x-api-key" = some api_key ∧
    v.key.key_hash = F.env.sha256_hex api_key
  timestamp : validate_timestamp x.request.headers x.now = .ok v.timestamp
  body : x.request.body.getD [] = v.body_bytes
  signature : ∃ secret provided, open_signing_secret F.env v.key = .ok secret ∧
    header x.request.headers "x-signature-256" = some provided ∧
    Crypto.verify_signature F.env secret x.request.method x.request.target v.timestamp v.body_bytes
      provided = some v.digest
  network : authorize_network F.env v.key (x.client_ip F.env) = .ok ()

/-- What a request asks the service for. -/
def Incoming.Asks (F : Frontend) (x : Incoming) (c : Call) : Prop :=
  ∃ found params, route (path_of x.request.target) = .api found params ∧
    F.job x found params = some (.call c)

/-- What a run does to the store is a sweep, or a request that came in and is vouched for by a key of the
store it meets. -/
def Logged.Authentic (F : Frontend) (run : List Daemon.Event) (l : Logged) (w : Vault) : Prop :=
  (∃ now, .sweep now ∈ run ∧ l = ⟨.sweep now, none⟩) ∨
    ∃ x v c, .incoming x ∈ run ∧ x.Vouched F v w.toWorld ∧ x.Asks F c ∧
      l = ⟨.request (F.request x v.key c), some (v.signed (x.arrival w.toWorld))⟩

section Steps

variable {F : Frontend} {d : Daemon} {pinned : Uuid}

/-- A request that is accepted is vouched for. -/
theorem vouched_of_accepted {x : Incoming} {v : Verified}
    (hv : verify_request F.env (x.arrival d.store.toWorld) = .ok v)
    (hnet : authorize_network F.env v.key (x.client_ip F.env) = .ok ()) :
    x.Vouched F v d.store.toWorld := by
  have hsigned := signed_of_verified hv
  obtain ⟨api_key, hheader, hfound⟩ := hsigned.key
  have hkey : (Query.key_by_hash (F.env.sha256_hex api_key)).eval d.store.toWorld = some v.key := by
    show d.store.keys.rows.find? _ = some v.key
    unfold Incoming.arrival at hfound
    simp only at hfound
    split at hfound
    · cases hfound
    · exact Except.ok.inj hfound
  exact {
    key := List.mem_of_find?_eq_some hkey
    api_key := ⟨api_key, hheader, by simpa using List.find?_some hkey⟩
    timestamp := hsigned.timestamp
    body := body_of_buffered hsigned.body
    signature := hsigned.signature
    network := hnet }

/-- A request of a key that is there is its handler, executed. -/
theorem Service.handle_of_key {S : Service} {req : Request} {v : Vault} {key : ApiKey}
    (hkey : v.keys.find? req.key_id = some key) :
    (S.handle req v).2 = ((req.call.handler (S.ctx req key)).run database v).2 := by
  have hserve : (S.serve req).run database v = (req.call.handler (S.ctx req key)).run database v := by
    unfold Service.serve
    rw [Prog.run_bind]
    show (Prog.okOr _ (v.keys.find? req.key_id) >>= _ : Handler Response).run database v = _
    rw [hkey]
    rfl
  unfold Service.handle
  rw [hserve]
  split
  · rename_i heq
    rw [heq]
  · rename_i heq
    rw [heq]

/-- What the handler of a call leaves of the store. -/
theorem Frontend.perform_call (x : Incoming) (p : Principal) (c : Call) (v : Vault) :
    (F.perform x p (some (.call c)) v).2 = ((c.handler (F.ctx x p)).run database v).2 := by
  unfold Frontend.perform
  simp only
  split
  · rename_i heq
    rw [heq]
  · rename_i heq
    rw [heq]

/-- Any other job leaves it alone. -/
theorem Frontend.perform_other (x : Incoming) (p : Principal) {job : Option Job} (v : Vault)
    (h : ∀ c, job ≠ some (.call c)) : (F.perform x p job v).2 = v := by
  unfold Frontend.perform
  split
  · rfl
  · split
    · rfl
    · rfl
  · exact absurd rfl (h _)

/-- A request to the API, by what the middleware makes of it. -/
theorem Frontend.step_api {x : Incoming} {found : List Branch} {params : List String}
    (hroute : route (path_of x.request.target) = .api found params) :
    (F.step (.incoming x) d).2.gate = (accept F.env (x.arrival d.store.toWorld) d.gate).2 ∧
      (∀ e, (auth_middleware F.env (x.arrival d.store.toWorld) d.gate).1 = .error e →
        (F.step (.incoming x) d).2.store = d.store) ∧
      ∀ p, (auth_middleware F.env (x.arrival d.store.toWorld) d.gate).1 = .ok p →
        (F.step (.incoming x) d).2.store = (F.perform x p (F.job x found params) d.store).2 := by
  rw [accept_gate]
  show (F.respond x d).2.gate = _ ∧ _
  have hstore : (F.step (.incoming x) d).2.store = (F.respond x d).2.store := rfl
  rw [hstore]
  unfold Frontend.respond
  rw [hroute]
  simp only
  split
  · rename_i heq
    rw [heq]
    refine ⟨rfl, fun _ _ => rfl, fun p hp => ?_⟩
    cases hp
  · rename_i heq
    rw [heq]
    refine ⟨rfl, fun e he => ?_, fun p hp => ?_⟩
    · cases he
    · cases hp
      rfl

/-- A request that is not for the API touches neither the store nor what the middleware keeps. -/
theorem Frontend.step_elsewhere {x : Incoming}
    (hroute : ∀ found params, route (path_of x.request.target) ≠ .api found params) :
    (F.step (.incoming x) d).2 = d := by
  show (F.respond x d).2 = d
  unfold Frontend.respond
  split
  · rfl
  · rfl
  · rfl
  · rename_i heq
    exact absurd heq (hroute _ _)

/-- What the middleware lets through to a call. -/
theorem Frontend.passed_of_accepted {x : Incoming} {v : Verified} {c : Call}
    (hv : verify_request F.env (x.arrival d.store.toWorld) = .ok v)
    (haccept : (accept F.env (x.arrival d.store.toWorld) d.gate).1 =
      some (v.signed (x.arrival d.store.toWorld))) :
    F.passed x d c =
      [⟨.request (F.request x v.key c), some (v.signed (x.arrival d.store.toWorld))⟩] := by
  unfold Frontend.passed
  simp only [hv, haccept, Option.isSome_some, if_true]

theorem Frontend.passed_of_refused {x : Incoming} {c : Call}
    (haccept : (accept F.env (x.arrival d.store.toWorld) d.gate).1 = none) :
    F.passed x d c = [] := by
  unfold Frontend.passed
  cases verify_request F.env (x.arrival d.store.toWorld) with
  | error e => rfl
  | ok v => simp only [haccept, Option.isSome_none, Bool.false_eq_true, if_false]

/-- **A step is what it logs.** The store goes the way the service takes it, every entry is authentic,
and the pin stays. -/
theorem Frontend.step_refines (hpin : d.gate.master_pin = ⟨some pinned⟩) {run : List Daemon.Event}
    {e : Daemon.Event} (hmem : e ∈ run) :
    (F.step e d).2.store = final (Service.replay ⟨F.env, pinned⟩) (F.logged e d) d.store ∧
      Along (Service.replay ⟨F.env, pinned⟩) (fun l w => l.Authentic F run w) (F.logged e d) d.store ∧
      (F.step e d).2.gate.master_pin = ⟨some pinned⟩ := by
  cases e with
  | sweep now => exact ⟨rfl, ⟨.inl ⟨now, hmem, rfl⟩, trivial⟩, hpin⟩
  | incoming x =>
      by_cases hroute : ∃ found params, route (path_of x.request.target) = .api found params
      · obtain ⟨found, params, hroute⟩ := hroute
        obtain ⟨hgate, herror, hok⟩ := F.step_api (d := d) hroute
        have hpinned : (F.step (.incoming x) d).2.gate.master_pin = ⟨some pinned⟩ := by
          rw [hgate, accept_gate]
          exact auth_middleware_pin hpin
        have hlogged : ∀ c, F.job x found params = some (.call c) →
            F.logged (.incoming x) d = F.passed x d c := by
          intro c hjob
          unfold Frontend.logged
          simp only [hroute, hjob]
        have hnothing : (∀ c, F.job x found params ≠ some (.call c)) →
            F.logged (.incoming x) d = [] := by
          intro hjob
          unfold Frontend.logged
          simp only [hroute]
        rcases auth_middleware_cases F.env (x.arrival d.store.toWorld) hpin with
          ⟨v, hv, haccept, hnet, hauth⟩ | ⟨haccept, err, hauth⟩
        · have hvouched := vouched_of_accepted hv hnet
          by_cases hcall : ∃ c, F.job x found params = some (.call c)
          · obtain ⟨c, hjob⟩ := hcall
            rw [hlogged c hjob, F.passed_of_accepted hv haccept, hok _ hauth, hjob, F.perform_call]
            have hfind : d.store.keys.find? (F.request x v.key c).key_id = some v.key :=
              Table.find?_key hvouched.key
            refine ⟨(Service.handle_of_key (S := ⟨F.env, pinned⟩) hfind).symm, ⟨.inr ?_, trivial⟩,
              hpinned⟩
            exact ⟨x, v, c, hmem, hvouched, ⟨found, params, hroute, hjob⟩, rfl⟩
          · have hjob : ∀ c, F.job x found params ≠ some (.call c) := fun c h => hcall ⟨c, h⟩
            rw [hnothing hjob, hok _ hauth, F.perform_other x _ d.store hjob]
            exact ⟨rfl, trivial, hpinned⟩
        · rw [herror _ hauth]
          have hempty : F.logged (.incoming x) d = [] := by
            by_cases hcall : ∃ c, F.job x found params = some (.call c)
            · obtain ⟨c, hjob⟩ := hcall
              rw [hlogged c hjob, F.passed_of_refused haccept]
            · exact hnothing fun c h => hcall ⟨c, h⟩
          rw [hempty]
          exact ⟨rfl, trivial, hpinned⟩
      · have helsewhere : ∀ found params, route (path_of x.request.target) ≠ .api found params :=
          fun found params h => hroute ⟨found, params, h⟩
        have hempty : F.logged (.incoming x) d = [] := by
          unfold Frontend.logged
          simp only
        rw [hempty, F.step_elsewhere helsewhere]
        exact ⟨rfl, trivial, hpin⟩

end Steps

/-! ## Runs -/

/-- What a step brings to the middleware. -/
def Daemon.Event.arrivals (e : Daemon.Event) (d : Daemon) : List Arrival :=
  match e with
  | .sweep _ => []
  | .incoming x =>
      match route (path_of x.request.target) with
      | .api _ _ => [x.arrival d.store.toWorld]
      | _ => []

/-- When a request comes in. -/
def Daemon.Event.times : Daemon.Event → List Int
  | .sweep _ => []
  | .incoming x => [x.now]

/-- Requests come in at times that do not decrease. -/
def InTime (run : List Daemon.Event) : Prop := (run.flatMap Daemon.Event.times).Pairwise (· ≤ ·)

/-- The request is dated before the second it comes in, if it has a date. -/
def Incoming.Dated (x : Incoming) : Prop := ∀ w, Predated (x.arrival w)

section Runs

variable {F : Frontend}

/-- What a step logs is signed as it was accepted, and the middleware goes on from there. -/
theorem Frontend.step_signed (F : Frontend) (e : Daemon.Event) (d : Daemon) :
    ((F.logged e d).filterMap Logged.signed).Sublist
        (outputs (accept F.env) (e.arrivals d) d.gate).reduceOption ∧
      (F.step e d).2.gate = final (accept F.env) (e.arrivals d) d.gate := by
  cases e with
  | sweep now => exact ⟨List.Sublist.refl _, rfl⟩
  | incoming x =>
      by_cases hroute : ∃ found params, route (path_of x.request.target) = .api found params
      · obtain ⟨found, params, hroute⟩ := hroute
        have harrivals : Daemon.Event.arrivals (.incoming x) d = [x.arrival d.store.toWorld] := by
          unfold Daemon.Event.arrivals
          simp only [hroute]
        rw [harrivals]
        refine ⟨?_, (F.step_api hroute).1⟩
        have hpassed : ∀ c, ((F.passed x d c).filterMap Logged.signed).Sublist
            [(accept F.env (x.arrival d.store.toWorld) d.gate).1].reduceOption := by
          intro c
          cases haccept : (accept F.env (x.arrival d.store.toWorld) d.gate).1 with
          | none =>
              rw [F.passed_of_refused haccept]
              exact List.nil_sublist _
          | some r =>
              obtain ⟨v, hv, rfl, -⟩ := accept_eq_some.mp haccept
              rw [F.passed_of_accepted hv haccept]
              exact List.Sublist.refl _
        show ((F.logged (.incoming x) d).filterMap Logged.signed).Sublist
          [(accept F.env (x.arrival d.store.toWorld) d.gate).1].reduceOption
        unfold Frontend.logged
        simp only [hroute]
        split
        · exact hpassed _
        · exact List.nil_sublist _
      · have helsewhere : ∀ found params, route (path_of x.request.target) ≠ .api found params :=
          fun found params h => hroute ⟨found, params, h⟩
        have harrivals : Daemon.Event.arrivals (.incoming x) d = [] := by
          unfold Daemon.Event.arrivals
          simp only
        have hempty : F.logged (.incoming x) d = [] := by
          unfold Frontend.logged
          simp only
        rw [harrivals, hempty, F.step_elsewhere helsewhere]
        exact ⟨List.Sublist.refl _, rfl⟩

/-- The signed requests of a log are among those that were accepted. -/
theorem Frontend.log_signed (F : Frontend) (run : List Daemon.Event) (d : Daemon) :
    ((F.log run d).filterMap Logged.signed).Sublist
      (outputs (accept F.env) (collect F.step Daemon.Event.arrivals run d) d.gate).reduceOption := by
  induction run generalizing d with
  | nil => exact List.Sublist.refl _
  | cons e run ih =>
      obtain ⟨hsigned, hgate⟩ := F.step_signed e d
      have hrest := ih (F.step e d).2
      rw [hgate] at hrest
      show ((F.logged e d ++ F.log run (F.step e d).2).filterMap Logged.signed).Sublist
        (outputs (accept F.env) (e.arrivals d ++ collect F.step Daemon.Event.arrivals run (F.step e d).2)
          d.gate).reduceOption
      rw [List.filterMap_append, outputs_append, List.reduceOption_append]
      exact hsigned.append hrest

theorem arrivals_times (e : Daemon.Event) (d : Daemon) :
    ((e.arrivals d).map Arrival.now).Sublist e.times := by
  cases e with
  | sweep now => exact List.Sublist.refl _
  | incoming x =>
      unfold Daemon.Event.arrivals
      simp only
      split
      · exact List.Sublist.refl _
      · exact List.nil_sublist _

theorem arrivals_dated {e : Daemon.Event} {d : Daemon} {a : Arrival} (h : a ∈ e.arrivals d) :
    ∃ x, e = .incoming x ∧ a = x.arrival d.store.toWorld := by
  cases e with
  | sweep now => cases h
  | incoming x =>
      unfold Daemon.Event.arrivals at h
      simp only at h
      split at h
      · exact ⟨x, rfl, List.mem_singleton.mp h⟩
      · cases h

/-- The arrivals of a run come in the order of the run. -/
theorem collect_arrivals_times (run : List Daemon.Event) (d : Daemon) :
    ((collect F.step Daemon.Event.arrivals run d).map Arrival.now).Sublist
      (run.flatMap Daemon.Event.times) :=
  collect_sublist _ arrivals_times run d

theorem collect_arrivals_dated {run : List Daemon.Event} (h : ∀ x, .incoming x ∈ run → x.Dated)
    (d : Daemon) : ∀ a ∈ collect F.step Daemon.Event.arrivals run d, Predated a := by
  induction run generalizing d with
  | nil => exact fun a ha => absurd ha List.not_mem_nil
  | cons e run ih =>
      intro a ha
      rcases List.mem_append.mp ha with ha | ha
      · obtain ⟨x, rfl, rfl⟩ := arrivals_dated ha
        exact h x List.mem_cons_self _
      · exact ih (fun x hx => h x (List.mem_cons_of_mem _ hx)) _ a ha

/-- Requests that are accepted from the start of the process on are accepted once. -/
theorem accepted_once {arrivals : List Arrival} (boot : Int) (master_pin : MasterPin)
    (hmono : (arrivals.map Arrival.now).Pairwise (· ≤ ·)) (hdated : ∀ a ∈ arrivals, Predated a) :
    (outputs (accept F.env) arrivals (.boot boot master_pin)).reduceOption.Nodup := by
  cases arrivals with
  | nil => exact List.nodup_nil
  | cons a arrivals =>
      refine (admitted_fresh F.env (a :: arrivals) _ a.now rfl (fun b hb => ?_) hmono hdated).2
      rcases List.mem_cons.mp hb with rfl | hb
      · exact le_rfl
      · exact (List.pairwise_cons.mp hmono).1 _ (List.mem_map_of_mem hb)

/-- **Every change is authentic.** Whatever comes in, the store of the daemon is where the service gets
with the log of the run; each entry of the log is a sweep, or a call whose request was signed with the
secret of a key of the store it met, dated close to the clock, and sent from a network of that key; and
if the requests come in in time and are dated before they come in, no signed request is carried out
twice. -/
theorem every_change_authentic (F : Frontend) (pinned : Uuid) (boot : Int) (run : List Daemon.Event)
    (v : Vault) :
    let S : Service := ⟨F.env, pinned⟩
    let start : Daemon := ⟨v, .boot boot ⟨some pinned⟩⟩
    (final F.step run start).store = final S.replay (F.log run start) v ∧
      Along S.replay (fun l w => l.Authentic F run w) (F.log run start) v ∧
      (InTime run → (∀ x, .incoming x ∈ run → x.Dated) →
        ((F.log run start).filterMap Logged.signed).Nodup) := by
  intro S start
  have halong : Along F.step (fun e _ => e ∈ run) run start := .of_mem run start
  have hpin : start.gate.master_pin = ⟨some pinned⟩ := rfl
  have hrefines : ∀ (e : Daemon.Event) (d : Daemon), e ∈ run → d.gate.master_pin = ⟨some pinned⟩ → _ :=
    fun e d he hd => Frontend.step_refines (F := F) (d := d) hd he
  refine ⟨?_, ?_, fun htime hdated => ?_⟩
  · exact halong.simulates Daemon.store (I := fun d => d.gate.master_pin = ⟨some pinned⟩) hpin
      (fun e d he hd => (hrefines e d he hd).2.2) fun e d he hd => (hrefines e d he hd).1
  · exact halong.collected Daemon.store (I := fun d => d.gate.master_pin = ⟨some pinned⟩) hpin
      (fun e d he hd => (hrefines e d he hd).2.2) (fun e d he hd => (hrefines e d he hd).1)
      fun e d he hd => (hrefines e d he hd).2.1
  · have hmono := htime.sublist (collect_arrivals_times (F := F) run start)
    exact (accepted_once boot _ hmono (collect_arrivals_dated hdated start)).sublist
      (F.log_signed run start)

end Runs

end IpVault
