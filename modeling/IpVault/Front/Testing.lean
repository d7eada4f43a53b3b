import IpVault.Front.History

set_option autoImplicit false

/-! # Testing a webhook (`send_test_dispatch` in `dispatch.rs`)

A test is a delivery that somebody waits for. It prepares the same request as a worker would, screens
the same target, posts once and leaves a row of it; it does not try again, and it words a refusal in its
own way.
-/

namespace IpVault

open Lib

/-! ## One HTTP attempt -/

/-- An HTTP response: its status, as a number and as it is displayed, its headers, and its text if that
could be read. -/
structure HttpReply where
  status : Nat
  status_text : String
  headers : List (String × String)
  text : Option String

/-- `RESPONSE_SNIPPET_MAX_BYTES`, which counts characters. -/
def RESPONSE_SNIPPET_MAX_BYTES : Nat := 500

/-- `snippet`. -/
def snippet (body : String) : String :=
  if body.toList.length ≤ RESPONSE_SNIPPET_MAX_BYTES then body
  else
    let total := (Crypto.as_bytes body).length
    s!"{Text.take RESPONSE_SNIPPET_MAX_BYTES body}… ({total} bytes total)"

namespace HttpReply

/-- `StatusCode::is_success`. -/
def is_success (resp : HttpReply) : Bool := 200 ≤ resp.status && resp.status < 300

/-- `StatusCode::is_server_error`. -/
def is_server_error (resp : HttpReply) : Bool := 500 ≤ resp.status && resp.status < 600

/-- What is kept of the body: nothing of an empty one. -/
def body (resp : HttpReply) : Option String :=
  (resp.text.filter fun text => !Text.is_empty text).map snippet

end HttpReply

/-- `attempt_delivery`, of a response or the error of the network. -/
def attempt_delivery : Except String HttpReply → DispatchOutcome × Option String
  | .ok resp =>
      if resp.is_success then (.Success resp.status, resp.body)
      else
        let reason := s!"HTTP {resp.status_text}"
        if resp.is_server_error then (.Transient (some resp.status) reason, resp.body)
        else (.Permanent (some resp.status) reason, resp.body)
  | .error e => (.Transient none e, none)

/-! ## The test -/

/-- The event that `test_webhook` makes up for a webhook, with the name of its group if that is there. -/
def test_event (target : WebhookConfig) (group_name : Option String) : WebhookEvent where
  action := "TEST"
  address := "127.0.0.1/32"
  is_whitelist := false
  group_id := some target.group_id
  group_name := group_name
  cause := some "Manual test dispatch from the dashboard"

/-- What the outside answers a test. -/
structure TestAnswer where
  now : Int
  lookup_host : String → Option (List IpAddr)
  allow_private : Bool
  /-- The error of `build_webhook_client`, if there is one. -/
  client_error : Option String
  reply : Except String HttpReply
  elapsed_ms : Nat
  execution_id : Uuid
  recorded_at : Int

/-- The attempt, as a delivery would see it. -/
def TestAnswer.delivery (answer : TestAnswer) : Delivery where
  outcome := (attempt_delivery answer.reply).1
  body := (attempt_delivery answer.reply).2
  elapsed_ms := answer.elapsed_ms
  execution_id := answer.execution_id
  recorded_at := answer.recorded_at

/-- `WebhookTestResult`. The headers are a `HashMap` in the source, where the last of several values of
a name stays; here they are listed as they came. -/
structure WebhookTestResult where
  success : Bool
  status : Option Nat
  headers : Option (List (String × String))
  body : Option String
  error : Option String
  blocked_by_ssrf_filter : Bool

/-- The result of a test without a response. -/
def WebhookTestResult.failed (error : String) (blocked_by_ssrf_filter : Bool) : WebhookTestResult :=
  ⟨false, none, none, none, some error, blocked_by_ssrf_filter⟩

/-- `send_test_dispatch_with_privacy`: the result, and what it does to the world. -/
def send_test_dispatch (env : Env) (http : Http) (config : WebhookConfig) (event : WebhookEvent)
    (answer : TestAnswer) : WebhookTestResult × List DispatchEffect :=
  match prepare_dispatch env http config event answer.now with
  | .error reason => (.failed reason false, [])
  | .ok prepared =>
      if !is_url_safe env answer.lookup_host prepared.target_url answer.allow_private then
        (.failed
          "target_url resolves to an address this service refuses to contact (SSRF protection)" true, [])
      else
        match answer.client_error with
        | some e => (.failed s!"failed to build HTTP client: {e}" false, [])
        | none =>
            let ctx : DispatchContext := {
              webhook_id := config.id
              webhook_name := config.name
              event_type := "TEST"
              target_address := event.address
              cause := event.cause }
            let post := DispatchEffect.post prepared.target_url prepared.headers prepared.payload
            let duration_ms := as_i64 answer.elapsed_ms
            match answer.reply with
            | .ok resp =>
                let success := resp.is_success
                let error := if success then none
                  else some s!"receiver responded with HTTP {resp.status_text}"
                let detail := resp.body.or error
                (⟨success, some resp.status, some resp.headers, resp.body, error, false⟩,
                  [post, .insert (ctx.log_execution prepared.target_url answer.delivery
                    (some resp.status) success duration_ms detail)])
            | .error reason =>
                (.failed reason false,
                  [post, .insert (ctx.log_execution prepared.target_url answer.delivery none false
                    duration_ms (some reason))])

/-! ## The delivery it stands for -/

/-- What the outside answers the delivery. -/
def TestAnswer.task (answer : TestAnswer) : TaskAnswer :=
  ⟨answer.lookup_host, answer.allow_private, answer.delivery⟩

/-- The delivery that a worker spawns for the webhook, as far as its first attempt: the request is
prepared, the target is screened, and one attempt is made. -/
def Site.first_attempt (S : Site) (config : WebhookConfig) (event : WebhookEvent) (answer : TestAnswer) :
    List DispatchEffect :=
  match prepare_dispatch S.frontend.env S.http config event answer.now with
  | .error _ => []
  | .ok prepared =>
      let spawned : Task := ⟨dispatch_context config event, prepared, .screening⟩
      let screened := spawned.move S.dispatcher answer.task
      screened.1 ++ (screened.2.move S.dispatcher answer.task).1

/-- How a test words what the row keeps of the answer: a refusal without a body has words of its own. -/
def TestAnswer.worded (answer : TestAnswer) (response_body : Option String) : Option String :=
  match answer.reply with
  | .ok resp =>
      if resp.is_success || resp.body.isSome then response_body
      else some s!"receiver responded with HTTP {resp.status_text}"
  | .error _ => response_body

/-- What a test makes of what a delivery does: it does not wait for another attempt. -/
def TestAnswer.retell (answer : TestAnswer) : DispatchEffect → Option DispatchEffect
  | .sleep _ => none
  | .post target_url headers payload => some (.post target_url headers payload)
  | .insert row => some (.insert { row with response_body := answer.worded row.response_body })

/-! ## Test and delivery -/

section Attempt

variable {S : Site} {config : WebhookConfig} {group_name : Option String} {answer : TestAnswer}
  {prepared : PreparedDispatch}

/-- The row of the attempt, in the words of a test. -/
def TestAnswer.row (answer : TestAnswer) (prepared : PreparedDispatch) (config : WebhookConfig)
    (group_name : Option String) : WebhookExecution :=
  let row := execution_row prepared (dispatch_context config (test_event config group_name))
    answer.delivery
  { row with response_body := answer.worded row.response_body }

/-- The row a test inserts for a response is that of the attempt. -/
theorem row_of_reply {resp : HttpReply} (h : answer.reply = .ok resp) :
    (dispatch_context config (test_event config group_name)).log_execution prepared.target_url
        answer.delivery (some resp.status) resp.is_success (as_i64 answer.elapsed_ms)
        (resp.body.or (if resp.is_success then none
          else some s!"receiver responded with HTTP {resp.status_text}")) =
      answer.row prepared config group_name := by
  unfold TestAnswer.row execution_row TestAnswer.worded TestAnswer.delivery attempt_delivery
  rw [h]
  cases hsuccess : resp.is_success with
  | true =>
      simp [DispatchContext.log_execution, DispatchOutcome.status, DispatchOutcome.is_success,
        DispatchOutcome.detail, hsuccess]
  | false =>
      -- Whether the refusal would be tried again does not matter for the row.
      cases hserver : resp.is_server_error <;> cases hbody : resp.body <;>
        simp [DispatchContext.log_execution, DispatchOutcome.status, DispatchOutcome.is_success,
          DispatchOutcome.detail, hsuccess, hserver, hbody]

/-- The row a test inserts for an error of the network is that of the attempt. -/
theorem row_of_error {reason : String} (h : answer.reply = .error reason) :
    (dispatch_context config (test_event config group_name)).log_execution prepared.target_url
        answer.delivery none false (as_i64 answer.elapsed_ms) (some reason) =
      answer.row prepared config group_name := by
  unfold TestAnswer.row execution_row TestAnswer.worded TestAnswer.delivery attempt_delivery
  rw [h]
  simp [DispatchContext.log_execution, DispatchOutcome.status, DispatchOutcome.is_success,
    DispatchOutcome.detail]

/-- What a delivery does first, if its request can be prepared and its target passes. -/
theorem first_attempt_of_safe {event : WebhookEvent}
    (hprepared : prepare_dispatch S.frontend.env S.http config event answer.now = .ok prepared)
    (hsafe : is_url_safe S.frontend.env answer.lookup_host prepared.target_url answer.allow_private =
      true) :
    ∃ pauses : List Nat, S.first_attempt config event answer =
      .post prepared.target_url prepared.headers prepared.payload ::
        .insert (execution_row prepared (dispatch_context config event) answer.delivery) ::
          pauses.map .sleep := by
  -- The first attempt may be followed by a pause, and always says what comes next.
  have hmax : S.dispatcher.max_retries ≤ 10 := webhook_max_retries_le _
  obtain ⟨pauses, next, hattempt, -⟩ := dispatch_attempt_effects prepared
    (dispatch_context config event) S.dispatcher.retry_backoff_ms answer.delivery hmax le_rfl
  refine ⟨pauses, ?_⟩
  have hscreen : is_url_safe S.dispatcher.env answer.task.lookup_host prepared.target_url
      answer.task.allow_private = true := hsafe
  have hdelivery : answer.task.delivery = answer.delivery := rfl
  unfold Site.first_attempt
  simp only [hprepared, Task.move, hscreen, if_true, hdelivery, hattempt]
  cases next <;> rfl

/-- A target that does not pass ends it. -/
theorem first_attempt_of_refused {event : WebhookEvent}
    (hprepared : prepare_dispatch S.frontend.env S.http config event answer.now = .ok prepared)
    (hrefused : is_url_safe S.frontend.env answer.lookup_host prepared.target_url answer.allow_private =
      false) : S.first_attempt config event answer = [] := by
  have hscreen : is_url_safe S.dispatcher.env answer.task.lookup_host prepared.target_url
      answer.task.allow_private = false := hrefused
  unfold Site.first_attempt
  simp only [hprepared, Task.move, hscreen]
  rfl

/-- What a test makes of it. -/
theorem retold_attempt (pauses : List Nat) :
    (DispatchEffect.post prepared.target_url prepared.headers prepared.payload ::
      .insert (execution_row prepared (dispatch_context config (test_event config group_name))
        answer.delivery) :: pauses.map .sleep).filterMap answer.retell =
      [.post prepared.target_url prepared.headers prepared.payload,
        .insert (answer.row prepared config group_name)] := by
  have hsleeps : (pauses.map DispatchEffect.sleep).filterMap answer.retell = [] := by
    induction pauses with
    | nil => rfl
    | cons pause pauses ih => exact ih
  exact congrArg (fun rest => _ :: _ :: rest) hsleeps

/-- The outcome of an attempt is a success if its response is one. -/
theorem success_of_reply {resp : HttpReply} (h : answer.reply = .ok resp) :
    (answer.row prepared config group_name).is_success = resp.is_success := by
  have hrow : _ = answer.row prepared config group_name := row_of_reply h
  rw [← hrow]
  rfl

end Attempt

/-- What a test reports is what it did. -/
structure WebhookTestResult.Honest (result : WebhookTestResult) (effects : List DispatchEffect) :
    Prop where
  success : result.success = true ↔ ∃ row, .insert row ∈ effects ∧ row.is_success = true
  error : result.error = none ↔ result.success = true
  sent : result.status.isSome = true → ∃ target_url headers payload,
    .post target_url headers payload ∈ effects

/-- A failure before anything was sent. -/
theorem honest_unsent (error : String) (blocked_by_ssrf_filter : Bool) :
    (WebhookTestResult.failed error blocked_by_ssrf_filter).Honest [] where
  success := ⟨fun h => (nomatch h), fun ⟨_, h, _⟩ => absurd h List.not_mem_nil⟩
  error := ⟨fun h => (nomatch h), fun h => (nomatch h)⟩
  sent := fun h => (nomatch h)

/-- A response that was sent for. -/
theorem honest_sent {result : WebhookTestResult} {target_url payload : String}
    {headers : DispatchHeaders} {row : WebhookExecution} (hsuccess : row.is_success = result.success)
    (herror : result.error = none ↔ result.success = true) :
    result.Honest [.post target_url headers payload, .insert row] where
  success := by
    refine ⟨fun h => ⟨row, by simp, hsuccess.trans h⟩, fun ⟨row', hmem, hrow⟩ => ?_⟩
    obtain rfl : row' = row := by simpa using hmem
    exact hsuccess.symm.trans hrow
  error := herror
  sent := fun _ => ⟨target_url, headers, payload, List.mem_cons_self⟩

section Cases

variable {S : Site} {config : WebhookConfig} {event : WebhookEvent} {group_name : Option String}
  {answer : TestAnswer} {prepared : PreparedDispatch}

/-- Nothing is sent of a request that cannot be prepared. -/
theorem send_test_dispatch_of_error {reason : String}
    (h : prepare_dispatch S.frontend.env S.http config event answer.now = .error reason) :
    send_test_dispatch S.frontend.env S.http config event answer = (.failed reason false, []) ∧
      S.first_attempt config event answer = [] := by
  unfold send_test_dispatch Site.first_attempt
  simp only [h, and_self]

/-- Nothing is sent to a target that does not pass the screen. -/
theorem send_test_dispatch_of_refused
    (hprepared : prepare_dispatch S.frontend.env S.http config event answer.now = .ok prepared)
    (hrefused : is_url_safe S.frontend.env answer.lookup_host prepared.target_url answer.allow_private =
      false) : ∃ error, send_test_dispatch S.frontend.env S.http config event answer =
        (.failed error true, []) := by
  unfold send_test_dispatch
  simp only [hprepared, hrefused]
  exact ⟨_, rfl⟩

/-- Nothing is sent without a client. -/
theorem send_test_dispatch_without_client {e : String}
    (hprepared : prepare_dispatch S.frontend.env S.http config event answer.now = .ok prepared)
    (hsafe : is_url_safe S.frontend.env answer.lookup_host prepared.target_url answer.allow_private =
      true) (hclient : answer.client_error = some e) :
    ∃ error, send_test_dispatch S.frontend.env S.http config event answer =
      (.failed error false, []) := by
  unfold send_test_dispatch
  simp only [hprepared, hsafe, hclient]
  exact ⟨_, rfl⟩

/-- What a test does once its target has passed the screen. -/
theorem send_test_dispatch_of_safe
    (hprepared : prepare_dispatch S.frontend.env S.http config (test_event config group_name)
      answer.now = .ok prepared)
    (hsafe : is_url_safe S.frontend.env answer.lookup_host prepared.target_url answer.allow_private =
      true) (hclient : answer.client_error = none) :
    ∃ result : WebhookTestResult,
      send_test_dispatch S.frontend.env S.http config (test_event config group_name) answer =
        (result, [.post prepared.target_url prepared.headers prepared.payload,
          .insert (answer.row prepared config group_name)]) ∧
      (answer.row prepared config group_name).is_success = result.success ∧
      (result.error = none ↔ result.success = true) ∧ result.blocked_by_ssrf_filter = false := by
  have hscreen : (!is_url_safe S.frontend.env answer.lookup_host prepared.target_url
      answer.allow_private) = false := by rw [hsafe]; rfl
  cases hreply : answer.reply with
  | ok resp =>
      have hrow : _ = answer.row prepared config group_name := row_of_reply hreply
      let error := if resp.is_success then none
        else some s!"receiver responded with HTTP {resp.status_text}"
      refine ⟨⟨resp.is_success, some resp.status, some resp.headers, resp.body, error, false⟩, ?_,
        success_of_reply hreply, ?_, rfl⟩
      · unfold send_test_dispatch
        simp only [hprepared, hscreen, hclient, hreply]
        rw [← hrow]
        rfl
      · show (if resp.is_success then none else some _ : Option String) = none ↔ _
        cases resp.is_success <;> simp
  | error reason =>
      have hrow : _ = answer.row prepared config group_name := row_of_error hreply
      refine ⟨.failed reason false, ?_, ?_, ?_, rfl⟩
      · unfold send_test_dispatch
        simp only [hprepared, hscreen, hclient, hreply]
        rw [← hrow]
        rfl
      · rw [← hrow]
        rfl
      · exact ⟨fun h => (nomatch h), fun h => (nomatch h)⟩

/-- The row is one of the webhook, and of the event that the handler writes into it. -/
theorem row_labelled :
    ({ answer.row prepared config group_name with
      webhook_id := config.id, event_type := "TEST" } : WebhookExecution) =
      answer.row prepared config group_name := by
  have hid : (answer.row prepared config group_name).webhook_id = config.id := rfl
  have hevent : (answer.row prepared config group_name).event_type = "TEST" := rfl
  rw [← hid, ← hevent]

end Cases

/-- **A test is the first attempt of a delivery.** For every webhook and whatever the outside answers:
what a test posts and inserts is what a worker's delivery of the same event does until its first attempt
is over, but for the pause and its own words for a refusal without a body; it reports success exactly if
the row it leaves says so, and a refused target exactly if the screen refuses it; and the row is one of
its webhook and of the event `TEST`, as the handler inserts it. -/
theorem test_as_delivered (S : Site) (config : WebhookConfig) (group_name : Option String)
    (answer : TestAnswer) :
    let event := test_event config group_name
    let test := send_test_dispatch S.frontend.env S.http config event answer
    test.2 = (if answer.client_error.isSome then []
      else (S.first_attempt config event answer).filterMap answer.retell) ∧
    test.1.Honest test.2 ∧
    (test.1.blocked_by_ssrf_filter = true ↔ ∃ prepared,
      prepare_dispatch S.frontend.env S.http config event answer.now = .ok prepared ∧
      is_url_safe S.frontend.env answer.lookup_host prepared.target_url answer.allow_private = false) ∧
    ∀ row, .insert row ∈ test.2 → { row with webhook_id := config.id, event_type := "TEST" } = row := by
  intro event test
  -- Three of the four cases send nothing, and leave no row.
  have hno : ∀ row, DispatchEffect.insert row ∈ ([] : List DispatchEffect) →
      { row with webhook_id := config.id, event_type := "TEST" } = row :=
    fun _ h => absurd h List.not_mem_nil
  cases hprepared : prepare_dispatch S.frontend.env S.http config event answer.now with
  | error reason =>
      obtain ⟨hsent, hfirst⟩ := send_test_dispatch_of_error hprepared
      have htest : test = (.failed reason false, []) := hsent
      rw [htest, hfirst]
      refine ⟨by simp, honest_unsent reason false, ⟨fun h => (nomatch h), ?_⟩, hno⟩
      rintro ⟨prepared, hok, -⟩
      cases hok
  | ok prepared =>
      cases hsafe : is_url_safe S.frontend.env answer.lookup_host prepared.target_url
          answer.allow_private with
      | false =>
          obtain ⟨error, hsent⟩ := send_test_dispatch_of_refused hprepared hsafe
          have htest : test = (.failed error true, []) := hsent
          rw [htest, first_attempt_of_refused hprepared hsafe]
          exact ⟨by simp, honest_unsent error true, ⟨fun _ => ⟨prepared, rfl, hsafe⟩, fun _ => rfl⟩, hno⟩
      | true =>
          have hpasses : ¬ ∃ p, Except.ok (ε := String) prepared = .ok p ∧
              is_url_safe S.frontend.env answer.lookup_host p.target_url answer.allow_private = false := by
            rintro ⟨p, hp, hrefused⟩
            obtain rfl := Except.ok.inj hp
            exact Bool.noConfusion (hsafe.symm.trans hrefused)
          cases hclient : answer.client_error with
          | some e =>
              obtain ⟨error, hsent⟩ := send_test_dispatch_without_client hprepared hsafe hclient
              have htest : test = (.failed error false, []) := hsent
              rw [htest]
              exact ⟨rfl, honest_unsent error false, ⟨fun h => (nomatch h), fun h => absurd h hpasses⟩,
                hno⟩
          | none =>
              obtain ⟨result, hsent, hsuccess, herror, hblocked⟩ :=
                send_test_dispatch_of_safe hprepared hsafe hclient
              obtain ⟨pauses, hfirst⟩ := first_attempt_of_safe hprepared hsafe
              have htest : test = _ := hsent
              rw [htest, hfirst]
              refine ⟨(retold_attempt pauses).symm, honest_sent hsuccess herror, ?_, fun row hrow => ?_⟩
              · exact ⟨fun h => Bool.noConfusion (hblocked.symm.trans h), fun h => absurd h hpasses⟩
              · obtain rfl : row = answer.row prepared config group_name := by simpa using hrow
                exact row_labelled

end IpVault
