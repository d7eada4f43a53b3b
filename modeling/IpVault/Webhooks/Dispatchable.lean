import IpVault.Auth.Canary
import IpVault.Webhooks.Dispatch
import IpVault.Webhooks.Reach
import IpVault.Webhooks.Secrets

set_option autoImplicit false

/-! # Which stored webhooks can be dispatched

The columns of a webhook are free texts, and the endpoints that store them look at the URL, the
events, the mode, and whether a secret and a key are there. `prepare_dispatch` turns the key, the
signature prefix and the signature header into headers, which not every text can be, and a signature
header may be one that a credential has already taken.
-/

namespace IpVault

open Lib

/-! ## Headers -/

/-- What a request carries under a name. -/
def header_values (headers : DispatchHeaders) (name : String) : List String :=
  (headers.filter fun h => h.1 = name).map Prod.snd

theorem header_values_insert_self (headers : DispatchHeaders) (name value : String) :
    header_values (insert_header headers name value) name = [value] := by
  have hnone : (headers.filter fun h => h.1 ≠ name).filter (fun h => h.1 = name) = [] := by
    refine List.filter_eq_nil_iff.mpr fun h hh => ?_
    have hne := (List.mem_filter.mp hh).2
    simpa using hne
  unfold header_values insert_header
  rw [List.filter_append, hnone]
  simp

theorem header_values_insert_of_ne (headers : DispatchHeaders) {name other : String} (value : String)
    (h : other ≠ name) :
    header_values (insert_header headers other value) name = header_values headers name := by
  have hsame : (headers.filter fun x => x.1 ≠ other).filter (fun x => x.1 = name) =
      headers.filter fun x => x.1 = name := by
    rw [List.filter_filter]
    refine List.filter_congr fun x _ => ?_
    by_cases hx : x.1 = name
    · simp [hx, h.symm]
    · simp [hx]
  have hnone : [(other, value)].filter (fun x => x.1 = name) = [] := by
    simp [h]
  unfold header_values insert_header
  rw [List.filter_append, hsame, hnone, List.append_nil]

/-- The characters a header value is made of: all but the controls of ASCII, and of these the tab. What
lies beyond ASCII is sent as the bytes of its encoding. -/
def Printable (c : Char) : Prop := c = '\t' ∨ 32 ≤ c.toNat ∧ c.toNat ≠ 127

instance (c : Char) : Decidable (Printable c) :=
  inferInstanceAs (Decidable (c = '\t' ∨ 32 ≤ c.toNat ∧ c.toNat ≠ 127))

theorem all_printable_iff {v : String} :
    v.toList.all (fun c => decide (Printable c)) = true ↔ ∀ c ∈ v.toList, Printable c := by
  rw [List.all_eq_true]
  simp only [decide_eq_true_eq]

/-- `HeaderValue::from_str` of the crate `http` takes every text of printable characters and no
other. -/
def Http.PrintableValues (http : Http) : Prop :=
  ∀ v, http.header_value v = .ok () ↔ ∀ c ∈ v.toList, Printable c

theorem printable_of_isDigit {c : Char} (h : c.isDigit = true) : Printable c := by
  have hbounds := Char.isDigit_iff_toNat.mp h
  have hlow : '0'.toNat = 48 := rfl
  have hhigh : '9'.toNat = 57 := rfl
  right
  omega

theorem printable_digit {n : Nat} (h : n < 16) : Printable (Hex.digit n) := by
  have all : ∀ m < 16, Printable (Hex.digit m) := by decide
  exact all n h

theorem printable_toString (n : Int) : ∀ c ∈ (toString n).toList, Printable c := by
  have natural : ∀ m : Nat, ∀ c ∈ (toString m).toList, Printable c := by
    intro m c hc
    have hdigit : c ∈ Nat.toDigits 10 m := by
      rw [← Nat.toList_repr]
      exact hc
    exact printable_of_isDigit (Nat.isDigit_of_mem_toDigits (by decide) (by decide) hdigit)
  intro c hc
  cases n with
  | ofNat m => exact natural m c hc
  | negSucc m =>
      have happ : toString (Int.negSucc m) = "-" ++ toString (m + 1) := rfl
      rw [happ, String.toList_append] at hc
      rcases List.mem_append.mp hc with hminus | hrest
      · have hc' : c = '-' := by simpa using hminus
        rw [hc']
        decide
      · exact natural (m + 1) c hrest

namespace WebhookConfig

/-- The name under which a webhook sends its signature, if it is a name. -/
def signature_name (h : WebhookConfig) (http : Http) : Option String :=
  http.header_name ((trimmed h.signature_header).getD DEFAULT_SIGNATURE_HEADER)

/-- What the signature of a webhook covers. -/
def signed_text (h : WebhookConfig) (path payload timestamp : String) : String :=
  if h.mode = .CanonicalV1 then
    resolve_hmac_template (h.hmac_template.getD DEFAULT_HMAC_TEMPLATE) "POST" path timestamp payload
  else payload

end WebhookConfig

/-- **What a mode promises the receiver**: the key, the time and the signature, each under its
header and nothing else there. -/
structure PreparedDispatch.Carries (d : PreparedDispatch) (env : Env) (http : Http)
    (h : WebhookConfig) (path timestamp : String) : Prop where
  has_key : h.mode = .ApiKeyOnly → nonempty h.api_key ≠ none
  sends_key : h.mode.sends_api_key = true → ∀ k, nonempty h.api_key = some k →
    header_values d.headers "x-api-key" = [k]
  sends_time : h.mode = .CanonicalV1 → header_values d.headers "x-timestamp" = [timestamp]
  signs : h.mode.requires_secret = true → ∃ name, h.signature_name http = some name ∧
    header_values d.headers name =
      [webhook_signature env h (h.signed_text path d.payload timestamp)]

/-- **The condition.** The key and the prefix may be header values, the signature header may be a
header name, and it is not the header of the time or of a key, unless the signature is the very text
that is there. -/
structure WebhookConfig.Dispatchable (h : WebhookConfig) (env : Env) (http : Http)
    (path payload timestamp : String) : Prop where
  api_key : h.mode.sends_api_key = true → ∀ k, nonempty h.api_key = some k →
    http.header_value k = .ok ()
  signature_prefix : h.mode.requires_secret = true →
    http.header_value (h.signature_prefix.getD DEFAULT_SIGNATURE_PREFIX) = .ok ()
  signature_header : h.mode.requires_secret = true → h.signature_name http ≠ none
  not_timestamp : h.mode = .CanonicalV1 → h.signature_name http = some "x-timestamp" →
    webhook_signature env h (h.signed_text path payload timestamp) = timestamp
  not_api_key : h.mode = .CanonicalV1 → h.signature_name http = some "x-api-key" →
    ∀ k, nonempty h.api_key = some k →
      webhook_signature env h (h.signed_text path payload timestamp) = k

section Values

variable {http : Http}

/-- A time may be a header value. -/
theorem Http.PrintableValues.of_time (hvalues : http.PrintableValues) (n : Int) :
    http.header_value (toString n) = .ok () :=
  (hvalues _).mpr (printable_toString n)

/-- Whether a signature may be a header value is up to its prefix. -/
theorem Http.PrintableValues.signature_iff (hvalues : http.PrintableValues) {env : Env}
    (hhex : env.HexCrate) (h : WebhookConfig) (message : String) :
    http.header_value (webhook_signature env h message) = .ok () ↔
      http.header_value (h.signature_prefix.getD DEFAULT_SIGNATURE_PREFIX) = .ok () := by
  rw [hvalues, hvalues]
  unfold webhook_signature
  rw [hhex.encode, String.toList_append]
  constructor
  · intro hall c hc
    exact hall c (List.mem_append_left _ hc)
  · intro hlead c hc
    rcases List.mem_append.mp hc with hc | hc
    · exact hlead c hc
    · unfold Hex.encode at hc
      rw [String.toList_ofList] at hc
      obtain ⟨n, hn, rfl⟩ := Hex.mem_encodeChars hc
      exact printable_digit hn

end Values

/-! ## What `prepare_dispatch` makes of a row -/

section Prepare

variable {env : Env} {http : Http} {h : WebhookConfig} {headers : DispatchHeaders}

/-- The key a webhook sends. -/
def WebhookConfig.sent_key (h : WebhookConfig) : Option String :=
  if h.mode.sends_api_key then nonempty h.api_key else none

/-- The headers with one more, if there is one. -/
def put_header (headers : DispatchHeaders) : Option (String × String) → DispatchHeaders
  | none => headers
  | some h => insert_header headers h.1 h.2

theorem credential_headers_iff {keyed : DispatchHeaders} :
    credential_headers http h headers = .ok keyed ↔
      (∀ k, h.sent_key = some k → http.header_value k = .ok ()) ∧
        keyed = put_header headers (h.sent_key.map fun k => ("x-api-key", k)) := by
  unfold credential_headers WebhookConfig.sent_key WebhookConfig.mode
  cases (AuthMode.from_stored h.auth_mode).sends_api_key with
  | false =>
      simp [put_header, eq_comm]
  | true =>
      cases nonempty h.api_key with
      | none => simp [put_header, eq_comm]
      | some k =>
          cases hk : http.header_value k with
          | ok u => simp [put_header, hk, eq_comm]
          | error e => simp [hk]

theorem signature_headers_iff {sig : String} {signed : DispatchHeaders} :
    signature_headers http h headers (some sig) = .ok signed ↔
      ∃ name, h.signature_name http = some name ∧ http.header_value sig = .ok () ∧
        signed = insert_header headers name sig := by
  unfold signature_headers WebhookConfig.signature_name
  dsimp only
  cases http.header_name ((trimmed h.signature_header).getD DEFAULT_SIGNATURE_HEADER) with
  | none => simp
  | some name =>
      cases hsig : http.header_value sig with
      | ok u => simp [eq_comm]
      | error e => simp

theorem sign_dispatch_eq {target_url path payload timestamp : String}
    (htime : http.header_value timestamp = .ok ()) (hpath : http.url_path target_url = .ok path) :
    sign_dispatch env http h target_url payload timestamp headers =
      .ok (put_header headers
          (if h.mode = .CanonicalV1 then some ("x-timestamp", timestamp) else none),
        if h.mode.requires_secret then
          some (webhook_signature env h (h.signed_text path payload timestamp))
        else none) := by
  unfold sign_dispatch WebhookConfig.signed_text WebhookConfig.mode
  cases AuthMode.from_stored h.auth_mode with
  | CanonicalV1 => simp [hpath, htime, put_header, AuthMode.requires_secret]
  | HmacOnly => simp [put_header, AuthMode.requires_secret]
  | ApiKeyOnly => simp [put_header, AuthMode.requires_secret]
  | None => simp [put_header, AuthMode.requires_secret]

/-- The headers of a request with the signature `sig` under `name`. -/
def WebhookConfig.request_headers (h : WebhookConfig) (http : Http) (timestamp sig : String) :
    DispatchHeaders :=
  put_header
    (put_header
      (put_header (custom_headers http h.headers_json) (h.sent_key.map fun k => ("x-api-key", k)))
      (if h.mode = .CanonicalV1 then some ("x-timestamp", timestamp) else none))
    (if h.mode.requires_secret then (h.signature_name http).map fun name => (name, sig) else none)

/-- **A request is prepared** exactly if the key, the name and the prefix can be used. -/
theorem prepare_dispatch_iff (hvalues : http.PrintableValues) (hhex : env.HexCrate)
    {event : WebhookEvent} {now : Int} {path : String} {d : PreparedDispatch}
    (hpath : http.url_path (resolve_event_variables h.target_url event
      (toString (clock_seconds now))) = .ok path) :
    prepare_dispatch env http h event now = .ok d ↔
      (∀ k, h.sent_key = some k → http.header_value k = .ok ()) ∧
      (h.mode.requires_secret = true → h.signature_name http ≠ none ∧
        http.header_value (h.signature_prefix.getD DEFAULT_SIGNATURE_PREFIX) = .ok ()) ∧
      d = ⟨resolve_event_variables h.target_url event (toString (clock_seconds now)),
        h.request_headers http (toString (clock_seconds now))
          (webhook_signature env h (h.signed_text path
            (resolve_event_variables h.payload_template event (toString (clock_seconds now)))
            (toString (clock_seconds now)))),
        resolve_event_variables h.payload_template event (toString (clock_seconds now))⟩ := by
  have htime := hvalues.of_time (clock_seconds now)
  unfold prepare_dispatch WebhookConfig.request_headers
  dsimp only
  generalize toString (clock_seconds now) = timestamp at htime hpath ⊢
  generalize resolve_event_variables h.target_url event timestamp = target_url at hpath ⊢
  generalize resolve_event_variables h.payload_template event timestamp = payload
  have hcredential := @credential_headers_iff http h (custom_headers http h.headers_json)
  have hsign := fun headers => @sign_dispatch_eq env http h headers target_url path payload
    timestamp htime hpath
  have hsignature := fun headers signed => @signature_headers_iff http h headers
    (webhook_signature env h (h.signed_text path payload timestamp)) signed
  have hlead := hvalues.signature_iff hhex h (h.signed_text path payload timestamp)
  -- From here on only the shape of the four stages counts.
  generalize custom_headers http h.headers_json = base at hcredential ⊢
  generalize h.sent_key = sent at hcredential ⊢
  generalize webhook_signature env h (h.signed_text path payload timestamp) = sig at *
  generalize (if h.mode = .CanonicalV1 then some ("x-timestamp", timestamp) else none) = time at *
  generalize h.mode.requires_secret = signs at *
  constructor
  · intro hprepared
    obtain ⟨keyed, hkeyed, hprepared⟩ := except_bind_ok.mp hprepared
    obtain ⟨hkey, rfl⟩ := hcredential.mp hkeyed
    obtain ⟨timed, htimed, hprepared⟩ := except_bind_ok.mp hprepared
    rw [hsign] at htimed
    obtain rfl := Except.ok.inj htimed
    obtain ⟨signed, hsigned, hprepared⟩ := except_bind_ok.mp hprepared
    obtain rfl := Except.ok.inj hprepared
    refine ⟨hkey, ?_⟩
    cases signs with
    | false =>
        obtain rfl := Except.ok.inj hsigned
        exact ⟨fun hfalse => (nomatch hfalse), rfl⟩
    | true =>
        obtain ⟨name, hname, hvalue, rfl⟩ := (hsignature _ _).mp hsigned
        rw [hname]
        exact ⟨fun _ => ⟨Option.some_ne_none name, hlead.mp hvalue⟩, rfl⟩
  · rintro ⟨hkey, husable, rfl⟩
    refine except_bind_ok.mpr ⟨_, hcredential.mpr ⟨hkey, rfl⟩, ?_⟩
    refine except_bind_ok.mpr ⟨_, hsign _, ?_⟩
    refine except_bind_ok.mpr ⟨_, ?_, rfl⟩
    cases signs with
    | false => rfl
    | true =>
        obtain ⟨hname, hvalue⟩ := husable rfl
        obtain ⟨name, hname⟩ := Option.ne_none_iff_exists'.mp hname
        rw [hname]
        exact (hsignature _ _).mpr ⟨name, hname, hlead.mpr hvalue, rfl⟩

theorem header_values_put_some (name value : String) :
    header_values (put_header headers (some (name, value))) name = [value] :=
  header_values_insert_self headers name value

theorem header_values_put_of_ne {name : String} {added : Option (String × String)}
    (hne : ∀ x, added = some x → x.1 ≠ name) :
    header_values (put_header headers added) name = header_values headers name := by
  cases added with
  | none => rfl
  | some x => exact header_values_insert_of_ne headers x.2 (hne x rfl)

variable {timestamp sig : String}

/-- The signature comes last and stays. -/
theorem request_headers_signature {name : String} (hsigns : h.mode.requires_secret = true)
    (hname : h.signature_name http = some name) :
    header_values (h.request_headers http timestamp sig) name = [sig] := by
  unfold WebhookConfig.request_headers
  rw [if_pos hsigns, hname]
  exact header_values_put_some name sig

/-- Under another name than the one of the signature, what was there stays. -/
theorem request_headers_of_ne {name : String}
    (hne : h.mode.requires_secret = true → h.signature_name http ≠ some name) :
    header_values (h.request_headers http timestamp sig) name =
      header_values (put_header (put_header (custom_headers http h.headers_json)
        (h.sent_key.map fun k => ("x-api-key", k)))
        (if h.mode = .CanonicalV1 then some ("x-timestamp", timestamp) else none)) name := by
  unfold WebhookConfig.request_headers
  refine header_values_put_of_ne fun x hx heq => ?_
  by_cases hsigns : h.mode.requires_secret = true
  · rw [if_pos hsigns] at hx
    obtain ⟨name', hname', rfl⟩ := Option.map_eq_some_iff.mp hx
    exact hne hsigns (hname'.trans (congrArg some heq))
  · rw [if_neg hsigns] at hx
    cases hx

theorem request_headers_time (hmode : h.mode = .CanonicalV1)
    (hne : h.signature_name http ≠ some "x-timestamp") :
    header_values (h.request_headers http timestamp sig) "x-timestamp" = [timestamp] := by
  rw [request_headers_of_ne fun _ => hne, if_pos hmode]
  exact header_values_put_some "x-timestamp" timestamp

theorem request_headers_key {k : String} (hsent : h.sent_key = some k)
    (hne : h.mode.requires_secret = true → h.signature_name http ≠ some "x-api-key") :
    header_values (h.request_headers http timestamp sig) "x-api-key" = [k] := by
  rw [request_headers_of_ne hne, hsent, header_values_put_of_ne]
  · exact header_values_put_some "x-api-key" k
  · intro x hx
    by_cases hmode : h.mode = .CanonicalV1
    · rw [if_pos hmode] at hx
      obtain rfl := Option.some.inj hx
      have hnames : "x-timestamp" ≠ "x-api-key" := by decide
      exact hnames
    · rw [if_neg hmode] at hx
      cases hx

theorem sent_key_iff {k : String} :
    h.sent_key = some k ↔ h.mode.sends_api_key = true ∧ nonempty h.api_key = some k := by
  unfold WebhookConfig.sent_key
  by_cases hsends : h.mode.sends_api_key = true
  · rw [if_pos hsends]
    exact ⟨fun hk => ⟨hsends, hk⟩, And.right⟩
  · rw [if_neg hsends]
    exact ⟨fun hk => (by cases hk), fun hk => absurd hk.1 hsends⟩

/-- The one mode that signs and sends a key. -/
theorem canonical_of_both (hsigns : h.mode.requires_secret = true)
    (hsends : h.mode.sends_api_key = true) : h.mode = .CanonicalV1 := by
  cases hmode : h.mode with
  | CanonicalV1 => rfl
  | HmacOnly =>
      rw [hmode] at hsends
      cases hsends
  | ApiKeyOnly =>
      rw [hmode] at hsigns
      cases hsigns
  | None =>
      rw [hmode] at hsigns
      cases hsigns

theorem canonical_modes (hmode : h.mode = .CanonicalV1) :
    h.mode.requires_secret = true ∧ h.mode.sends_api_key = true := by
  rw [hmode]
  exact ⟨rfl, rfl⟩

/-- **One row and one event.** The request is prepared and carries what the mode promises exactly
under the condition. -/
theorem carries_iff (hvalues : http.PrintableValues) (hhex : env.HexCrate)
    (hkeyed : h.mode = .ApiKeyOnly → nonempty h.api_key ≠ none)
    {event : WebhookEvent} {now : Int} {path : String}
    (hpath : http.url_path (resolve_event_variables h.target_url event
      (toString (clock_seconds now))) = .ok path) :
    (∃ d, prepare_dispatch env http h event now = .ok d ∧
        d.Carries env http h path (toString (clock_seconds now))) ↔
      h.Dispatchable env http path
        (resolve_event_variables h.payload_template event (toString (clock_seconds now)))
        (toString (clock_seconds now)) := by
  have hprepare := fun d => @prepare_dispatch_iff env http h hvalues hhex event now path d hpath
  generalize toString (clock_seconds now) = timestamp at hprepare ⊢
  generalize resolve_event_variables h.payload_template event timestamp = payload at hprepare ⊢
  constructor
  -- If the signature has the name of another header, that header carries the signature alone: then
  -- what the mode promises of it is that the two values are one.
  · rintro ⟨d, hd, hcarries⟩
    obtain ⟨hkey, husable, hd⟩ := (hprepare d).mp hd
    have hheaders := congrArg PreparedDispatch.headers hd
    dsimp only at hheaders
    refine ⟨fun hsends k hk => hkey k (sent_key_iff.mpr ⟨hsends, hk⟩),
      fun hsigns => (husable hsigns).2, fun hsigns => (husable hsigns).1,
      fun hmode hname => ?_, fun hmode hname k hk => ?_⟩
    · have hsent := hcarries.sends_time hmode
      rw [hheaders, request_headers_signature (canonical_modes hmode).1 hname] at hsent
      exact List.singleton_inj.mp hsent
    · have hsent := hcarries.sends_key (canonical_modes hmode).2 k hk
      rw [hheaders, request_headers_signature (canonical_modes hmode).1 hname] at hsent
      exact List.singleton_inj.mp hsent
  · intro hc
    obtain ⟨d, hd⟩ : ∃ d : PreparedDispatch, d =
        ⟨resolve_event_variables h.target_url event timestamp, h.request_headers http timestamp
          (webhook_signature env h (h.signed_text path payload timestamp)), payload⟩ := ⟨_, rfl⟩
    have hheaders := congrArg PreparedDispatch.headers hd
    have hpayload := congrArg PreparedDispatch.payload hd
    dsimp only at hheaders hpayload
    refine ⟨d, (hprepare d).mpr ⟨fun k hk => ?_, fun hsigns => ⟨hc.signature_header hsigns,
      hc.signature_prefix hsigns⟩, hd⟩, hkeyed, fun hsends k hk => ?_, fun hmode => ?_,
      fun hsigns => ?_⟩
    · obtain ⟨hsends, hk⟩ := sent_key_iff.mp hk
      exact hc.api_key hsends k hk
    · rw [hheaders]
      by_cases hname : h.mode.requires_secret = true ∧ h.signature_name http = some "x-api-key"
      · -- the signature takes the place of the key
        have hmode := canonical_of_both hname.1 hsends
        rw [request_headers_signature hname.1 hname.2, hc.not_api_key hmode hname.2 k hk]
      · exact request_headers_key (sent_key_iff.mpr ⟨hsends, hk⟩) fun hsigns heq =>
          hname ⟨hsigns, heq⟩
    · rw [hheaders]
      by_cases hname : h.signature_name http = some "x-timestamp"
      · rw [request_headers_signature (canonical_modes hmode).1 hname,
          hc.not_timestamp hmode hname]
      · exact request_headers_time hmode hname
    · obtain ⟨name, hname⟩ := Option.ne_none_iff_exists'.mp (hc.signature_header hsigns)
      refine ⟨name, hname, ?_⟩
      rw [hheaders, hpayload]
      exact request_headers_signature hsigns hname

end Prepare

/-! ## The rows that the endpoints store -/

/-- What the checks on the credentials leave of the key: it is not empty, and it is there in the
mode that sends nothing else. -/
structure WebhookConfig.Accepted (h : WebhookConfig) : Prop where
  key_nonempty : nonempty h.api_key = h.api_key
  has_key : h.mode = .ApiKeyOnly → h.api_key ≠ none

/-- All webhooks are such. -/
def World.WebhooksAccepted (w : World) : Prop := ∀ h ∈ w.webhooks, h.Accepted

theorem nonempty_nonempty (s : Option String) : nonempty (nonempty s) = nonempty s := by
  unfold nonempty
  rw [Option.filter_filter]
  simp

theorem nonempty_trimmed (s : Option String) : nonempty (trimmed s) = trimmed s :=
  nonempty_nonempty (s.map Text.trim)

/-- The row of `create_webhook`. -/
theorem WebhookConfig.Accepted.of_new {ctx : Ctx} {payload : CreateWebhookPayload} {mode : AuthMode}
    (hvalid : validate_new_credentials mode payload = .ok ()) (id : Uuid) :
    ({ new_webhook ctx payload mode with id := id } : WebhookConfig).Accepted := by
  refine ⟨nonempty_trimmed payload.api_key, fun hmode hnone => ?_⟩
  rw [new_webhook_mode] at hmode
  have hkey : trimmed payload.api_key = none := hnone
  unfold validate_new_credentials at hvalid
  rw [if_neg (by rw [hmode]; exact fun hsigns => Bool.false_ne_true hsigns.1),
    if_pos ⟨hmode, hkey⟩] at hvalid
  cases hvalid

/-- The row of `clone_webhook`. -/
theorem WebhookConfig.Accepted.of_clone {ctx : Ctx} {source : WebhookConfig} {name : String}
    {secret_token : String} (hsource : source.Accepted) (id : Uuid) :
    ({ cloned_webhook ctx source name secret_token with id := id } : WebhookConfig).Accepted := by
  refine ⟨hsource.key_nonempty, fun hmode => ?_⟩
  rw [cloned_webhook_mode] at hmode
  exact hsource.has_key hmode

/-- The row of `update_webhook`. -/
theorem WebhookEdit.accepted_updated {e : WebhookEdit} {caller : ApiKey} {drawn : String}
    (htarget : e.target.Accepted) (hvalid : e.validate caller drawn = .ok ()) :
    (e.updated drawn).Accepted := by
  have hkey : (e.updated drawn).api_key = e.effective_api_key := rfl
  refine ⟨?_, fun hmode hnone => ?_⟩
  · rw [hkey]
    unfold effective_api_key requested_api_key
    cases e.payload.api_key with
    | none => exact htarget.key_nonempty
    | some v =>
        rw [Option.map_some, Option.getD_some]
        exact nonempty_nonempty (some (Text.trim v))
  · rw [mode_updated] at hmode
    rw [hkey] at hnone
    unfold validate at hvalid
    split at hvalid
    · cases hvalid
    · rw [if_pos ⟨hmode, hnone⟩] at hvalid
      cases hvalid

/-- **Step lemma.** -/
theorem World.WebhooksAccepted.step {ctx : Ctx} {call : Call} {start w : Vault} {l : Stmt}
    (hstart : start.WebhooksAccepted) (hw : w.WebhooksAccepted)
    (hl : Permits ctx call start l w) : (w.after l).WebhooksAccepted := by
  intro r hr
  rcases Stmt.mem_webhooks_after hr with
    hold | ⟨r₀, rfl, rfl⟩ | ⟨id, c, r₀, rfl, hr₀, hid, rfl⟩ | ⟨id, owner, r₀, rfl, hr₀, hid, rfl⟩
  · exact hw r hold
  · rcases hl with ⟨payload, mode, -, rfl, hvalid⟩ | ⟨id, name, -, source, hsource, -, -, rfl⟩
    · exact .of_new hvalid _
    · exact .of_clone (hstart source hsource) _
  · obtain ⟨rfl, payload, e, -, hadmitted, rfl⟩ := hl
    have htarget : r₀ = e.target :=
      Table.eq_of_key hr₀ hadmitted.target (hid.trans hadmitted.target_id.symm)
    subst htarget
    exact WebhookEdit.accepted_updated (hw e.target hr₀) hadmitted.valid
  · exact ⟨(hw r₀ hr₀).key_nonempty, (hw r₀ hr₀).has_key⟩

/-- **Run lemma.** -/
theorem World.WebhooksAccepted.final {S : Service} {v : Vault} (hv : v.WebhooksAccepted)
    (run : List Service.Event) : (final S.step run v).WebhooksAccepted := by
  have always : Along S.step (fun _ _ => True) run v := Along.of_forall run v fun _ _ _ => trivial
  refine always.keeps (I := fun w => w.WebhooksAccepted) hv fun e w _ hw => ?_
  cases e with
  | request req =>
      exact S.handle_keeps req w (I := fun w => w.WebhooksAccepted) hw
        fun key _ _ l w' hl hw' => World.WebhooksAccepted.step hw hw' hl
  | sweep now =>
      refine S.sweep_keeps (I := fun w => w.WebhooksAccepted) hw fun threshold r hr => ?_
      have hwebhooks := ((Stmt.purge threshold).frame w.toWorld).webhooks rfl
      exact hw r (hwebhooks ▸ hr)

/-- **Which stored webhooks can be dispatched.** In every store a run leads to, for every webhook
and every event for which its URL parses, the request is prepared and carries what the mode promises
exactly under the condition. -/
theorem dispatchable_iff (S : Service) (http : Http) (hhex : S.env.HexCrate)
    (hvalues : http.PrintableValues) (run : List Service.Event) (v : Vault)
    (hv : v.WebhooksAccepted) :
    ∀ h ∈ (final S.step run v).webhooks, ∀ (event : WebhookEvent) (now : Int) (path : String),
      http.url_path (resolve_event_variables h.target_url event (toString (clock_seconds now))) =
          .ok path →
        ((∃ d, prepare_dispatch S.env http h event now = .ok d ∧
            d.Carries S.env http h path (toString (clock_seconds now))) ↔
          h.Dispatchable S.env http path
            (resolve_event_variables h.payload_template event (toString (clock_seconds now)))
            (toString (clock_seconds now))) := by
  intro h hh event now path hpath
  have haccepted := World.WebhooksAccepted.final hv run h hh
  refine carries_iff hvalues hhex (fun hmode => ?_) hpath
  rw [haccepted.key_nonempty]
  exact haccepted.has_key hmode

/-! ## A signature header that is none -/

/-- The characters of a token. -/
def token_character (c : Char) : Bool :=
  c.isAlphanum ||
    ['!', '#', '$', '%', '&', '*', '+', '-', '.', '^', '_', '|', '~'].contains c

/-- The crates on the texts below: names are tokens in lower case, values are printable, no row has
headers of its own, and one URL is known. -/
def Http.strict : Http where
  header_name name :=
    if name.toList ≠ [] ∧ name.toList.all token_character then
      some (Text.to_ascii_lowercase name)
    else none
  header_value v :=
    if v.toList.all (fun c => decide (Printable c)) then .ok ()
    else .error "failed to parse header value"
  header_map _ := none
  url_path url := if url = "https://siem/" then .ok "/" else .error "relative URL without a base"

theorem printableValues_strict : Http.strict.PrintableValues := by
  intro v
  rw [← all_printable_iff]
  show (if v.toList.all _ = true then Except.ok () else _) = _ ↔ _
  split
  · rename_i hall
    exact ⟨fun _ => hall, fun _ => rfl⟩
  · rename_i hnot
    exact ⟨fun h => (by cases h), fun hall => absurd hall hnot⟩

/-- `Service.sample_siem`, with the crate `hex`. -/
def Service.hex_siem : Service :=
  ⟨{ Service.sample_siem.env with hex_encode := Hex.encode, hex_decode := Hex.decode }, 0⟩

theorem hexCrate_hex_siem : Service.hex_siem.env.HexCrate := ⟨rfl, rfl⟩

theorem webhooksAccepted_sample : Vault.sample.WebhooksAccepted := by
  intro h hh
  have hnone : Vault.sample.webhooks.rows = [] := by decide
  have hmem : h ∈ Vault.sample.webhooks.rows := hh
  rw [hnone] at hmem
  cases hmem

/-- The master creates a webhook that signs under `header`. -/
def Request.signs_under (header : String) : Request :=
  .sample 0 5 (.create_webhook
    { name := "siem", target_url := "https://siem/", payload_template := "$ip", group_id := 2
      secret_token := some "s3cret", signature_header := some header })

/-- The store afterwards. -/
def Vault.signs_under (header : String) : Vault :=
  final Service.hex_siem.step [.request (.signs_under header)] .sample

/-- Under a name of its own the signature arrives. -/
theorem dispatchable_own_header :
    ∃ h ∈ (Vault.signs_under "X-Hook").webhooks, ∃ d,
      prepare_dispatch Service.hex_siem.env .strict h .sample 0 = .ok d ∧
        d.Carries Service.hex_siem.env .strict h "/" (toString (clock_seconds 0)) := by
  have hrow : ∃ h ∈ (Vault.signs_under "X-Hook").webhooks.rows, h.mode = .CanonicalV1 ∧
      nonempty h.api_key = none ∧ h.signature_prefix = none ∧
      h.signature_name .strict = some "x-hook" ∧
      Http.strict.url_path (resolve_event_variables h.target_url .sample
        (toString (clock_seconds 0))) = .ok "/" := by decide +kernel
  obtain ⟨h, hh, hmode, hkey, hlead, hname, hpath⟩ := hrow
  refine ⟨h, hh, (dispatchable_iff Service.hex_siem .strict hexCrate_hex_siem printableValues_strict
    [.request (.signs_under "X-Hook")] .sample webhooksAccepted_sample h hh .sample 0 "/"
    hpath).mpr ⟨?_, fun _ => ?_, fun _ => ?_, fun _ heq => ?_, fun _ heq => ?_⟩⟩
  · intro _ k hk
    cases hkey.symm.trans hk
  · rw [hlead]
    have all : DEFAULT_SIGNATURE_PREFIX.toList.all (fun c => decide (Printable c)) = true := by decide
    exact (printableValues_strict _).mpr (all_printable_iff.mp all)
  · rw [hname]
    exact Option.some_ne_none "x-hook"
  · have hne : some "x-hook" ≠ some "x-timestamp" := by decide
    exact absurd (hname.symm.trans heq) hne
  · have hne : some "x-hook" ≠ some "x-api-key" := by decide
    exact absurd (hname.symm.trans heq) hne

/-- A webhook is stored whose signature header no header can have: nothing is sent for it. -/
theorem stored_and_undispatchable :
    ¬ ∀ (S : Service) (http : Http), S.env.HexCrate → http.PrintableValues →
      ∀ (run : List Service.Event) (v : Vault), v.WebhooksAccepted →
      ∀ h ∈ (final S.step run v).webhooks, ∀ (event : WebhookEvent) (now : Int) (path : String),
        http.url_path (resolve_event_variables h.target_url event (toString (clock_seconds now))) =
            .ok path →
          ∃ d, prepare_dispatch S.env http h event now = .ok d ∧
            d.Carries S.env http h path (toString (clock_seconds now)) := by
  intro hall
  have hrow : ∃ h ∈ (Vault.signs_under "X Signature").webhooks.rows,
      h.mode.requires_secret = true ∧ h.signature_name .strict = none ∧
      Http.strict.url_path (resolve_event_variables h.target_url .sample
        (toString (clock_seconds 0))) = .ok "/" := by decide +kernel
  obtain ⟨h, hh, hsigns, hname, hpath⟩ := hrow
  have hcarried := hall .hex_siem .strict hexCrate_hex_siem printableValues_strict
    [.request (.signs_under "X Signature")] .sample webhooksAccepted_sample h hh .sample 0 "/" hpath
  obtain ⟨d, -, hcarries⟩ := hcarried
  obtain ⟨name, hsome, -⟩ := hcarries.signs hsigns
  cases hname.symm.trans hsome

end IpVault
