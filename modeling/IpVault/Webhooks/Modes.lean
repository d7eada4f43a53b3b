import IpVault.Webhooks.Reach

set_option autoImplicit false

/-! # What each mode leaves out

A row may store credentials that its mode does not use. Two rows that differ only in these are, to
the receiver, the same row: the requests made from them are equal, and so are the refusals to make
one.
-/

namespace IpVault

open Lib

/-- The settings of a row that a signature comes from. -/
structure SigningSettings where
  secret_token : String
  hmac_template : Option String
  signature_header : Option String
  signature_prefix : Option String

namespace WebhookConfig

/-- The row with another key. -/
def with_api_key (config : WebhookConfig) (api_key : Option String) : WebhookConfig :=
  { config with api_key := api_key }

/-- The row with other settings for its signature. -/
def with_signing (config : WebhookConfig) (s : SigningSettings) : WebhookConfig :=
  { config with
    secret_token := s.secret_token
    hmac_template := s.hmac_template
    signature_header := s.signature_header
    signature_prefix := s.signature_prefix }

@[simp] theorem mode_with_api_key (config : WebhookConfig) (k : Option String) :
    (config.with_api_key k).mode = config.mode := rfl

@[simp] theorem mode_with_signing (config : WebhookConfig) (s : SigningSettings) :
    (config.with_signing s).mode = config.mode := rfl

end WebhookConfig

section Modes

variable {env : Env} {http : Http} {config : WebhookConfig} {event : WebhookEvent} {now : Int}
  {headers : DispatchHeaders}

/-- A mode that sends no key adds no header for one. -/
theorem credential_headers_withheld (h : config.mode.sends_api_key = false) :
    credential_headers http config headers = .ok headers := by
  unfold WebhookConfig.mode at h
  unfold credential_headers
  rw [h]

/-- A mode that needs no secret computes nothing from one. -/
theorem sign_dispatch_unsigned {target_url payload timestamp : String}
    (h : config.mode.requires_secret = false) :
    sign_dispatch env http config target_url payload timestamp headers = .ok (headers, none) := by
  unfold WebhookConfig.mode at h
  unfold sign_dispatch
  cases hmode : AuthMode.from_stored config.auth_mode with
  | ApiKeyOnly => rfl
  | None => rfl
  | CanonicalV1 =>
      rw [hmode] at h
      cases h
  | HmacOnly =>
      rw [hmode] at h
      cases h

/-- The key of a row whose mode sends none is in no request. -/
theorem prepare_dispatch_api_key (h : config.mode.sends_api_key = false) (k : Option String) :
    prepare_dispatch env http (config.with_api_key k) event now =
      prepare_dispatch env http config event now := by
  have hcredential : ∀ headers, credential_headers http (config.with_api_key k) headers =
      credential_headers http config headers := fun headers => by
    rw [credential_headers_withheld h, credential_headers_withheld (by simpa using h)]
  unfold prepare_dispatch
  rw [hcredential]
  -- Nothing else reads the key.
  unfold WebhookConfig.with_api_key sign_dispatch signature_headers webhook_signature
  dsimp only

/-- The settings of a signature that is not made are in no request. -/
theorem prepare_dispatch_signing (h : config.mode.requires_secret = false) (s : SigningSettings) :
    prepare_dispatch env http (config.with_signing s) event now =
      prepare_dispatch env http config event now := by
  have hsigned : ∀ target_url payload timestamp headers,
      sign_dispatch env http (config.with_signing s) target_url payload timestamp headers =
        .ok (headers, none) :=
    fun _ _ _ _ => sign_dispatch_unsigned (by simpa using h)
  unfold prepare_dispatch
  simp only [hsigned, sign_dispatch_unsigned h, signature_headers, Bind.bind, Except.bind]
  unfold WebhookConfig.with_signing credential_headers
  dsimp only

/-- Of the mode of a row nothing counts but what it is read as. -/
theorem prepare_dispatch_mode {auth_mode : String}
    (h : AuthMode.from_stored auth_mode = config.mode) :
    prepare_dispatch env http { config with auth_mode := auth_mode } event now =
      prepare_dispatch env http config event now := by
  unfold WebhookConfig.mode at h
  unfold prepare_dispatch credential_headers sign_dispatch signature_headers webhook_signature
  rw [h]

end Modes

/-- **Modes do not leak each other's credentials.** -/
theorem modes_withhold (env : Env) (http : Http) (config : WebhookConfig) (event : WebhookEvent)
    (now : Int) :
    (config.mode = .HmacOnly ∨ config.mode = .None → ∀ k k' : Option String,
      prepare_dispatch env http (config.with_api_key k) event now =
        prepare_dispatch env http (config.with_api_key k') event now) ∧
    (config.mode = .ApiKeyOnly ∨ config.mode = .None → ∀ s s' : SigningSettings,
      prepare_dispatch env http (config.with_signing s) event now =
        prepare_dispatch env http (config.with_signing s') event now) ∧
    (AuthMode.parse config.auth_mode = none →
      prepare_dispatch env http config event now =
        prepare_dispatch env http { config with auth_mode := "HMAC_ONLY" } event now) := by
  refine ⟨fun hmode k k' => ?_, fun hmode s s' => ?_, fun hnone => ?_⟩
  · have hkeyless : config.mode.sends_api_key = false := by
      rcases hmode with hmode | hmode <;> rw [hmode] <;> rfl
    calc prepare_dispatch env http (config.with_api_key k) event now
        = prepare_dispatch env http config event now := prepare_dispatch_api_key hkeyless k
      _ = prepare_dispatch env http (config.with_api_key k') event now :=
          (prepare_dispatch_api_key hkeyless k').symm
  · have hunsigned : config.mode.requires_secret = false := by
      rcases hmode with hmode | hmode <;> rw [hmode] <;> rfl
    calc prepare_dispatch env http (config.with_signing s) event now
        = prepare_dispatch env http config event now := prepare_dispatch_signing hunsigned s
      _ = prepare_dispatch env http (config.with_signing s') event now :=
          (prepare_dispatch_signing hunsigned s').symm
  · refine (prepare_dispatch_mode ?_).symm
    calc AuthMode.from_stored "HMAC_ONLY"
        = .HmacOnly := AuthMode.from_stored_as_str .HmacOnly
      _ = config.mode := by simp [WebhookConfig.mode, AuthMode.from_stored, hnone]

/-- The webhook of the sample service, in another mode. -/
def WebhookConfig.sample_mode (auth_mode : String) : WebhookConfig :=
  { WebhookConfig.sample 2 none with auth_mode := auth_mode }

/-- A row that signs keeps its key to itself, one without authentication its secret, and one whose
mode is not known signs. -/
theorem modes_withhold_sample :
    prepare_dispatch .sample .sample
        ((WebhookConfig.sample_mode "hmac_only").with_api_key (some "k")) .sample 0 =
      prepare_dispatch .sample .sample
        ((WebhookConfig.sample_mode "hmac_only").with_api_key none) .sample 0 ∧
    prepare_dispatch .sample .sample
        ((WebhookConfig.sample_mode "NONE").with_signing ⟨"s3cret", none, none, none⟩) .sample 0 =
      prepare_dispatch .sample .sample
        ((WebhookConfig.sample_mode "NONE").with_signing ⟨"other", none, none, some ""⟩) .sample 0 ∧
    prepare_dispatch .sample .sample (WebhookConfig.sample_mode "BEARER") .sample 0 =
      prepare_dispatch .sample .sample (WebhookConfig.sample_mode "HMAC_ONLY") .sample 0 :=
  ⟨(modes_withhold _ _ (.sample_mode "hmac_only") _ _).1 (.inl (by decide)) _ _,
    (modes_withhold _ _ (.sample_mode "NONE") _ _).2.1 (.inr (by decide)) _ _,
    (modes_withhold _ _ (.sample_mode "BEARER") _ _).2.2 (by decide)⟩

end IpVault
