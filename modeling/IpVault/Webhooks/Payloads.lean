import IpVault.Lib.JsonText
import IpVault.Webhooks.Templates

set_option autoImplicit false

/-! # JSON payloads

Requests are sent as `application/json`, and a payload template is JSON with variables inside its
strings. The values are put in as they are. That is the document the template stands for, with each
variable replaced by its value, as long as no value needs escaping.
-/

namespace IpVault

open Lib Lib.JsonText

/-- A token as symbols of a text, the variables as its holes. -/
def EventToken.symbols : EventToken → List (Sym EventVariable)
  | literal run => plain run
  | var v => [.hole v]
  | dollar => [.char '$']

/-- **A JSON template.** It is the document `doc`, in which its variables, all of them among `vs`,
stand inside string literals. -/
def JsonTemplate (template : String) (vs : Set EventVariable) (doc : Doc EventVariable) : Prop :=
  ∃ ts, Tokens EventToken.First template.toList ts ∧ (∀ v, .var v ∈ ts → v ∈ vs) ∧
    Denotes (ts.flatMap EventToken.symbols) doc

section Tokens

variable {ts : List EventToken}

/-- To expand a template is to fill its holes. -/
theorem fill_symbols (values : EventVariable → List Char) (ts : List EventToken) :
    fill values (ts.flatMap EventToken.symbols) = plain (ts.flatMap (EventToken.render values)) := by
  induction ts with
  | nil => rfl
  | cons t ts ih =>
      have head : fill values t.symbols = plain (t.render values) := by
        cases t with
        | literal run => exact fill_plain values run
        | var v => exact List.append_nil _
        | dollar => rfl
      rw [List.flatMap_cons, List.flatMap_cons, fill_append, ih, head, plain_append]

/-- A variable filled in as it is written leaves the template as it is. -/
theorem render_spelling {cs : List Char} (h : Tokens EventToken.First cs ts) :
    ts.flatMap (EventToken.render EventVariable.spelling) = cs := by
  induction h with
  | nil => rfl
  | @cons cs rest t ts head _ ih =>
      rw [List.flatMap_cons, ih, head.split]
      cases t <;> rfl

theorem holes_symbols {v : EventVariable} (h : v ∈ Holes (ts.flatMap EventToken.symbols)) :
    .var v ∈ ts := by
  obtain ⟨t, ht, hv⟩ := List.mem_flatMap.mp (show Sym.hole v ∈ ts.flatMap EventToken.symbols from h)
  cases t with
  | literal run =>
      obtain ⟨c, -, hc⟩ := List.mem_map.mp hv
      cases hc
  | var w =>
      obtain rfl := Sym.hole.inj (List.mem_singleton.mp hv)
      exact ht
  | dollar => cases List.mem_singleton.mp hv

end Tokens

namespace JsonTemplate

variable {template : String} {vs : Set EventVariable} {doc : Doc EventVariable}

/-- Where no value needs escaping, the expansion is the document with its variables replaced. -/
theorem expands (h : JsonTemplate template vs doc) {event : WebhookEvent} {timestamp : String}
    (hvalues : ∀ v ∈ vs, ∀ c ∈ v.value event timestamp, Unescaped c) :
    Denotes (plain (resolve_event_variables template event timestamp).toList)
      (doc.fill (EventVariable.value event timestamp)) := by
  obtain ⟨ts, hts, hvs, hdoc⟩ := h
  have hresolve : resolve_event_variables template event timestamp = String.ofList _ :=
    substitute_placeholders_of_tokens hts event timestamp (.refl _)
  rw [hresolve, String.toList_ofList, ← fill_symbols]
  exact hdoc.fill fun v hv => hvalues v (hvs v (holes_symbols hv))

/-- Such a template is itself a JSON text: the document with each variable as it is written. -/
theorem denotes (h : JsonTemplate template vs doc) :
    Denotes (plain template.toList) (doc.fill EventVariable.spelling) := by
  obtain ⟨ts, hts, -, hdoc⟩ := h
  rw [← render_spelling hts, ← fill_symbols]
  refine hdoc.fill fun v _ => unescaped_of_all ?_
  cases v <;> decide

end JsonTemplate

/-! ## A template of one variable -/

/-- Text around one variable. -/
theorem tokens_around {before after : List Char} (v : EventVariable) (hbefore : before ≠ [])
    (hafter : after ≠ []) (hfree : '$' ∉ before) (hfree' : '$' ∉ after) :
    Tokens EventToken.First (before ++ (v.spelling ++ after))
      [.literal before, .var v, .literal after] := by
  have free : ∀ {run : List Char}, '$' ∉ run → ∀ c ∈ run, (c == '$') = false := by
    intro run hrun c hc
    rw [beq_eq_false_iff_ne]
    rintro rfl
    exact hrun hc
  obtain ⟨name, hname, -⟩ := v.spelling_eq
  refine .cons (.literal ⟨rfl, hbefore, free hfree, fun c hc => ?_⟩)
    (.cons (.var v rfl) (.cons (.literal ⟨(List.append_nil after).symm, hafter, free hfree', ?_⟩) .nil))
  · rw [hname] at hc
    obtain rfl := Option.some.inj hc
    rfl
  · intro c hc
    cases hc

/-- A webhook without credentials, with this payload template. -/
def WebhookConfig.templated (template : String) : WebhookConfig where
  id := 3
  name := "receiver"
  target_url := "https://siem/"
  secret_token := ""
  auth_mode := "NONE"
  api_key := none
  hmac_template := none
  signature_header := none
  signature_prefix := none
  headers_json := none
  payload_template := template
  group_id := 2
  is_active := true
  events := none
  owner_key_id := none
  created_at := 0

/-- Its requests can be made. -/
theorem prepare_templated (env : Env) (http : Http) (template : String) (event : WebhookEvent)
    (now : Int) :
    ∃ d, prepare_dispatch env http (.templated template) event now = .ok d := by
  have hmode : AuthMode.from_stored (WebhookConfig.templated template).auth_mode = .None := by
    show AuthMode.from_stored "NONE" = .None
    decide
  unfold prepare_dispatch credential_headers sign_dispatch
  rw [hmode]
  exact ⟨_, rfl⟩

/-- The template that is one variable between quotation marks. -/
def lone_template (v : EventVariable) : String := String.ofList ('"' :: (v.spelling ++ ['"']))

theorem tokens_lone (v : EventVariable) :
    Tokens EventToken.First (lone_template v).toList [.literal ['"'], .var v, .literal ['"']] := by
  rw [lone_template, String.toList_ofList]
  have hquote : '$' ∉ ['"'] := by decide
  exact tokens_around v (List.cons_ne_nil _ _) (List.cons_ne_nil _ _) hquote hquote

theorem jsonTemplate_lone {vs : Set EventVariable} {v : EventVariable} (hv : v ∈ vs) :
    JsonTemplate (lone_template v) vs (.str [.hole v]) := by
  refine ⟨_, tokens_lone v, fun w hw => ?_, .str (.hole v (.close [])) .done⟩
  simp only [List.mem_cons, List.not_mem_nil, or_false, EventToken.var.injEq, reduceCtorEq,
    false_or] at hw
  rw [hw]
  exact hv

/-- **JSON payloads.** For an event, the payloads of all JSON templates with variables among `vs` are
the documents the templates stand for, each variable replaced by its value, if and only if no value of
a variable among `vs` has a quotation mark, a backslash or a control character. -/
theorem json_payload_iff (env : Env) (http : Http) (event : WebhookEvent) (now : Int)
    (vs : Set EventVariable) :
    (∀ (config : WebhookConfig) (doc : Doc EventVariable) (d : PreparedDispatch),
      JsonTemplate config.payload_template vs doc →
      prepare_dispatch env http config event now = .ok d →
        Denotes (plain d.payload.toList)
          (doc.fill (EventVariable.value event (toString (clock_seconds now))))) ↔
      ∀ v ∈ vs, ∀ c ∈ v.value event (toString (clock_seconds now)), Unescaped c := by
  constructor
  · intro hall v hv
    obtain ⟨d, hd⟩ := prepare_templated env http (lone_template v) event now
    have hdenotes := hall (.templated (lone_template v)) _ d (jsonTemplate_lone hv) hd
    have hresolve : resolve_event_variables (lone_template v) event (toString (clock_seconds now)) =
        String.ofList _ := substitute_placeholders_of_tokens (tokens_lone v) event _ (.refl _)
    rw [prepare_dispatch_payload hd] at hdenotes
    change Denotes (plain (resolve_event_variables (lone_template v) event _).toList) _ at hdenotes
    rw [hresolve, String.toList_ofList] at hdenotes
    refine (denotes_literal_iff (V := EventVariable) _).mp ?_
    simpa [EventToken.render, Doc.fill, plain_append] using hdenotes
  · intro hvalues config doc d hdoc hd
    rw [prepare_dispatch_payload hd]
    exact hdoc.expands hvalues

/-! ## A cause with a member of its own -/

/-- A ban whose cause closes the string it is put into. -/
def WebhookEvent.injecting : WebhookEvent :=
  ⟨"IP_ADD", "203.0.113.7", false, some 2, some "bans", some "x\",\"admin\":\"y"⟩

/-- The template around the variable. -/
def before_cause : List Char := "\x7b\"cause\":\"".toList

def after_cause : List Char := "\"\x7d".toList

theorem tokens_cause : Tokens EventToken.First "\x7b\"cause\":\"$cause\"\x7d".toList
    [.literal before_cause, .var .cause, .literal after_cause] := by
  have hbefore : before_cause ≠ [] ∧ '$' ∉ before_cause := by decide
  have hafter : after_cause ≠ [] ∧ '$' ∉ after_cause := by decide
  exact tokens_around .cause hbefore.1 hafter.1 hbefore.2 hafter.2

theorem jsonTemplate_cause : JsonTemplate "\x7b\"cause\":\"$cause\"\x7d" Set.univ
    (.obj (.cons (plain "cause".toList) (.str [.hole .cause]) .nil)) := by
  have hvalue : Body (.hole EventVariable.cause :: plain after_cause) [.hole .cause]
      [.char '}'] := .hole _ (.close _)
  exact ⟨_, tokens_cause, fun _ _ => trivial,
    .punct (by decide) (.str (.literal "cause".toList (by decide) _) (.punct (by decide)
      (.str hvalue (.punct (by decide) .done))))⟩

/-- The payload of the ban is a document of two members. -/
theorem payload_injected : Denotes (V := EventVariable)
    (plain "\x7b\"cause\":\"x\",\"admin\":\"y\"\x7d".toList)
    (.obj (.cons (plain "cause".toList) (.str (plain "x".toList))
      (.cons (plain "admin".toList) (.str (plain "y".toList)) .nil))) :=
  .punct (by decide) (.str (.literal "cause".toList (by decide) _) (.punct (by decide)
    (.str (.literal "x".toList (by decide) _) (.punct (by decide)
      (.str (.literal "admin".toList (by decide) _) (.punct (by decide)
        (.str (.literal "y".toList (by decide) _) (.punct (by decide) .done))))))))

/-- A cause adds a member to the document that is sent. -/
theorem cause_adds_member :
    ¬ ∀ (env : Env) (http : Http) (event : WebhookEvent) (now : Int) (config : WebhookConfig)
      (doc : Doc EventVariable) (d : PreparedDispatch),
      JsonTemplate config.payload_template Set.univ doc →
      prepare_dispatch env http config event now = .ok d →
        Denotes (plain d.payload.toList)
          (doc.fill (EventVariable.value event (toString (clock_seconds now)))) := by
  intro hall
  have http : Http := ⟨fun _ => none, fun _ => .ok (), fun _ => none, .ok⟩
  obtain ⟨d, hd⟩ := prepare_templated .sample http "\x7b\"cause\":\"$cause\"\x7d" .injecting 0
  have hdenotes := hall .sample http .injecting 0 _ _ d jsonTemplate_cause hd
  have hpayload : d.payload = "\x7b\"cause\":\"x\",\"admin\":\"y\"\x7d" := by
    rw [prepare_dispatch_payload hd]
    decide
  rw [hpayload] at hdenotes
  have hsame := hdenotes.unique payload_injected
  cases hsame

end IpVault
