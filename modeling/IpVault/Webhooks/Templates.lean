import IpVault.Lib.Like
import IpVault.Lib.Tokens
import IpVault.Webhooks.Dispatch

set_option autoImplicit false

/-! # Templates

The two expansions of `dispatch.rs`, each against a specification: a template is a sequence of tokens
in exactly one way, which does not depend on any value, and its expansion is the rendering of one
token after the other.
-/

namespace IpVault

open Lib

/-! ## What a table finds -/

section Tables

variable {V : Type} {spelling value : V → List Char} {vars : List V}
  {table : List (List Char × List Char)}

/-- In a table without ambiguity a word is found with its value, wherever it stands. -/
theorem find_word (hfree : PrefixFree spelling)
    (htable : ∀ e, e ∈ table ↔ ∃ v ∈ vars, e = (spelling v, value v)) {v : V} (hv : v ∈ vars)
    (rest : List Char) :
    table.find? (fun e => (Text.dropPrefix e.1 (spelling v ++ rest)).isSome) =
      some (spelling v, value v) := by
  cases hfind : table.find? fun e => (Text.dropPrefix e.1 (spelling v ++ rest)).isSome with
  | none =>
      have hnone := List.find?_eq_none.mp hfind (spelling v, value v) ((htable _).mpr ⟨v, hv, rfl⟩)
      exact absurd (Text.dropPrefix_isSome.mpr (List.prefix_append _ _)) hnone
  | some e =>
      obtain ⟨v', -, rfl⟩ := (htable e).mp (List.mem_of_find?_eq_some hfind)
      have hfits := List.find?_some hfind
      have hsame := hfree.unique (Text.dropPrefix_isSome.mp hfits) (List.prefix_append _ rest)
      rw [hsame]

/-- Where no word begins, nothing is found. -/
theorem find_no_word (htable : ∀ e, e ∈ table ↔ ∃ v ∈ vars, e = (spelling v, value v))
    {cs : List Char} (hnone : ∀ v ∈ vars, ¬ spelling v <+: cs) :
    table.find? (fun e => (Text.dropPrefix e.1 cs).isSome) = none := by
  refine List.find?_eq_none.mpr fun e he hfits => ?_
  obtain ⟨v, hv, rfl⟩ := (htable e).mp he
  exact hnone v hv (Text.dropPrefix_isSome.mp hfits)

end Tables

/-! ## The template of a signature -/

/-- The placeholders of `resolve_hmac_template`. -/
inductive HmacPlaceholder where
  | method
  | path
  | timestamp
  | body
  deriving DecidableEq

namespace HmacPlaceholder

def spelling : HmacPlaceholder → List Char
  | method => "\x7bmethod\x7d".toList
  | path => "\x7bpath\x7d".toList
  | timestamp => "\x7btimestamp\x7d".toList
  | body => "\x7bbody\x7d".toList

def all : List HmacPlaceholder := [method, path, timestamp, body]

theorem mem_all (p : HmacPlaceholder) : p ∈ all := by
  cases p <;> decide

theorem prefixFree : PrefixFree spelling := by
  intro p q
  cases p <;> cases q <;> decide

/-- A spelling is a brace, and then no brace and no backslash but a last character. -/
theorem spelling_eq (p : HmacPlaceholder) :
    ∃ name, p.spelling = '{' :: name ∧ name ≠ [] ∧ '{' ∉ name ∧ '\\' ∉ name := by
  cases p <;> exact ⟨_, rfl, by decide⟩

end HmacPlaceholder

/-- The characters an escape or a placeholder begins with. -/
def opens_token (c : Char) : Bool := c == '\\' || c == '{'

/-- The characters that follow a backslash in one of the four escapes. -/
def names_escape (c : Char) : Bool := c == 'n' || c == 'r' || c == 't' || c == '\\'

/-- The tokens of an `hmac_template`. -/
inductive HmacToken where
  | literal (run : List Char)
  | escape (c : Char)
  | unknown_escape (c : Char)
  | last_backslash
  | placeholder (p : HmacPlaceholder)
  | brace
  deriving DecidableEq

namespace HmacToken

/-- The first token of a template. -/
inductive First : List Char → HmacToken → List Char → Prop
  | literal {cs run rest : List Char} (h : LongestRun opens_token cs run rest) :
      First cs (literal run) rest
  | escape {c : Char} {rest : List Char} (h : names_escape c = true) :
      First ('\\' :: c :: rest) (escape c) rest
  | unknown_escape {c : Char} {rest : List Char} (h : names_escape c = false) :
      First ('\\' :: c :: rest) (unknown_escape c) rest
  | last_backslash : First ['\\'] last_backslash []
  | placeholder {cs rest : List Char} (p : HmacPlaceholder) (h : cs = p.spelling ++ rest) :
      First cs (placeholder p) rest
  | brace {rest : List Char} (h : ∀ p : HmacPlaceholder, ¬ p.spelling <+: '{' :: rest) :
      First ('{' :: rest) brace rest

/-- The character a named escape stands for. -/
def named (c : Char) : Char :=
  if c = 'n' then '\n' else if c = 'r' then '\r' else if c = 't' then '\t' else '\\'

/-- What a token becomes. -/
def render (values : HmacPlaceholder → List Char) : HmacToken → List Char
  | literal run => run
  | escape c => [named c]
  | unknown_escape c => ['\\', c]
  | last_backslash => ['\\']
  | placeholder p => values p
  | brace => ['{']

/-- What a token is written as. -/
def source : HmacToken → List Char
  | literal run => run
  | escape c => ['\\', c]
  | unknown_escape c => ['\\', c]
  | last_backslash => ['\\']
  | placeholder p => p.spelling
  | brace => ['{']

end HmacToken

namespace HmacToken.First

variable {c : Char} {cs rest : List Char} {t : HmacToken}

theorem split (h : First cs t rest) : cs = t.source ++ rest := by
  cases h with
  | literal h => exact h.split
  | placeholder p h => exact h
  | _ => rfl

/-- A character that opens no token begins a literal run. -/
theorem of_literal (hc : opens_token c = false) (h : First (c :: cs) t rest) :
    ∃ run, t = .literal run ∧ LongestRun opens_token (c :: cs) run rest := by
  cases h with
  | literal h => exact ⟨_, rfl, h⟩
  | placeholder p h =>
      obtain ⟨name, hname, -⟩ := p.spelling_eq
      rw [hname] at h
      rw [(List.cons.inj h).1] at hc
      cases hc
  | _ => cases hc

/-- A backslash and the character after it are one token. -/
theorem of_backslash (h : First ('\\' :: cs) t rest) :
    (cs = [] ∧ t = .last_backslash ∧ rest = []) ∨
      ∃ d, cs = d :: rest ∧ t = if names_escape d then .escape d else .unknown_escape d := by
  cases h with
  | literal h => cases h.head_free rfl
  | escape h => exact .inr ⟨_, rfl, by rw [if_pos h]⟩
  | unknown_escape h => exact .inr ⟨_, rfl, by rw [h]; rfl⟩
  | last_backslash => exact .inl ⟨rfl, rfl, rfl⟩
  | placeholder p h =>
      obtain ⟨name, hname, -⟩ := p.spelling_eq
      rw [hname] at h
      cases (List.cons.inj h).1

/-- A brace is literal, unless a placeholder begins with it. -/
theorem of_brace (h : First ('{' :: cs) t rest) :
    (∃ p : HmacPlaceholder, '{' :: cs = p.spelling ++ rest ∧ t = .placeholder p) ∨
      (∀ p : HmacPlaceholder, ¬ p.spelling <+: '{' :: cs) ∧ t = .brace ∧ rest = cs := by
  cases h with
  | literal h => cases h.head_free rfl
  | placeholder p h => exact .inl ⟨p, h, rfl⟩
  | brace h => exact .inr ⟨h, rfl, rfl⟩

end HmacToken.First

namespace HmacToken

theorem source_ne_nil {cs rest : List Char} {t : HmacToken} (h : First cs t rest) :
    t.source ≠ [] := by
  cases h with
  | literal h => exact h.nonempty
  | placeholder p h =>
      obtain ⟨name, hname, -⟩ := p.spelling_eq
      rw [source, hname]
      exact List.cons_ne_nil _ _
  | _ => exact List.cons_ne_nil _ _

theorem first_total {cs : List Char} (hcs : cs ≠ []) : ∃ t rest, First cs t rest := by
  obtain ⟨c, cs, rfl⟩ := List.exists_cons_of_ne_nil hcs
  by_cases hbackslash : c = '\\'
  · subst hbackslash
    cases cs with
    | nil => exact ⟨_, _, .last_backslash⟩
    | cons d cs =>
        cases hd : names_escape d with
        | true => exact ⟨_, cs, .escape hd⟩
        | false => exact ⟨_, cs, .unknown_escape hd⟩
  · by_cases hbrace : c = '{'
    · subst hbrace
      by_cases hp : ∃ p : HmacPlaceholder, p.spelling <+: '{' :: cs
      · obtain ⟨p, rest, hrest⟩ := hp
        exact ⟨_, rest, .placeholder p hrest.symm⟩
      · exact ⟨_, cs, .brace (not_exists.mp hp)⟩
    · have hfree : opens_token c = false := by simp [opens_token, hbackslash, hbrace]
      obtain ⟨run, rest, hrun⟩ := LongestRun.exists_of_head hfree cs
      exact ⟨_, rest, .literal hrun⟩

theorem first_unique {cs rest rest' : List Char} {t t' : HmacToken} (h : First cs t rest)
    (h' : First cs t' rest') : t = t' ∧ rest = rest' := by
  cases cs with
  | nil => exact absurd (List.append_eq_nil_iff.mp h.split.symm).1 (source_ne_nil h)
  | cons c cs =>
      by_cases hbackslash : c = '\\'
      · subst hbackslash
        rcases h.of_backslash with ⟨rfl, rfl, rfl⟩ | ⟨d, rfl, rfl⟩ <;>
          rcases h'.of_backslash with ⟨hcs, rfl, rfl⟩ | ⟨d', hcs, rfl⟩
        · exact ⟨rfl, rfl⟩
        · cases hcs
        · cases hcs
        · obtain ⟨rfl, rfl⟩ := List.cons.inj hcs
          exact ⟨rfl, rfl⟩
      · by_cases hbrace : c = '{'
        · subst hbrace
          rcases h.of_brace with ⟨p, hp, rfl⟩ | ⟨hnone, rfl, rfl⟩ <;>
            rcases h'.of_brace with ⟨p', hp', rfl⟩ | ⟨hnone', rfl, rfl⟩
          · -- No placeholder is the beginning of another one.
            obtain ⟨rfl, rfl⟩ := HmacPlaceholder.prefixFree.unique_append (hp.symm.trans hp')
            exact ⟨rfl, rfl⟩
          · exact absurd ⟨rest, hp.symm⟩ (hnone' p)
          · exact absurd ⟨rest', hp'.symm⟩ (hnone p')
          · exact ⟨rfl, rfl⟩
        · have hfree : opens_token c = false := by simp [opens_token, hbackslash, hbrace]
          obtain ⟨run, rfl, hrun⟩ := h.of_literal hfree
          obtain ⟨run', rfl, hrun'⟩ := h'.of_literal hfree
          obtain ⟨rfl, rfl⟩ := hrun.unique hrun'
          exact ⟨rfl, rfl⟩

theorem firstToken : FirstToken First where
  total _ := first_total
  unique := first_unique
  shrinks h := length_lt_of_split h.split (source_ne_nil h)

end HmacToken

/-! ### What is signed -/

section Expansion

variable {values : HmacPlaceholder → List Char} {table : List (List Char × List Char)}

/-- The characters of a placeholder are skipped once its value stands for it. -/
theorem expand_skip (table : List (List Char × List Char)) (name rest : List Char) :
    expand_hmac table name.length (name ++ rest) = expand_hmac table 0 rest := by
  induction name with
  | nil => rfl
  | cons c name ih => exact ih

theorem expand_hmac_of_ne {c : Char} (hc : c ≠ '\\') (rest : List Char) :
    expand_hmac table 0 (c :: rest) =
      if c = '{' then
        match table.find? fun s => (Text.dropPrefix s.1 (c :: rest)).isSome with
        | some s => s.2 ++ expand_hmac table (s.1.length - 1) rest
        | none => c :: expand_hmac table 0 rest
      else c :: expand_hmac table 0 rest :=
  expand_hmac.eq_5 table c rest (fun h _ => hc h) fun _ _ h _ => hc h

theorem expand_plain {c : Char} (hc : opens_token c = false) (rest : List Char) :
    expand_hmac table 0 (c :: rest) = c :: expand_hmac table 0 rest := by
  have hbackslash : c ≠ '\\' := by
    rintro rfl
    cases hc
  have hbrace : c ≠ '{' := by
    rintro rfl
    cases hc
  rw [expand_hmac_of_ne hbackslash, if_neg hbrace]

theorem expand_run {run : List Char} (hrun : ∀ c ∈ run, opens_token c = false) (rest : List Char) :
    expand_hmac table 0 (run ++ rest) = run ++ expand_hmac table 0 rest := by
  induction run with
  | nil => rfl
  | cons c run ih =>
      have hrest := ih fun d hd => hrun d (List.mem_cons_of_mem c hd)
      rw [List.cons_append, expand_plain (hrun c List.mem_cons_self), hrest]
      rfl

theorem escaped_of_named {c : Char} (h : names_escape c = true) : escaped c = [HmacToken.named c] := by
  unfold names_escape at h
  simp only [Bool.or_eq_true, beq_iff_eq] at h
  rcases h with ((rfl | rfl) | rfl) | rfl <;> rfl

theorem escaped_of_unknown {c : Char} (h : names_escape c = false) : escaped c = ['\\', c] := by
  unfold names_escape at h
  simp only [Bool.or_eq_false_iff, beq_eq_false_iff_ne] at h
  obtain ⟨⟨⟨hn, hr⟩, ht⟩, hbackslash⟩ := h
  exact escaped.eq_5 c hn hr ht hbackslash

/-- **One token.** The expansion renders the first token and goes on behind it. -/
theorem expand_first
    (htable : ∀ e, e ∈ table ↔ ∃ p ∈ HmacPlaceholder.all, e = (p.spelling, values p))
    {cs rest : List Char} {t : HmacToken} (h : HmacToken.First cs t rest) :
    expand_hmac table 0 cs = t.render values ++ expand_hmac table 0 rest := by
  cases h with
  | literal h =>
      rw [h.split]
      exact expand_run h.free rest
  | escape h => rw [expand_hmac, escaped_of_named h, HmacToken.render]
  | unknown_escape h => rw [expand_hmac, escaped_of_unknown h, HmacToken.render]
  | last_backslash => rfl
  | placeholder p h =>
      obtain ⟨name, hname, -⟩ := p.spelling_eq
      have hfind := find_word HmacPlaceholder.prefixFree htable p.mem_all rest
      rw [h, hname] at *
      rw [List.cons_append, expand_hmac_of_ne (by decide), if_pos rfl, ← List.cons_append, hfind]
      exact congrArg (values p ++ ·) (expand_skip table name rest)
  | brace h =>
      rw [expand_hmac_of_ne (by decide), if_pos rfl, find_no_word htable fun p _ => h p]
      rfl

/-- A sequence of tokens is expanded one after the other. -/
theorem expand_tokens
    (htable : ∀ e, e ∈ table ↔ ∃ p ∈ HmacPlaceholder.all, e = (p.spelling, values p))
    {cs : List Char} {ts : List HmacToken} (h : Tokens HmacToken.First cs ts) :
    expand_hmac table 0 cs = ts.flatMap (HmacToken.render values) := by
  induction h with
  | nil => rfl
  | cons head _ ih => rw [expand_first htable head, ih, List.flatMap_cons]

end Expansion

/-- The values of a request. -/
def hmac_values (method path timestamp body : String) : HmacPlaceholder → List Char
  | .method => method.toList
  | .path => path.toList
  | .timestamp => timestamp.toList
  | .body => body.toList

theorem resolve_hmac_template_of_tokens {template : String} {ts : List HmacToken}
    (h : Tokens HmacToken.First template.toList ts) (method path timestamp body : String) :
    resolve_hmac_template template method path timestamp body =
      String.ofList (ts.flatMap (HmacToken.render (hmac_values method path timestamp body))) := by
  have hresolve : resolve_hmac_template template method path timestamp body =
      String.ofList (expand_hmac (HmacPlaceholder.all.map fun p =>
        (p.spelling, hmac_values method path timestamp body p)) 0 template.toList) := rfl
  rw [hresolve, expand_tokens (fun e => ?_) h]
  rw [List.mem_map]
  exact exists_congr fun p => and_congr_right fun _ => eq_comm

/-- **The template of a signature.** It is a sequence of tokens in exactly one way, whatever the
values are, and what is signed is the rendering of one token after the other. -/
theorem hmac_template_tokens (template : String) :
    ∃! ts : List HmacToken, Tokens HmacToken.First template.toList ts ∧
      ∀ method path timestamp body : String,
        resolve_hmac_template template method path timestamp body =
          String.ofList (ts.flatMap (HmacToken.render (hmac_values method path timestamp body))) := by
  obtain ⟨ts, hts, hunique⟩ := HmacToken.firstToken.existsUnique_tokens template.toList
  exact ⟨ts, ⟨hts, resolve_hmac_template_of_tokens hts⟩, fun ts' hts' => hunique ts' hts'.1⟩

example : resolve_hmac_template "\\x7bbody\x7d\\n\x7bbody\x7d\\" "POST" "/" "0" "\x7bpath\x7d" =
    "\\x7bbody\x7d\n\x7bpath\x7d\\" := by decide

/-! ## The variables of an event -/

/-- The variables of `resolve_event_variables`. -/
inductive EventVariable where
  | target_address
  | ip
  | action
  | event
  | cause
  | group_name
  | group_id
  | timestamp
  deriving DecidableEq

namespace EventVariable

def spelling : EventVariable → List Char
  | target_address => "$target_address".toList
  | ip => "$ip".toList
  | action => "$action".toList
  | event => "$event".toList
  | cause => "$cause".toList
  | group_name => "$group_name".toList
  | group_id => "$group_id".toList
  | timestamp => "$timestamp".toList

def all : List EventVariable :=
  [target_address, ip, action, event, cause, group_name, group_id, timestamp]

theorem mem_all (v : EventVariable) : v ∈ all := by
  cases v <;> decide

/-- No variable begins another, so that the order of the table does not matter. -/
theorem prefixFree : PrefixFree spelling := by
  have hall : ∀ v ∈ all, ∀ v' ∈ all, spelling v <+: spelling v' → v = v' := by decide
  exact fun v v' => hall v (mem_all v) v' (mem_all v')

/-- A spelling is a dollar sign and a name without one. -/
theorem spelling_eq (v : EventVariable) :
    ∃ name, v.spelling = '$' :: name ∧ '$' ∉ name := by
  cases v <;> exact ⟨_, rfl, by decide⟩

/-- The value of a variable. -/
def value (e : WebhookEvent) (time : String) : EventVariable → List Char
  | target_address => e.address.toList
  | ip => e.address.toList
  | action => e.action.toList
  | event => e.action.toList
  | cause => (e.cause.getD "Unknown").toList
  | group_name => (e.group_name.getD "").toList
  | group_id => ((e.group_id.map Uuid.to_string).getD "").toList
  | timestamp => time.toList

end EventVariable

/-- The tokens of a template with variables. -/
inductive EventToken where
  | literal (run : List Char)
  | var (v : EventVariable)
  | dollar
  deriving DecidableEq

namespace EventToken

/-- The first token of a template. -/
inductive First : List Char → EventToken → List Char → Prop
  | literal {cs run rest : List Char} (h : LongestRun (· == '$') cs run rest) :
      First cs (literal run) rest
  | var {cs rest : List Char} (v : EventVariable) (h : cs = v.spelling ++ rest) :
      First cs (var v) rest
  | dollar {rest : List Char} (h : ∀ v : EventVariable, ¬ v.spelling <+: '$' :: rest) :
      First ('$' :: rest) dollar rest

/-- What a token becomes. -/
def render (values : EventVariable → List Char) : EventToken → List Char
  | literal run => run
  | var v => values v
  | dollar => ['$']

/-- What a token is written as. -/
def source : EventToken → List Char
  | literal run => run
  | var v => v.spelling
  | dollar => ['$']

end EventToken

namespace EventToken.First

variable {c : Char} {cs rest : List Char} {t : EventToken}

theorem split (h : First cs t rest) : cs = t.source ++ rest := by
  cases h with
  | literal h => exact h.split
  | var v h => exact h
  | dollar h => rfl

/-- Everything but a dollar sign begins a literal run. -/
theorem of_literal (hc : c ≠ '$') (h : First (c :: cs) t rest) :
    ∃ run, t = .literal run ∧ LongestRun (· == '$') (c :: cs) run rest := by
  cases h with
  | literal h => exact ⟨_, rfl, h⟩
  | var v h =>
      obtain ⟨name, hname, -⟩ := v.spelling_eq
      rw [hname] at h
      exact absurd (List.cons.inj h).1 hc
  | dollar h => exact absurd rfl hc

/-- A dollar sign is literal, unless a variable begins with it. -/
theorem of_dollar (h : First ('$' :: cs) t rest) :
    (∃ v : EventVariable, '$' :: cs = v.spelling ++ rest ∧ t = .var v) ∨
      (∀ v : EventVariable, ¬ v.spelling <+: '$' :: cs) ∧ t = .dollar ∧ rest = cs := by
  cases h with
  | literal h => cases h.head_free rfl
  | var v h => exact .inl ⟨v, h, rfl⟩
  | dollar h => exact .inr ⟨h, rfl, rfl⟩

end EventToken.First

namespace EventToken

theorem source_ne_nil {cs rest : List Char} {t : EventToken} (h : First cs t rest) :
    t.source ≠ [] := by
  cases h with
  | literal h => exact h.nonempty
  | var v h =>
      obtain ⟨name, hname, -⟩ := v.spelling_eq
      rw [source, hname]
      exact List.cons_ne_nil _ _
  | dollar h => exact List.cons_ne_nil _ _

theorem first_total {cs : List Char} (hcs : cs ≠ []) : ∃ t rest, First cs t rest := by
  obtain ⟨c, cs, rfl⟩ := List.exists_cons_of_ne_nil hcs
  by_cases hc : c = '$'
  · subst hc
    by_cases hv : ∃ v : EventVariable, v.spelling <+: '$' :: cs
    · obtain ⟨v, rest, hrest⟩ := hv
      exact ⟨_, rest, .var v hrest.symm⟩
    · exact ⟨_, cs, .dollar (not_exists.mp hv)⟩
  · have hstop : (c == '$') = false := beq_false_of_ne hc
    obtain ⟨run, rest, hrun⟩ := @LongestRun.exists_of_head _ (· == '$') _ hstop cs
    exact ⟨_, rest, .literal hrun⟩

theorem first_unique {cs rest rest' : List Char} {t t' : EventToken} (h : First cs t rest)
    (h' : First cs t' rest') : t = t' ∧ rest = rest' := by
  cases cs with
  | nil => exact absurd (List.append_eq_nil_iff.mp h.split.symm).1 (source_ne_nil h)
  | cons c cs =>
      by_cases hc : c = '$'
      · subst hc
        rcases h.of_dollar with ⟨v, hv, rfl⟩ | ⟨hnone, rfl, rfl⟩ <;>
          rcases h'.of_dollar with ⟨v', hv', rfl⟩ | ⟨hnone', rfl, rfl⟩
        · obtain ⟨rfl, rfl⟩ := EventVariable.prefixFree.unique_append (hv.symm.trans hv')
          exact ⟨rfl, rfl⟩
        · exact absurd ⟨rest, hv.symm⟩ (hnone' v)
        · exact absurd ⟨rest', hv'.symm⟩ (hnone v')
        · exact ⟨rfl, rfl⟩
      · obtain ⟨run, rfl, hrun⟩ := h.of_literal hc
        obtain ⟨run', rfl, hrun'⟩ := h'.of_literal hc
        obtain ⟨rfl, rfl⟩ := hrun.unique hrun'
        exact ⟨rfl, rfl⟩

theorem firstToken : FirstToken First where
  total _ := first_total
  unique := first_unique
  shrinks h := length_lt_of_split h.split (source_ne_nil h)

end EventToken

/-! ### What is sent -/

section Substitution

variable {values : EventVariable → List Char} {table : List (List Char × List Char)}

/-- The characters of a variable are skipped once its value stands for it. -/
theorem substitute_skip (table : List (List Char × List Char)) (name rest : List Char) :
    substitute table name.length (name ++ rest) = substitute table 0 rest := by
  induction name with
  | nil => rfl
  | cons c name ih => exact ih

theorem substitute_run {run : List Char} (hrun : ∀ c ∈ run, (c == '$') = false)
    (rest : List Char) : substitute table 0 (run ++ rest) = run ++ substitute table 0 rest := by
  induction run with
  | nil => rfl
  | cons c run ih =>
      have hc : c ≠ '$' := by simpa using hrun c List.mem_cons_self
      have hrest := ih fun d hd => hrun d (List.mem_cons_of_mem c hd)
      rw [List.cons_append, substitute, if_neg hc, hrest]
      rfl

/-- **One token.** The substitution renders the first token and goes on behind it. -/
theorem substitute_first
    (htable : ∀ e, e ∈ table ↔ ∃ v ∈ EventVariable.all, e = (v.spelling, values v))
    {cs rest : List Char} {t : EventToken} (h : EventToken.First cs t rest) :
    substitute table 0 cs = t.render values ++ substitute table 0 rest := by
  cases h with
  | literal h =>
      rw [h.split]
      exact substitute_run h.free rest
  | var v h =>
      obtain ⟨name, hname, -⟩ := v.spelling_eq
      have hfind := find_word EventVariable.prefixFree htable v.mem_all rest
      rw [h, hname] at *
      rw [List.cons_append, substitute, if_pos rfl, ← List.cons_append, hfind]
      exact congrArg (values v ++ ·) (substitute_skip table name rest)
  | dollar h =>
      rw [substitute, if_pos rfl, find_no_word htable fun v _ => h v]
      rfl

/-- A sequence of tokens is substituted one after the other. -/
theorem substitute_tokens
    (htable : ∀ e, e ∈ table ↔ ∃ v ∈ EventVariable.all, e = (v.spelling, values v))
    {cs : List Char} {ts : List EventToken} (h : Tokens EventToken.First cs ts) :
    substitute table 0 cs = ts.flatMap (EventToken.render values) := by
  induction h with
  | nil => rfl
  | cons head _ ih => rw [substitute_first htable head, ih, List.flatMap_cons]

end Substitution

/-- Substitution from the table of `resolve_event_variables`, in any order. -/
theorem substitute_placeholders_of_tokens {template : String} {ts : List EventToken}
    (h : Tokens EventToken.First template.toList ts) (event : WebhookEvent) (timestamp : String)
    {table : List (String × String)} (htable : table.Perm (event_substitutions event timestamp)) :
    substitute_placeholders template table =
      String.ofList (ts.flatMap (EventToken.render (EventVariable.value event timestamp))) := by
  have hentries : (event_substitutions event timestamp).map (fun s => (s.1.toList, s.2.toList)) =
      EventVariable.all.map fun v => (v.spelling, v.value event timestamp) := rfl
  unfold substitute_placeholders
  refine congrArg String.ofList (substitute_tokens (fun e => ?_) h)
  rw [(htable.map fun s => (s.1.toList, s.2.toList)).mem_iff, hentries, List.mem_map]
  exact exists_congr fun v => and_congr_right fun _ => eq_comm

/-- **A template with variables.** It is a sequence of tokens in exactly one way, whatever the event
is, and what is sent is the rendering of one token after the other, in whatever order the table of
the variables is written. -/
theorem event_template_tokens (template : String) :
    ∃! ts : List EventToken, Tokens EventToken.First template.toList ts ∧
      ∀ (event : WebhookEvent) (timestamp : String),
        resolve_event_variables template event timestamp =
            String.ofList (ts.flatMap (EventToken.render (EventVariable.value event timestamp))) ∧
          ∀ table : List (String × String), table.Perm (event_substitutions event timestamp) →
            substitute_placeholders template table =
              resolve_event_variables template event timestamp := by
  obtain ⟨ts, hts, hunique⟩ := EventToken.firstToken.existsUnique_tokens template.toList
  refine ⟨ts, ⟨hts, fun event timestamp => ?_⟩, fun ts' hts' => hunique ts' hts'.1⟩
  have hresolve : resolve_event_variables template event timestamp =
      String.ofList (ts.flatMap (EventToken.render (EventVariable.value event timestamp))) :=
    substitute_placeholders_of_tokens hts event timestamp (.refl _)
  refine ⟨hresolve, fun table htable => ?_⟩
  rw [hresolve]
  exact substitute_placeholders_of_tokens hts event timestamp htable

end IpVault
