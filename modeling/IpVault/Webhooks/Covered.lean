import Mathlib.Algebra.Group.Even
import IpVault.Webhooks.Templates

set_option autoImplicit false

/-! # What a signature covers

`create_webhook` and `update_webhook` accept an `hmac_template` if it contains `{body}`. The expansion
reads the brace after a backslash as the second character of an escape, so that what is contained need
not be a placeholder. A template signs the body exactly if it contains a `{body}` with an even number
of backslashes in front of it.
-/

namespace IpVault

open Lib

/-- The number of backslashes at the end. -/
def trailing_backslashes (cs : List Char) : Nat := (cs.reverse.takeWhile (· == '\\')).length

/-- The template contains a `{body}` with an even number of backslashes directly in front of it. -/
def CoversBody (template : String) : Prop :=
  ∃ before after, template.toList = before ++ HmacPlaceholder.body.spelling ++ after ∧
    Even (trailing_backslashes before)

/-! ## Backslashes at the end -/

/-- The character at the end is not a backslash. -/
theorem trailing_concat {c : Char} (hc : c ≠ '\\') (cs : List Char) :
    trailing_backslashes (cs ++ [c]) = 0 := by
  unfold trailing_backslashes
  rw [List.reverse_append, List.reverse_singleton, List.singleton_append,
    List.takeWhile_cons_of_neg (by simpa using hc), List.length_nil]

/-- Behind a text of backslashes only, those in front of it count, too. -/
theorem trailing_append_of_all {ys : List Char} (h : ∀ c ∈ ys, c = '\\') (xs : List Char) :
    trailing_backslashes (xs ++ ys) = trailing_backslashes xs + ys.length := by
  have hall : ∀ c ∈ ys.reverse, (c == '\\') = true :=
    fun c hc => beq_iff_eq.mpr (h c (List.mem_reverse.mp hc))
  unfold trailing_backslashes
  rw [List.reverse_append, List.takeWhile_append_of_pos hall, List.length_append,
    List.length_reverse, Nat.add_comm]

/-- Else they do not. -/
theorem trailing_append_of_not {ys : List Char} (h : ¬ ∀ c ∈ ys, c = '\\') (xs : List Char) :
    trailing_backslashes (xs ++ ys) = trailing_backslashes ys := by
  unfold trailing_backslashes
  rw [List.reverse_append, List.takeWhile_append, if_neg]
  intro hlength
  have heq := (List.takeWhile_prefix (l := ys.reverse) (· == '\\')).eq_of_length hlength
  refine h fun c hc => ?_
  have hmem : c ∈ ys.reverse.takeWhile (· == '\\') := by
    rw [heq]
    exact List.mem_reverse.mpr hc
  have hslash : (c == '\\') = true := List.mem_takeWhile_imp (p := (· == '\\')) hmem
  exact beq_iff_eq.mp hslash

/-- A text of backslashes only. -/
theorem trailing_of_all {ys : List Char} (h : ∀ c ∈ ys, c = '\\') :
    trailing_backslashes ys = ys.length := by
  have happend := trailing_append_of_all h []
  rw [List.nil_append] at happend
  rw [happend]
  exact Nat.zero_add _

/-- In front of an even number it is the number of the whole that is even. -/
theorem even_trailing_append {xs : List Char} (hxs : Even (trailing_backslashes xs))
    (ys : List Char) :
    Even (trailing_backslashes (xs ++ ys)) ↔ Even (trailing_backslashes ys) := by
  by_cases h : ∀ c ∈ ys, c = '\\'
  · rw [trailing_append_of_all h, trailing_of_all h, Nat.even_add]
    simp only [hxs, true_iff]
  · rw [trailing_append_of_not h]

namespace HmacToken

/-- What a token leaves open at its end: an even number of backslashes, if something follows. -/
theorem First.even_trailing {cs rest : List Char} {t : HmacToken} (h : First cs t rest)
    (hrest : rest ≠ []) : Even (trailing_backslashes t.source) := by
  -- A token that ends in anything but a backslash leaves none open.
  have last : ∀ (xs : List Char) (c : Char), c ≠ '\\' → Even (trailing_backslashes (xs ++ [c])) := by
    intro xs c hc
    rw [trailing_concat hc]
    exact Even.zero
  cases h with
  | literal h =>
      rename_i run
      -- A literal run holds no backslash at all.
      obtain ⟨xs, c, hrun⟩ := (List.eq_nil_or_concat' run).resolve_left h.nonempty
      have hc := h.free c (hrun ▸ List.mem_append_right xs List.mem_cons_self)
      have hne : c ≠ '\\' := by
        rintro rfl
        cases hc
      show Even (trailing_backslashes run)
      rw [hrun]
      exact last xs c hne
  | @escape c rest h =>
      by_cases hc : c = '\\'
      · -- `\\` is one escape: its two backslashes are both used up.
        subst hc
        exact even_two
      · exact last ['\\'] c hc
  | @unknown_escape c rest h =>
      have hc : c ≠ '\\' := by
        rintro rfl
        cases h
      exact last ['\\'] c hc
  | last_backslash => exact absurd rfl hrest
  | placeholder p h =>
      cases p
      · exact last "\x7bmethod".toList _ (by decide)
      · exact last "\x7bpath".toList _ (by decide)
      · exact last "\x7btimestamp".toList _ (by decide)
      · exact last "\x7bbody".toList _ (by decide)
  | brace h => exact last [] '{' (by decide)

end HmacToken

/-! ## Which placeholders are read -/

/-- A placeholder that is read has an even number of backslashes in front of it. -/
theorem covers_of_mem {cs : List Char} {ts : List HmacToken} (h : Tokens HmacToken.First cs ts)
    (p : HmacPlaceholder) (hmem : .placeholder p ∈ ts) :
    ∃ before after, cs = before ++ p.spelling ++ after ∧ Even (trailing_backslashes before) := by
  induction h with
  | nil => cases hmem
  | @cons cs rest t ts head _ ih =>
      rcases List.mem_cons.mp hmem with rfl | hmem
      · exact ⟨[], rest, head.split, Even.zero⟩
      · obtain ⟨before, after, hrest, heven⟩ := ih hmem
        have hne : rest ≠ [] := by
          obtain ⟨name, hname, -⟩ := p.spelling_eq
          rw [hrest, hname]
          simp
        refine ⟨t.source ++ before, after, ?_, ?_⟩
        · rw [head.split, hrest, List.append_assoc, List.append_assoc, List.append_assoc]
        · exact (even_trailing_append (head.even_trailing hne) before).mpr heven

/-- A brace inside a token is the first character, or escaped. -/
theorem HmacToken.First.brace_inside {cs rest before after : List Char} {t : HmacToken}
    (h : HmacToken.First cs t rest) (hsource : t.source = before ++ '{' :: after) :
    before = [] ∨ ¬ Even (trailing_backslashes before) := by
  cases before with
  | nil => exact .inl rfl
  | cons c before =>
      rw [List.cons_append] at hsource
      have hmem : '{' ∈ before ++ '{' :: after := List.mem_append_right _ List.mem_cons_self
      cases h with
      | literal h =>
          have hfree := h.free '{' (by
            show '{' ∈ HmacToken.source (.literal _)
            rw [hsource]
            exact List.mem_cons_of_mem c hmem)
          cases hfree
      | escape h =>
          -- An escape is two characters, and `{` names none.
          rw [← (List.cons.inj hsource).2, List.mem_singleton] at hmem
          subst hmem
          cases h
      | unknown_escape h =>
          obtain ⟨rfl, hrest⟩ := List.cons.inj hsource
          cases before with
          | nil => exact .inr (by decide)
          | cons d before =>
              have hlength := congrArg List.length hrest
              simp at hlength
      | last_backslash =>
          rw [← (List.cons.inj hsource).2] at hmem
          cases hmem
      | placeholder p h =>
          obtain ⟨name, hname, -, hnot, -⟩ := p.spelling_eq
          have heq := hname.symm.trans hsource
          rw [← (List.cons.inj heq).2] at hmem
          exact absurd hmem hnot
      | brace h =>
          rw [← (List.cons.inj hsource).2] at hmem
          cases hmem

/-- A placeholder with an even number of backslashes in front of it is read. -/
theorem mem_of_covers {cs : List Char} {ts : List HmacToken} (h : Tokens HmacToken.First cs ts)
    (p : HmacPlaceholder) {before after : List Char} (hcs : cs = before ++ p.spelling ++ after)
    (heven : Even (trailing_backslashes before)) : .placeholder p ∈ ts := by
  obtain ⟨name, hname, -⟩ := p.spelling_eq
  induction h generalizing before with
  | nil =>
      rw [hname] at hcs
      simp at hcs
  | @cons cs rest t ts head _ ih =>
      -- Either the first token lies in front of the placeholder, or the placeholder begins in it.
      have hsplit : t.source ++ rest = before ++ (p.spelling ++ after) := by
        rw [← head.split, hcs, List.append_assoc]
      rcases List.append_eq_append_iff.mp hsplit with ⟨inner, hbefore, hrest⟩ | ⟨inner, hsource, hrest⟩
      · have hne : rest ≠ [] := by
          rw [hrest, hname]
          simp
        rw [hbefore] at heven
        have heven' := (even_trailing_append (head.even_trailing hne) inner).mp heven
        exact List.mem_cons_of_mem t (ih (by rw [hrest, List.append_assoc]) heven')
      · cases inner with
        | nil =>
            have hne : rest ≠ [] := by
              rw [List.nil_append] at hrest
              rw [← hrest, hname]
              simp
            rw [List.append_nil] at hsource
            rw [← hsource] at heven
            have hwhole : Even (trailing_backslashes (t.source ++ [])) := by
              rw [List.append_nil]
              exact heven
            have heven' := (even_trailing_append (head.even_trailing hne) []).mp hwhole
            refine List.mem_cons_of_mem t (ih ?_ heven')
            rw [List.nil_append, ← List.nil_append rest, ← hrest]
        | cons c inner =>
            have hc : '{' = c := by
              rw [hname] at hrest
              exact (List.cons.inj hrest).1
            subst hc
            obtain rfl : before = [] :=
              (head.brace_inside hsource).resolve_right (not_not.mpr heven)
            have hbrace : cs = '{' :: (name ++ after) := by
              rw [hcs, hname]
              rfl
            subst hbrace
            rcases head.of_brace with ⟨q, hq, rfl⟩ | ⟨hnone, -, -⟩
            · have hboth : q.spelling ++ rest = p.spelling ++ after := by
                rw [← hq, hname]
                rfl
              obtain ⟨rfl, -⟩ := HmacPlaceholder.prefixFree.unique_append hboth
              exact List.mem_cons_self
            · refine absurd ⟨after, ?_⟩ (hnone p)
              rw [hname]
              rfl

/-! ## Distinct bodies -/

section Bodies

variable (method path timestamp : String) {ts : List HmacToken}

/-- What the tokens make of a body. -/
def signed (ts : List HmacToken) (body : String) : List Char :=
  ts.flatMap (HmacToken.render (hmac_values method path timestamp body))

/-- A token that is no `{body}` does not depend on it. -/
theorem render_const {t : HmacToken} (ht : t ≠ .placeholder .body) (body body' : String) :
    t.render (hmac_values method path timestamp body) =
      t.render (hmac_values method path timestamp body') := by
  cases t with
  | placeholder p =>
      cases p with
      | body => exact absurd rfl ht
      | _ => rfl
  | _ => rfl

theorem signed_const (hmem : .placeholder .body ∉ ts) (body body' : String) :
    signed method path timestamp ts body = signed method path timestamp ts body' := by
  refine List.flatMap_congr fun t ht => render_const method path timestamp ?_ body body'
  rintro rfl
  exact hmem ht

/-- Each `{body}` lengthens the message by the body. -/
theorem signed_length (ts : List HmacToken) : ∃ n, ∀ body : String,
    (signed method path timestamp ts body).length =
      n + ts.count (.placeholder .body) * body.toList.length := by
  induction ts with
  | nil => exact ⟨0, fun body => by simp [signed]⟩
  | cons t ts ih =>
      obtain ⟨n, hn⟩ := ih
      by_cases ht : t = .placeholder .body
      · subst ht
        refine ⟨n, fun body => ?_⟩
        have hlength := hn body
        unfold signed at hlength ⊢
        rw [List.flatMap_cons, List.length_append, hlength, List.count_cons_self, Nat.succ_mul]
        show body.toList.length + _ = _
        omega
      · -- Every other token renders to the same text, whatever the body.
        refine ⟨(t.render (hmac_values method path timestamp "")).length + n, fun body => ?_⟩
        have hlength := hn body
        unfold signed at hlength ⊢
        rw [List.flatMap_cons, List.length_append, hlength, List.count_cons_of_ne ht,
          render_const method path timestamp ht body ""]
        omega

/-- A template that reads `{body}` makes distinct messages of distinct bodies. -/
theorem signed_injective (hmem : .placeholder .body ∈ ts) {body body' : String}
    (h : signed method path timestamp ts body = signed method path timestamp ts body') :
    body = body' := by
  obtain ⟨n, hn⟩ := signed_length method path timestamp ts
  have hcount := List.count_pos_iff.mpr hmem
  have hlength := congrArg List.length h
  rw [hn body, hn body', Nat.add_left_cancel_iff] at hlength
  have hsame : body.toList.length = body'.toList.length := Nat.eq_of_mul_eq_mul_left hcount hlength
  -- The first body begins at the same place in both messages.
  obtain ⟨before, after, rfl, hnot⟩ := List.eq_append_cons_of_mem hmem
  have hconst := signed_const method path timestamp hnot body body'
  unfold signed at h hconst
  rw [List.flatMap_append, List.flatMap_append, hconst, List.flatMap_cons, List.flatMap_cons] at h
  exact String.toList_inj.mp (List.append_inj (List.append_cancel_left h) hsame).1

end Bodies

/-- **What a signature covers.** Whatever the method, the path and the time are: distinct bodies make
distinct messages if and only if the template contains a `{body}` with an even number of backslashes
in front of it. -/
theorem signature_covers_body_iff (template method path timestamp : String) :
    Function.Injective (resolve_hmac_template template method path timestamp) ↔
      CoversBody template := by
  obtain ⟨ts, hts, -⟩ := HmacToken.firstToken.existsUnique_tokens template.toList
  have hresolve := resolve_hmac_template_of_tokens hts method path timestamp
  constructor
  · intro hinjective
    by_cases hmem : .placeholder .body ∈ ts
    · exact covers_of_mem hts .body hmem
    · have hsame : resolve_hmac_template template method path timestamp "" =
          resolve_hmac_template template method path timestamp "x" := by
        rw [hresolve, hresolve]
        exact congrArg String.ofList (signed_const method path timestamp hmem "" "x")
      exact absurd (hinjective hsame) (by decide)
  · rintro ⟨before, after, htemplate, heven⟩ body body' h
    have hmem := mem_of_covers hts .body htemplate heven
    rw [hresolve, hresolve] at h
    exact signed_injective method path timestamp hmem (String.ofList_injective h)

/-- The check of both endpoints lets a template pass whose only `{body}` is escaped: every body is
signed alike. -/
theorem escaped_body_accepted :
    ¬ ∀ template : String, validate_hmac_template template = .ok () →
      ∀ method path timestamp : String,
        Function.Injective (resolve_hmac_template template method path timestamp) := by
  intro hall
  have hinjective := hall "\\\x7bbody\x7d" rfl "POST" "/" "0"
  have hsame : resolve_hmac_template "\\\x7bbody\x7d" "POST" "/" "0" "" =
      resolve_hmac_template "\\\x7bbody\x7d" "POST" "/" "0" "x" := by decide
  exact absurd (hinjective hsame) (by decide)

end IpVault
