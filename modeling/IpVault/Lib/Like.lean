import IpVault.Lib.Text

set_option autoImplicit false

/-! # `LIKE` and containment

The pattern `%part%` finds every text that contains `part`. It finds no other text if neither of the two
has a character that `LIKE` reads in a way of its own: a wildcard, or a letter whose other case it takes
for the same.
-/

namespace Lib.Text

theorem dropPrefix_isSome {p cs : List Char} : (dropPrefix p cs).isSome = true ↔ p <+: cs := by
  induction p generalizing cs with
  | nil => exact ⟨fun _ => List.nil_prefix, fun _ => rfl⟩
  | cons a p ih =>
      cases cs with
      | nil => exact ⟨fun h => absurd h Bool.false_ne_true,
          fun h => absurd (List.prefix_nil.mp h) (List.cons_ne_nil _ _)⟩
      | cons c cs =>
          rw [List.cons_prefix_cons]
          unfold dropPrefix
          by_cases h : a = c
          · rw [if_pos h, ih]
            exact (and_iff_right h).symm
          · rw [if_neg h]
            exact ⟨fun hf => absurd hf Bool.false_ne_true, fun hp => absurd hp.1 h⟩

theorem containsChars_iff {pat cs : List Char} : containsChars pat cs = true ↔ pat <:+: cs := by
  induction cs with
  | nil =>
      rw [List.infix_nil]
      exact List.isEmpty_iff
  | cons c cs ih =>
      unfold containsChars
      rw [Bool.or_eq_true, dropPrefix_isSome, ih, List.infix_cons_iff]

/-- `str::contains` finds the text as a piece of the other. -/
theorem contains_iff {s pat : String} : contains s pat = true ↔ pat.toList <:+: s.toList :=
  containsChars_iff

/-- `LIKE` reads the character as itself and takes no other one for it, upper case apart. -/
def literal (c : Char) : Bool := c != '%' && c != '_' && !(decide ('A' ≤ c) && decide (c ≤ 'Z'))

theorem literal_of_isDigit {c : Char} (h : c.isDigit = true) : literal c = true := by
  have hrange := (Bool.and_eq_true _ _).mp h
  have hlow : 48 ≤ c.toNat := of_decide_eq_true hrange.1
  have hhigh : c.toNat ≤ 57 := of_decide_eq_true hrange.2
  have hpercent : c ≠ '%' := fun h => absurd (h ▸ hlow) (by decide)
  have hunderscore : c ≠ '_' := fun h => absurd (h ▸ hhigh) (by decide)
  have hcapital : ¬ 'A' ≤ c := by
    intro hc
    have hc65 : 65 ≤ c.toNat := hc
    omega
  unfold literal
  rw [bne_iff_ne.mpr hpercent, bne_iff_ne.mpr hunderscore, decide_eq_false hcapital]
  rfl

theorem toNat_asciiUpper {c : Char} (h : 'a' ≤ c ∧ c ≤ 'z') :
    (asciiUpper c).toNat = c.toNat - 32 := by
  have hlow : 97 ≤ c.toNat := h.1
  have hhigh : c.toNat ≤ 122 := h.2
  have hvalid : (c.toNat - 32).isValidChar := Or.inl (by omega)
  have hcode : (Char.ofNat (c.toNat - 32)).toNat = c.toNat - 32 := by
    unfold Char.ofNat
    rw [dif_pos hvalid]
    rfl
  unfold asciiUpper
  rw [if_pos h, hcode]

/-- Among characters that are no capitals, the upper case tells them apart. -/
theorem eq_of_asciiUpper {c d : Char} (hc : literal c = true) (hd : literal d = true)
    (h : asciiUpper c = asciiUpper d) : c = d := by
  have small : ∀ {e : Char}, literal e = true → e.toNat < 65 ∨ 90 < e.toNat := by
    intro e he
    have hcase := ((Bool.and_eq_true _ _).mp he).2
    by_contra hbetween
    have hlow : 'A' ≤ e := show 65 ≤ e.toNat by omega
    have hhigh : e ≤ 'Z' := show e.toNat ≤ 90 by omega
    rw [decide_eq_true hlow, decide_eq_true hhigh] at hcase
    cases hcase
  have other : ∀ {e : Char}, ¬ ('a' ≤ e ∧ e ≤ 'z') → asciiUpper e = e := by
    intro e he
    unfold asciiUpper
    rw [if_neg he]
  have hcsmall := small hc
  have hdsmall := small hd
  apply Char.toNat_inj.mp
  by_cases hcl : 'a' ≤ c ∧ c ≤ 'z' <;> by_cases hdl : 'a' ≤ d ∧ d ≤ 'z'
  · have hsame := congrArg Char.toNat h
    rw [toNat_asciiUpper hcl, toNat_asciiUpper hdl] at hsame
    have hc97 : 97 ≤ c.toNat := hcl.1
    have hd97 : 97 ≤ d.toNat := hdl.1
    omega
  · have hsame := congrArg Char.toNat h
    rw [toNat_asciiUpper hcl, other hdl] at hsame
    have hc97 : 97 ≤ c.toNat := hcl.1
    have hc122 : c.toNat ≤ 122 := hcl.2
    omega
  · have hsame := congrArg Char.toNat h
    rw [other hcl, toNat_asciiUpper hdl] at hsame
    have hd97 : 97 ≤ d.toNat := hdl.1
    have hd122 : d.toNat ≤ 122 := hdl.2
    omega
  · rw [other hcl, other hdl] at h
    rw [h]

theorem likeChars_cons {p : Char} (hp : p ≠ '%') (c : Char) (ps cs : List Char) :
    likeChars (p :: ps) (c :: cs) =
      ((p == '_' || asciiUpper p == asciiUpper c) && likeChars ps cs) := by
  rw [likeChars]
  exact hp

theorem likeChars_percent_iff {ps cs : List Char} :
    likeChars ('%' :: ps) cs = true ↔ ∃ t, t <:+ cs ∧ likeChars ps t = true := by
  show cs.tails.any (likeChars ps) = true ↔ _
  rw [List.any_eq_true]
  exact exists_congr fun t => and_congr_left fun _ => List.mem_tails t cs

/-- A pattern with `%` behind it finds every text that begins with it. -/
theorem likeChars_append (part rest : List Char) :
    likeChars (part ++ ['%']) (part ++ rest) = true := by
  induction part with
  | nil => exact likeChars_percent_iff.mpr ⟨[], List.nil_suffix, rfl⟩
  | cons p part ih =>
      by_cases hp : p = '%'
      · subst hp
        exact likeChars_percent_iff.mpr ⟨part ++ rest, List.suffix_cons _ _, ih⟩
      · rw [List.cons_append, List.cons_append, likeChars_cons hp, ih, beq_self_eq_true,
          Bool.or_true, Bool.and_true]

/-- Literal characters are found only where they are. -/
theorem prefix_of_likeChars {part cs : List Char} (hpart : part.all literal = true)
    (hcs : cs.all literal = true) (h : likeChars (part ++ ['%']) cs = true) : part <+: cs := by
  induction part generalizing cs with
  | nil => exact List.nil_prefix
  | cons p part ih =>
      rw [List.all_cons, Bool.and_eq_true] at hpart
      obtain ⟨hliteral, hpart⟩ := hpart
      have hmarks := ((Bool.and_eq_true _ _).mp hliteral).1
      rw [Bool.and_eq_true, bne_iff_ne, bne_iff_ne] at hmarks
      cases cs with
      | nil =>
          rw [List.cons_append, likeChars] at h
          · cases h
          · exact hmarks.1
      | cons c cs =>
          rw [List.all_cons, Bool.and_eq_true] at hcs
          rw [List.cons_append, likeChars_cons hmarks.1, Bool.and_eq_true, Bool.or_eq_true,
            beq_iff_eq, beq_iff_eq] at h
          have hsame : p = c := eq_of_asciiUpper hliteral hcs.1 (h.1.resolve_left hmarks.2)
          exact List.cons_prefix_cons.mpr ⟨hsame, ih hpart hcs.2 h.2⟩

/-- What contains a text is `LIKE` it. -/
theorem like_of_contains {s part : String} (h : contains s part = true) : like s part = true := by
  obtain ⟨before, after, hsplit⟩ := contains_iff.mp h
  refine likeChars_percent_iff.mpr ⟨part.toList ++ after, ⟨before, ?_⟩, likeChars_append _ _⟩
  rw [← hsplit, List.append_assoc]

/-- **`LIKE` and containment** agree on literal texts. -/
theorem like_eq_contains {s part : String} (hs : s.toList.all literal = true)
    (hpart : part.toList.all literal = true) : like s part = contains s part := by
  rw [Bool.eq_iff_iff]
  refine ⟨fun h => ?_, like_of_contains⟩
  obtain ⟨t, ht, hlike⟩ := likeChars_percent_iff.mp h
  have hliteral : t.all literal = true := by
    obtain ⟨before, hbefore⟩ := ht
    rw [← hbefore, List.all_append, Bool.and_eq_true] at hs
    exact hs.2
  have hbegins := prefix_of_likeChars hpart hliteral hlike
  exact contains_iff.mpr (hbegins.isInfix.trans ht.isInfix)

end Lib.Text
