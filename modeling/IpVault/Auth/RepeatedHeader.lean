import IpVault.Auth.Forwarding
import Mathlib.Data.List.ReduceOption

set_option autoImplicit false

/-! # Repeated `X-Forwarded-For` lines

Lines of one name mean the list that is their join, and a proxy may append a line of its own rather
than extend the last one. `resolve_client_ip` asks for the first line. The walk from the right then
begins before what the later lines say, in a line that the client may have written.
-/

namespace IpVault

open Lib

/-! ## The joined line -/

/-- The values of the `X-Forwarded-For` lines, in order. -/
def forwarded_lines (headers : HeaderMap) : List (Option String) :=
  (headers.filter (·.name = "x-forwarded-for")).map Header.value

/-- Lists with commas between them. -/
def join_lines : List String → String
  | [] => ""
  | [line] => line
  | line :: lines => line ++ "," ++ join_lines lines

/-- The request with one `X-Forwarded-For` line, if it has any: the join of its lines. It is text if they
all are. -/
def join_forwarded (headers : HeaderMap) : HeaderMap :=
  match forwarded_lines headers with
  | [] => headers
  | line :: lines =>
      ⟨"x-forwarded-for", ((line :: lines).mapM id).map join_lines⟩ ::
        headers.filter (·.name ≠ "x-forwarded-for")

/-- The entries of two lists with a comma between them are those of the first, then those of the
second. -/
theorem forwarded_entries_comma (f g : String) :
    forwarded_entries (f ++ "," ++ g) = forwarded_entries f ++ forwarded_entries g := by
  have hsplit : ∀ cs ds : List Char, Text.splitChars ',' (cs ++ ',' :: ds) =
      Text.splitChars ',' cs ++ Text.splitChars ',' ds := by
    intro cs ds
    induction cs with
    | nil =>
        show Text.splitChars ',' (',' :: ds) = [] :: Text.splitChars ',' ds
        rw [Text.splitChars, if_pos rfl]
    | cons c cs ih =>
        rw [List.cons_append, Text.splitChars, Text.splitChars, ih]
        by_cases hc : c = ','
        · rw [if_pos hc, if_pos hc, List.cons_append]
        · rw [if_neg hc, if_neg hc]
          cases hcs : Text.splitChars ',' cs with
          | nil => exact absurd hcs (Text.splitChars_ne_nil ',' cs)
          | cons p ps => rfl
  have hlist : (f ++ "," ++ g).toList = f.toList ++ ',' :: g.toList := by simp
  unfold forwarded_entries Text.split
  rw [hlist, hsplit, List.map_append, List.map_append, List.filter_append]

theorem forwarded_entries_join_lines (lines : List String) :
    forwarded_entries (join_lines lines) = lines.flatMap forwarded_entries := by
  induction lines with
  | nil => decide
  | cons line lines ih =>
      cases lines with
      | nil => simp [join_lines]
      | cons line' lines =>
          show forwarded_entries (line ++ "," ++ join_lines (line' :: lines)) = _
          rw [forwarded_entries_comma, ih]
          rfl

/-- The value of the first line is the one that is read. -/
theorem header_eq_head (headers : HeaderMap) :
    header headers "x-forwarded-for" = (forwarded_lines headers).head?.bind id := by
  unfold header forwarded_lines
  rw [List.head?_map, List.head?_filter]
  cases headers.find? fun h => h.name = "x-forwarded-for" <;> rfl

theorem header_join_forwarded {headers : HeaderMap} {line : Option String} {lines : List (Option String)}
    (h : forwarded_lines headers = line :: lines) :
    header (join_forwarded headers) "x-forwarded-for" = ((line :: lines).mapM id).map join_lines := by
  unfold join_forwarded
  rw [h]
  rfl

/-- Joining leaves the other headers. -/
theorem header_real_ip_join_forwarded (headers : HeaderMap) :
    header (join_forwarded headers) "x-real-ip" = header headers "x-real-ip" := by
  unfold join_forwarded
  cases forwarded_lines headers with
  | nil => rfl
  | cons line lines =>
      unfold header
      rw [List.find?_cons_of_neg (by simp), List.find?_filter]
      congr 2
      funext h
      by_cases hname : h.name = "x-real-ip" <;> simp [hname]

/-! ## What the later lines may say -/

section Lines

variable (parse_ip : String → Option IpAddr) (peer : IpAddr) (headers : HeaderMap)
  (trusted : List IpNetwork)

/-- `c` is the client the rightmost of the entries that names one names. -/
def RightmostNames (entries : List String) (c : IpAddr) : Prop :=
  ∃ left e right, entries = left ++ e :: right ∧ named_client parse_ip trusted e = some c ∧
    ∀ x ∈ right, named_client parse_ip trusted x = none

/-- Behind a trusted peer, the later lines name the client of the first line, or nobody. Where the first
line names nobody, they may name the address of a request without the list. Where a line is no text, the
first one is none, or names that address or nobody. -/
def LaterLinesAgree : Prop :=
  is_trusted (normalize_ip peer) trusted = true →
    ∀ first later, forwarded_lines headers = some first :: later →
      ((∀ line ∈ later, line.isSome = true) → ∀ c,
        RightmostNames parse_ip trusted (later.reduceOption.flatMap forwarded_entries) c →
          RightmostNames parse_ip trusted (forwarded_entries first) c ∨
            (∀ e ∈ forwarded_entries first, named_client parse_ip trusted e = none) ∧
              c = unforwarded_ip parse_ip peer headers) ∧
      (none ∈ later → ∀ c, RightmostNames parse_ip trusted (forwarded_entries first) c →
        c = unforwarded_ip parse_ip peer headers)

variable {parse_ip trusted} in
theorem rightmostNames_iff {entries : List String} {c : IpAddr} :
    RightmostNames parse_ip trusted entries c ↔
      entries.reverse.findSome? (named_client parse_ip trusted) = some c := by
  rw [List.findSome?_eq_some_iff]
  constructor
  · rintro ⟨left, e, right, rfl, he, hright⟩
    exact ⟨right.reverse, e, left.reverse, by simp, he, fun x hx => hright x (List.mem_reverse.mp hx)⟩
  · rintro ⟨right, e, left, hentries, he, hright⟩
    refine ⟨left.reverse, e, right.reverse, ?_, he, fun x hx => hright x (List.mem_reverse.mp hx)⟩
    rw [← List.reverse_reverse entries, hentries]
    simp

variable {parse_ip peer headers trusted}

theorem rightmostNames_forwarded_iff {forwarded : String} {c : IpAddr} :
    RightmostNames parse_ip trusted (forwarded_entries forwarded) c ↔
      forwarded_client parse_ip trusted forwarded = some c := by
  rw [rightmostNames_iff, forwarded_client_eq]

theorem names_nobody_iff {forwarded : String} :
    (∀ e ∈ forwarded_entries forwarded, named_client parse_ip trusted e = none) ↔
      forwarded_client parse_ip trusted forwarded = none := by
  rw [forwarded_client_eq, List.findSome?_eq_none_iff]
  simp

/-- Without a list the address is that of the peer, or the one it reports. -/
theorem resolve_unforwarded (h : is_trusted (normalize_ip peer) trusted = true)
    (hnone : header headers "x-forwarded-for" = none) :
    resolve_client_ip parse_ip peer headers trusted = unforwarded_ip parse_ip peer headers := by
  show (if !is_trusted (normalize_ip peer) trusted then normalize_ip peer else _) = _
  rw [h, hnone]
  rfl

theorem mapM_id_of_isSome {lines : List (Option String)} (h : ∀ line ∈ lines, line.isSome = true) :
    lines.mapM id = some lines.reduceOption := by
  induction lines with
  | nil => rfl
  | cons line lines ih =>
      obtain ⟨text, rfl⟩ := Option.isSome_iff_exists.mp (h line List.mem_cons_self)
      rw [List.mapM_cons, ih fun l hl => h l (List.mem_cons_of_mem _ hl)]
      rfl

theorem mapM_id_of_none {lines : List (Option String)} (h : none ∈ lines) :
    lines.mapM id = (none : Option (List String)) := by
  induction lines with
  | nil => cases h
  | cons line lines ih =>
      cases line with
      | none => rfl
      | some text =>
          rw [List.mapM_cons, ih (by simpa using h)]
          rfl

theorem unforwarded_ip_join_forwarded :
    unforwarded_ip parse_ip peer (join_forwarded headers) = unforwarded_ip parse_ip peer headers := by
  unfold unforwarded_ip
  rw [header_real_ip_join_forwarded]

/-- Of lines that are text the join names what the last lines that name anybody name. -/
theorem forwarded_client_join_lines (first : String) (later : List String) :
    forwarded_client parse_ip trusted (join_lines (first :: later)) =
      ((later.flatMap forwarded_entries).reverse.findSome? (named_client parse_ip trusted)).or
        (forwarded_client parse_ip trusted first) := by
  rw [forwarded_client_eq, forwarded_client_eq, forwarded_entries_join_lines, List.flatMap_cons,
    List.reverse_append, List.findSome?_append]

/-- If a line is no text, neither is the join. -/
theorem resolve_join_of_none (hpeer : is_trusted (normalize_ip peer) trusted = true)
    (hnone : none ∈ forwarded_lines headers) :
    resolve_client_ip parse_ip peer (join_forwarded headers) trusted =
      unforwarded_ip parse_ip peer headers := by
  cases hlines : forwarded_lines headers with
  | nil =>
      rw [hlines] at hnone
      cases hnone
  | cons line lines =>
      rw [hlines] at hnone
      have hheader := header_join_forwarded hlines
      rw [mapM_id_of_none hnone, Option.map_none] at hheader
      rw [resolve_unforwarded hpeer hheader, unforwarded_ip_join_forwarded]

/-- If all lines are text, so is the join. -/
theorem resolve_join_of_text (hpeer : is_trusted (normalize_ip peer) trusted = true) {first : String}
    {later : List (Option String)} (hlines : forwarded_lines headers = some first :: later)
    (htext : ∀ line ∈ later, line.isSome = true) :
    resolve_client_ip parse_ip peer (join_forwarded headers) trusted =
      (((later.reduceOption.flatMap forwarded_entries).reverse.findSome?
          (named_client parse_ip trusted)).or
        (forwarded_client parse_ip trusted first)).getD (unforwarded_ip parse_ip peer headers) := by
  have hall : ∀ line ∈ some first :: later, line.isSome = true := by simpa using htext
  have hheader := header_join_forwarded hlines
  rw [mapM_id_of_isSome hall, Option.map_some, List.reduceOption_cons_of_some] at hheader
  rw [resolve_trusted hpeer hheader, unforwarded_ip_join_forwarded, forwarded_client_join_lines]

/-- The first line alone, if it is text. -/
theorem resolve_first (hpeer : is_trusted (normalize_ip peer) trusted = true) {first : String}
    {later : List (Option String)} (hlines : forwarded_lines headers = some first :: later) :
    resolve_client_ip parse_ip peer headers trusted =
      (forwarded_client parse_ip trusted first).getD (unforwarded_ip parse_ip peer headers) := by
  refine resolve_trusted hpeer ?_
  rw [header_eq_head, hlines]
  rfl

/-- What is to be proved where the first line is text. -/
theorem repeated_lines_of_first (hpeer : is_trusted (normalize_ip peer) trusted = true)
    {first : String} {later : List (Option String)}
    (hlines : forwarded_lines headers = some first :: later) :
    resolve_client_ip parse_ip peer headers trusted =
        resolve_client_ip parse_ip peer (join_forwarded headers) trusted ↔
      LaterLinesAgree parse_ip peer headers trusted := by
  have hagree : LaterLinesAgree parse_ip peer headers trusted ↔ _ :=
    ⟨fun h => h hpeer first later hlines, fun h _ first' later' hlines' => by
      obtain ⟨rfl, rfl⟩ : first = first' ∧ later = later' := by
        simpa using hlines.symm.trans hlines'
      exact h⟩
  simp only [hagree, rightmostNames_forwarded_iff, names_nobody_iff]
  simp only [rightmostNames_iff]
  rw [resolve_first hpeer hlines]
  by_cases hnone : none ∈ later
  · -- The join is no text: the address is the one of a request without the list.
    have hlater : ¬ ∀ line ∈ later, line.isSome = true := fun htext =>
      absurd (htext none hnone) Bool.false_ne_true
    rw [resolve_join_of_none hpeer (hlines ▸ List.mem_cons_of_mem _ hnone)]
    cases forwarded_client parse_ip trusted first <;> simp [hnone, hlater]
  · have htext : ∀ line ∈ later, line.isSome = true := by
      intro line hline
      cases line with
      | none => exact absurd hline hnone
      | some text => rfl
    rw [resolve_join_of_text hpeer hlines htext]
    simp only [iff_true_intro htext, true_imp_iff, hnone, false_imp_iff, and_true]
    cases (later.reduceOption.flatMap forwarded_entries).reverse.findSome?
        (named_client parse_ip trusted) with
    | none => simp
    | some c =>
        cases forwarded_client parse_ip trusted first with
        | none => simp [eq_comm]
        | some d => simp

end Lines

/-- **Repeated lines mean their join** exactly if the later ones agree with the first. -/
theorem repeated_lines_iff (parse_ip : String → Option IpAddr) (peer : IpAddr) (headers : HeaderMap)
    (trusted : List IpNetwork) :
    resolve_client_ip parse_ip peer headers trusted =
        resolve_client_ip parse_ip peer (join_forwarded headers) trusted ↔
      LaterLinesAgree parse_ip peer headers trusted := by
  cases hpeer : is_trusted (normalize_ip peer) trusted with
  | false =>
      rw [resolve_untrusted hpeer, resolve_untrusted hpeer]
      exact iff_of_true rfl fun htrusted => absurd (hpeer.symm.trans htrusted) Bool.false_ne_true
  | true =>
      cases hlines : forwarded_lines headers with
      | nil =>
          have hjoin : join_forwarded headers = headers := by
            unfold join_forwarded
            rw [hlines]
          rw [hjoin]
          exact iff_of_true rfl fun _ first later h => nomatch hlines.symm.trans h
      | cons line later =>
          cases line with
          | none =>
              have hfirst : header headers "x-forwarded-for" = none := by
                rw [header_eq_head, hlines]
                rfl
              rw [resolve_unforwarded hpeer hfirst,
                resolve_join_of_none hpeer (hlines ▸ List.mem_cons_self)]
              exact iff_of_true rfl fun _ first later h => nomatch hlines.symm.trans h
          | some first => exact repeated_lines_of_first hpeer hlines

/-- The proxy has put the address it saw in a line of its own, behind that of its client. -/
theorem first_line_forged :
    ¬ ∀ (parse_ip : String → Option IpAddr) (peer : IpAddr) (headers : HeaderMap)
      (trusted : List IpNetwork), resolve_client_ip parse_ip peer headers trusted =
        resolve_client_ip parse_ip peer (join_forwarded headers) trusted := by
  intro all
  have h := all
    (fun s => if s = "203.0.113.7" then some host7.ip
      else if s = "198.51.100.9" then some (.v4 0xC6336409#32) else none)
    (.v4 0x0A000001#32)
    [⟨"x-forwarded-for", some "203.0.113.7"⟩, ⟨"x-forwarded-for", some "198.51.100.9"⟩] [proxies]
  exact absurd h (by decide)

end IpVault
