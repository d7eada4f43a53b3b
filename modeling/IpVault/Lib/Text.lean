import Mathlib.Data.List.DropRight
import Mathlib.Tactic

set_option autoImplicit false

/-! # Text operations of the Rust standard library

Strings are worked on as lists of characters, so that every operation is a structural recursion
and evaluates. The names are those of the Rust methods on `str`.
-/

namespace Lib.Text

/-- The code points with the Unicode property `White_Space`, which `char::is_whitespace` tests. -/
def is_whitespace (c : Char) : Bool :=
  let n := c.toNat
  (9 ≤ n && n ≤ 13) || n == 0x20 || n == 0x85 || n == 0xA0 || n == 0x1680 ||
    (0x2000 ≤ n && n ≤ 0x200A) || n == 0x2028 || n == 0x2029 || n == 0x202F || n == 0x205F ||
    n == 0x3000

/-- `str::trim_start`, on characters. -/
def trimStartChars : List Char → List Char
  | [] => []
  | c :: cs => if is_whitespace c then trimStartChars cs else c :: cs

/-- `str::trim`, on characters. -/
def trimChars (cs : List Char) : List Char :=
  (trimStartChars (trimStartChars cs).reverse).reverse

/-- `str::trim`. -/
def trim (s : String) : String := String.ofList (trimChars s.toList)

/-- `str::split` on one character: the pieces between its occurrences, of which there is always
at least one. -/
def splitChars (sep : Char) : List Char → List (List Char)
  | [] => [[]]
  | c :: cs =>
      if c = sep then [] :: splitChars sep cs
      else match splitChars sep cs with
        | [] => [[c]]
        | p :: ps => (c :: p) :: ps

/-- `str::split` on one character. -/
def split (sep : Char) (s : String) : List String := (splitChars sep s.toList).map String.ofList

theorem splitChars_ne_nil (sep : Char) (cs : List Char) : splitChars sep cs ≠ [] := by
  induction cs with
  | nil => exact List.cons_ne_nil _ _
  | cons c cs ih =>
      unfold splitChars
      by_cases hc : c = sep
      · rw [if_pos hc]
        exact List.cons_ne_nil _ _
      · rw [if_neg hc]
        cases h : splitChars sep cs with
        | nil => exact absurd h ih
        | cons p ps => exact List.cons_ne_nil _ _

/-- The first piece ends at the first separator. -/
theorem splitChars_append {sep : Char} {p : List Char} (hp : sep ∉ p) (cs : List Char) :
    splitChars sep (p ++ sep :: cs) = p :: splitChars sep cs := by
  induction p with
  | nil =>
      show splitChars sep (sep :: cs) = [] :: splitChars sep cs
      rw [splitChars, if_pos rfl]
  | cons c p ih =>
      have hc : c ≠ sep := fun h => hp (h ▸ List.mem_cons_self)
      have hrest := ih fun h => hp (List.mem_cons_of_mem _ h)
      show splitChars sep (c :: (p ++ sep :: cs)) = (c :: p) :: splitChars sep cs
      rw [splitChars, if_neg hc, hrest]

theorem trimStartChars_eq (cs : List Char) : trimStartChars cs = cs.dropWhile is_whitespace := by
  induction cs with
  | nil => rfl
  | cons c cs ih =>
      rw [trimStartChars, List.dropWhile_cons, ih]

theorem trimChars_eq (cs : List Char) :
    trimChars cs = (cs.dropWhile is_whitespace).rdropWhile is_whitespace := by
  rw [trimChars, trimStartChars_eq, trimStartChars_eq]
  rfl

/-- Nothing is trimmed off a text without whitespace. -/
theorem trim_eq_self {s : String} (h : ∀ c ∈ s.toList, is_whitespace c = false) : trim s = s := by
  have hstart : s.toList.dropWhile is_whitespace = s.toList := by
    rw [List.dropWhile_eq_self_iff]
    intro hlen
    rw [h _ (List.getElem_mem hlen)]
    exact Bool.false_ne_true
  have hend : s.toList.rdropWhile is_whitespace = s.toList := by
    rw [List.rdropWhile_eq_self_iff]
    intro hne
    rw [h _ (List.getLast_mem hne)]
    exact Bool.false_ne_true
  unfold trim
  rw [trimChars_eq, hstart, hend, String.ofList_toList]

/-- Whitespace before a text without any is trimmed off, and nothing else is. -/
theorem trim_blanks_append {blanks s : String} (hblanks : ∀ c ∈ blanks.toList, is_whitespace c = true)
    (hs : ∀ c ∈ s.toList, is_whitespace c = false) : trim (blanks ++ s) = s := by
  calc trim (blanks ++ s)
      = trim s := by
        unfold trim
        rw [String.toList_append, trimChars_eq, List.dropWhile_append_of_pos hblanks, trimChars_eq]
    _ = s := trim_eq_self hs

/-- The end of a trimmed text has whitespace at its front only. -/
theorem eq_blanks_append_trim {s p rest : String} (h : trim s = p ++ rest) :
    ∃ blanks : String, (∀ c ∈ blanks.toList, is_whitespace c = true) ∧ rest = blanks ++ trim rest := by
  have hend : (rest.toList.dropWhile is_whitespace).rdropWhile is_whitespace =
      rest.toList.dropWhile is_whitespace := by
    rw [List.rdropWhile_eq_self_iff]
    intro hne
    -- The last character of the rest is the last one of the trimmed text.
    have hwhole : trimChars s.toList = p.toList ++
        (rest.toList.takeWhile is_whitespace ++ rest.toList.dropWhile is_whitespace) := by
      rw [List.takeWhile_append_dropWhile, ← String.toList_append, ← h]
      unfold trim
      rw [String.toList_ofList]
    have hrest := List.append_ne_nil_of_right_ne_nil (rest.toList.takeWhile is_whitespace) hne
    have htrimmed : trimChars s.toList ≠ [] := by
      rw [hwhole]
      exact List.append_ne_nil_of_right_ne_nil _ hrest
    have hlast := List.rdropWhile_last_not is_whitespace (s.toList.dropWhile is_whitespace)
      (trimChars_eq _ ▸ htrimmed)
    simp only [← trimChars_eq, hwhole] at hlast
    rwa [List.getLast_append_of_ne_nil _ hrest, List.getLast_append_of_ne_nil _ hne] at hlast
  refine ⟨String.ofList (rest.toList.takeWhile is_whitespace), fun c hc => ?_, ?_⟩
  · rw [String.toList_ofList] at hc
    exact List.mem_takeWhile_imp hc
  · unfold trim
    rw [trimChars_eq, hend, ← String.ofList_append, List.takeWhile_append_dropWhile,
      String.ofList_toList]

/-- `str::strip_prefix`, on characters. -/
def dropPrefix : List Char → List Char → Option (List Char)
  | [], cs => some cs
  | _ :: _, [] => none
  | p :: ps, c :: cs => if p = c then dropPrefix ps cs else none

/-- `str::strip_prefix`. -/
def strip_prefix (s pat : String) : Option String :=
  (dropPrefix pat.toList s.toList).map String.ofList

theorem dropPrefix_eq_some_iff {p cs rest : List Char} :
    dropPrefix p cs = some rest ↔ cs = p ++ rest := by
  induction p generalizing cs with
  | nil => simp [dropPrefix]
  | cons c p ih =>
      cases cs with
      | nil => simp [dropPrefix]
      | cons d cs =>
          unfold dropPrefix
          by_cases hcd : c = d
          · subst hcd
            rw [if_pos rfl, ih]
            simp
          · rw [if_neg hcd]
            simp [Ne.symm hcd]

/-- What is left of a text without its prefix makes, behind the prefix, the text. -/
theorem strip_prefix_eq_some_iff {s pat rest : String} :
    strip_prefix s pat = some rest ↔ s = pat ++ rest := by
  unfold strip_prefix
  rw [Option.map_eq_some_iff]
  constructor
  · rintro ⟨cs, hcs, rfl⟩
    rw [dropPrefix_eq_some_iff] at hcs
    rw [← String.toList_inj, hcs, String.toList_append, String.toList_ofList]
  · rintro rfl
    exact ⟨rest.toList, by rw [dropPrefix_eq_some_iff, String.toList_append], String.ofList_toList⟩

/-- `str::starts_with`. -/
def starts_with (s pat : String) : Bool := (dropPrefix pat.toList s.toList).isSome

/-- `str::contains` for a string pattern. -/
def containsChars (pat : List Char) : List Char → Bool
  | [] => pat.isEmpty
  | c :: cs => (dropPrefix pat (c :: cs)).isSome || containsChars pat cs

/-- `str::contains` for a string pattern. -/
def contains (s pat : String) : Bool := containsChars pat.toList s.toList

/-- The first `n` characters, as `chars().take(n)` collects them. -/
def take (n : Nat) (s : String) : String := String.ofList (s.toList.take n)

/-- `str::is_empty`. -/
def is_empty (s : String) : Bool := s.toList.isEmpty

/-- `char::to_ascii_uppercase`. -/
def asciiUpper (c : Char) : Char :=
  if 'a' ≤ c ∧ c ≤ 'z' then Char.ofNat (c.toNat - 32) else c

/-- `str::to_ascii_uppercase`. -/
def to_ascii_uppercase (s : String) : String := String.ofList (s.toList.map asciiUpper)

/-- `char::to_ascii_lowercase`. -/
def asciiLower (c : Char) : Char :=
  if 'A' ≤ c ∧ c ≤ 'Z' then Char.ofNat (c.toNat + 32) else c

/-- `str::to_ascii_lowercase`. -/
def to_ascii_lowercase (s : String) : String := String.ofList (s.toList.map asciiLower)

/-- `LIKE` of SQLite: `%` stands for any text, `_` for any one character, and an ASCII letter for
itself in both cases. -/
def likeChars : List Char → List Char → Bool
  | [], cs => cs.isEmpty
  | '%' :: ps, cs => cs.tails.any (likeChars ps)
  | _ :: _, [] => false
  | p :: ps, c :: cs => (p == '_' || asciiUpper p == asciiUpper c) && likeChars ps cs

/-- `ColumnTrait::contains`: `LIKE` with a `%` on either side of the text, whose own `%` and `_` are
not escaped. -/
def like (s part : String) : Bool := likeChars ('%' :: part.toList ++ ['%']) s.toList

/-- A run of ASCII digits, read onto `acc`. -/
def digits (acc : Nat) : List Char → Option Nat
  | [] => some acc
  | c :: cs => if '0' ≤ c ∧ c ≤ '9' then digits (10 * acc + (c.toNat - 48)) cs else none

/-- `str::parse::<i64>`: an optional sign, at least one digit, and no overflow. -/
def parse_i64 (s : String) : Option Int :=
  let signed : Option Int :=
    match s.toList with
    | [] => none
    | '-' :: [] => none
    | '+' :: [] => none
    | '-' :: cs => (digits 0 cs).map fun n => -(n : Int)
    | '+' :: cs => (digits 0 cs).map fun n => (n : Int)
    | cs => (digits 0 cs).map fun n => (n : Int)
  signed.filter fun n => -(2 ^ 63) ≤ n && n < 2 ^ 63

/-- `str::parse::<u16>`: an optional plus, at least one digit, and no overflow. -/
def parse_u16 (s : String) : Option Nat :=
  let unsigned : Option Nat :=
    match s.toList with
    | [] => none
    | '+' :: [] => none
    | '+' :: cs => digits 0 cs
    | cs => digits 0 cs
  unsigned.filter fun n => n < 2 ^ 16

theorem parse_i64_lt {s : String} {n : Int} (h : parse_i64 s = some n) : n < 2 ^ 63 := by
  unfold parse_i64 at h
  have := (Option.filter_eq_some_iff.mp h).2
  simp only [Bool.and_eq_true, decide_eq_true_eq] at this
  exact this.2

example : parse_i64 "-17" = some (-17) := by decide
example : parse_u16 "+503" = some 503 ∧ parse_u16 "65536" = none := by decide
example : split ',' "a,,b" = ["a", "", "b"] := by decide
example : like "Brute force" "e_F%c" = true := by decide
example : trim " \t10.0.0.1/32\n" = "10.0.0.1/32" := by decide

end Lib.Text
