import IpVault.Lib.Tokens

set_option autoImplicit false

/-! # JSON texts with holes

The grammar of RFC 8259 over texts in which holes may stand inside string literals. A text denotes a
document if its lexemes are those the document is written with. Filling the holes with texts that
need no escaping commutes with reading; filling the hole of the text that is one string literal with
any other text does not.
-/

namespace Lib.JsonText

variable {V : Type}

/-- A symbol of a text with holes. -/
inductive Sym (V : Type) where
  | char (c : Char)
  | hole (v : V)
  deriving DecidableEq

/-- A text without holes. -/
def plain (cs : List Char) : List (Sym V) := cs.map .char

/-- A text with its holes filled. -/
def fill (value : V → List Char) (text : List (Sym V)) : List (Sym V) :=
  text.flatMap fun
    | .char c => [.char c]
    | .hole v => plain (value v)

@[simp] theorem plain_nil : (plain [] : List (Sym V)) = [] := rfl
@[simp] theorem plain_cons (c : Char) (cs : List Char) :
    (plain (c :: cs) : List (Sym V)) = .char c :: plain cs := rfl

theorem plain_append (cs ds : List Char) :
    (plain (cs ++ ds) : List (Sym V)) = plain cs ++ plain ds := List.map_append

theorem plain_injective : Function.Injective (plain : List Char → List (Sym V)) :=
  List.map_injective_iff.mpr fun _ _ h => Sym.char.inj h

section Fill

variable (value : V → List Char)

@[simp] theorem fill_nil : fill value [] = [] := rfl
@[simp] theorem fill_char (c : Char) (text : List (Sym V)) :
    fill value (.char c :: text) = .char c :: fill value text := rfl
@[simp] theorem fill_hole (v : V) (text : List (Sym V)) :
    fill value (.hole v :: text) = plain (value v) ++ fill value text := rfl

theorem fill_append (text text' : List (Sym V)) :
    fill value (text ++ text') = fill value text ++ fill value text' := List.flatMap_append

theorem fill_plain (cs : List Char) : fill value (plain cs) = plain cs := by
  induction cs with
  | nil => rfl
  | cons c cs ih => rw [plain_cons, fill_char, ih]

end Fill

/-! ## Strings -/

/-- The characters of a string that stand for themselves: all but the quotation mark, the backslash
and the control characters. -/
def Unescaped (c : Char) : Prop := c ≠ '"' ∧ c ≠ '\\' ∧ 32 ≤ c.toNat

instance (c : Char) : Decidable (Unescaped c) :=
  inferInstanceAs (Decidable (c ≠ '"' ∧ c ≠ '\\' ∧ 32 ≤ c.toNat))

/-- The character an escape of two characters stands for. -/
def named_escape : Char → Option Char
  | '"' => some '"'
  | '\\' => some '\\'
  | '/' => some '/'
  | 'b' => some (Char.ofNat 8)
  | 'f' => some (Char.ofNat 12)
  | 'n' => some '\n'
  | 'r' => some '\r'
  | 't' => some '\t'
  | _ => none

/-- The value of a hexadecimal digit. -/
def hex_digit (c : Char) : Option Nat :=
  if '0' ≤ c ∧ c ≤ '9' then some (c.toNat - 48)
  else if 'a' ≤ c ∧ c ≤ 'f' then some (c.toNat - 87)
  else if 'A' ≤ c ∧ c ≤ 'F' then some (c.toNat - 55)
  else none

/-- The value of four hexadecimal digits. -/
def code_unit : List Char → Option Nat
  | [a, b, c, d] => do
      let a ← hex_digit a
      let b ← hex_digit b
      let c ← hex_digit c
      let d ← hex_digit d
      pure (((a * 16 + b) * 16 + c) * 16 + d)
  | _ => none

/-- What may follow a backslash, and the character it stands for with it: a code point beyond the
basic plane is written as a pair of surrogates. -/
inductive Escape : List Char → Char → Prop
  | named {c d : Char} (h : named_escape c = some d) : Escape [c] d
  | unit {ds : List Char} {n : Nat} (h : code_unit ds = some n) (hn : n < 0xD800 ∨ 0xE000 ≤ n) :
      Escape ('u' :: ds) (Char.ofNat n)
  | pair {ds ds' : List Char} {hi lo : Nat} (h : code_unit ds = some hi)
      (h' : code_unit ds' = some lo) (hhi : 0xD800 ≤ hi ∧ hi < 0xDC00)
      (hlo : 0xDC00 ≤ lo ∧ lo < 0xE000) :
      Escape ('u' :: (ds ++ '\\' :: 'u' :: ds'))
        (Char.ofNat (0x10000 + (hi - 0xD800) * 0x400 + (lo - 0xDC00)))

/-- `Body text s rest`: behind its opening quotation mark, `text` is the string `s` and then
`rest`. -/
inductive Body : List (Sym V) → List (Sym V) → List (Sym V) → Prop
  | close (rest : List (Sym V)) : Body (.char '"' :: rest) [] rest
  | char {c : Char} {text s rest : List (Sym V)} (hc : Unescaped c) (h : Body text s rest) :
      Body (.char c :: text) (.char c :: s) rest
  | escape {e : List Char} {c : Char} {text s rest : List (Sym V)} (he : Escape e c)
      (h : Body text s rest) : Body (.char '\\' :: (plain e ++ text)) (.char c :: s) rest
  | hole (v : V) {text s rest : List (Sym V)} (h : Body text s rest) :
      Body (.hole v :: text) (.hole v :: s) rest

/-! ## Lexemes -/

/-- The lexemes: punctuation, the literals and numbers, and strings. -/
inductive Tok (V : Type) where
  | punct (c : Char)
  | atom (text : List Char)
  | str (s : List (Sym V))
  deriving DecidableEq

/-- The characters of literals and numbers. -/
def atomic (c : Char) : Bool := c.isAlphanum || c == '-' || c == '+' || c == '.'

/-- The digits of an exponent, signed or not, or no exponent. -/
def is_exponent : List Char → Bool
  | [] => true
  | e :: cs =>
      let ds := match cs with
        | '+' :: ds => ds
        | '-' :: ds => ds
        | ds => ds
      (e == 'e' || e == 'E') && !ds.isEmpty && ds.all (·.isDigit)

/-- A fraction, or none, and then an exponent, or none. -/
def is_fraction : List Char → Bool
  | '.' :: cs => !(cs.takeWhile (·.isDigit)).isEmpty && is_exponent (cs.dropWhile (·.isDigit))
  | cs => is_exponent cs

/-- A number without its sign. -/
def is_magnitude : List Char → Bool
  | [] => false
  | '0' :: cs => is_fraction cs
  | c :: cs => c.isDigit && is_fraction (cs.dropWhile (·.isDigit))

def is_number : List Char → Bool
  | '-' :: cs => is_magnitude cs
  | cs => is_magnitude cs

/-- The literals, and the numbers. -/
def is_atom (cs : List Char) : Bool :=
  cs = "true".toList || cs = "false".toList || cs = "null".toList || is_number cs

/-- The text consists of these lexemes, and blanks between them. -/
inductive Lexes : List (Sym V) → List (Tok V) → Prop
  | done : Lexes [] []
  | blank {c : Char} {text : List (Sym V)} {ts : List (Tok V)}
      (hc : c ∈ [' ', '\t', '\n', '\r']) (h : Lexes text ts) : Lexes (.char c :: text) ts
  | punct {c : Char} {text : List (Sym V)} {ts : List (Tok V)}
      (hc : c ∈ ['{', '}', '[', ']', ':', ',']) (h : Lexes text ts) :
      Lexes (.char c :: text) (.punct c :: ts)
  | atom {run : List Char} {text : List (Sym V)} {ts : List (Tok V)}
      (hrun : ∀ c ∈ run, atomic c = true) (hend : ∀ c, .char c ∈ text.head? → atomic c = false)
      (hatom : is_atom run = true) (h : Lexes text ts) :
      Lexes (plain run ++ text) (.atom run :: ts)
  | str {text s rest : List (Sym V)} {ts : List (Tok V)} (hs : Body text s rest)
      (h : Lexes rest ts) : Lexes (.char '"' :: text) (.str s :: ts)

/-! ## Documents -/

mutual

/-- A document: a literal or a number, a string, an array or an object. -/
inductive Doc (V : Type) where
  | atom (text : List Char)
  | str (s : List (Sym V))
  | arr (items : Items V)
  | obj (members : Members V)
  deriving DecidableEq

inductive Items (V : Type) where
  | nil
  | cons (d : Doc V) (items : Items V)
  deriving DecidableEq

inductive Members (V : Type) where
  | nil
  | cons (name : List (Sym V)) (d : Doc V) (members : Members V)
  deriving DecidableEq

end

mutual

/-- The lexemes a document is written with. -/
def Doc.tokens : Doc V → List (Tok V)
  | .atom text => [.atom text]
  | .str s => [.str s]
  | .arr .nil => [.punct '[', .punct ']']
  | .arr (.cons d items) => .punct '[' :: (d.tokens ++ items.more ++ [.punct ']'])
  | .obj .nil => [.punct '{', .punct '}']
  | .obj (.cons name d members) =>
      .punct '{' :: .str name :: .punct ':' :: (d.tokens ++ members.more ++ [.punct '}'])

/-- Those of the items that follow another one. -/
def Items.more : Items V → List (Tok V)
  | .nil => []
  | .cons d items => .punct ',' :: (d.tokens ++ items.more)

/-- Those of the members that follow another one. -/
def Members.more : Members V → List (Tok V)
  | .nil => []
  | .cons name d members =>
      .punct ',' :: .str name :: .punct ':' :: (d.tokens ++ members.more)

end

/-- **The text is this document.** -/
def Denotes (text : List (Sym V)) (d : Doc V) : Prop := Lexes text d.tokens

mutual

/-- A document with the holes of its strings filled. -/
def Doc.fill (value : V → List Char) : Doc V → Doc V
  | .atom text => .atom text
  | .str s => .str (JsonText.fill value s)
  | .arr items => .arr (items.fill value)
  | .obj members => .obj (members.fill value)

def Items.fill (value : V → List Char) : Items V → Items V
  | .nil => .nil
  | .cons d items => .cons (d.fill value) (items.fill value)

def Members.fill (value : V → List Char) : Members V → Members V
  | .nil => .nil
  | .cons name d members =>
      .cons (JsonText.fill value name) (d.fill value) (members.fill value)

end

/-! ## Filling the holes -/

section Filling

variable {value : V → List Char} {text s rest : List (Sym V)}

/-- The holes of a text. -/
def Holes (text : List (Sym V)) : Set V := {v | Sym.hole v ∈ text}

/-- A string goes on behind characters that stand for themselves. -/
theorem Body.plain_append {cs : List Char} (hcs : ∀ c ∈ cs, Unescaped c) (h : Body text s rest) :
    Body (plain cs ++ text) (plain cs ++ s) rest := by
  induction cs with
  | nil => exact h
  | cons c cs ih =>
      have htail := ih fun d hd => hcs d (List.mem_cons_of_mem c hd)
      exact .char (hcs c List.mem_cons_self) htail

theorem unescaped_of_all {cs : List Char} (h : cs.all (fun c => decide (Unescaped c)) = true) :
    ∀ c ∈ cs, Unescaped c := by
  intro c hc
  exact of_decide_eq_true (List.all_eq_true.mp h c hc)

/-- A string without escapes. -/
theorem Body.literal (cs : List Char) (h : cs.all (fun c => decide (Unescaped c)) = true)
    (rest : List (Sym V)) : Body (plain cs ++ .char '"' :: rest) (plain cs) rest := by
  have hbody := (Body.close rest).plain_append (unescaped_of_all h)
  rwa [List.append_nil] at hbody

/-- **Strings.** -/
theorem Body.fill (h : Body text s rest)
    (hvalue : ∀ v ∈ Holes text, ∀ c ∈ value v, Unescaped c) :
    Body (fill value text) (JsonText.fill value s) (JsonText.fill value rest) := by
  induction h with
  | close rest => exact .close _
  | char hc _ ih =>
      have htail := ih fun v hv => hvalue v (List.mem_cons_of_mem _ hv)
      exact .char hc htail
  | @escape e c text s rest he _ ih =>
      have htail := ih fun v hv => hvalue v (List.mem_cons_of_mem _ (List.mem_append_right _ hv))
      rw [fill_char, fill_append, fill_plain, fill_char]
      exact .escape he htail
  | hole v _ ih =>
      have htail := ih fun w hw => hvalue w (List.mem_cons_of_mem _ hw)
      exact htail.plain_append (hvalue v List.mem_cons_self)

/-- What is left behind a string is part of the text. -/
theorem Body.mem_of_mem_rest (h : Body text s rest) {x : Sym V} (hx : x ∈ rest) : x ∈ text := by
  induction h with
  | close rest => exact List.mem_cons_of_mem _ hx
  | char _ _ ih => exact List.mem_cons_of_mem _ (ih hx)
  | escape _ _ ih => exact List.mem_cons_of_mem _ (List.mem_append_right _ (ih hx))
  | hole v _ ih => exact List.mem_cons_of_mem _ (ih hx)

/-- A lexeme with the holes of a string filled. -/
def Tok.fill (value : V → List Char) : Tok V → Tok V
  | .punct c => .punct c
  | .atom text => .atom text
  | .str s => .str (JsonText.fill value s)

/-- **Lexemes.** -/
theorem Lexes.fill {ts : List (Tok V)} (h : Lexes text ts)
    (hvalue : ∀ v ∈ Holes text, ∀ c ∈ value v, Unescaped c) :
    Lexes (fill value text) (ts.map (Tok.fill value)) := by
  induction h with
  | done => exact .done
  | blank hc _ ih => exact .blank hc (ih fun v hv => hvalue v (List.mem_cons_of_mem _ hv))
  | punct hc _ ih => exact .punct hc (ih fun v hv => hvalue v (List.mem_cons_of_mem _ hv))
  | @atom run text ts hrun hend hatom htail ih =>
      rw [fill_append, fill_plain]
      refine .atom hrun (fun c hc => ?_) hatom (ih fun v hv => hvalue v (List.mem_append_right _ hv))
      -- No lexeme begins with a hole.
      cases text with
      | nil => cases hc
      | cons x text =>
          cases x with
          | char d => exact hend c hc
          | hole v =>
              generalize hx : Sym.hole v :: text = text' at htail
              cases htail with
              | @atom run' text'' ts' _ _ hatom' _ =>
                  cases run' with
                  | nil => cases hatom'
                  | cons d run' => cases hx
              | _ => cases hx
  | str hs _ ih =>
      refine .str (hs.fill fun v hv => hvalue v (List.mem_cons_of_mem _ hv)) (ih fun v hv => ?_)
      exact hvalue v (List.mem_cons_of_mem _ (hs.mem_of_mem_rest hv))

end Filling

mutual

theorem Doc.tokens_fill (value : V → List Char) :
    ∀ d : Doc V, (d.fill value).tokens = d.tokens.map (Tok.fill value)
  | .atom text => rfl
  | .str s => rfl
  | .arr .nil => rfl
  | .arr (.cons d items) => by
      have hd := d.tokens_fill value
      have hitems := items.more_fill value
      simp only [Doc.fill, Items.fill, Doc.tokens, hd, hitems, List.map_cons, List.map_append,
        List.map_nil, Tok.fill]
  | .obj .nil => rfl
  | .obj (.cons name d members) => by
      have hd := d.tokens_fill value
      have hmembers := members.more_fill value
      simp only [Doc.fill, Members.fill, Doc.tokens, hd, hmembers, List.map_cons, List.map_append,
        List.map_nil, Tok.fill]

theorem Items.more_fill (value : V → List Char) :
    ∀ items : Items V, (items.fill value).more = items.more.map (Tok.fill value)
  | .nil => rfl
  | .cons d items => by
      have hd := d.tokens_fill value
      have hitems := items.more_fill value
      simp only [Items.fill, Items.more, hd, hitems, List.map_cons, List.map_append, Tok.fill]

theorem Members.more_fill (value : V → List Char) :
    ∀ members : Members V, (members.fill value).more = members.more.map (Tok.fill value)
  | .nil => rfl
  | .cons name d members => by
      have hd := d.tokens_fill value
      have hmembers := members.more_fill value
      simp only [Members.fill, Members.more, hd, hmembers, List.map_cons, List.map_append, Tok.fill]

end

/-- **A document with its holes filled.** If the values need no escaping, the text with its holes
filled is the document with its holes filled. -/
theorem Denotes.fill {text : List (Sym V)} {d : Doc V} {value : V → List Char}
    (h : Denotes text d) (hvalue : ∀ v ∈ Holes text, ∀ c ∈ value v, Unescaped c) :
    Denotes (JsonText.fill value text) (d.fill value) := by
  unfold Denotes
  rw [d.tokens_fill value]
  exact Lexes.fill h hvalue

/-! ## A text that needs escaping -/

/-- A string takes a symbol for each of its characters, and its quotation mark. -/
theorem Body.length_le {text s rest : List (Sym V)} (h : Body text s rest) :
    s.length + 1 + rest.length ≤ text.length := by
  induction h with
  | close rest => simp only [List.length_nil, List.length_cons]; omega
  | char _ _ ih => simp only [List.length_cons]; omega
  | escape _ _ ih => simp only [List.length_cons, List.length_append]; omega
  | hole v _ ih => simp only [List.length_cons]; omega

theorem Escape.ne_nil {e : List Char} {c : Char} (h : Escape e c) : e ≠ [] := by
  cases h <;> exact List.cons_ne_nil _ _

/-- If it takes no more, it has no escapes. -/
theorem Body.unescaped_of_length {text s rest : List (Sym V)} (h : Body text s rest)
    (hlength : text.length ≤ s.length + 1 + rest.length) :
    ∀ c, Sym.char c ∈ s → Unescaped c := by
  induction h with
  | close rest =>
      intro c hc
      cases hc
  | char hc _ ih =>
      intro c' hc'
      simp only [List.length_cons] at hlength
      rcases List.mem_cons.mp hc' with heq | hc'
      · exact Sym.char.inj heq ▸ hc
      · exact ih (by omega) c' hc'
  | @escape e c text s rest he htail _ =>
      -- An escape takes at least two characters and gives one.
      have hle := htail.length_le
      have hpos := List.length_pos_iff.mpr he.ne_nil
      simp only [List.length_cons, List.length_append, plain, List.length_map] at hlength
      omega
  | hole v _ ih =>
      intro c' hc'
      simp only [List.length_cons] at hlength
      rcases List.mem_cons.mp hc' with heq | hc'
      · cases heq
      · exact ih (by omega) c' hc'

/-- **One string literal.** Between two quotation marks a text is the string it is, exactly if it needs
no escaping. -/
theorem denotes_literal_iff (cs : List Char) :
    Denotes (V := V) (.char '"' :: (plain cs ++ [.char '"'])) (.str (plain cs)) ↔
      ∀ c ∈ cs, Unescaped c := by
  constructor
  · intro h
    -- The document is a string, and its body begins behind the quotation mark.
    have hbody : ∃ rest, Body (plain cs ++ [.char '"']) (plain cs : List (Sym V)) rest := by
      generalize htext : Sym.char '"' :: (plain cs ++ [.char '"']) = text at h
      cases h with
      | blank hc _ =>
          rw [← (Sym.char.inj (List.cons.inj htext).1)] at hc
          simp at hc
      | str hs _ =>
          obtain ⟨-, rfl⟩ := List.cons.inj htext
          exact ⟨_, hs⟩
    obtain ⟨rest, hbody⟩ := hbody
    have hlength := hbody.length_le
    simp only [List.length_append, List.length_singleton] at hlength
    intro c hc
    refine hbody.unescaped_of_length ?_ c (List.mem_map_of_mem hc)
    simp only [List.length_append, List.length_singleton]
    omega
  · intro hcs
    have hbody := (Body.close (V := V) []).plain_append hcs
    rw [List.append_nil] at hbody
    exact .str hbody .done

/-! ## A text is one document -/

section Unique

variable {text s s' rest rest' : List (Sym V)}

theorem code_unit_length {ds : List Char} {n : Nat} (h : code_unit ds = some n) :
    ds.length = 4 := by
  unfold code_unit at h
  split at h
  · rfl
  · cases h

/-- Of two texts that begin with four digits each, the digits are the same. -/
theorem code_unit_unique {ds ds' : List Char} {n n' : Nat} {x y : List (Sym V)}
    (h : code_unit ds = some n) (h' : code_unit ds' = some n')
    (heq : (plain ds : List (Sym V)) ++ x = plain ds' ++ y) : ds = ds' ∧ n = n' ∧ x = y := by
  have hlength : (plain ds : List (Sym V)).length = (plain ds' : List (Sym V)).length := by
    unfold plain
    rw [List.length_map, List.length_map, code_unit_length h, code_unit_length h']
  obtain ⟨hds, hxy⟩ := List.append_inj heq hlength
  obtain rfl := plain_injective hds
  exact ⟨rfl, Option.some.inj (h.symm.trans h'), hxy⟩

theorem Escape.unique {e e' : List Char} {c c' : Char} {x y : List (Sym V)} (h : Escape e c)
    (h' : Escape e' c') (heq : (plain e : List (Sym V)) ++ x = plain e' ++ y) :
    c = c' ∧ x = y := by
  have not_named : ∀ {d c : Char}, named_escape d = some c → d ≠ 'u' := by
    rintro d c hd rfl
    cases hd
  cases h with
  | named h =>
      cases h' with
      | named h' =>
          obtain ⟨hc, hxy⟩ := List.cons.inj heq
          obtain rfl := Sym.char.inj hc
          exact ⟨Option.some.inj (h.symm.trans h'), hxy⟩
      | unit => exact absurd (Sym.char.inj (List.cons.inj heq).1) (not_named h)
      | pair => exact absurd (Sym.char.inj (List.cons.inj heq).1) (not_named h)
  | unit h hn =>
      rw [plain_cons, List.cons_append] at heq
      cases h' with
      | named h' => exact absurd (Sym.char.inj (List.cons.inj heq).1).symm (not_named h')
      | unit h' hn' =>
          obtain ⟨-, rfl, hxy⟩ := code_unit_unique h h' (List.cons.inj heq).2
          exact ⟨rfl, hxy⟩
      | pair hhi' hlo' hhi hlo =>
          -- The first unit of a pair is no code point of its own.
          rw [plain_cons, List.cons_append, plain_append, List.append_assoc] at heq
          obtain ⟨-, rfl, -⟩ := code_unit_unique h hhi' (List.cons.inj heq).2
          omega
  | pair hhi hlo hrange hrange' =>
      rw [plain_cons, List.cons_append, plain_append, List.append_assoc] at heq
      cases h' with
      | named h' => exact absurd (Sym.char.inj (List.cons.inj heq).1).symm (not_named h')
      | unit h' hn' =>
          rw [plain_cons, List.cons_append] at heq
          obtain ⟨-, rfl, -⟩ := code_unit_unique hhi h' (List.cons.inj heq).2
          omega
      | pair hhi' hlo' _ _ =>
          simp only [plain_cons, plain_append, List.cons_append, List.append_assoc] at heq
          obtain ⟨-, rfl, hrest⟩ := code_unit_unique hhi hhi' (List.cons.inj heq).2
          simp only [List.cons.injEq, true_and] at hrest
          obtain ⟨-, rfl, hxy⟩ := code_unit_unique hlo hlo' hrest
          exact ⟨rfl, hxy⟩

/-- A text begins with one string. -/
theorem Body.unique (h : Body text s rest) (h' : Body text s' rest') : s = s' ∧ rest = rest' := by
  induction h generalizing s' with
  | close rest =>
      cases h' with
      | close => exact ⟨rfl, rfl⟩
      | char hc _ => exact absurd rfl hc.1
  | char hc _ ih =>
      cases h' with
      | close => exact absurd rfl hc.1
      | char _ h' =>
          obtain ⟨rfl, rfl⟩ := ih h'
          exact ⟨rfl, rfl⟩
      | escape _ _ => exact absurd rfl hc.2.1
  | @escape e c text s rest he _ ih =>
      generalize htext : Sym.char '\\' :: (plain e ++ text) = whole at h'
      cases h' with
      | close => cases htext
      | char hc _ =>
          obtain ⟨hc', -⟩ := List.cons.inj htext
          exact absurd (Sym.char.inj hc').symm hc.2.1
      | escape he' h' =>
          obtain ⟨rfl, rfl⟩ := he.unique he' (List.cons.inj htext).2
          obtain ⟨rfl, rfl⟩ := ih h'
          exact ⟨rfl, rfl⟩
      | hole => cases htext
  | hole v _ ih =>
      cases h' with
      | hole _ h' =>
          obtain ⟨rfl, rfl⟩ := ih h'
          exact ⟨rfl, rfl⟩

/-- What ends a literal or a number. -/
def ends_atom : Sym V → Bool
  | .char c => !atomic c
  | .hole _ => true

theorem longestRun_atom {run : List Char} (hatom : is_atom run = true)
    (hrun : ∀ c ∈ run, atomic c = true) (hend : ∀ c, .char c ∈ text.head? → atomic c = false) :
    LongestRun ends_atom (plain run ++ text) (plain run) text where
  split := rfl
  nonempty := by
    cases run with
    | nil => cases hatom
    | cons c run => exact List.cons_ne_nil _ _
  free x hx := by
    obtain ⟨c, hc, rfl⟩ := List.mem_map.mp hx
    show (!atomic c) = false
    rw [hrun c hc]
    rfl
  stopped x hx := by
    cases x with
    | char c =>
        show (!atomic c) = true
        rw [hend c hx]
        rfl
    | hole v => rfl

theorem not_atomic_of_blank {c : Char} (h : c ∈ [' ', '\t', '\n', '\r']) : atomic c = false := by
  simp only [List.mem_cons, List.not_mem_nil, or_false] at h
  rcases h with rfl | rfl | rfl | rfl <;> rfl

theorem not_atomic_of_punct {c : Char} (h : c ∈ ['{', '}', '[', ']', ':', ',']) :
    atomic c = false := by
  simp only [List.mem_cons, List.not_mem_nil, or_false] at h
  rcases h with rfl | rfl | rfl | rfl | rfl | rfl <;> rfl

/-- What a text that begins with a character can be, by the character. -/
theorem Lexes.head {c : Char} {ts : List (Tok V)} (h : Lexes (.char c :: text) ts) :
    (c ∈ [' ', '\t', '\n', '\r'] ∧ Lexes text ts) ∨
      (c ∈ ['{', '}', '[', ']', ':', ','] ∧ ∃ ts', ts = .punct c :: ts' ∧ Lexes text ts') ∨
      (atomic c = true ∧ ∃ run rest ts', ts = .atom run :: ts' ∧
        LongestRun ends_atom (.char c :: text) (plain run) rest ∧ Lexes rest ts') ∨
      (c = '"' ∧ ∃ s rest ts', ts = .str s :: ts' ∧ Body text s rest ∧ Lexes rest ts') := by
  generalize hwhole : Sym.char c :: text = whole at h
  cases h with
  | done => cases hwhole
  | blank hc h =>
      obtain ⟨hc', rfl⟩ := List.cons.inj hwhole
      obtain rfl := Sym.char.inj hc'
      exact .inl ⟨hc, h⟩
  | punct hc h =>
      obtain ⟨hc', rfl⟩ := List.cons.inj hwhole
      obtain rfl := Sym.char.inj hc'
      exact .inr (.inl ⟨hc, _, rfl, h⟩)
  | @atom run rest ts' hrun hend hatom h =>
      have hlongest := longestRun_atom hatom hrun hend
      have hc := hlongest.head_free hwhole.symm
      refine .inr (.inr (.inl ⟨?_, run, rest, ts', rfl, hwhole ▸ hlongest, h⟩))
      simpa only [ends_atom, Bool.not_eq_false'] using hc
  | str hs h =>
      obtain ⟨hc', rfl⟩ := List.cons.inj hwhole
      exact .inr (.inr (.inr ⟨Sym.char.inj hc', _, _, _, rfl, hs, h⟩))

/-- A text is one sequence of lexemes. -/
theorem Lexes.unique {ts ts' : List (Tok V)} (h : Lexes text ts) (h' : Lexes text ts') :
    ts = ts' := by
  have punct_not_blank : ∀ c ∈ ['{', '}', '[', ']', ':', ','], c ∉ [' ', '\t', '\n', '\r'] := by
    intro c hc
    simp only [List.mem_cons, List.not_mem_nil, or_false] at hc
    rcases hc with rfl | rfl | rfl | rfl | rfl | rfl <;> simp
  -- By induction on the first sequence; the first symbol says which lexeme the second begins with.
  induction h generalizing ts' with
  | done =>
      generalize hwhole : ([] : List (Sym V)) = whole at h'
      cases h' with
      | done => rfl
      | @atom run _ _ _ _ hatom _ =>
          cases run with
          | nil => cases hatom
          | cons d run => cases hwhole
      | _ => cases hwhole
  | @blank c text ts hc _ ih =>
      rcases h'.head with ⟨-, h'⟩ | ⟨hc', -⟩ | ⟨hc', -⟩ | ⟨rfl, -⟩
      · exact ih h'
      · exact absurd hc (punct_not_blank c hc')
      · rw [not_atomic_of_blank hc] at hc'
        cases hc'
      · simp at hc
  | @punct c text ts hc _ ih =>
      rcases h'.head with ⟨hc', -⟩ | ⟨-, ts'', rfl, htail⟩ | ⟨hc', -⟩ | ⟨rfl, -⟩
      · exact absurd hc' (punct_not_blank c hc)
      · rw [ih htail]
      · rw [not_atomic_of_punct hc] at hc'
        cases hc'
      · simp at hc
  | @atom run text ts hrun hend hatom _ ih =>
      obtain ⟨c, run', rfl⟩ : ∃ c run', run = c :: run' := by
        cases run with
        | nil => cases hatom
        | cons c run' => exact ⟨c, run', rfl⟩
      have hlongest := longestRun_atom hatom hrun hend
      have hc := hrun c List.mem_cons_self
      rcases Lexes.head (c := c) h' with ⟨hc', -⟩ | ⟨hc', -⟩ | ⟨-, run'', rest, ts'', rfl, hrun'', htail⟩ |
        ⟨rfl, -⟩
      · rw [not_atomic_of_blank hc'] at hc
        cases hc
      · rw [not_atomic_of_punct hc'] at hc
        cases hc
      · -- Both have read the longest run of such characters.
        obtain ⟨hsame, rfl⟩ := hlongest.unique hrun''
        rw [plain_injective hsame, ih htail]
      · cases hc
  | @str text s rest ts hs _ ih =>
      rcases h'.head with ⟨hc', -⟩ | ⟨hc', -⟩ | ⟨hc', -⟩ | ⟨-, s', rest', ts'', rfl, hs', htail⟩
      · simp at hc'
      · simp at hc'
      · cases hc'
      · obtain ⟨rfl, rfl⟩ := hs.unique hs'
        rw [ih htail]

end Unique

/-- No document begins with a closing bracket or a comma. -/
theorem Doc.tokens_ne {d : Doc V} {c : Char} (hc : c ∈ [']', '}', ',']) {ts us : List (Tok V)} :
    d.tokens ++ ts ≠ .punct c :: us := by
  intro h
  simp only [List.mem_cons, List.not_mem_nil, or_false] at hc
  cases d with
  | atom | str => cases h
  | arr items => cases items <;> (rcases hc with rfl | rfl | rfl <;> cases h)
  | obj members => cases members <;> (rcases hc with rfl | rfl | rfl <;> cases h)

mutual

/-- The lexemes of a document show where it ends. -/
theorem Doc.tokens_unique : ∀ {d d' : Doc V} {ts ts' : List (Tok V)},
    d.tokens ++ ts = d'.tokens ++ ts' → d = d' ∧ ts = ts'
  | .atom text, d', ts, ts', h => by
      cases d' with
      | atom =>
          obtain ⟨hhead, htail⟩ := List.cons.inj h
          rw [Tok.atom.inj hhead]
          exact ⟨rfl, htail⟩
      | str => cases h
      | arr items => cases items <;> cases h
      | obj members => cases members <;> cases h
  | .str s, d', ts, ts', h => by
      cases d' with
      | atom => cases h
      | str =>
          obtain ⟨hhead, htail⟩ := List.cons.inj h
          rw [Tok.str.inj hhead]
          exact ⟨rfl, htail⟩
      | arr items => cases items <;> cases h
      | obj members => cases members <;> cases h
  | .arr .nil, d', ts, ts', h => by
      cases d' with
      | arr items =>
          cases items with
          | nil => exact ⟨rfl, (List.cons.inj (List.cons.inj h).2).2⟩
          | cons d items =>
              simp only [Doc.tokens, List.cons_append, List.append_assoc, List.cons.injEq,
                true_and] at h
              exact absurd h.symm (Doc.tokens_ne (by simp))
      | obj members => cases members <;> cases h
      | _ => cases h
  | .arr (.cons d items), d', ts, ts', h => by
      cases d' with
      | arr items' =>
          cases items' with
          | nil =>
              simp only [Doc.tokens, List.cons_append, List.append_assoc, List.cons.injEq,
                true_and] at h
              exact absurd h (Doc.tokens_ne (by simp))
          | cons d' items' =>
              simp only [Doc.tokens, List.cons_append, List.append_assoc, List.cons.injEq,
                true_and] at h
              obtain ⟨rfl, hmore⟩ := Doc.tokens_unique h
              obtain ⟨rfl, hrest⟩ := Items.more_unique hmore
              exact ⟨rfl, hrest⟩
      | obj members => cases members <;> cases h
      | _ => cases h
  | .obj .nil, d', ts, ts', h => by
      cases d' with
      | obj members =>
          cases members with
          | nil => exact ⟨rfl, (List.cons.inj (List.cons.inj h).2).2⟩
          | cons name d members => cases h
      | arr items => cases items <;> cases h
      | _ => cases h
  | .obj (.cons name d members), d', ts, ts', h => by
      cases d' with
      | obj members' =>
          cases members' with
          | nil => cases h
          | cons name' d' members' =>
              simp only [Doc.tokens, List.cons_append, List.append_assoc, List.cons.injEq,
                true_and, Tok.str.injEq] at h
              obtain ⟨rfl, h⟩ := h
              obtain ⟨rfl, hmore⟩ := Doc.tokens_unique h
              obtain ⟨rfl, hrest⟩ := Members.more_unique hmore
              exact ⟨rfl, hrest⟩
      | arr items => cases items <;> cases h
      | _ => cases h

theorem Items.more_unique : ∀ {items items' : Items V} {ts ts' : List (Tok V)},
    items.more ++ ([.punct ']'] ++ ts) = items'.more ++ ([.punct ']'] ++ ts') →
      items = items' ∧ ts = ts'
  | .nil, .nil, _, _, h => ⟨rfl, (List.cons.inj h).2⟩
  | .nil, .cons _ _, _, _, h => by cases h
  | .cons _ _, .nil, _, _, h => by cases h
  | .cons d items, .cons d' items', ts, ts', h => by
      simp only [Items.more, List.cons_append, List.append_assoc, List.cons.injEq, true_and] at h
      obtain ⟨rfl, hmore⟩ := Doc.tokens_unique h
      obtain ⟨rfl, hrest⟩ := Items.more_unique hmore
      exact ⟨rfl, hrest⟩

theorem Members.more_unique : ∀ {members members' : Members V} {ts ts' : List (Tok V)},
    members.more ++ ([.punct '}'] ++ ts) = members'.more ++ ([.punct '}'] ++ ts') →
      members = members' ∧ ts = ts'
  | .nil, .nil, _, _, h => ⟨rfl, (List.cons.inj h).2⟩
  | .nil, .cons _ _ _, _, _, h => by cases h
  | .cons _ _ _, .nil, _, _, h => by cases h
  | .cons name d members, .cons name' d' members', ts, ts', h => by
      simp only [Members.more, List.cons_append, List.append_assoc, List.cons.injEq, true_and,
        Tok.str.injEq] at h
      obtain ⟨rfl, h⟩ := h
      obtain ⟨rfl, hmore⟩ := Doc.tokens_unique h
      obtain ⟨rfl, hrest⟩ := Members.more_unique hmore
      exact ⟨rfl, hrest⟩

end

/-- **A text is one document.** -/
theorem Denotes.unique {text : List (Sym V)} {d d' : Doc V} (h : Denotes text d)
    (h' : Denotes text d') : d = d' := by
  have htokens : d.tokens ++ [] = d'.tokens ++ [] := by
    rw [List.append_nil, List.append_nil]
    exact Lexes.unique h h'
  exact (Doc.tokens_unique htokens).1

end Lib.JsonText
