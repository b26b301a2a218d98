import Mathlib.Data.List.TakeWhile
import Wafer.Lib.Decimal

/-!
# JSON texts

A JSON reader on texts: strings with their escapes, numbers kept as the literal
that spells them, arrays and objects with blanks between the tokens. An object
is the list of its members in the order of the text.

## Main definitions

- `JsonText.Value` — what a text denotes
- `JsonText.scanString` — the string behind an opening quote
- `JsonText.isNumber` — the literals JSON takes for numbers
- `JsonText.parse` — the value a whole text spells, if it spells one

## Main results

- `JsonText.scanString_plain` — a string without quotes, backslashes and controls is read as it is
- `JsonText.isNumber_toDigits`, `JsonText.natural?_toDigits` — printed numbers are read back
-/

namespace Wafer.Lib

namespace JsonText

inductive Value
  | null
  | bool (value : Bool)
  | num (literal : List Char)
  | str (text : List Char)
  | arr (items : List Value)
  | obj (members : List (List Char × Value))

def isBlank (c : Char) : Bool := c = ' ' || c = '\t' || c = '\n' || c = '\r'

theorem nil_blank : ∀ c ∈ ([] : List Char), isBlank c = true := nofun

def skip (text : List Char) : List Char := text.dropWhile isBlank

/-- Characters that may stand in a string only behind an escape. -/
def isControl (c : Char) : Bool := c.toNat < 0x20

/-! ### Strings -/

def hexValue (c : Char) : Option ℕ :=
  if c.isDigit then some (c.toNat - '0'.toNat)
  else if 'a' ≤ c ∧ c ≤ 'f' then some (c.toNat - 'a'.toNat + 10)
  else if 'A' ≤ c ∧ c ≤ 'F' then some (c.toNat - 'A'.toNat + 10)
  else none

/-- The number four hexadecimal digits spell. -/
def hex4 (a b c d : Char) : Option ℕ := do
  let a ← hexValue a
  let b ← hexValue b
  let c ← hexValue c
  let d ← hexValue d
  return ((a * 16 + b) * 16 + c) * 16 + d

def simpleEscape (c : Char) : Option Char :=
  if c = '"' ∨ c = '\\' ∨ c = '/' then some c
  else if c = 'b' then some '\x08'
  else if c = 'f' then some '\x0c'
  else if c = 'n' then some '\n'
  else if c = 'r' then some '\r'
  else if c = 't' then some '\t'
  else none

/-- The character a `u` escape stands for, and how many characters the escape has behind the
backslash. A pair of surrogates is one character, a surrogate alone is none. -/
def unicodeEscape : List Char → Option (Char × ℕ)
  | a :: b :: c :: d :: rest =>
    match hex4 a b c d with
    | none => none
    | some code =>
      if 0xD800 ≤ code ∧ code < 0xDC00 then
        match rest with
        | s :: u :: a :: b :: c :: d :: _ =>
          if s = '\\' ∧ u = 'u' then
            match hex4 a b c d with
            | none => none
            | some low =>
              if 0xDC00 ≤ low ∧ low < 0xE000 then
                some (Char.ofNat (0x10000 + (code - 0xD800) * 0x400 + (low - 0xDC00)), 11)
              else none
          else none
        | _ => none
      else if 0xDC00 ≤ code ∧ code < 0xE000 then none
      else some (Char.ofNat code, 5)
  | _ => none

/-- The character the escape behind a backslash stands for, and the length of the escape. -/
def escape : List Char → Option (Char × ℕ)
  | [] => none
  | e :: rest => if e = 'u' then unicodeEscape rest else (simpleEscape e).map fun c => (c, 1)

/-- A character in front of a scanned rest. -/
def push (c : Char) (scanned : Option (List Char × List Char)) : Option (List Char × List Char) :=
  scanned.map fun s => (c :: s.1, s.2)

/-- The string up to the first quote that is not escaped, and the text behind that quote. The
first `passed` characters belong to an escape that is already read. -/
def scanFrom : ℕ → List Char → Option (List Char × List Char)
  | _, [] => none
  | passed + 1, _ :: rest => scanFrom passed rest
  | 0, c :: rest =>
    if c = '"' then some ([], rest)
    else if c = '\\' then
      match escape rest with
      | none => none
      | some (x, length) => push x (scanFrom length rest)
    else if isControl c then none
    else push c (scanFrom 0 rest)

def scanString (text : List Char) : Option (List Char × List Char) := scanFrom 0 text

/-! ### Numbers -/

/-- The exponent and decimals of an unsigned literal; JSON wants a digit behind the point. -/
def isFraction (text : List Char) : Bool :=
  (Literal.exponent? (Literal.fraction text).2).isSome &&
    (text.head? != some '.' || (Literal.fraction text).1 != [])

/-- An unsigned literal: digits without a needless zero in front, decimals, exponent. -/
def isUnsigned (text : List Char) : Bool :=
  let whole := text.takeWhile Char.isDigit
  whole != [] && (whole.head? != some '0' || whole == ['0']) &&
    isFraction (text.dropWhile Char.isDigit)

def isNumber : List Char → Bool
  | '-' :: text => isUnsigned text
  | text => isUnsigned text

def isNumberChar (c : Char) : Bool :=
  c.isDigit || c = '-' || c = '+' || c = '.' || c = 'e' || c = 'E'

/-! ### Values -/

/-- A literal of the text, with the text behind it. -/
def scalar (text : List Char) : Option (Value × List Char) :=
  if "null".toList <+: text then some (.null, text.drop 4)
  else if "true".toList <+: text then some (.bool true, text.drop 4)
  else if "false".toList <+: text then some (.bool false, text.drop 5)
  else if isNumber (text.takeWhile isNumberChar) then
    some (.num (text.takeWhile isNumberChar), text.dropWhile isNumberChar)
  else none

mutual

/-- The value at the start of the text, with the text behind it. -/
def value : ℕ → List Char → Option (Value × List Char)
  | 0, _ => none
  | fuel + 1, text =>
    match text with
    | '"' :: rest => (scanString rest).map fun s => (.str s.1, s.2)
    | '{' :: rest =>
      match skip rest with
      | '}' :: rest => some (.obj [], rest)
      | rest => (members fuel rest).map fun m => (.obj m.1, m.2)
    | '[' :: rest =>
      match skip rest with
      | ']' :: rest => some (.arr [], rest)
      | rest => (elements fuel rest).map fun e => (.arr e.1, e.2)
    | text => scalar text

/-- The members up to the closing brace. -/
def members : ℕ → List Char → Option (List (List Char × Value) × List Char)
  | 0, _ => none
  | fuel + 1, text =>
    match text with
    | '"' :: rest =>
      match scanString rest with
      | none => none
      | some (name, rest) =>
        match skip rest with
        | ':' :: rest =>
          match value fuel (skip rest) with
          | none => none
          | some (v, rest) =>
            match skip rest with
            | ',' :: rest => (members fuel (skip rest)).map fun m => ((name, v) :: m.1, m.2)
            | '}' :: rest => some ([(name, v)], rest)
            | _ => none
        | _ => none
    | _ => none

/-- The elements up to the closing bracket. -/
def elements : ℕ → List Char → Option (List Value × List Char)
  | 0, _ => none
  | fuel + 1, text =>
    match value fuel text with
    | none => none
    | some (v, rest) =>
      match skip rest with
      | ',' :: rest => (elements fuel (skip rest)).map fun e => (v :: e.1, e.2)
      | ']' :: rest => some ([v], rest)
      | _ => none

end

/-- The value the whole text spells. Every call of the reader takes a character or more, so the
length of the text is fuel enough. -/
def parse (text : List Char) : Option Value :=
  match value (text.length + 1) (skip text) with
  | some (v, rest) => if skip rest = [] then some v else none
  | none => none

/-! ### Reading back -/

/-- A string that may stand between quotes as it is. -/
def Plain (text : List Char) : Prop :=
  ∀ c ∈ text, c ≠ '"' ∧ c ≠ '\\' ∧ isControl c = false

instance (text : List Char) : Decidable (Plain text) :=
  List.decidableBAll _ text

theorem scanFrom_eq (passed : ℕ) (text : List Char) :
    scanFrom passed text = scanString (text.drop passed) := by
  induction passed generalizing text with
  | zero => rfl
  | succ passed ih =>
    cases text with
    | nil => rfl
    | cons c rest => exact ih rest

theorem scanString_cons {c : Char} (rest : List Char) (hq : c ≠ '"') (hb : c ≠ '\\')
    (hc : isControl c = false) : scanString (c :: rest) = push c (scanString rest) := by
  rw [scanString, scanFrom, if_neg hq, if_neg hb, hc]
  rfl

theorem scanString_backslash (rest : List Char) :
    scanString ('\\' :: rest) =
      (escape rest).bind fun e => push e.1 (scanString (rest.drop e.2)) := by
  rw [scanString, scanFrom, if_neg (by decide), if_pos rfl]
  cases escape rest with
  | none => rfl
  | some e => simp only [Option.bind_some, scanFrom_eq]

theorem scanString_plain {text : List Char} (h : Plain text) (rest : List Char) :
    scanString (text ++ '"' :: rest) = some (text, rest) := by
  induction text with
  | nil => rfl
  | cons c text ih =>
    obtain ⟨hq, hb, hc⟩ := h c (by simp)
    rw [List.cons_append, scanString_cons _ hq hb hc, ih fun x hx => h x (by simp [hx])]
    rfl

theorem skip_of_not_blank {c : Char} {rest : List Char} (h : isBlank c = false) :
    skip (c :: rest) = c :: rest := by
  rw [skip, List.dropWhile_cons_of_neg (by simp [h])]

/-! ### Printed numbers -/

/-- The last digit is printed behind the others. -/
theorem toDigits_of_le {n : ℕ} (h : 10 ≤ n) :
    Nat.toDigits 10 n = Nat.toDigits 10 (n / 10) ++ [(n % 10).digitChar] := by
  have hmod : n % 10 < 10 := by omega
  have hsplit := Nat.toDigits_append_toDigits (b := 10) (n := n / 10) (d := n % 10)
    (by omega) (by omega) hmod
  rw [Nat.div_add_mod, Nat.toDigits_of_lt_base hmod] at hsplit
  exact hsplit.symm

theorem toDigits_ne_nil (n : ℕ) : Nat.toDigits 10 n ≠ [] := by
  rcases Nat.lt_or_ge n 10 with hlt | hge
  · simp [Nat.toDigits_of_lt_base hlt]
  · simp [toDigits_of_le hge]

theorem isDigit_toDigits {n : ℕ} : ∀ c ∈ Nat.toDigits 10 n, c.isDigit = true :=
  fun _ hc => Nat.isDigit_of_mem_toDigits (by omega) (by omega) hc

theorem digitsValue_concat (front : List Char) (c : Char) :
    Literal.digitsValue (front ++ [c]) = 10 * Literal.digitsValue front + (c.toNat - 48) := by
  simp [Literal.digitsValue]

theorem digitsValue_toDigits (n : ℕ) : Literal.digitsValue (Nat.toDigits 10 n) = n := by
  induction n using Nat.strong_induction_on with
  | h n ih =>
    rcases Nat.lt_or_ge n 10 with hlt | hge
    · rw [Nat.toDigits_of_lt_base hlt, ← List.nil_append [n.digitChar], digitsValue_concat,
        Nat.toNat_digitChar_sub_48_of_lt_ten hlt]
      simp [Literal.digitsValue]
    · rw [toDigits_of_le hge, digitsValue_concat, ih (n / 10) (by omega),
        Nat.toNat_digitChar_sub_48_of_lt_ten (by omega)]
      omega

/-- Only zero is printed with a zero in front. -/
theorem head?_toDigits (n : ℕ) :
    (Nat.toDigits 10 n).head? = some '0' → Nat.toDigits 10 n = ['0'] := by
  induction n using Nat.strong_induction_on with
  | h n ih =>
    rcases Nat.lt_or_ge n 10 with hlt | hge
    · rw [Nat.toDigits_of_lt_base hlt]
      intro h
      exact congrArg (fun c => [c]) (Option.some.inj h)
    · intro h
      have hfront : (Nat.toDigits 10 (n / 10)).head? = some '0' := by
        rw [toDigits_of_le hge] at h
        obtain ⟨c, rest, hcons⟩ := List.exists_cons_of_ne_nil (toDigits_ne_nil (n / 10))
        rw [hcons] at h ⊢
        exact h
      have hzero := digitsValue_toDigits (n / 10)
      rw [ih (n / 10) (by omega) hfront] at hzero
      have : Literal.digitsValue ['0'] = 0 := rfl
      omega

theorem natural?_toDigits (n : ℕ) : Literal.natural? (Nat.toDigits 10 n) = some n := by
  have hall : (Nat.toDigits 10 n).all Char.isDigit = true := List.all_eq_true.mpr isDigit_toDigits
  rw [Literal.natural?, if_pos ⟨toDigits_ne_nil n, hall⟩, digitsValue_toDigits]

theorem isNumber_toDigits (n : ℕ) : isNumber (Nat.toDigits 10 n) = true := by
  have hdigits := @isDigit_toDigits n
  have hzero := head?_toDigits n
  have hne := toDigits_ne_nil n
  generalize Nat.toDigits 10 n = text at hdigits hzero hne
  have hwhole : text.takeWhile Char.isDigit = text := List.takeWhile_eq_self_iff.mpr hdigits
  have hrest : text.dropWhile Char.isDigit = [] := List.dropWhile_eq_nil_iff.mpr hdigits
  have hunsigned : isUnsigned text = true := by
    simp only [isUnsigned, hwhole, hrest]
    by_cases h0 : text.head? = some '0'
    · rw [hzero h0]
      rfl
    · simp only [bne_iff_ne, ne_eq, Bool.and_eq_true, Bool.or_eq_true, hne, not_false_eq_true, h0,
        true_or, true_and]
      rfl
  cases text with
  | nil => exact absurd rfl hne
  | cons c rest =>
    have hc : c ≠ '-' := by
      rintro rfl
      exact absurd (hdigits '-' (by simp)) (by decide)
    rw [isNumber]
    · exact hunsigned
    · rintro _ ⟨rfl, -⟩
      exact hc rfl

/-! ### Steps of the reader -/

variable {fuel : ℕ} {text rest rest' : List Char} {name : List Char} {v : Value}

-- The equations of the three readers are derived here, once for all the lemmas below.
attribute [local simp] value members elements in
theorem value_string (fuel : ℕ) (rest : List Char) :
    value (fuel + 1) ('"' :: rest) = (scanString rest).map fun s => (.str s.1, s.2) := by
  simp

theorem value_toDigits (fuel n : ℕ) {c : Char} (hc : isNumberChar c = false) (rest : List Char) :
    value (fuel + 1) (Nat.toDigits 10 n ++ c :: rest) =
      some (.num (Nat.toDigits 10 n), c :: rest) := by
  have hdigits := @isDigit_toDigits n
  have hnumber := isNumber_toDigits n
  have hne := toDigits_ne_nil n
  generalize Nat.toDigits 10 n = digits at hdigits hnumber hne
  have hchars : ∀ x ∈ digits, isNumberChar x = true := by
    intro x hx
    simp [isNumberChar, hdigits x hx]
  have htake : (digits ++ c :: rest).takeWhile isNumberChar = digits := by
    rw [List.takeWhile_append_of_pos hchars, List.takeWhile_cons_of_neg (by simp [hc]),
      List.append_nil]
  have hdrop : (digits ++ c :: rest).dropWhile isNumberChar = c :: rest := by
    rw [List.dropWhile_append_of_pos hchars, List.dropWhile_cons_of_neg (by simp [hc])]
  obtain ⟨d, tail, hcons⟩ := List.exists_cons_of_ne_nil hne
  have hd : ∀ x, x.isDigit = false → d ≠ x := by
    rintro x hx rfl
    rw [hdigits d (by simp [hcons])] at hx
    cases hx
  have hhead : ∀ x, x.isDigit = false → ∀ t, digits ++ c :: rest ≠ x :: t := by
    intro x hx t he
    rw [hcons, List.cons_append] at he
    exact hd x hx (List.cons.inj he).1
  have hscalar : scalar (digits ++ c :: rest) = some (.num digits, c :: rest) := by
    have hword : ∀ w : Char, w.isDigit = false → ∀ ws, ¬ w :: ws <+: digits ++ c :: rest := by
      rintro w hw ws ⟨t, ht⟩
      exact hhead w hw (ws ++ t) ht.symm
    have hnull : ¬ "null".toList <+: digits ++ c :: rest := hword 'n' (by decide) _
    have htrue : ¬ "true".toList <+: digits ++ c :: rest := hword 't' (by decide) _
    have hfalse : ¬ "false".toList <+: digits ++ c :: rest := hword 'f' (by decide) _
    rw [scalar, if_neg hnull, if_neg htrue, if_neg hfalse, htake, if_pos hnumber, hdrop]
  rw [value]
  · exact hscalar
  · exact fun t he => hhead '"' (by decide) t he
  · exact fun t he => hhead '\x7b' (by decide) t he
  · exact fun t he => hhead '[' (by decide) t he

/-- A member with a further one behind it. -/
theorem members_cons {r r' : List Char} (hname : scanString text = some (name, ':' :: rest))
    (hvalue : value fuel (skip rest) = some (v, r)) (hcomma : skip r = ',' :: r') :
    members (fuel + 1) ('"' :: text) =
      (members fuel (skip r')).map fun m => ((name, v) :: m.1, m.2) := by
  have hcolon : skip (':' :: rest) = ':' :: rest := skip_of_not_blank (by decide)
  simp only [members, hname, hcolon, hvalue, hcomma]

/-- The last member. -/
theorem members_last {r r' : List Char} (hname : scanString text = some (name, ':' :: rest))
    (hvalue : value fuel (skip rest) = some (v, r)) (hbrace : skip r = '\x7d' :: r') :
    members (fuel + 1) ('"' :: text) = some ([(name, v)], r') := by
  have hcolon : skip (':' :: rest) = ':' :: rest := skip_of_not_blank (by decide)
  simp only [members, hname, hcolon, hvalue, hbrace]

/-- What the reader found when it read members. -/
theorem members_eq_some {ms : List (List Char × Value)} {r : List Char}
    (h : members fuel ('"' :: text) = some (ms, r)) :
    ∃ n name r₁ r₂ v r₃ more, fuel = n + 1 ∧ scanString text = some (name, r₁) ∧
      skip r₁ = ':' :: r₂ ∧ value n (skip r₂) = some (v, r₃) ∧ ms = (name, v) :: more ∧
      (skip r₃ = '\x7d' :: r ∧ more = [] ∨
        ∃ r₄, skip r₃ = ',' :: r₄ ∧ members n (skip r₄) = some (more, r)) := by
  cases fuel with
  | zero => simp [members] at h
  | succ n =>
    rw [members] at h
    split at h
    · cases h
    · next name r₁ hname =>
      split at h
      · next r₂ hcolon =>
        split at h
        · cases h
        · next v r₃ hvalue =>
          split at h
          · next r₄ hcomma =>
            obtain ⟨m, hm, heq⟩ := Option.map_eq_some_iff.mp h
            obtain ⟨rfl, rfl⟩ := Prod.mk.inj heq
            exact ⟨n, name, r₁, r₂, v, r₃, m.1, rfl, hname, hcolon, hvalue, rfl,
              .inr ⟨r₄, hcomma, hm⟩⟩
          · next r₄ hbrace =>
            obtain ⟨rfl, rfl⟩ := Prod.mk.inj (Option.some.inj h)
            exact ⟨n, name, r₁, r₂, v, r₃, [], rfl, hname, hcolon, hvalue, rfl,
              .inl ⟨hbrace, rfl⟩⟩
          · cases h
      · cases h

theorem value_object (fuel : ℕ) (rest : List Char) :
    value (fuel + 1) ('\x7b' :: '"' :: rest) =
      (members fuel ('"' :: rest)).map fun m => (.obj m.1, m.2) := by
  have hskip : skip ('"' :: rest) = '"' :: rest := skip_of_not_blank (by decide)
  rw [value, hskip]
  rfl

theorem value_array (fuel : ℕ) {c : Char} (hc : isBlank c = false) (hb : c ≠ ']')
    (rest : List Char) :
    value (fuel + 1) ('[' :: c :: rest) =
      (elements fuel (c :: rest)).map fun e => (.arr e.1, e.2) := by
  have hskip : skip (c :: rest) = c :: rest := skip_of_not_blank hc
  rw [value, hskip]
  split
  · next he => exact absurd (List.cons.inj he).1 hb
  · rfl

theorem elements_cons {r r' : List Char} (hvalue : value fuel text = some (v, r))
    (hcomma : skip r = ',' :: r') :
    elements (fuel + 1) text = (elements fuel (skip r')).map fun e => (v :: e.1, e.2) := by
  simp only [elements, hvalue, hcomma]

theorem elements_last {r r' : List Char} (hvalue : value fuel text = some (v, r))
    (hbracket : skip r = ']' :: r') : elements (fuel + 1) text = some ([v], r') := by
  simp only [elements, hvalue, hbracket]

/-- What the reader found when it read elements. -/
theorem elements_eq_some {vs : List Value} {r : List Char}
    (h : elements fuel text = some (vs, r)) :
    ∃ n v r₁ more, fuel = n + 1 ∧ value n text = some (v, r₁) ∧ vs = v :: more ∧
      (skip r₁ = ']' :: r ∧ more = [] ∨
        ∃ r₂, skip r₁ = ',' :: r₂ ∧ elements n (skip r₂) = some (more, r)) := by
  cases fuel with
  | zero => simp [elements] at h
  | succ n =>
    rw [elements] at h
    split at h
    · cases h
    · next v r₁ hvalue =>
      split at h
      · next r₂ hcomma =>
        obtain ⟨e, he, heq⟩ := Option.map_eq_some_iff.mp h
        obtain ⟨rfl, rfl⟩ := Prod.mk.inj heq
        exact ⟨n, v, r₁, e.1, rfl, hvalue, rfl, .inr ⟨r₂, hcomma, he⟩⟩
      · next r₂ hbracket =>
        obtain ⟨rfl, rfl⟩ := Prod.mk.inj (Option.some.inj h)
        exact ⟨n, v, r₁, [], rfl, hvalue, rfl, .inl ⟨hbracket, rfl⟩⟩
      · cases h

end JsonText

end Wafer.Lib
