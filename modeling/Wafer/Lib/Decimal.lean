import Mathlib.Algebra.Order.Field.Rat
import Mathlib.Order.WithBotTop

/-!
# Decimal literals

The texts a floating-point parser takes for numbers: an optional sign, then
digits with at most one point and an optional exponent, or one of the words
`inf`, `infinity` and `nan` in any case. A literal is kept exact; rounding it to
a binary format is left to the user of this file.

## Main definitions

- `Literal` — what a text denotes before rounding
- `Literal.parse` — the literal a whole text spells, if it spells one
- `Literal.value?` — its exact value in the rationals with both infinities
-/

namespace Wafer.Lib

/-- `number n m e` is `±m · 10 ^ e`, negative when `n` is set. -/
inductive Literal
  | number (negative : Bool) (significand : ℕ) (exponent : ℤ)
  | infinity (negative : Bool)
  | nan (negative : Bool)
  deriving DecidableEq, Repr

namespace Literal

def digitsValue (digits : List Char) : ℕ :=
  digits.foldl (fun n c => 10 * n + (c.toNat - '0'.toNat)) 0

/-- A non-empty text of digits. -/
def natural? (text : List Char) : Option ℕ :=
  if text ≠ [] ∧ text.all Char.isDigit then some (digitsValue text) else none

/-- What may follow the digits: nothing, or `e` with a signed natural number. -/
def exponent? : List Char → Option ℤ
  | [] => some 0
  | c :: rest =>
    if c = 'e' ∨ c = 'E' then
      match rest with
      | '-' :: digits => (natural? digits).map fun n => -(n : ℤ)
      | '+' :: digits => (natural? digits).map fun n => (n : ℤ)
      | digits => (natural? digits).map fun n => (n : ℤ)
    else none

/-- The digits after the point, if there is one, and what follows them. -/
def fraction : List Char → List Char × List Char
  | '.' :: rest => (rest.takeWhile Char.isDigit, rest.dropWhile Char.isDigit)
  | rest => ([], rest)

/-- Significand and exponent of an unsigned number. -/
def number? (text : List Char) : Option (ℕ × ℤ) :=
  let whole := text.takeWhile Char.isDigit
  let (decimals, tail) := fraction (text.dropWhile Char.isDigit)
  if whole ++ decimals = [] then none
  else (exponent? tail).map fun e => (digitsValue (whole ++ decimals), e - decimals.length)

def unsigned (negative : Bool) (text : List Char) : Option Literal :=
  match number? text with
  | some (significand, exponent) => some (number negative significand exponent)
  | none =>
    let word := text.map Char.toLower
    if word = "inf".toList ∨ word = "infinity".toList then some (infinity negative)
    else if word = "nan".toList then some (nan negative)
    else none

/-- The literal the whole text spells. -/
def parse : List Char → Option Literal
  | '-' :: text => unsigned true text
  | '+' :: text => unsigned false text
  | text => unsigned false text

/-- The exact value; not a number has none. -/
def value? : Literal → Option (WithBot (WithTop ℚ))
  | number negative significand exponent =>
    let magnitude : ℚ := significand * 10 ^ exponent
    some (if negative then -magnitude else magnitude : ℚ)
  | infinity negative => some (if negative then ⊥ else ((⊤ : WithTop ℚ) : WithBot (WithTop ℚ)))
  | nan _ => none

/-- The order of the exact values; not a number is comparable to nothing. -/
instance : LE Literal :=
  ⟨fun a b => ∃ x ∈ a.value?, ∃ y ∈ b.value?, x ≤ y⟩

instance : DecidableLE Literal := fun a b =>
  inferInstanceAs (Decidable (∃ x ∈ a.value?, ∃ y ∈ b.value?, x ≤ y))

instance : LT Literal := ⟨fun a b => a ≤ b ∧ ¬ b ≤ a⟩

instance : DecidableLT Literal := fun a b => inferInstanceAs (Decidable (a ≤ b ∧ ¬ b ≤ a))

end Literal

end Wafer.Lib
