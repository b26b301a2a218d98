import Wafer.Lib.Decimal
import Wafer.Lib.Text
import Wafer.Node.Wasm

/-!
# Native baselines

The functions a native transform or filter runs in the place of a plugin. Texts
are character lists. Numbers are the values of a type `F` that `round` assigns
to decimal literals, as the `f64` parser does.

## Main definitions

- `extractJsonNumber` — the number after a quoted key and its colon
- `rangeFilter`, `thresholdFilter` — the predicates of the native filters
- `NativeFilter.range`, `NativeFilter.threshold`
-/

namespace Wafer

open Lib

/-- `format!("\"{field}\"")`. -/
def quoted (key : String) : List Char := '"' :: key.toList ++ ['"']

section Numbers

variable {F : Type*} (round : Literal → F)

/-- `str::parse::<f64>().ok()`. -/
def parseNumber (text : List Char) : Option F := (Literal.parse text).map round

def isNumeric (c : Char) : Bool := c.isDigit || c = '.' || c = '-'

/-- The number behind `"field":`, read up to the first character that is no digit, point or
minus sign. -/
def extractJsonNumber (json : List Char) (field : String) : Option F :=
  match after (quoted field) json with
  | none => none
  | some afterKey =>
    match trimStart isWhitespace afterKey with
    | ':' :: afterColon =>
      parseNumber round (upTo (fun c => !isNumeric c) (trimStart isWhitespace afterColon))
    | _ => none

/-- Strictly above the threshold on `temperature`. -/
def thresholdFilter [LT F] [DecidableLT F] (threshold : F) (payload : List UInt8) : Bool :=
  match fromUtf8 payload with
  | none => false
  | some text =>
    match extractJsonNumber round text "temperature" with
    | none => false
    | some t => decide (threshold < t)

/-- The range predicate, inclusive at both ends. -/
def rangeFilter [LE F] [DecidableLE F] (field : String) (min max : F) (payload : List UInt8) : Bool :=
  match fromUtf8 payload with
  | none => false
  | some text =>
    match extractJsonNumber round text field with
    | none => false
    | some v => decide (min ≤ v) && decide (v ≤ max)

namespace NativeFilter

def range [LE F] [DecidableLE F] (id field : String) (min max : F) : NativeFilter :=
  ⟨id, fun envelope => rangeFilter round field min max envelope.payload⟩

def threshold [LT F] [DecidableLT F] (id : String) (threshold : F) : NativeFilter :=
  ⟨id, fun envelope => thresholdFilter round threshold envelope.payload⟩

end NativeFilter

end Numbers

end Wafer
