import Mathlib.Algebra.Ring.Int.Defs
import Mathlib.Data.Rat.Defs

/-!
# JSON documents

A JSON value as a dictionary-based reader sees it, with the conversions and the
exceptions of such a reader. An object is a list of members; of two members of
one name the first counts.

## Main definitions

- `Json`, `Dict` — values and objects
- `Dict.get?`, `Dict.item`, `Dict.hasKeys` — lookups
- `Json.toInt` — the integer conversion
- `Json.get?`, `Json.asU64`, `Json.asStr` — the accessors that fail with `none`
- `Json.mentions` — some name or string of the value spells a word
-/

namespace Wafer.Lib

inductive Json
  | null
  | bool (value : Bool)
  | int (value : ℤ)
  | float (value : ℚ)
  | str (text : String)
  | arr (items : List Json)
  | obj (members : List (String × Json))

abbrev Dict := List (String × Json)

inductive ReadError
  | value (message : String)
  | key (name : String)
  | type
  deriving DecidableEq, Repr

namespace Json

/-- Equality with an integer, across the number types. -/
def isInt (n : ℤ) : Json → Bool
  | bool b => (if b then 1 else 0) = n
  | int m => m = n
  | float q => q = n
  | _ => false

def isStr (s : String) : Json → Bool
  | str text => text = s
  | _ => false

def isNull : Json → Bool
  | null => true
  | _ => false

/-- Neither `None`, `False`, zero nor empty. -/
def truthy : Json → Bool
  | null => false
  | bool b => b
  | int n => n ≠ 0
  | float q => q ≠ 0
  | str text => text ≠ ""
  | arr items => !items.isEmpty
  | obj members => !members.isEmpty

/-- The integer a value converts to; a float is truncated. -/
def toInt : Json → Except ReadError ℤ
  | bool b => .ok (if b then 1 else 0)
  | int n => .ok n
  | float q => .ok (q.num.tdiv q.den)
  | str text =>
    match text.toInt? with
    | some n => .ok n
    | none => .error (.value ("invalid literal for int() with base 10: '" ++ text ++ "'"))
  | _ => .error .type

/-- In the serialised text `"word"` occurs at this string: it is the word, or ends with a quote
and the word. -/
def spells (word text : String) : Bool :=
  text = word || ('"' :: word.toList) <:+ text.toList

mutual

/-- `"word"` occurs in the serialised text of the value. Between two neighbouring quotes of that
text stands the whole or the end of a string, or punctuation. -/
def mentions (word : String) : Json → Bool
  | str text => spells word text
  | arr items => anyMentions word items
  | obj members => anyMemberMentions word members
  | _ => false

def anyMentions (word : String) : List Json → Bool
  | [] => false
  | item :: rest => mentions word item || anyMentions word rest

def anyMemberMentions (word : String) : List (String × Json) → Bool
  | [] => false
  | (name, item) :: rest => spells word name || mentions word item || anyMemberMentions word rest

end

theorem anyMentions_eq_false {word : String} {items : List Json}
    (h : ∀ item ∈ items, mentions word item = false) : anyMentions word items = false := by
  induction items with
  | nil => rfl
  | cons item rest ih =>
    rw [anyMentions, h item (by simp), ih fun i hi => h i (by simp [hi])]
    rfl

theorem anyMemberMentions_eq_false {word : String} {members : List (String × Json)}
    (hnames : ∀ name ∈ members.map Prod.fst, spells word name = false)
    (hvalues : ∀ value ∈ members.map Prod.snd, mentions word value = false) :
    anyMemberMentions word members = false := by
  induction members with
  | nil => rfl
  | cons member rest ih =>
    obtain ⟨name, value⟩ := member
    rw [anyMemberMentions, hnames name (by simp), hvalues value (by simp),
      ih (fun n hn => hnames n (by simp [hn])) (fun v hv => hvalues v (by simp [hv]))]
    rfl

end Json

namespace Dict

def get? : Dict → String → Option Json
  | [], _ => none
  | (name, value) :: rest, key => if name = key then some value else get? rest key

def item (d : Dict) (key : String) : Except ReadError Json :=
  match d.get? key with
  | some value => .ok value
  | none => .error (.key key)

def hasKeys (d : Dict) (names : List String) : Bool := names.all fun name => (d.get? name).isSome

/-- The integer behind a key. -/
def intItem (d : Dict) (key : String) : Except ReadError ℤ :=
  match d.item key with
  | .ok value => value.toInt
  | .error e => .error e

end Dict

namespace Json

/-- The member of a name; only an object has members. -/
def get? : Json → String → Option Json
  | obj members, name => Dict.get? members name
  | _, _ => none

def asU64 : Json → Option ℕ
  | int n => if 0 ≤ n ∧ n < 2 ^ 64 then some n.toNat else none
  | _ => none

def asStr : Json → Option String
  | str text => some text
  | _ => none

end Json

end Wafer.Lib
