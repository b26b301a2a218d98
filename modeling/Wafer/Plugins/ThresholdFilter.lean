import Wafer.Node.Native

/-!
# The threshold filter plugin

The filter guest that keeps a message when a number of its JSON payload lies in
a configured range, its configuration parser and its field extraction, and how
the native range filter that stands in for it compares.

## Main definitions

- `ThresholdFilter.parseFilterConfig`, `validate`, `init`, `evaluate` — the guest
- `ThresholdFilter.extractNumber` — its field extraction
- `ThresholdFilter.ReadAlike` — the member texts both extractions read alike

## Main results

- `ThresholdFilter.rangeFilter_eq_keeps` — on which payloads native filter and plugin agree
-/

namespace Wafer.ThresholdFilter

open Lib

variable {F : Type*} (round : Literal → F)

structure FilterConfig (F : Type*) where
  field : String
  min : F
  max : F
  deriving DecidableEq, Repr

/-- The text before the first quote that no backslash precedes. -/
def untilUnescapedQuote : List Char → Option (List Char)
  | [] => none
  | '"' :: _ => some []
  | '\\' :: c :: rest => (untilUnescapedQuote rest).map fun value => '\\' :: c :: value
  | c :: rest => (untilUnescapedQuote rest).map fun value => c :: value

def isAsciiWhitespace (c : Char) : Bool :=
  c = ' ' || c = '\t' || c = '\n' || c = '\r' || c = '\x0c'

/-- The string behind a quoted key. Exactly one colon or blank is skipped before the blanks in
front of the value. -/
def extractStringValue (json : List Char) (key : String) : Option String :=
  match after (quoted key) json with
  | none | some [] => none
  | some (c :: afterColon) =>
    if isAsciiWhitespace c || c = ':' then
      match trimStart isWhitespace afterColon with
      | '"' :: value => (untilUnescapedQuote value).map String.ofList
      | _ => none
    else none

def isDelimiter (c : Char) : Bool := c = ',' || c = '}' || c = ']' || c = '\n' || c = '\r'

/-- The number behind the first colon after a quoted key, read up to a comma, a closing bracket
or the end of the line. -/
def extractNumber (json : List Char) (key : String) : Option F :=
  match after (quoted key) json with
  | none => none
  | some afterKey =>
    match splitFirst (· = ':') afterKey with
    | none => none
    | some (_, afterColon) =>
      parseNumber round
        (trim isWhitespace (upTo isDelimiter (trimStart isWhitespace afterColon)))

def parseFilterConfig [LT F] [DecidableLT F] (json : List Char) : Except String (FilterConfig F) :=
  match extractStringValue json "field" with
  | none => .error "missing or invalid 'field' in config"
  | some field =>
    match extractNumber round json "min" with
    | none => .error "missing or invalid 'min' in config"
    | some min =>
      match extractNumber round json "max" with
      | none => .error "missing or invalid 'max' in config"
      | some max =>
        if max < min then .error "'min' must be <= 'max'" else .ok ⟨field, min, max⟩

def validate [LT F] [DecidableLT F] (config : List Char) : Option String :=
  match parseFilterConfig round config with
  | .ok _ => none
  | .error e => some e

/-- The state `evaluate` runs on afterwards. -/
def init [LT F] [DecidableLT F] (config : List Char) : Except WitProcessError (FilterConfig F) :=
  match parseFilterConfig round config with
  | .ok cfg => .ok cfg
  | .error e => .error (.badInput e)

/-- What stands behind the colon, up to a comma, a closing bracket or the end of the line. -/
def written (afterColon : List Char) : List Char :=
  upTo isDelimiter (trimStart isWhitespace afterColon)

/-- A literal of `parse::<f64>`. -/
def IsNumber (text : List Char) : Prop := (Literal.parse text).isSome = true

instance (text : List Char) : Decidable (IsNumber text) := inferInstanceAs (Decidable (_ = true))

/-- A member that is the same text to both extractions, or no number to either; `gap` is the text
between the quoted key and the first colon after it. With nothing but blanks there the native one
reads the leading digits, points and minus signs, and else nothing; the plugin reads all that is
written. -/
def ReadAlike (gap text : List Char) : Prop :=
  if gap.all isWhitespace then
    text.takeWhile isNumeric = trim isWhitespace text ∨
      ¬ IsNumber (text.takeWhile isNumeric) ∧ ¬ IsNumber (trim isWhitespace text)
  else ¬ IsNumber (trim isWhitespace text)

instance (gap text : List Char) : Decidable (ReadAlike gap text) := by
  unfold ReadAlike
  infer_instance

theorem parseNumber_eq_none {text : List Char} (h : ¬ IsNumber text) :
    parseNumber round text = none := by
  rw [parseNumber, Option.map_eq_none_iff]
  exact Option.not_isSome_iff_eq_none.mp h

/-- `validate` passes exactly the configurations `init` starts from. -/
theorem validate_eq_none_iff [LT F] [DecidableLT F] (config : List Char) :
    validate round config = none ↔ ∃ cfg, init round config = .ok cfg := by
  simp only [validate, init]
  cases parseFilterConfig round config with
  | error e => simp
  | ok cfg => simp

/-- The bounds of an accepted configuration are in order. -/
theorem not_lt_of_parseFilterConfig [LT F] [DecidableLT F] {config : List Char}
    {cfg : FilterConfig F} (h : parseFilterConfig round config = .ok cfg) :
    ¬ cfg.max < cfg.min := by
  simp only [parseFilterConfig] at h
  split at h
  · cases h
  · split at h
    · cases h
    · split at h
      · cases h
      · split at h
        · cases h
        · next hle =>
          obtain rfl := Except.ok.inj h
          exact hle

variable {round} {text afterKey gap afterColon : List Char}

/-- The code points of the characters a native reading goes through. -/
theorem toNat_of_isNumeric {c : Char} (h : isNumeric c = true) :
    45 ≤ c.toNat ∧ c.toNat ≤ 57 := by
  simp only [isNumeric] at h
  rcases Bool.or_eq_true_iff.mp h with h | h
  · rcases Bool.or_eq_true_iff.mp h with h | h
    · have := Char.isDigit_iff_toNat.mp h
      have h0 : '0'.toNat = 48 := rfl
      have h9 : '9'.toNat = 57 := rfl
      omega
    · obtain rfl := of_decide_eq_true h
      decide
  · obtain rfl := of_decide_eq_true h
    decide

theorem isWhitespace_of_isNumeric {c : Char} (h : isNumeric c = true) : isWhitespace c = false := by
  obtain ⟨hlo, hhi⟩ := toNat_of_isNumeric h
  have hv : c.val.toNat = c.toNat := rfl
  simp only [isWhitespace]
  simp only [List.mem_cons, List.not_mem_nil, or_false, ← UInt32.toNat_inj,
    UInt32.le_iff_toNat_le, hv, decide_eq_false_iff_not]
  simp only [UInt32.reduceToNat]
  omega

theorem isDelimiter_of_isNumeric {c : Char} (h : isNumeric c = true) : isDelimiter c = false := by
  obtain ⟨hlo, hhi⟩ := toNat_of_isNumeric h
  have hne : ∀ d : Char, d.toNat < 45 ∨ 57 < d.toNat → c ≠ d := by
    rintro d hd rfl
    omega
  simp only [isDelimiter]
  simp [hne]

/-- The digits the native extraction stops behind lie in front of every delimiter. -/
theorem takeWhile_written :
    (written afterColon).takeWhile isNumeric =
      upTo (fun c => !isNumeric c) (trimStart isWhitespace afterColon) := by
  simp only [written]
  rw [takeWhile_upTo fun c => isDelimiter_of_isNumeric]
  simp [upTo]

/-- The native extraction finds its colon exactly when only blanks stand in front of it. -/
theorem extractJsonNumber_of_afterKey {field : String}
    (hk : after (quoted field) text = some afterKey)
    (hc : splitFirst (· = ':') afterKey = some (gap, afterColon)) :
    extractJsonNumber round text field =
      if gap.all isWhitespace then
        parseNumber round ((written afterColon).takeWhile isNumeric)
      else none := by
  obtain ⟨c, rfl, hcolon, hgap⟩ := splitFirst_eq_some hc
  obtain rfl : c = ':' := of_decide_eq_true hcolon
  simp only [extractJsonNumber]
  rw [hk]
  dsimp only
  rw [trimStart_gap (by decide), takeWhile_written]
  by_cases hblank : ∀ c ∈ gap, isWhitespace c = true
  · rw [if_pos hblank, if_pos (List.all_eq_true.mpr hblank)]
    rfl
  · rw [if_neg hblank, if_neg fun hall => hblank (List.all_eq_true.mp hall)]
    cases htrim : trimStart isWhitespace gap with
    | nil => exact absurd (List.dropWhile_eq_nil_iff.mp htrim) hblank
    | cons d rest =>
      -- the first character left is one of the gap, so it is no colon
      have hd := hgap d (head_trimStart htrim)
      split
      · next heq =>
        obtain ⟨rfl, -⟩ := List.cons.inj heq
        exact absurd hd (by decide)
      · rfl

theorem extractNumber_of_afterKey {key : String} (hk : after (quoted key) text = some afterKey)
    (hc : splitFirst (· = ':') afterKey = some (gap, afterColon)) :
    extractNumber round text key = parseNumber round (trim isWhitespace (written afterColon)) := by
  simp only [extractNumber]
  rw [hk]
  dsimp only
  rw [hc]
  rfl

/-- Where the plugin finds no number, neither does the native filter: without a quoted key, and
without a colon behind it. -/
theorem extractJsonNumber_eq_none {field : String}
    (h : ∀ afterKey, after (quoted field) text = some afterKey →
      splitFirst (· = ':') afterKey = none) :
    extractJsonNumber round text field = none := by
  simp only [extractJsonNumber]
  split
  · rfl
  · next afterKey hk =>
    split
    · next rest htrim =>
      have := splitFirst_eq_none (h afterKey hk) ':' (head_trimStart htrim)
      exact absurd this (by decide)
    · rfl

theorem extractNumber_eq_none {key : String}
    (h : ∀ afterKey, after (quoted key) text = some afterKey →
      splitFirst (· = ':') afterKey = none) :
    extractNumber round text key = none := by
  simp only [extractNumber]
  split
  · rfl
  · next afterKey hk => rw [h afterKey hk]

/-- Both extractions give the same of a member that is read alike. -/
theorem extract_member {field : String} (hk : after (quoted field) text = some afterKey)
    (hc : splitFirst (· = ':') afterKey = some (gap, afterColon))
    (h : ReadAlike gap (written afterColon)) :
    extractJsonNumber round text field = extractNumber round text field := by
  rw [extractJsonNumber_of_afterKey hk hc, extractNumber_of_afterKey hk hc]
  unfold ReadAlike at h
  split
  · next hblank =>
    rw [if_pos hblank] at h
    obtain hsame | ⟨hleading, hwhole⟩ := h
    · rw [hsame]
    · rw [parseNumber_eq_none round hleading, parseNumber_eq_none round hwhole]
  · next hgap =>
    rw [if_neg hgap] at h
    exact (parseNumber_eq_none round h).symm

/-- So they do of a text where the member both could read, if there is one, is read alike. -/
theorem extract_text {field : String}
    (h : ∀ afterKey gap afterColon, after (quoted field) text = some afterKey →
      splitFirst (· = ':') afterKey = some (gap, afterColon) →
        ReadAlike gap (written afterColon)) :
    extractJsonNumber round text field = extractNumber round text field := by
  by_cases hmember : ∃ afterKey cut, after (quoted field) text = some afterKey ∧
      splitFirst (· = ':') afterKey = some cut
  · obtain ⟨afterKey, ⟨gap, afterColon⟩, hk, hc⟩ := hmember
    exact extract_member hk hc (h afterKey gap afterColon hk hc)
  · -- no member to read: both extractions fail
    have hnone : ∀ afterKey, after (quoted field) text = some afterKey →
        splitFirst (· = ':') afterKey = none := by
      intro afterKey hk
      by_contra hne
      obtain ⟨cut, hcut⟩ := Option.ne_none_iff_exists'.mp hne
      exact hmember ⟨afterKey, cut, hk, hcut⟩
    rw [extractJsonNumber_eq_none hnone, extractNumber_eq_none hnone]

section Verdicts

variable (round) [LE F] [DecidableLE F]

def evaluate (cfg : FilterConfig F) (payload : List UInt8) : Except WitProcessError Bool :=
  match fromUtf8 payload with
  | none => .error (.badInput "payload is not valid UTF-8")
  | some text =>
    match extractNumber round text cfg.field with
    | none => .error (.badInput "field not found")
    | some value => .ok (decide (cfg.min ≤ value) && decide (value ≤ cfg.max))

/-- A message is kept on `true`; an error keeps nothing. -/
def keeps : Except WitProcessError Bool → Bool
  | .ok keep => keep
  | .error _ => false

/-- The native range filter keeps what the plugin keeps when every member it could read, being the
first quoted key with a colon behind it, is read alike. -/
theorem rangeFilter_eq_keeps {F : Type*} [LE F] [DecidableLE F] (round : Literal → F)
    (cfg : FilterConfig F) (payload : List UInt8)
    (h : ∀ text afterKey gap afterColon, fromUtf8 payload = some text →
      after (quoted cfg.field) text = some afterKey →
      splitFirst (· = ':') afterKey = some (gap, afterColon) →
        ReadAlike gap (written afterColon)) :
    rangeFilter round cfg.field cfg.min cfg.max payload = keeps (evaluate round cfg payload) := by
  simp only [rangeFilter, evaluate]
  cases ht : fromUtf8 payload with
  | none => rfl
  | some text =>
    dsimp only
    rw [extract_text fun afterKey gap afterColon => h text afterKey gap afterColon ht]
    cases extractNumber round text cfg.field with
    | none => rfl
    | some value => rfl

/-- A reading in range, with blanks around it. -/
theorem rangeFilter_keeps_blanks :
    let payload := "\x7b\"temperature\" : 72.5 \x7d".toUTF8.toList
    let cfg : FilterConfig Literal := ⟨"temperature", .number false 50 0, .number false 99999 0⟩
    rangeFilter id cfg.field cfg.min cfg.max payload = keeps (evaluate id cfg payload) ∧
      keeps (evaluate id cfg payload) = true := by
  intro payload cfg
  refine ⟨rangeFilter_eq_keeps id cfg payload ?_, by decide +kernel⟩
  intro text afterKey gap afterColon ht hk hc
  have htext : fromUtf8 payload = some "\x7b\"temperature\" : 72.5 \x7d".toList := by
    decide +kernel
  obtain rfl := Option.some.inj (htext.symm.trans ht)
  have hkey : after (quoted cfg.field) "\x7b\"temperature\" : 72.5 \x7d".toList =
      some " : 72.5 \x7d".toList := by
    decide +kernel
  obtain rfl := Option.some.inj (hkey.symm.trans hk)
  have hcolon : splitFirst (· = ':') " : 72.5 \x7d".toList =
      some (" ".toList, " 72.5 \x7d".toList) := by
    decide +kernel
  obtain ⟨rfl, rfl⟩ := Prod.mk.inj (Option.some.inj (hcolon.symm.trans hc))
  decide +kernel

/-- A whole number with an exponent, within the bounds of the benchmark's filter: the plugin
reads `1e2`, the native filter `1`. -/
theorem rangeFilter_drops_exponent :
    let payload := "\x7b\"temperature\":1e2\x7d".toUTF8.toList
    let cfg : FilterConfig Literal := ⟨"temperature", .number false 50 0, .number false 99999 0⟩
    init id "\x7b\"field\":\"temperature\",\"min\":50,\"max\":99999\x7d".toList = .ok cfg ∧
      rangeFilter id cfg.field cfg.min cfg.max payload = false ∧
        keeps (evaluate id cfg payload) = true := by
  decide +kernel

end Verdicts

end Wafer.ThresholdFilter
