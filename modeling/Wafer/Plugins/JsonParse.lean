import Wafer.Lib.JsonLayout

/-!
# The JSON parse plugin

The transform guest's validator and pretty-printer: it walks the bytes of a text
and writes every token again, one value a line. The position in the bytes is the
list of the bytes that are left.

## Main definitions

- `JsonParse.jsonPrettyPrint`, `formatValue`, `formatString`, `formatNumber`
- `JsonParse.latin1` — a text read byte by byte

## Main results

- `JsonParse.formatValue_utf8` — the guest reads a value of the grammar and lays it out
- `JsonParse.accepts_iff` — when exactly the JSON texts are accepted
- `JsonParse.preserves_iff` — when the value is preserved
-/

namespace Wafer.JsonParse

open Lib JsonSyntax

/-- The byte of an ASCII character. -/
def ascii (c : Char) : UInt8 := UInt8.ofNat c.toNat

/-- `ch as char`. -/
def asChar (b : UInt8) : Char := Char.ofNat b.toNat

def isWs (b : UInt8) : Bool := b = ascii ' ' || b = ascii '\t' || b = ascii '\n' || b = ascii '\r'

def isAsciiDigit (b : UInt8) : Bool := ascii '0' ≤ b && b ≤ ascii '9'

def skipWs (bytes : List UInt8) : List UInt8 := bytes.dropWhile isWs

def pushIndent (n : ℕ) : List Char := List.replicate n ' '

/-- The loop behind the opening quote. -/
def stringLoop : List UInt8 → Option (List Char × List UInt8)
  | [] => none
  | b :: rest =>
    if b = ascii '"' then some (['"'], rest)
    else if b = ascii '\\' then
      match rest with
      | [] => none
      | e :: rest => (stringLoop rest).map fun s => ('\\' :: asChar e :: s.1, s.2)
    else (stringLoop rest).map fun s => (asChar b :: s.1, s.2)

def formatString (bytes : List UInt8) : Option (List Char × List UInt8) :=
  (expect (· = ascii '"') bytes).bind fun rest => (stringLoop rest).map fun s => ('"' :: s.1, s.2)

def integerPart (bytes : List UInt8) : Option (List UInt8 × List UInt8) :=
  match takeIf (· = ascii '0') bytes with
  | ([], rest) => takeSome isAsciiDigit rest
  | (zero, rest) => some (zero, rest)

def fraction (bytes : List UInt8) : Option (List UInt8 × List UInt8) :=
  match takeIf (· = ascii '.') bytes with
  | ([], rest) => some ([], rest)
  | (point, rest) => (takeSome isAsciiDigit rest).map fun s => (point ++ s.1, s.2)

def exponent (bytes : List UInt8) : Option (List UInt8 × List UInt8) :=
  match takeIf (fun b => b = ascii 'e' || b = ascii 'E') bytes with
  | ([], rest) => some ([], rest)
  | (mark, rest) =>
    let sign := takeIf (fun b => b = ascii '+' || b = ascii '-') rest
    (takeSome isAsciiDigit sign.2).map fun s => (mark ++ (sign.1 ++ s.1), s.2)

/-- The bytes between `start` and `pos`, all of them ASCII, are written as they are. -/
def formatNumber (bytes : List UInt8) : Option (List Char × List UInt8) := do
  let minus := takeIf (· = ascii '-') bytes
  let integer ← integerPart minus.2
  let fraction ← fraction integer.2
  let exponent ← exponent fraction.2
  let taken := minus.1 ++ (integer.1 ++ (fraction.1 ++ exponent.1))
  if taken = [] ∨ taken = [ascii '-'] then none else some (taken.map asChar, exponent.2)

def formatLiteral (expected : List Char) (bytes : List UInt8) : Option (List Char × List UInt8) :=
  if expected.map ascii <+: bytes then some (expected, bytes.drop expected.length) else none

mutual

def formatValue : ℕ → ℕ → List UInt8 → Option (List Char × List UInt8)
  | 0, _, _ => none
  | fuel + 1, indent, bytes =>
    match skipWs bytes with
    | [] => none
    | b :: rest =>
      if b = ascii '{' then
        match expect (· = ascii '}') (skipWs rest) with
        | some behind => some (['{', '}'], behind)
        | none => (formatMembers fuel indent rest).map fun s => ('{' :: s.1, s.2)
      else if b = ascii '[' then
        match expect (· = ascii ']') (skipWs rest) with
        | some behind => some (['[', ']'], behind)
        | none => (formatElements fuel indent rest).map fun s => ('[' :: s.1, s.2)
      else if b = ascii '"' then formatString (b :: rest)
      else if b = ascii 't' then formatLiteral Word.true.text (b :: rest)
      else if b = ascii 'f' then formatLiteral Word.false.text (b :: rest)
      else if b = ascii 'n' then formatLiteral Word.null.text (b :: rest)
      else if b = ascii '-' ∨ isAsciiDigit b = true then formatNumber (b :: rest)
      else none

/-- The passes of the loop in `format_array`, and what is written behind it. -/
def formatElements : ℕ → ℕ → List UInt8 → Option (List Char × List UInt8)
  | 0, _, _ => none
  | fuel + 1, indent, bytes =>
    match formatValue fuel (indent + 2) bytes with
    | none => none
    | some (value, rest) =>
      match skipWs rest with
      | [] => none
      | b :: behind =>
        if b = ascii ',' then
          (formatElements fuel indent behind).map fun s =>
            ('\n' :: (pushIndent (indent + 2) ++ (value ++ ',' :: s.1)), s.2)
        else if b = ascii ']' then
          some ('\n' :: (pushIndent (indent + 2) ++ (value ++ '\n' :: (pushIndent indent ++ [']']))),
            behind)
        else none

/-- The passes of the loop in `format_object`, and what is written behind it. -/
def formatMembers : ℕ → ℕ → List UInt8 → Option (List Char × List UInt8)
  | 0, _, _ => none
  | fuel + 1, indent, bytes =>
    match formatString (skipWs bytes) with
    | none => none
    | some (key, rest) =>
      match expect (· = ascii ':') (skipWs rest) with
      | none => none
      | some behind =>
        match formatValue fuel (indent + 2) behind with
        | none => none
        | some (value, rest) =>
          match skipWs rest with
          | [] => none
          | b :: last =>
            if b = ascii ',' then
              (formatMembers fuel indent last).map fun s =>
                ('\n' :: (pushIndent (indent + 2) ++ (key ++ ':' :: ' ' :: (value ++ ',' :: s.1))), s.2)
            else if b = ascii '}' then
              some ('\n' :: (pushIndent (indent + 2) ++
                (key ++ ':' :: ' ' :: (value ++ '\n' :: (pushIndent indent ++ ['}'])))), last)
            else none

end

/-- Every call of the formatter takes a byte or more, so the number of bytes is fuel enough. -/
def jsonPrettyPrint (bytes : List UInt8) : Option (List Char) :=
  if (skipWs bytes).isEmpty then none
  else
    match formatValue (bytes.length + 1) 0 (skipWs bytes) with
    | none => none
    | some (out, rest) => if (skipWs rest).isEmpty then some out else none

/-! ## Texts as bytes -/

def utf8 (text : List Char) : List UInt8 := text.flatMap String.utf8EncodeChar

/-- A text whose bytes are read as characters. -/
def latin1 (text : List Char) : List Char := (utf8 text).map asChar

variable {text rest : List Char} {c d : Char}

theorem utf8_append (front back : List Char) : utf8 (front ++ back) = utf8 front ++ utf8 back :=
  List.flatMap_append

theorem latin1_append (front back : List Char) :
    latin1 (front ++ back) = latin1 front ++ latin1 back := by
  rw [latin1, utf8_append, List.map_append]
  rfl

theorem toNat_ascii (hc : c.toNat < 128) : (ascii c).toNat = c.toNat :=
  UInt8.toNat_ofNat_of_lt' (Nat.lt_trans hc (by decide))

theorem ascii_inj (hc : c.toNat < 128) (hd : d.toNat < 128) : ascii c = ascii d ↔ c = d := by
  constructor
  · intro h
    have hnat := congrArg UInt8.toNat h
    rw [toNat_ascii hc, toNat_ascii hd] at hnat
    rw [← Char.ofNat_toNat c, hnat, Char.ofNat_toNat]
  · exact congrArg ascii

theorem asChar_ascii (hc : c.toNat < 128) : asChar (ascii c) = c := by
  rw [asChar, toNat_ascii hc, Char.ofNat_toNat]

theorem encode_ascii (hc : c.toNat < 128) : String.utf8EncodeChar c = [ascii c] :=
  if_pos (Nat.le_of_lt_succ hc)

/-- The bytes of a character that is no ASCII one are no ASCII ones. -/
theorem encode_high (hc : 128 ≤ c.toNat) : ∀ b ∈ String.utf8EncodeChar c, 128 ≤ b.toNat := by
  have hval : ¬ c.val.toNat ≤ 0x7f := by
    have hdef : c.toNat = c.val.toNat := rfl
    omega
  have hbyte : ∀ {m k : ℕ}, 128 ≤ k → m + k < 256 → 128 ≤ (UInt8.ofNat (m + k)).toNat := by
    intro m k hk hlt
    rw [UInt8.toNat_ofNat_of_lt' hlt]
    omega
  have htail : ∀ n, 128 ≤ (UInt8.ofNat (n % 0x40 + 0x80)).toNat := by
    intro n
    exact hbyte le_rfl (by omega)
  unfold String.utf8EncodeChar
  rw [if_neg hval]
  intro b hb
  split at hb
  next =>
    simp only [List.mem_cons, List.not_mem_nil, or_false] at hb
    rcases hb with rfl | rfl
    · exact hbyte (by decide) (by omega)
    · exact htail _
  next =>
    split at hb
    next =>
      simp only [List.mem_cons, List.not_mem_nil, or_false] at hb
      rcases hb with rfl | rfl | rfl
      · exact hbyte (by decide) (by omega)
      · exact htail _
      · exact htail _
    next =>
      simp only [List.mem_cons, List.not_mem_nil, or_false] at hb
      rcases hb with rfl | rfl | rfl | rfl
      · exact hbyte (by decide) (by omega)
      · exact htail _
      · exact htail _
      · exact htail _

theorem utf8_cons (hc : c.toNat < 128) : utf8 (c :: text) = ascii c :: utf8 text := by
  rw [utf8, List.flatMap_cons, encode_ascii hc]
  rfl

/-- A character that is no ASCII one begins with a byte that is no ASCII one. -/
theorem utf8_high (hc : 128 ≤ c.toNat) :
    ∃ b bytes, String.utf8EncodeChar c = b :: bytes ∧ 128 ≤ b.toNat ∧
      (∀ x ∈ bytes, 128 ≤ x.toNat) ∧ ∀ text, utf8 (c :: text) = b :: (bytes ++ utf8 text) := by
  obtain ⟨b, bytes, hencode⟩ := List.exists_cons_of_ne_nil (String.utf8EncodeChar_ne_nil (c := c))
  have hhigh := encode_high hc
  rw [hencode] at hhigh
  refine ⟨b, bytes, hencode, hhigh b (by simp), fun x hx => hhigh x (by simp [hx]), fun text => ?_⟩
  rw [utf8, List.flatMap_cons, hencode]
  rfl

@[simp]
theorem latin1_cons (hc : c.toNat < 128) : latin1 (c :: text) = c :: latin1 text := by
  rw [latin1, utf8_cons hc, List.map_cons, asChar_ascii hc]
  rfl

theorem latin1_of_utf8 {b : UInt8} {bytes : List UInt8}
    (h : ∀ text, utf8 (c :: text) = b :: (bytes ++ utf8 text)) (text : List Char) :
    latin1 (c :: text) = asChar b :: (bytes.map asChar ++ latin1 text) := by
  rw [latin1, h text, List.map_cons, List.map_append]
  rfl

theorem high_ne {b : UInt8} (hb : 128 ≤ b.toNat) (hd : d.toNat < 128) : b ≠ ascii d := by
  rintro rfl
  rw [toNat_ascii hd] at hb
  omega

/-- Tests on bytes that agree with one on characters: on ASCII, and false beyond. -/
theorem agrees_of {p : UInt8 → Bool} {q : Char → Bool}
    (hascii : ∀ k, k < 128 → p (ascii (Char.ofNat k)) = q (Char.ofNat k))
    (hp : ∀ b : UInt8, 128 ≤ b.toNat → p b = false) (hq : ∀ c : Char, 128 ≤ c.toNat → q c = false) :
    Agrees String.utf8EncodeChar p q := by
  have hsame : ∀ c : Char, c.toNat < 128 → p (ascii c) = q c := by
    intro c hc
    have hk := hascii c.toNat hc
    rwa [Char.ofNat_toNat] at hk
  constructor
  · intro c hc
    have hlt : c.toNat < 128 := by
      by_contra hge
      rw [hq c (Nat.le_of_not_lt hge)] at hc
      cases hc
    exact ⟨ascii c, encode_ascii hlt, by rw [hsame c hlt, hc]⟩
  · intro c hc
    by_cases hlt : c.toNat < 128
    · exact ⟨ascii c, [], encode_ascii hlt, by rw [hsame c hlt, hc]⟩
    · obtain ⟨b, bytes, hencode, hb, -, -⟩ := utf8_high (Nat.le_of_not_lt hlt)
      exact ⟨b, bytes, hencode, hp b hb⟩

theorem char_ne_of_high (hc : 128 ≤ c.toNat) (hd : d.toNat < 128) : c ≠ d := by
  rintro rfl
  omega

theorem agrees_char (hd : d.toNat < 128) :
    Agrees String.utf8EncodeChar (· = ascii d) (· = d) := by
  refine agrees_of (fun k hk => ?_) (fun b hb => ?_) (fun c hc => ?_)
  · have hlow : ∀ k, k < 128 → (Char.ofNat k).toNat < 128 := by decide
    exact decide_eq_decide.mpr (ascii_inj (hlow k hk) hd)
  · exact decide_eq_false (high_ne hb hd)
  · exact decide_eq_false (char_ne_of_high hc hd)

theorem agrees_ws : Agrees String.utf8EncodeChar isWs JsonText.isBlank := by
  refine agrees_of (by decide) (fun b hb => ?_) (fun c hc => ?_)
  · simp [isWs, high_ne hb]
  · simp [JsonText.isBlank, char_ne_of_high hc]

theorem agrees_mark :
    Agrees String.utf8EncodeChar (fun b => b = ascii 'e' || b = ascii 'E') isMark := by
  refine agrees_of (by decide) (fun b hb => ?_) (fun c hc => ?_)
  · simp [high_ne hb]
  · simp [isMark, char_ne_of_high hc]

theorem agrees_sign :
    Agrees String.utf8EncodeChar (fun b => b = ascii '+' || b = ascii '-') isSign := by
  refine agrees_of (by decide) (fun b hb => ?_) (fun c hc => ?_)
  · simp [high_ne hb]
  · simp [isSign, char_ne_of_high hc]

theorem isAsciiDigit_high {b : UInt8} (hb : 128 ≤ b.toNat) : isAsciiDigit b = false := by
  have hle : ¬ b ≤ ascii '9' := by
    rw [UInt8.le_iff_toNat_le, toNat_ascii (by decide)]
    exact Nat.not_le.mpr (Nat.lt_of_lt_of_le (by decide) hb)
  simp [isAsciiDigit, hle]

theorem isDigit_low (hc : c.isDigit = true) : c.toNat < 128 := by
  have hone : IsAscii [c] := isAscii_of_digits (by simpa using hc)
  exact hone c (by simp)

theorem agrees_digit : Agrees String.utf8EncodeChar isAsciiDigit Char.isDigit := by
  refine agrees_of (by decide) (fun b hb => isAsciiDigit_high hb) (fun c hc => ?_)
  by_contra hdigit
  exact absurd (isDigit_low (by simpa using hdigit)) (Nat.not_lt.mpr hc)

/-! ## Tokens -/

theorem skipWs_utf8 (text : List Char) : skipWs (utf8 text) = utf8 (JsonText.skip text) :=
  agrees_ws.dropWhile_flatMap text

theorem expect_utf8 (hd : d.toNat < 128) (text : List Char) :
    expect (· = ascii d) (utf8 text) = (expect (· = d) text).map utf8 :=
  (agrees_char hd).expect_flatMap text

theorem stringLoop_quote (bytes : List UInt8) :
    stringLoop (ascii '"' :: bytes) = some (['"'], bytes) := by
  rw [stringLoop.eq_def]
  exact if_pos rfl

theorem stringLoop_escape (b : UInt8) (bytes : List UInt8) :
    stringLoop (ascii '\\' :: b :: bytes) =
      (stringLoop bytes).map fun s => ('\\' :: asChar b :: s.1, s.2) := by
  rw [stringLoop.eq_def]
  rfl

theorem stringLoop_plain {b : UInt8} (hq : b ≠ ascii '"') (hb : b ≠ ascii '\\')
    (bytes : List UInt8) :
    stringLoop (b :: bytes) = (stringLoop bytes).map fun s => (asChar b :: s.1, s.2) := by
  rw [stringLoop.eq_def]
  simp only [if_neg hq, if_neg hb]

/-- Bytes that are no ASCII ones are passed over. -/
theorem stringLoop_high {front : List UInt8} (h : ∀ b ∈ front, 128 ≤ b.toNat) (bytes : List UInt8) :
    stringLoop (front ++ bytes) =
      (stringLoop bytes).map fun s => (front.map asChar ++ s.1, s.2) := by
  induction front with
  | nil => simp
  | cons b front ih =>
    have hb := h b (by simp)
    rw [List.cons_append, stringLoop_plain (high_ne hb (by decide)) (high_ne hb (by decide)),
      ih fun x hx => h x (by simp [hx]), Option.map_map]
    rfl

/-- What is written of a string: its bytes, each as a character, and the quote. -/
def writtenBody (s : List Char × List Char) : List Char × List UInt8 :=
  (latin1 s.1 ++ ['"'], utf8 s.2)

theorem stringLoop_utf8 (text : List Char) :
    stringLoop (utf8 text) = (readBody text).map writtenBody := by
  induction text using readBody.induct with
  | case1 => rfl
  | case2 text =>
    rw [utf8_cons (by decide), stringLoop_quote, readBody_quote]
    rfl
  | case3 => rfl
  | case4 e text _ ih =>
    have hback : '\\'.toNat < 128 := by decide
    rw [utf8_cons hback, readBody_escape, Option.map_map]
    by_cases he : e.toNat < 128
    · rw [utf8_cons he, stringLoop_escape, ih, Option.map_map]
      congr 1
      funext s
      show ('\\' :: asChar (ascii e) :: (latin1 s.1 ++ ['"']), utf8 s.2) =
        (latin1 ('\\' :: e :: s.1) ++ ['"'], utf8 s.2)
      rw [asChar_ascii he, latin1_cons hback, latin1_cons he]
      rfl
    · obtain ⟨b, bytes, -, -, hbytes, hutf8⟩ := utf8_high (Nat.le_of_not_lt he)
      rw [hutf8, stringLoop_escape, stringLoop_high hbytes, ih, Option.map_map, Option.map_map]
      congr 1
      funext s
      show ('\\' :: asChar b :: (bytes.map asChar ++ (latin1 s.1 ++ ['"'])), utf8 s.2) =
        (latin1 ('\\' :: e :: s.1) ++ ['"'], utf8 s.2)
      rw [latin1_cons hback, latin1_of_utf8 hutf8, List.cons_append, List.cons_append,
        List.append_assoc]
  | case5 c text hq hb ih =>
    rw [readBody_plain hq hb, Option.map_map]
    by_cases hc : c.toNat < 128
    · have hq' : ascii c ≠ ascii '"' := fun h => hq ((ascii_inj hc (by decide)).mp h)
      have hb' : ascii c ≠ ascii '\\' := fun h => hb ((ascii_inj hc (by decide)).mp h)
      rw [utf8_cons hc, stringLoop_plain hq' hb', ih, Option.map_map]
      congr 1
      funext s
      show (asChar (ascii c) :: (latin1 s.1 ++ ['"']), utf8 s.2) =
        (latin1 (c :: s.1) ++ ['"'], utf8 s.2)
      rw [asChar_ascii hc, latin1_cons hc]
      rfl
    · obtain ⟨b, bytes, -, hb, hbytes, hutf8⟩ := utf8_high (Nat.le_of_not_lt hc)
      rw [hutf8, stringLoop_plain (high_ne hb (by decide)) (high_ne hb (by decide)),
        stringLoop_high hbytes, ih, Option.map_map, Option.map_map]
      congr 1
      funext s
      show (asChar b :: (bytes.map asChar ++ (latin1 s.1 ++ ['"'])), utf8 s.2) =
        (latin1 (c :: s.1) ++ ['"'], utf8 s.2)
      rw [latin1_of_utf8 hutf8, List.cons_append, List.append_assoc]

/-! ### Numbers -/

/-- Bytes read of the bytes of a text. -/
def bytesOf (s : List Char × List Char) : List UInt8 × List UInt8 := (utf8 s.1, utf8 s.2)

theorem takeIf_utf8 {p : UInt8 → Bool} {q : Char → Bool} (h : Agrees String.utf8EncodeChar p q)
    (text : List Char) : takeIf p (utf8 text) = bytesOf (takeIf q text) :=
  h.takeIf_flatMap text

theorem takeSome_utf8 {p : UInt8 → Bool} {q : Char → Bool} (h : Agrees String.utf8EncodeChar p q)
    (text : List Char) : takeSome p (utf8 text) = (takeSome q text).map bytesOf :=
  h.takeSome_flatMap text

/-- An optional character is there in the bytes exactly when it is in the text. -/
theorem takeIf_cases {p : UInt8 → Bool} {q : Char → Bool} (h : Agrees String.utf8EncodeChar p q)
    (hq : ∀ c, q c = true → c.toNat < 128) (text : List Char) :
    (takeIf p (utf8 text) = ([], utf8 text) ∧ takeIf q text = ([], text)) ∨
      ∃ c rest, q c = true ∧ takeIf p (utf8 text) = ([ascii c], utf8 rest) ∧
        takeIf q text = ([c], rest) := by
  rw [takeIf_utf8 h]
  rcases hif : takeIf q text with ⟨taken, rest⟩
  obtain ⟨htext, rfl | ⟨c, rfl, hc⟩⟩ := takeIf_sound hif
  · obtain rfl : text = rest := htext
    exact .inl ⟨rfl, rfl⟩
  · refine .inr ⟨c, rest, hc, ?_, rfl⟩
    rw [bytesOf, utf8_cons (hq c hc)]
    rfl

theorem char_low (hd : d.toNat < 128) : ∀ c, decide (c = d) = true → c.toNat < 128 := by
  intro c hc
  rwa [of_decide_eq_true hc]

theorem integerPart_utf8 (text : List Char) :
    integerPart (utf8 text) = (readWhole text).map bytesOf := by
  rcases takeIf_cases (agrees_char (d := '0') (by decide)) (char_low (by decide)) text with
    ⟨hbytes, hchars⟩ | ⟨c, rest, hc, hbytes, hchars⟩
  · simp only [integerPart, readWhole, hbytes, hchars]
    exact takeSome_utf8 agrees_digit text
  · simp only [integerPart, readWhole, hbytes, hchars, Option.map_some, bytesOf]
    rw [utf8_cons (char_low (by decide) c hc)]
    rfl

theorem fraction_utf8 (text : List Char) :
    fraction (utf8 text) = (readFraction text).map bytesOf := by
  rcases takeIf_cases (agrees_char (d := '.') (by decide)) (char_low (by decide)) text with
    ⟨hbytes, hchars⟩ | ⟨c, rest, hc, hbytes, hchars⟩
  · simp only [fraction, readFraction, hbytes, hchars]
    rfl
  · simp only [fraction, readFraction, hbytes, hchars, takeSome_utf8 agrees_digit, Option.map_map]
    congr 1
    funext s
    show ([ascii c] ++ utf8 s.1, utf8 s.2) = (utf8 ([c] ++ s.1), utf8 s.2)
    rw [utf8_append, utf8_cons (char_low (by decide) c hc)]
    rfl

theorem exponent_utf8 (text : List Char) :
    exponent (utf8 text) = (readExponent text).map bytesOf := by
  have hlow : ∀ c, isMark c = true → c.toNat < 128 := by
    intro c hc
    have hc' : c = 'e' ∨ c = 'E' := by simpa [isMark] using hc
    rcases hc' with rfl | rfl
    · decide
    · decide
  rcases takeIf_cases agrees_mark hlow text with
    ⟨hbytes, hchars⟩ | ⟨c, rest, hc, hbytes, hchars⟩
  · simp only [exponent, readExponent, hbytes, hchars]
    rfl
  · simp only [exponent, readExponent, hbytes, hchars, takeIf_utf8 agrees_sign, bytesOf]
    rw [takeSome_utf8 agrees_digit, Option.map_map, Option.map_map]
    congr 1
    funext s
    show ([ascii c] ++ (utf8 (takeIf isSign rest).1 ++ utf8 s.1), utf8 s.2) =
      (utf8 ([c] ++ ((takeIf isSign rest).1 ++ s.1)), utf8 s.2)
    rw [utf8_append, utf8_append, utf8_cons (hlow c hc)]
    rfl

/-- What is written of a number: its bytes, each as a character. -/
def writtenNumber (s : List Char × List Char) : List Char × List UInt8 := (latin1 s.1, utf8 s.2)

/-- A number has a digit. -/
theorem number_digit {minus whole : List Char} (hminus : minus = [] ∨ minus = ['-'])
    (hwhole : IsWhole whole) (more : List Char) :
    ¬ (utf8 (minus ++ (whole ++ more)) = [] ∨ utf8 (minus ++ (whole ++ more)) = [ascii '-']) := by
  obtain ⟨d, ds, rfl, hd⟩ : ∃ d ds, whole = d :: ds ∧ d.isDigit = true := by
    cases hwhole with
    | zero => exact ⟨'0', [], rfl, rfl⟩
    | @digits d ds _ hdigits => exact ⟨d, ds, rfl, hdigits.2 d (by simp)⟩
  have hlow := isDigit_low hd
  rcases hminus with rfl | rfl
  · rw [List.nil_append, List.cons_append, utf8_cons hlow]
    rintro (h | h)
    · cases h
    · exact ne_of_isDigit hd rfl ((ascii_inj hlow (by decide)).mp (List.cons.inj h).1)
  · rw [List.cons_append, List.nil_append, List.cons_append, utf8_cons (by decide), utf8_cons hlow]
    rintro (h | h)
    · cases h
    · cases (List.cons.inj h).2

theorem formatNumber_utf8 (text : List Char) :
    formatNumber (utf8 text) = (readNumber text).map writtenNumber := by
  have hbytes := takeIf_utf8 (agrees_char (d := '-') (by decide)) text
  rcases hchars : takeIf (fun c => decide (c = '-')) text with ⟨minus, rest⟩
  rw [hchars] at hbytes
  have hminus : minus = [] ∨ minus = ['-'] := by
    obtain ⟨-, hnone | ⟨c, rfl, hc⟩⟩ := takeIf_sound hchars
    · exact .inl hnone
    · exact .inr (by rw [of_decide_eq_true hc])
  simp only [formatNumber, readNumber, hbytes, hchars, bytesOf, integerPart_utf8,
    Option.bind_eq_bind]
  cases hwhole : readWhole rest with
  | none => rfl
  | some whole =>
    simp only [Option.map_some, Option.bind_some, bytesOf, fraction_utf8]
    cases readFraction whole.2 with
    | none => rfl
    | some fraction =>
      simp only [Option.map_some, Option.bind_some, bytesOf, exponent_utf8]
      cases readExponent fraction.2 with
      | none => rfl
      | some exponent =>
        have hdigit := number_digit hminus (readWhole_sound (Prod.eta whole ▸ hwhole)).2
          (fraction.1 ++ exponent.1)
        simp only [Option.map_some, Option.bind_some, bytesOf, ← utf8_append]
        rw [if_neg hdigit]
        rfl

/-! ### Words -/

theorem utf8_ascii {word : List Char} (h : IsAscii word) : utf8 word = word.map ascii := by
  induction word with
  | nil => rfl
  | cons c word ih =>
    rw [utf8_cons (h c (by simp)), ih fun d hd => h d (by simp [hd])]
    rfl

theorem prefix_utf8 {word : List Char} (h : IsAscii word) :
    word.map ascii <+: utf8 text ↔ word <+: text := by
  constructor
  · intro hword
    induction word generalizing text with
    | nil => exact List.nil_prefix
    | cons c word ih =>
      have hc := h c (by simp)
      cases text with
      | nil => cases List.prefix_nil.mp hword
      | cons d text =>
        by_cases hd : d.toNat < 128
        · rw [utf8_cons hd, List.map_cons, List.cons_prefix_cons] at hword
          rw [List.cons_prefix_cons]
          exact ⟨(ascii_inj hc hd).mp hword.1, ih (fun x hx => h x (by simp [hx])) hword.2⟩
        · obtain ⟨b, bytes, -, hb, -, hutf8⟩ := utf8_high (Nat.le_of_not_lt hd)
          rw [hutf8, List.map_cons, List.cons_prefix_cons] at hword
          exact absurd hword.1.symm (high_ne hb hc)
  · rintro ⟨rest, rfl⟩
    rw [utf8_append, utf8_ascii h]
    exact List.prefix_append _ _

/-- What is written of a value: its layout, each byte as a character. -/
def writtenValue (indent : ℕ) (s : Value × List Char) : List Char × List UInt8 :=
  (latin1 (s.1.tidy indent).text, utf8 s.2)

theorem latin1_ascii (h : IsAscii text) : latin1 text = text := by
  induction text with
  | nil => rfl
  | cons c text ih => rw [latin1_cons (h c (by simp)), ih fun d hd => h d (by simp [hd])]

theorem formatLiteral_utf8 (indent : ℕ) (w : Word) (text : List Char) :
    formatLiteral w.text (utf8 text) = (readWord w text).map (writtenValue indent) := by
  unfold formatLiteral readWord
  by_cases hword : w.text <+: text
  · rw [if_pos ((prefix_utf8 w.isAscii).mpr hword), if_pos hword, Option.map_some]
    obtain ⟨rest, rfl⟩ := hword
    have hlen : (w.text.map ascii).length = w.text.length := List.length_map _
    rw [utf8_append, utf8_ascii w.isAscii, ← hlen, List.drop_left, hlen, List.drop_left]
    show some (w.text, utf8 rest) = some (latin1 w.text, utf8 rest)
    rw [latin1_ascii w.isAscii]
  · rw [if_neg (fun h => hword ((prefix_utf8 w.isAscii).mp h)), if_neg hword]
    rfl

/-! ## The guest reads the grammar -/

def writtenElements (indent : ℕ) (s : Elements × List Char) : List Char × List UInt8 :=
  (latin1 (s.1.tidy indent).text ++ [']'], utf8 s.2)

def writtenMembers (indent : ℕ) (s : Members × List Char) : List Char × List UInt8 :=
  (latin1 (s.1.tidy indent).text ++ ['}'], utf8 s.2)

/-- With some fuel, the guest reads the bytes of a text as the reader does the text, and writes the
layout. -/
structure Mirrors (fuel : ℕ) : Prop where
  value : ∀ indent text, formatValue fuel indent (utf8 text) =
    (readValue fuel (JsonText.skip text)).map (writtenValue indent)
  elements : ∀ indent text, formatElements fuel indent (utf8 text) =
    (readElements fuel text).map (writtenElements indent)
  members : ∀ indent text, formatMembers fuel indent (utf8 text) =
    (readMembers fuel text).map (writtenMembers indent)

/-- What is written of a quoted string. -/
def writtenQuoted (s : List Char × List Char) : List Char × List UInt8 :=
  ('"' :: (latin1 s.1 ++ ['"']), utf8 s.2)

theorem formatString_utf8 (text : List Char) :
    formatString (utf8 text) = ((expect (· = '"') text).bind readBody).map writtenQuoted := by
  rw [formatString, expect_utf8 (by decide)]
  cases expect (fun c => decide (c = '"')) text with
  | none => rfl
  | some rest =>
    rw [Option.map_some, Option.bind_some, Option.bind_some, stringLoop_utf8, Option.map_map]
    rfl

theorem quoted_value (indent : ℕ) (rest : List Char) :
    formatString (utf8 ('"' :: rest)) =
      ((readBody rest).map fun s => (Value.string s.1, s.2)).map (writtenValue indent) := by
  rw [formatString_utf8, expect_cons (by decide), Option.bind_some, Option.map_map]
  congr 1
  funext s
  show ('"' :: (latin1 s.1 ++ ['"']), utf8 s.2) = (latin1 ('"' :: (s.1 ++ ['"'])), utf8 s.2)
  rw [latin1_cons (by decide), latin1_append, latin1_cons (by decide)]
  rfl

theorem isAsciiDigit_ascii (hc : c.toNat < 128) : isAsciiDigit (ascii c) = c.isDigit := by
  cases hdigit : c.isDigit with
  | true =>
    obtain ⟨b, hb, hp⟩ := agrees_digit.hit c hdigit
    rw [encode_ascii hc] at hb
    cases hb
    exact hp
  | false =>
    obtain ⟨b, bytes, hb, hp⟩ := agrees_digit.miss c hdigit
    rw [encode_ascii hc] at hb
    cases hb
    exact hp

/-- The first byte of a text has the tests of its first character, and where that is an ASCII one the
rest of the bytes are those of the rest. -/
theorem utf8_head (c : Char) (rest : List Char) :
    ∃ b bytes, utf8 (c :: rest) = b :: bytes ∧
      (∀ d : Char, d.toNat < 128 → (b = ascii d ↔ c = d)) ∧ isAsciiDigit b = c.isDigit ∧
        (c.toNat < 128 → bytes = utf8 rest) := by
  by_cases hc : c.toNat < 128
  · exact ⟨ascii c, utf8 rest, utf8_cons hc, fun d hd => ascii_inj hc hd, isAsciiDigit_ascii hc,
      fun _ => rfl⟩
  · have hhigh := Nat.le_of_not_lt hc
    obtain ⟨b, bytes, -, hb, -, hutf8⟩ := utf8_high hhigh
    refine ⟨b, bytes ++ utf8 rest, hutf8 rest, fun d hd => ?_, ?_, fun h => absurd h hc⟩
    · exact iff_of_false (high_ne hb hd) (char_ne_of_high hhigh hd)
    · rw [isAsciiDigit_high hb]
      by_contra hdigit
      exact hc (isDigit_low (by simpa using Ne.symm hdigit))

theorem latin1_gap (g : Gap) : latin1 g.text = g.text := latin1_ascii g.isAscii

theorem written_one (indent : ℕ) (v : Value) (before after : Gap) :
    '\n' :: (pushIndent (indent + 2) ++
        (latin1 (v.tidy (indent + 2)).text ++ '\n' :: (pushIndent indent ++ [']']))) =
      latin1 ((Elements.one (.mk before v after)).tidy indent).text ++ [']'] := by
  rw [Elements.tidy, Elements.text, Element.text, latin1_append, latin1_append, latin1_gap,
    latin1_gap, List.append_assoc, List.append_assoc]
  rfl

theorem written_more (indent : ℕ) (v : Value) (before after : Gap) (rest : Elements) :
    '\n' :: (pushIndent (indent + 2) ++
        (latin1 (v.tidy (indent + 2)).text ++ ',' :: (latin1 (rest.tidy indent).text ++ [']']))) =
      latin1 ((Elements.more (.mk before v after) rest).tidy indent).text ++ [']'] := by
  rw [Elements.tidy, Elements.text, Element.text, latin1_append, latin1_append, latin1_append,
    latin1_gap, latin1_gap, latin1_cons (by decide), List.append_assoc, List.append_assoc,
    List.append_assoc]
  rfl

theorem latin1_name (n : Name) :
    latin1 n.text = n.before.text ++ '"' :: (latin1 n.body ++ '"' :: n.after.text) := by
  rw [Name.text, latin1_append, latin1_gap, latin1_cons (by decide), latin1_append,
    latin1_cons (by decide), latin1_gap]

theorem written_member_one (indent : ℕ) (n : Name) (v : Value) (before after : Gap) :
    '\n' :: (pushIndent (indent + 2) ++ ('"' :: (latin1 n.body ++ ['"']) ++ ':' :: ' ' ::
        (latin1 (v.tidy (indent + 2)).text ++ '\n' :: (pushIndent indent ++ ['}'])))) =
      latin1 ((Members.one n (.mk before v after)).tidy indent).text ++ ['}'] := by
  rw [Members.tidy, Members.text, Element.text, latin1_append, latin1_name, latin1_cons (by decide),
    latin1_append, latin1_append, latin1_gap, latin1_gap]
  simp [lineGap, noGap, spaceGap, pushIndent]

theorem written_member_more (indent : ℕ) (n : Name) (v : Value) (before after : Gap)
    (rest : Members) :
    '\n' :: (pushIndent (indent + 2) ++ ('"' :: (latin1 n.body ++ ['"']) ++ ':' :: ' ' ::
        (latin1 (v.tidy (indent + 2)).text ++ ',' :: (latin1 (rest.tidy indent).text ++ ['}'])))) =
      latin1 ((Members.more n (.mk before v after) rest).tidy indent).text ++ ['}'] := by
  rw [Members.tidy, Members.text, Element.text, latin1_append, latin1_name, latin1_cons (by decide),
    latin1_append, latin1_append, latin1_append, latin1_gap, latin1_gap, latin1_cons (by decide)]
  simp [lineGap, noGap, spaceGap, pushIndent]

/-- A closing bracket at once, or what the readers of the inside make of it. -/
theorem brackets_utf8 {β : Type} (indent : ℕ) (opener closer : Char) (empty : Gap → Value)
    (whole : β → Value) (inside : β → List Char) (ho : opener.toNat < 128)
    (hc : closer.toNat < 128) (hempty : ∀ g, ((empty g).tidy indent).text = [opener, closer])
    (hwhole : ∀ x, ((whole x).tidy indent).text = opener :: (inside x ++ [closer]))
    (rest : List Char) (read : Option (β × List Char)) :
    (match expect (· = ascii closer) (skipWs (utf8 rest)) with
      | some behind => some ([opener, closer], behind)
      | none => (read.map fun (s : β × List Char) =>
          (latin1 (inside s.1) ++ [closer], utf8 s.2)).map
            fun (s : List Char × List UInt8) => (opener :: s.1, s.2)) =
    (match expect (· = closer) (JsonText.skip rest) with
      | some behind => some (empty (gapOf rest), behind)
      | none => read.map fun (s : β × List Char) => (whole s.1, s.2)).map
        (writtenValue indent) := by
  rw [skipWs_utf8, expect_utf8 hc]
  cases expect (fun c => decide (c = closer)) (JsonText.skip rest) with
  | some behind =>
    show some ([opener, closer], utf8 behind) =
      some (latin1 ((empty (gapOf rest)).tidy indent).text, utf8 behind)
    rw [hempty, latin1_cons ho, latin1_cons hc]
    rfl
  | none =>
    simp only [Option.map_none, Option.map_map]
    congr 1
    funext s
    show (opener :: (latin1 (inside s.1) ++ [closer]), utf8 s.2) =
      (latin1 ((whole s.1).tidy indent).text, utf8 s.2)
    rw [hwhole, latin1_cons ho, latin1_append, latin1_cons hc]
    rfl

namespace Mirrors

variable {fuel : ℕ} (hm : Mirrors fuel)
include hm

theorem object_succ (indent : ℕ) (rest : List Char) :
    (match expect (· = ascii '}') (skipWs (utf8 rest)) with
      | some behind => some (['{', '}'], behind)
      | none => (formatMembers fuel indent (utf8 rest)).map fun (s : List Char × List UInt8) =>
          ('{' :: s.1, s.2)) =
    (match expect (· = '}') (JsonText.skip rest) with
      | some behind => some (Value.emptyObject (gapOf rest), behind)
      | none => (readMembers fuel rest).map fun (m : Members × List Char) =>
          (Value.object m.1, m.2)).map (writtenValue indent) := by
  rw [hm.members]
  exact brackets_utf8 indent '{' '}' .emptyObject .object (fun m => (m.tidy indent).text)
    (by decide) (by decide) (fun _ => rfl) (fun _ => rfl) rest (readMembers fuel rest)

theorem array_succ (indent : ℕ) (rest : List Char) :
    (match expect (· = ascii ']') (skipWs (utf8 rest)) with
      | some behind => some (['[', ']'], behind)
      | none => (formatElements fuel indent (utf8 rest)).map fun (s : List Char × List UInt8) =>
          ('[' :: s.1, s.2)) =
    (match expect (· = ']') (JsonText.skip rest) with
      | some behind => some (Value.emptyArray (gapOf rest), behind)
      | none => (readElements fuel rest).map fun (e : Elements × List Char) =>
          (Value.array e.1, e.2)).map (writtenValue indent) := by
  rw [hm.elements]
  exact brackets_utf8 indent '[' ']' .emptyArray .array (fun e => (e.tidy indent).text)
    (by decide) (by decide) (fun _ => rfl) (fun _ => rfl) rest (readElements fuel rest)

theorem value_succ (indent : ℕ) (text : List Char) :
    formatValue (fuel + 1) indent (utf8 text) =
      (readValue (fuel + 1) (JsonText.skip text)).map (writtenValue indent) := by
  rw [formatValue, skipWs_utf8]
  cases JsonText.skip text with
  | nil => rfl
  | cons c rest =>
    obtain ⟨b, bytes, hutf8, hb, hdigit, hbytes⟩ := utf8_head c rest
    rw [hutf8, readValue]
    simp only [hb '{' (by decide), hb '[' (by decide), hb '"' (by decide), hb 't' (by decide),
      hb 'f' (by decide), hb 'n' (by decide), hb '-' (by decide), hdigit]
    split
    next hc =>
      rw [hbytes (by rw [hc]; decide)]
      exact hm.object_succ indent rest
    next =>
    split
    next hc =>
      rw [hbytes (by rw [hc]; decide)]
      exact hm.array_succ indent rest
    next =>
    rw [← hutf8]
    split
    next hc =>
      rw [hc]
      exact quoted_value indent rest
    next =>
    split
    next => exact formatLiteral_utf8 indent .true (c :: rest)
    next =>
    split
    next => exact formatLiteral_utf8 indent .false (c :: rest)
    next =>
    split
    next => exact formatLiteral_utf8 indent .null (c :: rest)
    next =>
    split
    next =>
      rw [formatNumber_utf8, Option.map_map]
      rfl
    next => rfl

theorem elements_succ (indent : ℕ) (text : List Char) :
    formatElements (fuel + 1) indent (utf8 text) =
      (readElements (fuel + 1) text).map (writtenElements indent) := by
  rw [formatElements, readElements, hm.value]
  cases readValue fuel (JsonText.skip text) with
  | none => rfl
  | some read =>
    obtain ⟨v, rest⟩ := read
    simp only [Option.map_some, writtenValue, skipWs_utf8]
    cases JsonText.skip rest with
    | nil => rfl
    | cons c behind =>
      obtain ⟨b, bytes, hutf8, hb, -, hbytes⟩ := utf8_head c behind
      rw [hutf8]
      simp only [hb ',' (by decide), hb ']' (by decide)]
      split
      next hc =>
        rw [hbytes (by rw [hc]; decide), hm.elements, Option.map_map, Option.map_map]
        congr 1
        funext s
        exact congrArg (·, utf8 s.2) (written_more indent v (gapOf text) (gapOf rest) s.1)
      next =>
      split
      next hc =>
        rw [hbytes (by rw [hc]; decide)]
        exact congrArg (fun out => some (out, utf8 behind))
          (written_one indent v (gapOf text) (gapOf rest))
      next => rfl

theorem members_succ (indent : ℕ) (text : List Char) :
    formatMembers (fuel + 1) indent (utf8 text) =
      (readMembers (fuel + 1) text).map (writtenMembers indent) := by
  rw [formatMembers, readMembers, skipWs_utf8, formatString_utf8]
  cases (expect (fun c => decide (c = '"')) (JsonText.skip text)).bind readBody with
  | none => rfl
  | some read =>
    obtain ⟨body, rest⟩ := read
    simp only [Option.map_some, writtenQuoted, skipWs_utf8, expect_utf8 (d := ':') (by decide)]
    cases expect (fun c => decide (c = ':')) (JsonText.skip rest) with
    | none => rfl
    | some behind =>
      simp only [Option.map_some, hm.value]
      cases readValue fuel (JsonText.skip behind) with
      | none => rfl
      | some read =>
        obtain ⟨v, rest'⟩ := read
        simp only [Option.map_some, writtenValue, skipWs_utf8]
        cases JsonText.skip rest' with
        | nil => rfl
        | cons c last =>
          obtain ⟨b, bytes, hutf8, hb, -, hbytes⟩ := utf8_head c last
          rw [hutf8]
          simp only [hb ',' (by decide), hb '}' (by decide)]
          split
          next hc =>
            rw [hbytes (by rw [hc]; decide), hm.members, Option.map_map, Option.map_map]
            congr 1
            funext s
            exact congrArg (·, utf8 s.2) (written_member_more indent
              ⟨gapOf text, body, gapOf rest⟩ v (gapOf behind) (gapOf rest') s.1)
          next =>
          split
          next hc =>
            rw [hbytes (by rw [hc]; decide)]
            exact congrArg (fun out => some (out, utf8 last)) (written_member_one indent
              ⟨gapOf text, body, gapOf rest⟩ v (gapOf behind) (gapOf rest'))
          next => rfl

end Mirrors

/-- The guest reads the texts of the grammar and lays them out. -/
theorem mirrors (fuel : ℕ) : Mirrors fuel := by
  induction fuel with
  | zero => exact ⟨fun _ _ => rfl, fun _ _ => rfl, fun _ _ => rfl⟩
  | succ fuel ih => exact ⟨ih.value_succ, ih.elements_succ, ih.members_succ⟩

theorem length_utf8 (text : List Char) : text.length ≤ (utf8 text).length := by
  induction text with
  | nil => exact le_rfl
  | cons c text ih =>
    rw [utf8, List.flatMap_cons, List.length_append, String.length_utf8EncodeChar, List.length_cons,
      Nat.add_comm]
    exact Nat.add_le_add c.utf8Size_pos ih

theorem utf8_isEmpty (text : List Char) : (utf8 text).isEmpty = text.isEmpty := by
  cases text with
  | nil => rfl
  | cons c text =>
    obtain ⟨b, bytes, hencode⟩ := List.exists_cons_of_ne_nil (String.utf8EncodeChar_ne_nil (c := c))
    rw [utf8, List.flatMap_cons, hencode]
    rfl

theorem skip_skip (text : List Char) : JsonText.skip (JsonText.skip text) = JsonText.skip text :=
  List.dropWhile_idempotent _ _

theorem jsonPrettyPrint_utf8 (text : List Char) :
    jsonPrettyPrint (utf8 text) =
      (readText ((utf8 text).length + 1) text).map fun e => latin1 e.tidy.text := by
  have hread := (mirrors ((utf8 text).length + 1)).value 0 (JsonText.skip text)
  rw [skip_skip] at hread
  rw [jsonPrettyPrint, skipWs_utf8, utf8_isEmpty, hread, readText]
  cases hskip : JsonText.skip text with
  | nil => rfl
  | cons c rest =>
    cases readValue ((utf8 text).length + 1) (c :: rest) with
    | none => rfl
    | some read =>
      obtain ⟨v, behind⟩ := read
      simp only [Option.map_some, writtenValue, skipWs_utf8, utf8_isEmpty]
      cases (JsonText.skip behind).isEmpty with
      | false => rfl
      | true =>
        show some (latin1 (v.tidy 0).text) = some (latin1 ([] ++ ((v.tidy 0).text ++ [])))
        rw [List.append_nil, List.nil_append]

/-- What the guest prints is the layout of the tree of the text, read byte by byte. -/
theorem jsonPrettyPrint_iff (text out : List Char) :
    jsonPrettyPrint (utf8 text) = some out ↔
      ∃ e : Element, e.Ok JsonText.Body ∧ e.text = text ∧ latin1 e.tidy.text = out := by
  have hfuel : text.length ≤ (utf8 text).length + 1 := Nat.le_succ_of_le (length_utf8 text)
  rw [jsonPrettyPrint_utf8, Option.map_eq_some_iff]
  constructor
  · rintro ⟨e, hread, hout⟩
    obtain ⟨hok, htext⟩ := (readText_iff hfuel).mp hread
    exact ⟨e, hok, htext, hout⟩
  · rintro ⟨e, hok, htext, hout⟩
    exact ⟨e, (readText_iff hfuel).mpr ⟨hok, htext⟩, hout⟩

/-! ## The texts that are accepted -/

/-- The guest accepts JSON and nothing else exactly on the texts that are not JSON apart from a
string with a control character in it or an escape there is none of. -/
theorem accepts_iff (text : List Char) :
    ((∃ out, jsonPrettyPrint (utf8 text) = some out) ↔ IsJson text) ↔
      ∀ e : Element, e.Ok JsonText.Body → e.text = text → e.Ok fun body => ¬ Faulty body := by
  constructor
  · rintro h e hok htext
    obtain ⟨e', hok', htext'⟩ := h.mp ⟨_, (jsonPrettyPrint_iff text _).mpr ⟨e, hok, htext, rfl⟩⟩
    have hbody : e'.Ok JsonText.Body := hok'.mono fun _ => IsString.isBody
    rw [Element.text_injective hok hbody (htext.trans htext'.symm)]
    exact hok'.mono fun _ hstring => (isString_iff hstring.isBody).mp hstring
  · intro h
    constructor
    · rintro ⟨out, hprint⟩
      obtain ⟨e, hok, htext, -⟩ := (jsonPrettyPrint_iff text out).mp hprint
      have hstring := hok.imp (fun _ hbody hsound => (isString_iff hbody).mpr hsound) (h e hok htext)
      exact ⟨e, hstring, htext⟩
    · rintro ⟨e, hok, htext⟩
      exact ⟨_, (jsonPrettyPrint_iff text _).mpr ⟨e, hok.mono fun _ => IsString.isBody, htext, rfl⟩⟩

/-- A string with the escape `\\q`. -/
def wrongEscape : Element := .mk noGap (.string ['\\', 'q']) noGap

/-- `"\\q"` is accepted, and is no JSON text. -/
theorem wrongEscape_accepted :
    ¬ ∀ text, (∃ out, jsonPrettyPrint (utf8 text) = some out) ↔ IsJson text := by
  intro h
  have hbody : wrongEscape.Ok JsonText.Body := .escape .nil
  obtain ⟨e, hok, htext⟩ := (h wrongEscape.text).mp
    ⟨_, (jsonPrettyPrint_iff _ _).mpr ⟨wrongEscape, hbody, rfl, rfl⟩⟩
  rw [Element.text_injective (hok.mono fun _ => IsString.isBody) hbody htext] at hok
  have hfaulty : Faulty ['\\', 'q'] := .unescaped (by simp [Escapes, JsonText.simpleEscape])
  exact (isString_iff (.escape .nil)).mp hok hfaulty

/-! ## The value that is preserved -/

/-- The characters the bytes of a character are read as. -/
def latin1Char (c : Char) : List Char := (String.utf8EncodeChar c).map asChar

theorem latin1_eq_flatMap (text : List Char) : latin1 text = text.flatMap latin1Char :=
  List.map_flatMap

theorem toNat_asChar (b : UInt8) : (asChar b).toNat = b.toNat := by
  have hvalid : b.toNat.isValidChar := .inl (Nat.lt_trans b.toNat_lt (by decide))
  rw [asChar, Char.ofNat, dif_pos hvalid]
  rfl

/-- A character that is no ASCII one has more bytes than UTF-16 units. -/
theorem utf16_lt_utf8 (hc : 128 ≤ c.toNat) : (utf16 c).length < c.utf8Size := by
  have hval : c.val.toNat = c.toNat := rfl
  unfold utf16
  split
  next =>
    have hone : c.utf8Size ≠ 1 := by
      rw [Ne, Char.utf8Size_eq_one_iff, UInt32.le_iff_toNat_le, hval]
      exact Nat.not_le.mpr hc
    have hpos := c.utf8Size_pos
    show 1 < c.utf8Size
    omega
  next hlarge =>
    have hfour : c.utf8Size = 4 := by
      rw [Char.utf8Size_eq_four_iff, UInt32.lt_iff_toNat_lt, hval]
      exact Nat.lt_of_lt_of_le (by decide) (Nat.le_of_not_lt hlarge)
    rw [hfour]
    show 2 < 4
    decide

theorem lengthens_latin1 : Lengthens latin1Char := by
  refine ⟨fun c hc => ?_, fun c hc x hx => ?_, fun c hc => ?_⟩
  · rw [latin1Char, encode_ascii hc, List.map_singleton, asChar_ascii hc]
  · obtain ⟨b, hb, rfl⟩ := List.mem_map.mp hx
    rw [toNat_asChar]
    exact ⟨encode_high hc b hb, Nat.lt_trans b.toNat_lt (by decide)⟩
  · rw [latin1Char, List.length_map, String.length_utf8EncodeChar]
    exact utf16_lt_utf8 hc

/-- The tree of what is printed. -/
def printed (e : Element) : Element := (e.mapStrings (List.flatMap latin1Char)).tidy

theorem printed_text {P : List Char → Prop} {e : Element} (h : e.Ok P) :
    (printed e).text = latin1 e.tidy.text := by
  rw [printed, ← Element.tidy_mapStrings, latin1_eq_flatMap,
    Element.text_flatMap lengthens_latin1.ascii (Element.tidy_ok h)]

theorem printed_ok {e : Element} (h : e.Ok IsString) : (printed e).Ok IsString :=
  Element.tidy_ok (Element.mapStrings_ok (fun _ => lengthens_latin1.isString) h)

theorem jsonPrettyPrint_text {e : Element} (h : e.Ok IsString) :
    jsonPrettyPrint (utf8 e.text) = some (printed e).text :=
  (jsonPrettyPrint_iff _ _).mpr ⟨e, h.mono fun _ => IsString.isBody, rfl, (printed_text h).symm⟩

/-- A JSON text stands for one value. -/
theorem denotes_text {e : Element} (h : e.Ok IsString) {value : Meaning} :
    Denotes e.text value ↔ value = e.meaning := by
  constructor
  · rintro ⟨e', hok, htext, rfl⟩
    rw [Element.text_injective (hok.mono fun _ => IsString.isBody)
      (h.mono fun _ => IsString.isBody) htext]
  · rintro rfl
    exact ⟨e, h, rfl, rfl⟩

/-- What is printed stands for the value of the text, and printing it again changes nothing. -/
def Preserves (text : List Char) : Prop :=
  ∃ out, jsonPrettyPrint (utf8 text) = some out ∧
    (∃ value, Denotes text value ∧ Denotes out value) ∧ jsonPrettyPrint (utf8 out) = some out

/-- The value of a JSON text is preserved exactly when all its characters are ASCII. -/
theorem preserves_iff (text : List Char) (h : IsJson text) :
    Preserves text ↔ ∀ c ∈ text, c.toNat < 128 := by
  obtain ⟨e, hok, rfl⟩ := h
  have hrewritten : (e.mapStrings (List.flatMap latin1Char)).text = latin1 e.text := by
    rw [latin1_eq_flatMap, Element.text_flatMap lengthens_latin1.ascii hok]
  constructor
  · rintro ⟨out, hprint, ⟨value, hvalue, hout⟩, -⟩
    obtain rfl := Option.some.inj ((jsonPrettyPrint_text hok).symm.trans hprint)
    have hsame : (printed e).meaning = e.meaning :=
      ((denotes_text (printed_ok hok)).mp hout).symm.trans ((denotes_text hok).mp hvalue)
    rw [printed, Element.tidy_meaning] at hsame
    have hascii := lengthens_latin1.ascii_of_element hok hsame
    have hmap : e.mapStrings (List.flatMap latin1Char) = e :=
      Element.mapStrings_eq (hascii.mono fun _ hbody => flatMap_ascii lengthens_latin1.ascii hbody)
    rw [hmap, latin1_eq_flatMap] at hrewritten
    exact lengthens_latin1.ascii_of_flatMap hrewritten.symm
  · intro hascii
    have hrewrittenOk : (e.mapStrings (List.flatMap latin1Char)).Ok IsString :=
      Element.mapStrings_ok (fun _ => lengthens_latin1.isString) hok
    have hmap : e.mapStrings (List.flatMap latin1Char) = e :=
      Element.text_injective (hrewrittenOk.mono fun _ => IsString.isBody)
        (hok.mono fun _ => IsString.isBody) (hrewritten.trans (latin1_ascii hascii))
    have hprinted : printed e = e.tidy := congrArg Element.tidy hmap
    have hagain : printed e.tidy = e.tidy := by
      rw [printed, Element.tidy_mapStrings, hmap, Element.tidy_tidy]
    refine ⟨e.tidy.text, ?_, ⟨e.meaning, (denotes_text hok).mpr rfl, ?_⟩, ?_⟩
    · rw [jsonPrettyPrint_text hok, hprinted]
    · rw [denotes_text (Element.tidy_ok hok), Element.tidy_meaning]
    · rw [jsonPrettyPrint_text (Element.tidy_ok hok), hagain]

/-- `[1,"a"]`. -/
def pair : Element :=
  .mk noGap (.array (.more (.mk noGap (.number ['1']) noGap)
    (.one (.mk noGap (.string ['a']) noGap)))) noGap

theorem preserves_pair : Preserves pair.text := by
  have hnumber : IsNumber ['1'] :=
    @IsNumber.mk [] ['1'] [] [] (.inl rfl)
      (.digits (by decide) ⟨by decide, forall_mem_of_all rfl⟩) .none .none
  have hstring : IsString ['a'] := .plain (by decide) (by decide) rfl .nil
  exact (preserves_iff pair.text ⟨pair, ⟨hnumber, hstring⟩, rfl⟩).mpr
    (forall_mem_of_all (by decide))

/-- `"é"`. -/
def accented : Element := .mk noGap (.string ['é']) noGap

/-- Two characters are printed for the two bytes of `é`. -/
theorem accented_changed : ¬ ∀ text, IsJson text → Preserves text := by
  intro h
  have hok : accented.Ok IsString := .plain (by decide) (by decide) rfl .nil
  obtain ⟨out, hprint, ⟨value, hvalue, hout⟩, -⟩ := h accented.text ⟨accented, hok, rfl⟩
  obtain rfl := Option.some.inj ((jsonPrettyPrint_text hok).symm.trans hprint)
  have hsame : (printed accented).meaning = accented.meaning :=
    ((denotes_text (printed_ok hok)).mp hout).symm.trans ((denotes_text hok).mp hvalue)
  have hunits : units (['é'].flatMap latin1Char) = units ['é'] := Meaning.string.inj hsame
  exact absurd hunits (by decide +kernel)

end Wafer.JsonParse
