import Wafer.Lib.JsonObject
import Wafer.Lib.Scan

/-!
# The tokens of JSON

Numbers and strings by the grammar, and readers for them. A string is read up to
its closing quote whatever its characters are; which of these are a JSON string
is a matter of its own.

## Main definitions

- `JsonSyntax.IsNumber` — sign, whole part, fraction and exponent
- `JsonSyntax.IsString` — the characters between the quotes of a string
- `JsonSyntax.Faulty` — a control character, or an escape there is none of
- `JsonSyntax.readNumber`, `readBody` — the readers

## Main results

- `JsonSyntax.readNumber_sound`, `readNumber_append` — numbers are read, and only these
- `JsonSyntax.readBody_sound`, `readBody_append` — a string ends at its closing quote
- `JsonSyntax.isString_iff` — which strings up to the closing quote are JSON strings
-/

namespace Wafer.Lib

namespace JsonSyntax

open JsonText (Body hex4 hexValue simpleEscape isControl)

/-! ## Numbers -/

/-- One digit or more. -/
def Digits (text : List Char) : Prop := text ≠ [] ∧ ∀ c ∈ text, c.isDigit = true

inductive IsWhole : List Char → Prop
  | zero : IsWhole ['0']
  | digits {d : Char} {text : List Char} : d ≠ '0' → Digits (d :: text) → IsWhole (d :: text)

inductive IsFraction : List Char → Prop
  | none : IsFraction []
  | digits {text : List Char} : Digits text → IsFraction ('.' :: text)

inductive IsExponent : List Char → Prop
  | none : IsExponent []
  | digits {mark : Char} {sign text : List Char} : mark = 'e' ∨ mark = 'E' →
      sign = [] ∨ sign = ['+'] ∨ sign = ['-'] → Digits text → IsExponent (mark :: (sign ++ text))

inductive IsNumber : List Char → Prop
  | mk {minus whole fraction exponent : List Char} : minus = [] ∨ minus = ['-'] → IsWhole whole →
      IsFraction fraction → IsExponent exponent →
      IsNumber (minus ++ (whole ++ (fraction ++ exponent)))

def isMark (c : Char) : Bool := c = 'e' || c = 'E'

def isSign (c : Char) : Bool := c = '+' || c = '-'

def readWhole (text : List Char) : Option (List Char × List Char) :=
  match takeIf (· = '0') text with
  | ([], rest) => takeSome Char.isDigit rest
  | (zero, rest) => some (zero, rest)

def readFraction (text : List Char) : Option (List Char × List Char) :=
  match takeIf (· = '.') text with
  | ([], rest) => some ([], rest)
  | (point, rest) => (takeSome Char.isDigit rest).map fun s => (point ++ s.1, s.2)

def readExponent (text : List Char) : Option (List Char × List Char) :=
  match takeIf isMark text with
  | ([], rest) => some ([], rest)
  | (mark, rest) =>
    (takeSome Char.isDigit (takeIf isSign rest).2).map fun s =>
      (mark ++ ((takeIf isSign rest).1 ++ s.1), s.2)

/-- The number at the front of a text. -/
def readNumber (text : List Char) : Option (List Char × List Char) := do
  let minus := takeIf (· = '-') text
  let whole ← readWhole minus.2
  let fraction ← readFraction whole.2
  let exponent ← readExponent fraction.2
  return (minus.1 ++ (whole.1 ++ (fraction.1 ++ exponent.1)), exponent.2)

/-- A character a number can go on with. -/
def isNumberChar (c : Char) : Bool := c.isDigit || c = '.' || isMark c

variable {text rest taken : List Char}

theorem readWhole_sound (h : readWhole text = some (taken, rest)) :
    text = taken ++ rest ∧ IsWhole taken := by
  unfold readWhole at h
  split at h
  next rest' hif =>
    obtain ⟨htext, -⟩ := takeIf_sound hif
    obtain ⟨hrest, hne, hdigits⟩ := takeSome_sound h
    obtain ⟨d, ds, rfl⟩ := List.exists_cons_of_ne_nil hne
    refine ⟨by rw [htext, hrest]; rfl, .digits ?_ ⟨hne, hdigits⟩⟩
    rintro rfl
    rw [htext, hrest, List.nil_append, List.cons_append, takeIf_cons (by decide)] at hif
    cases hif
  next zero rest' hzero hif =>
    cases h
    obtain ⟨htext, hnil | ⟨c, rfl, hc⟩⟩ := takeIf_sound hif
    · exact absurd hnil hzero
    · obtain rfl := of_decide_eq_true hc
      exact ⟨htext, .zero⟩

theorem readFraction_sound (h : readFraction text = some (taken, rest)) :
    text = taken ++ rest ∧ IsFraction taken := by
  unfold readFraction at h
  split at h
  next rest' hif =>
    cases h
    exact ⟨(takeIf_sound hif).1, .none⟩
  next point rest' hpoint hif =>
    obtain ⟨⟨ds, rest⟩, hsome, heq⟩ := Option.map_eq_some_iff.mp h
    cases heq
    obtain ⟨hrest, hdigits⟩ := takeSome_sound hsome
    obtain ⟨htext, hnil | ⟨c, rfl, hc⟩⟩ := takeIf_sound hif
    · exact absurd hnil hpoint
    · obtain rfl := of_decide_eq_true hc
      exact ⟨by rw [htext, hrest, List.append_assoc], .digits hdigits⟩

theorem readExponent_sound (h : readExponent text = some (taken, rest)) :
    text = taken ++ rest ∧ IsExponent taken := by
  unfold readExponent at h
  split at h
  next rest' hif =>
    cases h
    exact ⟨(takeIf_sound hif).1, .none⟩
  next mark rest' hmark hif =>
    obtain ⟨⟨ds, rest⟩, hsome, heq⟩ := Option.map_eq_some_iff.mp h
    cases heq
    obtain ⟨htext, hnil | ⟨c, rfl, hc⟩⟩ := takeIf_sound hif
    · exact absurd hnil hmark
    · have hc' : c = 'e' ∨ c = 'E' := by simpa [isMark] using hc
      rcases hif' : takeIf isSign rest' with ⟨sign, rest''⟩
      rw [hif'] at hsome
      obtain ⟨hrest, hdigits⟩ := takeSome_sound hsome
      replace hrest : rest'' = ds ++ rest := hrest
      obtain ⟨hafter, hsign⟩ := takeIf_sound hif'
      have hsign' : sign = [] ∨ sign = ['+'] ∨ sign = ['-'] := by
        rcases hsign with hnone | ⟨d, rfl, hsign⟩
        · exact .inl hnone
        · have hd : d = '+' ∨ d = '-' := by simpa [isSign] using hsign
          rcases hd with rfl | rfl
          · exact .inr (.inl rfl)
          · exact .inr (.inr rfl)
      have hexponent : IsExponent (c :: (sign ++ ds)) := .digits hc' hsign' hdigits
      refine ⟨?_, hexponent⟩
      simp [htext, hafter, hrest]

theorem readNumber_sound (h : readNumber text = some (taken, rest)) :
    text = taken ++ rest ∧ IsNumber taken := by
  simp only [readNumber, Option.bind_eq_bind, Option.bind_eq_some_iff] at h
  obtain ⟨⟨whole, rest1⟩, hwhole, ⟨fraction, rest2⟩, hfraction, ⟨exponent, rest3⟩, hexponent, h⟩ := h
  rcases hif : takeIf (· = '-') text with ⟨minus, rest0⟩
  rw [hif] at hwhole h
  cases h
  obtain ⟨h0, hminus⟩ := takeIf_sound hif
  obtain ⟨h1, hw⟩ := readWhole_sound hwhole
  obtain ⟨h2, hf⟩ := readFraction_sound hfraction
  obtain ⟨h3, hx⟩ := readExponent_sound hexponent
  refine ⟨?_, .mk ?_ hw hf hx⟩
  · dsimp only at h1 h2 h3 ⊢
    rw [h0, h1, h2, h3]
    simp
  · rcases hminus with hnone | ⟨c, rfl, hminus⟩
    · exact .inl hnone
    · obtain rfl := of_decide_eq_true hminus
      exact .inr rfl

theorem ne_of_isDigit {c d : Char} (hc : c.isDigit = true) (hd : d.isDigit = false) : c ≠ d := by
  rintro rfl
  rw [hd] at hc
  cases hc

theorem digits_stops {q : Char → Bool} (hq : ∀ c, c.isDigit = true → q c = false)
    (h : Digits text) : Stops q (text ++ rest) := by
  obtain ⟨hne, hdigits⟩ := h
  obtain ⟨d, ds, rfl⟩ := List.exists_cons_of_ne_nil hne
  rintro c ⟨⟩
  exact hq d (hdigits d (by simp))

theorem readWhole_append (h : IsWhole text) (hrest : Stops Char.isDigit rest) :
    readWhole (text ++ rest) = some (text, rest) := by
  cases h with
  | zero => rfl
  | @digits d text hd hdigits =>
    have hstops : Stops (· = '0') (d :: text ++ rest) := by
      rintro c ⟨⟩
      simpa using hd
    rw [readWhole, takeIf_stops hstops]
    exact takeSome_stops hdigits.1 hdigits.2 hrest

theorem readFraction_append (h : IsFraction text) (hpoint : Stops (· = '.') rest)
    (hrest : Stops Char.isDigit rest) : readFraction (text ++ rest) = some (text, rest) := by
  cases h with
  | none => rw [List.nil_append, readFraction, takeIf_stops hpoint]
  | @digits text hdigits =>
    rw [List.cons_append, readFraction, takeIf_cons (by decide)]
    simp only [takeSome_stops hdigits.1 hdigits.2 hrest]
    rfl

theorem readExponent_append (h : IsExponent text) (hmark : Stops isMark rest)
    (hrest : Stops Char.isDigit rest) : readExponent (text ++ rest) = some (text, rest) := by
  cases h with
  | none => rw [List.nil_append, readExponent, takeIf_stops hmark]
  | @digits mark sign text hmark' hsign hdigits =>
    have hm : isMark mark = true := by simpa [isMark] using hmark'
    have hs : takeIf isSign (sign ++ (text ++ rest)) = (sign, text ++ rest) := by
      rcases hsign with rfl | rfl | rfl
      · show takeIf isSign (text ++ rest) = ([], text ++ rest)
        refine takeIf_stops (digits_stops (fun c hc => ?_) hdigits)
        simp [isSign, ne_of_isDigit hc (rfl : '+'.isDigit = false),
          ne_of_isDigit hc (rfl : '-'.isDigit = false)]
      · exact takeIf_cons rfl
      · exact takeIf_cons rfl
    rw [List.cons_append, List.append_assoc, readExponent, takeIf_cons hm]
    simp only [hs, takeSome_stops hdigits.1 hdigits.2 hrest]
    rfl

/-- The whole part begins with a digit. -/
theorem IsWhole.stops {q : Char → Bool} (h : IsWhole text)
    (hq : ∀ c, c.isDigit = true → q c = false) : Stops q (text ++ rest) := by
  cases h with
  | zero =>
    rintro c ⟨⟩
    exact hq '0' rfl
  | digits _ hdigits => exact digits_stops hq hdigits

theorem IsFraction.stops {q : Char → Bool} (h : IsFraction text) (hq : q '.' = false)
    (hrest : Stops q rest) : Stops q (text ++ rest) := by
  cases h with
  | none => exact hrest
  | digits _ =>
    rintro c ⟨⟩
    exact hq

theorem IsExponent.stops {q : Char → Bool} (h : IsExponent text) (hq : q 'e' = false ∧ q 'E' = false)
    (hrest : Stops q rest) : Stops q (text ++ rest) := by
  cases h with
  | none => exact hrest
  | digits hmark _ _ =>
    rintro c ⟨⟩
    rcases hmark with rfl | rfl
    · exact hq.1
    · exact hq.2

/-- A number is read whole when the text behind it cannot go on with it. -/
theorem readNumber_append (h : IsNumber text) (hrest : Stops isNumberChar rest) :
    readNumber (text ++ rest) = some (text, rest) := by
  have hstop : ∀ c ∈ rest.head?, c.isDigit = false ∧ c ≠ '.' ∧ isMark c = false := by
    intro c hc
    have hno := hrest c hc
    simpa [isNumberChar, and_assoc] using hno
  have hdigit : Stops Char.isDigit rest := fun c hc => (hstop c hc).1
  have hpoint : Stops (· = '.') rest := fun c hc => by simpa using (hstop c hc).2.1
  have hmark : Stops isMark rest := fun c hc => (hstop c hc).2.2
  cases h with
  | @mk minus whole fraction exponent hminus hw hf hx =>
    have hsign : takeIf (· = '-') (minus ++ (whole ++ (fraction ++ (exponent ++ rest)))) =
        (minus, whole ++ (fraction ++ (exponent ++ rest))) := by
      rcases hminus with rfl | rfl
      · refine takeIf_stops (hw.stops fun c hc => ?_)
        simpa using ne_of_isDigit hc (rfl : '-'.isDigit = false)
      · exact takeIf_cons (by decide)
    have hwhole := readWhole_append hw (hf.stops rfl (hx.stops ⟨rfl, rfl⟩ hdigit))
    have hfraction := readFraction_append hf (hx.stops (by decide) hpoint)
      (hx.stops ⟨rfl, rfl⟩ hdigit)
    have hexponent := readExponent_append hx hmark hdigit
    simp only [List.append_assoc, readNumber, hsign, Option.bind_eq_bind]
    rw [hwhole, Option.bind_some, hfraction, Option.bind_some, hexponent]
    rfl

/-! ## Strings -/

/-- The characters between the quotes of a string. -/
inductive IsString : List Char → Prop
  | nil : IsString []
  | plain {c : Char} {body : List Char} : c ≠ '"' → c ≠ '\\' → isControl c = false →
      IsString body → IsString (c :: body)
  | escape {c x : Char} {body : List Char} : simpleEscape c = some x → IsString body →
      IsString ('\\' :: c :: body)
  | unicode {a b c d : Char} {code : ℕ} {body : List Char} : hex4 a b c d = some code →
      IsString body → IsString ('\\' :: 'u' :: a :: b :: c :: d :: body)

/-- The rest behind a backslash begins with one of the escapes. -/
def Escapes : List Char → Prop
  | [] => False
  | e :: rest => (simpleEscape e).isSome = true ∨
      (e = 'u' ∧ ∃ a b c d more, rest = a :: b :: c :: d :: more ∧ (hex4 a b c d).isSome = true)

/-- A control character, or a backslash without an escape behind it. -/
inductive Faulty : List Char → Prop
  | control {c : Char} {body : List Char} : isControl c = true → Faulty (c :: body)
  | unescaped {body : List Char} : ¬ Escapes body → Faulty ('\\' :: body)
  | behind {c : Char} {body : List Char} : c ≠ '\\' → Faulty body → Faulty (c :: body)
  | behindEscape {c : Char} {body : List Char} : Faulty body → Faulty ('\\' :: c :: body)

theorem IsString.isBody {body : List Char} (h : IsString body) : Body body := by
  induction h with
  | nil => exact .nil
  | plain hq hb _ _ ih => exact .plain hq hb ih
  | escape _ _ ih => exact .escape ih
  | unicode hcode _ ih => exact .escape (.hex4 hcode ih)

/-- A hexadecimal digit is an ordinary character. -/
theorem hex_ordinary {c : Char} {n : ℕ} (h : hexValue c = some n) :
    c ≠ '\\' ∧ isControl c = false := by
  constructor
  · rintro rfl
    have hnone : hexValue '\\' = none := by decide
    rw [hnone] at h
    cases h
  · have hlow : ∀ k, k < 32 → hexValue (Char.ofNat k) = none := by decide
    by_contra hcontrol
    have hlt : c.toNat < 32 := by simpa [isControl] using hcontrol
    have hnone := hlow c.toNat hlt
    rw [Char.ofNat_toNat, h] at hnone
    cases hnone

theorem hex4_digits {a b c d : Char} {code : ℕ} (h : hex4 a b c d = some code) :
    ∀ x ∈ [a, b, c, d], x ≠ '\\' ∧ isControl x = false := by
  simp only [hex4, Option.bind_eq_bind, Option.bind_eq_some_iff] at h
  obtain ⟨_, ha, _, hb, _, hc, _, hd, -⟩ := h
  intro x hx
  simp only [List.mem_cons, List.not_mem_nil, or_false] at hx
  rcases hx with rfl | rfl | rfl | rfl
  · exact hex_ordinary ha
  · exact hex_ordinary hb
  · exact hex_ordinary hc
  · exact hex_ordinary hd

/-- Ordinary characters in front of a string change nothing about it. -/
theorem faulty_append (front : List Char) {body : List Char}
    (h : ∀ x ∈ front, x ≠ '\\' ∧ isControl x = false) : Faulty (front ++ body) ↔ Faulty body := by
  induction front with
  | nil => exact Iff.rfl
  | cons c front ih =>
    have ih := ih fun x hx => h x (by simp [hx])
    obtain ⟨hb, hcontrol⟩ := h c (by simp)
    rw [← ih, List.cons_append]
    generalize front ++ body = rest
    constructor
    · intro hf
      cases hf with
      | control hc => exact absurd hc (by simp [hcontrol])
      | unescaped _ => exact absurd rfl hb
      | behind _ hf => exact hf
      | behindEscape _ => exact absurd rfl hb
    · exact .behind hb

theorem body_append (front : List Char) {body : List Char}
    (h : ∀ x ∈ front, x ≠ '\\' ∧ isControl x = false) (hbody : Body (front ++ body)) : Body body := by
  induction front with
  | nil => exact hbody
  | cons c front ih =>
    refine ih (fun x hx => h x (by simp [hx])) ?_
    rw [List.cons_append] at hbody
    generalize front ++ body = rest at hbody ⊢
    cases hbody with
    | plain _ _ hbody => exact hbody
    | escape _ => exact absurd rfl (h '\\' (by simp)).1

/-- A string up to the closing quote is one of JSON unless it has a control character or a
backslash without an escape. -/
theorem isString_iff {body : List Char} (h : Body body) : IsString body ↔ ¬ Faulty body := by
  constructor
  · intro hs
    induction hs with
    | nil => nofun
    | plain _ hb hcontrol hs ih =>
      rw [← List.singleton_append, faulty_append _ (by simpa using ⟨hb, hcontrol⟩)]
      exact ih hs.isBody
    | @escape c x body hx hs ih =>
      intro hf
      cases hf with
      | control hc => exact absurd hc (by decide)
      | unescaped hno => exact hno (.inl (by rw [hx]; rfl))
      | behind hb _ => exact hb rfl
      | behindEscape hf => exact ih hs.isBody hf
    | @unicode a b c d code body hcode hs ih =>
      intro hf
      cases hf with
      | control hc => exact absurd hc (by decide)
      | unescaped hno => exact hno (.inr ⟨rfl, a, b, c, d, body, rfl, by rw [hcode]; rfl⟩)
      | behind hb _ => exact hb rfl
      | behindEscape hf =>
        exact ih hs.isBody ((faulty_append [a, b, c, d] (hex4_digits hcode)).mp hf)
  · intro hno
    -- an escape with four digits takes six characters at once
    induction hlen : body.length using Nat.strong_induction_on generalizing body with
    | _ n ih =>
      cases h with
      | nil => exact .nil
      | @plain c body hq hb hbody =>
        have hcontrol : isControl c = false := by
          by_contra hc
          exact hno (.control (by simpa using hc))
        refine .plain hq hb hcontrol (ih _ ?_ hbody (fun hf => hno (.behind hb hf)) rfl)
        rw [← hlen, List.length_cons]
        omega
      | @escape e body hbody =>
        by_cases hsimple : (simpleEscape e).isSome = true
        · obtain ⟨x, hx⟩ := Option.isSome_iff_exists.mp hsimple
          refine .escape hx (ih _ ?_ hbody (fun hf => hno (.behindEscape hf)) rfl)
          rw [← hlen, List.length_cons, List.length_cons]
          omega
        · by_cases hescapes : Escapes (e :: body)
          · obtain hs | ⟨rfl, a, b, c, d, more, rfl, hsome⟩ := hescapes
            · exact absurd hs hsimple
            obtain ⟨code, hcode⟩ := Option.isSome_iff_exists.mp hsome
            have hdigits := hex4_digits hcode
            have hmore : ¬ Faulty more := fun hf =>
              hno (.behindEscape ((faulty_append [a, b, c, d] hdigits).mpr hf))
            refine .unicode hcode (ih _ ?_ (body_append [a, b, c, d] hdigits hbody) hmore rfl)
            rw [← hlen]
            simp only [List.length_cons]
            omega
          · exact absurd (.unescaped hescapes) hno

/-- The characters up to the closing quote, and the text behind it. -/
def readBody : List Char → Option (List Char × List Char)
  | [] => none
  | c :: rest =>
    if c = '"' then some ([], rest)
    else if c = '\\' then
      match rest with
      | [] => none
      | e :: rest => (readBody rest).map fun s => ('\\' :: e :: s.1, s.2)
    else (readBody rest).map fun s => (c :: s.1, s.2)

theorem readBody_quote (rest : List Char) : readBody ('"' :: rest) = some ([], rest) := by
  rw [readBody.eq_def]
  exact if_pos rfl

theorem readBody_plain {c : Char} (hq : c ≠ '"') (hb : c ≠ '\\') (rest : List Char) :
    readBody (c :: rest) = (readBody rest).map fun s => (c :: s.1, s.2) := by
  rw [readBody.eq_def]
  simp only [if_neg hq, if_neg hb]

theorem readBody_escape (e : Char) (rest : List Char) :
    readBody ('\\' :: e :: rest) = (readBody rest).map fun s => ('\\' :: e :: s.1, s.2) := by
  rw [readBody, if_neg (by decide), if_pos rfl]

theorem readBody_sound {body : List Char} (h : readBody text = some (body, rest)) :
    text = body ++ '"' :: rest ∧ Body body := by
  induction text using readBody.induct generalizing body with
  | case1 => cases h
  | case2 text =>
    rw [readBody_quote] at h
    cases h
    exact ⟨rfl, .nil⟩
  | case3 => cases h
  | case4 e text _ ih =>
    rw [readBody_escape] at h
    obtain ⟨⟨body, rest⟩, hread, heq⟩ := Option.map_eq_some_iff.mp h
    cases heq
    obtain ⟨htext, hbody⟩ := ih hread
    exact ⟨by rw [htext]; rfl, .escape hbody⟩
  | case5 c text hq hb ih =>
    rw [readBody_plain hq hb] at h
    obtain ⟨⟨body, rest⟩, hread, heq⟩ := Option.map_eq_some_iff.mp h
    cases heq
    obtain ⟨htext, hbody⟩ := ih hread
    exact ⟨by rw [htext]; rfl, .plain hq hb hbody⟩

theorem readBody_append {body : List Char} (h : Body body) (rest : List Char) :
    readBody (body ++ '"' :: rest) = some (body, rest) := by
  induction h with
  | nil => exact readBody_quote rest
  | plain hq hb _ ih =>
    rw [List.cons_append, readBody_plain hq hb, ih]
    rfl
  | escape _ ih =>
    rw [List.cons_append, List.cons_append, readBody_escape, ih]
    rfl

end JsonSyntax

end Wafer.Lib
