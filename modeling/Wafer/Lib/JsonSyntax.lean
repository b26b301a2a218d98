import Wafer.Lib.JsonTokens

/-!
# JSON texts by the grammar

The grammar as trees that keep every blank: what a tree is written as is a JSON
text when its numbers are numbers and its strings are strings. A reader finds the
tree of a text whose strings may be any up to their closing quotes; there is one
tree at most.

## Main definitions

- `JsonSyntax.Value`, `Element`, `Elements`, `Members` — the grammar
- `JsonSyntax.Element.Ok` — the tokens are well-formed, strings by a condition of their own
- `JsonSyntax.IsJson` — a text is JSON
- `JsonSyntax.readText` — the tree of a text

## Main results

- `JsonSyntax.readText_iff` — the reader finds the trees of the grammar
- `JsonSyntax.Element.text_injective` — a text has one tree
-/

namespace Wafer.Lib

namespace JsonSyntax

open JsonText (Body isBlank skip skip_of_not_blank)

/-! ## The grammar -/

/-- Blanks between tokens. -/
@[ext]
structure Gap where
  text : List Char
  blank : ∀ c ∈ text, isBlank c = true

inductive Word
  | null
  | true
  | false
  deriving DecidableEq

def Word.text : Word → List Char
  | null => ['n', 'u', 'l', 'l']
  | true => ['t', 'r', 'u', 'e']
  | false => ['f', 'a', 'l', 's', 'e']

/-- The name of a member, with the blanks around it. -/
structure Name where
  before : Gap
  body : List Char
  after : Gap

def Name.text (n : Name) : List Char := n.before.text ++ '"' :: (n.body ++ '"' :: n.after.text)

mutual

inductive Value
  | word (w : Word)
  | number (literal : List Char)
  | string (body : List Char)
  | emptyArray (gap : Gap)
  | array (elements : Elements)
  | emptyObject (gap : Gap)
  | object (members : Members)

/-- A value between blanks. -/
inductive Element
  | mk (before : Gap) (value : Value) (after : Gap)

inductive Elements
  | one (e : Element)
  | more (e : Element) (rest : Elements)

inductive Members
  | one (name : Name) (e : Element)
  | more (name : Name) (e : Element) (rest : Members)

end

mutual

def Value.text : Value → List Char
  | .word w => w.text
  | .number literal => literal
  | .string body => '"' :: (body ++ ['"'])
  | .emptyArray gap => '[' :: (gap.text ++ [']'])
  | .array elements => '[' :: (elements.text ++ [']'])
  | .emptyObject gap => '{' :: (gap.text ++ ['}'])
  | .object members => '{' :: (members.text ++ ['}'])

def Element.text : Element → List Char
  | .mk before value after => before.text ++ (value.text ++ after.text)

def Elements.text : Elements → List Char
  | .one e => e.text
  | .more e rest => e.text ++ ',' :: rest.text

def Members.text : Members → List Char
  | .one name e => name.text ++ ':' :: e.text
  | .more name e rest => name.text ++ ':' :: (e.text ++ ',' :: rest.text)

end

mutual

/-- The numbers are numbers, and the strings meet the condition. -/
def Value.Ok (P : List Char → Prop) : Value → Prop
  | .number literal => IsNumber literal
  | .string body => P body
  | .array elements => elements.Ok P
  | .object members => members.Ok P
  | _ => True

def Element.Ok (P : List Char → Prop) : Element → Prop
  | .mk _ value _ => value.Ok P

def Elements.Ok (P : List Char → Prop) : Elements → Prop
  | .one e => e.Ok P
  | .more e rest => e.Ok P ∧ rest.Ok P

def Members.Ok (P : List Char → Prop) : Members → Prop
  | .one name e => P name.body ∧ e.Ok P
  | .more name e rest => P name.body ∧ e.Ok P ∧ rest.Ok P

end

/-- One value between blanks is a JSON text. -/
def IsJson (text : List Char) : Prop := ∃ e : Element, e.Ok IsString ∧ e.text = text

/-! ## The reader -/

def gapOf (text : List Char) : Gap := ⟨text.takeWhile isBlank, fun _ => List.mem_takeWhile_imp⟩

theorem gapOf_skip (text : List Char) : (gapOf text).text ++ skip text = text :=
  List.takeWhile_append_dropWhile

def readWord (w : Word) (text : List Char) : Option (Value × List Char) :=
  if w.text <+: text then some (.word w, text.drop w.text.length) else none

mutual

/-- The value at the front of a text, and the text behind it. -/
def readValue : ℕ → List Char → Option (Value × List Char)
  | 0, _ => none
  | _ + 1, [] => none
  | fuel + 1, c :: rest =>
    if c = '{' then
      match expect (· = '}') (skip rest) with
      | some behind => some (.emptyObject (gapOf rest), behind)
      | none => (readMembers fuel rest).map fun m => (.object m.1, m.2)
    else if c = '[' then
      match expect (· = ']') (skip rest) with
      | some behind => some (.emptyArray (gapOf rest), behind)
      | none => (readElements fuel rest).map fun e => (.array e.1, e.2)
    else if c = '"' then (readBody rest).map fun s => (.string s.1, s.2)
    else if c = 't' then readWord .true (c :: rest)
    else if c = 'f' then readWord .false (c :: rest)
    else if c = 'n' then readWord .null (c :: rest)
    else if c = '-' ∨ c.isDigit = true then
      (readNumber (c :: rest)).map fun s => (.number s.1, s.2)
    else none

/-- The elements up to the closing bracket, and the text behind it. -/
def readElements : ℕ → List Char → Option (Elements × List Char)
  | 0, _ => none
  | fuel + 1, text =>
    match readValue fuel (skip text) with
    | none => none
    | some (value, rest) =>
      match skip rest with
      | [] => none
      | c :: behind =>
        if c = ',' then
          (readElements fuel behind).map fun s => (.more (.mk (gapOf text) value (gapOf rest)) s.1, s.2)
        else if c = ']' then some (.one (.mk (gapOf text) value (gapOf rest)), behind)
        else none

/-- The members up to the closing brace, and the text behind it. -/
def readMembers : ℕ → List Char → Option (Members × List Char)
  | 0, _ => none
  | fuel + 1, text =>
    match (expect (· = '"') (skip text)).bind readBody with
    | none => none
    | some (body, rest) =>
      match expect (· = ':') (skip rest) with
      | none => none
      | some behind =>
        match readValue fuel (skip behind) with
        | none => none
        | some (value, rest') =>
          match skip rest' with
          | [] => none
          | c :: last =>
            if c = ',' then
              (readMembers fuel last).map fun s =>
                (.more ⟨gapOf text, body, gapOf rest⟩ (.mk (gapOf behind) value (gapOf rest')) s.1, s.2)
            else if c = '}' then
              some (.one ⟨gapOf text, body, gapOf rest⟩ (.mk (gapOf behind) value (gapOf rest')), last)
            else none

end

/-- The tree of a whole text. -/
def readText (fuel : ℕ) (text : List Char) : Option Element :=
  match readValue fuel (skip text) with
  | none => none
  | some (value, rest) =>
    if (skip rest).isEmpty then some (.mk (gapOf text) value (gapOf rest)) else none

/-! ## What is read is in the grammar -/

variable {text rest behind : List Char} {v : Value} {fuel : ℕ}

theorem gapOf_cons {c : Char} (h : skip text = c :: rest) : text = (gapOf text).text ++ c :: rest := by
  rw [← h, gapOf_skip]

theorem gapOf_expect {p : Char → Bool} (h : expect p (skip text) = some rest) :
    ∃ c, p c = true ∧ text = (gapOf text).text ++ c :: rest := by
  obtain ⟨c, hskip, hc⟩ := expect_eq_some.mp h
  exact ⟨c, hc, gapOf_cons hskip⟩

/-- What the readers take with some fuel is in the grammar. -/
structure Sound (fuel : ℕ) : Prop where
  value : ∀ {text v rest}, readValue fuel text = some (v, rest) → text = v.text ++ rest ∧ v.Ok Body
  elements : ∀ {text es rest}, readElements fuel text = some (es, rest) →
    text = es.text ++ ']' :: rest ∧ es.Ok Body
  members : ∀ {text ms rest}, readMembers fuel text = some (ms, rest) →
    text = ms.text ++ '}' :: rest ∧ ms.Ok Body

theorem readWord_sound {w : Word} (h : readWord w text = some (v, rest)) :
    text = v.text ++ rest ∧ v.Ok Body := by
  unfold readWord at h
  split at h
  next hword =>
    cases h
    obtain ⟨rest, rfl⟩ := hword
    exact ⟨by rw [List.drop_left]; rfl, trivial⟩
  next => cases h

namespace Sound

theorem value_succ (hs : Sound fuel) (h : readValue (fuel + 1) text = some (v, rest)) :
    text = v.text ++ rest ∧ v.Ok Body := by
  cases text with
  | nil => cases h
  | cons c text =>
    rw [readValue] at h
    split at h
    next hc =>
      subst hc
      split at h
      next behind hexpect =>
        cases h
        obtain ⟨d, hd, htext⟩ := gapOf_expect hexpect
        obtain rfl := of_decide_eq_true hd
        refine ⟨?_, trivial⟩
        conv_lhs => rw [htext]
        simp [Value.text]
      next =>
        obtain ⟨⟨ms, rest⟩, hread, heq⟩ := Option.map_eq_some_iff.mp h
        cases heq
        obtain ⟨rfl, hok⟩ := hs.members hread
        exact ⟨by simp [Value.text], hok⟩
    next =>
    split at h
    next hc =>
      subst hc
      split at h
      next behind hexpect =>
        cases h
        obtain ⟨d, hd, htext⟩ := gapOf_expect hexpect
        obtain rfl := of_decide_eq_true hd
        refine ⟨?_, trivial⟩
        conv_lhs => rw [htext]
        simp [Value.text]
      next =>
        obtain ⟨⟨es, rest⟩, hread, heq⟩ := Option.map_eq_some_iff.mp h
        cases heq
        obtain ⟨rfl, hok⟩ := hs.elements hread
        exact ⟨by simp [Value.text], hok⟩
    next =>
    split at h
    next hc =>
      subst hc
      obtain ⟨⟨body, rest⟩, hread, heq⟩ := Option.map_eq_some_iff.mp h
      cases heq
      obtain ⟨rfl, hbody⟩ := readBody_sound hread
      exact ⟨by simp [Value.text], hbody⟩
    next =>
    split at h
    next => exact readWord_sound h
    next =>
    split at h
    next => exact readWord_sound h
    next =>
    split at h
    next => exact readWord_sound h
    next =>
    split at h
    next =>
      obtain ⟨⟨literal, rest⟩, hread, heq⟩ := Option.map_eq_some_iff.mp h
      cases heq
      exact readNumber_sound hread
    next => cases h

theorem elements_succ (hs : Sound fuel) {es : Elements}
    (h : readElements (fuel + 1) text = some (es, rest)) :
    text = es.text ++ ']' :: rest ∧ es.Ok Body := by
  rw [readElements] at h
  split at h
  next => cases h
  next value rest' hvalue =>
    obtain ⟨htext, hok⟩ := hs.value hvalue
    split at h
    next => cases h
    next c behind hskip =>
      have hrest := gapOf_cons hskip
      have hwhole : text = (Element.mk (gapOf text) value (gapOf rest')).text ++ c :: behind := by
        conv_lhs => rw [← gapOf_skip text, htext, hrest]
        simp [Element.text]
      split at h
      next hc =>
        subst hc
        obtain ⟨⟨more, rest⟩, hread, heq⟩ := Option.map_eq_some_iff.mp h
        cases heq
        obtain ⟨rfl, hmore⟩ := hs.elements hread
        refine ⟨?_, hok, hmore⟩
        conv_lhs => rw [hwhole]
        simp [Elements.text]
      next =>
        split at h
        next hc =>
          subst hc
          cases h
          exact ⟨hwhole, hok⟩
        next => cases h

theorem members_succ (hs : Sound fuel) {ms : Members}
    (h : readMembers (fuel + 1) text = some (ms, rest)) :
    text = ms.text ++ '}' :: rest ∧ ms.Ok Body := by
  rw [readMembers] at h
  split at h
  next => cases h
  next body rest' hbody =>
    obtain ⟨quoted, hquote, hread⟩ := Option.bind_eq_some_iff.mp hbody
    obtain ⟨q, hq, htext⟩ := gapOf_expect hquote
    obtain rfl := of_decide_eq_true hq
    obtain ⟨hquoted, hok⟩ := readBody_sound hread
    split at h
    next => cases h
    next behind hcolon =>
      obtain ⟨k, hk, hrest⟩ := gapOf_expect hcolon
      obtain rfl := of_decide_eq_true hk
      split at h
      next => cases h
      next value rest'' hvalue =>
        obtain ⟨hbehind, hvok⟩ := hs.value hvalue
        split at h
        next => cases h
        next c last hskip =>
          have hlast := gapOf_cons hskip
          have hwhole : text = (Name.mk (gapOf text) body (gapOf rest')).text ++
              ':' :: ((Element.mk (gapOf behind) value (gapOf rest'')).text ++ c :: last) := by
            conv_lhs => rw [htext, hquoted, hrest, ← gapOf_skip behind, hbehind, hlast]
            simp [Element.text, Name.text]
          split at h
          next hc =>
            subst hc
            obtain ⟨⟨more, rest⟩, hread, heq⟩ := Option.map_eq_some_iff.mp h
            cases heq
            obtain ⟨rfl, hmore⟩ := hs.members hread
            refine ⟨?_, hok, hvok, hmore⟩
            conv_lhs => rw [hwhole]
            simp [Members.text]
          next =>
            split at h
            next hc =>
              subst hc
              cases h
              refine ⟨?_, hok, hvok⟩
              conv_lhs => rw [hwhole]
              simp [Members.text]
            next => cases h

end Sound

theorem sound (fuel : ℕ) : Sound fuel := by
  induction fuel with
  | zero => exact ⟨nofun, nofun, nofun⟩
  | succ fuel ih => exact ⟨ih.value_succ, ih.elements_succ, ih.members_succ⟩

/-! ## What is in the grammar is read -/

theorem blank_stops {c : Char} (h : isBlank c = false) : Stops isBlank (c :: rest) := by
  rintro _ ⟨⟩
  exact h

theorem skip_gap (g : Gap) (h : Stops isBlank rest) : skip (g.text ++ rest) = rest :=
  (takeWhile_stops g.blank h).2

theorem gapOf_gap (g : Gap) (h : Stops isBlank rest) : gapOf (g.text ++ rest) = g :=
  Gap.ext (takeWhile_stops g.blank h).1

theorem number_of_blank {c : Char} (h : isBlank c = true) : isNumberChar c = false := by
  simp only [isBlank, Bool.or_eq_true, decide_eq_true_eq] at h
  rcases h with ((rfl | rfl) | rfl) | rfl
  · rfl
  · rfl
  · rfl
  · rfl

/-- A number cannot go on with blanks, nor with what may be behind them. -/
theorem gap_stops (g : Gap) (h : Stops isNumberChar rest) : Stops isNumberChar (g.text ++ rest) := by
  intro d hd
  cases hg : g.text with
  | nil =>
    rw [hg] at hd
    exact h d hd
  | cons b blanks =>
    rw [hg] at hd
    cases hd
    exact number_of_blank (g.blank d (by simp [hg]))

/-- A number cannot go on behind blanks and a comma or a closing bracket. -/
theorem closes_stops (g : Gap) {c : Char} (hc : isNumberChar c = false) :
    Stops isNumberChar (g.text ++ c :: rest) := by
  refine gap_stops g ?_
  rintro _ ⟨⟩
  exact hc

theorem readValue_quote (fuel : ℕ) (rest : List Char) :
    readValue (fuel + 1) ('"' :: rest) = (readBody rest).map fun s => (.string s.1, s.2) := by
  rw [readValue, if_neg (by decide), if_neg (by decide), if_pos rfl]

theorem readWord_append (w : Word) (rest : List Char) :
    readWord w (w.text ++ rest) = some (.word w, rest) := by
  rw [readWord, if_pos (List.prefix_append _ _), List.drop_left]

theorem readValue_word (fuel : ℕ) (w : Word) (rest : List Char) :
    readValue (fuel + 1) (w.text ++ rest) = some (.word w, rest) := by
  have hread := readWord_append w rest
  cases w with
  | null =>
    rw [← hread, Word.text, List.cons_append, readValue, if_neg (by decide), if_neg (by decide),
      if_neg (by decide), if_neg (by decide), if_neg (by decide), if_pos rfl]
  | true =>
    rw [← hread, Word.text, List.cons_append, readValue, if_neg (by decide), if_neg (by decide),
      if_neg (by decide), if_pos rfl]
  | false =>
    rw [← hread, Word.text, List.cons_append, readValue, if_neg (by decide), if_neg (by decide),
      if_neg (by decide), if_neg (by decide), if_pos rfl]

/-- A number begins with a minus or a digit. -/
theorem IsNumber.head {literal : List Char} (h : IsNumber literal) :
    ∃ c more, literal = c :: more ∧ (c = '-' ∨ c.isDigit = true) := by
  cases h with
  | mk hminus hwhole _ _ =>
    rcases hminus with rfl | rfl
    · cases hwhole with
      | zero => exact ⟨'0', _, rfl, .inr rfl⟩
      | @digits d text _ hdigits => exact ⟨d, _, rfl, .inr (hdigits.2 d (by simp))⟩
    · exact ⟨'-', _, rfl, .inl rfl⟩

theorem number_head_ne {c d : Char} (hc : c = '-' ∨ c.isDigit = true) (hd : d ≠ '-')
    (hdigit : d.isDigit = false) : c ≠ d := by
  rcases hc with rfl | hc
  · exact hd.symm
  · exact ne_of_isDigit hc hdigit

theorem readValue_number (fuel : ℕ) {literal : List Char} (h : IsNumber literal)
    (hrest : Stops isNumberChar rest) :
    readValue (fuel + 1) (literal ++ rest) = some (.number literal, rest) := by
  have hread := readNumber_append h hrest
  obtain ⟨c, more, rfl, hc⟩ := h.head
  rw [List.cons_append] at hread ⊢
  rw [readValue, if_neg (number_head_ne hc (by decide) rfl), if_neg (number_head_ne hc (by decide) rfl),
    if_neg (number_head_ne hc (by decide) rfl), if_neg (number_head_ne hc (by decide) rfl),
    if_neg (number_head_ne hc (by decide) rfl), if_neg (number_head_ne hc (by decide) rfl),
    if_pos hc, hread]
  rfl

/-- A value begins with no blank and no closing bracket. -/
def opens (c : Char) : Bool := isBlank c || c = ']' || c = '}'

theorem Value.opens_stops {P : List Char → Prop} (h : v.Ok P) : Stops opens (v.text ++ rest) := by
  cases v with
  | word w =>
    cases w with
    | null => rintro _ ⟨⟩; rfl
    | true => rintro _ ⟨⟩; rfl
    | false => rintro _ ⟨⟩; rfl
  | number literal =>
    obtain ⟨c, more, hliteral, hc⟩ := IsNumber.head h
    intro d hd
    rw [Value.text, hliteral] at hd
    cases hd
    have hne := fun {k : Char} => number_head_ne (d := k) hc
    simp [opens, isBlank, hne (k := ' ') (by decide) rfl, hne (k := '\t') (by decide) rfl,
      hne (k := '\n') (by decide) rfl, hne (k := '\r') (by decide) rfl,
      hne (k := ']') (by decide) rfl, hne (k := '}') (by decide) rfl]
  | string _ => rintro _ ⟨⟩; rfl
  | emptyArray _ => rintro _ ⟨⟩; rfl
  | array _ => rintro _ ⟨⟩; rfl
  | emptyObject _ => rintro _ ⟨⟩; rfl
  | object _ => rintro _ ⟨⟩; rfl

theorem Value.blank_stops {P : List Char → Prop} (h : v.Ok P) : Stops isBlank (v.text ++ rest) :=
  Stops.mono (v.opens_stops h) fun c hc => by simp [opens, hc]

/-- What follows the blank in front of an element is its value. -/
theorem skip_element {P : List Char → Prop} (before after : Gap) (h : v.Ok P) (rest : List Char) :
    skip ((Element.mk before v after).text ++ rest) = v.text ++ (after.text ++ rest) ∧
      gapOf ((Element.mk before v after).text ++ rest) = before := by
  rw [Element.text, List.append_assoc, List.append_assoc]
  exact ⟨skip_gap before (v.blank_stops h), gapOf_gap before (v.blank_stops h)⟩

theorem Elements.opens_stops {P : List Char → Prop} {es : Elements} (h : es.Ok P) :
    Stops (· = ']') (skip (es.text ++ rest)) := by
  have hclose : ∀ c, decide (c = ']') = true → opens c = true := by
    intro c hc
    obtain rfl := of_decide_eq_true hc
    rfl
  match es with
  | .one (.mk before v after) =>
    rw [Elements.text, (skip_element before after h rest).1]
    exact Stops.mono (v.opens_stops h) hclose
  | .more (.mk before v after) tail =>
    rw [Elements.text, List.append_assoc, (skip_element before after h.1 _).1]
    exact Stops.mono (v.opens_stops h.1) hclose

/-- What follows the blank in front of a name is its quote. -/
theorem Name.skip_text (n : Name) (rest : List Char) :
    skip (n.text ++ rest) = '"' :: (n.body ++ '"' :: (n.after.text ++ rest)) ∧
      gapOf (n.text ++ rest) = n.before := by
  have hstops : Stops isBlank ('"' :: (n.body ++ '"' :: (n.after.text ++ rest))) :=
    JsonSyntax.blank_stops rfl
  have htext : n.text ++ rest =
      n.before.text ++ '"' :: (n.body ++ '"' :: (n.after.text ++ rest)) := by
    simp [Name.text]
  rw [htext]
  exact ⟨skip_gap n.before hstops, gapOf_gap n.before hstops⟩

theorem Members.opens_stops {ms : Members} : Stops (· = '}') (skip (ms.text ++ rest)) := by
  match ms with
  | .one n e =>
    rw [Members.text, List.append_assoc, (n.skip_text _).1]
    rintro _ ⟨⟩
    rfl
  | .more n e tail =>
    rw [Members.text, List.append_assoc, (n.skip_text _).1]
    rintro _ ⟨⟩
    rfl

theorem readValue_bracket (fuel : ℕ) (rest : List Char) :
    readValue (fuel + 1) ('[' :: rest) =
      match expect (· = ']') (skip rest) with
      | some behind => some (.emptyArray (gapOf rest), behind)
      | none => (readElements fuel rest).map fun e => (.array e.1, e.2) := by
  rw [readValue, if_neg (by decide), if_pos rfl]

theorem readValue_brace (fuel : ℕ) (rest : List Char) :
    readValue (fuel + 1) ('{' :: rest) =
      match expect (· = '}') (skip rest) with
      | some behind => some (.emptyObject (gapOf rest), behind)
      | none => (readMembers fuel rest).map fun m => (.object m.1, m.2) := by
  rw [readValue, if_pos rfl]

/-- One pass of the elements: a value, and what follows the blanks behind it. -/
theorem readElements_step {c : Char} (hread : readValue fuel (skip text) = some (v, rest))
    (hskip : skip rest = c :: behind) :
    readElements (fuel + 1) text =
      if c = ',' then
        (readElements fuel behind).map fun s => (.more (.mk (gapOf text) v (gapOf rest)) s.1, s.2)
      else if c = ']' then some (.one (.mk (gapOf text) v (gapOf rest)), behind)
      else none := by
  rw [readElements, hread]
  simp only [hskip]

/-- One pass of the members behind a name. -/
theorem readMembers_step (n : Name) (hbody : Body n.body) {c : Char} {last : List Char}
    (hread : readValue fuel (skip behind) = some (v, rest)) (hskip : skip rest = c :: last) :
    readMembers (fuel + 1) (n.text ++ ':' :: behind) =
      if c = ',' then
        (readMembers fuel last).map fun s => (.more n (.mk (gapOf behind) v (gapOf rest)) s.1, s.2)
      else if c = '}' then some (.one n (.mk (gapOf behind) v (gapOf rest)), last)
      else none := by
  obtain ⟨hname, hgap⟩ := n.skip_text (':' :: behind)
  have hcolon : Stops isBlank (':' :: behind) := blank_stops rfl
  have hquoted : (expect (· = '"') (skip (n.text ++ ':' :: behind))).bind readBody =
      some (n.body, n.after.text ++ ':' :: behind) := by
    rw [hname, expect_cons (by decide), Option.bind_some, readBody_append hbody]
  have hexpect : expect (· = ':') (skip (n.after.text ++ ':' :: behind)) = some behind := by
    rw [skip_gap n.after hcolon, expect_cons (by decide)]
  rw [readMembers, hquoted]
  simp only [hexpect, hread, hskip, hgap, gapOf_gap n.after hcolon]

theorem Value.text_pos (v : Value) {P : List Char → Prop} (h : v.Ok P) : 0 < v.text.length := by
  have hword : ∀ w : Word, 0 < w.text.length := by
    intro w
    cases w
    · decide
    · decide
    · decide
  cases v with
  | word w => exact hword w
  | number literal =>
    obtain ⟨c, more, hliteral, -⟩ := IsNumber.head h
    rw [Value.text, hliteral]
    exact Nat.succ_pos _
  | string _ => exact Nat.succ_pos _
  | emptyArray _ => exact Nat.succ_pos _
  | array _ => exact Nat.succ_pos _
  | emptyObject _ => exact Nat.succ_pos _
  | object _ => exact Nat.succ_pos _

mutual

/-- A value of the grammar is read when the text behind it cannot go on with a number. -/
theorem readValue_append : ∀ (v : Value) (fuel : ℕ) (rest : List Char), v.Ok Body →
    v.text.length ≤ fuel → Stops isNumberChar rest →
    readValue fuel (v.text ++ rest) = some (v, rest)
  | v, 0, _, hok, hfuel, _ => absurd (v.text_pos hok) (Nat.not_lt.mpr hfuel)
  | .word w, fuel + 1, rest, _, _, _ => readValue_word fuel w rest
  | .number literal, fuel + 1, rest, hok, _, hrest => readValue_number fuel hok hrest
  | .string body, fuel + 1, rest, hok, _, _ => by
    have htext : (Value.string body).text ++ rest = '"' :: (body ++ '"' :: rest) := by
      simp [Value.text]
    rw [htext, readValue_quote, readBody_append hok]
    rfl
  | .emptyArray gap, fuel + 1, rest, _, _, _ => by
    have htext : (Value.emptyArray gap).text ++ rest = '[' :: (gap.text ++ ']' :: rest) := by
      simp [Value.text]
    have hstops : Stops isBlank (']' :: rest) := blank_stops rfl
    rw [htext, readValue_bracket, skip_gap gap hstops, gapOf_gap gap hstops, expect_cons (by decide)]
  | .array es, fuel + 1, rest, hok, hfuel, _ => by
    have htext : (Value.array es).text ++ rest = '[' :: (es.text ++ ']' :: rest) := by
      simp [Value.text]
    have hread := readElements_append es fuel rest hok (by
      simp only [Value.text, List.length_cons, List.length_append] at hfuel
      omega)
    rw [htext, readValue_bracket, expect_stops (Elements.opens_stops hok), hread]
    rfl
  | .emptyObject gap, fuel + 1, rest, _, _, _ => by
    have htext : (Value.emptyObject gap).text ++ rest = '{' :: (gap.text ++ '}' :: rest) := by
      simp [Value.text]
    have hstops : Stops isBlank ('}' :: rest) := blank_stops rfl
    rw [htext, readValue_brace, skip_gap gap hstops, gapOf_gap gap hstops, expect_cons (by decide)]
  | .object ms, fuel + 1, rest, hok, hfuel, _ => by
    have htext : (Value.object ms).text ++ rest = '{' :: (ms.text ++ '}' :: rest) := by
      simp [Value.text]
    have hread := readMembers_append ms fuel rest hok (by
      simp only [Value.text, List.length_cons, List.length_append] at hfuel
      omega)
    rw [htext, readValue_brace, expect_stops Members.opens_stops, hread]
    rfl

theorem readElements_append : ∀ (es : Elements) (fuel : ℕ) (rest : List Char), es.Ok Body →
    es.text.length + 1 ≤ fuel →
    readElements fuel (es.text ++ ']' :: rest) = some (es, rest)
  | _, 0, _, _, hfuel => absurd hfuel (Nat.not_succ_le_zero _)
  | .one (.mk before v after), fuel + 1, rest, hok, hfuel => by
    have hread := readValue_append v fuel (after.text ++ ']' :: rest) hok (by
      simp only [Elements.text, Element.text, List.length_append] at hfuel
      omega) (closes_stops after rfl)
    have hstops : Stops isBlank (']' :: rest) := blank_stops rfl
    obtain ⟨hskip, hgap⟩ := skip_element before after hok (']' :: rest)
    rw [← hskip] at hread
    rw [Elements.text, readElements_step hread (skip_gap after hstops), if_neg (by decide),
      if_pos rfl, hgap, gapOf_gap after hstops]
  | .more (.mk before v after) tail, fuel + 1, rest, hok, hfuel => by
    simp only [Elements.text, Element.text, List.length_append, List.length_cons] at hfuel
    have hread := readValue_append v fuel (after.text ++ ',' :: (tail.text ++ ']' :: rest)) hok.1
      (by omega) (closes_stops after rfl)
    have htail := readElements_append tail fuel rest hok.2 (by omega)
    have hstops : Stops isBlank (',' :: (tail.text ++ ']' :: rest)) := blank_stops rfl
    obtain ⟨hskip, hgap⟩ := skip_element before after hok.1 (',' :: (tail.text ++ ']' :: rest))
    rw [← hskip] at hread
    rw [Elements.text, List.append_assoc, List.cons_append,
      readElements_step hread (skip_gap after hstops), if_pos rfl, htail, hgap,
      gapOf_gap after hstops]
    rfl

theorem readMembers_append : ∀ (ms : Members) (fuel : ℕ) (rest : List Char), ms.Ok Body →
    ms.text.length + 1 ≤ fuel →
    readMembers fuel (ms.text ++ '}' :: rest) = some (ms, rest)
  | _, 0, _, _, hfuel => absurd hfuel (Nat.not_succ_le_zero _)
  | .one n (.mk before v after), fuel + 1, rest, hok, hfuel => by
    simp only [Members.text, Element.text, List.length_append, List.length_cons] at hfuel
    have hread := readValue_append v fuel (after.text ++ '}' :: rest) hok.2 (by omega)
      (closes_stops after rfl)
    have hstops : Stops isBlank ('}' :: rest) := blank_stops rfl
    obtain ⟨hskip, hgap⟩ := skip_element before after hok.2 ('}' :: rest)
    rw [← hskip] at hread
    rw [Members.text, List.append_assoc, List.cons_append,
      readMembers_step n hok.1 hread (skip_gap after hstops), if_neg (by decide), if_pos rfl, hgap,
      gapOf_gap after hstops]
  | .more n (.mk before v after) tail, fuel + 1, rest, hok, hfuel => by
    simp only [Members.text, Element.text, List.length_append, List.length_cons] at hfuel
    have hread := readValue_append v fuel (after.text ++ ',' :: (tail.text ++ '}' :: rest)) hok.2.1
      (by omega) (closes_stops after rfl)
    have htail := readMembers_append tail fuel rest hok.2.2 (by omega)
    have hstops : Stops isBlank (',' :: (tail.text ++ '}' :: rest)) := blank_stops rfl
    obtain ⟨hskip, hgap⟩ := skip_element before after hok.2.1 (',' :: (tail.text ++ '}' :: rest))
    rw [← hskip] at hread
    rw [Members.text, List.append_assoc, List.cons_append, List.append_assoc, List.cons_append,
      readMembers_step n hok.1 hread (skip_gap after hstops), if_pos rfl, htail, hgap,
      gapOf_gap after hstops]
    rfl

end

/-! ## One tree -/

/-- The reader finds the tree of a text. Every call takes a character or more, so the length of the
text is fuel enough. -/
theorem readText_iff {e : Element} (hfuel : text.length ≤ fuel) :
    readText fuel text = some e ↔ e.Ok Body ∧ e.text = text := by
  constructor
  · intro h
    unfold readText at h
    split at h
    next => cases h
    next value rest hvalue =>
      split at h
      next hend =>
        cases h
        obtain ⟨htext, hok⟩ := (sound _).value hvalue
        have hrest := gapOf_skip rest
        rw [List.isEmpty_iff.mp hend, List.append_nil] at hrest
        refine ⟨hok, ?_⟩
        rw [Element.text, hrest, ← htext, gapOf_skip]
      next => cases h
  · rintro ⟨hok, rfl⟩
    obtain ⟨before, v, after⟩ := e
    have hnil : Stops isBlank ([] : List Char) := nofun
    have hnumber : Stops isNumberChar (after.text ++ []) := gap_stops after nofun
    obtain ⟨hskip, hgap⟩ := skip_element before after hok []
    have hafter := skip_gap after hnil
    have hgap' := gapOf_gap after hnil
    simp only [List.append_nil] at hskip hgap hnumber hafter hgap'
    have hlen : v.text.length ≤ fuel := by
      simp only [Element.text, List.length_append] at hfuel
      omega
    have hread := readValue_append v fuel after.text hok hlen hnumber
    rw [readText, hskip, hread]
    simp only [hafter, hgap, hgap']
    rfl

mutual

theorem Value.Ok.imp {P Q R : List Char → Prop} (hR : ∀ body, P body → Q body → R body) :
    ∀ {v : Value}, v.Ok P → v.Ok Q → v.Ok R
  | .word _, _, _ => trivial
  | .number _, h, _ => h
  | .string _, h, h' => hR _ h h'
  | .emptyArray _, _, _ => trivial
  | .array _, h, h' => Elements.Ok.imp hR h h'
  | .emptyObject _, _, _ => trivial
  | .object _, h, h' => Members.Ok.imp hR h h'

theorem Elements.Ok.imp {P Q R : List Char → Prop} (hR : ∀ body, P body → Q body → R body) :
    ∀ {es : Elements}, es.Ok P → es.Ok Q → es.Ok R
  | .one (.mk _ _ _), h, h' => Value.Ok.imp hR h h'
  | .more (.mk _ _ _) _, h, h' => ⟨Value.Ok.imp hR h.1 h'.1, Elements.Ok.imp hR h.2 h'.2⟩

theorem Members.Ok.imp {P Q R : List Char → Prop} (hR : ∀ body, P body → Q body → R body) :
    ∀ {ms : Members}, ms.Ok P → ms.Ok Q → ms.Ok R
  | .one _ (.mk _ _ _), h, h' => ⟨hR _ h.1 h'.1, Value.Ok.imp hR h.2 h'.2⟩
  | .more _ (.mk _ _ _) _, h, h' =>
    ⟨hR _ h.1 h'.1, Value.Ok.imp hR h.2.1 h'.2.1, Members.Ok.imp hR h.2.2 h'.2.2⟩

end

/-- Strings that meet two conditions meet what the two give. -/
theorem Element.Ok.imp {P Q R : List Char → Prop} (hR : ∀ body, P body → Q body → R body)
    {e : Element} (h : e.Ok P) (h' : e.Ok Q) : e.Ok R := by
  obtain ⟨before, v, after⟩ := e
  exact Value.Ok.imp hR h h'

theorem Element.Ok.mono {P Q : List Char → Prop} (hPQ : ∀ body, P body → Q body) {e : Element}
    (h : e.Ok P) : e.Ok Q :=
  h.imp (fun body hbody _ => hPQ body hbody) h

/-- A text has one tree. -/
theorem Element.text_injective {e e' : Element} (h : e.Ok Body) (h' : e'.Ok Body)
    (htext : e.text = e'.text) : e = e' := by
  have hread := (readText_iff le_rfl).mpr ⟨h, htext⟩
  have hread' := (readText_iff le_rfl).mpr ⟨h', rfl⟩
  exact Option.some.inj (hread.symm.trans hread')

end JsonSyntax

end Wafer.Lib
