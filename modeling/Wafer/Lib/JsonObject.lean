import Wafer.Lib.JsonText
import Wafer.Lib.Text

/-!
# The text of a JSON object

An object as it is written: names and values between blanks, with the members
set apart by commas. A name is kept as it stands between its quotes, with what
it spells; a value is kept with the blanks around it.

## Main definitions

- `JsonText.MemberText`, `JsonText.ObjectText` — members and objects as written
- `JsonText.ObjectText.find` — the value of a name
- `JsonText.Body` — what may stand between the quotes of a string
- `JsonText.behindColon` — what a search for a quoted name and a colon leaves
- `JsonText.ObjectText.NamesFirst`, `Lacks` — a name stands first as its member's, or nowhere

## Main results

- `JsonText.scanString_body` — the text of a string
- `JsonText.parse_begins` — how the text of a value begins and ends
- `JsonText.ObjectText.NamesFirst.behindColon` — where a search for a name then ends
-/

namespace Wafer.Lib

namespace JsonText

structure MemberText where
  before : List Char
  raw : List Char
  gap : List Char
  written : List Char
  name : List Char
  value : Value
  before_blank : ∀ c ∈ before, isBlank c = true
  gap_blank : ∀ c ∈ gap, isBlank c = true
  name_spelled : scanString (raw ++ ['"']) = some (name, [])
  value_spelled : parse written = some value

/-- The text behind the name. -/
def MemberText.behindName (m : MemberText) : List Char := m.gap ++ ':' :: m.written

def MemberText.text (m : MemberText) : List Char :=
  m.before ++ '"' :: m.raw ++ '"' :: m.behindName

/-- A member without blanks, its name written as it is. -/
def MemberText.plain (name written : List Char) (value : Value) (hname : Plain name)
    (hvalue : parse written = some value) : MemberText where
  before := []
  raw := name
  gap := []
  written := written
  name := name
  value := value
  before_blank := nil_blank
  gap_blank := nil_blank
  name_spelled := scanString_plain hname []
  value_spelled := hvalue

theorem plain_a : Plain ['a'] := by decide

theorem plain_b : Plain ['b'] := by decide

theorem parse_string {s : List Char} (h : Plain s) : parse ('"' :: (s ++ ['"'])) = some (.str s) := by
  have hskip : skip ('"' :: (s ++ ['"'])) = '"' :: (s ++ ['"']) := skip_of_not_blank (by decide)
  rw [parse, hskip, value_string, scanString_plain h []]
  rfl

structure ObjectText where
  front : List Char
  inner : List Char
  back : List Char
  members : List MemberText
  front_blank : ∀ c ∈ front, isBlank c = true
  inner_blank : ∀ c ∈ inner, isBlank c = true
  back_blank : ∀ c ∈ back, isBlank c = true
  distinct : (members.map (·.name)).Nodup

namespace ObjectText

/-- The text behind a member, the members `ms` following it. -/
def tail (o : ObjectText) (ms : List MemberText) : List Char :=
  ms.flatMap (fun m => ',' :: m.text) ++ '}' :: o.back

/-- The text from a member on, the first of `ms`. -/
def rendered (o : ObjectText) : List MemberText → List Char
  | [] => o.inner ++ '}' :: o.back
  | m :: ms => m.text ++ o.tail ms

def render (o : ObjectText) : List Char := o.front ++ '{' :: o.rendered o.members

def find (o : ObjectText) (name : List Char) : Option Value :=
  (o.members.find? (·.name = name)).map (·.value)

variable {o : ObjectText} {m : MemberText} {before ms : List MemberText} {name : List Char}

/-- A comma or the closing brace is behind every member. -/
theorem tail_eq (o : ObjectText) (ms : List MemberText) :
    ∃ c rest, o.tail ms = c :: rest ∧ (c = ',' ∨ c = '\x7d') := by
  cases ms with
  | nil => exact ⟨'\x7d', o.back, rfl, .inr rfl⟩
  | cons m ms => exact ⟨',', m.text ++ o.tail ms, by simp [tail], .inl rfl⟩

/-- The text up to the name of `m`, the members `before` in front of it. -/
def head (o : ObjectText) (before : List MemberText) (m : MemberText) : List Char :=
  o.front ++ '\x7b' :: before.flatMap (fun x => x.text ++ [',']) ++ m.before

/-- The text around one member. -/
theorem render_eq (h : o.members = before ++ m :: ms) :
    o.render = o.head before m ++ ('"' :: m.raw ++ ['"'] ++ (m.behindName ++ o.tail ms)) := by
  have hmembers : ∀ before : List MemberText, o.rendered (before ++ m :: ms) =
      before.flatMap (fun x => x.text ++ [',']) ++ (m.text ++ o.tail ms) := by
    intro before
    induction before with
    | nil => rfl
    | cons x before ih =>
      have htail : o.tail (before ++ m :: ms) = ',' :: o.rendered (before ++ m :: ms) := by
        cases before with
        | nil => simp [tail, rendered]
        | cons y before => simp [tail, rendered]
      rw [List.cons_append, rendered, htail, ih]
      simp
  rw [render, h, hmembers, head]
  simp [MemberText.text]

/-- Names are distinct, so a member is the one of its name. -/
theorem find_eq (h : o.members = before ++ m :: ms) : o.find m.name = some m.value := by
  have hdistinct := o.distinct
  rw [h, List.map_append, List.map_cons, List.nodup_append] at hdistinct
  have hbefore : before.find? (·.name = m.name) = none := by
    rw [List.find?_eq_none]
    intro x hx
    have hne := hdistinct.2.2 x.name (List.mem_map_of_mem hx) m.name (by simp)
    simpa using hne
  rw [find, h, List.find?_append, hbefore, Option.none_or, List.find?_cons_of_pos (by simp)]
  rfl

end ObjectText

/-! ### Searching -/

/-- What stands behind the first colon after the first occurrence of a quoted name. -/
def behindColon (name text : List Char) : Option (List Char) :=
  (after ('"' :: name ++ ['"']) text).bind fun rest => (splitFirst (· = ':') rest).map (·.2)

/-- Blanks in front of a colon do not hide it. -/
theorem splitFirst_colon {gap : List Char} (hgap : ∀ c ∈ gap, isBlank c = true) (rest : List Char) :
    splitFirst (· = ':') (gap ++ ':' :: rest) = some (gap, rest) := by
  apply splitOnce_append
  intro hmem
  exact absurd (hgap ':' hmem) (by decide)

namespace ObjectText

variable {o : ObjectText} {m : MemberText} {before ms : List MemberText} {name : List Char}

/-- The first place where the name stands between quotes is that of its own member, which has it
without escapes. -/
def NamesFirst (o : ObjectText) (name : List Char) : Prop :=
  ∃ before m ms, o.members = before ++ m :: ms ∧ m.name = name ∧ m.raw = name ∧
    ∀ front, front ++ ('"' :: name ++ ['"']) <+: o.render →
      (o.head before m).length ≤ front.length

/-- The name stands nowhere between quotes, and no member has it. -/
def Lacks (o : ObjectText) (name : List Char) : Prop :=
  ¬ '"' :: name ++ ['"'] <:+: o.render ∧ ∀ m ∈ o.members, m.name ≠ name

theorem namesFirst_of_after (hms : o.members = before ++ m :: ms) (hraw : m.raw = m.name)
    (h : after ('"' :: m.name ++ ['"']) o.render = some (m.behindName ++ o.tail ms)) :
    o.NamesFirst m.name := by
  refine ⟨before, m, ms, hms, rfl, hraw, ?_⟩
  rw [render_eq hms, hraw] at h ⊢
  exact after_eq_some_iff.mp h

/-- A search for a name and a colon then ends at its member's colon. -/
theorem NamesFirst.behindColon (h : o.NamesFirst name) :
    ∃ before m ms, o.members = before ++ m :: ms ∧ m.name = name ∧
      behindColon name o.render = some (m.written ++ o.tail ms) := by
  obtain ⟨before, m, ms, hms, rfl, hraw, hfirst⟩ := h
  refine ⟨before, m, ms, hms, rfl, ?_⟩
  have hfound : after ('"' :: m.name ++ ['"']) o.render = some (m.behindName ++ o.tail ms) := by
    rw [render_eq hms, hraw] at hfirst ⊢
    exact after_eq_some_iff.mpr hfirst
  have hbehind : m.behindName ++ o.tail ms = m.gap ++ ':' :: (m.written ++ o.tail ms) := by
    simp [MemberText.behindName]
  rw [JsonText.behindColon, hfound, Option.bind_some, hbehind, splitFirst_colon m.gap_blank]
  rfl

theorem Lacks.behindColon (h : o.Lacks name) : behindColon name o.render = none := by
  rw [JsonText.behindColon, after_eq_none_iff.mpr h.1]
  rfl

theorem Lacks.find (h : o.Lacks name) : o.find name = none := by
  rw [ObjectText.find, Option.map_eq_none_iff, List.find?_eq_none]
  exact fun m hm hname => h.2 m hm (of_decide_eq_true hname)

end ObjectText

/-! ### Strings -/

/-- A text in which every quote is behind a backslash. -/
inductive Body : List Char → Prop
  | nil : Body []
  | plain {c : Char} {raw : List Char} : c ≠ '"' → c ≠ '\\' → Body raw → Body (c :: raw)
  | escape {c : Char} {raw : List Char} : Body raw → Body ('\\' :: c :: raw)

theorem Body.hex4 {a b c d : Char} {code : ℕ} {raw : List Char} (h : hex4 a b c d = some code)
    (hraw : Body raw) : Body (a :: b :: c :: d :: raw) := by
  have hdigit : ∀ {x : Char} {n : ℕ}, hexValue x = some n → x ≠ '"' ∧ x ≠ '\\' := by
    have hquote : hexValue '"' = none := by decide
    have hback : hexValue '\\' = none := by decide
    rintro x n hx
    constructor
    · rintro rfl
      cases hquote.symm.trans hx
    · rintro rfl
      cases hback.symm.trans hx
  simp only [JsonText.hex4, Option.bind_eq_bind, Option.bind_eq_some_iff] at h
  obtain ⟨_, ha, _, hb, _, hc, _, hd, -⟩ := h
  have hd := Body.plain (hdigit hd).1 (hdigit hd).2 hraw
  have hc := Body.plain (hdigit hc).1 (hdigit hc).2 hd
  have hb := Body.plain (hdigit hb).1 (hdigit hb).2 hc
  exact Body.plain (hdigit ha).1 (hdigit ha).2 hb

/-- An escape takes no quote of its own with it. -/
theorem Body.of_escape {rest raw : List Char} {x : Char} {n : ℕ}
    (h : JsonText.escape rest = some (x, n)) (hraw : Body raw) :
    Body ('\\' :: (rest.take n ++ raw)) := by
  cases rest with
  | nil => cases h
  | cons e rest =>
    rw [JsonText.escape] at h
    split at h
    · rw [unicodeEscape.eq_def] at h
      split at h
      · next a b c d rest =>
        split at h
        · cases h
        · next code hcode =>
          split at h
          · split at h
            · next s u a' b' c' d' rest =>
              split at h
              · next hpair =>
                obtain ⟨rfl, rfl⟩ := hpair
                split at h
                · cases h
                · next low hlow =>
                  split at h
                  · obtain ⟨-, rfl⟩ := Prod.mk.inj (Option.some.inj h)
                    exact .escape (.hex4 hcode (.escape (.hex4 hlow hraw)))
                  · cases h
              · cases h
            · cases h
          · split at h
            · cases h
            · obtain ⟨-, rfl⟩ := Prod.mk.inj (Option.some.inj h)
              exact .escape (.hex4 hcode hraw)
      · cases h
    · obtain ⟨_, -, he⟩ := Option.map_eq_some_iff.mp h
      obtain ⟨-, rfl⟩ := Prod.mk.inj he
      exact .escape hraw

/-- What a string is read from: the text up to the first quote that is not escaped, which is the
string itself if it has no escape. -/
theorem scanString_body {text s rest : List Char} (h : scanString text = some (s, rest)) :
    ∃ raw, text = raw ++ '"' :: rest ∧ Body raw ∧ ('\\' ∉ raw → raw = s) := by
  induction hlen : text.length using Nat.strong_induction_on generalizing text s with
  | h n ih =>
    cases text with
    | nil => cases h
    | cons c text =>
      by_cases hquote : c = '"'
      · subst hquote
        rw [scanString, scanFrom, if_pos rfl] at h
        obtain ⟨rfl, rfl⟩ := Prod.mk.inj (Option.some.inj h)
        exact ⟨[], rfl, .nil, fun _ => rfl⟩
      · by_cases hback : c = '\\'
        · subst hback
          rw [scanString_backslash] at h
          obtain ⟨⟨x, n⟩, hescape, h⟩ := Option.bind_eq_some_iff.mp h
          obtain ⟨⟨s', rest'⟩, hscan, he⟩ := Option.map_eq_some_iff.mp h
          obtain ⟨-, rfl⟩ := Prod.mk.inj he
          have hshort : (text.drop n).length < ('\\' :: text).length := by
            simp only [List.length_drop, List.length_cons]
            omega
          obtain ⟨raw, htext, hraw, -⟩ := ih _ (hlen ▸ hshort) hscan rfl
          refine ⟨'\\' :: (text.take n ++ raw), ?_, .of_escape hescape hraw, ?_⟩
          · rw [List.cons_append, List.append_assoc, ← htext, List.take_append_drop]
          · intro hno
            simp at hno
        · have hcontrol : isControl c = false := by
            by_contra hne
            rw [scanString, scanFrom, if_neg hquote, if_neg hback,
              if_pos (by simpa using hne)] at h
            cases h
          rw [scanString_cons _ hquote hback hcontrol] at h
          obtain ⟨⟨s', rest'⟩, hscan, he⟩ := Option.map_eq_some_iff.mp h
          obtain ⟨rfl, rfl⟩ := Prod.mk.inj he
          have hshort : text.length < (c :: text).length := by simp
          obtain ⟨raw, rfl, hraw, hsame⟩ := ih _ (hlen ▸ hshort) hscan rfl
          refine ⟨c :: raw, rfl, .plain hquote hback hraw, fun hno => ?_⟩
          rw [hsame fun hmem => hno (by simp [hmem])]

/-! ### Values -/

variable {text rest : List Char} {v : Value} {fuel : ℕ}

theorem skip_eq_nil (h : skip text = []) : ∀ c ∈ text, isBlank c = true :=
  List.dropWhile_eq_nil_iff.mp h

theorem takeWhile_append_skip (text : List Char) : text.takeWhile isBlank ++ skip text = text :=
  List.takeWhile_append_dropWhile

theorem isBlank_takeWhile (text : List Char) : ∀ c ∈ text.takeWhile isBlank, isBlank c = true :=
  fun _ hc => List.mem_takeWhile_imp hc

/-- Members begin with a name. -/
theorem members_begins {ms : List (List Char × Value)} (h : members fuel text = some (ms, rest)) :
    ∃ tail, text = '"' :: tail := by
  cases fuel with
  | zero => simp [members] at h
  | succ fuel =>
    rw [members.eq_def] at h
    split at h
    · cases h
    · split at h
      · next tail => exact ⟨tail, rfl⟩
      · cases h

/-- How the text of a value begins; a value that is no container is all of its text. -/
inductive Begins (text rest : List Char) : Value → Prop
  | str (raw s : List Char) : text = '"' :: raw → scanString raw = some (s, rest) →
      Begins text rest (.str s)
  | arr (tail : List Char) (items : List Value) : text = '[' :: tail → Begins text rest (.arr items)
  | obj (tail : List Char) (ms : List (List Char × Value)) : text = '{' :: tail →
      (skip tail = '}' :: rest ∧ ms = [] ∨ ∃ fuel, members fuel (skip tail) = some (ms, rest)) →
      Begins text rest (.obj ms)
  | null : text = "null".toList ++ rest → Begins text rest .null
  | true : text = "true".toList ++ rest → Begins text rest (.bool true)
  | false : text = "false".toList ++ rest → Begins text rest (.bool false)
  | num (literal : List Char) : text = literal ++ rest → isNumber literal = true →
      (∀ c ∈ literal, isNumberChar c = true) → Begins text rest (.num literal)

theorem scalar_begins (h : scalar text = some (v, rest)) : Begins text rest v := by
  have hword : ∀ (word : List Char), word <+: text → text = word ++ text.drop word.length := by
    rintro word ⟨t, rfl⟩
    simp
  simp only [scalar] at h
  split at h
  · next hnull =>
    obtain ⟨rfl, rfl⟩ := Prod.mk.inj (Option.some.inj h)
    exact .null (hword _ hnull)
  · split at h
    · next htrue =>
      obtain ⟨rfl, rfl⟩ := Prod.mk.inj (Option.some.inj h)
      exact .true (hword _ htrue)
    · split at h
      · next hfalse =>
        obtain ⟨rfl, rfl⟩ := Prod.mk.inj (Option.some.inj h)
        exact .false (hword _ hfalse)
      · split at h
        · next hnumber =>
          obtain ⟨rfl, rfl⟩ := Prod.mk.inj (Option.some.inj h)
          exact .num _ (List.takeWhile_append_dropWhile).symm hnumber
            fun c hc => List.mem_takeWhile_imp hc
        · cases h

theorem value_begins (h : value fuel text = some (v, rest)) : Begins text rest v := by
  cases fuel with
  | zero => simp [value] at h
  | succ fuel =>
    rw [value.eq_def] at h
    split at h
    · cases h
    · next n hn =>
      split at h
      · next raw =>
        obtain ⟨⟨s, r⟩, hs, heq⟩ := Option.map_eq_some_iff.mp h
        obtain ⟨rfl, rfl⟩ := Prod.mk.inj heq
        exact .str raw s rfl hs
      · next tail =>
        split at h
        · next hbrace =>
          obtain ⟨rfl, rfl⟩ := Prod.mk.inj (Option.some.inj h)
          exact .obj tail [] rfl (.inl ⟨hbrace, rfl⟩)
        · obtain ⟨⟨ms, r⟩, hms, heq⟩ := Option.map_eq_some_iff.mp h
          obtain ⟨rfl, rfl⟩ := Prod.mk.inj heq
          exact .obj tail ms rfl (.inr ⟨n, hms⟩)
      · next tail =>
        split at h
        · obtain ⟨rfl, -⟩ := Prod.mk.inj (Option.some.inj h)
          exact .arr _ _ rfl
        · obtain ⟨_, -, heq⟩ := Option.map_eq_some_iff.mp h
          obtain ⟨rfl, -⟩ := Prod.mk.inj heq
          exact .arr _ _ rfl
      · exact scalar_begins h

/-- A whole text is a value between blanks. -/
theorem parse_begins (h : parse text = some v) :
    ∃ blanks body rest, text = blanks ++ body ∧ (∀ c ∈ blanks, isBlank c = true) ∧
      (∀ c ∈ rest, isBlank c = true) ∧ Begins body rest v := by
  simp only [parse] at h
  split at h
  · next v' rest hvalue =>
    split at h
    · next hrest =>
      obtain rfl := Option.some.inj h
      exact ⟨text.takeWhile isBlank, skip text, rest, (takeWhile_append_skip text).symm,
        isBlank_takeWhile text, skip_eq_nil hrest, value_begins hvalue⟩
    · cases h
  · cases h

end JsonText

end Wafer.Lib
