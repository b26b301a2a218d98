import Wafer.Lib.JsonSyntax

/-!
# What JSON texts mean, and how they are laid out

The value of a tree leaves the blanks out and spells strings out in UTF-16 units.
A tree is laid out by setting its blanks, and its strings can be rewritten one by
one; both show in its text.

## Main definitions

- `JsonSyntax.units` — what the characters of a string stand for
- `JsonSyntax.Meaning`, `Element.meaning` — the value of a tree
- `JsonSyntax.Element.tidy` — one value a line, two blanks deeper at every level
- `JsonSyntax.Element.mapStrings` — the strings of a tree rewritten

## Main results

- `JsonSyntax.Element.tidy_tidy`, `Element.tidy_meaning` — laying out keeps the value
- `JsonSyntax.Element.text_flatMap` — rewriting characters that only strings have
- `JsonSyntax.Lengthens.ascii_of_element` — a rewriting that shows in the value
-/

namespace Wafer.Lib

namespace JsonSyntax

open JsonText (Body hex4 hexValue simpleEscape isControl)

/-! ## Values -/

/-- A character in UTF-16. -/
def utf16 (c : Char) : List ℕ :=
  if c.toNat < 0x10000 then [c.toNat]
  else [0xD800 + (c.toNat - 0x10000) / 0x400, 0xDC00 + (c.toNat - 0x10000) % 0x400]

/-- What the characters of a string stand for. An escape is one unit. -/
def units : List Char → List ℕ
  | '\\' :: 'u' :: a :: b :: c :: d :: rest => (hex4 a b c d).getD 0 :: units rest
  | '\\' :: e :: rest => ((simpleEscape e).getD e).toNat :: units rest
  | c :: rest => utf16 c ++ units rest
  | [] => []

inductive Meaning
  | word (w : Word)
  | number (literal : List Char)
  | string (units : List ℕ)
  | array (items : List Meaning)
  | object (members : List (List ℕ × Meaning))

mutual

/-- The value a tree stands for: the members in their order, the numbers as they are written. -/
def Value.meaning : Value → Meaning
  | .word w => .word w
  | .number literal => .number literal
  | .string body => .string (units body)
  | .emptyArray _ => .array []
  | .array es => .array es.meanings
  | .emptyObject _ => .object []
  | .object ms => .object ms.meanings

def Elements.meanings : Elements → List Meaning
  | .one (.mk _ v _) => [v.meaning]
  | .more (.mk _ v _) rest => v.meaning :: rest.meanings

def Members.meanings : Members → List (List ℕ × Meaning)
  | .one n (.mk _ v _) => [(units n.body, v.meaning)]
  | .more n (.mk _ v _) rest => (units n.body, v.meaning) :: rest.meanings

end

def Element.meaning : Element → Meaning
  | .mk _ v _ => v.meaning

/-- A JSON text stands for a value. -/
def Denotes (text : List Char) (value : Meaning) : Prop :=
  ∃ e : Element, e.Ok IsString ∧ e.text = text ∧ e.meaning = value

/-! ## Layout -/

def noGap : Gap := ⟨[], JsonText.nil_blank⟩

def spaceGap : Gap := ⟨[' '], by simp; rfl⟩

/-- A new line, with blanks in front of what it goes on with. -/
def lineGap (indent : ℕ) : Gap where
  text := '\n' :: List.replicate indent ' '
  blank := by
    intro c hc
    rcases List.mem_cons.mp hc with rfl | hc
    · rfl
    · rw [List.eq_of_mem_replicate hc]
      rfl

mutual

def Value.tidy (indent : ℕ) : Value → Value
  | .word w => .word w
  | .number literal => .number literal
  | .string body => .string body
  | .emptyArray _ => .emptyArray noGap
  | .array es => .array (es.tidy indent)
  | .emptyObject _ => .emptyObject noGap
  | .object ms => .object (ms.tidy indent)

/-- Each element on a line of its own, two blanks deeper than the brackets. -/
def Elements.tidy (indent : ℕ) : Elements → Elements
  | .one (.mk _ v _) => .one (.mk (lineGap (indent + 2)) (v.tidy (indent + 2)) (lineGap indent))
  | .more (.mk _ v _) rest =>
    .more (.mk (lineGap (indent + 2)) (v.tidy (indent + 2)) noGap) (rest.tidy indent)

def Members.tidy (indent : ℕ) : Members → Members
  | .one n (.mk _ v _) =>
    .one ⟨lineGap (indent + 2), n.body, noGap⟩ (.mk spaceGap (v.tidy (indent + 2)) (lineGap indent))
  | .more n (.mk _ v _) rest =>
    .more ⟨lineGap (indent + 2), n.body, noGap⟩ (.mk spaceGap (v.tidy (indent + 2)) noGap)
      (rest.tidy indent)

end

def Element.tidy : Element → Element
  | .mk _ v _ => .mk noGap (v.tidy 0) noGap

mutual

/-- Laying out again changes nothing. -/
theorem Value.tidy_tidy (i j : ℕ) : ∀ v : Value, (v.tidy i).tidy j = v.tidy j
  | .word _ => rfl
  | .number _ => rfl
  | .string _ => rfl
  | .emptyArray _ => rfl
  | .array es => congrArg Value.array (es.tidy_tidy i j)
  | .emptyObject _ => rfl
  | .object ms => congrArg Value.object (ms.tidy_tidy i j)

theorem Elements.tidy_tidy (i j : ℕ) : ∀ es : Elements, (es.tidy i).tidy j = es.tidy j
  | .one (.mk _ v _) => by
    rw [Elements.tidy, Elements.tidy, v.tidy_tidy]
    rfl
  | .more (.mk _ v _) rest => by
    rw [Elements.tidy, Elements.tidy, v.tidy_tidy, rest.tidy_tidy]
    rfl

theorem Members.tidy_tidy (i j : ℕ) : ∀ ms : Members, (ms.tidy i).tidy j = ms.tidy j
  | .one n (.mk _ v _) => by
    rw [Members.tidy, Members.tidy, v.tidy_tidy]
    rfl
  | .more n (.mk _ v _) rest => by
    rw [Members.tidy, Members.tidy, v.tidy_tidy, rest.tidy_tidy]
    rfl

end

theorem Element.tidy_tidy (e : Element) : e.tidy.tidy = e.tidy := by
  obtain ⟨before, v, after⟩ := e
  exact congrArg (Element.mk noGap · noGap) (v.tidy_tidy 0 0)

mutual

theorem Value.tidy_meaning (i : ℕ) : ∀ v : Value, (v.tidy i).meaning = v.meaning
  | .word _ => rfl
  | .number _ => rfl
  | .string _ => rfl
  | .emptyArray _ => rfl
  | .array es => congrArg Meaning.array (es.tidy_meanings i)
  | .emptyObject _ => rfl
  | .object ms => congrArg Meaning.object (ms.tidy_meanings i)

theorem Elements.tidy_meanings (i : ℕ) : ∀ es : Elements, (es.tidy i).meanings = es.meanings
  | .one (.mk _ v _) => by
    rw [Elements.tidy, Elements.meanings, v.tidy_meaning]
    rfl
  | .more (.mk _ v _) rest => by
    rw [Elements.tidy, Elements.meanings, v.tidy_meaning, rest.tidy_meanings]
    rfl

theorem Members.tidy_meanings (i : ℕ) : ∀ ms : Members, (ms.tidy i).meanings = ms.meanings
  | .one n (.mk _ v _) => by
    rw [Members.tidy, Members.meanings, v.tidy_meaning]
    rfl
  | .more n (.mk _ v _) rest => by
    rw [Members.tidy, Members.meanings, v.tidy_meaning, rest.tidy_meanings]
    rfl

end

theorem Element.tidy_meaning (e : Element) : e.tidy.meaning = e.meaning := by
  obtain ⟨before, v, after⟩ := e
  exact v.tidy_meaning 0

mutual

theorem Value.tidy_ok {P : List Char → Prop} (i : ℕ) : ∀ {v : Value}, v.Ok P → (v.tidy i).Ok P
  | .word _, _ => trivial
  | .number _, h => h
  | .string _, h => h
  | .emptyArray _, _ => trivial
  | .array _, h => Elements.tidy_ok i h
  | .emptyObject _, _ => trivial
  | .object _, h => Members.tidy_ok i h

theorem Elements.tidy_ok {P : List Char → Prop} (i : ℕ) :
    ∀ {es : Elements}, es.Ok P → (es.tidy i).Ok P
  | .one (.mk _ _ _), h => Value.tidy_ok (i + 2) h
  | .more (.mk _ _ _) _, h => ⟨Value.tidy_ok (i + 2) h.1, Elements.tidy_ok i h.2⟩

theorem Members.tidy_ok {P : List Char → Prop} (i : ℕ) :
    ∀ {ms : Members}, ms.Ok P → (ms.tidy i).Ok P
  | .one _ (.mk _ _ _), h => ⟨h.1, Value.tidy_ok (i + 2) h.2⟩
  | .more _ (.mk _ _ _) _, h => ⟨h.1, Value.tidy_ok (i + 2) h.2.1, Members.tidy_ok i h.2.2⟩

end

theorem Element.tidy_ok {P : List Char → Prop} {e : Element} (h : e.Ok P) : e.tidy.Ok P := by
  obtain ⟨before, v, after⟩ := e
  exact Value.tidy_ok 0 h

/-! ## Rewritten strings -/

mutual

def Value.mapStrings (f : List Char → List Char) : Value → Value
  | .word w => .word w
  | .number literal => .number literal
  | .string body => .string (f body)
  | .emptyArray gap => .emptyArray gap
  | .array es => .array (es.mapStrings f)
  | .emptyObject gap => .emptyObject gap
  | .object ms => .object (ms.mapStrings f)

def Elements.mapStrings (f : List Char → List Char) : Elements → Elements
  | .one (.mk before v after) => .one (.mk before (v.mapStrings f) after)
  | .more (.mk before v after) rest =>
    .more (.mk before (v.mapStrings f) after) (rest.mapStrings f)

def Members.mapStrings (f : List Char → List Char) : Members → Members
  | .one n (.mk before v after) =>
    .one { n with body := f n.body } (.mk before (v.mapStrings f) after)
  | .more n (.mk before v after) rest =>
    .more { n with body := f n.body } (.mk before (v.mapStrings f) after) (rest.mapStrings f)

end

def Element.mapStrings (f : List Char → List Char) : Element → Element
  | .mk before v after => .mk before (v.mapStrings f) after

mutual

theorem Value.mapStrings_ok {P Q : List Char → Prop} {f : List Char → List Char}
    (hf : ∀ body, P body → Q (f body)) : ∀ {v : Value}, v.Ok P → (v.mapStrings f).Ok Q
  | .word _, _ => trivial
  | .number _, h => h
  | .string _, h => hf _ h
  | .emptyArray _, _ => trivial
  | .array _, h => Elements.mapStrings_ok hf h
  | .emptyObject _, _ => trivial
  | .object _, h => Members.mapStrings_ok hf h

theorem Elements.mapStrings_ok {P Q : List Char → Prop} {f : List Char → List Char}
    (hf : ∀ body, P body → Q (f body)) : ∀ {es : Elements}, es.Ok P → (es.mapStrings f).Ok Q
  | .one (.mk _ _ _), h => Value.mapStrings_ok hf h
  | .more (.mk _ _ _) _, h => ⟨Value.mapStrings_ok hf h.1, Elements.mapStrings_ok hf h.2⟩

theorem Members.mapStrings_ok {P Q : List Char → Prop} {f : List Char → List Char}
    (hf : ∀ body, P body → Q (f body)) : ∀ {ms : Members}, ms.Ok P → (ms.mapStrings f).Ok Q
  | .one _ (.mk _ _ _), h => ⟨hf _ h.1, Value.mapStrings_ok hf h.2⟩
  | .more _ (.mk _ _ _) _, h =>
    ⟨hf _ h.1, Value.mapStrings_ok hf h.2.1, Members.mapStrings_ok hf h.2.2⟩

end

theorem Element.mapStrings_ok {P Q : List Char → Prop} {f : List Char → List Char}
    (hf : ∀ body, P body → Q (f body)) {e : Element} (h : e.Ok P) : (e.mapStrings f).Ok Q := by
  obtain ⟨before, v, after⟩ := e
  exact Value.mapStrings_ok hf h

mutual

/-- A rewriting that changes no string of the tree changes nothing. -/
theorem Value.mapStrings_eq {f : List Char → List Char} :
    ∀ {v : Value}, v.Ok (fun body => f body = body) → v.mapStrings f = v
  | .word _, _ => rfl
  | .number _, _ => rfl
  | .string _, h => congrArg Value.string h
  | .emptyArray _, _ => rfl
  | .array _, h => congrArg Value.array (Elements.mapStrings_eq h)
  | .emptyObject _, _ => rfl
  | .object _, h => congrArg Value.object (Members.mapStrings_eq h)

theorem Elements.mapStrings_eq {f : List Char → List Char} :
    ∀ {es : Elements}, es.Ok (fun body => f body = body) → es.mapStrings f = es
  | .one (.mk _ _ _), h => by
    rw [Elements.mapStrings, Value.mapStrings_eq h]
  | .more (.mk _ _ _) _, h => by
    rw [Elements.mapStrings, Value.mapStrings_eq h.1, Elements.mapStrings_eq h.2]

theorem Members.mapStrings_eq {f : List Char → List Char} :
    ∀ {ms : Members}, ms.Ok (fun body => f body = body) → ms.mapStrings f = ms
  | .one _ (.mk _ _ _), h => by
    rw [Members.mapStrings, Value.mapStrings_eq h.2, h.1]
  | .more _ (.mk _ _ _) _, h => by
    rw [Members.mapStrings, Value.mapStrings_eq h.2.1, Members.mapStrings_eq h.2.2, h.1]

end

theorem Element.mapStrings_eq {f : List Char → List Char} {e : Element}
    (h : e.Ok fun body => f body = body) : e.mapStrings f = e := by
  obtain ⟨before, v, after⟩ := e
  exact congrArg (Element.mk before · after) (Value.mapStrings_eq h)

mutual

theorem Value.tidy_mapStrings (f : List Char → List Char) (i : ℕ) :
    ∀ v : Value, (v.tidy i).mapStrings f = (v.mapStrings f).tidy i
  | .word _ => rfl
  | .number _ => rfl
  | .string _ => rfl
  | .emptyArray _ => rfl
  | .array es => congrArg Value.array (es.tidy_mapStrings f i)
  | .emptyObject _ => rfl
  | .object ms => congrArg Value.object (ms.tidy_mapStrings f i)

theorem Elements.tidy_mapStrings (f : List Char → List Char) (i : ℕ) :
    ∀ es : Elements, (es.tidy i).mapStrings f = (es.mapStrings f).tidy i
  | .one (.mk _ v _) => by
    rw [Elements.tidy, Elements.mapStrings, v.tidy_mapStrings]
    rfl
  | .more (.mk _ v _) rest => by
    rw [Elements.tidy, Elements.mapStrings, v.tidy_mapStrings, rest.tidy_mapStrings]
    rfl

theorem Members.tidy_mapStrings (f : List Char → List Char) (i : ℕ) :
    ∀ ms : Members, (ms.tidy i).mapStrings f = (ms.mapStrings f).tidy i
  | .one n (.mk _ v _) => by
    rw [Members.tidy, Members.mapStrings, v.tidy_mapStrings]
    rfl
  | .more n (.mk _ v _) rest => by
    rw [Members.tidy, Members.mapStrings, v.tidy_mapStrings, rest.tidy_mapStrings]
    rfl

end

theorem Element.tidy_mapStrings (f : List Char → List Char) (e : Element) :
    e.tidy.mapStrings f = (e.mapStrings f).tidy := by
  obtain ⟨before, v, after⟩ := e
  exact congrArg (Element.mk noGap · noGap) (v.tidy_mapStrings f 0)

/-! ## Characters that only strings have -/

def IsAscii (text : List Char) : Prop := ∀ c ∈ text, c.toNat < 128

theorem IsAscii.append {front back : List Char} (hf : IsAscii front) (hb : IsAscii back) :
    IsAscii (front ++ back) := by
  intro c hc
  rcases List.mem_append.mp hc with hc | hc
  · exact hf c hc
  · exact hb c hc

theorem IsAscii.cons {c : Char} {text : List Char} (hc : c.toNat < 128) (h : IsAscii text) :
    IsAscii (c :: text) :=
  List.forall_mem_cons.mpr ⟨hc, h⟩

theorem isAscii_of_digits {text : List Char} (h : ∀ c ∈ text, c.isDigit = true) : IsAscii text := by
  intro c hc
  have hdigit := h c hc
  simp only [Char.isDigit, Bool.and_eq_true, decide_eq_true_eq, UInt32.le_iff_toNat_le] at hdigit
  have hle : c.toNat ≤ 57 := hdigit.2
  omega

theorem IsNumber.isAscii {literal : List Char} (h : IsNumber literal) : IsAscii literal := by
  cases h with
  | @mk minus whole fraction exponent hminus hwhole hfraction hexponent =>
    have hm : IsAscii minus := by
      rcases hminus with rfl | rfl
      · nofun
      · exact .cons (by decide) nofun
    have hw : IsAscii whole := by
      cases hwhole with
      | zero => exact .cons (by decide) nofun
      | digits _ hdigits => exact isAscii_of_digits hdigits.2
    have hf : IsAscii fraction := by
      cases hfraction with
      | none => nofun
      | digits hdigits => exact .cons (by decide) (isAscii_of_digits hdigits.2)
    have hx : IsAscii exponent := by
      cases hexponent with
      | none => nofun
      | @digits mark sign text hmark hsign hdigits =>
        have hrest : IsAscii (sign ++ text) := by
          rcases hsign with rfl | rfl | rfl
          · exact isAscii_of_digits hdigits.2
          · exact .cons (by decide) (isAscii_of_digits hdigits.2)
          · exact .cons (by decide) (isAscii_of_digits hdigits.2)
        rcases hmark with rfl | rfl
        · exact .cons (by decide) hrest
        · exact .cons (by decide) hrest
    exact hm.append (hw.append (hf.append hx))

theorem Word.isAscii (w : Word) : IsAscii w.text := by
  cases w with
  | null => exact forall_mem_of_all rfl
  | true => exact forall_mem_of_all rfl
  | false => exact forall_mem_of_all rfl

theorem Gap.isAscii (g : Gap) : IsAscii g.text := by
  intro c hc
  have hb := g.blank c hc
  simp only [JsonText.isBlank, Bool.or_eq_true, decide_eq_true_eq] at hb
  rcases hb with ((rfl | rfl) | rfl) | rfl
  · decide
  · decide
  · decide
  · decide

section Rewriting

variable {g : Char → List Char} (hg : ∀ c : Char, c.toNat < 128 → g c = [c])
include hg

theorem flatMap_ascii {text : List Char} (h : IsAscii text) : text.flatMap g = text := by
  induction text with
  | nil => rfl
  | cons c text ih =>
    rw [List.flatMap_cons, hg c (h c (by simp)), ih fun d hd => h d (by simp [hd])]
    rfl

theorem Name.text_flatMap (n : Name) :
    n.text.flatMap g = ({ n with body := n.body.flatMap g } : Name).text := by
  simp only [Name.text, List.flatMap_append, List.flatMap_cons, flatMap_ascii hg n.before.isAscii,
    flatMap_ascii hg n.after.isAscii, hg '"' (by decide)]
  rfl

mutual

/-- Rewriting characters that only strings have is rewriting the strings. -/
theorem Value.text_flatMap {P : List Char → Prop} :
    ∀ {v : Value}, v.Ok P → v.text.flatMap g = (v.mapStrings (List.flatMap g)).text
  | .word w, _ => flatMap_ascii hg w.isAscii
  | .number _, h => flatMap_ascii hg (IsNumber.isAscii h)
  | .string _, _ => by
    simp only [Value.text, Value.mapStrings, List.flatMap_append, List.flatMap_cons,
      List.flatMap_nil, hg '"' (by decide)]
    rfl
  | .emptyArray gap, _ => by
    simp only [Value.text, Value.mapStrings, List.flatMap_append, List.flatMap_cons,
      List.flatMap_nil, hg '[' (by decide), hg ']' (by decide), flatMap_ascii hg gap.isAscii]
    rfl
  | .array _, h => by
    simp only [Value.text, Value.mapStrings, List.flatMap_append, List.flatMap_cons,
      List.flatMap_nil, hg '[' (by decide), hg ']' (by decide), Elements.text_flatMap h]
    rfl
  | .emptyObject gap, _ => by
    simp only [Value.text, Value.mapStrings, List.flatMap_append, List.flatMap_cons,
      List.flatMap_nil, hg '{' (by decide), hg '}' (by decide), flatMap_ascii hg gap.isAscii]
    rfl
  | .object _, h => by
    simp only [Value.text, Value.mapStrings, List.flatMap_append, List.flatMap_cons,
      List.flatMap_nil, hg '{' (by decide), hg '}' (by decide), Members.text_flatMap h]
    rfl

theorem Elements.text_flatMap {P : List Char → Prop} :
    ∀ {es : Elements}, es.Ok P → es.text.flatMap g = (es.mapStrings (List.flatMap g)).text
  | .one (.mk before _ after), h => by
    simp only [Elements.text, Element.text, Elements.mapStrings, List.flatMap_append,
      flatMap_ascii hg before.isAscii, flatMap_ascii hg after.isAscii, Value.text_flatMap h]
  | .more (.mk before _ after) _, h => by
    simp only [Elements.text, Element.text, Elements.mapStrings, List.flatMap_append,
      List.flatMap_cons, flatMap_ascii hg before.isAscii, flatMap_ascii hg after.isAscii,
      Value.text_flatMap h.1, Elements.text_flatMap h.2, hg ',' (by decide)]
    rfl

theorem Members.text_flatMap {P : List Char → Prop} :
    ∀ {ms : Members}, ms.Ok P → ms.text.flatMap g = (ms.mapStrings (List.flatMap g)).text
  | .one n (.mk before _ after), h => by
    simp only [Members.text, Element.text, Members.mapStrings, List.flatMap_append,
      List.flatMap_cons, n.text_flatMap hg, flatMap_ascii hg before.isAscii,
      flatMap_ascii hg after.isAscii, Value.text_flatMap h.2, hg ':' (by decide)]
    rfl
  | .more n (.mk before _ after) _, h => by
    simp only [Members.text, Element.text, Members.mapStrings, List.flatMap_append,
      List.flatMap_cons, n.text_flatMap hg, flatMap_ascii hg before.isAscii,
      flatMap_ascii hg after.isAscii, Value.text_flatMap h.2.1, Members.text_flatMap h.2.2,
      hg ':' (by decide), hg ',' (by decide)]
    rfl

end

theorem Element.text_flatMap {P : List Char → Prop} {e : Element} (h : e.Ok P) :
    e.text.flatMap g = (e.mapStrings (List.flatMap g)).text := by
  obtain ⟨before, v, after⟩ := e
  simp only [Element.text, Element.mapStrings, List.flatMap_append, flatMap_ascii hg before.isAscii,
    flatMap_ascii hg after.isAscii, Value.text_flatMap hg h]

end Rewriting

/-! ## Strings in UTF-16 -/

section Units

variable {body : List Char}

theorem units_plain {c : Char} (hc : c ≠ '\\') (rest : List Char) :
    units (c :: rest) = utf16 c ++ units rest := by
  rw [units]
  · intro _ _ _ _ _ hback
    exact absurd hback hc
  · intro _ _ hback
    exact absurd hback hc

theorem units_escape {e : Char} (he : e ≠ 'u') (rest : List Char) :
    units ('\\' :: e :: rest) = ((simpleEscape e).getD e).toNat :: units rest := by
  rw [units]
  rintro _ _ _ _ _ rfl
  exact absurd rfl he

theorem units_unicode (a b c d : Char) (rest : List Char) :
    units ('\\' :: 'u' :: a :: b :: c :: d :: rest) = (hex4 a b c d).getD 0 :: units rest := by
  rw [units]

/-- Characters that are neither ASCII nor more than one unit. -/
def IsBasic (text : List Char) : Prop := ∀ c ∈ text, 128 ≤ c.toNat ∧ c.toNat < 0x10000

theorem IsBasic.ordinary {front : List Char} (h : IsBasic front) :
    ∀ c ∈ front, c ≠ '"' ∧ c ≠ '\\' ∧ isControl c = false := by
  intro c hc
  have hle := (h c hc).1
  refine ⟨?_, ?_, ?_⟩
  · rintro rfl
    exact absurd hle (by decide)
  · rintro rfl
    exact absurd hle (by decide)
  · exact decide_eq_false (by omega)

theorem units_basic {front : List Char} (h : IsBasic front) (rest : List Char) :
    units (front ++ rest) = front.map Char.toNat ++ units rest := by
  induction front with
  | nil => rfl
  | cons c front ih =>
    have hc := h c (by simp)
    have hone : utf16 c = [c.toNat] := if_pos hc.2
    rw [List.cons_append, units_plain (h.ordinary c (by simp)).2.1, hone,
      ih fun d hd => h d (by simp [hd])]
    rfl

theorem isString_basic {front : List Char} (h : IsBasic front) (hbody : IsString body) :
    IsString (front ++ body) := by
  induction front with
  | nil => exact hbody
  | cons c front ih =>
    obtain ⟨hq, hb, hcontrol⟩ := h.ordinary c (by simp)
    exact .plain hq hb hcontrol (ih fun d hd => h d (by simp [hd]))

theorem simpleEscape_ascii {c x : Char} (h : simpleEscape c = some x) :
    c.toNat < 128 ∧ c ≠ 'u' := by
  have hmem : c ∈ ['"', '\\', '/', 'b', 'f', 'n', 'r', 't'] := by
    unfold simpleEscape at h
    by_contra hno
    simp only [List.mem_cons, List.not_mem_nil, or_false, not_or] at hno
    simp [hno] at h
  simp only [List.mem_cons, List.not_mem_nil, or_false] at hmem
  rcases hmem with rfl | rfl | rfl | rfl | rfl | rfl | rfl | rfl
  all_goals exact ⟨by decide, by decide⟩

theorem hexValue_ascii {c : Char} {n : ℕ} (h : hexValue c = some n) : c.toNat < 128 := by
  have hle : ∀ {x y : Char}, x ≤ y → x.toNat ≤ y.toNat := fun hxy => hxy
  unfold hexValue at h
  split at h
  next hdigit =>
    have hone : IsAscii [c] := isAscii_of_digits (by simpa using hdigit)
    exact hone c (by simp)
  next =>
    split at h
    next hlower => exact Nat.lt_of_le_of_lt (hle hlower.2) (by decide)
    next =>
      split at h
      next hupper => exact Nat.lt_of_le_of_lt (hle hupper.2) (by decide)
      next => cases h

theorem hex4_ascii {a b c d : Char} {code : ℕ} (h : hex4 a b c d = some code) :
    a.toNat < 128 ∧ b.toNat < 128 ∧ c.toNat < 128 ∧ d.toNat < 128 := by
  simp only [hex4, Option.bind_eq_bind, Option.bind_eq_some_iff] at h
  obtain ⟨_, ha, _, hb, _, hc, _, hd, -⟩ := h
  exact ⟨hexValue_ascii ha, hexValue_ascii hb, hexValue_ascii hc, hexValue_ascii hd⟩

/-- A rewriting keeps ASCII, and makes other characters into more characters than they have units,
one unit each. -/
structure Lengthens (g : Char → List Char) : Prop where
  ascii : ∀ c : Char, c.toNat < 128 → g c = [c]
  basic : ∀ c : Char, 128 ≤ c.toNat → IsBasic (g c)
  longer : ∀ c : Char, 128 ≤ c.toNat → (utf16 c).length < (g c).length

namespace Lengthens

variable {g : Char → List Char}

section

variable (hg : Lengthens g)
include hg

theorem isString (h : IsString body) : IsString (body.flatMap g) := by
  induction h with
  | nil => exact .nil
  | @plain c body hq hb hcontrol _ ih =>
    rw [List.flatMap_cons]
    by_cases hc : c.toNat < 128
    · rw [hg.ascii c hc]
      exact .plain hq hb hcontrol ih
    · exact isString_basic (hg.basic c (Nat.le_of_not_lt hc)) ih
  | escape hx _ ih =>
    simp only [List.flatMap_cons, hg.ascii '\\' (by decide), hg.ascii _ (simpleEscape_ascii hx).1]
    exact .escape hx ih
  | unicode hcode _ ih =>
    obtain ⟨ha, hb, hc, hd⟩ := hex4_ascii hcode
    simp only [List.flatMap_cons, hg.ascii '\\' (by decide), hg.ascii 'u' (by decide), hg.ascii _ ha,
      hg.ascii _ hb, hg.ascii _ hc, hg.ascii _ hd]
    exact .unicode hcode ih

/-- A string with other characters than ASCII ones becomes longer. -/
theorem units_flatMap (h : IsString body) :
    (units body).length ≤ (units (body.flatMap g)).length ∧
      ((units (body.flatMap g)).length ≤ (units body).length → IsAscii body) := by
  induction h with
  | nil => exact ⟨le_rfl, fun _ => nofun⟩
  | @plain c body hq hb hcontrol _ ih =>
    rw [List.flatMap_cons, units_plain hb]
    by_cases hc : c.toNat < 128
    · rw [hg.ascii c hc, List.singleton_append, units_plain hb, List.length_append,
        List.length_append]
      exact ⟨Nat.add_le_add_left ih.1 _, fun hle => .cons hc (ih.2 (Nat.le_of_add_le_add_left hle))⟩
    · have hge := Nat.le_of_not_lt hc
      have hlonger := hg.longer c hge
      rw [units_basic (hg.basic c hge), List.length_append, List.length_append, List.length_map]
      exact ⟨by omega, fun hle => by omega⟩
  | @escape e x body hx _ ih =>
    obtain ⟨he, hu⟩ := simpleEscape_ascii hx
    simp only [List.flatMap_cons, hg.ascii '\\' (by decide), hg.ascii e he, List.singleton_append,
      units_escape hu, List.length_cons]
    exact ⟨Nat.succ_le_succ ih.1, fun hle =>
      .cons (by decide) (.cons he (ih.2 (Nat.le_of_succ_le_succ hle)))⟩
  | @unicode a b c d code body hcode _ ih =>
    obtain ⟨ha, hb, hc, hd⟩ := hex4_ascii hcode
    simp only [List.flatMap_cons, hg.ascii '\\' (by decide), hg.ascii 'u' (by decide), hg.ascii _ ha,
      hg.ascii _ hb, hg.ascii _ hc, hg.ascii _ hd, List.singleton_append, units_unicode,
      List.length_cons]
    exact ⟨Nat.succ_le_succ ih.1, fun hle => .cons (by decide) (.cons (by decide) (.cons ha
      (.cons hb (.cons hc (.cons hd (ih.2 (Nat.le_of_succ_le_succ hle)))))))⟩

theorem ascii_of_units (h : IsString body) (hsame : units (body.flatMap g) = units body) :
    IsAscii body :=
  (hg.units_flatMap h).2 (by rw [hsame])

end

mutual

/-- A rewriting that the value does not show has met no string with other characters. -/
theorem ascii_of_meaning (hg : Lengthens g) : ∀ {v : Value}, v.Ok IsString →
    (v.mapStrings (List.flatMap g)).meaning = v.meaning → v.Ok IsAscii
  | .word _, _, _ => trivial
  | .number _, h, _ => h
  | .string _, h, hsame => hg.ascii_of_units h (Meaning.string.inj hsame)
  | .emptyArray _, _, _ => trivial
  | .array _, h, hsame => ascii_of_meanings hg h (Meaning.array.inj hsame)
  | .emptyObject _, _, _ => trivial
  | .object _, h, hsame => ascii_of_members hg h (Meaning.object.inj hsame)

theorem ascii_of_meanings (hg : Lengthens g) : ∀ {es : Elements}, es.Ok IsString →
    (es.mapStrings (List.flatMap g)).meanings = es.meanings → es.Ok IsAscii
  | .one (.mk _ _ _), h, hsame => ascii_of_meaning hg h (List.cons.inj hsame).1
  | .more (.mk _ _ _) _, h, hsame =>
    ⟨ascii_of_meaning hg h.1 (List.cons.inj hsame).1, ascii_of_meanings hg h.2 (List.cons.inj hsame).2⟩

theorem ascii_of_members (hg : Lengthens g) : ∀ {ms : Members}, ms.Ok IsString →
    (ms.mapStrings (List.flatMap g)).meanings = ms.meanings → ms.Ok IsAscii
  | .one _ (.mk _ _ _), h, hsame =>
    ⟨hg.ascii_of_units h.1 (Prod.mk.inj (List.cons.inj hsame).1).1,
      ascii_of_meaning hg h.2 (Prod.mk.inj (List.cons.inj hsame).1).2⟩
  | .more _ (.mk _ _ _) _, h, hsame =>
    ⟨hg.ascii_of_units h.1 (Prod.mk.inj (List.cons.inj hsame).1).1,
      ascii_of_meaning hg h.2.1 (Prod.mk.inj (List.cons.inj hsame).1).2,
      ascii_of_members hg h.2.2 (List.cons.inj hsame).2⟩

end

theorem ascii_of_element (hg : Lengthens g) {e : Element} (h : e.Ok IsString)
    (hsame : (e.mapStrings (List.flatMap g)).meaning = e.meaning) : e.Ok IsAscii := by
  obtain ⟨before, v, after⟩ := e
  exact ascii_of_meaning hg h hsame

/-- A text that is not rewritten has no other characters. -/
theorem ascii_of_flatMap (hg : Lengthens g) {text : List Char} (h : text.flatMap g = text) :
    IsAscii text := by
  have hone : ∀ c, 1 ≤ (g c).length := by
    intro c
    by_cases hc : c.toNat < 128
    · rw [hg.ascii c hc]
      exact le_rfl
    · exact Nat.one_le_of_lt (hg.longer c (Nat.le_of_not_lt hc))
  have hle : ∀ text : List Char, text.length ≤ (text.flatMap g).length := by
    intro text
    induction text with
    | nil => exact le_rfl
    | cons c text ih =>
      rw [List.flatMap_cons, List.length_append, List.length_cons, Nat.add_comm]
      exact Nat.add_le_add (hone c) ih
  induction text with
  | nil => nofun
  | cons c text ih =>
    by_cases hc : c.toNat < 128
    · rw [List.flatMap_cons, hg.ascii c hc] at h
      exact .cons hc (ih (List.cons.inj h).2)
    · have hlen := congrArg List.length h
      have hutf := hg.longer c (Nat.le_of_not_lt hc)
      have hrest := hle text
      have hunit : 1 ≤ (utf16 c).length := by
        unfold utf16
        split
        · exact le_rfl
        · exact Nat.le_succ 1
      rw [List.flatMap_cons, List.length_append, List.length_cons] at hlen
      omega

end Lengthens

end Units

end JsonSyntax

end Wafer.Lib
