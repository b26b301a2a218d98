import Wafer.Lib.JsonObject
import Wafer.Plugins.ThresholdFilter

/-!
# Numbers of an object's members

Which number the field extraction of the threshold filter reads from the text of
a JSON object. The tensor preparation guest has the same function.

## Main definitions

- `ThresholdFilter.numberOf` — the number a member of an object is
- `ThresholdFilter.numberBehind` — the number read behind a colon

## Main results

- `ThresholdFilter.extractNumber_eq_numberOf` — when the extraction reads the member
-/

namespace Wafer.ThresholdFilter

open Lib JsonText

variable {F : Type*} {round : Literal → F}

/-! ### What is written behind a member's colon -/

section Written

variable {blanks word rest tail : List Char} {c : Char}

theorem isWhitespace_of_isBlank (h : isBlank c = true) : isWhitespace c = true := by
  simp only [isBlank, Bool.or_eq_true, decide_eq_true_eq] at h
  rcases h with ((rfl | rfl) | rfl) | rfl <;> decide

/-- A word between blanks is what is left of it in front of a delimiter. -/
theorem trim_written_word (hblanks : ∀ c ∈ blanks, isBlank c = true) (hne : word ≠ [])
    (hword : ∀ c ∈ word, isWhitespace c = false ∧ isDelimiter c = false)
    (hrest : ∀ c ∈ rest, isBlank c = true) (hc : isDelimiter c = true) :
    trim isWhitespace (written (blanks ++ (word ++ rest) ++ c :: tail)) = word := by
  obtain ⟨d, ds, rfl⟩ := List.exists_cons_of_ne_nil hne
  have hstart : trimStart isWhitespace (blanks ++ (d :: ds ++ rest) ++ c :: tail) =
      d :: ds ++ (rest ++ c :: tail) := by
    rw [trimStart, List.append_assoc,
      List.dropWhile_append_of_pos fun x hx => isWhitespace_of_isBlank (hblanks x hx),
      List.append_assoc, List.cons_append, List.dropWhile_cons_of_neg (by simp [hword d (by simp)])]
  have hcut : written (blanks ++ (d :: ds ++ rest) ++ c :: tail) =
      d :: ds ++ upTo isDelimiter (rest ++ c :: tail) := by
    rw [written, hstart, upTo, List.takeWhile_append_of_pos]
    · rfl
    · intro x hx
      simp [(hword x hx).2]
  have hshort : upTo isDelimiter (rest ++ c :: tail) <+: rest := by
    rw [upTo_append_cons hc]
    exact List.takeWhile_prefix _
  rw [hcut]
  exact trim_word (fun x hx => (hword x hx).1)
    fun x hx => isWhitespace_of_isBlank (hrest x (hshort.subset hx))

/-- A text that begins with a sign of structure is no number. -/
theorem parse_trim_written_eq_none (hblanks : ∀ c ∈ blanks, isBlank c = true)
    (hc : c = '"' ∨ c = '[' ∨ c = '\x7b') :
    Literal.parse (trim isWhitespace (written (blanks ++ c :: rest))) = none := by
  have hblank : isWhitespace c = false := by rcases hc with rfl | rfl | rfl <;> decide
  have hdelim : isDelimiter c = false := by rcases hc with rfl | rfl | rfl <;> decide
  have hcut : written (blanks ++ c :: rest) = c :: upTo isDelimiter rest := by
    rw [written, trimStart,
      List.dropWhile_append_of_pos fun x hx => isWhitespace_of_isBlank (hblanks x hx),
      List.dropWhile_cons_of_neg (by simp [hblank]), upTo,
      List.takeWhile_cons_of_pos (by simp [hdelim])]
    rfl
  obtain ⟨text, htext⟩ : ∃ text, trim isWhitespace (written (blanks ++ c :: rest)) = c :: text := by
    have hstart : trim isWhitespace (written (blanks ++ c :: rest)) =
        (c :: upTo isDelimiter rest).rdropWhile isWhitespace := by
      rw [hcut, trim, trimStart, List.dropWhile_cons_of_neg (by simp [hblank])]
    have hprefix := List.rdropWhile_prefix isWhitespace (c :: upTo isDelimiter rest)
    rw [← hstart] at hprefix
    cases htrim : trim isWhitespace (written (blanks ++ c :: rest)) with
    | nil =>
      rw [hstart, List.rdropWhile_eq_nil_iff] at htrim
      have := htrim c (by simp)
      rw [hblank] at this
      cases this
    | cons d text =>
      rw [htrim] at hprefix
      exact ⟨text, by rw [(List.cons_prefix_cons.mp hprefix).1]⟩
  rw [htext]
  rcases hc with rfl | rfl | rfl <;> rfl

end Written

/-- A number of a text is one to the parser. -/
theorem parse_of_isNumber {literal : List Char} (h : isNumber literal = true) :
    literal ≠ [] ∧ ∃ l, Literal.parse literal = some l := by
  have hunsigned : ∀ text negative, isUnsigned text = true →
      text ≠ [] ∧ ∃ l, Literal.unsigned negative text = some l := by
    intro text negative h
    simp only [isUnsigned, Bool.and_eq_true, bne_iff_ne, isFraction] at h
    obtain ⟨⟨hwhole, -⟩, hexponent, -⟩ := h
    refine ⟨?_, ?_⟩
    · rintro rfl
      exact hwhole rfl
    · obtain ⟨e, he⟩ := Option.isSome_iff_exists.mp hexponent
      have hnumber : ∃ n, Literal.number? text = some n := by
        simp only [Literal.number?]
        rw [if_neg (by simp [hwhole]), he]
        exact ⟨_, rfl⟩
      obtain ⟨⟨significand, exponent⟩, hn⟩ := hnumber
      exact ⟨.number negative significand exponent, by simp only [Literal.unsigned, hn]⟩
  cases literal with
  | nil => cases h
  | cons c text =>
    refine ⟨List.cons_ne_nil c text, ?_⟩
    rcases eq_or_ne c '-' with rfl | hminus
    · exact (hunsigned text true h).2
    · have hnumber : isUnsigned (c :: text) = true := by
        rw [isNumber] at h
        · exact h
        · intro _ he
          exact hminus (List.cons.inj he).1
      have hplus : c ≠ '+' := by
        rintro rfl
        simp [isUnsigned] at hnumber
      rw [Literal.parse]
      · exact (hunsigned (c :: text) false hnumber).2
      · intro _ he
        exact hminus (List.cons.inj he).1
      · intro _ he
        exact hplus (List.cons.inj he).1

theorem plain_of_isNumberChar {c : Char} (h : isNumberChar c = true) :
    isWhitespace c = false ∧ isDelimiter c = false := by
  by_cases hnumeric : isNumeric c = true
  · exact ⟨isWhitespace_of_isNumeric hnumeric, isDelimiter_of_isNumeric hnumeric⟩
  · have hother : c = '+' ∨ c = 'e' ∨ c = 'E' := by
      simp only [isNumeric, isNumberChar, Bool.or_eq_true, decide_eq_true_eq] at hnumeric h
      tauto
    rcases hother with rfl | rfl | rfl <;> decide

/-! ### Members -/

def literalOf : Value → Option (List Char)
  | .num literal => some literal
  | _ => none

variable (round) in
/-- The number the member of that name is, if it is one. -/
def numberOf (o : ObjectText) (key : String) : Option F :=
  ((o.find key.toList).bind literalOf).bind (parseNumber round)

variable (round) in
/-- The number written behind a colon. -/
def numberBehind (afterColon : List Char) : Option F :=
  parseNumber round (trim isWhitespace (written afterColon))

theorem extractNumber_eq (text : List Char) (key : String) :
    extractNumber round text key = (behindColon key.toList text).bind (numberBehind round) := by
  rw [extractNumber, behindColon, quoted]
  cases after ('"' :: key.toList ++ ['"']) text with
  | none => rfl
  | some afterKey =>
    rw [Option.bind_some]
    dsimp only
    cases splitFirst (· = ':') afterKey with
    | none => rfl
    | some cut => rfl

/-- A member is read from the text behind its colon. -/
theorem numberBehind_member (o : ObjectText) (m : MemberText) (ms : List MemberText) :
    numberBehind round (m.written ++ o.tail ms) = (literalOf m.value).bind (parseNumber round) := by
  obtain ⟨c, tail, htail, hc⟩ := o.tail_eq ms
  have hdelim : isDelimiter c = true := by rcases hc with rfl | rfl <;> rfl
  obtain ⟨blanks, body, rest, hwritten, hblanks, hrest, hbody⟩ := parse_begins m.value_spelled
  have hstructure : ∀ (d : Char) (ds : List Char), body = d :: ds → d = '"' ∨ d = '[' ∨ d = '\x7b' →
      numberBehind round (m.written ++ o.tail ms) = none := by
    rintro d ds rfl hd
    rw [numberBehind, parseNumber, hwritten, List.append_assoc, List.cons_append,
      parse_trim_written_eq_none hblanks hd]
    rfl
  have hword : ∀ word : List Char, body = word ++ rest → word ≠ [] →
      (∀ x ∈ word, isWhitespace x = false ∧ isDelimiter x = false) →
      trim isWhitespace (written (m.written ++ o.tail ms)) = word := by
    rintro word rfl hne hw
    rw [hwritten, htail]
    exact trim_written_word hblanks hne hw hrest hdelim
  generalize m.value = value at hbody
  cases hbody with
  | str raw s htext => exact hstructure '"' raw htext (.inl rfl)
  | arr tail items htext => exact hstructure '[' _ htext (.inr (.inl rfl))
  | obj tail members htext _ => exact hstructure '\x7b' _ htext (.inr (.inr rfl))
  | null htext =>
    rw [numberBehind, hword _ htext (by decide) (forall_mem_of_all (by decide))]
    rfl
  | true htext =>
    rw [numberBehind, hword _ htext (by decide) (forall_mem_of_all (by decide))]
    rfl
  | false htext =>
    rw [numberBehind, hword _ htext (by decide) (forall_mem_of_all (by decide))]
    rfl
  | num literal htext hnumber hchars =>
    rw [numberBehind, hword _ htext (parse_of_isNumber hnumber).1]
    · rfl
    · exact fun x hx => plain_of_isNumberChar (hchars x hx)

/-- The extraction reads the member of that name, its number or nothing, if the key first stands
between quotes as that member's name, or there is neither. -/
theorem extractNumber_eq_numberOf {F : Type*} (round : Literal → F) (o : ObjectText)
    (key : String) (h : o.NamesFirst key.toList ∨ o.Lacks key.toList) :
    extractNumber round o.render key = numberOf round o key := by
  rw [extractNumber_eq]
  rcases h with hfirst | hlacks
  · obtain ⟨before, m, ms, hms, hname, hcolon⟩ := hfirst.behindColon
    rw [hcolon, Option.bind_some, numberBehind_member, numberOf, ← hname, ObjectText.find_eq hms,
      Option.bind_some]
  · rw [hlacks.behindColon, numberOf, hlacks.find]
    rfl

/-- `{"a":"b","k":2}`. -/
def keyAsName : ObjectText where
  front := []
  inner := []
  back := []
  members := [
    .plain ['a'] ['"', 'b', '"'] (.str ['b']) plain_a rfl,
    .plain ['k'] ['2'] (.num ['2']) (by decide) rfl]
  front_blank := nil_blank
  inner_blank := nil_blank
  back_blank := nil_blank
  distinct := by decide

/-- The number of a member, and none where the name is not there. -/
theorem keyAsName_reads :
    extractNumber id keyAsName.render "k" = numberOf id keyAsName "k" ∧
      numberOf id keyAsName "k" = some (.number false 2 0) ∧
      extractNumber id keyAsName.render "c" = numberOf id keyAsName "c" := by
  have hms : keyAsName.members = keyAsName.members.take 1 ++ [keyAsName.members[1]] := rfl
  have hfirst : keyAsName.NamesFirst "k".toList :=
    ObjectText.namesFirst_of_after hms rfl (by decide +kernel)
  have hlacks : keyAsName.Lacks "c".toList := ⟨by decide +kernel, by decide +kernel⟩
  exact ⟨extractNumber_eq_numberOf id keyAsName "k" (.inl hfirst), by decide +kernel,
    extractNumber_eq_numberOf id keyAsName "c" (.inr hlacks)⟩

/-- A flat object without the key among its names. -/
def keyAsText : ObjectText where
  front := []
  inner := []
  back := []
  members := [
    .plain ['a'] ['"', 'k', '"'] (.str ['k']) plain_a rfl,
    .plain ['b'] ['2'] (.num ['2']) plain_b rfl]
  front_blank := nil_blank
  inner_blank := nil_blank
  back_blank := nil_blank
  distinct := by decide

/-- In `{"a":"k","b":2}` the text `k` of the first member is found and the second member's colon
is taken for that of a member `k`. -/
theorem keyAsText_reads_next :
    keyAsText.members.map (·.value) = [.str ['k'], .num ['2']] ∧
      keyAsText.render = "\x7b\"a\":\"k\",\"b\":2\x7d".toList ∧
        extractNumber id keyAsText.render "k" = some (.number false 2 0) ∧
          keyAsText.find ['k'] = none := by
  refine ⟨rfl, ?_, ?_, rfl⟩
  · decide +kernel
  · decide +kernel

end Wafer.ThresholdFilter
