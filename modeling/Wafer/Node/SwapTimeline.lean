import Wafer.Lib.JsonText
import Wafer.Node.BenchSink

/-!
# The swap timeline

The bench sink writes the version transitions it saw as JSON put together by
hand: of the version strings only the quotes are escaped.

## Main results

- `scanString_escaped` — an escaped string is read back exactly if it has no backslash and no
  control character
- `HotSwapRecorder.readTimeline_iff` — the timelines that are read back
-/

namespace Wafer

open Lib Lib.JsonText

/-- `str::replace` of a quote by a backslash and a quote. -/
def escapeQuotes (text : List Char) : List Char :=
  text.flatMap fun c => if c = '"' then ['\\', '"'] else [c]

/-- A name and the colon behind it. -/
def nameJson (name : String) : List Char := '"' :: (name.toList ++ ['"', ':'])

def SwapTransition.json (t : SwapTransition) : List Char :=
  '\x7b' :: (nameJson "from" ++ '"' :: (escapeQuotes t.fromVersion.toList ++ '"' :: ',' ::
    (nameJson "to" ++ '"' :: (escapeQuotes t.toVersion.toList ++ '"' :: ',' ::
      (nameJson "pause_ns" ++ (Nat.toDigits 10 t.pauseNs ++ ['\x7d']))))))

example : SwapTransition.json ⟨"v\"1", "v2", 7⟩ =
    "\x7b\"from\":\"v\\\"1\",\"to\":\"v2\",\"pause_ns\":7\x7d".toList := by
  decide +kernel

/-- A number that may be missing. -/
def nullable : Option ℕ → List Char
  | none => "null".toList
  | some n => Nat.toDigits 10 n

namespace HotSwapRecorder

/-- When the old version was last seen before the most recent transition. By then `record` has
moved `lastV1TimeNs` on to the new version. -/
def lastV1Ns (recorder : HotSwapRecorder) : Option ℕ :=
  match recorder.firstV2TimeNs, recorder.transitions.getLast? with
  | some firstV2, some t => some (firstV2 - t.pauseNs)
  | _, _ => none

def timelineJson (recorder : HotSwapRecorder) : List Char :=
  '\x7b' :: (nameJson "transitions" ++ '[' ::
    ([','].intercalate (recorder.transitions.map SwapTransition.json) ++ ']' :: ',' ::
      (nameJson "first_v2_ns" ++ (nullable recorder.firstV2TimeNs ++ ',' ::
        (nameJson "last_v1_ns" ++ (nullable recorder.lastV1Ns ++ ['\x7d', '\n']))))))

/-- The text of `swap_timeline.json`, if it is written. -/
def writeSwapTimeline : Option HotSwapRecorder → Option (List Char)
  | none => none
  | some recorder =>
    if recorder.transitions = [] then none else some recorder.timelineJson

/-- A transition keeps the time the old version was last seen. -/
theorem lastV1Ns_record {recorder : HotSwapRecorder} {current version : String} {last now : ℕ}
    (hcurrent : recorder.currentVersion = some current) (hne : current ≠ version)
    (hlast : recorder.lastV1TimeNs = some last) (hle : last ≤ now) :
    (recorder.record version now).lastV1Ns = some last := by
  simp only [record, hcurrent, hlast, if_pos hne, lastV1Ns, List.getLast?_concat,
    Option.elim_some, Nat.sub_sub_self hle]

/-- So do further messages of the new version. -/
theorem lastV1Ns_record_same {recorder : HotSwapRecorder} {version : String}
    (hcurrent : recorder.currentVersion = some version) (now : ℕ) :
    (recorder.record version now).lastV1Ns = recorder.lastV1Ns := by
  simp only [record, hcurrent, lastV1Ns]
  rw [if_neg (by simp)]

/-- The recorder after one message of each version. -/
def seen (first second : String) : HotSwapRecorder :=
  (({} : HotSwapRecorder).record first 5).record second 12

example : writeSwapTimeline (some (seen "v1" "v2")) = some
    ("\x7b\"transitions\":[\x7b\"from\":\"v1\",\"to\":\"v2\",\"pause_ns\":7\x7d]," ++
      "\"first_v2_ns\":12,\"last_v1_ns\":5\x7d\n").toList := by
  decide +kernel

end HotSwapRecorder

/-! ### Reading a timeline -/

/-- The transition an object with exactly the three members stands for. -/
def readTransition : Value → Option SwapTransition
  | .obj [(f, .str fromVersion), (t, .str toVersion), (p, .num pause)] =>
    if f = "from".toList ∧ t = "to".toList ∧ p = "pause_ns".toList then
      (Literal.natural? pause).map fun n =>
        ⟨String.ofList fromVersion, String.ofList toVersion, n⟩
    else none
  | _ => none

/-- The transitions of a timeline, the first member of the document. -/
def readTimeline : Value → Option (List SwapTransition)
  | .obj ((name, .arr items) :: _) =>
    if name = "transitions".toList then items.mapM readTransition else none
  | _ => none

/-- A string the escaping is made for. -/
def Escapable (text : List Char) : Prop := ∀ c ∈ text, c ≠ '\\' ∧ isControl c = false

instance (text : List Char) : Decidable (Escapable text) :=
  List.decidableBAll _ text

variable {text front rest more d r : List Char}

@[simp] theorem escapeQuotes_nil : escapeQuotes [] = [] := rfl

theorem escapeQuotes_quote (text : List Char) :
    escapeQuotes ('"' :: text) = '\\' :: '"' :: escapeQuotes text := rfl

theorem escapeQuotes_cons {c : Char} (hc : c ≠ '"') (text : List Char) :
    escapeQuotes (c :: text) = c :: escapeQuotes text := by
  rw [escapeQuotes, List.flatMap_cons, if_neg hc]
  rfl

theorem escape_quote (text : List Char) : escape ('"' :: text) = some ('"', 1) := rfl

/-- An escapable string is read back. -/
theorem scanString_of_escapable (h : Escapable text) (rest : List Char) :
    scanString (escapeQuotes text ++ '"' :: rest) = some (text, rest) := by
  induction text with
  | nil => rfl
  | cons c text ih =>
    obtain ⟨hb, hc⟩ := h c (by simp)
    have hrest := ih fun x hx => h x (by simp [hx])
    by_cases hq : c = '"'
    · subst hq
      rw [escapeQuotes_quote, List.cons_append, List.cons_append, scanString_backslash,
        escape_quote, Option.bind_some, List.drop_one, List.tail_cons, hrest]
      rfl
    · rw [escapeQuotes_cons hq, List.cons_append, scanString_cons _ hq hb hc, hrest]
      rfl

theorem ne_of_hexValue {c : Char} {n : ℕ} (h : hexValue c = some n) : c ≠ '"' ∧ c ≠ '\\' := by
  have hquote : hexValue '"' = none := by decide
  have hbackslash : hexValue '\\' = none := by decide
  constructor
  · rintro rfl
    rw [hquote] at h
    cases h
  · rintro rfl
    rw [hbackslash] at h
    cases h

/-- A first character that is neither a quote nor a backslash comes from the string itself. -/
theorem escapeQuotes_eq_cons {c : Char} (hq : c ≠ '"') (hb : c ≠ '\\')
    (h : escapeQuotes text ++ '"' :: rest = c :: r) :
    ∃ text', text = c :: text' ∧ r = escapeQuotes text' ++ '"' :: rest := by
  cases text with
  | nil => exact absurd (List.cons.inj h).1.symm hq
  | cons x text' =>
    by_cases hx : x = '"'
    · subst hx
      exact absurd (List.cons.inj h).1.symm hb
    · rw [escapeQuotes_cons hx, List.cons_append] at h
      obtain ⟨rfl, rfl⟩ := List.cons.inj h
      exact ⟨text', rfl, rfl⟩

/-- So does a first backslash, unless a quote follows it. -/
theorem escapeQuotes_eq_backslash {c : Char} (hc : c ≠ '"')
    (h : escapeQuotes text ++ '"' :: rest = '\\' :: c :: r) :
    ∃ text', text = '\\' :: text' ∧ c :: r = escapeQuotes text' ++ '"' :: rest := by
  cases text with
  | nil => exact absurd (List.cons.inj h).1 (by decide)
  | cons x text' =>
    by_cases hx : x = '"'
    · subst hx
      rw [escapeQuotes_quote] at h
      exact absurd (List.cons.inj (List.cons.inj h).2).1.symm hc
    · rw [escapeQuotes_cons hx, List.cons_append] at h
      obtain ⟨rfl, htail⟩ := List.cons.inj h
      exact ⟨text', rfl, htail.symm⟩

/-- Four hexadecimal digits come from the string itself. -/
theorem escapeQuotes_eq_hex {a b c d : Char} {n : ℕ} (hhex : hex4 a b c d = some n)
    (h : escapeQuotes text ++ '"' :: rest = a :: b :: c :: d :: r) :
    ∃ text', text = a :: b :: c :: d :: text' ∧ r = escapeQuotes text' ++ '"' :: rest := by
  simp only [hex4, Option.bind_eq_bind, Option.bind_eq_some_iff] at hhex
  obtain ⟨_, ha, _, hb, _, hc, _, hd, -⟩ := hhex
  obtain ⟨t₁, rfl, h₁⟩ := escapeQuotes_eq_cons (ne_of_hexValue ha).1 (ne_of_hexValue ha).2 h
  obtain ⟨t₂, rfl, h₂⟩ := escapeQuotes_eq_cons (ne_of_hexValue hb).1 (ne_of_hexValue hb).2 h₁.symm
  obtain ⟨t₃, rfl, h₃⟩ := escapeQuotes_eq_cons (ne_of_hexValue hc).1 (ne_of_hexValue hc).2 h₂.symm
  obtain ⟨t₄, rfl, h₄⟩ := escapeQuotes_eq_cons (ne_of_hexValue hd).1 (ne_of_hexValue hd).2 h₃.symm
  exact ⟨t₄, rfl, h₄⟩

/-- An escape that starts with a backslash of the string: it runs into the closing quote, is cut
short by the escaping of a quote, or takes some characters of the string. -/
theorem escape_escapeQuotes {x : Char} {length : ℕ}
    (h : escape (escapeQuotes text ++ '"' :: rest) = some (x, length)) :
    (text = [] ∧ x = '"' ∧ length = 1) ∨
      (∃ text', text = '"' :: text' ∧ x = '\\' ∧ length = 1) ∨
      ∃ pre text', text = pre ++ text' ∧ pre ≠ [] ∧
        (escapeQuotes text ++ '"' :: rest).drop length = escapeQuotes text' ++ '"' :: rest := by
  cases text with
  | nil =>
    obtain ⟨rfl, rfl⟩ := Prod.mk.inj (Option.some.inj h)
    exact .inl ⟨rfl, rfl, rfl⟩
  | cons c text =>
    by_cases hq : c = '"'
    · subst hq
      obtain ⟨rfl, rfl⟩ := Prod.mk.inj (Option.some.inj h)
      exact .inr (.inl ⟨text, rfl, rfl, rfl⟩)
    · right
      right
      rw [escapeQuotes_cons hq, List.cons_append] at h ⊢
      rw [escape] at h
      split at h
      · -- a `u` escape: its digits, and a second escape, belong to the string
        generalize hrest : escapeQuotes text ++ '"' :: rest = behind at h ⊢
        unfold unicodeEscape at h
        split at h
        · next a b c' d behind =>
          split at h
          · cases h
          · next code hcode =>
            obtain ⟨text₁, rfl, hbehind⟩ := escapeQuotes_eq_hex hcode hrest
            split at h
            · split at h
              · next s u a₂ b₂ c₂ d₂ behind₂ =>
                split at h
                · next hsu =>
                  obtain ⟨rfl, rfl⟩ := hsu
                  split at h
                  · cases h
                  · next low hlow =>
                    obtain ⟨text₂, rfl, h₂⟩ :=
                      escapeQuotes_eq_backslash (by decide) hbehind.symm
                    obtain ⟨text₃, rfl, h₃⟩ :=
                      escapeQuotes_eq_cons (by decide) (by decide) h₂.symm
                    obtain ⟨text₄, rfl, h₄⟩ := escapeQuotes_eq_hex hlow h₃.symm
                    split at h
                    · obtain ⟨-, rfl⟩ := Prod.mk.inj (Option.some.inj h)
                      exact ⟨c :: a :: b :: c' :: d :: '\\' :: 'u' :: a₂ :: b₂ :: c₂ :: [d₂],
                        text₄, by simp, by simp, h₄⟩
                    · cases h
                · cases h
              · cases h
            · split at h
              · cases h
              · obtain ⟨-, rfl⟩ := Prod.mk.inj (Option.some.inj h)
                exact ⟨c :: a :: b :: c' :: [d], text₁, by simp, by simp, hbehind⟩
        · cases h
      · obtain ⟨y, -, hy⟩ := Option.map_eq_some_iff.mp h
        obtain ⟨-, rfl⟩ := Prod.mk.inj hy
        exact ⟨[c], text, rfl, by simp, rfl⟩

/-- Between these delimiters the escaped string never reads as the string with something in
front, and as the string itself only if it is escapable. -/
theorem escapable_of_scanString
    (h : scanString (escapeQuotes text ++ '"' :: ',' :: '"' :: more) = some (d, r)) :
    ∀ front, d = front ++ text → front = [] ∧ Escapable text := by
  induction hn : text.length using Nat.strong_induction_on generalizing text d with
  | h n ih =>
    subst hn
    have hpush : ∀ {c : Char} {scanned}, push c scanned = some (d, r) →
        ∃ d', scanned = some (d', r) ∧ d = c :: d' := by
      intro c scanned hp
      obtain ⟨s, hs, he⟩ := Option.map_eq_some_iff.mp hp
      obtain ⟨rfl, rfl⟩ := Prod.mk.inj he
      exact ⟨s.1, hs, rfl⟩
    intro front hd
    cases text with
    | nil =>
      obtain ⟨rfl, -⟩ := Prod.mk.inj (Option.some.inj h)
      exact ⟨by simpa using hd.symm, by simp [Escapable]⟩
    | cons c text =>
      -- the string goes on behind its first characters `pre`, the reader behind one
      have hgo : ∀ (x : Char) (pre text' d' : List Char), c :: text = pre ++ text' → pre ≠ [] →
          d = x :: d' →
          scanString (escapeQuotes text' ++ '"' :: ',' :: '"' :: more) = some (d', r) →
          front = [] ∧ (pre.length = 1 ∧ x = c ∧ Escapable text') := by
        intro x pre text' d' htext hpre hx hscan
        obtain ⟨p, pre', rfl⟩ := List.exists_cons_of_ne_nil hpre
        obtain ⟨rfl, rfl⟩ := List.cons.inj htext
        have hlen : text'.length < (c :: (pre' ++ text')).length := by
          simp only [List.length_cons, List.length_append]
          omega
        have hrec := ih text'.length hlen hscan rfl
        rw [hx] at hd
        cases front with
        | nil =>
          obtain ⟨rfl, hd'⟩ := List.cons.inj hd
          obtain ⟨rfl, hclean⟩ := hrec pre' hd'
          exact ⟨rfl, rfl, rfl, hclean⟩
        | cons f front =>
          obtain ⟨-, hd'⟩ := List.cons.inj hd
          obtain ⟨hnil, -⟩ := hrec (front ++ c :: pre') (by rw [hd']; simp)
          exact absurd hnil (by simp)
      by_cases hq : c = '"'
      · subst hq
        rw [escapeQuotes_quote, List.cons_append, List.cons_append, scanString_backslash,
          escape_quote, Option.bind_some, List.drop_one, List.tail_cons] at h
        obtain ⟨d', hscan, hx⟩ := hpush h
        obtain ⟨hfront, -, -, hclean⟩ := hgo '"' ['"'] text d' rfl (by simp) hx hscan
        exact ⟨hfront, List.forall_mem_cons.mpr ⟨by decide, hclean⟩⟩
      · rw [escapeQuotes_cons hq, List.cons_append] at h
        by_cases hb : c = '\\'
        · subst hb
          rw [scanString_backslash, Option.bind_eq_some_iff] at h
          obtain ⟨⟨x, length⟩, hescape, hp⟩ := h
          obtain ⟨d', hscan, hx⟩ := hpush hp
          rcases escape_escapeQuotes hescape with ⟨rfl, rfl, rfl⟩ | ⟨text', rfl, rfl, rfl⟩ |
            ⟨pre, text', rfl, hpre, hdrop⟩
          · -- the closing quote is taken for an escaped one
            have hcomma : d' = [','] := by
              have : scanString (',' :: '"' :: more) = some ([','], more) := rfl
              exact (Prod.mk.inj (Option.some.inj (hscan.symm.trans this))).1
            have hlast := congrArg List.getLast? (hx.symm.trans hd)
            rw [hcomma, List.getLast?_append] at hlast
            exact absurd hlast (by simp)
          · -- the escaped quote is taken for the closing one
            have hshort : d' = [] := by
              have : scanString ('"' :: (escapeQuotes text' ++ '"' :: ',' :: '"' :: more)) =
                  some ([], escapeQuotes text' ++ '"' :: ',' :: '"' :: more) := rfl
              exact (Prod.mk.inj (Option.some.inj (hscan.symm.trans this))).1
            have hlen := congrArg List.length (hx.symm.trans hd)
            rw [hshort] at hlen
            simp only [List.length_cons, List.length_append, List.length_nil] at hlen
            omega
          · have hscan' := hdrop ▸ hscan
            obtain ⟨-, hlen, -⟩ := hgo x ('\\' :: pre) text' d' rfl (by simp) hx hscan'
            rw [List.length_cons] at hlen
            exact absurd (List.length_eq_zero_iff.mp (by omega)) hpre
        · by_cases hc : isControl c = true
          · rw [scanString, scanFrom, if_neg hq, if_neg hb, if_pos hc] at h
            cases h
          · rw [Bool.not_eq_true] at hc
            rw [scanString_cons _ hq hb hc] at h
            obtain ⟨d', hscan, hx⟩ := hpush h
            obtain ⟨hfront, -, -, hclean⟩ := hgo c [c] text d' rfl (by simp) hx hscan
            exact ⟨hfront, List.forall_mem_cons.mpr ⟨⟨hb, hc⟩, hclean⟩⟩

/-- Between these delimiters an escaped string is read back exactly if it is escapable. -/
theorem scanString_escaped :
    (∃ r, scanString (escapeQuotes text ++ '"' :: ',' :: '"' :: more) = some (text, r)) ↔
      Escapable text := by
  constructor
  · rintro ⟨r, h⟩
    exact (escapable_of_scanString h [] rfl).2
  · exact fun h => ⟨_, scanString_of_escapable h _⟩

/-! ### The document -/

/-- The object a transition is written as. -/
def SwapTransition.value (t : SwapTransition) : Value :=
  .obj [("from".toList, .str t.fromVersion.toList), ("to".toList, .str t.toVersion.toList),
    ("pause_ns".toList, .num (Nat.toDigits 10 t.pauseNs))]

/-- The version strings the escaping is made for. -/
def SwapTransition.Escapable (t : SwapTransition) : Prop :=
  Wafer.Escapable t.fromVersion.toList ∧ Wafer.Escapable t.toVersion.toList

instance (t : SwapTransition) : Decidable t.Escapable := inferInstanceAs (Decidable (_ ∧ _))

namespace SwapTransition

variable {t : SwapTransition}

theorem readTransition_value (t : SwapTransition) : readTransition t.value = some t := by
  simp only [value, readTransition, and_self, if_true, natural?_toDigits, Option.map_some,
    String.ofList_toList]

/-- The text of a transition, name by name. -/
theorem json_append (t : SwapTransition) (rest : List Char) :
    t.json ++ rest = '\x7b' :: '"' :: ("from".toList ++ '"' :: ':' :: '"' ::
      (escapeQuotes t.fromVersion.toList ++ '"' :: ',' :: '"' :: ("to".toList ++ '"' :: ':' :: '"' ::
        (escapeQuotes t.toVersion.toList ++ '"' :: ',' :: '"' :: ("pause_ns".toList ++ '"' :: ':' ::
          (Nat.toDigits 10 t.pauseNs ++ '\x7d' :: rest)))))) := by
  simp only [json, nameJson, List.append_assoc, List.cons_append, List.nil_append]

/-- An opening quote is not skipped. -/
theorem skip_quote (rest : List Char) : skip ('"' :: rest) = '"' :: rest := rfl

theorem skip_comma (rest : List Char) : skip (',' :: rest) = ',' :: rest := rfl

theorem skip_digits (n : ℕ) (rest : List Char) :
    skip (Nat.toDigits 10 n ++ rest) = Nat.toDigits 10 n ++ rest := by
  obtain ⟨d, tail, hcons⟩ := List.exists_cons_of_ne_nil (toDigits_ne_nil n)
  have hd : d.isDigit = true := @isDigit_toDigits n d (by simp [hcons])
  rw [hcons, List.cons_append]
  refine skip_of_not_blank ?_
  have hne : ∀ x : Char, x.isDigit = false → d ≠ x := by
    rintro x hx rfl
    rw [hd] at hx
    cases hx
  simp [isBlank, hne ' ' (by decide), hne '\t' (by decide), hne '\n' (by decide),
    hne '\r' (by decide)]

theorem value_json (h : t.Escapable) (fuel : ℕ) (rest : List Char) :
    JsonText.value (fuel + 5) (t.json ++ rest) = some (t.value, rest) := by
  have hfrom : ∀ r, scanString ("from".toList ++ '"' :: r) = some ("from".toList, r) :=
    scanString_plain (by decide)
  have hto : ∀ r, scanString ("to".toList ++ '"' :: r) = some ("to".toList, r) :=
    scanString_plain (by decide)
  have hpause : ∀ r, scanString ("pause_ns".toList ++ '"' :: r) = some ("pause_ns".toList, r) :=
    scanString_plain (by decide)
  have hstring : ∀ (n : ℕ) (text r : List Char), Wafer.Escapable text →
      JsonText.value (n + 1) (skip ('"' :: (escapeQuotes text ++ '"' :: r))) =
        some (.str text, r) := by
    intro n text r htext
    rw [skip_quote, value_string, scanString_of_escapable htext]
    rfl
  have hnumber : ∀ n : ℕ, JsonText.value (n + 1) (skip (Nat.toDigits 10 t.pauseNs ++ '\x7d' :: rest)) =
      some (.num (Nat.toDigits 10 t.pauseNs), '\x7d' :: rest) := by
    intro n
    rw [skip_digits, value_toDigits n t.pauseNs (by decide)]
  rw [json_append, value_object,
    members_cons (hfrom _) (hstring _ _ _ h.1) (skip_comma _), skip_quote,
    members_cons (hto _) (hstring _ _ _ h.2) (skip_comma _), skip_quote,
    members_last (hpause _) (hnumber _) rfl]
  rfl

/-- Behind the pause the object ends. -/
theorem rest_of_pause {fuel n : ℕ} {ms : List (List Char × Value)} {rest r : List Char}
    (h : members fuel (skip ('"' :: ("pause_ns".toList ++ '"' :: ':' ::
      (Nat.toDigits 10 n ++ '\x7d' :: rest)))) = some (ms, r)) : r = rest := by
  have hpause : ∀ r, scanString ("pause_ns".toList ++ '"' :: r) = some ("pause_ns".toList, r) :=
    scanString_plain (by decide)
  rw [skip_quote] at h
  obtain ⟨m, name, r₁, r₂, v, r₃, more, -, hname, hcolon, hvalue, -, hrest⟩ := members_eq_some h
  obtain ⟨rfl, rfl⟩ := Prod.mk.inj (Option.some.inj ((hpause _).symm.trans hname))
  obtain ⟨-, rfl⟩ := List.cons.inj hcolon
  rw [skip_digits] at hvalue
  cases m with
  | zero => simp [JsonText.value] at hvalue
  | succ m =>
    rw [value_toDigits m n (by decide)] at hvalue
    obtain ⟨-, rfl⟩ := Prod.mk.inj (Option.some.inj hvalue)
    rcases hrest with ⟨hbrace, -⟩ | ⟨r₄, hcomma, -⟩
    · exact (List.cons.inj hbrace).2.symm
    · exact absurd (List.cons.inj hcomma).1 (by decide)

/-- A transition that is read back is escapable, and nothing behind it is touched. -/
theorem escapable_of_value {fuel : ℕ} {v : Value} {rest r : List Char}
    (h : JsonText.value fuel (t.json ++ rest) = some (v, r)) (hread : readTransition v = some t) :
    t.Escapable ∧ r = rest := by
  have hfrom : ∀ r, scanString ("from".toList ++ '"' :: r) = some ("from".toList, r) :=
    scanString_plain (by decide)
  have hto : ∀ r, scanString ("to".toList ++ '"' :: r) = some ("to".toList, r) :=
    scanString_plain (by decide)
  -- a member whose value is a string reads that string
  have hstring : ∀ {n : ℕ} {text v r₂ r₃ : List Char} {w : Value},
      skip (':' :: '"' :: text) = ':' :: r₂ → JsonText.value n (skip r₂) = some (w, r₃) →
        w = .str v → scanString text = some (v, r₃) := by
    intro n text v r₂ r₃ w hskip hvalue hw
    obtain ⟨-, rfl⟩ := List.cons.inj hskip
    rw [skip_quote] at hvalue
    cases n with
    | zero => simp [JsonText.value] at hvalue
    | succ n =>
      rw [value_string] at hvalue
      obtain ⟨s, hs, he⟩ := Option.map_eq_some_iff.mp hvalue
      obtain ⟨hv, rfl⟩ := Prod.mk.inj he
      rw [hw] at hv
      rw [hs, ← Value.str.inj hv]
  rw [json_append] at h
  cases fuel with
  | zero => simp [JsonText.value] at h
  | succ fuel =>
    rw [value_object] at h
    obtain ⟨m, hmembers, he⟩ := Option.map_eq_some_iff.mp h
    obtain ⟨rfl, rfl⟩ := Prod.mk.inj he
    -- the shape of what is read back
    simp only [readTransition] at hread
    split at hread
    · next fname fversion tname tversion pname pause hshape =>
      split at hread
      · obtain ⟨n, -, ht⟩ := Option.map_eq_some_iff.mp hread
        have hf : fversion = t.fromVersion.toList := by rw [← ht, String.toList_ofList]
        have hv : tversion = t.toVersion.toList := by rw [← ht, String.toList_ofList]
        obtain ⟨n₁, name₁, r₁, r₂, v₁, r₃, more₁, -, hname₁, hcolon₁, hvalue₁, hms₁, hrest₁⟩ :=
          members_eq_some hmembers
        obtain ⟨rfl, rfl⟩ := Prod.mk.inj (Option.some.inj ((hfrom _).symm.trans hname₁))
        have hm := (Value.obj.inj hshape).symm.trans hms₁
        obtain ⟨hfirst, hmore⟩ := List.cons.inj hm
        have hscan₁ := hstring hcolon₁ hvalue₁ (Prod.mk.inj hfirst).2.symm
        rw [hf] at hscan₁
        have hclean₁ := scanString_escaped.mp ⟨_, hscan₁⟩
        obtain ⟨-, rfl⟩ :=
          Prod.mk.inj (Option.some.inj ((scanString_of_escapable hclean₁ _).symm.trans hscan₁))
        rcases hrest₁ with ⟨hbrace, -⟩ | ⟨r₄, hcomma, hmembers₂⟩
        · rw [skip_comma] at hbrace
          exact absurd (List.cons.inj hbrace).1 (by decide)
        · rw [skip_comma] at hcomma
          obtain ⟨-, rfl⟩ := List.cons.inj hcomma
          rw [skip_quote] at hmembers₂
          obtain ⟨n₂, name₂, q₁, q₂, v₂, q₃, more₂, -, hname₂, hcolon₂, hvalue₂, hms₂, hrest₂⟩ :=
            members_eq_some hmembers₂
          obtain ⟨rfl, rfl⟩ := Prod.mk.inj (Option.some.inj ((hto _).symm.trans hname₂))
          obtain ⟨hsecond, -⟩ := List.cons.inj (hmore.trans hms₂)
          have hscan₂ := hstring hcolon₂ hvalue₂ (Prod.mk.inj hsecond).2.symm
          rw [hv] at hscan₂
          have hclean₂ := scanString_escaped.mp ⟨_, hscan₂⟩
          refine ⟨⟨hclean₁, hclean₂⟩, ?_⟩
          obtain ⟨-, rfl⟩ :=
            Prod.mk.inj (Option.some.inj ((scanString_of_escapable hclean₂ _).symm.trans hscan₂))
          rcases hrest₂ with ⟨hbrace, -⟩ | ⟨q₄, hcomma, hmembers₃⟩
          · rw [skip_comma] at hbrace
            exact absurd (List.cons.inj hbrace).1 (by decide)
          · rw [skip_comma] at hcomma
            obtain ⟨-, rfl⟩ := List.cons.inj hcomma
            exact rest_of_pause hmembers₃
      · cases hread
    · cases hread

/-- Some transitions, with commas between them. -/
def itemsJson (ts : List SwapTransition) : List Char := [','].intercalate (ts.map json)

theorem itemsJson_cons_append {ts : List SwapTransition} (hts : ts ≠ []) (rest : List Char) :
    itemsJson (t :: ts) ++ rest = t.json ++ ',' :: (itemsJson ts ++ rest) := by
  rw [itemsJson, List.map_cons, List.intercalate_cons_of_ne_nil (by simpa using hts)]
  simp [itemsJson]

theorem length_le_itemsJson (ts : List SwapTransition) : ts.length ≤ (itemsJson ts).length := by
  induction ts with
  | nil => exact Nat.zero_le _
  | cons t ts ih =>
    have hone : 1 ≤ t.json.length := by
      rw [json, List.length_cons]
      omega
    cases ts with
    | nil => simpa [itemsJson] using hone
    | cons u us =>
      have hlen := congrArg List.length (itemsJson_cons_append (t := t) (List.cons_ne_nil u us) [])
      simp only [List.length_append, List.length_cons, List.length_nil] at hlen ih ⊢
      omega

/-- The array starts with the brace of its first transition. -/
theorem skip_itemsJson {ts : List SwapTransition} (hts : ts ≠ []) (rest : List Char) :
    skip (itemsJson ts ++ rest) = itemsJson ts ++ rest := by
  obtain ⟨t, ts, rfl⟩ := List.exists_cons_of_ne_nil hts
  cases ts with
  | nil =>
    rw [itemsJson, List.map_singleton, List.intercalate_singleton]
    rfl
  | cons u us =>
    rw [itemsJson_cons_append (List.cons_ne_nil u us)]
    rfl

theorem elements_itemsJson {ts : List SwapTransition} (hts : ts ≠ [])
    (h : ∀ t ∈ ts, t.Escapable) (fuel : ℕ) (rest : List Char) :
    elements (fuel + ts.length + 5) (itemsJson ts ++ ']' :: rest) =
      some (ts.map value, rest) := by
  induction ts with
  | nil => exact absurd rfl hts
  | cons t ts ih =>
    have hhead := h t (by simp)
    cases ts with
    | nil =>
      rw [itemsJson, List.map_singleton, List.intercalate_singleton]
      exact elements_last (value_json hhead fuel _) rfl
    | cons u us =>
      have hne := List.cons_ne_nil u us
      have hfuel : fuel + (t :: u :: us).length + 5 = fuel + (u :: us).length + 5 + 1 := by
        simp only [List.length_cons]
        omega
      rw [itemsJson_cons_append hne, hfuel,
        elements_cons (value_json hhead (fuel + (u :: us).length) _) (skip_comma _),
        skip_itemsJson hne, ih hne fun x hx => h x (by simp [hx])]
      rfl

theorem escapable_of_elements {ts : List SwapTransition} {fuel : ℕ} {vs : List Value}
    {rest r : List Char} (h : elements fuel (itemsJson ts ++ ']' :: rest) = some (vs, r))
    (hread : vs.mapM readTransition = some ts) (hts : ts ≠ []) : ∀ t ∈ ts, t.Escapable := by
  induction ts generalizing fuel vs with
  | nil => exact absurd rfl hts
  | cons t ts ih =>
    obtain ⟨n, v, r₁, more, -, hvalue, rfl, hrest⟩ := elements_eq_some h
    have hboth : readTransition v = some t ∧ more.mapM readTransition = some ts := by
      simp only [List.mapM_cons, Option.pure_def, Option.bind_eq_bind, Option.bind_eq_some_iff,
        Option.some.injEq, List.cons.injEq] at hread
      obtain ⟨t', ht, ts', hts', rfl, rfl⟩ := hread
      exact ⟨ht, hts'⟩
    cases ts with
    | nil =>
      rw [itemsJson, List.map_singleton, List.intercalate_singleton] at hvalue
      have ht := (escapable_of_value hvalue hboth.1).1
      simpa using ht
    | cons u us =>
      have hne := List.cons_ne_nil u us
      rw [itemsJson_cons_append hne] at hvalue
      obtain ⟨ht, rfl⟩ := escapable_of_value hvalue hboth.1
      rcases hrest with ⟨hbracket, -⟩ | ⟨r₂, hcomma, hmore⟩
      · rw [skip_comma] at hbracket
        exact absurd (List.cons.inj hbracket).1 (by decide)
      · rw [skip_comma] at hcomma
        obtain ⟨-, rfl⟩ := List.cons.inj hcomma
        rw [skip_itemsJson hne] at hmore
        exact List.forall_mem_cons.mpr ⟨ht, ih hmore hboth.2 hne⟩

end SwapTransition

namespace HotSwapRecorder

variable {recorder : HotSwapRecorder} {text : List Char}

/-- A number that may be missing is read as a value of its own. -/
theorem value_nullable (o : Option ℕ) (fuel : ℕ) {c : Char} (hc : isNumberChar c = false)
    (rest : List Char) :
    ∃ v, JsonText.value (fuel + 1) (skip (nullable o ++ c :: rest)) = some (v, c :: rest) := by
  cases o with
  | none => exact ⟨.null, rfl⟩
  | some n =>
    refine ⟨.num (Nat.toDigits 10 n), ?_⟩
    rw [nullable, SwapTransition.skip_digits, value_toDigits fuel n hc]

/-- The text of a timeline, name by name. -/
theorem timelineJson_eq (recorder : HotSwapRecorder) :
    recorder.timelineJson = '\x7b' :: '"' :: ("transitions".toList ++ '"' :: ':' :: '[' ::
      (SwapTransition.itemsJson recorder.transitions ++ ']' :: ',' ::
        '"' :: ("first_v2_ns".toList ++ '"' :: ':' :: (nullable recorder.firstV2TimeNs ++ ',' ::
          '"' :: ("last_v1_ns".toList ++ '"' :: ':' :: (nullable recorder.lastV1Ns ++
            ['\x7d', '\n'])))))) := by
  simp only [timelineJson, nameJson, SwapTransition.itemsJson, List.append_assoc, List.cons_append,
    List.nil_append]

theorem scanString_transitions (rest : List Char) :
    scanString ("transitions".toList ++ '"' :: rest) = some ("transitions".toList, rest) :=
  scanString_plain (by decide) rest

/-- The array behind the first name. -/
theorem value_items (hts : recorder.transitions ≠ []) (fuel : ℕ) (rest : List Char) :
    JsonText.value (fuel + 1)
        (skip ('[' :: (SwapTransition.itemsJson recorder.transitions ++ rest))) =
      (elements fuel (SwapTransition.itemsJson recorder.transitions ++ rest)).map fun e =>
        (.arr e.1, e.2) := by
  have hbracket : ∀ r, skip ('[' :: r) = '[' :: r := fun r => skip_of_not_blank (by decide)
  obtain ⟨t, ts, hcons⟩ := List.exists_cons_of_ne_nil hts
  obtain ⟨tail, htail⟩ : ∃ tail,
      SwapTransition.itemsJson recorder.transitions ++ rest = '\x7b' :: tail := by
    rw [hcons]
    cases ts with
    | nil => exact ⟨_, by rw [SwapTransition.itemsJson, List.map_singleton,
        List.intercalate_singleton]; rfl⟩
    | cons u us =>
      exact ⟨_, by rw [SwapTransition.itemsJson_cons_append (List.cons_ne_nil u us)]; rfl⟩
  rw [hbracket, htail, value_array fuel (by decide) (by decide)]

theorem readTimeline_of_escapable (hts : recorder.transitions ≠ [])
    (h : ∀ t ∈ recorder.transitions, t.Escapable) :
    (parse recorder.timelineJson).bind readTimeline = some recorder.transitions := by
  have hfirst : ∀ r, scanString ("first_v2_ns".toList ++ '"' :: r) =
      some ("first_v2_ns".toList, r) := scanString_plain (by decide)
  have hlast : ∀ r, scanString ("last_v1_ns".toList ++ '"' :: r) =
      some ("last_v1_ns".toList, r) := scanString_plain (by decide)
  -- the text is long enough for the fuel the array takes
  obtain ⟨fuel, hfuel⟩ : ∃ fuel, recorder.timelineJson.length =
      fuel + recorder.transitions.length + 5 + 1 + 1 := by
    refine ⟨recorder.timelineJson.length - (recorder.transitions.length + 7), ?_⟩
    have hlen := SwapTransition.length_le_itemsJson recorder.transitions
    have htext := congrArg List.length (timelineJson_eq recorder)
    simp only [List.length_cons, List.length_append] at htext
    omega
  have helements := SwapTransition.elements_itemsJson hts h fuel
  have hitems : ∀ rest, JsonText.value (fuel + recorder.transitions.length + 5 + 1)
      (skip ('[' :: (SwapTransition.itemsJson recorder.transitions ++ ']' :: rest))) =
        some (.arr (recorder.transitions.map SwapTransition.value), rest) := by
    intro rest
    rw [value_items hts, helements]
    rfl
  obtain ⟨v₂, hv₂⟩ := value_nullable recorder.firstV2TimeNs
    (fuel + recorder.transitions.length + 4) (c := ',') (by decide)
    ('"' :: ("last_v1_ns".toList ++ '"' :: ':' :: (nullable recorder.lastV1Ns ++
      ['\x7d', '\n'])))
  obtain ⟨v₃, hv₃⟩ := value_nullable recorder.lastV1Ns
    (fuel + recorder.transitions.length + 3) (c := '\x7d') (by decide) ['\n']
  have hbrace : ∀ r, skip ('\x7b' :: r) = '\x7b' :: r := fun r => skip_of_not_blank (by decide)
  rw [parse, hfuel, timelineJson_eq, hbrace, value_object,
    members_cons (scanString_transitions _) (hitems _) (SwapTransition.skip_comma _),
    SwapTransition.skip_quote, members_cons (hfirst _) hv₂ (SwapTransition.skip_comma _),
    SwapTransition.skip_quote, members_last (hlast _) hv₃ rfl]
  have hread : ∀ ts : List SwapTransition,
      (ts.map SwapTransition.value).mapM readTransition = some ts := by
    intro ts
    induction ts with
    | nil => rfl
    | cons t ts ih =>
      simp only [List.map_cons, List.mapM_cons, SwapTransition.readTransition_value, ih,
        Option.pure_def, Option.bind_eq_bind, Option.bind_some]
  have hnewline : skip ['\n'] = [] := by decide
  simp only [Option.map_some, hnewline, if_true, Option.bind_some, readTimeline, hread]

theorem escapable_of_readTimeline (hts : recorder.transitions ≠ [])
    (h : (parse recorder.timelineJson).bind readTimeline = some recorder.transitions) :
    ∀ t ∈ recorder.transitions, t.Escapable := by
  obtain ⟨doc, hparse, hread⟩ := Option.bind_eq_some_iff.mp h
  have hbrace : ∀ r, skip ('\x7b' :: r) = '\x7b' :: r := fun r => skip_of_not_blank (by decide)
  rw [parse, timelineJson_eq, hbrace, value_object] at hparse
  split at hparse
  · next v rest hvalue =>
    obtain ⟨m, hmembers, he⟩ := Option.map_eq_some_iff.mp hvalue
    obtain ⟨rfl, -⟩ := Prod.mk.inj he
    split at hparse
    · obtain rfl := Option.some.inj hparse
      obtain ⟨n, name, r₁, r₂, v₁, r₃, more, -, hname, hcolon, hvalue₁, hms, -⟩ :=
        members_eq_some hmembers
      obtain ⟨rfl, rfl⟩ :=
        Prod.mk.inj (Option.some.inj ((scanString_transitions _).symm.trans hname))
      obtain ⟨-, rfl⟩ := List.cons.inj hcolon
      cases n with
      | zero => simp [JsonText.value] at hvalue₁
      | succ n =>
        rw [value_items hts] at hvalue₁
        obtain ⟨e, helements, he⟩ := Option.map_eq_some_iff.mp hvalue₁
        obtain ⟨rfl, -⟩ := Prod.mk.inj he
        rw [hms, readTimeline, if_pos rfl] at hread
        exact SwapTransition.escapable_of_elements helements hread hts
    · cases hparse
  · cases hparse

/-- The timeline that is written is read back exactly if no version string has a backslash or a
control character. -/
theorem readTimeline_iff (h : writeSwapTimeline (some recorder) = some text) :
    (parse text).bind readTimeline = some recorder.transitions ↔
      ∀ t ∈ recorder.transitions, t.Escapable := by
  rw [writeSwapTimeline] at h
  split at h
  · cases h
  · next hts =>
    obtain rfl := Option.some.inj h
    exact ⟨escapable_of_readTimeline hts, readTimeline_of_escapable hts⟩

theorem readTimeline_quoted :
    ∃ text, writeSwapTimeline (some (seen "v\"1\"" "v2")) = some text ∧
      (parse text).bind readTimeline = some [⟨"v\"1\"", "v2", 7⟩] := by
  have hescapable : ∀ t ∈ (seen "v\"1\"" "v2").transitions, t.Escapable := by decide
  exact ⟨_, rfl, (readTimeline_iff rfl).mpr hescapable⟩

/-- A backslash in a version string leaves a text that is no JSON. -/
theorem readTimeline_backslash :
    ∃ text, writeSwapTimeline (some (seen "builds\\1" "v2")) = some text ∧
      (parse text).isNone = true ∧
      (seen "builds\\1" "v2").transitions = [⟨"builds\\1", "v2", 7⟩] :=
  ⟨_, rfl, by decide +kernel, rfl⟩

end HotSwapRecorder

end Wafer
