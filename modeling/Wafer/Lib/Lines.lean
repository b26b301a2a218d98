import Wafer.Lib.Text

/-!
# Texts of lines

A text is cut behind every separator; the last line may lack one. Texts put
together from bodies without separators are cut back into them.

## Main definitions

- `cutLine` — the text up to and with the first separator, and what is behind it
- `lines` — all the lines of a text, each with its separator
- `trimEnd` — a text without the last occurrences of a symbol
- `isUtf8` — the bytes are valid UTF-8

## Main results

- `lines_flatMap` — bodies without separators are the lines of their text
- `mem_lines` — a line has one separator at most, at its end
- `isUtf8_trimEnd` — trimming a character of one byte keeps bytes UTF-8, or not
-/

namespace Wafer.Lib

section Cut

variable {α : Type*} [DecidableEq α] {sep : α} {text body line rest : List α}

def cutLine (sep : α) : List α → List α × List α
  | [] => ([], [])
  | c :: text =>
    if c = sep then ([c], text) else (c :: (cutLine sep text).1, (cutLine sep text).2)

def lines (sep : α) : List α → List (List α)
  | [] => []
  | c :: text =>
    if c = sep then [c] :: lines sep text
    else match lines sep text with
      | [] => [[c]]
      | line :: more => (c :: line) :: more

def trimEnd (symbol : α) (text : List α) : List α := text.rdropWhile (· = symbol)

/-- The first line is what is cut off first. -/
theorem lines_cutLine (h : text ≠ []) :
    lines sep text = (cutLine sep text).1 :: lines sep (cutLine sep text).2 := by
  induction text with
  | nil => exact absurd rfl h
  | cons c text ih =>
    by_cases hc : c = sep
    · simp only [lines, cutLine, if_pos hc]
    · simp only [lines, cutLine, if_neg hc]
      cases text with
      | nil => rfl
      | cons d text => rw [ih (List.cons_ne_nil d text)]

theorem length_cutLine : (cutLine sep text).2.length ≤ text.length - 1 := by
  induction text with
  | nil => exact le_rfl
  | cons c text ih =>
    rw [cutLine, List.length_cons, Nat.add_sub_cancel]
    split
    · exact le_rfl
    · exact ih.trans (Nat.sub_le _ _)

theorem lines_append (h : sep ∉ body) :
    lines sep (body ++ sep :: text) = (body ++ [sep]) :: lines sep text := by
  induction body with
  | nil => exact if_pos rfl
  | cons c body ih =>
    obtain ⟨hc, hbody⟩ := not_or.mp (fun hm => h (List.mem_cons.mpr hm))
    rw [List.cons_append, lines, if_neg (Ne.symm hc), ih hbody]
    rfl

/-- Bodies without separators are the lines of their text. -/
theorem lines_flatMap {bodies : List (List α)} (h : ∀ body ∈ bodies, sep ∉ body) :
    lines sep (bodies.flatMap (· ++ [sep])) = bodies.map (· ++ [sep]) := by
  induction bodies with
  | nil => rfl
  | cons body bodies ih =>
    obtain ⟨hbody, hbodies⟩ := List.forall_mem_cons.mp h
    rw [List.flatMap_cons, List.append_assoc, List.singleton_append, lines_append hbody,
      ih hbodies, List.map_cons]

/-- A line has one separator at most, at its end. -/
theorem mem_lines (h : line ∈ lines sep text) :
    ∃ body, sep ∉ body ∧ (line = body ∨ line = body ++ [sep]) := by
  induction text generalizing line with
  | nil => cases h
  | cons c text ih =>
    simp only [lines] at h
    split at h
    · next hc =>
      rcases List.mem_cons.mp h with rfl | h
      · exact ⟨[], List.not_mem_nil, .inr (by rw [hc]; rfl)⟩
      · exact ih h
    · next hc =>
      split at h
      · obtain rfl := List.mem_singleton.mp h
        exact ⟨[c], fun hm => hc (List.mem_singleton.mp hm).symm, .inl rfl⟩
      · next first more hl =>
        rcases List.mem_cons.mp h with rfl | h
        · obtain ⟨body, hbody, hline⟩ := ih (hl ▸ List.mem_cons_self)
          refine ⟨c :: body, fun hm => ?_, hline.imp (congrArg (c :: ·)) (congrArg (c :: ·))⟩
          rcases List.mem_cons.mp hm with rfl | hm
          · exact hc rfl
          · exact hbody hm
        · exact ih (hl ▸ List.mem_cons_of_mem first h)

/-! ## Trimming -/

variable {symbol : α}

theorem trimEnd_front : trimEnd symbol text <+: text := List.rdropWhile_prefix _ _

theorem trimEnd_append : trimEnd symbol (text ++ [symbol]) = trimEnd symbol text :=
  List.rdropWhile_concat_pos _ _ _ (decide_eq_true rfl)

theorem trimEnd_of_getLast? (h : text.getLast? ≠ some symbol) : trimEnd symbol text = text := by
  induction text using List.reverseRecOn with
  | nil => rfl
  | append_singleton text c =>
    rw [List.getLast?_concat] at h
    exact List.rdropWhile_concat_neg _ _ _ (by simpa using fun hc => h (congrArg some hc))

theorem getLast?_trimEnd : (trimEnd symbol text).getLast? ≠ some symbol := by
  induction text using List.reverseRecOn with
  | nil => exact Option.some_ne_none symbol ∘ Eq.symm
  | append_singleton text c ih =>
    by_cases hc : c = symbol
    · rw [hc, trimEnd_append]
      exact ih
    · have hne : (text ++ [c]).getLast? ≠ some symbol := by
        rw [List.getLast?_concat]
        exact fun h => hc (Option.some.inj h)
      rw [trimEnd_of_getLast? hne]
      exact hne

theorem not_mem_trimEnd {other : α} (h : other ∉ text) : other ∉ trimEnd symbol text :=
  fun hm => h (trimEnd_front.subset hm)

/-- A line trimmed of its separator has none left. -/
theorem not_mem_trimEnd_line (h : line ∈ lines sep text) : sep ∉ trimEnd sep line := by
  obtain ⟨body, hbody, rfl | rfl⟩ := mem_lines h
  · exact not_mem_trimEnd hbody
  · rw [trimEnd_append]
    exact not_mem_trimEnd hbody

end Cut

/-! ## Bytes that are UTF-8 -/

section Utf8

variable {bytes : List UInt8} {b : UInt8} {c : Char}

def isUtf8 (bytes : List UInt8) : Bool := (fromUtf8 bytes).isSome

theorem isUtf8_iff : isUtf8 bytes = true ↔ bytes.toByteArray.IsValidUTF8 := by
  rw [isUtf8, fromUtf8, Option.isSome_map, String.fromUTF8?]
  split
  · next h => exact iff_of_true rfl h
  · next h => exact iff_of_false Bool.false_ne_true h

/-- A character of one byte says nothing about the bytes in front of it. -/
theorem isUtf8_append (hc : String.utf8EncodeChar c = [b]) :
    isUtf8 (bytes ++ [b]) = isUtf8 bytes := by
  have hcode : [b].toByteArray = [c].utf8Encode := by rw [List.utf8Encode_singleton, hc]
  rw [Bool.eq_iff_iff, isUtf8_iff, isUtf8_iff, List.toByteArray_append, hcode]
  constructor
  · intro h
    have hv : String.Pos.Raw.IsValid ⟨_, h⟩ ⟨bytes.toByteArray.size⟩ := by
      refine String.Pos.Raw.isValid_iff_isUTF8FirstByte.mpr (.inr ⟨?_, ?_⟩)
      · rw [String.Pos.Raw.lt_iff, String.byteIdx_rawEndPos, ← String.size_toByteArray,
          ByteArray.size_append, ← hcode]
        exact Nat.lt_succ_self _
      · rw [String.getUTF8Byte, ByteArray.getElem_append_right le_rfl]
        simp only [Nat.sub_self, List.isUTF8FirstByte_getElem_utf8Encode_singleton]
    have hcut := hv.isValidUTF8_extract_zero
    rwa [ByteArray.extract_append_size_left, ByteArray.extract_zero_size] at hcut
  · intro h
    exact h.append ⟨[c], rfl⟩

theorem isUtf8_trimEnd (hc : String.utf8EncodeChar c = [b]) :
    isUtf8 (trimEnd b bytes) = isUtf8 bytes := by
  induction bytes using List.reverseRecOn with
  | nil => rfl
  | append_singleton bytes d ih =>
    by_cases hd : d = b
    · rw [hd, trimEnd_append, isUtf8_append hc, ih]
    · rw [trimEnd_of_getLast?]
      rw [List.getLast?_concat]
      exact fun h => hd (Option.some.inj h)

end Utf8

end Wafer.Lib
