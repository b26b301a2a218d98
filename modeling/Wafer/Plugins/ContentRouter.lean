import Mathlib.Data.List.Destutter
import Mathlib.Data.String.Basic
import Wafer.Plugins.NumericMember

/-!
# The content router plugin

The router guest that picks an output port by a string of its JSON payload, its
configuration parser and its scanners. A string scanner of the threshold filter
is the same function here.

## Main definitions

- `ContentRouter.parseRouterConfig`, `init`, `outputPorts`, `route` — the guest
- `ContentRouter.extractStringValue`, `extractRoutesObject` — its scanners
- `ContentRouter.Configuration` — a configuration and a JSON text of it
- `ContentRouter.Configuration.port` — the port of an object

## Main results

- `ContentRouter.Configuration.follows` — when the guest routes an object by its member
-/

namespace Wafer.ContentRouter

open Lib JsonText
open ThresholdFilter (untilUnescapedQuote)

structure RouterConfig where
  routeField : String
  routes : List (String × String)
  defaultPort : String
  allPorts : List String
  deriving DecidableEq, Repr

/-- The string behind the first colon after a quoted key. -/
def extractStringValue (json : List Char) (key : String) : Option String :=
  match after (quoted key) json with
  | none => none
  | some afterKey =>
    match splitFirst (· = ':') afterKey with
    | none => none
    | some (_, afterColon) =>
      match trimStart isWhitespace afterColon with
      | '"' :: valueStart => (untilUnescapedQuote valueStart).map String.ofList
      | _ => none

/-- The text before the brace that closes an open one, braces in strings left aside. -/
def findMatchingBrace : ℕ → Bool → List Char → Option (List Char)
  | _, _, [] => none
  | depth, inString, c :: rest =>
    if c = '\\' ∧ inString = true then
      match rest with
      | [] => none
      | d :: rest => (findMatchingBrace depth inString rest).map fun inner => c :: d :: inner
    else if c = '"' then (findMatchingBrace depth (!inString) rest).map fun inner => c :: inner
    else if c = '\x7b' ∧ inString = false then
      (findMatchingBrace (depth + 1) inString rest).map fun inner => c :: inner
    else if c = '\x7d' ∧ inString = false then
      match depth with
      | 0 => some []
      | depth + 1 => (findMatchingBrace depth inString rest).map fun inner => c :: inner
    else (findMatchingBrace depth inString rest).map fun inner => c :: inner

/-- The text without a comma in front, if it has one there. -/
def skipComma : List Char → List Char
  | ',' :: rest => rest
  | rest => rest

/-- The pairs up to the first place where no quote begins a key. Every round takes two characters
or more, so the length of the text is fuel enough. -/
def pairs : ℕ → List Char → Option (List (String × String))
  | 0, _ => none
  | fuel + 1, remaining =>
    match trimStart isWhitespace remaining with
    | '"' :: keyStart =>
      match untilUnescapedQuote keyStart with
      | none => none
      | some k =>
        match splitFirst (· = ':') (keyStart.drop (k.length + 1)) with
        | none => none
        | some (_, remaining) =>
          match trimStart isWhitespace remaining with
          | '"' :: valStart =>
            match untilUnescapedQuote valStart with
            | none => none
            | some v =>
              (pairs fuel (skipComma (trimStart isWhitespace (valStart.drop (v.length + 1))))).map
                fun routes => (String.ofList k, String.ofList v) :: routes
          | _ => none
    | _ => some []

def extractRoutesObject (json : List Char) : Option (List (String × String)) :=
  match after (quoted "routes") json with
  | none => none
  | some afterKey =>
    match splitFirst (· = ':') afterKey with
    | none => none
    | some (_, afterColon) =>
      match trimStart isWhitespace afterColon with
      | '\x7b' :: content =>
        match findMatchingBrace 0 false content with
        | none => none
        | some inner => pairs (inner.length + 1) inner
      | _ => none

/-- `sort` and `dedup`, which takes out what equals its predecessor. -/
def sortDedup (ports : List String) : List String :=
  (ports.mergeSort fun a b => decide (a ≤ b)).destutter (· ≠ ·)

/-- The ports of the routes and the default one. -/
def collectPorts (routes : List (String × String)) (defaultPort : String) : List String :=
  let ports := routes.map Prod.snd
  sortDedup (if defaultPort ∈ ports then ports else ports ++ [defaultPort])

def parseRouterConfig (json : List Char) : Except String RouterConfig :=
  match extractStringValue json "route_field" with
  | none => .error "missing 'route_field' in config"
  | some routeField =>
    match extractStringValue json "default_port" with
    | none => .error "missing 'default_port' in config"
    | some defaultPort =>
      match extractRoutesObject json with
      | none => .error "missing or invalid 'routes' in config"
      | some routes => .ok ⟨routeField, routes, defaultPort, collectPorts routes defaultPort⟩

def validate (config : List Char) : Option String :=
  match parseRouterConfig config with
  | .ok _ => none
  | .error e => some e

/-- The state `outputPorts` and `route` run on afterwards. -/
def init (config : List Char) : Except WitProcessError RouterConfig :=
  match parseRouterConfig config with
  | .ok cfg => .ok cfg
  | .error e => .error (.badInput e)

def outputPorts (cfg : RouterConfig) : List String := cfg.allPorts

/-- The port of a value: the one its route names, else the default. -/
def portFor (routes : List (String × String)) (defaultPort : String) : Option String → String
  | some v => ((routes.find? fun r => r.1 = v).map Prod.snd).getD defaultPort
  | none => defaultPort

def route (cfg : RouterConfig) (payload : List UInt8) : Except WitProcessError (List String) :=
  match fromUtf8 payload with
  | none => .error (.badInput "payload is not valid UTF-8")
  | some text =>
    .ok [portFor cfg.routes cfg.defaultPort (extractStringValue text cfg.routeField)]

variable {blanks raw rest tail : List Char} {c : Char} {m : MemberText}

/-! ### Strings -/

theorem untilUnescapedQuote_body (h : Body raw) (rest : List Char) :
    untilUnescapedQuote (raw ++ '"' :: rest) = some raw := by
  induction h with
  | nil => rfl
  | plain hquote hback _ ih =>
    rw [List.cons_append, untilUnescapedQuote]
    · rw [ih]
      rfl
    · exact hquote
    · exact fun _ _ he _ => absurd he hback
  | escape _ ih =>
    rw [List.cons_append, List.cons_append, untilUnescapedQuote, ih]
    rfl

/-- The string written behind a colon. -/
def stringBehind (afterColon : List Char) : Option String :=
  match trimStart isWhitespace afterColon with
  | '"' :: valueStart => (untilUnescapedQuote valueStart).map String.ofList
  | _ => none

theorem extractStringValue_eq (json : List Char) (key : String) :
    extractStringValue json key = (behindColon key.toList json).bind stringBehind := by
  rw [extractStringValue, behindColon, quoted]
  cases after ('"' :: key.toList ++ ['"']) json with
  | none => rfl
  | some afterKey =>
    rw [Option.bind_some]
    dsimp only
    cases splitFirst (· = ':') afterKey with
    | none => rfl
    | some cut => rfl

theorem trimStart_blanks (hblanks : ∀ x ∈ blanks, isBlank x = true) (hc : isWhitespace c = false) :
    trimStart isWhitespace (blanks ++ c :: rest) = c :: rest := by
  rw [trimStart, List.dropWhile_append_of_pos
    fun x hx => ThresholdFilter.isWhitespace_of_isBlank (hblanks x hx),
    List.dropWhile_cons_of_neg (by simp [hc])]

theorem stringBehind_string (hblanks : ∀ x ∈ blanks, isBlank x = true) (hraw : Body raw) :
    stringBehind (blanks ++ '"' :: (raw ++ '"' :: rest)) = some (String.ofList raw) := by
  rw [stringBehind, trimStart_blanks hblanks (by decide)]
  simp only [untilUnescapedQuote_body hraw, Option.map_some]

theorem stringBehind_other (hblanks : ∀ x ∈ blanks, isBlank x = true) (hc : isWhitespace c = false)
    (hquote : c ≠ '"') : stringBehind (blanks ++ c :: rest) = none := by
  rw [stringBehind, trimStart_blanks hblanks hc]
  split
  · next he => exact absurd (List.cons.inj he).1 hquote
  · rfl

def stringOf : Value → Option String
  | .str s => some (String.ofList s)
  | _ => none

/-- A member's own colon leads to its string, unless that has escapes. -/
theorem stringBehind_member (m : MemberText) (tail : List Char)
    (hback : ∀ s, m.value = .str s → '\\' ∉ m.written) :
    stringBehind (m.written ++ tail) = stringOf m.value := by
  obtain ⟨blanks, body, rest, hwritten, hblanks, -, hbody⟩ := parse_begins m.value_spelled
  have hother : ∀ (d : Char) (ds : List Char), body = d :: ds → isWhitespace d = false → d ≠ '"' →
      stringBehind (m.written ++ tail) = none := by
    rintro d ds rfl hd hquote
    rw [hwritten, List.append_assoc, List.cons_append, stringBehind_other hblanks hd hquote]
  generalize m.value = value at hbody hback
  cases hbody with
  | str r s htext hscan =>
    obtain ⟨raw, rfl, hraw, hsame⟩ := scanString_body hscan
    have hplain : '\\' ∉ raw := by
      intro hmem
      refine hback s rfl ?_
      rw [hwritten, htext]
      simp [hmem]
    rw [hwritten, htext, List.append_assoc, List.cons_append, List.append_assoc, List.cons_append,
      stringBehind_string hblanks hraw, hsame hplain]
    rfl
  | arr tail items htext => exact hother '[' tail htext (by decide) (by decide)
  | obj tail ms htext _ => exact hother '\x7b' tail htext (by decide) (by decide)
  | null htext => exact hother 'n' _ htext (by decide) (by decide)
  | true htext => exact hother 't' _ htext (by decide) (by decide)
  | false htext => exact hother 'f' _ htext (by decide) (by decide)
  | num literal htext hnumber hchars =>
    obtain ⟨d, ds, rfl⟩ :=
      List.exists_cons_of_ne_nil (ThresholdFilter.parse_of_isNumber hnumber).1
    have hd := hchars d (by simp)
    refine hother d _ htext (ThresholdFilter.plain_of_isNumberChar hd).1 ?_
    rintro rfl
    exact absurd hd (by decide)

/-! ### Braces -/

/-- The search for the closing brace goes through the text and comes out as it went in. -/
def Crossed (part : List Char) : Prop :=
  ∀ depth rest, findMatchingBrace depth false (part ++ rest) =
    (findMatchingBrace depth false rest).map (part ++ ·)

theorem Crossed.append {part part' : List Char} (h : Crossed part) (h' : Crossed part') :
    Crossed (part ++ part') := by
  intro depth rest
  rw [List.append_assoc, h, h', Option.map_map]
  congr 1
  funext inner
  simp

theorem crossed_of_quiet {part : List Char}
    (h : ∀ x ∈ part, x ≠ '"' ∧ x ≠ '\x7b' ∧ x ≠ '\x7d') : Crossed part := by
  intro depth rest
  induction part with
  | nil => simp
  | cons x part ih =>
    obtain ⟨hquote, hopen, hclose⟩ := h x (by simp)
    rw [List.cons_append, findMatchingBrace.eq_def]
    simp only [hquote, hopen, hclose, Bool.false_eq_true, and_false, false_and, if_false]
    rw [ih fun y hy => h y (by simp [hy]), Option.map_map]
    rfl

theorem crossed_of_blank {part : List Char} (h : ∀ x ∈ part, isBlank x = true) : Crossed part := by
  apply crossed_of_quiet
  intro x hx
  have hblank := h x hx
  refine ⟨?_, ?_, ?_⟩ <;> (rintro rfl; exact absurd hblank (by decide))

/-- Braces between quotes are left aside. -/
theorem crossed_string (h : Body raw) : Crossed ('"' :: (raw ++ ['"'])) := by
  intro depth rest
  have hinside : findMatchingBrace depth true (raw ++ '"' :: rest) =
      (findMatchingBrace depth false rest).map fun inner => raw ++ '"' :: inner := by
    induction h with
    | nil => rw [List.nil_append, findMatchingBrace.eq_def]; rfl
    | @plain x raw hquote hback _ ih =>
      rw [List.cons_append, findMatchingBrace.eq_def]
      simp only [hquote, hback, Bool.true_eq_false, and_false, false_and, if_false]
      rw [ih, Option.map_map]
      rfl
    | @escape x raw _ ih =>
      rw [List.cons_append, List.cons_append, findMatchingBrace.eq_def]
      simp only [and_self, if_true]
      rw [ih, Option.map_map]
      rfl
  have hopen : '"' :: (raw ++ ['"']) ++ rest = '"' :: (raw ++ '"' :: rest) := by simp
  rw [hopen, findMatchingBrace.eq_def]
  simp only [Char.reduceEq, false_and, if_false, if_true, Bool.not_false]
  rw [hinside, Option.map_map]
  congr 1
  funext inner
  simp

theorem findMatchingBrace_crossed {part : List Char} (h : Crossed part) (rest : List Char) :
    findMatchingBrace 0 false (part ++ '\x7d' :: rest) = some part := by
  have hend : findMatchingBrace 0 false ('\x7d' :: rest) = some [] := by
    rw [findMatchingBrace.eq_def]
    rfl
  rw [h, hend]
  simp

/-! ### Pairs -/

/-- A pair of strings as it is written, between blanks. -/
structure PairText where
  before : List Char
  key : List Char
  gap : List Char
  lead : List Char
  value : List Char
  back : List Char
  before_blank : ∀ x ∈ before, isBlank x = true
  key_body : Body key
  gap_blank : ∀ x ∈ gap, isBlank x = true
  lead_blank : ∀ x ∈ lead, isBlank x = true
  value_body : Body value
  back_blank : ∀ x ∈ back, isBlank x = true

def PairText.text (p : PairText) : List Char :=
  p.before ++ ('"' :: (p.key ++ ['"']) ++ (p.gap ++ ([':'] ++ (p.lead ++
    ('"' :: (p.value ++ ['"']) ++ p.back)))))

def PairText.pair (p : PairText) : String × String :=
  (String.ofList p.key, String.ofList p.value)

/-- Pairs behind each other, with commas between them. -/
def joined (p : PairText) : List PairText → List Char
  | [] => p.text
  | q :: ps => p.text ++ ([','] ++ joined q ps)

theorem PairText.crossed (p : PairText) : Crossed p.text := by
  have hcolon : Crossed [':'] := crossed_of_quiet (by simp)
  exact (crossed_of_blank p.before_blank).append ((crossed_string p.key_body).append
    ((crossed_of_blank p.gap_blank).append (hcolon.append ((crossed_of_blank p.lead_blank).append
      ((crossed_string p.value_body).append (crossed_of_blank p.back_blank))))))

theorem crossed_joined (p : PairText) (ps : List PairText) : Crossed (joined p ps) := by
  induction ps generalizing p with
  | nil => exact p.crossed
  | cons q ps ih =>
    have hcomma : Crossed [','] := crossed_of_quiet (by simp)
    exact p.crossed.append (hcomma.append (ih q))

/-- One round of the loop takes one pair. -/
theorem pairs_text (n : ℕ) (p : PairText) (rest : List Char) :
    pairs (n + 1) (p.text ++ rest) =
      (pairs n (skipComma (trimStart isWhitespace (p.back ++ rest)))).map (p.pair :: ·) := by
  have hkey : trimStart isWhitespace (p.text ++ rest) =
      '"' :: (p.key ++ '"' :: (p.gap ++ ':' :: (p.lead ++ '"' :: (p.value ++ '"' ::
        (p.back ++ rest))))) := by
    have htext : p.text ++ rest = p.before ++ '"' :: (p.key ++ '"' :: (p.gap ++ ':' ::
        (p.lead ++ '"' :: (p.value ++ '"' :: (p.back ++ rest))))) := by simp [PairText.text]
    rw [htext, trimStart_blanks p.before_blank (by decide)]
  have hdrop : ∀ a t : List Char, (a ++ '"' :: t).drop (a.length + 1) = t := by
    intro a t
    rw [← List.drop_drop, List.drop_left, List.drop_one, List.tail_cons]
  rw [pairs, hkey]
  simp only [untilUnescapedQuote_body p.key_body, hdrop, splitFirst_colon p.gap_blank,
    trimStart_blanks p.lead_blank (show isWhitespace '"' = false by decide),
    untilUnescapedQuote_body p.value_body]
  rfl

/-- The loop takes every pair, its fuel being more than the characters. -/
theorem pairs_joined (p : PairText) (ps : List PairText) {n : ℕ} (hn : (joined p ps).length < n) :
    pairs n (joined p ps) = some ((p :: ps).map PairText.pair) := by
  induction ps generalizing p n with
  | nil =>
    obtain ⟨n, rfl⟩ : ∃ k, n = k + 2 := by
      refine ⟨n - 2, ?_⟩
      simp only [joined, PairText.text, List.length_append, List.length_cons] at hn
      omega
    have hend : trimStart isWhitespace (p.back ++ []) = [] := by
      rw [List.append_nil, trimStart, List.dropWhile_eq_nil_iff]
      exact fun x hx => ThresholdFilter.isWhitespace_of_isBlank (p.back_blank x hx)
    rw [joined, ← List.append_nil p.text, pairs_text, hend]
    rfl
  | cons q ps ih =>
    obtain ⟨n, rfl⟩ : ∃ k, n = k + 1 := ⟨n - 1, by omega⟩
    have hcomma : trimStart isWhitespace (p.back ++ ([','] ++ joined q ps)) = ',' :: joined q ps := by
      rw [List.singleton_append, trimStart_blanks p.back_blank (by decide)]
    have hshort : (joined q ps).length < n := by
      simp only [joined, List.length_append, List.length_cons] at hn
      omega
    rw [joined, pairs_text, hcomma, skipComma, ih q hshort]
    rfl

/-- Members that are strings without escapes are pairs behind each other. -/
theorem members_joined {fuel : ℕ} {lead text rest : List Char} {ms : List (List Char × Value)}
    (h : members fuel text = some (ms, rest)) (hlead : ∀ x ∈ lead, isBlank x = true)
    (hback : '\\' ∉ text) {routes : List (String × String)}
    (hms : ms = routes.map fun r => (r.1.toList, .str r.2.toList)) :
    ∃ p ps, lead ++ text = joined p ps ++ '\x7d' :: rest ∧ (p :: ps).map PairText.pair = routes := by
  induction routes generalizing fuel text lead ms with
  | nil =>
    obtain ⟨t, rfl⟩ := members_begins h
    obtain ⟨_, _, _, _, _, _, _, -, -, -, -, hcons, -⟩ := members_eq_some h
    rw [hms] at hcons
    cases hcons
  | cons r routes ih =>
    obtain ⟨t, rfl⟩ := members_begins h
    obtain ⟨n, name, r₁, r₂, v, r₃, more, -, hname, hcolon, hvalue, hcons, hnext⟩ :=
      members_eq_some h
    rw [hms, List.map_cons] at hcons
    obtain ⟨hpair, rfl⟩ := List.cons.inj hcons
    obtain ⟨rfl, rfl⟩ := Prod.mk.inj hpair
    cases value_begins hvalue with
    | str tail s hquote hvalue =>
      obtain ⟨key, rfl, hkey, hkeySame⟩ := scanString_body hname
      obtain ⟨val, rfl, hval, hvalSame⟩ := scanString_body hvalue
      let p : PairText := {
        before := lead, key := key, gap := r₁.takeWhile isBlank, lead := r₂.takeWhile isBlank
        value := val, back := r₃.takeWhile isBlank
        before_blank := hlead, key_body := hkey, gap_blank := isBlank_takeWhile r₁
        lead_blank := isBlank_takeWhile r₂, value_body := hval, back_blank := isBlank_takeWhile r₃ }
      have htext : '"' :: (key ++ '"' :: r₁) = '"' :: (key ++ '"' :: (p.gap ++ ':' ::
          (p.lead ++ '"' :: (val ++ '"' :: (p.back ++ skip r₃))))) := by
        rw [takeWhile_append_skip r₃, ← hquote, takeWhile_append_skip r₂, ← hcolon,
          takeWhile_append_skip r₁]
      have hp : lead ++ '"' :: (key ++ '"' :: r₁) = p.text ++ skip r₃ := by
        rw [htext]
        simp [PairText.text, p]
      rw [htext] at hback
      simp only [List.mem_cons, List.mem_append, not_or] at hback
      obtain ⟨-, hkeyBack, -, -, -, -, -, hvalBack, -, -, hskipBack⟩ := hback
      have hpairEq : p.pair = r := by
        have h₁ : key = r.1.toList := hkeySame hkeyBack
        have h₂ : val = r.2.toList := hvalSame hvalBack
        simp [PairText.pair, p, h₁, h₂]
      rcases hnext with ⟨hbrace, hnil⟩ | ⟨r₄, hcomma, hmore⟩
      · obtain rfl := List.map_eq_nil_iff.mp hnil
        refine ⟨p, [], ?_, ?_⟩
        · rw [hp, hbrace, joined]
        · rw [List.map_singleton, hpairEq]
      · have hrest : '\\' ∉ skip r₄ := by
          intro hmem
          rw [hcomma] at hskipBack
          exact hskipBack (List.mem_cons_of_mem _ ((List.dropWhile_suffix isBlank).subset hmem))
        obtain ⟨q, ps, hqs, hroutes⟩ := ih hmore (isBlank_takeWhile r₄) hrest rfl
        rw [takeWhile_append_skip] at hqs
        refine ⟨p, q :: ps, ?_, ?_⟩
        · rw [hp, hcomma, hqs, joined]
          simp
        · rw [List.map_cons, hpairEq, hroutes]

/-- The routes written behind a colon. -/
def routesBehind (afterColon : List Char) : Option (List (String × String)) :=
  match trimStart isWhitespace afterColon with
  | '\x7b' :: content =>
    (findMatchingBrace 0 false content).bind fun inner => pairs (inner.length + 1) inner
  | _ => none

theorem extractRoutesObject_eq (json : List Char) :
    extractRoutesObject json = (behindColon "routes".toList json).bind routesBehind := by
  rw [extractRoutesObject, behindColon, quoted]
  cases after ('"' :: "routes".toList ++ ['"']) json with
  | none => rfl
  | some afterKey =>
    rw [Option.bind_some]
    dsimp only
    cases splitFirst (· = ':') afterKey with
    | none => rfl
    | some cut =>
      simp only [Option.map_some, Option.bind_some, routesBehind]
      split
      · cases findMatchingBrace 0 false _ with
        | none => rfl
        | some inner => rfl
      · rfl

theorem routesBehind_object (hblanks : ∀ x ∈ blanks, isBlank x = true) {inner : List Char}
    (hinner : Crossed inner) :
    routesBehind (blanks ++ '\x7b' :: (inner ++ '\x7d' :: rest)) =
      pairs (inner.length + 1) inner := by
  rw [routesBehind, trimStart_blanks hblanks (by decide)]
  simp only [findMatchingBrace_crossed hinner, Option.bind_some]

/-- A member's own colon leads to its routes. -/
theorem routesBehind_member {routes : List (String × String)} (hback : '\\' ∉ m.written)
    (hm : m.value = .obj (routes.map fun r => (r.1.toList, .str r.2.toList)))
    (tail : List Char) : routesBehind (m.written ++ tail) = some routes := by
  obtain ⟨blanks, body, rest, hwritten, hblanks, -, hbody⟩ := parse_begins m.value_spelled
  rw [hm] at hbody
  generalize hms : routes.map (fun r => (r.1.toList, Value.str r.2.toList)) = ms at hbody
  cases hbody with
  | obj content ms htext hcontent =>
    have hsplit := takeWhile_append_skip content
    have hblank := isBlank_takeWhile content
    rcases hcontent with ⟨hbrace, rfl⟩ | ⟨fuel, hmembers⟩
    · obtain rfl := List.map_eq_nil_iff.mp hms
      rw [hwritten, htext, List.append_assoc, List.cons_append, ← hsplit, hbrace, List.append_assoc,
        List.cons_append, routesBehind_object hblanks (crossed_of_blank hblank), pairs]
      have hend : trimStart isWhitespace (content.takeWhile isBlank) = [] := by
        rw [trimStart, List.dropWhile_eq_nil_iff]
        exact fun x hx => ThresholdFilter.isWhitespace_of_isBlank (hblank x hx)
      rw [hend]
    · have hskip : '\\' ∉ skip content := by
        intro hmem
        apply hback
        rw [hwritten, htext, ← hsplit]
        simp [hmem]
      obtain ⟨p, ps, hjoined, hroutes⟩ := members_joined hmembers hblank hskip hms.symm
      rw [hsplit] at hjoined
      rw [hwritten, htext, List.append_assoc, List.cons_append, hjoined, List.append_assoc,
        List.cons_append, routesBehind_object hblanks (crossed_joined p ps),
        pairs_joined p ps (Nat.lt_succ_self _), hroutes]

/-! ### Ports -/

/-- Sorted without repetitions, as a set. -/
theorem sortDedup_sorted (ports : List String) :
    (sortDedup ports).Pairwise (· < ·) ∧ ∀ p, p ∈ sortDedup ports ↔ p ∈ ports := by
  have hsorted : (ports.mergeSort fun a b => decide (a ≤ b)).Pairwise (· ≤ ·) := by
    have hpairwise : (ports.mergeSort fun a b => decide (a ≤ b)).Pairwise
        (fun a b => decide (a ≤ b) = true) := by
      apply List.pairwise_mergeSort
      · intro a b c hab hbc
        exact decide_eq_true (le_trans (of_decide_eq_true hab) (of_decide_eq_true hbc))
      · intro a b
        simpa using le_total a b
    exact hpairwise.imp of_decide_eq_true
  have hdedup : sortDedup ports = (ports.mergeSort fun a b => decide (a ≤ b)).dedup :=
    hsorted.destutter_eq_dedup
  constructor
  · have hne : (sortDedup ports).Nodup := hdedup ▸ List.nodup_dedup _
    have hle : (sortDedup ports).Pairwise (· ≤ ·) := hsorted.sublist (List.destutter_sublist _ _)
    exact (hle.and hne).imp fun h => lt_of_le_of_ne h.1 h.2
  · intro p
    rw [hdedup, List.mem_dedup, List.mem_mergeSort]

theorem collectPorts_sorted (routes : List (String × String)) (defaultPort : String) :
    (collectPorts routes defaultPort).Pairwise (· < ·) ∧
      ∀ p, p ∈ collectPorts routes defaultPort ↔ p ∈ routes.map Prod.snd ∨ p = defaultPort := by
  obtain ⟨hsorted, hmem⟩ := sortDedup_sorted
    (if defaultPort ∈ routes.map Prod.snd then routes.map Prod.snd
      else routes.map Prod.snd ++ [defaultPort])
  refine ⟨hsorted, fun p => (hmem p).trans ?_⟩
  split
  · next hdefault =>
    constructor
    · exact .inl
    · rintro (hp | rfl)
      · exact hp
      · exact hdefault
  · rw [List.mem_append, List.mem_singleton]

/-- What the guest starts from. -/
theorem init_eq_ok {config : List Char} {cfg : RouterConfig} :
    init config = .ok cfg ↔
      extractStringValue config "route_field" = some cfg.routeField ∧
        extractStringValue config "default_port" = some cfg.defaultPort ∧
          extractRoutesObject config = some cfg.routes ∧
            cfg.allPorts = collectPorts cfg.routes cfg.defaultPort := by
  obtain ⟨routeField, routes, defaultPort, allPorts⟩ := cfg
  simp only [init, parseRouterConfig]
  cases extractStringValue config "route_field" with
  | none => simp
  | some field =>
    cases extractStringValue config "default_port" with
    | none => simp
    | some port =>
      cases extractRoutesObject config with
      | none => simp
      | some pairs =>
        simp only [Except.ok.injEq, RouterConfig.mk.injEq, Option.some.injEq]
        constructor
        · rintro ⟨rfl, rfl, rfl, rfl⟩
          exact ⟨rfl, rfl, rfl, rfl⟩
        · rintro ⟨rfl, rfl, rfl, rfl⟩
          exact ⟨rfl, rfl, rfl, rfl⟩

/-! ### Routing -/

/-- A configuration, and a JSON text of it without escapes. -/
structure Configuration where
  routeField : String
  routes : List (String × String)
  defaultPort : String
  object : ObjectText
  members_eq : (object.members.map fun m => (m.name, m.value)).Perm
    [("route_field".toList, .str routeField.toList),
      ("routes".toList, .obj (routes.map fun r => (r.1.toList, .str r.2.toList))),
      ("default_port".toList, .str defaultPort.toList)]
  unescaped : '\\' ∉ object.render
  keys_distinct : (routes.map Prod.fst).Nodup

namespace Configuration

variable {c : Configuration} {o : ObjectText} {before ms : List MemberText}

/-- The port of an object: the one its string in the route field is mapped to, else the default. -/
def port (c : Configuration) (o : ObjectText) : String :=
  portFor c.routes c.defaultPort ((o.find c.routeField.toList).bind stringOf)

/-- Each of the three names first stands between quotes as the name of its own member. -/
def Legible (c : Configuration) : Prop :=
  c.object.NamesFirst "route_field".toList ∧ c.object.NamesFirst "default_port".toList ∧
    c.object.NamesFirst "routes".toList

/-- The route field first stands between quotes as the name of its own member, of which a string has
no escapes; or there is neither. -/
def Routable (c : Configuration) (o : ObjectText) : Prop :=
  (o.NamesFirst c.routeField.toList ∧ ∀ m ∈ o.members, m.name = c.routeField.toList →
    ∀ s, m.value = .str s → '\\' ∉ m.written) ∨
  o.Lacks c.routeField.toList

/-- The guest takes the configuration as it is, offers its ports and sends the object to its own. -/
def Follows (c : Configuration) (o : ObjectText) (payload : List UInt8) : Prop :=
  ∃ cfg, init c.object.render = .ok cfg ∧
    (cfg.routeField = c.routeField ∧ cfg.routes = c.routes ∧ cfg.defaultPort = c.defaultPort) ∧
    ((outputPorts cfg).Pairwise (· < ·) ∧
      ∀ p, p ∈ outputPorts cfg ↔ p ∈ c.routes.map Prod.snd ∨ p = c.defaultPort) ∧
    route cfg payload = .ok [c.port o]

/-- No two routes have one key, so a key's route is the only one. -/
theorem port_of_mem {v p : String} (hv : o.find c.routeField.toList = some (.str v.toList))
    (hp : (v, p) ∈ c.routes) : c.port o = p := by
  obtain ⟨before, after, hroutes⟩ := List.append_of_mem hp
  have hdistinct := c.keys_distinct
  rw [hroutes, List.map_append, List.map_cons, List.nodup_append] at hdistinct
  have hbefore : before.find? (fun r => r.1 = v) = none := by
    rw [List.find?_eq_none]
    intro r hr
    have hne := hdistinct.2.2 r.1 (List.mem_map_of_mem hr) v (by simp)
    simpa using hne
  rw [port, hv, Option.bind_some, stringOf, String.ofList_toList, portFor, hroutes,
    List.find?_append, hbefore, Option.none_or, List.find?_cons_of_pos (by simp)]
  rfl

theorem port_of_notMem {v : String} (hv : o.find c.routeField.toList = some (.str v.toList))
    (hp : v ∉ c.routes.map Prod.fst) : c.port o = c.defaultPort := by
  have hnone : c.routes.find? (fun r => r.1 = v) = none := by
    rw [List.find?_eq_none]
    intro r hr he
    exact hp (of_decide_eq_true he ▸ List.mem_map_of_mem hr)
  rw [port, hv, Option.bind_some, stringOf, String.ofList_toList, portFor, hnone]
  rfl

/-- What the three members are. -/
theorem value_eq (hms : c.object.members = before ++ m :: ms) :
    (m.name = "route_field".toList → m.value = .str c.routeField.toList) ∧
      (m.name = "default_port".toList → m.value = .str c.defaultPort.toList) ∧
        (m.name = "routes".toList →
          m.value = .obj (c.routes.map fun r => (r.1.toList, .str r.2.toList))) := by
  have hmem := c.members_eq.subset (show (m.name, m.value) ∈ _ by rw [hms]; simp)
  simp only [List.mem_cons, List.not_mem_nil, or_false, Prod.mk.injEq] at hmem
  rcases hmem with ⟨hname, hvalue⟩ | ⟨hname, hvalue⟩ | ⟨hname, hvalue⟩
  · rw [hname]
    exact ⟨fun _ => hvalue, fun h => absurd h (by decide), fun h => absurd h (by decide)⟩
  · rw [hname]
    exact ⟨fun h => absurd h (by decide), fun h => absurd h (by decide), fun _ => hvalue⟩
  · rw [hname]
    exact ⟨fun h => absurd h (by decide), fun _ => hvalue, fun h => absurd h (by decide)⟩

theorem unescaped_written (hms : c.object.members = before ++ m :: ms) : '\\' ∉ m.written := by
  intro hmem
  apply c.unescaped
  rw [ObjectText.render_eq hms]
  simp [MemberText.behindName, hmem]

theorem stringBehind_own {s : String} (hms : c.object.members = before ++ m :: ms)
    (hvalue : m.value = .str s.toList) :
    stringBehind (m.written ++ c.object.tail ms) = some s := by
  rw [stringBehind_member m _ fun _ _ => unescaped_written hms, hvalue, stringOf,
    String.ofList_toList]

/-- The guest reads the three members of a legible configuration. -/
theorem Legible.read (h : c.Legible) :
    extractStringValue c.object.render "route_field" = some c.routeField ∧
      extractStringValue c.object.render "default_port" = some c.defaultPort ∧
        extractRoutesObject c.object.render = some c.routes := by
  obtain ⟨hfield, hport, hroutes⟩ := h
  rw [extractStringValue_eq, extractStringValue_eq, extractRoutesObject_eq]
  refine ⟨?_, ?_, ?_⟩
  · obtain ⟨before, m, ms, hms, hname, hcolon⟩ := hfield.behindColon
    rw [hcolon, Option.bind_some]
    exact stringBehind_own hms ((value_eq hms).1 hname)
  · obtain ⟨before, m, ms, hms, hname, hcolon⟩ := hport.behindColon
    rw [hcolon, Option.bind_some]
    exact stringBehind_own hms ((value_eq hms).2.1 hname)
  · obtain ⟨before, m, ms, hms, hname, hcolon⟩ := hroutes.behindColon
    rw [hcolon, Option.bind_some]
    exact routesBehind_member (unescaped_written hms) ((value_eq hms).2.2 hname) _

/-- The string read of a routable payload is that of its member. -/
theorem Routable.read (h : c.Routable o) : extractStringValue o.render c.routeField =
    (o.find c.routeField.toList).bind stringOf := by
  rw [extractStringValue_eq]
  rcases h with ⟨hfirst, hplain⟩ | hlacks
  · obtain ⟨before, m, ms, hms, hname, hcolon⟩ := hfirst.behindColon
    have hmem : m ∈ o.members := by
      rw [hms]
      simp
    rw [hcolon, Option.bind_some, stringBehind_member m _ (hplain m hmem hname), ← hname,
      ObjectText.find_eq hms, Option.bind_some]
  · rw [hlacks.behindColon, hlacks.find]
    rfl

theorem route_eq {cfg : RouterConfig} {payload : List UInt8}
    (hpayload : fromUtf8 payload = some o.render) :
    route cfg payload = .ok [portFor cfg.routes cfg.defaultPort
      (extractStringValue o.render cfg.routeField)] := by
  simp only [route, hpayload]

/-- The guest follows a configuration on an object if each of the names it searches first stands
between quotes as the name of its own member, and the member routed by has no escapes. -/
theorem follows (c : Configuration) (o : ObjectText) (payload : List UInt8)
    (hpayload : fromUtf8 payload = some o.render) (hconfig : c.Legible) (hroute : c.Routable o) :
    c.Follows o payload := by
  obtain ⟨hread, hport, hpairs⟩ := hconfig.read
  refine ⟨⟨c.routeField, c.routes, c.defaultPort, collectPorts c.routes c.defaultPort⟩,
    init_eq_ok.mpr ⟨hread, hport, hpairs, rfl⟩, ⟨rfl, rfl, rfl⟩, collectPorts_sorted _ _, ?_⟩
  rw [route_eq hpayload, hroute.read]
  rfl

theorem parse_pair {k v : List Char} (hk : Plain k) (hv : Plain v) :
    parse ('\x7b' :: '"' :: (k ++ '"' :: ':' :: '"' :: (v ++ ['"', '\x7d']))) =
      some (.obj [(k, .str v)]) := by
  have hskip : ∀ {x : Char} {t : List Char}, isBlank x = false → skip (x :: t) = x :: t :=
    fun h => skip_of_not_blank h
  have hvalue : ∀ n, value (n + 1) (skip ('"' :: (v ++ ['"', '\x7d']))) =
      some (.str v, ['\x7d']) := by
    intro n
    rw [hskip (by decide), value_string, scanString_plain hv ['\x7d']]
    rfl
  have hmembers : ∀ n, members (n + 2) ('"' :: (k ++ '"' :: ':' :: '"' :: (v ++ ['"', '\x7d']))) =
      some ([(k, .str v)], []) :=
    fun n => members_last (scanString_plain hk _) (hvalue n) rfl
  rw [parse, hskip (by decide)]
  simp only [List.length_cons]
  rw [value_object, hmembers]
  rfl

/-- `{"route_field":"type","routes":{"alert":"p"},"default_port":"d"}`. -/
def alerts : Configuration where
  routeField := "type"
  routes := [("alert", "p")]
  defaultPort := "d"
  object := {
    front := [], inner := [], back := []
    members := [
      .plain "route_field".toList _ (.str "type".toList) (by decide) (parse_string (by decide)),
      .plain "routes".toList _ (.obj [("alert".toList, .str "p".toList)]) (by decide)
        (parse_pair (by decide) (by decide)),
      .plain "default_port".toList _ (.str "d".toList) (by decide) (parse_string (by decide))]
    front_blank := nil_blank
    inner_blank := nil_blank
    back_blank := nil_blank
    distinct := by decide }
  members_eq := List.Perm.refl _
  unescaped := by decide
  keys_distinct := by decide

/-- `{"type":"alert"}`. -/
def typeAsName : ObjectText where
  front := []
  inner := []
  back := []
  members := [.plain "type".toList _ (.str "alert".toList) (by decide) (parse_string (by decide))]
  front_blank := nil_blank
  inner_blank := nil_blank
  back_blank := nil_blank
  distinct := by decide

theorem alerts_legible : alerts.Legible := by
  have hfield : alerts.object.members = [] ++ alerts.object.members[0] ::
      alerts.object.members.drop 1 := rfl
  have hroutes : alerts.object.members = alerts.object.members.take 1 ++
      alerts.object.members[1] :: alerts.object.members.drop 2 := rfl
  have hport : alerts.object.members = alerts.object.members.take 2 ++
      [alerts.object.members[2]] := rfl
  exact ⟨ObjectText.namesFirst_of_after hfield rfl (by decide +kernel),
    ObjectText.namesFirst_of_after hport rfl (by decide +kernel),
    ObjectText.namesFirst_of_after hroutes rfl (by decide +kernel)⟩

theorem follows_alert :
    alerts.port typeAsName = "p" ∧
      alerts.Follows typeAsName "\x7b\"type\":\"alert\"\x7d".toUTF8.toList := by
  have hms : typeAsName.members = [] ++ [typeAsName.members[0]] := rfl
  have hroute : alerts.Routable typeAsName := by
    refine .inl ⟨ObjectText.namesFirst_of_after hms rfl (by decide +kernel), ?_⟩
    rintro m hm - s -
    obtain rfl := List.mem_singleton.mp hm
    decide +kernel
  exact ⟨by decide +kernel, follows alerts typeAsName _ (by decide +kernel) alerts_legible hroute⟩

/-- `{"a":"type","b":"alert"}`, without a member `type`. -/
def typeAsText : ObjectText where
  front := []
  inner := []
  back := []
  members := [
    .plain ['a'] _ (.str "type".toList) plain_a (parse_string (by decide)),
    .plain ['b'] _ (.str "alert".toList) plain_b (parse_string (by decide))]
  front_blank := nil_blank
  inner_blank := nil_blank
  back_blank := nil_blank
  distinct := by decide

/-- The text `type` of the first member is found, and the second member's string is routed. -/
theorem typeAsText_goes_astray :
    let payload := "\x7b\"a\":\"type\",\"b\":\"alert\"\x7d".toUTF8.toList
    fromUtf8 payload = some typeAsText.render ∧ alerts.port typeAsText = "d" ∧
      ∃ cfg, init alerts.object.render = .ok cfg ∧ route cfg payload = .ok ["p"] ∧
        ¬ alerts.Follows typeAsText payload := by
  intro payload
  have hpayload : fromUtf8 payload = some typeAsText.render := by decide +kernel
  have hport : alerts.port typeAsText = "d" := by decide +kernel
  have hread : extractStringValue alerts.object.render "route_field" = some "type" := by
    decide +kernel
  have hdefault : extractStringValue alerts.object.render "default_port" = some "d" := by
    decide +kernel
  have hroutes : extractRoutesObject alerts.object.render = some [("alert", "p")] := by
    decide +kernel
  have hroute : portFor [("alert", "p")] "d" (extractStringValue typeAsText.render "type") = "p" := by
    decide +kernel
  refine ⟨hpayload, hport, ⟨"type", [("alert", "p")], "d", collectPorts [("alert", "p")] "d"⟩,
    init_eq_ok.mpr ⟨hread, hdefault, hroutes, rfl⟩, ?_, ?_⟩
  · rw [route_eq hpayload, hroute]
  · rintro ⟨cfg, -, ⟨hfield, hpairs, hown⟩, -, hfollows⟩
    rw [route_eq hpayload, hport, hfield, hpairs, hown] at hfollows
    have hsame := (List.cons.inj (Except.ok.inj hfollows)).1
    exact absurd (hroute.symm.trans hsame) (by decide)

end Configuration

end Wafer.ContentRouter
