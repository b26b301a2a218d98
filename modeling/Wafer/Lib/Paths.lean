import Mathlib.Data.List.Basic

/-!
# Unix paths

A path text is cut at its slashes; empty pieces and single dots say nothing,
two dots go to the parent directory. A location is the list of the names from
the root directory on, without links.

## Main definitions

- `components`, `join` — the pieces of a path, and two paths joined
- `resolve`, `locate` — the location a path names
- `staysBelow` — the pieces never lead above where they start

## Main results

- `components_join` — joining puts the pieces together, unless the second path is absolute
- `resolve_append` — pieces that stay below a directory are resolved inside it
- `resolve_congr_of_climbs` — pieces that do not stay below it forget its name
-/

namespace Wafer.Lib

abbrev Location := List (List Char)

inductive Component
  | parent
  | normal (name : List Char)
  deriving DecidableEq, Repr

def component (piece : List Char) : Option Component :=
  if piece = [] ∨ piece = ['.'] then none
  else if piece = ['.', '.'] then some .parent
  else some (.normal piece)

def components (path : List Char) : List Component := (path.splitOn '/').filterMap component

def isAbsolute (path : List Char) : Bool := path.head? = some '/'

/-- The second path after the first one; an absolute path replaces the first one. -/
def join (base part : List Char) : List Char :=
  if isAbsolute part then part
  else if base = [] ∨ base.getLast? = some '/' then base ++ part
  else base ++ '/' :: part

def Component.step (l : Location) : Component → Location
  | .parent => l.dropLast
  | .normal name => l ++ [name]

/-- The location reached from `start` by the pieces of a path. -/
def resolve (start : Location) (cs : List Component) : Location := cs.foldl Component.step start

/-- The location a path names, seen from a working directory. -/
def locate (cwd : Location) (path : List Char) : Location :=
  resolve (if isAbsolute path then [] else cwd) (components path)

/-- Read from `depth` levels below some directory, the pieces never lead above it. -/
def staysBelow : ℕ → List Component → Bool
  | _, [] => true
  | 0, .parent :: _ => false
  | depth + 1, .parent :: cs => staysBelow depth cs
  | depth, .normal _ :: cs => staysBelow (depth + 1) cs

variable {base part : List Char} {cs : List Component} {outer inner : Location}

@[simp] theorem components_nil : components [] = [] := rfl

theorem components_append_slash (base part : List Char) :
    components (base ++ '/' :: part) = components base ++ components part := by
  rw [components, List.splitOn_append_cons_self, List.filterMap_append]
  rfl

theorem components_join :
    components (join base part) =
      if isAbsolute part then components part else components base ++ components part := by
  simp only [join]
  split
  · rfl
  · split
    · next h =>
      rcases h with rfl | h
      · rfl
      · obtain ⟨front, rfl⟩ := List.getLast?_eq_some_iff.mp h
        rw [List.append_assoc, List.singleton_append, components_append_slash,
          components_append_slash, components_nil, List.append_nil]
    · exact components_append_slash base part

theorem isAbsolute_join (hbase : base ≠ []) :
    isAbsolute (join base part) = (isAbsolute part || isAbsolute base) := by
  obtain ⟨c, rest, rfl⟩ := List.exists_cons_of_ne_nil hbase
  simp only [join]
  split
  · next h => simp [h]
  · next h =>
    have hpart : isAbsolute part = false := by simpa using h
    rw [hpart, Bool.false_or]
    split <;> rfl

@[simp] theorem resolve_nil (l : Location) : resolve l [] = l := rfl

@[simp] theorem resolve_cons (l : Location) (c : Component) (cs : List Component) :
    resolve l (c :: cs) = resolve (c.step l) cs := rfl

theorem resolve_append_components (l : Location) (cs cs' : List Component) :
    resolve l (cs ++ cs') = resolve (resolve l cs) cs' :=
  List.foldl_append

/-- Pieces that stay below a directory are resolved inside it. -/
theorem resolve_append (h : staysBelow inner.length cs = true) :
    resolve (outer ++ inner) cs = outer ++ resolve inner cs := by
  induction cs generalizing inner with
  | nil => rfl
  | cons c cs ih =>
    cases c with
    | parent =>
      cases inner with
      | nil => cases h
      | cons a rest =>
        have hne : a :: rest ≠ [] := List.cons_ne_nil a rest
        rw [resolve_cons, resolve_cons, Component.step, Component.step,
          List.dropLast_append_of_ne_nil hne]
        refine ih ?_
        rw [List.length_dropLast]
        exact h
    | normal name =>
      rw [resolve_cons, resolve_cons, Component.step, Component.step, List.append_assoc]
      refine ih ?_
      rw [List.length_append]
      exact h

theorem resolve_of_staysBelow (l : Location) (h : staysBelow 0 cs = true) :
    resolve l cs = l ++ resolve [] cs := by
  rw [← @resolve_append cs l [] h, List.append_nil]

/-- Pieces that lead above a directory do not depend on its name. -/
theorem resolve_congr_of_climbs {a b : List Char} (h : staysBelow inner.length cs = false) :
    resolve (outer ++ a :: inner) cs = resolve (outer ++ b :: inner) cs := by
  induction cs generalizing inner with
  | nil => cases h
  | cons c cs ih =>
    cases c with
    | parent =>
      cases hinner : inner.reverse with
      | nil =>
        -- this piece leaves the directory
        rw [List.reverse_eq_nil_iff] at hinner
        subst hinner
        rw [resolve_cons, resolve_cons, Component.step, Component.step,
          List.dropLast_concat, List.dropLast_concat]
      | cons name front =>
        obtain rfl : inner = front.reverse ++ [name] := by
          rw [← List.reverse_cons, ← hinner, List.reverse_reverse]
        have hdrop : ∀ x : List Char,
            (outer ++ x :: (front.reverse ++ [name])).dropLast = outer ++ x :: front.reverse := by
          intro x
          rw [← List.cons_append, ← List.append_assoc, List.dropLast_concat]
        rw [resolve_cons, resolve_cons, Component.step, Component.step, hdrop, hdrop]
        refine ih ?_
        rw [List.length_append] at h
        exact h
    | normal name =>
      rw [resolve_cons, resolve_cons, Component.step, Component.step, List.append_assoc,
        List.append_assoc, List.cons_append, List.cons_append]
      refine ih ?_
      rw [List.length_append]
      exact h

/-- Names only: no piece leads to a parent directory. -/
theorem staysBelow_normal (depth : ℕ) (names : List (List Char)) :
    staysBelow depth (names.map .normal) = true := by
  induction names generalizing depth with
  | nil => rfl
  | cons name rest ih => exact ih (depth + 1)

theorem resolve_normal (l : Location) (names : List (List Char)) :
    resolve l (names.map .normal) = l ++ names := by
  induction names generalizing l with
  | nil => simp
  | cons name rest ih =>
    rw [List.map_cons, resolve_cons, Component.step, ih, List.append_assoc, List.singleton_append]

/-- Pieces that stay below and end with a name lead strictly below. -/
theorem resolve_concat_ne_nil (l : Location) (cs : List Component) (name : List Char) :
    resolve l (cs ++ [.normal name]) ≠ [] := by
  rw [resolve_append_components]
  simp [Component.step]

end Wafer.Lib
