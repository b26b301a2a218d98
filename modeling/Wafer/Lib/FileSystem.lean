import Wafer.Lib.HashMap
import Wafer.Lib.Paths

/-!
# File systems

A tree of directories and files without links, as a map from locations to
nodes. Every node but the root lies in a directory, so the operations that
change the tree are the ones that keep it a tree.

## Main definitions

- `FileSystem` — the tree, with `isDir` and `file?` as its two views
- `FileSystem.walk`, `FileSystem.lookup` — the node a path leads to
- `FileSystem.createDirAll`, `FileSystem.write`, `FileSystem.remove` — the changes
- `FileSystem.children` — the listing of a directory, in the order of some traversal
- `FileSystem.Swept` — some of the files are gone, and nothing else changed

## Main results

- `FileSystem.walk_mono` — a path leads to the same place while directories are only added
- `FileSystem.Swept.foldl` — a sweep file by file, or directory by directory
-/

namespace Wafer.Lib

/-- A node with the time of its last change. -/
inductive Node
  | file (modified : ℕ) (content : List UInt8)
  | dir (modified : ℕ)
  deriving DecidableEq, Repr

def Node.modified : Node → ℕ
  | .file modified _ => modified
  | .dir modified => modified

/-- The location is a directory. -/
def DirAt (nodes : HashMap Location Node) (l : Location) : Prop :=
  ∃ modified, nodes.get? l = some (.dir modified)

/-- The root is a directory, and so is what any other node lies in. -/
structure Rooted (nodes : HashMap Location Node) : Prop where
  root : DirAt nodes []
  parent : ∀ l name, nodes.get? (l ++ [name]) ≠ none → DirAt nodes l

namespace Rooted

variable {nodes : HashMap Location Node} {l : Location} {name : List Char} {now : ℕ}

theorem insert_dir (h : Rooted nodes) (hl : DirAt nodes l) :
    Rooted (nodes.insert l (.dir now)) := by
  have hdir : ∀ x, DirAt nodes x → DirAt (nodes.insert l (.dir now)) x := by
    rintro x ⟨m, hx⟩
    by_cases hxl : x = l
    · exact ⟨now, by simp [hxl]⟩
    · exact ⟨m, by simp [hxl, hx]⟩
  refine ⟨hdir [] h.root, fun x n hx => hdir x (h.parent x n ?_)⟩
  obtain ⟨m, hm⟩ := hl
  rw [HashMap.get?_insert] at hx
  split at hx
  · next he => simp [he, hm]
  · exact hx

theorem insert_new {node : Node} (h : Rooted nodes) (hl : DirAt nodes l)
    (hnew : nodes.get? (l ++ [name]) = none) : Rooted (nodes.insert (l ++ [name]) node) := by
  have hdir : ∀ x, DirAt nodes x → DirAt (nodes.insert (l ++ [name]) node) x := by
    rintro x ⟨m, hx⟩
    have hne : x ≠ l ++ [name] := by
      rintro rfl
      simp [hnew] at hx
    exact ⟨m, by simp [hne, hx]⟩
  refine ⟨hdir [] h.root, fun x n hx => hdir x ?_⟩
  rw [HashMap.get?_insert] at hx
  split at hx
  · next he =>
    obtain ⟨rfl, -⟩ := List.append_inj' he rfl
    exact hl
  · exact h.parent x n hx

theorem insert_file {m : ℕ} {content new : List UInt8} (h : Rooted nodes)
    (hl : nodes.get? l = some (.file m content)) : Rooted (nodes.insert l (.file now new)) := by
  have hdir : ∀ x, DirAt nodes x → DirAt (nodes.insert l (.file now new)) x := by
    rintro x ⟨m', hx⟩
    have hne : x ≠ l := by
      rintro rfl
      simp [hl] at hx
    exact ⟨m', by simp [hne, hx]⟩
  refine ⟨hdir [] h.root, fun x n hx => hdir x (h.parent x n ?_)⟩
  rw [HashMap.get?_insert] at hx
  split at hx
  · next he => simp [he, hl]
  · exact hx

theorem erase_file {m : ℕ} {content : List UInt8} (h : Rooted nodes)
    (hl : nodes.get? l = some (.file m content)) : Rooted (nodes.erase l) := by
  have hdir : ∀ x, DirAt nodes x → DirAt (nodes.erase l) x := by
    rintro x ⟨m', hx⟩
    have hne : x ≠ l := by
      rintro rfl
      simp [hl] at hx
    exact ⟨m', by simp [hne, hx]⟩
  refine ⟨hdir [] h.root, fun x n hx => hdir x (h.parent x n ?_)⟩
  rw [HashMap.get?_erase] at hx
  split at hx
  · exact absurd rfl hx
  · exact hx

end Rooted

structure FileSystem where
  nodes : HashMap Location Node
  rooted : Rooted nodes

namespace FileSystem

/-- The root directory alone. -/
def empty : FileSystem where
  nodes := HashMap.empty.insert [] (.dir 0)
  rooted :=
    { root := ⟨0, by simp⟩
      parent := fun l name h => by
        rw [HashMap.get?_insert, if_neg (by simp)] at h
        exact absurd rfl h }

def node? (fs : FileSystem) (l : Location) : Option Node := fs.nodes.get? l

def isDir (fs : FileSystem) (l : Location) : Bool :=
  match fs.node? l with
  | some (.dir _) => true
  | _ => false

/-- Time of the last change and content of a file. -/
def file? (fs : FileSystem) (l : Location) : Option (ℕ × List UInt8) :=
  match fs.node? l with
  | some (.file modified content) => some (modified, content)
  | _ => none

variable {fs fs' fs'' : FileSystem} {l cur : Location} {name : List Char} {now : ℕ}
  {cs : List Component}

theorem isDir_iff : fs.isDir l = true ↔ DirAt fs.nodes l := by
  simp only [isDir, DirAt, node?]
  cases fs.nodes.get? l with
  | none => simp
  | some node => cases node <;> simp

theorem file?_eq_some_iff {m : ℕ} {content : List UInt8} :
    fs.file? l = some (m, content) ↔ fs.node? l = some (.file m content) := by
  simp only [file?]
  cases fs.node? l with
  | none => simp
  | some node => cases node <;> simp

theorem node?_ne_none_iff :
    fs.node? l ≠ none ↔ fs.isDir l = true ∨ (fs.file? l).isSome = true := by
  simp only [isDir, file?]
  cases fs.node? l with
  | none => simp
  | some node => cases node <;> simp

/-- What a file lies in is a directory. -/
theorem isDir_of_file (h : (fs.file? (l ++ [name])).isSome = true) : fs.isDir l = true :=
  isDir_iff.mpr (fs.rooted.parent l name (node?_ne_none_iff.mpr (.inr h)))

theorem isDir_of_isDir (h : fs.isDir (l ++ [name]) = true) : fs.isDir l = true :=
  isDir_iff.mpr (fs.rooted.parent l name (node?_ne_none_iff.mpr (.inl h)))

/-! ### Changes -/

/-- A directory notes the time of a change of its listing. -/
def touch (fs : FileSystem) (now : ℕ) (l : Location) : FileSystem :=
  if h : fs.isDir l = true then
    ⟨fs.nodes.insert l (.dir now), fs.rooted.insert_dir (isDir_iff.mp h)⟩
  else fs

/-- A new node in a directory. -/
def create (fs : FileSystem) (now : ℕ) (l : Location) (name : List Char) (node : Node) :
    Option FileSystem :=
  if h : fs.isDir l = true ∧ fs.node? (l ++ [name]) = none then
    some (touch ⟨fs.nodes.insert (l ++ [name]) node,
      fs.rooted.insert_new (isDir_iff.mp h.1) h.2⟩ now l)
  else none

/-- Write a file: over the one that is there, or a new one. -/
def write (fs : FileSystem) (now : ℕ) (l : Location) (content : List UInt8) : Option FileSystem :=
  match h : fs.node? l with
  | some (.file _ _) =>
    some ⟨fs.nodes.insert l (.file now content), fs.rooted.insert_file h⟩
  | some (.dir _) => none
  | none =>
    match l.getLast? with
    | none => none
    | some name => fs.create now l.dropLast name (.file now content)

def remove (fs : FileSystem) (now : ℕ) (l : Location) : Option FileSystem :=
  match h : fs.node? l with
  | some (.file _ _) => some (touch ⟨fs.nodes.erase l, fs.rooted.erase_file h⟩ now l.dropLast)
  | _ => none

@[simp] theorem isDir_touch (fs : FileSystem) (now : ℕ) (l x : Location) :
    (fs.touch now l).isDir x = fs.isDir x := by
  simp only [touch]
  split
  · next h =>
    simp only [isDir, node?, HashMap.get?_insert]
    by_cases hx : x = l
    · subst hx
      simpa [isDir, node?] using h.symm
    · rw [if_neg hx]
  · rfl

@[simp] theorem file?_touch (fs : FileSystem) (now : ℕ) (l x : Location) :
    (fs.touch now l).file? x = fs.file? x := by
  simp only [touch]
  split
  · next h =>
    obtain ⟨m, hm⟩ := isDir_iff.mp h
    simp only [file?, node?, HashMap.get?_insert]
    by_cases hx : x = l
    · rw [if_pos hx, hx, hm]
    · rw [if_neg hx]
  · rfl

theorem create_dir (h : fs.create now l name (.dir now) = some fs') :
    (∀ x, fs'.file? x = fs.file? x) ∧
      ∀ x, fs'.isDir x = (fs.isDir x || decide (x = l ++ [name])) := by
  simp only [create] at h
  split at h
  · next hguard =>
    obtain rfl := Option.some.inj h
    have hnone : fs.nodes.get? (l ++ [name]) = none := hguard.2
    refine ⟨fun x => ?_, fun x => ?_⟩
    · rw [file?_touch]
      simp only [file?, node?, HashMap.get?_insert]
      by_cases hx : x = l ++ [name]
      · rw [if_pos hx, hx, hnone]
      · rw [if_neg hx]
    · rw [isDir_touch]
      simp only [isDir, node?, HashMap.get?_insert]
      by_cases hx : x = l ++ [name]
      · simp [hx]
      · simp [hx]
  · cases h

theorem write_spec {content : List UInt8} (h : fs.write now l content = some fs') :
    (∀ x, fs'.file? x = if x = l then some (now, content) else fs.file? x) ∧
      ∀ x, fs'.isDir x = fs.isDir x := by
  simp only [write] at h
  split at h
  · next m old hnode =>
    obtain rfl := Option.some.inj h
    refine ⟨fun x => ?_, fun x => ?_⟩
    · simp only [file?, node?, HashMap.get?_insert]
      by_cases hx : x = l
      · simp [hx]
      · simp [hx]
    · simp only [isDir, node?, HashMap.get?_insert]
      by_cases hx : x = l
      · rw [if_pos hx, hx]
        simp only [node?] at hnode
        rw [hnode]
      · rw [if_neg hx]
  · cases h
  · next hnode =>
    split at h
    · cases h
    · next name hlast =>
      have hl : l.dropLast ++ [name] = l := by
        obtain ⟨front, rfl⟩ := List.getLast?_eq_some_iff.mp hlast
        rw [List.dropLast_concat]
      simp only [create] at h
      split at h
      · obtain rfl := Option.some.inj h
        refine ⟨fun x => ?_, fun x => ?_⟩
        · rw [file?_touch]
          simp only [file?, node?, HashMap.get?_insert, hl]
          by_cases hx : x = l
          · simp [hx]
          · simp [hx]
        · rw [isDir_touch]
          simp only [isDir, node?, HashMap.get?_insert, hl]
          by_cases hx : x = l
          · rw [if_pos hx, hx]
            simp only [node?] at hnode
            rw [hnode]
          · rw [if_neg hx]
      · cases h

theorem remove_spec (h : fs.remove now l = some fs') :
    (∀ x, fs'.file? x = if x = l then none else fs.file? x) ∧ ∀ x, fs'.isDir x = fs.isDir x := by
  simp only [remove] at h
  split at h
  · next m content hnode =>
    obtain rfl := Option.some.inj h
    simp only [node?] at hnode
    refine ⟨fun x => ?_, fun x => ?_⟩
    · rw [file?_touch]
      simp only [file?, node?, HashMap.get?_erase]
      by_cases hx : x = l
      · simp [hx]
      · simp [hx]
    · rw [isDir_touch]
      simp only [isDir, node?, HashMap.get?_erase]
      by_cases hx : x = l
      · rw [if_pos hx, hx, hnode]
      · rw [if_neg hx]
  · cases h

theorem remove_isSome (h : (fs.file? l).isSome = true) : ∃ fs', fs.remove now l = some fs' := by
  obtain ⟨⟨m, content⟩, hfile⟩ := Option.isSome_iff_exists.mp h
  have hnode := file?_eq_some_iff.mp hfile
  simp only [remove]
  split
  · exact ⟨_, rfl⟩
  · next hne => exact absurd hnode (hne m content)

/-! ### Paths -/

/-- The location the pieces of a path lead to. All but the last must be directories that exist. -/
def walk (fs : FileSystem) : Location → List Component → Option Location
  | cur, [] => some cur
  | cur, .parent :: cs => fs.walk cur.dropLast cs
  | cur, [.normal name] => some (cur ++ [name])
  | cur, .normal name :: c :: cs =>
    if fs.isDir (cur ++ [name]) then fs.walk (cur ++ [name]) (c :: cs) else none

/-- The location a path leads to, seen from a working directory. -/
def locate (fs : FileSystem) (cwd : Location) (path : List Char) : Option Location :=
  fs.walk (if isAbsolute path then [] else cwd) (components path)

/-- The node a path leads to. -/
def lookup (fs : FileSystem) (cwd : Location) (path : List Char) : Option (Location × Node) :=
  (fs.locate cwd path).bind fun l => (fs.node? l).map fun node => (l, node)

/-- Make the directories on the way that do not exist. -/
def createDirAll (fs : FileSystem) (now : ℕ) : Location → List Component → Option FileSystem
  | _, [] => some fs
  | cur, .parent :: cs => fs.createDirAll now cur.dropLast cs
  | cur, .normal name :: cs =>
    if fs.isDir (cur ++ [name]) then fs.createDirAll now (cur ++ [name]) cs
    else
      match fs.create now cur name (.dir now) with
      | none => none
      | some fs' => fs'.createDirAll now (cur ++ [name]) cs

/-- What lies in a directory. -/
def children (order : IterOrder Location Node) (fs : FileSystem) (d : Location) : List Location :=
  ((fs.nodes.intoIter order).map Prod.fst).filter fun l => l ≠ [] ∧ l.dropLast = d

theorem walk_eq_resolve (h : fs.walk cur cs = some l) : l = resolve cur cs := by
  induction cs generalizing cur with
  | nil => exact (Option.some.inj h).symm
  | cons c cs ih =>
    cases c with
    | parent => exact ih h
    | normal name =>
      cases cs with
      | nil => exact (Option.some.inj h).symm
      | cons c' cs =>
        rw [walk] at h
        split at h
        · exact ih h
        · cases h

/-- While directories are only added, a path leads where it led. -/
theorem walk_mono (hd : ∀ x, fs.isDir x = true → fs'.isDir x = true)
    (h : fs.walk cur cs = some l) : fs'.walk cur cs = some l := by
  induction cs generalizing cur with
  | nil => exact h
  | cons c cs ih =>
    cases c with
    | parent => exact ih h
    | normal name =>
      cases cs with
      | nil => exact h
      | cons c' cs =>
        rw [walk] at h ⊢
        split at h
        · next hdir =>
          rw [if_pos (hd _ hdir)]
          exact ih h
        · cases h

theorem walk_congr (hd : ∀ x, fs'.isDir x = fs.isDir x) : fs'.walk cur cs = fs.walk cur cs := by
  refine Option.ext fun l => ⟨fun h => walk_mono (fun x hx => ?_) h,
    fun h => walk_mono (fun x hx => ?_) h⟩
  · rw [← hd]
    exact hx
  · rw [hd]
    exact hx

theorem createDirAll_spec (h : fs.createDirAll now cur cs = some fs') :
    (∀ x, fs'.file? x = fs.file? x) ∧ ∀ x, fs.isDir x = true → fs'.isDir x = true := by
  induction cs generalizing fs cur with
  | nil =>
    obtain rfl := Option.some.inj h
    exact ⟨fun _ => rfl, fun _ hx => hx⟩
  | cons c cs ih =>
    cases c with
    | parent => exact ih h
    | normal name =>
      rw [createDirAll] at h
      split at h
      · exact ih h
      · split at h
        · cases h
        · next fs₁ hcreate =>
          obtain ⟨hfile, hdir⟩ := create_dir hcreate
          obtain ⟨hfile', hdir'⟩ := ih h
          refine ⟨fun x => (hfile' x).trans (hfile x), fun x hx => hdir' x ?_⟩
          rw [hdir, hx, Bool.true_or]

theorem mem_children {order : IterOrder Location Node} {d : Location} :
    l ∈ fs.children order d ↔ ∃ name, l = d ++ [name] ∧ fs.node? l ≠ none := by
  have hmem : l ∈ (fs.nodes.intoIter order).map Prod.fst ↔ fs.node? l ≠ none := by
    rw [Option.ne_none_iff_exists', List.mem_map]
    constructor
    · rintro ⟨⟨x, node⟩, hentry, rfl⟩
      exact ⟨node, HashMap.get?_eq_some_iff.mpr ((order.perm _).mem_iff.mp hentry)⟩
    · rintro ⟨node, hnode⟩
      exact ⟨(l, node), (order.perm _).mem_iff.mpr (HashMap.get?_eq_some_iff.mp hnode), rfl⟩
  rw [children, List.mem_filter, hmem]
  constructor
  · rintro ⟨hnode, hparent⟩
    simp only [decide_eq_true_eq] at hparent
    obtain ⟨hne, rfl⟩ := hparent
    exact ⟨l.getLast hne, (List.dropLast_append_getLast hne).symm, hnode⟩
  · rintro ⟨name, rfl, hnode⟩
    exact ⟨hnode, by simp⟩

/-! ### Sweeps -/

/-- Of the files at `S` those that are not `fresh` are gone. Nothing else changed. -/
structure Swept (fresh : ℕ × List UInt8 → Bool) (S : Location → Prop) (fs fs' : FileSystem) :
    Prop where
  isDir : ∀ x, fs'.isDir x = fs.isDir x
  kept : ∀ x, ¬S x → fs'.file? x = fs.file? x
  swept : ∀ x, S x → fs'.file? x = (fs.file? x).filter fresh

namespace Swept

variable {fresh : ℕ × List UInt8 → Bool} {S T : Location → Prop}

/-- Nothing is swept where there is no file. -/
theorem refl (h : ∀ x, S x → fs.file? x = none) : Swept fresh S fs fs where
  isDir _ := rfl
  kept _ _ := rfl
  swept x hx := by rw [h x hx, Option.filter_none]

theorem trans (h : Swept fresh S fs fs') (h' : Swept fresh T fs' fs'') :
    Swept fresh (fun x => S x ∨ T x) fs fs'' where
  isDir x := (h'.isDir x).trans (h.isDir x)
  kept x hx := by
    rw [not_or] at hx
    rw [h'.kept x hx.2, h.kept x hx.1]
  swept x hx := by
    by_cases hT : T x
    · rw [h'.swept x hT]
      by_cases hS : S x
      · -- swept twice
        rw [h.swept x hS]
        cases fs.file? x with
        | none => rfl
        | some file => cases hf : fresh file <;> simp [Option.filter, hf]
      · rw [h.kept x hS]
    · rw [h'.kept x hT, h.swept x (hx.resolve_right hT)]

/-- The two sets may differ where there is no file. -/
theorem congr (h : Swept fresh S fs fs')
    (hST : ∀ x, (fs.file? x).isSome = true → (S x ↔ T x)) : Swept fresh T fs fs' where
  isDir := h.isDir
  kept x hx := by
    by_cases hS : S x
    · have hnone : fs.file? x = none := by
        by_contra hne
        exact hx ((hST x (Option.isSome_iff_ne_none.mpr hne)).mp hS)
      rw [h.swept x hS, hnone, Option.filter_none]
    · exact h.kept x hS
  swept x hx := by
    by_cases hS : S x
    · exact h.swept x hS
    · have hnone : fs.file? x = none := by
        by_contra hne
        exact hS ((hST x (Option.isSome_iff_ne_none.mpr hne)).mpr hx)
      rw [h.kept x hS, hnone, Option.filter_none]

/-- A sweep over a list of places, each swept in turn, with a second component along for the
ride. -/
theorem foldl {β : Type*} {f : FileSystem × β → Location → FileSystem × β}
    {Q : Location → Location → Prop} {ls : List Location}
    (hstep : ∀ l ∈ ls, ∀ st, (∀ x, st.1.isDir x = fs.isDir x) → Swept fresh (Q l) st.1 (f st l).1)
    (b : β) : Swept fresh (fun x => ∃ l ∈ ls, Q l x) fs (ls.foldl f (fs, b)).1 := by
  induction ls using List.reverseRecOn with
  | nil => exact refl fun x ⟨l, hl, _⟩ => absurd hl (by simp)
  | append_singleton front l ih =>
    have hfront := ih fun x hx => hstep x (List.mem_append_left [l] hx)
    rw [List.foldl_append]
    refine (hfront.trans (hstep l (by simp) _ hfront.isDir)).congr fun x _ => ?_
    simp only [List.mem_append, List.mem_singleton, or_and_right, exists_or, exists_eq_left]

end Swept

end FileSystem

end Wafer.Lib
