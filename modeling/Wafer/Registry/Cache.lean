import Wafer.Lib.FileSystem
import Wafer.Registry.Reference
import Wafer.Types.Measurement

/-!
# The package cache

Components are cached as files; an entry expires by the time of the last
change of its file. A lookup goes by path, `clear_expired` lists the cache
directory, the directories in it and the directories in these.

The order in which a listing comes and the length the system gives for a
directory are parameters. The clock stands still during one call.

## Main results

- `PackageCache.swept_clearExpired` — the sweep removes the expired files three levels below the
  cache directory
- `PackageCache.stored_puts` — what was put is there
- `PackageCache.clearExpired_agrees_iff` — for which entries the sweep agrees with the lookup
-/

namespace Wafer

open Lib

structure PackageCache where
  cacheDir : List Char
  ttl : ℕ

structure CacheKey where
  namespaceName : List Char
  name : List Char
  version : List Char
  deriving DecidableEq, Repr

structure CacheEntry where
  path : List Char
  age : ℕ
  size : ℕ
  deriving DecidableEq, Repr

inductive CacheError
  | createDir
  | writeFile
  | removeFile
  | readDir
  deriving DecidableEq, Repr

/-- How a lookup ends: nothing usable, an entry reported as expired, or an entry. -/
inductive CacheLookup
  | absent
  | expired
  | found (entry : CacheEntry)
  deriving DecidableEq, Repr

/-- The cache key of a reference. -/
def OciReference.key (r : OciReference) : CacheKey := ⟨r.registry, r.repository, r.tag⟩

namespace PackageCache

variable (cache : PackageCache) (cwd : Location) (dirLen : ℕ)

def path (key : CacheKey) : List Char :=
  cachePath cache.cacheDir key.namespaceName key.name key.version

/-- The age of a node is over the lifetime; the age of a node from the future is not known. -/
def isExpired (now modified : ℕ) : Bool := modified ≤ now ∧ cache.ttl < now - modified

def lookup (now : ℕ) (fs : FileSystem) (key : CacheKey) : CacheLookup :=
  match fs.lookup cwd (cache.path key) with
  | none => .absent
  | some (_, node) =>
    if now < node.modified then .absent
    else if cache.isExpired now node.modified then .expired
    else
      .found
        { path := cache.path key
          age := now - node.modified
          size :=
            match node with
            | .file _ content => content.length
            | .dir _ => dirLen }

def get (now : ℕ) (fs : FileSystem) (key : CacheKey) : Option CacheEntry :=
  match cache.lookup cwd dirLen now fs key with
  | .found entry => some entry
  | .absent | .expired => none

def put (now : ℕ) (fs : FileSystem) (key : CacheKey) (content : List UInt8) :
    Except CacheError FileSystem :=
  let start := if isAbsolute (cache.path key) then [] else cwd
  match fs.createDirAll now start (components (cache.path key)).dropLast with
  | none => .error .createDir
  | some fs =>
    match (fs.locate cwd (cache.path key)).bind fun l => fs.write now l content with
    | none => .error .writeFile
    | some fs => .ok fs

variable (order : IterOrder Location Node)

/-- Remove the file if it is expired, counting it. -/
def sweepFile (now : ℕ) (st : FileSystem × ℕ) (l : Location) : FileSystem × ℕ :=
  match st.1.node? l with
  | none => st
  | some node =>
    if cache.isExpired now node.modified then
      match st.1.remove now l with
      | none => st
      | some fs => (fs, satAdd st.2 1)
    else st

def sweepName (now : ℕ) (st : FileSystem × ℕ) (l : Location) : FileSystem × ℕ :=
  if st.1.isDir l then (st.1.children order l).foldl (cache.sweepFile now) st else st

def sweepNamespace (now : ℕ) (st : FileSystem × ℕ) (l : Location) : FileSystem × ℕ :=
  if st.1.isDir l then (st.1.children order l).foldl (cache.sweepName order now) st else st

/-- The file system afterwards, and the number of files removed. -/
def clearExpired (now : ℕ) (fs : FileSystem) : FileSystem × Except CacheError ℕ :=
  match fs.lookup cwd cache.cacheDir with
  | none => (fs, .ok 0)
  | some (_, .file _ _) => (fs, .error .readDir)
  | some (l, .dir _) =>
    let swept := (fs.children order l).foldl (cache.sweepNamespace order now) (fs, 0)
    (swept.1, .ok swept.2)

variable {cache cwd dirLen order} {now : ℕ} {fs fs' : FileSystem} {key : CacheKey}

/-- A file the sweep keeps. -/
def fresh (cache : PackageCache) (now : ℕ) (file : ℕ × List UInt8) : Bool :=
  !cache.isExpired now file.1

theorem swept_sweepFile (st : FileSystem × ℕ) (l : Location) :
    FileSystem.Swept (cache.fresh now) (· = l) st.1 (cache.sweepFile now st l).1 := by
  have hnothing : st.1.file? l = none →
      FileSystem.Swept (cache.fresh now) (· = l) st.1 st.1 := by
    intro hnone
    exact .refl fun x hx => by rw [hx, hnone]
  have hfresh : ∀ m content, st.1.file? l = some (m, content) → cache.isExpired now m = false →
      FileSystem.Swept (cache.fresh now) (· = l) st.1 st.1 := by
    intro m content hfile hage
    refine ⟨fun _ => rfl, fun _ _ => rfl, fun x hx => ?_⟩
    rw [hx, hfile]
    simp [Option.filter, fresh, hage]
  simp only [sweepFile]
  split
  · next hnode =>
    refine hnothing ?_
    simp [FileSystem.file?, hnode]
  · next node hnode =>
    cases node with
    | dir m =>
      have hnone : st.1.file? l = none := by simp [FileSystem.file?, hnode]
      have hremove : st.1.remove now l = none := by
        cases hr : st.1.remove now l with
        | none => rfl
        | some fs =>
          -- only files are removed
          simp only [FileSystem.remove] at hr
          split at hr
          · next hfile => rw [hnode] at hfile; cases hfile
          · cases hr
      rw [hremove]
      simpa using hnothing hnone
    | file m content =>
      have hfile := FileSystem.file?_eq_some_iff.mpr hnode
      split
      · next hexpired =>
        obtain ⟨fs, hremove⟩ :=
          @FileSystem.remove_isSome st.1 l now (Option.isSome_iff_exists.mpr ⟨_, hfile⟩)
        obtain ⟨hfiles, hdirs⟩ := FileSystem.remove_spec hremove
        rw [hremove]
        refine ⟨hdirs, fun x hx => ?_, fun x hx => ?_⟩
        · rw [hfiles, if_neg hx]
        · have hold : cache.isExpired now m = true := hexpired
          rw [hfiles, if_pos hx, hx, hfile]
          simp [Option.filter, fresh, hold]
      · next hexpired => exact hfresh m content hfile (Bool.not_eq_true _ ▸ hexpired)

/-- Where a directory is listed, what lies in it can stand for its listing. -/
theorem mem_children_file {l x : Location} (hx : (fs.file? x).isSome = true) :
    x ∈ fs.children order l ↔ ∃ c, x = l ++ [c] := by
  rw [FileSystem.mem_children]
  constructor
  · rintro ⟨c, hc, -⟩
    exact ⟨c, hc⟩
  · rintro ⟨c, hc⟩
    exact ⟨c, hc, FileSystem.node?_ne_none_iff.mpr (.inr hx)⟩

theorem mem_children_dir {l d : Location} (hd : fs.isDir d = true) :
    d ∈ fs.children order l ↔ ∃ c, d = l ++ [c] := by
  rw [FileSystem.mem_children]
  constructor
  · rintro ⟨c, hc, -⟩
    exact ⟨c, hc⟩
  · rintro ⟨c, hc⟩
    exact ⟨c, hc, FileSystem.node?_ne_none_iff.mpr (.inl hd)⟩

theorem swept_sweepName (st : FileSystem × ℕ) (l : Location) :
    FileSystem.Swept (cache.fresh now) (fun x => ∃ c, x = l ++ [c]) st.1
      (cache.sweepName order now st l).1 := by
  simp only [sweepName]
  split
  · refine (FileSystem.Swept.foldl (Q := fun d x => x = d)
      (fun d _ st _ => swept_sweepFile st d) st.2).congr fun x hx => ?_
    rw [← @mem_children_file order _ l x hx]
    simp
  · next hdir =>
    refine .refl fun x ⟨c, hc⟩ => ?_
    subst hc
    by_contra hne
    exact hdir (FileSystem.isDir_of_file (Option.isSome_iff_ne_none.mpr hne))

theorem swept_sweepNamespace (st : FileSystem × ℕ) (l : Location) :
    FileSystem.Swept (cache.fresh now) (fun x => ∃ b c, x = l ++ [b, c]) st.1
      (cache.sweepNamespace order now st l).1 := by
  simp only [sweepNamespace]
  split
  · refine (FileSystem.Swept.foldl (Q := fun d x => ∃ c, x = d ++ [c])
      (fun d _ st _ => swept_sweepName st d) st.2).congr fun x hx => ?_
    constructor
    · rintro ⟨d, hd, c, rfl⟩
      obtain ⟨b, rfl, -⟩ := FileSystem.mem_children.mp hd
      exact ⟨b, c, by simp⟩
    · rintro ⟨b, c, rfl⟩
      have hx' : ((st.1).file? ((l ++ [b]) ++ [c])).isSome = true := by simpa using hx
      exact ⟨l ++ [b], (mem_children_dir (FileSystem.isDir_of_file hx')).mpr ⟨b, rfl⟩, c, by simp⟩
  · next hdir =>
    refine .refl fun x ⟨b, c, hc⟩ => ?_
    subst hc
    by_contra hne
    have hx' : ((st.1).file? ((l ++ [b]) ++ [c])).isSome = true := by
      simpa using Option.isSome_iff_ne_none.mpr hne
    exact hdir (FileSystem.isDir_of_isDir (FileSystem.isDir_of_file hx'))

/-- The location lies three levels below the cache directory. -/
def ThreeLevelsBelow (cache : PackageCache) (cwd : Location) (fs : FileSystem) (l : Location) :
    Prop :=
  ∃ d, fs.locate cwd cache.cacheDir = some d ∧ ∃ a b c, l = d ++ [a, b, c]

/-- The sweep removes the expired files three levels below the cache directory, no other file and
no directory. -/
theorem swept_clearExpired :
    FileSystem.Swept (cache.fresh now) (cache.ThreeLevelsBelow cwd fs) fs
      (cache.clearExpired cwd order now fs).1 := by
  -- a file three levels below shows that the cache directory is one
  have hdir : ∀ x, (fs.file? x).isSome = true → cache.ThreeLevelsBelow cwd fs x →
      ∃ d m, fs.lookup cwd cache.cacheDir = some (d, .dir m) ∧ ∃ a b c, x = d ++ [a, b, c] := by
    rintro x hx ⟨d, hd, a, b, c, rfl⟩
    have hx' : (fs.file? (((d ++ [a]) ++ [b]) ++ [c])).isSome = true := by simpa using hx
    obtain ⟨m, hm⟩ := FileSystem.isDir_iff.mp (FileSystem.isDir_of_isDir
      (FileSystem.isDir_of_isDir (FileSystem.isDir_of_file hx')))
    refine ⟨d, m, ?_, a, b, c, rfl⟩
    simp [FileSystem.lookup, hd, FileSystem.node?, hm]
  have hnone : (∀ d m, fs.lookup cwd cache.cacheDir ≠ some (d, .dir m)) →
      FileSystem.Swept (cache.fresh now) (cache.ThreeLevelsBelow cwd fs) fs fs := by
    intro hne
    refine .refl fun x hx => ?_
    by_contra hfile
    obtain ⟨d, m, hlookup, -⟩ := hdir x (Option.isSome_iff_ne_none.mpr hfile) hx
    exact hne d m hlookup
  simp only [clearExpired]
  split
  · next hlookup => exact hnone fun d m hd => by rw [hlookup] at hd; cases hd
  · next hlookup => exact hnone fun d m hd => by rw [hlookup] at hd; cases hd
  · next d m hlookup =>
    refine (FileSystem.Swept.foldl (Q := fun d x => ∃ b c, x = d ++ [b, c])
      (fun d _ st _ => swept_sweepNamespace st d) 0).congr fun x hx => ?_
    have hlocate : fs.locate cwd cache.cacheDir = some d := by
      simp only [FileSystem.lookup, Option.bind_eq_some_iff, Option.map_eq_some_iff] at hlookup
      obtain ⟨l, hl, node, -, heq⟩ := hlookup
      rw [hl, (Prod.mk.inj heq).1]
    constructor
    · rintro ⟨e, he, b, c, rfl⟩
      obtain ⟨a, rfl, -⟩ := FileSystem.mem_children.mp he
      exact ⟨d, hlocate, a, b, c, by simp⟩
    · rintro ⟨d', hd', a, b, c, rfl⟩
      obtain rfl : d = d' := Option.some.inj (hlocate.symm.trans hd')
      have hx' : (fs.file? (((d ++ [a]) ++ [b]) ++ [c])).isSome = true := by simpa using hx
      have ha := FileSystem.isDir_of_isDir (FileSystem.isDir_of_file hx')
      exact ⟨d ++ [a], (mem_children_dir ha).mpr ⟨a, rfl⟩, b, c, by simp⟩

/-! ### Stored entries -/

/-- The entry has a file. -/
def Stored (cache : PackageCache) (cwd : Location) (fs : FileSystem) (key : CacheKey) : Prop :=
  ∃ l m content, fs.locate cwd (cache.path key) = some l ∧ fs.file? l = some (m, content)

theorem put_spec {content : List UInt8} (h : cache.put cwd now fs key content = .ok fs') :
    cache.Stored cwd fs' key ∧
      ∀ key', cache.Stored cwd fs key' → cache.Stored cwd fs' key' := by
  simp only [put] at h
  split at h
  · cases h
  · next fs₁ hdirs =>
    split at h
    · cases h
    · next fs₂ hwrite =>
      obtain rfl := Except.ok.inj h
      obtain ⟨l, hlocate, hwritten⟩ := Option.bind_eq_some_iff.mp hwrite
      obtain ⟨hfile₁, hdir₁⟩ := FileSystem.createDirAll_spec hdirs
      obtain ⟨hfile₂, hdir₂⟩ := FileSystem.write_spec hwritten
      have hwalk : ∀ path, fs₂.locate cwd path = fs₁.locate cwd path :=
        fun _ => FileSystem.walk_congr hdir₂
      refine ⟨⟨l, now, content, (hwalk _).trans hlocate, by rw [hfile₂, if_pos rfl]⟩, ?_⟩
      rintro key' ⟨l', m, old, hlocate', hold⟩
      have hthere : fs₂.locate cwd (cache.path key') = some l' :=
        (hwalk _).trans (FileSystem.walk_mono hdir₁ hlocate')
      by_cases hl : l' = l
      · exact ⟨l', now, content, hthere, by rw [hfile₂, if_pos hl]⟩
      · exact ⟨l', m, old, hthere, by rw [hfile₂, if_neg hl, hfile₁, hold]⟩

/-- A package to be stored, and when. -/
structure Put where
  key : CacheKey
  content : List UInt8
  now : ℕ

def putAll (cache : PackageCache) (cwd : Location) (fs : FileSystem) :
    List Put → Except CacheError FileSystem
  | [] => .ok fs
  | p :: puts =>
    match cache.put cwd p.now fs p.key p.content with
    | .ok fs => cache.putAll cwd fs puts
    | .error e => .error e

/-- What was put is there, and what was there stays. -/
theorem stored_puts {puts : List Put} (h : cache.putAll cwd fs puts = .ok fs') :
    (∀ p ∈ puts, cache.Stored cwd fs' p.key) ∧
      ∀ key, cache.Stored cwd fs key → cache.Stored cwd fs' key := by
  induction puts generalizing fs with
  | nil =>
    obtain rfl := Except.ok.inj h
    exact ⟨fun p hp => absurd hp (by simp), fun _ hkey => hkey⟩
  | cons p puts ih =>
    rw [putAll] at h
    split at h
    · next fs₁ hput =>
      obtain ⟨hkey, hkept⟩ := put_spec hput
      obtain ⟨hrest, hkept'⟩ := ih h
      refine ⟨fun q hq => ?_, fun key hstored => hkept' key (hkept key hstored)⟩
      rcases List.mem_cons.mp hq with rfl | hq
      · exact hkept' q.key hkey
      · exact hrest q hq
    · cases h

/-! ### The sweep and the lookup -/

/-- The sweep turning `fs` into `fs'` agrees with the lookup: an entry reported as expired is gone,
any other is retrievable. -/
def Agrees (cache : PackageCache) (cwd : Location) (dirLen now : ℕ) (fs fs' : FileSystem)
    (key : CacheKey) : Prop :=
  (cache.lookup cwd dirLen now fs key = .expired → fs'.lookup cwd (cache.path key) = none) ∧
    (cache.lookup cwd dirLen now fs key ≠ .expired → (cache.get cwd dirLen now fs' key).isSome)

/-- The file of the entry was not changed after `now` and, if its age is over the lifetime, lies
three levels below the cache directory. -/
def Reached (cache : PackageCache) (cwd : Location) (now : ℕ) (fs : FileSystem) (key : CacheKey) :
    Prop :=
  ∃ l m content, fs.locate cwd (cache.path key) = some l ∧ fs.file? l = some (m, content) ∧
    m ≤ now ∧ (cache.ttl < now - m → cache.ThreeLevelsBelow cwd fs l)

theorem lookup_of_file {l : Location} {m : ℕ} {content : List UInt8}
    (hlocate : fs.locate cwd (cache.path key) = some l) (hfile : fs.file? l = some (m, content)) :
    cache.lookup cwd dirLen now fs key =
      if now < m then .absent
      else if cache.isExpired now m then .expired
      else .found ⟨cache.path key, now - m, content.length⟩ := by
  have hnode := FileSystem.file?_eq_some_iff.mp hfile
  simp only [lookup, FileSystem.lookup, hlocate, Option.bind_some, hnode, Option.map_some]
  rfl

theorem agrees_iff (hstored : cache.Stored cwd fs key) :
    cache.Agrees cwd dirLen now fs (cache.clearExpired cwd order now fs).1 key ↔
      cache.Reached cwd now fs key := by
  obtain ⟨l, m, content, hlocate, hfile⟩ := hstored
  have hswept := @swept_clearExpired cache cwd order now fs
  generalize (cache.clearExpired cwd order now fs).1 = fs' at hswept ⊢
  have hlocate' : fs'.locate cwd (cache.path key) = some l :=
    (FileSystem.walk_congr hswept.isDir).trans hlocate
  have hreached : cache.Reached cwd now fs key ↔
      m ≤ now ∧ (cache.ttl < now - m → cache.ThreeLevelsBelow cwd fs l) := by
    constructor
    · rintro ⟨l', m', content', hl', hfile', hreach⟩
      obtain rfl : l = l' := Option.some.inj (hlocate.symm.trans hl')
      obtain ⟨rfl, -⟩ := Prod.mk.inj (Option.some.inj (hfile.symm.trans hfile'))
      exact hreach
    · exact fun hreach => ⟨l, m, content, hlocate, hfile, hreach⟩
  have hlookup := @lookup_of_file cache cwd dirLen now fs key l m content hlocate hfile
  rw [hreached, Agrees, hlookup]
  by_cases hexpired : cache.isExpired now m = true
  · have hage : m ≤ now ∧ cache.ttl < now - m := by simpa [isExpired] using hexpired
    rw [if_neg (by omega), if_pos hexpired]
    simp only [forall_const, ne_eq, not_true_eq_false, false_implies, and_true, hage.1, true_and,
      hage.2]
    -- the file is gone exactly if the sweep came by
    by_cases hthree : cache.ThreeLevelsBelow cwd fs l
    · have hgone : fs'.file? l = none := by
        rw [hswept.swept l hthree, hfile]
        simp [Option.filter, fresh, hexpired]
      have hdir : fs'.isDir l = false := by
        rw [hswept.isDir]
        simp [FileSystem.isDir, FileSystem.file?_eq_some_iff.mp hfile]
      have hnode : fs'.node? l = none := by
        by_contra hne
        rcases FileSystem.node?_ne_none_iff.mp hne with hd | hf
        · rw [hdir] at hd; cases hd
        · rw [hgone] at hf; cases hf
      simp [hthree, FileSystem.lookup, hlocate', hnode]
    · have hkept : fs'.file? l = some (m, content) := (hswept.kept l hthree).trans hfile
      simp [hthree, FileSystem.lookup, hlocate', FileSystem.file?_eq_some_iff.mp hkept]
  · have hkept : fs'.file? l = some (m, content) := by
      by_cases hthree : cache.ThreeLevelsBelow cwd fs l
      · rw [hswept.swept l hthree, hfile]
        simp [Option.filter, fresh, hexpired]
      · exact (hswept.kept l hthree).trans hfile
    have hlookup' := @lookup_of_file cache cwd dirLen now fs' key l m content hlocate' hkept
    have hyoung : m ≤ now → ¬cache.ttl < now - m := by
      intro hle hlt
      exact hexpired (by simp [isExpired, hle, hlt])
    rw [get, hlookup', if_neg hexpired]
    by_cases hfuture : now < m
    · simp [hfuture, Nat.not_le.mpr hfuture]
    · have hle : m ≤ now := Nat.le_of_not_lt hfuture
      simp [hfuture, hle, hyoung hle]

/-- After any packages were put, the sweep agrees with the lookup on one of them exactly when its
file is not from the future and, if expired, lies three levels below the cache directory. -/
theorem clearExpired_agrees_iff {fs₀ : FileSystem} {puts : List Put}
    (h : cache.putAll cwd fs₀ puts = .ok fs) (order : IterOrder Location Node) (dirLen now : ℕ) :
    ∀ p ∈ puts,
      cache.Agrees cwd dirLen now fs (cache.clearExpired cwd order now fs).1 p.key ↔
        cache.Reached cwd now fs p.key :=
  fun p hp => agrees_iff ((stored_puts h).1 p hp)

/-- The file of a plain reference lies three levels below the cache directory exactly when the
repository has a single part. -/
theorem threeLevelsBelow_iff_of_plain {s : List Char} {r : OciReference} {d l : Location}
    (h : OciReference.parse s = some r) (hp : r.Plain)
    (hd : fs.locate cwd cache.cacheDir = some d)
    (hl : fs.locate cwd (cache.path r.key) = some l) :
    cache.ThreeLevelsBelow cwd fs l ↔ '/' ∉ r.repository := by
  have hdir : d = Lib.locate cwd cache.cacheDir := FileSystem.walk_eq_resolve hd
  have hnames : l = d ++ (r.registry :: (r.repository.splitOn '/' ++
      [r.tag ++ ".wasm".toList])) := by
    rw [hdir, ← hp.names_eq h, ← OciReference.locate_path_eq h (hp.staysBelow h)]
    exact FileSystem.walk_eq_resolve hl
  have hthree : cache.ThreeLevelsBelow cwd fs l ↔ (r.repository.splitOn '/').length = 1 := by
    constructor
    · rintro ⟨d', hd', a, b, c, he⟩
      obtain rfl : d = d' := Option.some.inj (hd.symm.trans hd')
      rw [hnames] at he
      simpa using congrArg List.length (List.append_cancel_left he)
    · intro hlength
      obtain ⟨piece, hpiece⟩ := List.length_eq_one_iff.mp hlength
      exact ⟨d, hd, r.registry, piece, r.tag ++ ".wasm".toList, by rw [hnames, hpiece]; rfl⟩
  rw [hthree]
  constructor
  · intro hlength hslash
    obtain ⟨front, back, hcut, -⟩ := List.eq_append_cons_of_mem hslash
    have hfront := List.length_pos_of_ne_nil (List.splitOn_ne_nil '/' front)
    have hback := List.length_pos_of_ne_nil (List.splitOn_ne_nil '/' back)
    rw [hcut, List.splitOn_append_cons_self, List.length_append] at hlength
    omega
  · intro hslash
    rw [List.splitOn_eq_singleton hslash, List.length_singleton]

def smallCache : PackageCache := ⟨"/cache".toList, 10⟩

def flat : Put := ⟨⟨"ghcr.io".toList, "filter".toList, "1".toList⟩, [0, 97], 5⟩

def nested : Put := ⟨⟨"ghcr.io".toList, "acme/filter".toList, "1".toList⟩, [0, 98], 5⟩

/-- The file system after both packages were put. -/
def bothPut : Except CacheError FileSystem :=
  smallCache.putAll [] FileSystem.empty [flat, nested]

theorem clearExpired_agrees_flat :
    ∃ fs, bothPut = .ok fs ∧
      smallCache.Agrees [] 4096 20 fs (smallCache.clearExpired [] IterOrder.identity 20 fs).1
        flat.key := by
  obtain ⟨fs, hfs, hlocate, hdir, hfile⟩ : ∃ fs, bothPut = .ok fs ∧
      fs.locate [] (smallCache.path flat.key) =
        some ["cache".toList, "ghcr.io".toList, "filter".toList, "1.wasm".toList] ∧
      fs.locate [] smallCache.cacheDir = some ["cache".toList] ∧
      fs.file? ["cache".toList, "ghcr.io".toList, "filter".toList, "1.wasm".toList] =
        some (5, [0, 97]) :=
    ⟨_, rfl, by decide, by decide, by decide⟩
  refine ⟨fs, hfs, ?_⟩
  exact (clearExpired_agrees_iff hfs IterOrder.identity 4096 20 flat (by simp)).mpr
    ⟨_, 5, [0, 97], hlocate, hfile, by decide, fun _ => ⟨_, hdir, _, _, _, rfl⟩⟩

/-- An expired entry of a repository with two parts is reported as expired and not removed. -/
theorem nested_not_swept :
    ∃ fs, bothPut = .ok fs ∧ smallCache.lookup [] 4096 20 fs nested.key = .expired ∧
      ((smallCache.clearExpired [] IterOrder.identity 20 fs).1.lookup []
        (smallCache.path nested.key)).isSome ∧
      (smallCache.clearExpired [] IterOrder.identity 20 fs).2 = .ok 1 ∧
      ¬smallCache.Agrees [] 4096 20 fs (smallCache.clearExpired [] IterOrder.identity 20 fs).1
        nested.key := by
  obtain ⟨fs, hfs, hexpired, hthere, hcount⟩ : ∃ fs, bothPut = .ok fs ∧
      smallCache.lookup [] 4096 20 fs nested.key = .expired ∧
      ((smallCache.clearExpired [] IterOrder.identity 20 fs).1.lookup []
        (smallCache.path nested.key)).isSome ∧
      (smallCache.clearExpired [] IterOrder.identity 20 fs).2 = .ok 1 :=
    ⟨_, rfl, by decide, by decide, by decide⟩
  refine ⟨fs, hfs, hexpired, hthere, hcount, fun hagrees => ?_⟩
  rw [hagrees.1 hexpired] at hthere
  cases hthere

end PackageCache

end Wafer
