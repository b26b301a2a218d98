import Wafer.Lib.Paths
import Wafer.Lib.Text

/-!
# Package references and their cache paths

An OCI reference is cut at its last colon and at its first slash; the three
parts, not looked at any further, are joined to the cache directory.

## Main results

- `OciReference.confined_iff` — the references whose file lies under every cache directory
- `OciReference.separated_iff` — when two references are confined and have different files
- `OciReference.Plain.separated` — references without dots, empty parts and a slash in the tag
-/

namespace Wafer

open Lib

/-- OCI image reference, such as `ghcr.io/pedroklein/wafer-uppercase:0.0.1`. -/
structure OciReference where
  reference : List Char
  registry : List Char
  repository : List Char
  tag : List Char
  deriving DecidableEq, Repr

/-- Where the component with this namespace, name and version is cached. -/
def cachePath (cacheDir namespaceName name version : List Char) : List Char :=
  join (join (join cacheDir namespaceName) name) (version ++ ".wasm".toList)

namespace OciReference

def parse (s : List Char) : Option OciReference :=
  match rsplitOnce ':' s with
  | none => none
  | some (repoPart, tag) =>
    if tag = [] then none
    else
      match splitOnce '/' repoPart with
      | none => none
      | some (registry, repository) =>
        if registry = [] ∨ repository = [] then none
        else some ⟨s, registry, repository, tag⟩

/-- The cache path of the component, as the registry client asks for it. -/
def path (cacheDir : List Char) (r : OciReference) : List Char :=
  cachePath cacheDir r.registry r.repository r.tag

/-- The pieces of registry, repository and file name, one after the other. -/
def pieces (r : OciReference) : List Component :=
  components r.registry ++ components r.repository ++ components (r.tag ++ ".wasm".toList)

/-- The names on the way from the cache directory to the file. -/
def names (r : OciReference) : Location := resolve [] r.pieces

/-- Repository and tag do not start with a slash, and no `..` of the reference leads above the
directory it starts from. -/
def StaysBelow (r : OciReference) : Prop :=
  isAbsolute r.repository = false ∧ isAbsolute r.tag = false ∧ staysBelow 0 r.pieces = true

instance (r : OciReference) : Decidable r.StaysBelow :=
  inferInstanceAs (Decidable (_ ∧ _ ∧ _))

/-- The file lies under the cache directory, wherever that is. -/
def Confined (r : OciReference) : Prop :=
  ∀ cwd cacheDir, ∃ rest, rest ≠ [] ∧
    locate cwd (r.path cacheDir) = locate cwd cacheDir ++ rest

/-- The two references have different files. -/
def Apart (r r' : OciReference) : Prop :=
  ∀ cwd cacheDir, locate cwd (r.path cacheDir) ≠ locate cwd (r'.path cacheDir)

variable {s s' : List Char} {r r' : OciReference}

/-- What the parser cuts: registry, repository and tag with the two separators between them. -/
theorem parse_eq_some (h : parse s = some r) :
    s = r.registry ++ '/' :: (r.repository ++ ':' :: r.tag) ∧ r.reference = s ∧
      r.registry ≠ [] ∧ '/' ∉ r.registry ∧ r.repository ≠ [] ∧ r.tag ≠ [] := by
  simp only [parse] at h
  split at h
  · cases h
  · next repoPart tag hcolon =>
    split at h
    · cases h
    · next htag =>
      split at h
      · cases h
      · next registry repository hslash =>
        split at h
        · cases h
        · next hparts =>
          obtain rfl := Option.some.inj h
          obtain ⟨hs, -⟩ := rsplitOnce_eq_some hcolon
          obtain ⟨hrepo, hregistry⟩ := splitOnce_eq_some hslash
          refine ⟨?_, rfl, fun he => hparts (.inl he), hregistry, fun he => hparts (.inr he), htag⟩
          rw [hs, hrepo, List.append_assoc, List.cons_append]

theorem isAbsolute_registry (h : parse s = some r) : isAbsolute r.registry = false := by
  obtain ⟨-, -, hne, hslash, -⟩ := parse_eq_some h
  obtain ⟨c, rest, hcons⟩ := List.exists_cons_of_ne_nil hne
  rw [hcons] at hslash ⊢
  have hc : c ≠ '/' := fun he => hslash (by simp [he])
  simpa [isAbsolute] using hc

theorem isAbsolute_file (h : parse s = some r) :
    isAbsolute (r.tag ++ ".wasm".toList) = isAbsolute r.tag := by
  obtain ⟨-, -, -, -, -, hne⟩ := parse_eq_some h
  obtain ⟨c, rest, hcons⟩ := List.exists_cons_of_ne_nil hne
  rw [hcons]
  rfl

theorem join_ne_nil {base part : List Char} (h : part ≠ []) : join base part ≠ [] := by
  simp only [join]
  split
  · exact h
  · split
    · exact List.append_ne_nil_of_right_ne_nil base h
    · simp

/-- The last piece of a text with a suffix that has no slash is a name with that suffix. -/
theorem components_append_suffix (text : List Char) {suffix : List Char} (hs : '/' ∉ suffix)
    (hlength : 2 < suffix.length) :
    ∃ front last, components (text ++ suffix) = front ++ [.normal (last ++ suffix)] := by
  have hname : ∀ last : List Char, '/' ∉ last →
      components (last ++ suffix) = [.normal (last ++ suffix)] := by
    intro last hlast
    have hmem : '/' ∉ last ++ suffix := by
      rw [List.mem_append, not_or]
      exact ⟨hlast, hs⟩
    have hlen : 2 < (last ++ suffix).length := by
      rw [List.length_append]
      omega
    rw [components, List.splitOn_eq_singleton hmem]
    have h0 : last ++ suffix ≠ [] := by rintro he; simp [he] at hlen
    have h1 : last ++ suffix ≠ ['.'] := by rintro he; simp [he] at hlen
    have h2 : last ++ suffix ≠ ['.', '.'] := by rintro he; simp [he] at hlen
    rw [List.filterMap_cons, List.filterMap_nil, component, if_neg (by simp [h0, h1]), if_neg h2]
  by_cases hslash : '/' ∈ text
  · -- cut the text at its last slash
    obtain ⟨back, front, hcut, hback⟩ := List.eq_append_cons_of_mem (List.mem_reverse.mpr hslash)
    have htext : text = front.reverse ++ '/' :: back.reverse := by
      rw [← List.reverse_reverse text, hcut]
      simp
    refine ⟨components front.reverse, back.reverse, ?_⟩
    rw [htext, List.append_assoc, List.cons_append, components_append_slash,
      hname back.reverse (by simpa using hback)]
  · exact ⟨[], text, by rw [hname text hslash, List.nil_append]⟩

theorem names_ne_nil (r : OciReference) : r.names ≠ [] := by
  have hslash : '/' ∉ ".wasm".toList := by decide
  obtain ⟨front, last, hfile⟩ := components_append_suffix r.tag hslash (by decide)
  rw [names, pieces, hfile, ← List.append_assoc]
  exact resolve_concat_ne_nil _ _ _

/-- With no absolute part the file is looked up from the cache directory. -/
theorem locate_path (h : parse s = some r) (hrepository : isAbsolute r.repository = false)
    (htag : isAbsolute r.tag = false) (cwd : Location) (cacheDir : List Char) :
    locate cwd (r.path cacheDir) = resolve (locate cwd cacheDir) r.pieces := by
  obtain ⟨-, -, hregistryNe, -, hrepositoryNe, htagNe⟩ := parse_eq_some h
  have hregistry := isAbsolute_registry h
  have hfile := (isAbsolute_file h).trans htag
  have hstart : isAbsolute (r.path cacheDir) = isAbsolute cacheDir := by
    rw [path, cachePath, isAbsolute_join (join_ne_nil hrepositoryNe), hfile, Bool.false_or,
      isAbsolute_join (join_ne_nil hregistryNe), hrepository, Bool.false_or]
    cases cacheDir with
    | nil => exact (congrArg isAbsolute (by simp [join, hregistry])).trans hregistry
    | cons c rest => rw [isAbsolute_join (List.cons_ne_nil c rest), hregistry, Bool.false_or]
  have hpieces : components (r.path cacheDir) = components cacheDir ++ r.pieces := by
    rw [path, cachePath, components_join, components_join, components_join, hfile, hrepository,
      hregistry, pieces]
    simp
  rw [locate, locate, hstart, hpieces, resolve_append_components]

/-- An absolute repository or tag hides the cache directory. -/
theorem locate_path_of_absolute (h : parse s = some r)
    (habsolute : isAbsolute r.repository = true ∨ isAbsolute r.tag = true) (cwd : Location)
    (cacheDir cacheDir' : List Char) :
    locate cwd (r.path cacheDir) = locate cwd (r.path cacheDir') := by
  have hfile := isAbsolute_file h
  have hjoin : ∀ base base' part : List Char, isAbsolute part = true →
      join base part = join base' part := by
    intro base base' part hpart
    rw [join, join, if_pos hpart, if_pos hpart]
  have hpath : r.path cacheDir = r.path cacheDir' := by
    rw [path, path, cachePath, cachePath]
    rcases habsolute with hrepository | htag
    · rw [hjoin _ (join cacheDir' r.registry) r.repository hrepository]
    · exact hjoin _ _ _ (hfile.trans htag)
  rw [hpath]

theorem locate_path_eq (h : parse s = some r) (hstays : r.StaysBelow) (cwd : Location)
    (cacheDir : List Char) : locate cwd (r.path cacheDir) = locate cwd cacheDir ++ r.names := by
  obtain ⟨hrepository, htag, hbelow⟩ := hstays
  rw [locate_path h hrepository htag, resolve_of_staysBelow _ hbelow, names]

theorem confined_iff (h : parse s = some r) : r.Confined ↔ r.StaysBelow := by
  constructor
  · intro hconfined
    -- of a reference that does not stay below, two cache directories see the same file
    obtain ⟨rest, -, ha⟩ := hconfined [] "/a".toList
    obtain ⟨rest', -, hb⟩ := hconfined [] "/b".toList
    have hdiffer : locate [] (r.path "/a".toList) ≠ locate [] (r.path "/b".toList) := by
      rw [ha, hb]
      intro he
      exact absurd (List.cons.inj he).1 (by decide)
    by_cases habsolute : isAbsolute r.repository = true ∨ isAbsolute r.tag = true
    · exact absurd (locate_path_of_absolute h habsolute [] _ _) hdiffer
    · rw [not_or, Bool.not_eq_true, Bool.not_eq_true] at habsolute
      obtain ⟨hrepository, htag⟩ := habsolute
      refine ⟨hrepository, htag, ?_⟩
      by_contra hclimbs
      rw [Bool.not_eq_true] at hclimbs
      refine hdiffer ?_
      rw [locate_path h hrepository htag, locate_path h hrepository htag]
      exact @resolve_congr_of_climbs r.pieces [] [] _ _ hclimbs
  · intro hstays cwd cacheDir
    exact ⟨r.names, names_ne_nil r, locate_path_eq h hstays cwd cacheDir⟩

theorem apart_iff (h : parse s = some r) (h' : parse s' = some r') (hstays : r.StaysBelow)
    (hstays' : r'.StaysBelow) : Apart r r' ↔ r.names ≠ r'.names := by
  have hlocate := locate_path_eq h hstays
  have hlocate' := locate_path_eq h' hstays'
  constructor
  · intro hapart hnames
    refine hapart [] [] ?_
    rw [hlocate, hlocate', hnames]
  · intro hnames cwd cacheDir hsame
    rw [hlocate, hlocate'] at hsame
    exact hnames (List.append_cancel_left hsame)

/-- A reference as registries write them: no slash in the tag, no empty, `.` or `..` part. -/
structure Plain (r : OciReference) : Prop where
  tag : '/' ∉ r.tag
  registry : r.registry ≠ ['.'] ∧ r.registry ≠ ['.', '.']
  repository : ∀ piece ∈ r.repository.splitOn '/',
    piece ≠ [] ∧ piece ≠ ['.'] ∧ piece ≠ ['.', '.']

theorem component_of_ne {piece : List Char}
    (h : piece ≠ [] ∧ piece ≠ ['.'] ∧ piece ≠ ['.', '.']) :
    component piece = some (.normal piece) := by
  rw [component, if_neg (by simp [h.1, h.2.1]), if_neg h.2.2]

theorem Plain.pieces_eq (hp : r.Plain) (h : parse s = some r) :
    r.pieces = (r.registry :: (r.repository.splitOn '/' ++ [r.tag ++ ".wasm".toList])).map
      .normal := by
  obtain ⟨-, -, hregistryNe, hslash, -, -⟩ := parse_eq_some h
  have hregistry : components r.registry = [.normal r.registry] := by
    rw [components, List.splitOn_eq_singleton hslash, List.filterMap_cons, List.filterMap_nil,
      component_of_ne ⟨hregistryNe, hp.registry⟩]
  have hrepository : components r.repository = (r.repository.splitOn '/').map .normal := by
    rw [components, ← List.filterMap_eq_map]
    exact List.filterMap_congr fun piece hmem => component_of_ne (hp.repository piece hmem)
  have hfile : components (r.tag ++ ".wasm".toList) = [.normal (r.tag ++ ".wasm".toList)] := by
    have hmem : '/' ∉ r.tag ++ ".wasm".toList := by
      rw [List.mem_append, not_or]
      exact ⟨hp.tag, by decide⟩
    rw [components, List.splitOn_eq_singleton hmem, List.filterMap_cons, List.filterMap_nil,
      component_of_ne]
    refine ⟨by simp, ?_, ?_⟩ <;> · intro he; simpa using congrArg List.length he
  rw [pieces, hregistry, hrepository, hfile]
  simp

theorem Plain.staysBelow (hp : r.Plain) (h : parse s = some r) : r.StaysBelow := by
  obtain ⟨-, -, -, -, -, htagNe⟩ := parse_eq_some h
  refine ⟨?_, ?_, ?_⟩
  · -- a leading slash would leave an empty first part
    cases hrepository : r.repository with
    | nil => rfl
    | cons c rest =>
      by_contra hc
      obtain rfl : c = '/' := by simpa [isAbsolute] using hc
      have hsplit : r.repository.splitOn '/' = [] :: rest.splitOn '/' := by
        rw [hrepository]
        exact List.splitOn_append_cons_self [] rest
      exact (hp.repository [] (by simp [hsplit])).1 rfl
  · obtain ⟨c, rest, hcons⟩ := List.exists_cons_of_ne_nil htagNe
    have hslash := hp.tag
    rw [hcons] at hslash ⊢
    have hc : c ≠ '/' := fun he => hslash (by simp [he])
    simpa [isAbsolute] using hc
  · rw [hp.pieces_eq h]
    exact staysBelow_normal 0 _

theorem Plain.names_eq (hp : r.Plain) (h : parse s = some r) :
    r.names = r.registry :: (r.repository.splitOn '/' ++ [r.tag ++ ".wasm".toList]) := by
  rw [names, hp.pieces_eq h, resolve_normal, List.nil_append]

/-- Plain references with the same names are one reference. -/
theorem Plain.eq_of_names (hp : r.Plain) (hp' : r'.Plain) (h : parse s = some r)
    (h' : parse s' = some r') (hnames : r.names = r'.names) : r = r' := by
  rw [hp.names_eq h, hp'.names_eq h', List.cons.injEq] at hnames
  obtain ⟨hregistry, hrest⟩ := hnames
  obtain ⟨hsplit, hfile⟩ := List.append_inj' hrest rfl
  have hrepository : r.repository = r'.repository := by
    calc r.repository = ['/'].intercalate (r.repository.splitOn '/') :=
          (List.intercalate_splitOn '/').symm
      _ = r'.repository := by rw [hsplit, List.intercalate_splitOn]
  have htag : r.tag = r'.tag := List.append_cancel_right (List.cons.inj hfile).1
  have hreference : r.reference = r'.reference := by
    rw [(parse_eq_some h).2.1, (parse_eq_some h').2.1, (parse_eq_some h).1, (parse_eq_some h').1,
      hregistry, hrepository, htag]
  cases r
  cases r'
  simp_all

/-- Two accepted references are confined, and have different files unless they are the same,
exactly when both stay below and their names differ; so do any two different plain references. -/
theorem separated_iff (h : parse s = some r) (h' : parse s' = some r') :
    (r.Confined ∧ r'.Confined ∧ (r ≠ r' → Apart r r') ↔
      r.StaysBelow ∧ r'.StaysBelow ∧ (r ≠ r' → r.names ≠ r'.names)) ∧
    (r.Plain → r'.Plain → r.StaysBelow ∧ r'.StaysBelow ∧ (r ≠ r' → r.names ≠ r'.names)) := by
  refine ⟨?_, fun hp hp' => ⟨hp.staysBelow h, hp'.staysBelow h',
    fun hne hnames => hne (hp.eq_of_names hp' h h' hnames)⟩⟩
  rw [confined_iff h, confined_iff h']
  refine and_congr_right fun hstays => and_congr_right fun hstays' => imp_congr_right fun _ => ?_
  exact apart_iff h h' hstays hstays'

def twoParts : OciReference :=
  ⟨"ghcr.io/acme/filter:1".toList, "ghcr.io".toList, "acme/filter".toList, "1".toList⟩

def slashInTag : OciReference :=
  ⟨"ghcr.io/acme:filter/1".toList, "ghcr.io".toList, "acme".toList, "filter/1".toList⟩

def upwards : OciReference :=
  ⟨"ghcr.io/../../etc/filter:1".toList, "ghcr.io".toList, "../../etc/filter".toList, "1".toList⟩

def nextTag : OciReference :=
  ⟨"ghcr.io/acme/filter:2".toList, "ghcr.io".toList, "acme/filter".toList, "2".toList⟩

theorem separated_tags :
    twoParts.Confined ∧ nextTag.Confined ∧ (twoParts ≠ nextTag → Apart twoParts nextTag) := by
  have h : parse "ghcr.io/acme/filter:1".toList = some twoParts := by decide
  have h' : parse "ghcr.io/acme/filter:2".toList = some nextTag := by decide
  exact (separated_iff h h').1.mpr ⟨by decide, by decide, fun _ => by decide⟩

/-- A repository with `..` leads out of the cache directory, and a slash in the tag makes two
references share a file. -/
theorem cache_not_confined_nor_injective :
    parse "ghcr.io/../../etc/filter:1".toList = some upwards ∧ ¬upwards.Confined ∧
      locate [] (upwards.path "/cache".toList) = ["etc".toList, "filter".toList, "1.wasm".toList] ∧
      parse "ghcr.io/acme/filter:1".toList = some twoParts ∧
      parse "ghcr.io/acme:filter/1".toList = some slashInTag ∧ twoParts ≠ slashInTag ∧
      twoParts.path "/cache".toList = slashInTag.path "/cache".toList := by
  have h : parse "ghcr.io/../../etc/filter:1".toList = some upwards := by decide
  refine ⟨h, ?_, by decide, by decide, by decide, by decide, by decide⟩
  rw [confined_iff h]
  decide

end OciReference

end Wafer
