import CompileFlags.Project
import CompileFlags.Proofs.Results
import CompileFlags.Proofs.Walks
import Mathlib.Data.List.Find

/-!
# Which catalog is found

The search for a catalog asks for a file of a fixed name in the directory of an absolute path and
in the directories above it, nearest first. Where the path has no `..` in it, these are the
directories along its names.

* `Nearest` — a directory that has something while none below it on the way has it.
* `find?_ancestors_iff` — the search ends in the nearest directory.
* `Project.load_nearest` — what a project comes to that is loaded for a search path without `..`.
-/

namespace CompileFlags

open CompileFlags.Path (IsText)

namespace Catalog

/-! ## The places to look at -/

/-- The name of the file that a catalog is looked for in, as a name in a directory. -/
def leaf : Bytes := Utf8.encode fileName

theorem back_ofString_fileName : (Path.ofString fileName).back = [leaf] := rfl

theorem fileName_leaf : Path.FileName leaf := (Path.isFileName_iff leaf).1 rfl

theorem isAbsolute_ofString_fileName : (Path.ofString fileName).isAbsolute = false := rfl

/-- The catalog of a directory. -/
def inDirectory (dir : Path) : Path := dir.join (.ofString fileName)

theorem candidates_eq (dir : Path) : candidates dir = dir.ancestors.map inDirectory := rfl

theorem back_inDirectory (dir : Path) :
    (inDirectory dir).back = leaf :: if dir.last.isEmpty then dir.before else dir.back := by
  rw [inDirectory, Path.back_join isAbsolute_ofString_fileName, back_ofString_fileName]
  rfl

theorem last_inDirectory (dir : Path) : (inDirectory dir).last = leaf :=
  (List.cons.inj (back_inDirectory dir)).1

theorem isAbsolute_inDirectory {dir : Path} (h : dir.isAbsolute = true) :
    (inDirectory dir).isAbsolute = true := Path.isAbsolute_join h _

theorem backNames_inDirectory (dir : Path) :
    (inDirectory dir).backNames = leaf :: dir.backNames := by
  have hleaf : (Path.ofString fileName).backNames = [leaf] := by
    rw [Path.backNames, back_ofString_fileName]
    exact List.filter_cons_of_pos fileName_leaf.isName
  rw [inDirectory, Path.backNames_join isAbsolute_ofString_fileName, hleaf]
  rfl

theorem names_inDirectory (dir : Path) : (inDirectory dir).names = dir.names ++ [leaf] := by
  rw [Path.names_eq_reverse, backNames_inDirectory, List.reverse_cons, Path.names_eq_reverse]

/-- The parent of the place of a catalog is the directory, up to what is no name. -/
theorem exists_parent?_inDirectory {dir : Path} (h : dir.isAbsolute = true) :
    ∃ dir', (inDirectory dir).parent? = some dir' ∧ dir'.isAbsolute = true ∧
      dir'.names = dir.names := by
  obtain ⟨dir', hp, habs, hn⟩ :=
    Path.exists_parent?_of_backNames (isAbsolute_inDirectory h) (backNames_inDirectory dir)
  exact ⟨dir', hp, habs, by rw [Path.names_eq_reverse, hn, Path.names_eq_reverse]⟩

end Catalog

/-! ## The nearest directory -/

namespace Workplace

/-- Whether the directory along names has a catalog. -/
def hasCatalog (w : Workplace) (dir : List Bytes) : Bool :=
  (w.tree.find? (dir ++ [Catalog.leaf])).any Node.isFile

end Workplace

/-- The nearest directory that has something, of a directory along names and those above it. -/
structure Nearest (has : List Bytes → Bool) (dir nearest : List Bytes) : Prop where
  isPrefix : nearest <+: dir
  found : has nearest = true
  none_below : ∀ d, d <+: dir → nearest.length < d.length → has d = false

/-- The first of the ends of a list with a property is the longest of them. -/
theorem find?_tails_eq_some_iff {α : Type} {p : List α → Bool} {l s : List α} :
    l.tails.find? p = some s ↔
      s <:+ l ∧ p s = true ∧ ∀ t, t <:+ l → s.length < t.length → p t = false := by
  induction l with
  | nil =>
    rw [List.tails, List.find?_singleton, List.suffix_nil]
    constructor
    · intro h
      split at h
      · rename_i hp
        cases h
        refine ⟨rfl, hp, ?_⟩
        intro t ht hlt
        rw [List.suffix_nil.1 ht] at hlt
        exact absurd hlt (Nat.lt_irrefl _)
      · cases h
    · rintro ⟨rfl, hp, -⟩
      exact if_pos hp
  | cons a l ih =>
    rw [List.tails_cons]
    cases hp : p (a :: l) with
    | true =>
      rw [List.find?_cons_of_pos hp]
      constructor
      · intro h
        cases h
        exact ⟨List.suffix_refl _, hp, fun t ht hlt => absurd ht.length_le (Nat.not_le.2 hlt)⟩
      · rintro ⟨hs, -, hfirst⟩
        rcases List.suffix_cons_iff.1 hs with rfl | hs
        · rfl
        · rw [hfirst _ (List.suffix_refl _) (Nat.lt_succ_of_le hs.length_le)] at hp
          cases hp
    | false =>
      rw [List.find?_cons_of_neg (by rw [hp]; exact Bool.false_ne_true), ih]
      constructor
      · rintro ⟨hs, hps, hfirst⟩
        refine ⟨hs.trans (List.suffix_cons a l), hps, ?_⟩
        intro t ht hlt
        rcases List.suffix_cons_iff.1 ht with rfl | ht
        · exact hp
        · exact hfirst t ht hlt
      · rintro ⟨hs, hps, hfirst⟩
        rcases List.suffix_cons_iff.1 hs with rfl | hs
        · rw [hps] at hp
          cases hp
        · exact ⟨hs, hps, fun t ht => hfirst t (ht.trans (List.suffix_cons a l))⟩

namespace Workplace

variable {w : Workplace} {dir : Path}

/-- The place of a catalog leads to what is there in the directory along the names. -/
theorem nodeAt_inDirectory (hw : w.tree.wellNamed = true) (habs : dir.isAbsolute = true)
    (hdots : Path.dotdot ∉ dir.names) (hsize : (Catalog.inDirectory dir).size < minTooLong) :
    (w.resolve (Catalog.inDirectory dir)).toOption.bind w.nodeAt =
      w.tree.find? (dir.names ++ [Catalog.leaf]) := by
  have hlast : Path.FileName (Catalog.inDirectory dir).last := by
    rw [Catalog.last_inDirectory]
    exact Catalog.fileName_leaf
  have hdots' : Path.dotdot ∉ (Catalog.inDirectory dir).names := by
    rw [Catalog.names_inDirectory, List.mem_append, List.mem_singleton]
    rintro (h | h)
    · exact hdots h
    · exact Catalog.fileName_leaf.ne_dotdot h.symm
  rw [w.nodeAt_resolve hw (Catalog.isAbsolute_inDirectory habs) hlast hdots' hsize,
    Catalog.names_inDirectory]

/-- The directories above an absolute path go along its names. -/
theorem names_prefix_of_mem_ancestors {a : Path} (habs : dir.isAbsolute = true)
    (ha : a ∈ dir.ancestors) : a.names <+: dir.names := by
  rw [Path.names_eq_reverse, Path.names_eq_reverse, List.reverse_prefix, ← List.mem_tails,
    ← Path.map_backNames_ancestors habs]
  exact List.mem_map_of_mem ha

/-- The names of the working directory have no `..` among them. -/
theorem dotdot_notMem_namesOf (hc : ∀ name ∈ w.current, Path.FileName name)
    (h : Path.dotdot ∉ dir.names) : Path.dotdot ∉ w.namesOf dir := by
  rw [namesOf]
  split
  · exact h
  · intro hmem
    rcases List.mem_append.1 hmem with hmem | hmem
    · exact (hc _ hmem).ne_dotdot rfl
    · exact h hmem

/-- Searching the places for an absolute path is searching the directories above it. -/
theorem find?_candidates {has : List Bytes → Bool}
    (h : ∀ a ∈ dir.ancestors, w.isFile (Catalog.inDirectory a) = has a.names) :
    (Catalog.candidates dir).find? w.isFile =
      (dir.ancestors.find? fun a => has a.names).map Catalog.inDirectory := by
  rw [Catalog.candidates_eq, List.find?_map]
  congr 1
  apply List.find?_congr
  intro a ha
  exact h a ha

/-- The search stops in the nearest directory that has what is searched for. -/
theorem find?_ancestors_iff {has : List Bytes → Bool} (habs : dir.isAbsolute = true)
    {d : List Bytes} :
    (∃ a, dir.ancestors.find? (fun a => has a.names) = some a ∧ a.names = d) ↔
      Nearest has dir.names d := by
  have htails : dir.backNames.tails.find? (fun back => has back.reverse) =
      (dir.ancestors.find? fun a => has a.names).map Path.backNames := by
    rw [← Path.map_backNames_ancestors habs, List.find?_map]
    congr 2
    funext a
    rw [Function.comp_apply, Path.names_eq_reverse]
  have hfind : (∃ a, dir.ancestors.find? (fun a => has a.names) = some a ∧ a.names = d) ↔
      dir.backNames.tails.find? (fun back => has back.reverse) = some d.reverse := by
    rw [htails, Option.map_eq_some_iff]
    apply exists_congr
    intro a
    rw [Path.names_eq_reverse, List.reverse_eq_iff]
  rw [hfind, find?_tails_eq_some_iff, List.reverse_reverse, List.length_reverse,
    ← List.reverse_prefix, List.reverse_reverse, ← Path.names_eq_reverse]
  constructor
  · rintro ⟨hle, hhas, hfirst⟩
    refine ⟨hle, hhas, ?_⟩
    intro t ht hlt
    rw [Path.names_eq_reverse, ← List.reverse_reverse t, List.reverse_prefix] at ht
    have hlt : d.length < t.reverse.length := by rwa [List.length_reverse]
    rw [← hfirst t.reverse ht hlt, List.reverse_reverse]
  · rintro ⟨hle, hhas, hnone⟩
    refine ⟨hle, hhas, ?_⟩
    intro t ht hlt
    apply hnone
    · rw [Path.names_eq_reverse, List.reverse_prefix]
      exact ht
    · rw [List.length_reverse]
      exact hlt

/-- The search finds nothing exactly when no directory has what is searched for. -/
theorem find?_ancestors_eq_none_iff {has : List Bytes → Bool} (habs : dir.isAbsolute = true) :
    dir.ancestors.find? (fun a => has a.names) = none ↔
      ∀ d, d <+: dir.names → has d = false := by
  rw [List.find?_eq_none]
  constructor
  · intro h d hd
    have hmem : d.reverse ∈ dir.ancestors.map Path.backNames := by
      rw [Path.map_backNames_ancestors habs, List.mem_tails, ← List.reverse_prefix,
        List.reverse_reverse, ← Path.names_eq_reverse]
      exact hd
    obtain ⟨a, ha, hback⟩ := List.mem_map.1 hmem
    have hnames : a.names = d := by rw [Path.names_eq_reverse, hback, List.reverse_reverse]
    rw [← hnames]
    exact Bool.eq_false_iff.2 (h a ha)
  · intro h a ha
    rw [h _ (names_prefix_of_mem_ancestors habs ha)]
    exact Bool.false_ne_true

/-- Without `..` on the way, a place is a file exactly when the directory along the names has a
catalog. -/
theorem isFile_inDirectory_of_not_dotdot (hw : w.tree.wellNamed = true)
    (habs : dir.isAbsolute = true) (hdots : Path.dotdot ∉ dir.names)
    (hsize : ∀ place ∈ Catalog.candidates dir, place.size < minTooLong) {a : Path}
    (ha : a ∈ dir.ancestors) : w.isFile (Catalog.inDirectory a) = w.hasCatalog a.names := by
  have hdotsa : Path.dotdot ∉ a.names := fun h =>
    hdots ((names_prefix_of_mem_ancestors habs ha).subset h)
  rw [isFile_eq, nodeAt_inDirectory hw (Path.isAbsolute_of_mem_ancestors habs ha) hdotsa
    (hsize _ (List.mem_map_of_mem ha)), hasCatalog]

end Workplace

/-! ## What loading a project comes to -/

theorem Catalog.ofFile_result (s : Surroundings) (file : Path) :
    (Catalog.ofFile s file).result =
      (inContext (.readingCatalog file) ((s.read file).mapError fun e => .ofCause (.io e))).bind
        fun data => (inContext (.invalidCatalog file) (Catalog.decode data)).map
          fun catalog => { catalog with path := some file } := by
  rw [Catalog.ofFile, Traced.result_bind]
  congr 1
  funext data
  rw [Traced.result_bind]
  show Except.bind (inContext (.invalidCatalog file) (Catalog.decode data)) _ = _
  cases inContext (.invalidCatalog file) (Catalog.decode data) <;> rfl

theorem Catalog.ofFile_of_read_error {s : Surroundings} {file : Path} {e : IoError}
    (h : s.read file = .error e) :
    (Catalog.ofFile s file).result = .error ⟨[.readingCatalog file], .io e⟩ := by
  rw [Catalog.ofFile_result, h]
  rfl

theorem Catalog.ofFile_of_read {s : Surroundings} {file : Path} {data : Bytes}
    (h : s.read file = .ok data) :
    (Catalog.ofFile s file).result =
      (inContext (.invalidCatalog file) (Catalog.decode data)).map
        fun catalog => { catalog with path := some file } := by
  rw [Catalog.ofFile_result, h]
  rfl

namespace Project

theorem catalogFile_result (s : Surroundings) (search : Path) :
    (catalogFile s (some search) none).result =
      (s.absolute search).map fun dir => (Catalog.candidates dir).find? s.isFile := by
  rw [catalogFile, Traced.result_bind]
  show Except.bind (s.absolute search) _ = _
  cases s.absolute search with
  | error f => rfl
  | ok dir => exact Catalog.discoverIn_result s _

theorem load_result (s : Surroundings) (search file root : Option Path) :
    (load s search file root).result = (catalogFile s search file).result.bind fun file =>
      (catalogOf s file).result.bind fun catalog =>
        (rootOf s root file).map fun root => { root := some root, catalog } := by
  rw [load, Traced.result_bind]
  congr 1
  funext file
  rw [Traced.result_bind]
  congr 1
  funext catalog
  rw [Traced.result_bind]
  show Except.bind (rootOf s root file) _ = _
  cases rootOf s root file <;> rfl

/-- A project that is loaded has the catalog of the file that was found. -/
theorem exists_catalogOf_of_load {s : Surroundings} {search file root : Option Path} {p : Project}
    (h : (load s search file root).result = .ok p) :
    ∃ found, (catalogFile s search file).result = .ok found ∧
      (catalogOf s found).result = .ok p.catalog := by
  rw [load_result] at h
  obtain ⟨found, hfound, h⟩ := exists_of_bind_eq_ok h
  obtain ⟨catalog, hcatalog, h⟩ := exists_of_bind_eq_ok h
  obtain ⟨r, -, rfl⟩ := exists_of_map_eq_ok h
  exact ⟨found, hfound, hcatalog⟩

end Project

/-! ## Roots -/

/-- A root that is the directory along names: relative paths are resolved in it. -/
structure Root.IsDirectory (r : Root) (dir : List Bytes) : Prop where
  isEmpty : r.isEmpty = false
  isAbsolute : r.path.isAbsolute = true
  components : r.path.components = dir
  isAbsolute_join : ∀ s : String, (Path.ofString (r.join s)).isAbsolute = true
  components_join : ∀ s : String, (Path.ofString s).isAbsolute = false →
    (Path.ofString (r.join s)).components = dir ++ (Path.ofString s).names

theorem Root.isDirectory_of_text {dir : Path} {text : String} (habs : dir.isAbsolute = true)
    (ht : dir.bytes = Utf8.encode text) : (Root.mk text).IsDirectory dir.names := by
  have hpath : (Root.mk text).path = dir := by
    rw [Root.path, Path.ofString, ← ht, Path.ofBytes_bytes]
  have hjoin (s : String) : (Path.ofString ((Root.mk text).join s)).isAbsolute = true := by
    rw [Root.ofString_join, hpath]
    exact Path.isAbsolute_join habs _
  constructor
  · have hhead := (Path.isAbsolute_iff dir).1 habs
    by_contra hne
    rw [Bool.not_eq_false, Root.isEmpty, String.isEmpty_iff] at hne
    have hempty : text = "" := hne
    rw [ht, hempty] at hhead
    cases hhead
  · rw [hpath]
    exact habs
  · rw [hpath]
    exact Path.components_eq_names habs
  · exact hjoin
  · intro s hs
    rw [Path.components_eq_names (hjoin s), Root.ofString_join, hpath, Path.names_join hs]

theorem Surroundings.absolute_of_isAbsolute (s : Surroundings) {p : Path}
    (h : p.isAbsolute = true) : s.absolute p = .ok p := if_pos h

/-- A directory whose names are texts is a root. -/
theorem Root.ofDirectory_of_isText (s : Surroundings) {p dir : Path} (hp : s.absolute p = .ok dir)
    (habs : dir.isAbsolute = true) (ht : ∀ name ∈ dir.names, IsText name) :
    ∃ root, Root.ofDirectory s p = .ok root ∧ root.IsDirectory dir.names := by
  obtain ⟨text, htext⟩ := (Path.isText_bytes_iff dir).2 ht
  refine ⟨⟨text⟩, ?_, Root.isDirectory_of_text habs htext⟩
  have hdecode := Utf8.decode_eq_ok_iff.2 htext
  simp only [Root.ofDirectory, hp, hdecode, bind, Except.bind]

/-- A directory with a name that is no text is no root. -/
theorem Root.ofDirectory_of_not_isText (s : Surroundings) {p dir : Path}
    (hp : s.absolute p = .ok dir) (ht : ¬∀ name ∈ dir.names, IsText name) :
    Root.ofDirectory s p = .error (.ofComplaint (.rootNotText dir)) := by
  cases hd : Utf8.decode dir.bytes with
  | error e => simp only [Root.ofDirectory, hp, hd, bind, Except.bind]
  | ok text =>
    exact absurd ((Path.isText_bytes_iff dir).1 ⟨text, Utf8.decode_eq_ok_iff.1 hd⟩) ht

theorem Root.containing_of_parent? {s : Surroundings} {p file dir : Path}
    (hp : s.absolute p = .ok file) (h : file.parent? = some dir) :
    Root.containing s p = Root.ofDirectory s dir := by
  simp only [Root.containing, hp, h, bind, Except.bind]

/-! ## Projects in a tree of files -/

namespace Workplace

variable {w : Workplace} (read : Path → Except IoError Bytes)

theorem absolute_surroundings {node : Node} (hc : w.tree.find? w.current = some node) (p : Path) :
    Surroundings.absolute { w.surroundings with read } p = .ok (w.absolute p) := by
  have hcurrent : w.surroundings.currentDirectory = .ok (pathOf w.current) := by
    simp only [surroundings, hc]
  rw [Surroundings.absolute, absolute, hcurrent]
  split <;> rfl

end Workplace

namespace Project

variable {w : Workplace} (read : Path → Except IoError Bytes) {search : Path} {node : Node}

theorem catalogFile_surroundings (hc : w.tree.find? w.current = some node) :
    (catalogFile { w.surroundings with read } (some search) none).result =
      .ok ((Catalog.candidates (w.absolute search)).find? w.isFile) := by
  rw [catalogFile_result, Workplace.absolute_surroundings read hc]
  rfl

/-- The file of the catalog of a project is in the nearest directory that has one. -/
theorem catalogFile_of_isFile {has : List Bytes → Bool} (hc : w.tree.find? w.current = some node)
    (h : ∀ a ∈ (w.absolute search).ancestors,
      w.isFile (Catalog.inDirectory a) = has a.names) :
    (catalogFile { w.surroundings with read } (some search) none).result =
      .ok (((w.absolute search).ancestors.find? fun a => has a.names).map
        Catalog.inDirectory) := by
  rw [catalogFile_surroundings read hc, Workplace.find?_candidates h]

/-- How loading ends that comes to a file: what is wrong with the file is told, and no other file is
looked at; otherwise the directory of the file is the root. -/
structure DecidedBy (result : Except Fault Project) (file : Path) (contents : Except IoError Bytes)
    (dir : List Bytes) : Prop where
  unreadable : ∀ e, contents = .error e → result = .error ⟨[.readingCatalog file], .io e⟩
  invalid : ∀ data f, contents = .ok data → Catalog.decode data = .error f →
    result = .error (f.within (.invalidCatalog file))
  not_text : ∀ data catalog, contents = .ok data → Catalog.decode data = .ok catalog →
    (¬∀ name ∈ dir, IsText name) → ∃ path : Path, path.isAbsolute = true ∧
      path.components = dir ∧ result = .error (.ofComplaint (.rootNotText path))
  loaded : ∀ data catalog, contents = .ok data → Catalog.decode data = .ok catalog →
    (∀ name ∈ dir, IsText name) → ∃ root : Root, root.IsDirectory dir ∧
      result = .ok { root := some root, catalog := { catalog with path := some file } }

/-- Once a file is found in a directory, it and its directory decide. -/
theorem decidedBy_of_catalogFile {s : Surroundings} {search : Option Path} {dir : Path}
    (habs : dir.isAbsolute = true)
    (h : (catalogFile s search none).result = .ok (some (Catalog.inDirectory dir))) :
    DecidedBy (load s search none none).result (Catalog.inDirectory dir)
      (s.read (Catalog.inDirectory dir)) dir.names := by
  obtain ⟨above, hparent, habove, hnames⟩ := Catalog.exists_parent?_inDirectory habs
  have hroot : rootOf s none (some (Catalog.inDirectory dir)) = Root.ofDirectory s above :=
    Root.containing_of_parent? (s.absolute_of_isAbsolute (Catalog.isAbsolute_inDirectory habs))
      hparent
  have hload : (load s search none none).result =
      (Catalog.ofFile s (Catalog.inDirectory dir)).result.bind fun catalog =>
        (Root.ofDirectory s above).map fun root => { root := some root, catalog } := by
    rw [load_result, h, ← hroot]
    rfl
  have habsolute := s.absolute_of_isAbsolute habove
  rw [hload, ← hnames]
  constructor
  · intro e he
    rw [Catalog.ofFile_of_read_error he]
    rfl
  · intro data f hdata hf
    rw [Catalog.ofFile_of_read hdata, hf]
    rfl
  · intro data catalog hdata hc ht
    refine ⟨above, habove, Path.components_eq_names habove, ?_⟩
    rw [Catalog.ofFile_of_read hdata, hc, Root.ofDirectory_of_not_isText s habsolute ht]
    rfl
  · intro data catalog hdata hc ht
    obtain ⟨root, hr, hdir⟩ := Root.ofDirectory_of_isText s habsolute habove ht
    refine ⟨root, hdir, ?_⟩
    rw [Catalog.ofFile_of_read hdata, hc, hr]
    rfl

/-- Where no file is found, the catalog is the built-in one and the root is the working
directory. -/
theorem load_of_catalogFile_none {s : Surroundings} {search : Option Path} {here : Path}
    (h : (catalogFile s search none).result = .ok none)
    (hhere : s.absolute (.ofString ".") = .ok here) (habs : here.isAbsolute = true)
    (ht : ∀ name ∈ here.names, IsText name) :
    ∃ root : Root, root.IsDirectory here.names ∧
      (load s search none none).result = .ok { root := some root, catalog := .builtIn } := by
  obtain ⟨root, hr, hdir⟩ := Root.ofDirectory_of_isText s hhere habs ht
  refine ⟨root, hdir, ?_⟩
  rw [load_result, h]
  show Except.map _ (Root.ofDirectory s _) = _
  rw [hr]
  rfl

/-- **The nearest catalog decides.** A search path without `..` stands for the directory along its
names, seen from the working directory. Of this directory and those above it, the nearest one in
which the catalog is a file decides, whatever reading that file comes to; its directory is the root.
Without any such file the catalog is the built-in one, and the root is the working directory. -/
theorem load_nearest (w : Workplace) (read : Path → Except IoError Bytes) (search : Path)
    (hw : w.tree.wellNamed = true) (hcurrent : (w.tree.find? w.current).isSome = true)
    (htext : ∀ name ∈ w.current, IsText name) (hdots : Path.dotdot ∉ search.names)
    (hsize : ∀ place ∈ Catalog.candidates (w.absolute search), place.size < Workplace.minTooLong) :
    (∀ d, Nearest w.hasCatalog (w.namesOf search) d → ∃ file : Path,
      file.isAbsolute = true ∧ file.components = d ++ [Catalog.leaf] ∧
      (∀ data, w.tree.find? (d ++ [Catalog.leaf]) = some (.file data) → w.read file = .ok data) ∧
      DecidedBy (load { w.surroundings with read } (some search) none none).result file (read file)
        d) ∧
    ((∀ d, d <+: w.namesOf search → w.hasCatalog d = false) → ∃ root : Root,
      root.IsDirectory w.current ∧
      (load { w.surroundings with read } (some search) none none).result =
        .ok { root := some root, catalog := .builtIn }) := by
  obtain ⟨node, hnode⟩ := Option.isSome_iff_exists.1 hcurrent
  have hnames := (Node.wellNamed_of_find? hw hnode).1
  have habs := w.isAbsolute_absolute search
  have hdots' := Workplace.dotdot_notMem_namesOf hnames hdots
  rw [← Workplace.names_absolute hnames] at hdots'
  have hfile := catalogFile_of_isFile read hnode fun a ha =>
    Workplace.isFile_inDirectory_of_not_dotdot hw habs hdots' hsize ha
  rw [← Workplace.names_absolute hnames]
  constructor
  · -- the nearest directory along the names is the one of the path that the search stops at
    intro d hd
    obtain ⟨a, ha, rfl⟩ := (Workplace.find?_ancestors_iff habs).2 hd
    have hmem := List.mem_of_find?_eq_some ha
    have haabs := Path.isAbsolute_of_mem_ancestors habs hmem
    have hplace := Catalog.isAbsolute_inDirectory haabs
    rw [ha] at hfile
    refine ⟨Catalog.inDirectory a, hplace, ?_, ?_, decidedBy_of_catalogFile haabs hfile⟩
    · rw [Path.components_eq_names hplace, Catalog.names_inDirectory]
    · intro data hdata
      apply w.read_of_nodeAt
      have hdotsa : Path.dotdot ∉ a.names := fun h =>
        hdots' ((Workplace.names_prefix_of_mem_ancestors habs hmem).subset h)
      rw [Workplace.nodeAt_inDirectory hw haabs hdotsa (hsize _ (List.mem_map_of_mem hmem)), hdata]
  · intro hnone
    have hfind := (Workplace.find?_ancestors_eq_none_iff habs).2 hnone
    have hhere := Workplace.absolute_surroundings read hnode (.ofString ".")
    have hherenames : (w.absolute (.ofString ".")).names = w.current := by
      rw [Workplace.names_absolute hnames]
      exact List.append_nil _
    rw [hfind] at hfile
    have hload := load_of_catalogFile_none hfile hhere (w.isAbsolute_absolute _)
    rw [hherenames] at hload
    exact hload htext

/-- A working directory with a catalog, and in it a directory that only has a directory of that
name. -/
def shadowed : Workplace where
  tree := .directory [(Utf8.encode "w", .directory [
    (Catalog.leaf, .file (Utf8.encode "cache = false")),
    (Utf8.encode "a", .directory [(Catalog.leaf, .directory [])])])]
  current := [Utf8.encode "w"]

theorem nearest_shadowed :
    Nearest shadowed.hasCatalog (shadowed.namesOf (.ofString "./a//b")) shadowed.current := by
  have hnames : shadowed.namesOf (.ofString "./a//b") =
      [Utf8.encode "w", Utf8.encode "a", Utf8.encode "b"] := by decide +kernel
  rw [hnames]
  refine ⟨⟨_, rfl⟩, by decide +kernel, ?_⟩
  intro d hd hlen
  rw [← List.mem_inits] at hd
  revert d
  decide +kernel

/-- The directory is passed over, and the catalog of the working directory is used. -/
theorem load_past_a_directory :
    ∃ catalog file root, Catalog.decode (Utf8.encode "cache = false") = .ok catalog ∧
      root.IsDirectory [Utf8.encode "w"] ∧
      (load shadowed.surroundings (some (.ofString "./a//b")) none none).result =
        .ok { root := some root, catalog := { catalog with path := some file } } := by
  obtain ⟨catalog, hc⟩ : ∃ catalog, Catalog.decode (Utf8.encode "cache = false") = .ok catalog :=
    ⟨{ Catalog.builtIn with flags := [], cFiles := [], cache := false }, by decide +kernel⟩
  have htext : ∀ name ∈ shadowed.current, IsText name := by
    intro name hname
    exact ⟨"w", List.mem_singleton.1 hname⟩
  obtain ⟨file, -, -, hread, hdecided⟩ := (load_nearest shadowed shadowed.read (.ofString "./a//b")
    (by decide +kernel) (by decide +kernel) htext (by decide +kernel) (by decide +kernel)).1 _
    nearest_shadowed
  have hcontents := hread (Utf8.encode "cache = false") rfl
  obtain ⟨root, hroot, hload⟩ := hdecided.loaded _ _ hcontents hc htext
  exact ⟨catalog, file, root, hc, hroot, hload⟩

end Project

end CompileFlags
