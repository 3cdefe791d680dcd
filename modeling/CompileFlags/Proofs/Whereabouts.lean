import CompileFlags.Proofs.Discovery

/-!
# Where a program is started

The current directory is asked for only to make a relative path absolute. A project that is named by
absolute paths is therefore the same wherever the program is started, with the same log, and fails
in the same way if it fails. Without a file for the catalog, other files count as far as the search
for one looks at them. What is left is a relative root, and the root of a project that has neither a
root nor a catalog.

* `Surroundings.SameFiles` — surroundings in which absolute paths lead to the same files.
* `Catalog.discoverIn_congr` — a search sees nothing of its surroundings but the places it looks at.
* `Project.load_congr` — loadings that find the same file with the same contents, and the same root,
  come to the same.
* `Project.load_apart_from_start` — on what a project that is named by absolute paths depends.
-/

namespace CompileFlags

/-! ## The same files from different directories -/

/-- Surroundings that differ in nothing but the current directory: what is asked about an absolute
path has the same answer. -/
structure Surroundings.SameFiles (s s' : Surroundings) : Prop where
  isFile : ∀ p : Path, p.isAbsolute = true → s.isFile p = s'.isFile p
  read : ∀ p : Path, p.isAbsolute = true → s.read p = s'.read p

namespace Workplace

variable {w w' : Workplace}

theorem nodeAt_congr (h : w.tree = w'.tree) (trail : Trail) : w.nodeAt trail = w'.nodeAt trail := by
  cases trail with
  | nil => exact congrArg some h
  | cons place above => rfl

theorem walk_congr (h : w.tree = w'.tree) (trail : Trail) (steps : List Path.Step) :
    w.walk trail steps = w'.walk trail steps := by
  induction steps generalizing trail with
  | nil => rfl
  | cons next steps ih =>
    have hstep : w.step trail next = w'.step trail next := by
      rw [step, step, nodeAt_congr h]
    rw [walk, walk, hstep]
    cases w'.step trail next with
    | error e => rfl
    | ok trail => exact ih trail

/-- The way of an absolute path starts at the root of the tree. -/
theorem resolve_of_same_tree (h : w.tree = w'.tree) {p : Path} (habs : p.isAbsolute = true) :
    w.resolve p = w'.resolve p := by
  rw [resolve, resolve, if_pos habs, if_pos habs, walk_congr h]

/-- In the same tree absolute paths lead to the same files from every directory, and from one that
has been removed. -/
theorem sameFiles (h : w.tree = w'.tree) : w.surroundings.SameFiles w'.surroundings := by
  constructor
  · intro p habs
    show w.isFile p = w'.isFile p
    rw [isFile, isFile, resolve_of_same_tree h habs]
    cases w'.resolve p with
    | error e => rfl
    | ok trail => simp only [nodeAt_congr h]
  · intro p habs
    show w.read p = w'.read p
    rw [read, read, resolve_of_same_tree h habs]
    cases w'.resolve p with
    | error e => rfl
    | ok trail => simp only [nodeAt_congr h]

end Workplace

/-! ## What is asked on the way to a project -/

theorem Traced.bind_congr {α β : Type} {t : Traced α} {next next' : α → Traced β}
    (h : ∀ a, t.result = .ok a → next a = next' a) : t >>= next = t >>= next' := by
  show t.andThen next = t.andThen next'
  unfold andThen
  cases ht : t.result with
  | error f => rfl
  | ok a => simp only [h a ht]

/-- The parent of an absolute path is absolute. -/
theorem Path.isAbsolute_of_parent? {p dir : Path} (h : p.isAbsolute = true)
    (hp : p.parent? = some dir) : dir.isAbsolute = true := by
  unfold parent? at hp
  split at hp
  · cases hp
  · rename_i qs hqs
    cases hp
    rcases dropLast?_cases (getLast?_back h) with ⟨hnone, -⟩ | ⟨name, qs', hsome, hrooted, -⟩
    · rw [hqs] at hnone
      cases hnone
    · rw [hqs] at hsome
      cases hsome
      simp only [h]
      exact isAbsolute_ofBack hrooted _

namespace Root

variable (s s' : Surroundings)

/-- An absolute directory is a root without asking for the current one. -/
theorem ofDirectory_congr {dir : Path} (h : dir.isAbsolute = true) :
    ofDirectory s dir = ofDirectory s' dir := by
  rw [ofDirectory, ofDirectory, s.absolute_of_isAbsolute h, s'.absolute_of_isAbsolute h]

/-- The directory of a file with an absolute path is absolute, too. -/
theorem containing_congr {file : Path} (h : file.isAbsolute = true) :
    containing s file = containing s' file := by
  cases hp : file.parent? with
  | none =>
    simp only [containing, s.absolute_of_isAbsolute h, s'.absolute_of_isAbsolute h, hp, bind,
      Except.bind]
  | some dir =>
    have hdir := Path.isAbsolute_of_parent? h hp
    rw [containing_of_parent? (s.absolute_of_isAbsolute h) hp,
      containing_of_parent? (s'.absolute_of_isAbsolute h) hp, ofDirectory_congr s s' hdir]

end Root

namespace Catalog

variable {s s' : Surroundings}

/-- Of its surroundings a catalog sees the contents of its file. -/
theorem ofFile_congr {file : Path} (h : s.read file = s'.read file) :
    ofFile s file = ofFile s' file := by
  rw [ofFile, ofFile, h]

/-- Of its surroundings a search sees whether the places it looks at are files. -/
theorem discoverIn_congr {places : List Path}
    (h : ∀ place ∈ places, s.isFile place = s'.isFile place) :
    discoverIn s places = discoverIn s' places := by
  induction places with
  | nil => rfl
  | cons place rest ih =>
    rw [discoverIn, discoverIn, h place List.mem_cons_self,
      ih fun p hp => h p (List.mem_cons_of_mem _ hp)]

theorem isAbsolute_of_mem_candidates {dir place : Path} (h : dir.isAbsolute = true)
    (hp : place ∈ candidates dir) : place.isAbsolute = true := by
  rw [candidates_eq] at hp
  obtain ⟨above, ha, rfl⟩ := List.mem_map.1 hp
  exact isAbsolute_inDirectory (Path.isAbsolute_of_mem_ancestors h ha)

end Catalog

namespace Project

variable {s s' : Surroundings} {search search' file root : Option Path}

/-- Loadings that find the same file, with the same contents, and the same root come to the same. -/
theorem load_congr (hfile : catalogFile s search file = catalogFile s' search' file)
    (hcatalog : ∀ found, (catalogFile s search file).result = .ok found →
      catalogOf s found = catalogOf s' found)
    (hroot : ∀ found, (catalogFile s search file).result = .ok found →
      rootOf s root found = rootOf s' root found) :
    load s search file root = load s' search' file root := by
  rw [load, load, ← hfile]
  apply Traced.bind_congr
  intro found hfound
  rw [hcatalog found hfound, hroot found hfound]

/-- The catalog of a file is the same for the same contents, and the built-in one is always the
same. -/
theorem catalogOf_congr {found : Option Path}
    (h : ∀ file, found = some file → s.read file = s'.read file) :
    catalogOf s found = catalogOf s' found := by
  cases found with
  | none => rfl
  | some file => exact Catalog.ofFile_congr (h file rfl)

/-- The root is the same unless it has to be seen from the current directory. -/
theorem rootOf_congr {found : Option Path} (hroot : ∀ dir, root = some dir → dir.isAbsolute = true)
    (hfound : root = none → ∃ file, found = some file ∧ file.isAbsolute = true) :
    rootOf s root found = rootOf s' root found := by
  cases root with
  | some dir => exact Root.ofDirectory_congr s s' (hroot dir rfl)
  | none =>
    obtain ⟨file, rfl, habs⟩ := hfound rfl
    exact Root.containing_congr s s' habs

/-- With a file for the catalog nothing is searched, so nothing counts but the file. -/
theorem load_of_given_file {file : Path} (hfile : file.isAbsolute = true)
    (hroot : ∀ dir, root = some dir → dir.isAbsolute = true) (hread : s.read file = s'.read file) :
    load s search (some file) root = load s' search' (some file) root := by
  have hgiven : catalogFile s search (some file) = catalogFile s' search' (some file) := rfl
  apply load_congr hgiven
  · rintro found ⟨⟩
    apply catalogOf_congr
    rintro file ⟨⟩
    exact hread
  · rintro found ⟨⟩
    exact rootOf_congr hroot fun _ => ⟨file, rfl, hfile⟩

section

variable {dir : Path} (hdir : dir.isAbsolute = true) (hs : s.SameFiles s')
include hdir

theorem catalogFile_of_isAbsolute : catalogFile s (some dir) none = Catalog.discover s dir := by
  rw [catalogFile, s.absolute_of_isAbsolute hdir]
  rfl

/-- The file that is found for an absolute directory has an absolute path. -/
theorem isAbsolute_of_catalogFile {file : Path}
    (h : (catalogFile s (some dir) none).result = .ok (some file)) : file.isAbsolute = true := by
  rw [catalogFile_of_isAbsolute hdir, Catalog.discover, Catalog.discoverIn_result,
    Except.ok.injEq] at h
  exact Catalog.isAbsolute_of_mem_candidates hdir (List.mem_of_find?_eq_some h)

include hs

theorem catalogFile_congr : catalogFile s (some dir) none = catalogFile s' (some dir) none := by
  rw [catalogFile_of_isAbsolute hdir, catalogFile_of_isAbsolute hdir]
  apply Catalog.discoverIn_congr
  intro place hplace
  exact hs.isFile place (Catalog.isAbsolute_of_mem_candidates hdir hplace)

/-- The catalog that is found for an absolute directory does not depend on the current one. -/
theorem catalogOf_found_congr {found : Option Path}
    (h : (catalogFile s (some dir) none).result = .ok found) :
    catalogOf s found = catalogOf s' found := by
  apply catalogOf_congr
  rintro file rfl
  exact hs.read file (isAbsolute_of_catalogFile hdir h)

/-- Nor does the project, if it has an absolute root or the one of a file that is found. -/
theorem load_of_absolute_search (hroot : ∀ r, root = some r → r.isAbsolute = true)
    (hfound : root = none → (Catalog.discover s dir).result ≠ .ok none) :
    load s (some dir) none root = load s' (some dir) none root := by
  apply load_congr (catalogFile_congr hdir hs) fun _ => catalogOf_found_congr hdir hs
  intro found h
  apply rootOf_congr hroot
  intro hnone
  cases found with
  | none => exact absurd (catalogFile_of_isAbsolute hdir ▸ h) (hfound hnone)
  | some file => exact ⟨file, rfl, isAbsolute_of_catalogFile hdir h⟩

/-- Whatever the root is, two projects for the same directory have the same catalog. -/
theorem catalog_eq_of_load {p p' : Project} (h : (load s (some dir) none root).result = .ok p)
    (h' : (load s' (some dir) none root).result = .ok p') : p.catalog = p'.catalog := by
  obtain ⟨found, hfound, hcatalog⟩ := exists_catalogOf_of_load h
  obtain ⟨found', hfound', hcatalog'⟩ := exists_catalogOf_of_load h'
  rw [← catalogFile_congr hdir hs, hfound] at hfound'
  cases hfound'
  rw [← catalogOf_found_congr hdir hs hfound, hcatalog, Except.ok.injEq] at hcatalog'
  exact hcatalog'

end

/-- **What is named by absolute paths does not depend on where the program is started.** With an
absolute path to the catalog, and an absolute root or none, a project is loaded in the same way for
every search path and in all surroundings in which that one file has the same contents or cannot be
read for the same reason, with the same log. Without a file for the catalog but with an absolute
directory to search, it is loaded in the same way from every current directory, also from one that
has been removed, if the root is absolute, or if none is given and a catalog is found. So the
current directory counts only for a relative root, or if neither a root is given nor a catalog
found, and even then it does not change the catalog. From every directory of a tree of files,
absolute paths lead to the same files. -/
theorem load_apart_from_start :
    (∀ (s s' : Surroundings) (search search' : Option Path) (file : Path) (root : Option Path),
      file.isAbsolute = true → (∀ dir, root = some dir → dir.isAbsolute = true) →
      s.read file = s'.read file →
        load s search (some file) root = load s' search' (some file) root) ∧
    (∀ (s s' : Surroundings) (dir : Path), dir.isAbsolute = true → s.SameFiles s' →
      (∀ r : Path, r.isAbsolute = true →
        load s (some dir) none (some r) = load s' (some dir) none (some r)) ∧
      (∀ file, (Catalog.discover s dir).result = .ok (some file) →
        load s (some dir) none none = load s' (some dir) none none) ∧
      ∀ root : Option Path,
        (load s (some dir) none root ≠ load s' (some dir) none root →
          (∃ r, root = some r ∧ r.isAbsolute = false) ∨
            (root = none ∧ (Catalog.discover s dir).result = .ok none)) ∧
        ∀ p p', (load s (some dir) none root).result = .ok p →
          (load s' (some dir) none root).result = .ok p' → p.catalog = p'.catalog) ∧
    ∀ (tree : Node) (current current' : List Bytes),
      (Workplace.surroundings ⟨tree, current⟩).SameFiles
        (Workplace.surroundings ⟨tree, current'⟩) := by
  refine ⟨?_, ?_, fun tree current current' => Workplace.sameFiles rfl⟩
  · intro s s' search search' file root hfile hroot hread
    exact load_of_given_file hfile hroot hread
  · intro s s' dir hdir hs
    refine ⟨?_, ?_, ?_⟩
    · intro r hr
      apply load_of_absolute_search hdir hs
      · rintro r' ⟨⟩
        exact hr
      · rintro ⟨⟩
    · intro file hfile
      apply load_of_absolute_search hdir hs
      · rintro r ⟨⟩
      · rw [hfile]
        rintro - ⟨⟩
    · intro root
      refine ⟨?_, fun p p' hp hp' => catalog_eq_of_load hdir hs hp hp'⟩
      intro hne
      by_contra hno
      push Not at hno
      obtain ⟨hrelative, hbuiltIn⟩ := hno
      apply hne
      apply load_of_absolute_search hdir hs
      · intro r hr
        exact Bool.not_eq_false _ ▸ hrelative r hr
      · exact hbuiltIn

/-- A tree of files with a catalog in one directory and another directory in that one. -/
def startTree : Node :=
  .directory [(Utf8.encode "p", .directory [
    (Catalog.leaf, .file (Utf8.encode "cache = false")), (Utf8.encode "sub", .directory [])])]

/-- The root of the tree as the current directory. -/
def atTop : Surroundings := Workplace.surroundings ⟨startTree, []⟩

/-- The same tree, seen from a directory that has been removed. -/
def atNowhere : Surroundings := Workplace.surroundings ⟨startTree, [Utf8.encode "gone"]⟩

/-- Another tree with the same catalog, seen from such a directory. -/
def atLeftOver : Surroundings :=
  Workplace.surroundings ⟨.directory [(Utf8.encode "p", .directory [
    (Catalog.leaf, .file (Utf8.encode "cache = false"))])], [Utf8.encode "gone"]⟩

/-- The relative root can be seen from the one directory, and not from the other. -/
theorem load_relative_root_ne :
    load atTop (some (.ofString "/p/sub")) none (some (.ofString "r")) ≠
      load atNowhere (some (.ofString "/p/sub")) none (some (.ofString "r")) := by
  intro h
  have hroot := congrArg (fun t => t.result.toOption.map Project.root) h
  revert hroot
  decide +kernel

/-- The project of the catalog is the same for both, and so is the one of the directory below it.
Only where a relative root is asked for they differ. -/
theorem load_from_a_removed_directory :
    load atTop (some (.ofString "p/sub")) (some (.ofString "/p/.flagconf.toml")) none =
      load atLeftOver none (some (.ofString "/p/.flagconf.toml")) none ∧
    load atTop (some (.ofString "/p/sub")) none none =
      load atNowhere (some (.ofString "/p/sub")) none none ∧
    (load atNowhere (some (.ofString "/p/sub")) none none).result.toOption.map Project.root =
      some (some ⟨"/p"⟩) ∧
    ∃ r, some (Path.ofString "r") = some r ∧ r.isAbsolute = false := by
  obtain ⟨hgiven, hsearch, hsame⟩ := load_apart_from_start
  obtain ⟨-, hfound, hcounts⟩ := hsearch atTop atNowhere (.ofString "/p/sub") (by decide +kernel)
    (hsame startTree [] [Utf8.encode "gone"])
  refine ⟨?_, ?_, by decide +kernel, ?_⟩
  · exact hgiven atTop atLeftOver _ _ (.ofString "/p/.flagconf.toml") none (by decide +kernel)
      (by rintro dir ⟨⟩) (by decide +kernel)
  · exact hfound (.ofString "/p/.flagconf.toml") (by decide +kernel)
  · rcases (hcounts _).1 load_relative_root_ne with hrelative | ⟨⟨⟩, -⟩
    exact hrelative

end Project

end CompileFlags
