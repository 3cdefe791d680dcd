import CompileFlags.Proofs.Discovery

/-!
# Directories that a search path passes through

The search for a catalog goes up by leaving out names, and `..` is a name: it looks in every
directory that the path passes through on its way from the root. The directories above the one it
arrives at are among these, but so are the directories that it leaves again by `..`.

* `hasCatalogAlong` — whether names lead to a directory with a catalog, `..` going back up.
* `exists_reach_of_suffix` — a path passes through all directories above the one it arrives at.
* `suffix_of_reach_append` — only by `..` does it leave a directory.
* `Project.load_on_the_way` — the catalog of a project is found on the way of its search path.
* `Project.foreign_catalog` — it can be one that is not above the directory to search.
-/

namespace CompileFlags

open CompileFlags.Path (Step)

namespace Workplace

variable (w : Workplace)

/-! ## The way of a path -/

/-- Whatever is above the place that a step leads to was above the place before, or is that
place. -/
theorem suffix_of_suffix_step {trail trail' above : Trail} {next : Step}
    (h : w.step trail next = .ok trail') (ha : above <:+ trail') :
    above <:+ trail ∨ above = trail' := by
  rcases w.step_cases h with ⟨-, rfl⟩ | ⟨-, rfl⟩ | ⟨name, child, -, -, rfl⟩
  · exact .inl ha
  · exact .inl (ha.trans (List.tail_suffix trail))
  · exact (List.suffix_cons_iff.1 ha).symm

/-- A path passes through all directories above the one that it arrives at. -/
theorem exists_reach_of_suffix {names : List Bytes} {trail above : Trail}
    (h : w.reach names = .ok trail) (ha : above <:+ trail) :
    ∃ d, d <+: names ∧ w.reach d = .ok above := by
  -- From the last name on: what is above the place that it leads to was above the place before, and
  -- only that place itself is new.
  induction names using List.reverseRecOn generalizing trail with
  | nil =>
    cases h
    rw [List.suffix_nil.1 ha]
    exact ⟨[], List.prefix_refl _, rfl⟩
  | append_singleton names name ih =>
    have hwhole := h
    rw [reach_append] at h
    cases hr : w.reach names with
    | error e =>
      rw [hr] at h
      cases h
    | ok before =>
      rw [hr] at h
      have hstep := (w.walk_singleton before (Step.ofPiece name)).symm.trans h
      rcases w.suffix_of_suffix_step hstep ha with ha | rfl
      · obtain ⟨d, hd, hreach⟩ := ih hr ha
        exact ⟨d, hd.trans (List.prefix_append _ _), hreach⟩
      · exact ⟨names ++ [name], List.prefix_refl _, hwhole⟩

/-- Only a step up leaves a directory. -/
theorem suffix_of_step {trail trail' : Trail} {next : Step} (hup : next ≠ .up)
    (h : w.step trail next = .ok trail') : trail <:+ trail' := by
  rcases w.step_cases h with ⟨-, rfl⟩ | ⟨rfl, -⟩ | ⟨name, child, -, -, rfl⟩
  · exact List.suffix_refl _
  · exact absurd rfl hup
  · exact List.suffix_cons _ _

theorem suffix_of_walk {trail trail' : Trail} {steps : List Step} (hup : .up ∉ steps)
    (h : w.walk trail steps = .ok trail') : trail <:+ trail' := by
  induction steps generalizing trail with
  | nil =>
    cases h
    exact List.suffix_refl _
  | cons next steps ih =>
    rw [walk] at h
    cases hs : w.step trail next with
    | error e =>
      rw [hs] at h
      cases h
    | ok before =>
      rw [hs] at h
      have hfirst := w.suffix_of_step (fun hn => hup (hn ▸ List.mem_cons_self)) hs
      exact hfirst.trans (ih (fun hn => hup (List.mem_cons_of_mem _ hn)) h)

/-- Only by `..` does a path leave a directory. -/
theorem suffix_of_reach_append {d rest : List Bytes} {passed trail : Trail}
    (hdots : Path.dotdot ∉ rest) (hd : w.reach d = .ok passed)
    (h : w.reach (d ++ rest) = .ok trail) : passed <:+ trail := by
  rw [reach_append, hd] at h
  apply w.suffix_of_walk _ h
  intro hup
  obtain ⟨piece, hp, hstep⟩ := List.mem_map.1 hup
  have hpiece : piece = Path.dotdot := by
    unfold Step.ofPiece at hstep
    split at hstep
    · cases hstep
    · split at hstep
      · assumption
      · cases hstep
  exact hdots (hpiece ▸ hp)

/-! ## Catalogs on the way -/

/-- Whether there is a catalog in the directory at the end of a trail. -/
def hasCatalogAt (trail : Trail) : Bool :=
  ((w.nodeAt trail).bind (Node.child? Catalog.leaf)).any Node.isFile

/-- Whether names lead to a directory with a catalog, `..` going back up. -/
def hasCatalogAlong (names : List Bytes) : Bool :=
  match w.reach names with
  | .ok trail => w.hasCatalogAt trail
  | .error _ => false

theorem hasCatalogAlong_eq_false_iff (names : List Bytes) :
    w.hasCatalogAlong names = false ↔
      ∀ trail, w.reach names = .ok trail → w.hasCatalogAt trail = false := by
  rw [hasCatalogAlong]
  cases w.reach names with
  | error e => simp
  | ok trail => simp

/-- The place of a catalog leads down from where the directory leads. -/
theorem resolve_inDirectory {dir : Path} (habs : dir.isAbsolute = true)
    (hzero : ∀ name ∈ dir.names, 0 ∉ name)
    (hsize : (Catalog.inDirectory dir).size < minTooLong) :
    w.resolve (Catalog.inDirectory dir) =
      (w.reach dir.names).bind fun trail => w.step trail (.down Catalog.leaf) := by
  have hlast : Path.FileName (Catalog.inDirectory dir).last := by
    rw [Catalog.last_inDirectory]
    exact Catalog.fileName_leaf
  have hzero' : ∀ name ∈ (Catalog.inDirectory dir).names, 0 ∉ name := by
    rw [Catalog.names_inDirectory]
    intro name hname
    rcases List.mem_append.1 hname with hname | hname
    · exact hzero name hname
    · rw [List.mem_singleton.1 hname]
      exact Catalog.fileName_leaf.zero_notMem
  rw [w.resolve_eq_reach (Catalog.isAbsolute_inDirectory habs) hlast hzero' hsize,
    Catalog.names_inDirectory, reach_append, List.map_singleton, Catalog.fileName_leaf.step]
  congr 1
  funext trail
  exact w.walk_singleton trail _

theorem any_isFile_step_down (trail : Trail) :
    ((w.step trail (.down Catalog.leaf)).toOption.bind w.nodeAt).any Node.isFile =
      w.hasCatalogAt trail := by
  rw [hasCatalogAt]
  cases hc : (w.nodeAt trail).bind (Node.child? Catalog.leaf) with
  | none =>
    obtain ⟨e, he⟩ := w.exists_step_down_error hc
    rw [he]
    rfl
  | some child =>
    rw [w.step_down_of_child? hc Catalog.fileName_leaf.length_le]
    rfl

theorem isFile_inDirectory {dir : Path} (habs : dir.isAbsolute = true)
    (hzero : ∀ name ∈ dir.names, 0 ∉ name)
    (hsize : (Catalog.inDirectory dir).size < minTooLong) :
    w.isFile (Catalog.inDirectory dir) = w.hasCatalogAlong dir.names := by
  rw [isFile_eq, w.resolve_inDirectory habs hzero hsize, hasCatalogAlong]
  cases w.reach dir.names with
  | error e => rfl
  | ok trail => exact w.any_isFile_step_down trail

/-- Where a directory along names has a catalog, its place leads to a file there. -/
theorem exists_file_of_hasCatalogAlong {dir : Path} (habs : dir.isAbsolute = true)
    (hzero : ∀ name ∈ dir.names, 0 ∉ name)
    (hsize : (Catalog.inDirectory dir).size < minTooLong)
    (h : w.hasCatalogAlong dir.names = true) :
    ∃ trail data, w.reach dir.names = .ok trail ∧
      w.resolve (Catalog.inDirectory dir) =
        .ok ((Catalog.leaf, some (.file data)) :: trail) := by
  rw [hasCatalogAlong] at h
  cases hreach : w.reach dir.names with
  | error e =>
    rw [hreach] at h
    cases h
  | ok trail =>
    rw [hreach] at h
    obtain ⟨node, hnode, hfile⟩ := (Option.any_eq_true _ _).1 h
    cases node with
    | directory entries => cases hfile
    | file data =>
      refine ⟨trail, data, rfl, ?_⟩
      rw [w.resolve_inDirectory habs hzero hsize, hreach]
      exact w.step_down_of_child? hnode Catalog.fileName_leaf.length_le

/-- No name of a path that leads somewhere has a zero byte. -/
theorem zero_notMem_of_resolve {p : Path} {trail : Trail} (h : w.resolve p = .ok trail) :
    ∀ name ∈ p.names, 0 ∉ name := by
  intro name hname hz
  rw [w.resolve_of_zero_mem hname hz] at h
  cases h

theorem zero_notMem_namesOf {p : Path} {trail : Trail} (hc : ∀ name ∈ w.current, Path.FileName name)
    (h : w.resolve p = .ok trail) : ∀ name ∈ w.namesOf p, 0 ∉ name := by
  rw [namesOf]
  split
  · exact w.zero_notMem_of_resolve h
  · intro name hname
    rcases List.mem_append.1 hname with hname | hname
    · exact (hc name hname).zero_notMem
    · exact w.zero_notMem_of_resolve h name hname

end Workplace

/-! ## Projects -/

namespace Project

theorem path_of_ofFile {s : Surroundings} {file : Path} {catalog : Catalog}
    (h : (Catalog.ofFile s file).result = .ok catalog) : catalog.path = some file := by
  rw [Catalog.ofFile_result] at h
  obtain ⟨data, -, h⟩ := exists_of_bind_eq_ok h
  obtain ⟨catalog, -, rfl⟩ := exists_of_map_eq_ok h
  rfl

/-- A project has the catalog of the file that was found, or else the built-in one. -/
theorem catalog_of_load {s : Surroundings} {search root found : Option Path} {p : Project}
    (hfound : (catalogFile s search none).result = .ok found)
    (h : (load s search none root).result = .ok p) :
    p.catalog.path = found ∧ (found = none → p.catalog = .builtIn) := by
  obtain ⟨file, hfile, hcatalog⟩ := exists_catalogOf_of_load h
  rw [hfound] at hfile
  cases hfile
  cases found with
  | none =>
    have hbuiltIn : Catalog.builtIn = p.catalog := Except.ok.inj hcatalog
    rw [← hbuiltIn]
    exact ⟨rfl, fun _ => rfl⟩
  | some file => exact ⟨path_of_ofFile hcatalog, fun hn => by cases hn⟩

/-- **A catalog is found on the way.** Loading a project for a directory that exists looks in all
directories that the search path passes through: it uses the catalog of the one that comes last on
the way, and the built-in one exactly if there is none in any of them. The directory to search and
all those above it are passed through. A directory that is passed through is one of these, unless
`..` stands behind it. -/
theorem load_on_the_way (w : Workplace) (search : Path) (trail : Trail)
    (hw : w.tree.wellNamed = true) (hcurrent : (w.tree.find? w.current).isSome = true)
    (hexists : w.resolve search = .ok trail)
    (hsize : ∀ place ∈ Catalog.candidates (w.absolute search), place.size < Workplace.minTooLong) :
    (∀ root p, (load w.surroundings (some search) none root).result = .ok p →
      (∀ file, p.catalog.path = some file → ∃ d passed data,
        Nearest w.hasCatalogAlong (w.namesOf search) d ∧ w.reach d = .ok passed ∧
        w.resolve file = .ok ((Catalog.leaf, some (.file data)) :: passed)) ∧
      (p.catalog.path = none ↔ ∀ d passed, d <+: w.namesOf search → w.reach d = .ok passed →
        w.hasCatalogAt passed = false) ∧
      (p.catalog.path = none → p.catalog = .builtIn)) ∧
    (∀ above, above <:+ trail → ∃ d, d <+: w.namesOf search ∧ w.reach d = .ok above) ∧
    ∀ d rest passed, d ++ rest = w.namesOf search → Path.dotdot ∉ rest → w.reach d = .ok passed →
      passed <:+ trail := by
  obtain ⟨node, hnode⟩ := Option.isSome_iff_exists.1 hcurrent
  have hnames := (Node.wellNamed_of_find? hw hnode).1
  have hreach := w.reach_namesOf hw hnode hexists
  have habs := w.isAbsolute_absolute search
  have hdir : (w.absolute search).names = w.namesOf search := Workplace.names_absolute hnames search
  have hzero := w.zero_notMem_namesOf hnames hexists
  rw [← hdir] at hzero
  have hplace : ∀ a ∈ (w.absolute search).ancestors, a.isAbsolute = true ∧
      (∀ name ∈ a.names, 0 ∉ name) ∧ (Catalog.inDirectory a).size < Workplace.minTooLong := by
    intro a ha
    have hle := Workplace.names_prefix_of_mem_ancestors habs ha
    exact ⟨Path.isAbsolute_of_mem_ancestors habs ha, fun name hn => hzero name (hle.subset hn),
      hsize _ (List.mem_map_of_mem ha)⟩
  have hfile : (catalogFile w.surroundings (some search) none).result =
      .ok (((w.absolute search).ancestors.find? fun a => w.hasCatalogAlong a.names).map
        Catalog.inDirectory) := by
    apply catalogFile_of_isFile w.read hnode
    intro a ha
    obtain ⟨haabs, hazero, hasize⟩ := hplace a ha
    exact w.isFile_inDirectory haabs hazero hasize
  refine ⟨?_, fun above ha => w.exists_reach_of_suffix hreach ha, ?_⟩
  · intro root p hp
    obtain ⟨hpath, hbuiltIn⟩ := catalog_of_load hfile hp
    rw [← hdir, hpath]
    refine ⟨?_, ?_, fun hnone => hbuiltIn hnone⟩
    · intro file hfound
      obtain ⟨a, ha, rfl⟩ := Option.map_eq_some_iff.1 hfound
      have hnearest := (Workplace.find?_ancestors_iff habs).1 ⟨a, ha, rfl⟩
      obtain ⟨haabs, hazero, hasize⟩ := hplace a (List.mem_of_find?_eq_some ha)
      obtain ⟨passed, data, hpassed, hresolve⟩ :=
        w.exists_file_of_hasCatalogAlong haabs hazero hasize hnearest.found
      exact ⟨a.names, passed, data, hnearest, hpassed, hresolve⟩
    · rw [Option.map_eq_none_iff, Workplace.find?_ancestors_eq_none_iff habs]
      constructor
      · intro h d passed hd hpassed
        exact (w.hasCatalogAlong_eq_false_iff d).1 (h d hd) passed hpassed
      · intro h d hd
        exact (w.hasCatalogAlong_eq_false_iff d).2 fun passed hpassed => h d passed hd hpassed
  · intro d rest passed hd hdots hpassed
    rw [← hd] at hreach
    exact w.suffix_of_reach_append hdots hpassed hreach

/-- A working directory with two directories in it, one of which has a catalog. -/
def twoDirectories : Workplace where
  tree := .directory [(Utf8.encode "w", .directory [
    (Utf8.encode "sub", .directory [(Catalog.leaf, .file (Utf8.encode "flags = []"))]),
    (Utf8.encode "other", .directory [])])]
  current := [Utf8.encode "w"]

/-- A way to one directory that passes through the other. -/
def throughSub : Path := .ofString "sub/../other"

theorem exists_resolve_throughSub :
    ∃ trail, twoDirectories.resolve throughSub = .ok trail ∧
      (trail.tails.all fun above => !twoDirectories.hasCatalogAt above) = true := by
  have hall : ((twoDirectories.resolve throughSub).toOption.map fun trail =>
      trail.tails.all fun above => !twoDirectories.hasCatalogAt above) = some true := by
    decide +kernel
  obtain ⟨trail, htrail, hall⟩ := Option.map_eq_some_iff.1 hall
  exact ⟨trail, toOption_eq_some_iff.1 htrail, hall⟩

theorem exists_load_throughSub :
    ∃ p, (load twoDirectories.surroundings (some throughSub) none none).result = .ok p ∧
      p.catalog.path = some (.ofString "/w/sub/.flagconf.toml") := by
  have hload : (load twoDirectories.surroundings (some throughSub) none none).result.toOption.map
      (fun p => p.catalog.path) = some (some (.ofString "/w/sub/.flagconf.toml")) := by
    decide +kernel
  obtain ⟨p, hp, hpath⟩ := Option.map_eq_some_iff.1 hload
  exact ⟨p, toOption_eq_some_iff.1 hp, hpath⟩

/-- The catalog that is used lies on the way. -/
theorem passed_catalog :
    ∃ p file d passed data,
      (load twoDirectories.surroundings (some throughSub) none none).result = .ok p ∧
      p.catalog.path = some file ∧
      Nearest twoDirectories.hasCatalogAlong (twoDirectories.namesOf throughSub) d ∧
      twoDirectories.reach d = .ok passed ∧
      twoDirectories.resolve file = .ok ((Catalog.leaf, some (.file data)) :: passed) := by
  obtain ⟨trail, htrail, -⟩ := exists_resolve_throughSub
  obtain ⟨p, hp, hpath⟩ := exists_load_throughSub
  obtain ⟨hused, -⟩ := (load_on_the_way twoDirectories throughSub trail (by decide +kernel)
    (by decide +kernel) htrail (by decide +kernel)).1 none p hp
  obtain ⟨d, passed, data, hnearest, hreach, hfile⟩ := hused _ hpath
  exact ⟨p, _, d, passed, data, hp, hpath, hnearest, hreach, hfile⟩

/-- **A catalog of another directory can be used.** Neither the directory to search nor any of those
above it has a catalog, and still one is used, because the search path passes through its
directory. -/
theorem foreign_catalog :
    ∃ trail p, twoDirectories.resolve throughSub = .ok trail ∧
      (∀ above, above <:+ trail → twoDirectories.hasCatalogAt above = false) ∧
      (load twoDirectories.surroundings (some throughSub) none none).result = .ok p ∧
      p.catalog.path = some (.ofString "/w/sub/.flagconf.toml") := by
  obtain ⟨trail, htrail, hall⟩ := exists_resolve_throughSub
  obtain ⟨p, hp, hpath⟩ := exists_load_throughSub
  refine ⟨trail, p, htrail, ?_, hp, hpath⟩
  intro above ha
  have hnone := List.all_eq_true.1 hall above ((List.mem_tails _ _).2 ha)
  rwa [Bool.not_eq_true'] at hnone

end Project

end CompileFlags
