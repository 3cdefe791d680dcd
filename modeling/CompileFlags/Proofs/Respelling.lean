import CompileFlags.Command
import CompileFlags.Proofs.Discovery

/-!
# Two spellings of the working directory

The directory of a file name without a slash is spelled as an empty path, and the working directory
as `.`. Seen from an absolute directory these are two spellings of the same directory, and loading a
project for one or the other comes to the same but for the spelling of one file: the catalog of the
working directory itself.

* `load_respelled` — when a file is only spelled in another way, so are the project and its faults.
* `Workplace.load_here` — loading a project for the working directory, spelled in the two ways.
-/

namespace CompileFlags

/-! ## Respelling -/

variable (ρ : Path → Path)

/-- A context with its path spelled in another way. -/
def Context.respelled : Context → Context
  | readingCatalog path => readingCatalog (ρ path)
  | invalidCatalog path => invalidCatalog (ρ path)
  | context => context

/-- A fault with the paths in its contexts spelled in another way. -/
def Fault.respelled (f : Fault) : Fault :=
  { f with contexts := f.contexts.map (Context.respelled ρ) }

/-- A catalog with its path spelled in another way. -/
def Catalog.respelled (catalog : Catalog) : Catalog :=
  { catalog with path := catalog.path.map ρ }

/-- A project with the path of its catalog spelled in another way. -/
def Project.respelled (p : Project) : Project := { p with catalog := p.catalog.respelled ρ }

theorem Fault.respelled_within (context : Context) (f : Fault) :
    (f.within context).respelled ρ = (f.respelled ρ).within (context.respelled ρ) := rfl

/-- What is wrong with the contents of a catalog has nothing to do with its path. -/
theorem Catalog.respelled_of_decode {data : Bytes} {f : Fault} (h : decode data = .error f) :
    f.respelled ρ = f := by
  unfold decode at h
  cases hd : Utf8.decode data with
  | error e =>
    rw [hd] at h
    cases h
    rfl
  | ok text =>
    rw [hd] at h
    cases hw : Written.ofText text with
    | error e =>
      simp only [hw, inContext, Except.mapError, bind, Except.bind] at h
      cases h
      rfl
    | ok written =>
      simp only [hw, inContext, Except.mapError, bind, Except.bind] at h
      unfold ofWritten at h
      dsimp only at h
      split at h
      · cases h
        rfl
      · cases h

theorem Surroundings.respelled_of_absolute {s : Surroundings} {p : Path} {f : Fault}
    (h : s.absolute p = .error f) : f.respelled ρ = f := by
  unfold Surroundings.absolute at h
  split at h
  · cases h
  · split at h
    · cases h
    · cases h
      rfl

theorem Root.respelled_of_ofDirectory {s : Surroundings} {dir : Path} {f : Fault}
    (h : ofDirectory s dir = .error f) : f.respelled ρ = f := by
  unfold ofDirectory at h
  cases ha : s.absolute dir with
  | error e =>
    rw [ha] at h
    cases h
    exact Surroundings.respelled_of_absolute ρ ha
  | ok dir =>
    simp only [ha, bind, Except.bind] at h
    split at h
    · cases h
    · cases h
      rfl

theorem Root.respelled_of_containing {s : Surroundings} {file : Path} {f : Fault}
    (h : containing s file = .error f) : f.respelled ρ = f := by
  unfold containing at h
  cases ha : s.absolute file with
  | error e =>
    rw [ha] at h
    cases h
    exact Surroundings.respelled_of_absolute ρ ha
  | ok file =>
    simp only [ha, bind, Except.bind] at h
    split at h
    · exact Root.respelled_of_ofDirectory ρ h
    · cases h
      rfl

theorem Project.respelled_of_rootOf {s : Surroundings} {root file : Option Path} {f : Fault}
    (h : rootOf s root file = .error f) : f.respelled ρ = f := by
  unfold rootOf at h
  split at h
  · exact Root.respelled_of_ofDirectory ρ h
  · exact Root.respelled_of_containing ρ h
  · exact Root.respelled_of_ofDirectory ρ h

/-! ## Loading -/

/-- The same file under another spelling gives the same catalog, or the same fault. -/
theorem Catalog.ofFile_respelled {s : Surroundings} {file : Path}
    (h : s.read (ρ file) = s.read file) :
    (ofFile s (ρ file)).result =
      ((ofFile s file).result.map (Catalog.respelled ρ)).mapError (Fault.respelled ρ) := by
  cases hr : s.read file with
  | error e =>
    rw [ofFile_of_read_error hr, ofFile_of_read_error (h.trans hr)]
    rfl
  | ok data =>
    rw [ofFile_of_read hr, ofFile_of_read (h.trans hr)]
    cases hd : decode data with
    | error f =>
      show Except.error _ = Except.error _
      rw [Fault.respelled_within, Catalog.respelled_of_decode ρ hd]
      rfl
    | ok catalog => rfl

namespace Project

variable {s : Surroundings} {search search' root : Option Path} {found : Option Path}

/-- When the file that is found is only spelled in another way, so are the project and its
faults. -/
theorem load_respelled (h : (catalogFile s search none).result = .ok found)
    (h' : (catalogFile s search' none).result = .ok (found.map ρ))
    (hread : ∀ file, found = some file → s.read (ρ file) = s.read file)
    (hroot : ∀ file, found = some file → Root.containing s (ρ file) = Root.containing s file) :
    (load s search' none root).result =
      ((load s search none root).result.map (Project.respelled ρ)).mapError
        (Fault.respelled ρ) := by
  have hcatalog : (catalogOf s (found.map ρ)).result =
      ((catalogOf s found).result.map (Catalog.respelled ρ)).mapError (Fault.respelled ρ) := by
    cases found with
    | none => rfl
    | some file => exact Catalog.ofFile_respelled ρ (hread file rfl)
  have hrootOf : rootOf s root (found.map ρ) = rootOf s root found := by
    cases found with
    | none => rfl
    | some file =>
      cases root with
      | some dir => rfl
      | none => exact hroot file rfl
  rw [load_result, load_result, h, h']
  show (catalogOf s (found.map ρ)).result.bind _ =
    (((catalogOf s found).result.bind _).map _).mapError _
  rw [hcatalog, hrootOf]
  cases (catalogOf s found).result with
  | error f => rfl
  | ok catalog =>
    show (rootOf s root found).map _ = (((rootOf s root found).map _).map _).mapError _
    cases hr : rootOf s root found with
    | error f =>
      show Except.error f = Except.error _
      rw [respelled_of_rootOf ρ hr]
    | ok r => rfl

end Project

/-! ## Two spellings of a directory -/

namespace Path

theorem climb_congr {rooted : Bool} {ps qs : List Bytes} (h : dropLast? ps = dropLast? qs)
    (hp : ∀ piece ∈ ps, slash ∉ piece) (hq : ∀ piece ∈ qs, slash ∉ piece) :
    climb rooted ps hp = climb rooted qs hq := by
  rw [climb, climb]
  split
  · rename_i hd
    split
    · rfl
    · rename_i hd'
      rw [← h, hd] at hd'
      cases hd'
  · rename_i rest hd
    split
    · rename_i hd'
      rw [← h, hd] at hd'
      cases hd'
    · rename_i rest' hd'
      rw [← h, hd] at hd'
      cases hd'
      rfl

theorem parent?_congr {p q : Path} (h : dropLast? p.back = dropLast? q.back)
    (habs : p.isAbsolute = q.isAbsolute) : p.parent? = q.parent? := by
  unfold parent?
  split
  · rename_i hd
    split
    · rfl
    · rename_i hd'
      rw [← h, hd] at hd'
      cases hd'
  · rename_i rest hd
    split
    · rename_i hd'
      rw [← h, hd] at hd'
      cases hd'
    · rename_i rest' hd'
      rw [← h, hd] at hd'
      cases hd'
      simp only [habs]

/-- A directory, spelled with a slash at its end. -/
def withSlash (dir : Path) : Path := dir.join empty

/-- A directory, spelled with a dot at its end. -/
def withDot (dir : Path) : Path := dir.join (ofString ".")

variable {dir : Path}

theorem back_ofString_dot : (ofString ".").back = [[dot]] := rfl

/-- The two spellings only differ in their last piece. -/
theorem exists_back_withSlash (h : dir.isAbsolute = true) :
    ∃ above, Rooted above ∧ dir.withSlash.back = [] :: above ∧
      dir.withDot.back = [dot] :: above := by
  have hdot : (ofString ".").isAbsolute = false := rfl
  refine ⟨if dir.last.isEmpty then dir.before else dir.back, ?_, ?_, ?_⟩
  · split
    · exact (isAbsolute_iff_getLast? dir).1 h
    · exact getLast?_back h
  · rw [withSlash, back_join rfl]
    rfl
  · rw [withDot, back_join hdot, back_ofString_dot]
    rfl

theorem trimmed_cons_of_not_isName {piece : Bytes} {above : List Bytes}
    (hp : isName piece = false) (h : Rooted above) :
    trimmed (piece :: above) = trimmed above := by
  rw [trimmed, isComponent_of_rooted (h.cons piece), hp]
  rfl

theorem ancestors_withDot (h : dir.isAbsolute = true) :
    ∃ rest, dir.withSlash.ancestors = dir.withSlash :: rest ∧
      dir.withDot.ancestors = dir.withDot :: rest := by
  obtain ⟨above, habove, hslash, hdot⟩ := exists_back_withSlash h
  refine ⟨_, rfl, ?_⟩
  have hdrop : dropLast? dir.withDot.back = dropLast? dir.withSlash.back := by
    rw [hslash, hdot, dropLast?, dropLast?, trimmed_cons_of_not_isName rfl habove,
      trimmed_cons_of_not_isName rfl habove]
  rw [ancestors, withDot, withSlash, isAbsolute_join h, isAbsolute_join h]
  congr 1
  exact climb_congr hdrop _ _

theorem names_withSlash (dir : Path) : dir.withSlash.names = dir.names := by
  rw [withSlash, names_join rfl]
  exact List.append_nil _

theorem names_withDot (dir : Path) : dir.withDot.names = dir.names := by
  have hdot : (ofString ".").names = [] := by
    rw [names, segments, back_ofString_dot]
    rfl
  rw [withDot, names_join rfl, hdot, List.append_nil]

end Path

namespace Catalog

variable {dir : Path}

/-- The places of a catalog under the two spellings. -/
theorem exists_back_inDirectory (h : dir.isAbsolute = true) :
    ∃ above, Path.Rooted above ∧ (inDirectory dir.withSlash).back = leaf :: above ∧
      (inDirectory dir.withDot).back = leaf :: [Path.dot] :: above := by
  obtain ⟨above, habove, hslash, hdot⟩ := Path.exists_back_withSlash h
  obtain ⟨hslashl, hslashb⟩ := List.cons.inj hslash
  obtain ⟨hdotl, -⟩ := List.cons.inj hdot
  refine ⟨above, habove, ?_, ?_⟩
  · rw [back_inDirectory, hslashl, hslashb]
    rfl
  · rw [back_inDirectory, hdot, hdotl]
    rfl

theorem isAbsolute_inDirectory_withSlash (h : dir.isAbsolute = true) :
    (inDirectory dir.withSlash).isAbsolute = true :=
  isAbsolute_inDirectory (Path.isAbsolute_join h _)

theorem isAbsolute_inDirectory_withDot (h : dir.isAbsolute = true) :
    (inDirectory dir.withDot).isAbsolute = true :=
  isAbsolute_inDirectory (Path.isAbsolute_join h _)

/-- The directory that holds the catalog is the same under both spellings. -/
theorem parent?_inDirectory_withDot (h : dir.isAbsolute = true) :
    (inDirectory dir.withDot).parent? = (inDirectory dir.withSlash).parent? := by
  obtain ⟨above, habove, hslash, hdot⟩ := exists_back_inDirectory h
  have htrimmed (ps : List Bytes) (hps : Path.Rooted (leaf :: ps)) :
      Path.dropLast? (leaf :: ps) = some (Path.trimmed ps) := by
    rw [Path.dropLast?, Path.trimmed, Path.isComponent_of_rooted hps, fileName_leaf.isName]
    rfl
  apply Path.parent?_congr
  · rw [hslash, hdot, htrimmed _ ((habove.cons _).cons _), htrimmed _ (habove.cons _),
      Path.trimmed_cons_of_not_isName rfl habove]
  · rw [isAbsolute_inDirectory_withDot h, isAbsolute_inDirectory_withSlash h]

theorem size_inDirectory_withSlash_le (h : dir.isAbsolute = true) :
    (inDirectory dir.withSlash).size ≤ (inDirectory dir.withDot).size := by
  obtain ⟨above, habove, hslash, hdot⟩ := exists_back_inDirectory h
  rw [Path.size_eq_length_bytes, Path.size_eq_length_bytes, Path.bytes, Path.bytes, Path.segments,
    Path.segments, hslash, hdot, length_joinPieces, length_joinPieces]
  simp only [List.length_flatten, List.map_reverse, List.sum_reverse, List.length_reverse,
    List.map_cons, List.sum_cons, List.length_cons]
  omega

end Catalog

/-! ## Loading for the working directory -/

namespace Workplace

/-- The answers about a tree of files whose contents are read in some way, which can fail. What is
read depends on where a path leads, and not on its spelling. -/
def reading (w : Workplace) (contents : Trail → Except IoError Bytes) : Surroundings :=
  { w.surroundings with read := fun p => (w.resolve p).bind contents }

/-- What can be read at the end of a trail. -/
def contents (w : Workplace) (trail : Trail) : Except IoError Bytes :=
  match w.nodeAt trail with
  | some (.file data) => .ok data
  | _ => .error .isADirectory

/-- Where every file can be read, these are the answers about the tree. -/
theorem reading_contents (w : Workplace) : w.reading w.contents = w.surroundings := by
  have hread : (fun p => (w.resolve p).bind w.contents) = w.read := by
    funext p
    rw [read]
    cases w.resolve p <;> rfl
  rw [reading, hread]
  rfl

/-- The place of the catalog of the working directory, spelled with a slash. -/
def slashPlace (w : Workplace) : Path := Catalog.inDirectory (pathOf w.current).withSlash

/-- The place of the catalog of the working directory, spelled with a dot. -/
def dotPlace (w : Workplace) : Path := Catalog.inDirectory (pathOf w.current).withDot

/-- Spells the place of the catalog of the working directory with a dot. -/
def dotted (w : Workplace) (p : Path) : Path := if p = w.slashPlace then w.dotPlace else p

variable (w : Workplace)

theorem dotPlace_ne_slashPlace : w.dotPlace ≠ w.slashPlace := by
  obtain ⟨above, -, hslash, hdot⟩ := Catalog.exists_back_inDirectory (isAbsolute_pathOf w.current)
  intro h
  have hback : w.dotPlace.back = w.slashPlace.back := by rw [h]
  rw [dotPlace, slashPlace, hslash, hdot] at hback
  have hlen := congrArg List.length hback
  simp only [List.length_cons] at hlen
  omega

theorem dotted_dotted (p : Path) : w.dotted (w.dotted p) = w.dotted p := by
  by_cases h : p = w.slashPlace
  · rw [dotted, dotted, if_pos h, if_neg w.dotPlace_ne_slashPlace]
  · rw [dotted, dotted, if_neg h, if_neg h]

variable {w} (hsize : w.slashPlace.size < minTooLong → w.dotPlace.size < minTooLong)
include hsize

/-- Both spellings lead to the same place, unless only the longer one is too long. -/
theorem resolve_dotPlace : w.resolve w.dotPlace = w.resolve w.slashPlace := by
  have habs := isAbsolute_pathOf w.current
  by_cases hslash : w.slashPlace.size < minTooLong
  · have hlast (dir : Path) : Path.FileName (Catalog.inDirectory dir).last := by
      rw [Catalog.last_inDirectory]
      exact Catalog.fileName_leaf
    apply w.resolve_congr (Catalog.isAbsolute_inDirectory_withDot habs)
      (Catalog.isAbsolute_inDirectory_withSlash habs) ?_ (hlast _) (hlast _) (hsize hslash) hslash
    rw [Catalog.names_inDirectory, Catalog.names_inDirectory, Path.names_withDot,
      Path.names_withSlash]
  · have hle := Nat.not_lt.1 hslash
    have hle' : minTooLong ≤ w.dotPlace.size :=
      hle.trans (Catalog.size_inDirectory_withSlash_le habs)
    obtain ⟨above, -, hbslash, hbdot⟩ := Catalog.exists_back_inDirectory habs
    rw [w.resolve_of_too_long hle, w.resolve_of_too_long hle', slashPlace, dotPlace, hbslash, hbdot,
      List.any_cons, List.any_cons, List.any_cons]
    rfl

/-- Searching for the working directory finds the same file under both spellings. -/
theorem find?_candidates_withDot :
    (Catalog.candidates (pathOf w.current).withDot).find? w.isFile =
      ((Catalog.candidates (pathOf w.current).withSlash).find? w.isFile).map w.dotted := by
  obtain ⟨rest, hslash, hdot⟩ := Path.ancestors_withDot (isAbsolute_pathOf w.current)
  have hfile : w.isFile w.dotPlace = w.isFile w.slashPlace := by
    rw [isFile_eq, isFile_eq, resolve_dotPlace hsize]
  rw [Catalog.candidates_eq, Catalog.candidates_eq, hslash, hdot, List.map_cons, List.map_cons,
    ← dotPlace, ← slashPlace]
  -- only the first place is spelled in two ways
  cases h : w.isFile w.slashPlace with
  | true =>
    rw [List.find?_cons_of_pos h, List.find?_cons_of_pos (hfile.trans h), Option.map_some, dotted,
      if_pos rfl]
  | false =>
    have hdot' := hfile.trans h
    rw [List.find?_cons_of_neg (Bool.eq_false_iff.1 h),
      List.find?_cons_of_neg (Bool.eq_false_iff.1 hdot')]
    cases hfind : (rest.map Catalog.inDirectory).find? w.isFile with
    | none => rfl
    | some file =>
      rw [Option.map_some, dotted, if_neg]
      rintro rfl
      rw [List.find?_some hfind] at h
      cases h

theorem read_dotted {contents : Trail → Except IoError Bytes} (file : Path) :
    (w.reading contents).read (w.dotted file) = (w.reading contents).read file := by
  rw [dotted]
  split
  · rename_i h
    show (w.resolve w.dotPlace).bind contents = (w.resolve file).bind contents
    rw [h, resolve_dotPlace hsize]
  · rfl

omit hsize in
theorem containing_dotted (s : Surroundings) (file : Path) :
    Root.containing s (w.dotted file) = Root.containing s file := by
  rw [dotted]
  split
  · rename_i h
    have habs := isAbsolute_pathOf w.current
    obtain ⟨dir, hparent, -⟩ :=
      Catalog.exists_parent?_inDirectory (Path.isAbsolute_join habs Path.empty)
    have hslash := s.absolute_of_isAbsolute (Catalog.isAbsolute_inDirectory_withSlash habs)
    have hdot := s.absolute_of_isAbsolute (Catalog.isAbsolute_inDirectory_withDot habs)
    rw [h, slashPlace, dotPlace, Root.containing_of_parent? hslash hparent]
    apply Root.containing_of_parent? hdot
    rw [Catalog.parent?_inDirectory_withDot habs]
    exact hparent
  · rfl

/-- **Loading a project for the working directory** comes to the same under both spellings, but for
the spelling of the catalog of the working directory itself. -/
theorem load_here (contents : Trail → Except IoError Bytes) (root : Option Path) :
    (Project.load (w.reading contents) (some Loading.here) none root).result =
      ((Project.load (w.reading contents) (some Path.empty) none root).result.map
        (Project.respelled w.dotted)).mapError (Fault.respelled w.dotted) := by
  have hhere : Loading.here.isAbsolute = false := rfl
  cases hc : w.tree.find? w.current with
  | none =>
    have habsolute {p : Path} (hp : p.isAbsolute = false) :
        (w.reading contents).absolute p = .error ⟨[.workingDirectory], .io .notFound⟩ := by
      have hcurrent : (w.reading contents).currentDirectory = .error .notFound := by
        show w.surroundings.currentDirectory = _
        simp only [surroundings, hc]
      rw [Surroundings.absolute, if_neg (by simp [hp]), hcurrent]
      rfl
    rw [Project.load_result, Project.load_result, Project.catalogFile_result,
      Project.catalogFile_result, habsolute hhere, habsolute rfl]
    rfl
  | some node =>
    have hslash : (Project.catalogFile (w.reading contents) (some Path.empty) none).result =
        .ok ((Catalog.candidates (pathOf w.current).withSlash).find? w.isFile) :=
      Project.catalogFile_surroundings _ hc
    have hdot : (Project.catalogFile (w.reading contents) (some Loading.here) none).result =
        .ok (((Catalog.candidates (pathOf w.current).withSlash).find? w.isFile).map w.dotted) := by
      have habs : w.absolute Loading.here = (pathOf w.current).withDot := by
        rw [absolute, if_neg (by simp [hhere])]
        rfl
      rw [← find?_candidates_withDot hsize, ← habs]
      exact Project.catalogFile_surroundings _ hc
    exact Project.load_respelled w.dotted hslash hdot (fun file _ => read_dotted hsize file)
      (fun file _ => containing_dotted _ file)

end Workplace

end CompileFlags
