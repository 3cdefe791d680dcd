import CompileFlags.Catalog
import CompileFlags.Proofs.LastPieces
import CompileFlags.Proofs.Results
import Mathlib.Data.String.Basic

/-!
# Leaves

A name can designate C if it is not empty and holds no separator. Such a name is the leaf of every
file of that name in some directory, however the directory is written and whatever separators stand
at the end. Only right at the start of a file name it may be read as something else: what looks like
a drive there is no part of any component.

* `FileName.leaf_in_directory` — a name that can be a leaf is the leaf of a file in a directory.
* `FileName.leaf_of_isLeaf` — on its own it is the leaf of itself without the drive it starts with.
* `Catalog.ofWritten_eq_ok_iff` — which catalogs are accepted, and what they hold.
* `Catalog.designated_in_directory` — every name that a catalog designates is C in every directory.
* `Catalog.designated_with_drive` — but not always on its own.
-/

namespace CompileFlags

namespace FileName

/-! ## Drives -/

/-- Whether a file name starts with a drive: a letter with a colon behind it. -/
def HasDrive (file : String) : Prop :=
  ∃ letter rest, letter.isAlpha = true ∧ file.toList = letter :: ':' :: rest

instance (file : String) : Decidable (HasDrive file) :=
  decidable_of_iff
    ((match file.toList with
      | letter :: ':' :: _ => letter.isAlpha
      | _ => false) = true) <| by
    unfold HasDrive
    split
    · rename_i letter rest h
      simp [h]
    · rename_i h
      simp only [Bool.false_eq_true, false_iff]
      rintro ⟨letter, rest, -, hf⟩
      exact h letter rest hf

theorem withoutDrive_of_not_hasDrive {file : String} (h : ¬HasDrive file) :
    withoutDrive file = file := by
  rcases withoutDriveChars_cases file.toList with ⟨letter, rest, hl, hfile, -⟩ | ⟨-, hw⟩
  · exact absurd ⟨letter, rest, hl, hfile⟩ h
  · simp [withoutDrive_eq, hw]

/-- A drive ends before the first separator. -/
theorem withoutDriveChars_append_separator (directory rest : List Char) {sep : Char}
    (hsep : isSeparator sep = true) :
    ∃ directory', withoutDriveChars (directory ++ sep :: rest) = directory' ++ sep :: rest := by
  rcases withoutDriveChars_cases (directory ++ sep :: rest) with
    ⟨letter, more, hl, hcs, hw⟩ | ⟨-, hw⟩
  · rw [hw]
    match directory, hcs with
    | [], hcs =>
      obtain ⟨rfl, -⟩ := List.cons.inj hcs
      rcases isSeparator_iff.1 hsep with rfl | rfl <;> exact absurd hl (by decide)
    | [a], hcs =>
      obtain ⟨-, hcs⟩ := List.cons.inj hcs
      obtain ⟨rfl, -⟩ := List.cons.inj hcs
      exact absurd hsep (by decide)
    | a :: b :: directory', hcs =>
      obtain ⟨-, hcs⟩ := List.cons.inj hcs
      obtain ⟨-, hcs⟩ := List.cons.inj hcs
      exact ⟨directory', hcs.symm⟩
  · exact ⟨directory, hw⟩

/-! ## Last components -/

/-- Where there are only separators, there is no component. -/
theorem leafChars_of_forall_isSeparator {cs : List Char} (h : ∀ c ∈ cs, isSeparator c = true) :
    leafChars cs = [] := by
  rw [← lastPiece_eq_leafChars, ← List.nil_append cs, lastPiece_append_of_forall h]
  rfl

end FileName

/-! ## Names that can be leaves -/

theorem Catalog.isLeaf_iff {name : String} :
    isLeaf name = true ↔ name ≠ "" ∧ ∀ c ∈ name.toList, c ≠ '/' ∧ c ≠ '\\' := by
  simp [isLeaf, FileName.isSeparator]

namespace FileName

theorem toList_ne_nil_of_isLeaf {name : String} (h : Catalog.isLeaf name = true) :
    name.toList ≠ [] := by
  simpa using (Catalog.isLeaf_iff.1 h).1

theorem isSeparator_of_isLeaf {name : String} (h : Catalog.isLeaf name = true) {c : Char}
    (hc : c ∈ name.toList) : isSeparator c = false :=
  isSeparator_eq_false_iff.2 ((Catalog.isLeaf_iff.1 h).2 c hc)

/-- A name that can be a leaf is the leaf of a file in a directory. -/
theorem leaf_in_directory {name : String} (h : Catalog.isLeaf name = true) (directory : String)
    {sep : Char} (hsep : isSeparator sep = true) {trailing : String}
    (ht : ∀ c ∈ trailing.toList, isSeparator c = true) :
    leaf (directory ++ .singleton sep ++ name ++ trailing) = name := by
  obtain ⟨directory', hd⟩ :=
    withoutDriveChars_append_separator directory.toList (name.toList ++ trailing.toList) hsep
  have hchars : (directory ++ .singleton sep ++ name ++ trailing).toList =
      directory.toList ++ sep :: (name.toList ++ trailing.toList) := by simp
  have hleaf : leafChars (directory' ++ sep :: name.toList ++ trailing.toList) = name.toList := by
    rw [← lastPiece_eq_leafChars, lastPiece_append_of_forall ht]
    exact lastPiece_append_cons hsep directory' (toList_ne_nil_of_isLeaf h)
      fun c hc => isSeparator_of_isLeaf h hc
  rw [List.append_assoc, List.cons_append] at hleaf
  rw [leaf_eq, hchars, hd, hleaf, String.ofList_toList]

/-- On its own, such a name is the leaf of itself without the drive it starts with. -/
theorem leaf_of_isLeaf {name : String} (h : Catalog.isLeaf name = true) :
    leaf name = withoutDrive name := by
  obtain ⟨cs, hcs⟩ : ∃ cs, cs = withoutDriveChars name.toList := ⟨_, rfl⟩
  have hplain : ∀ c ∈ cs, isSeparator c = false := by
    intro c hc
    rcases withoutDriveChars_cases name.toList with ⟨letter, rest, -, hn, hw⟩ | ⟨-, hw⟩
    · exact isSeparator_of_isLeaf h (by rw [hn]; simp [← hw, ← hcs, hc])
    · exact isSeparator_of_isLeaf h (by rw [← hw, ← hcs]; exact hc)
  rw [leaf_eq, withoutDrive_eq, ← hcs, ← lastPiece_eq_leafChars, lastPiece_of_forall_not hplain]

/-- A file name without a component has the empty leaf. -/
theorem leaf_of_no_component {drive seps : String}
    (hdrive : drive = "" ∨ ∃ letter, letter.isAlpha = true ∧ drive = .ofList [letter, ':'])
    (hseps : ∀ c ∈ seps.toList, isSeparator c = true) : leaf (drive ++ seps) = "" := by
  have hall : ∀ c ∈ withoutDriveChars (drive ++ seps).toList, isSeparator c = true := by
    rcases hdrive with rfl | ⟨letter, hl, rfl⟩
    · -- separators do not start with a drive
      rcases withoutDriveChars_cases ("" ++ seps).toList with ⟨letter, rest, hl, hs, -⟩ | ⟨-, hw⟩
      · have := hseps letter (by simpa using hs ▸ List.mem_cons_self)
        rcases isSeparator_iff.1 this with rfl | rfl <;> exact absurd hl (by decide)
      · rw [hw]
        simpa using hseps
    · simpa [withoutDriveChars, hl] using hseps
  rw [leaf_eq, leafChars_of_forall_isSeparator hall]

end FileName

/-! ## Catalogs that are accepted -/

namespace Catalog

/-- A catalog is accepted if the names that designate C can be leaves, and holds what is written
then, or what stands for what is not there. -/
theorem ofWritten_eq_ok_iff {w : Written} {catalog : Catalog} :
    ofWritten w = .ok catalog ↔
      (∀ name ∈ w.cFiles.getD [], isLeaf name = true) ∧
      catalog = {
        flags := w.flags.getD []
        c := w.c.getD defaultC
        cpp := w.cpp.getD defaultCpp
        cFiles := w.cFiles.getD []
        cache := w.cache.getD true
        path := none } := by
  rw [ofWritten]
  cases hfind : (w.cFiles.getD []).find? fun name => !isLeaf name with
  | some name =>
    have hmem := List.mem_of_find?_eq_some hfind
    have hbad := List.find?_some hfind
    constructor
    · intro h
      cases h
    · rintro ⟨hall, -⟩
      simp [hall name hmem] at hbad
  | none =>
    rw [List.find?_eq_none] at hfind
    have hall : ∀ name ∈ w.cFiles.getD [], isLeaf name = true := by simpa using hfind
    constructor
    · intro h
      cases h
      exact ⟨hall, rfl⟩
    · rintro ⟨-, rfl⟩
      rfl

/-- What is decoded was read as a catalog and accepted. -/
theorem exists_ofWritten_of_decode {data : Bytes} {catalog : Catalog}
    (h : decode data = .ok catalog) : ∃ w, ofWritten w = .ok catalog := by
  obtain ⟨text, -, h⟩ := exists_of_bind_eq_ok h
  obtain ⟨w, -, h⟩ := exists_of_bind_eq_ok h
  exact ⟨w, h⟩

theorem isLeaf_of_decode {data : Bytes} {catalog : Catalog} (h : decode data = .ok catalog)
    {name : String} (hname : name ∈ catalog.cFiles) : isLeaf name = true := by
  obtain ⟨w, hw⟩ := exists_ofWritten_of_decode h
  obtain ⟨hall, rfl⟩ := ofWritten_eq_ok_iff.1 hw
  exact hall name hname

/-- **Every name that a catalog designates is C, in every directory.** A file of that name is C
wherever it lies, with any separators at the end. On its own the name is C as well, unless it starts
with what is read as a drive: then it is C exactly if what stands behind the drive is designated,
too. A file name without any component is C++. -/
theorem designated_in_directory {data : Bytes} {catalog : Catalog}
    (h : decode data = .ok catalog) :
    (∀ name ∈ catalog.cFiles,
      (¬FileName.HasDrive name → Language.ofFile name catalog.cFiles = .c) ∧
      (Language.ofFile name catalog.cFiles = .c ↔
        FileName.withoutDrive name ∈ catalog.cFiles) ∧
      ∀ (directory : String) (sep : Char) (trailing : String),
        (sep = '/' ∨ sep = '\\') → (∀ c ∈ trailing.toList, c = '/' ∨ c = '\\') →
          Language.ofFile (directory ++ .singleton sep ++ name ++ trailing) catalog.cFiles = .c) ∧
    ∀ drive seps : String,
      (drive = "" ∨ ∃ letter, letter.isAlpha = true ∧ drive = .ofList [letter, ':']) →
      (∀ c ∈ seps.toList, c = '/' ∨ c = '\\') →
        Language.ofFile (drive ++ seps) catalog.cFiles = .cpp := by
  constructor
  · intro name hname
    have hleaf := isLeaf_of_decode h hname
    have hbare : Language.ofFile name catalog.cFiles = .c ↔
        FileName.withoutDrive name ∈ catalog.cFiles := by
      rw [Language.ofFile_eq_c_iff, FileName.leaf_of_isLeaf hleaf]
    refine ⟨?_, hbare, ?_⟩
    · intro hdrive
      rw [hbare, FileName.withoutDrive_of_not_hasDrive hdrive]
      exact hname
    · intro directory sep trailing hsep ht
      rw [Language.ofFile_eq_c_iff, FileName.leaf_in_directory hleaf directory
        (FileName.isSeparator_iff.2 hsep) fun c hc => FileName.isSeparator_iff.2 (ht c hc)]
      exact hname
  · intro drive seps hdrive hseps
    have hempty := FileName.leaf_of_no_component hdrive
      fun c hc => FileName.isSeparator_iff.2 (hseps c hc)
    have hne : Language.ofFile (drive ++ seps) catalog.cFiles ≠ .c := by
      rw [Ne, Language.ofFile_eq_c_iff, hempty]
      intro hmem
      exact absurd (isLeaf_of_decode h hmem) (by decide)
    cases hl : Language.ofFile (drive ++ seps) catalog.cFiles with
    | c => exact absurd hl hne
    | cpp => rfl

/-- A catalog with a name that looks like one on a drive, and one with a colon further behind. -/
def driveLike : Bytes := Utf8.encode "c-files = [\"C:arq.h\", \"arq:\\u03BB\\n.h\"]\n"

theorem decode_driveLike :
    decode driveLike = .ok {
      flags := [], c := defaultC, cpp := defaultCpp, cFiles := ["C:arq.h", "arq:λ\n.h"]
      cache := true, path := none } :=
  toOption_eq_some_iff.1 (by decide +kernel)

/-- Both names are C in a directory of a drive, and the second one is C on its own. -/
theorem designated_on_a_drive :
    ∃ catalog, decode driveLike = .ok catalog ∧
      Language.ofFile ("C:" ++ .singleton '\\' ++ "C:arq.h" ++ "/\\") catalog.cFiles = .c ∧
      Language.ofFile ("C:" ++ .singleton '\\' ++ "arq:λ\n.h" ++ "/\\") catalog.cFiles = .c ∧
      Language.ofFile "arq:λ\n.h" catalog.cFiles = .c ∧
      Language.ofFile (.ofList ['C', ':'] ++ "/\\") catalog.cFiles = .cpp := by
  obtain ⟨hnames, hempty⟩ := designated_in_directory decode_driveLike
  obtain ⟨-, -, hfirst⟩ := hnames "C:arq.h" (by decide)
  obtain ⟨hbare, -, hsecond⟩ := hnames "arq:λ\n.h" (by decide)
  have hseps : ∀ c ∈ "/\\".toList, c = '/' ∨ c = '\\' := by simp
  exact ⟨_, decode_driveLike, hfirst "C:" '\\' "/\\" (by decide) hseps,
    hsecond "C:" '\\' "/\\" (by decide) hseps, hbare (by decide),
    hempty _ "/\\" (.inr ⟨'C', by decide, rfl⟩) hseps⟩

/-- **A designated name can be C++ on its own**: what stands in front of its colon is read as a
drive. -/
theorem designated_with_drive :
    ∃ catalog, decode driveLike = .ok catalog ∧ "C:arq.h" ∈ catalog.cFiles ∧
      Language.ofFile "C:arq.h" catalog.cFiles = .cpp :=
  ⟨_, decode_driveLike, by decide, by decide⟩

end Catalog

end CompileFlags
