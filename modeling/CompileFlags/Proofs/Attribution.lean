import CompileFlags.Answer
import CompileFlags.Proofs.Leaves

/-!
# Which language an answer tells

An answer ends with the flags of the language of the file. Whether a reader can tell the language
from that depends on the catalog alone: the project's flags in front may end in any way, but two
lists at the end of one answer are lists of which one ends with the other.

* `Catalog.exists_file_of_language` — with a name that designates C, there are files of each
  language.
* `Project.flags_end_as_language_iff` — answers tell their language exactly if neither language's
  flags end with those of the other.
-/

namespace CompileFlags

/-- There are no more than two languages. -/
theorem Language.eq_or_eq_of_ne {l l' : Language} (h : l ≠ l') (k : Language) :
    k = l ∨ k = l' := by
  cases l <;> cases l' <;> cases k <;> simp at h ⊢

namespace Catalog

/-- A catalog with a name that designates C has a file for each language. -/
theorem exists_file_of_language {data : Bytes} {catalog : Catalog} (h : decode data = .ok catalog)
    (hne : catalog.cFiles ≠ []) (l : Language) :
    ∃ file, Language.ofFile file catalog.cFiles = l := by
  cases l with
  | c =>
    -- on its own the name could start with what is read as a drive
    obtain ⟨name, more, hcons⟩ := List.exists_cons_of_ne_nil hne
    have hname : name ∈ catalog.cFiles := hcons ▸ List.mem_cons_self
    have hsep : FileName.isSeparator '/' = true := rfl
    have htrailing : ∀ c ∈ "".toList, FileName.isSeparator c = true := fun c hc => by simp at hc
    have hleaf := FileName.leaf_in_directory (isLeaf_of_decode h hname) "" hsep htrailing
    exact ⟨_, Language.ofFile_eq_c_iff.2 (hleaf ▸ hname)⟩
  | cpp =>
    have hempty : FileName.leaf ("" ++ "") = "" :=
      FileName.leaf_of_no_component (.inl rfl) fun c hc => by simp at hc
    have hnot : "" ∉ catalog.cFiles := fun hmem => absurd (isLeaf_of_decode h hmem) (by decide)
    refine ⟨"" ++ "", ?_⟩
    rw [Language.ofFile, hempty]
    exact if_neg (by simpa using hnot)

theorem not_suffix_of_ne (catalog : Catalog) (hc : ¬catalog.c <:+ catalog.cpp)
    (hcpp : ¬catalog.cpp <:+ catalog.c) {l l' : Language} (hl : l ≠ l') :
    ¬catalog.languageFlags l <:+ catalog.languageFlags l' := by
  cases l with
  | c =>
    cases l' with
    | c => exact absurd rfl hl
    | cpp => exact hc
  | cpp =>
    cases l' with
    | c => exact hcpp
    | cpp => exact absurd rfl hl

end Catalog

namespace Project

variable (p : Project)

theorem languageFlags_suffix_flagsOf (l : Language) :
    p.catalog.languageFlags l <:+ p.flagsOf l := List.suffix_append _ _

/-- Whatever stands in front, two lists at the end of the same flags are lists of which one ends
with the other. -/
theorem suffix_or_suffix_of_flagsOf {l l' : Language}
    (h : p.catalog.languageFlags l' <:+ p.flagsOf l) :
    p.catalog.languageFlags l' <:+ p.catalog.languageFlags l ∨
      p.catalog.languageFlags l <:+ p.catalog.languageFlags l' :=
  List.suffix_or_suffix_of_suffix h (p.languageFlags_suffix_flagsOf l)

/-- Where the flags of one language end with those of another, the answers for some file of the
other language end with those of each. -/
theorem exists_file_with_both {data : Bytes} (h : Catalog.decode data = .ok p.catalog)
    (hne : p.catalog.cFiles ≠ []) {l l' : Language} (hl : l ≠ l')
    (hs : p.catalog.languageFlags l <:+ p.catalog.languageFlags l') :
    ∃ file, ∀ r : Request, r.filename = file → p.languageOf r.filename = l' ∧
      ∀ k, p.catalog.languageFlags k <:+ (p.answer r).flags := by
  obtain ⟨file, hfile⟩ := Catalog.exists_file_of_language h hne l'
  refine ⟨file, ?_⟩
  rintro r rfl
  have hlang : p.languageOf r.filename = l' := hfile
  have hend : p.catalog.languageFlags l' <:+ (p.answer r).flags :=
    hlang ▸ p.languageFlags_suffix_flagsOf _
  refine ⟨hlang, fun k => ?_⟩
  rcases Language.eq_or_eq_of_ne hl k with rfl | rfl
  · exact hs.trans hend
  · exact hend

/-- **Answers tell their language exactly if the catalog lets them.** Take a catalog with a name
that designates C, under any root. Every answer ends with the flags of one language and no other,
the language of the file, if and only if neither language's flags end with those of the other. If
one's do, there is a file whose answers all end with the flags of both. -/
theorem flags_end_as_language_iff {data : Bytes} {catalog : Catalog}
    (h : Catalog.decode data = .ok catalog) (hne : catalog.cFiles ≠ []) (root : Option Root) :
    let p : Project := { root, catalog }
    ((∀ (r : Request) (l : Language),
        catalog.languageFlags l <:+ (p.answer r).flags ↔ l = p.languageOf r.filename) ↔
      ¬catalog.c <:+ catalog.cpp ∧ ¬catalog.cpp <:+ catalog.c) ∧
    (catalog.c <:+ catalog.cpp ∨ catalog.cpp <:+ catalog.c →
      ∃ file, ∀ r : Request, r.filename = file →
        ∀ l, catalog.languageFlags l <:+ (p.answer r).flags) := by
  intro p
  refine ⟨⟨?_, ?_⟩, ?_⟩
  · intro htell
    -- an answer that ends with both lists tells the wrong language, too
    have hnot (l l' : Language) (hl : l ≠ l') :
        ¬catalog.languageFlags l <:+ catalog.languageFlags l' := by
      intro hs
      obtain ⟨file, hfile⟩ := p.exists_file_with_both h hne hl hs
      obtain ⟨hlang, hend⟩ := hfile { filename := file } rfl
      exact hl (((htell _ l).1 (hend l)).trans hlang)
    exact ⟨hnot .c .cpp (by decide), hnot .cpp .c (by decide)⟩
  · rintro ⟨hc, hcpp⟩ r l
    constructor
    · intro hend
      by_contra hl
      rcases p.suffix_or_suffix_of_flagsOf hend with hs | hs
      · exact catalog.not_suffix_of_ne hc hcpp hl hs
      · exact catalog.not_suffix_of_ne hc hcpp (Ne.symm hl) hs
    · rintro rfl
      exact p.languageFlags_suffix_flagsOf _
  · intro hboth
    obtain ⟨l, l', hl, hs⟩ : ∃ l l' : Language, l ≠ l' ∧
        catalog.languageFlags l <:+ catalog.languageFlags l' := by
      rcases hboth with hs | hs
      · exact ⟨.c, .cpp, by decide, hs⟩
      · exact ⟨.cpp, .c, by decide, hs⟩
    obtain ⟨file, hfile⟩ := p.exists_file_with_both h hne hl hs
    exact ⟨file, fun r hr => (hfile r hr).2⟩

/-- A catalog whose flags for C end with those for C++. -/
def sharedEnding : Bytes :=
  Utf8.encode "flags = ['-x']\nc-files = ['D:x']\n[cpp]\nflags = ['-x', 'c']\n"

theorem decode_sharedEnding :
    Catalog.decode sharedEnding = .ok {
      flags := ["-x"], c := Catalog.defaultC, cpp := ["-x", "c"], cFiles := ["D:x"]
      cache := true, path := none } :=
  toOption_eq_some_iff.1 (by decide +kernel)

/-- The default flags tell the languages apart; flags that end alike do not, not even under a root
and with other flags in front. -/
theorem flags_end_as_both :
    (∃ catalog, Catalog.decode Catalog.driveLike = .ok catalog ∧ catalog.cFiles ≠ [] ∧
      ∀ (r : Request) (l : Language),
        let p : Project := { root := none, catalog }
        catalog.languageFlags l <:+ (p.answer r).flags ↔ l = p.languageOf r.filename) ∧
    ∃ catalog, Catalog.decode sharedEnding = .ok catalog ∧ catalog.cFiles ≠ [] ∧
      ∃ file, ∀ r : Request, r.filename = file →
        let p : Project := { root := some ⟨"/r"⟩, catalog }
        ∀ l, catalog.languageFlags l <:+ (p.answer r).flags := by
  refine ⟨⟨_, Catalog.decode_driveLike, by decide, ?_⟩,
    ⟨_, decode_sharedEnding, by decide, ?_⟩⟩
  · exact (flags_end_as_language_iff Catalog.decode_driveLike (by decide) none).1.2 (by decide)
  · exact (flags_end_as_language_iff decode_sharedEnding (by decide) (some ⟨"/r"⟩)).2
      (.inr (by decide))

end Project

end CompileFlags
