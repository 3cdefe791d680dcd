import CompileFlags.Proofs.DocumentTables
import CompileFlags.Proofs.Encoding
import CompileFlags.Proofs.Leaves
import Mathlib.Logic.Relator

/-!
# The schema of a catalog

A catalog is the table of a document. It can have five keys: the flags of all files and the names of
C files, each a list of texts; whether flags may be kept, a boolean; and a table for each language
with its flags, and nothing else, in it. Reading one field after another, with its guards against
unknown fields and fields that are there twice, comes to exactly this, in whatever order and
notation the keys are written.

* `Written.dialect_eq_ok_iff` — what the flags of a language can be written as.
* `Written.ofText_eq_ok_iff` — a text is read as a catalog exactly if it is what its table holds.
* `decode_eq_ok_iff` — bytes are a catalog exactly if they are such a text and the names in it can
  be leaves.
* `decode_follows_schema` — which documents are catalogs, which catalogs they are, and what is
  refused.
-/

namespace CompileFlags.Catalog

open Toml

/-! ## Fields and what is written for them -/

/-- A list of texts is written as an array of them. -/
def IsTexts (d : Datum) (l : List String) : Prop := d = .texts l

/-- A boolean is written as such. -/
def IsBoolean (d : Datum) (b : Bool) : Prop := d = .boolean b

/-- The flags of a language are written as a table with nothing else, or as an array with nothing
else. -/
def IsDialect (d : Datum) (flags : List String) : Prop :=
  d = .table [("flags", .texts flags)] ∨ d = .array [.texts flags]

theorem isTexts_texts (l : List String) : IsTexts (.texts l) l := rfl

theorem isBoolean_boolean (b : Bool) : IsBoolean (.boolean b) b := rfl

theorem rightUnique_isTexts : Relator.RightUnique IsTexts := by
  intro d a b ha hb
  exact Datum.texts_inj.1 (ha.symm.trans hb)

theorem rightUnique_isBoolean : Relator.RightUnique IsBoolean := by
  intro d a b ha hb
  cases ha
  cases hb
  rfl

theorem rightUnique_isDialect : Relator.RightUnique IsDialect := by
  intro d a b ha hb
  rcases ha with rfl | rfl <;> rcases hb with hb | hb <;> simp [Datum.texts_inj] at hb
  · exact hb
  · exact hb

theorem isSome_eq_of_rel {α : Type} {is : Datum → α → Prop} {d? : Option Datum} {v? : Option α}
    (h : Option.Rel is d? v?) : v?.isSome = d?.isSome := by
  cases h <;> rfl

theorem exists_datum_of_rel {α : Type} {is : Datum → α → Prop} {d? : Option Datum} {v : α}
    (h : Option.Rel is d? (some v)) : ∃ d, d? = some d ∧ is d v := by
  cases h with
  | some h => exact ⟨_, rfl, h⟩

theorem exists_of_rel_some {α : Type} {is : Datum → α → Prop} {d : Datum} {v? : Option α}
    (h : Option.Rel is (some d) v?) : ∃ v, v? = some v ∧ is d v := by
  cases h with
  | some h => exact ⟨_, rfl, h⟩

/-- If a datum stands for one thing at most, what two records hold for a key is the same. -/
theorem eq_of_rel {α : Type} {is : Datum → α → Prop} {d? : Option Datum} {a? b? : Option α}
    (hunique : Relator.RightUnique is) (ha : Option.Rel is d? a?) (hb : Option.Rel is d? b?) :
    a? = b? := by
  cases hb with
  | none =>
    cases ha
    rfl
  | some hb =>
    obtain ⟨a, rfl, hisA⟩ := exists_of_rel_some ha
    rw [hunique hisA hb]

namespace Written

/-- What the table of a language holds for a key when its flags are `flags?`. -/
def DialectHolds (flags? : Option (List String)) (key : String) (d? : Option Datum) : Prop :=
  if key = dialectField then Option.Rel IsTexts d? flags? else d? = none

/-- What the document of a catalog holds for a key. -/
def Holds (w : Written) (key : String) (d? : Option Datum) : Prop :=
  match key with
  | "flags" => Option.Rel IsTexts d? w.flags
  | "c-files" => Option.Rel IsTexts d? w.cFiles
  | "cache" => Option.Rel IsBoolean d? w.cache
  | "c" => Option.Rel IsDialect d? w.c
  | "cpp" => Option.Rel IsDialect d? w.cpp
  | _ => d? = none

/-! ## The flags of a language -/

/-- The table of a language is a record with one field. -/
theorem dialectRules :
    RecordRules [dialectField] (fun _ (flags? : Option (List String)) => flags?.isSome)
      (fun _ content _ => content.toTexts.map some) none DialectHolds where
  holds_empty key := by
    unfold DialectHolds
    split
    · exact .none
    · rfl
  mem_known {w key d} h := by
    unfold DialectHolds at h
    split at h
    · rename_i hkey
      exact List.mem_singleton.2 hkey
    · cases h
  isSet_eq {w key d?} hkey h := by
    rw [DialectHolds, if_pos (List.mem_singleton.1 hkey)] at h
    exact isSome_eq_of_rel h
  holds_of_read {w w' key content} hkey h := by
    obtain ⟨l, hl, rfl⟩ := exists_of_map_eq_ok h
    obtain rfl := List.mem_singleton.1 hkey
    refine ⟨.texts l, Content.toTexts_eq_ok_iff.1 hl, ?_, ?_⟩
    · rw [DialectHolds, if_pos rfl]
      exact .some rfl
    · intro k d? hk hd
      rw [DialectHolds, if_neg hk] at hd ⊢
      exact hd
  exists_read {w v key content d} hd h := by
    unfold DialectHolds at h
    split at h
    · obtain ⟨l, -, rfl⟩ := exists_of_rel_some h
      refine ⟨some l, ?_⟩
      rw [Content.toTexts_eq_ok_iff.2 hd]
      rfl
    · cases h
  eq_of_holds {w w'} h := by
    obtain ⟨d?, hw, hw'⟩ := h dialectField
    rw [DialectHolds, if_pos rfl] at hw hw'
    exact eq_of_rel rightUnique_isTexts hw hw'

/-- A table holds the flags of a language if they are all that is in it. -/
theorem dialectHolds_lookup_iff {entries : List (String × Datum)} {l : List String}
    (hsorted : entries.Pairwise fun a b => a.1 < b.1) :
    (∀ key, DialectHolds (some l) key (entries.lookup key)) ↔
      entries = [(dialectField, .texts l)] := by
  have hone : ∀ key, [(dialectField, Datum.texts l)].lookup key =
      if key = dialectField then some (.texts l) else none := by
    intro key
    split
    · rename_i hkey
      simp [hkey]
    · rename_i hkey
      rw [List.lookup_cons, beq_eq_false_iff_ne.2 hkey]
      rfl
  constructor
  · intro h
    apply Json.eq_of_lookup_eq hsorted (List.pairwise_singleton _ _)
    intro key
    have hkey := h key
    rw [hone]
    unfold DialectHolds at hkey
    split at hkey
    · rename_i hflags
      obtain ⟨d, hd, rfl⟩ := exists_datum_of_rel hkey
      rw [hd, if_pos hflags]
    · rename_i hother
      rw [hkey, if_neg hother]
  · rintro rfl key
    rw [hone]
    unfold DialectHolds
    split
    · exact .some rfl
    · rfl

/-- Fields are read as the flags of a language if their table holds the flags and nothing else. -/
theorem dialectOfFields_eq_ok_iff {named : Bool} {fields : List Field} {l : List String} :
    dialectOfFields named fields = .ok l ↔
      (fieldsData? fields).bind entriesOf = some [(dialectField, .texts l)] := by
  constructor
  · intro h
    obtain ⟨flags?, hread, h⟩ := exists_of_bind_eq_ok h
    obtain ⟨entries, hentries, hholds⟩ := dialectRules.readFields_eq_ok_iff.1 hread
    split at h
    swap
    · cases h
    cases h
    rw [hentries, (dialectHolds_lookup_iff (pairwise_of_bind_entriesOf hentries)).1 hholds]
  · intro h
    have hholds := (dialectHolds_lookup_iff (pairwise_of_bind_entriesOf h)).2 rfl
    unfold dialectOfFields
    rw [dialectRules.readFields_eq_ok_iff.2 ⟨_, h, hholds⟩]
    rfl

/-- A content is read as the flags of a language exactly if they are written there as such. -/
theorem dialect_eq_ok_iff {content : Content} {l : List String} :
    dialect content = .ok l ↔ ∃ d, content.datum? = some d ∧ IsDialect d l := by
  constructor
  · intro h
    unfold dialect at h
    split at h
    · rename_i defined fields
      refine ⟨.table [("flags", .texts l)], ?_, .inl rfl⟩
      show ((fieldsData? fields).bind entriesOf).map Datum.table = _
      rw [dialectOfFields_eq_ok_iff.1 h]
      rfl
    · exact absurd h (Content.mismatch_ne_ok _ _ _)
    · rename_i start dotted pairs
      refine ⟨.table [("flags", .texts l)], ?_, .inl rfl⟩
      show ((pairsData? pairs).bind entriesOf).map Datum.table = _
      rw [← fieldsData?_fieldsOfPairs, dialectOfFields_eq_ok_iff.1 (mapError_eq_ok_iff.1 h)]
      rfl
    · cases h
    · cases h
    · rename_i start item more
      obtain ⟨flags, hflags, h⟩ := exists_of_bind_eq_ok h
      split at h
      · rename_i hmore
        cases h
        obtain rfl := List.isEmpty_iff.1 hmore
        refine ⟨.array [.texts l], ?_, .inr rfl⟩
        show (itemsData? [item]).map Datum.array = _
        rw [itemsData?_eq_singleton_iff.2 ⟨item, rfl, Content.toTexts_eq_ok_iff.1 hflags⟩]
        rfl
      · cases h
    · exact absurd h (Content.mismatch_ne_ok _ _ _)
  · rintro ⟨d, hd, rfl | rfl⟩
    · rcases Content.exists_of_datum?_eq_table hd with
        ⟨start, dotted, pairs, rfl, hentries⟩ | ⟨defined, fields, rfl, hentries⟩
      · apply mapError_eq_ok_iff.2
        rw [dialectOfFields_eq_ok_iff, fieldsData?_fieldsOfPairs]
        exact hentries
      · exact dialectOfFields_eq_ok_iff.2 hentries
    · obtain ⟨start, items, rfl, hitems⟩ := Content.exists_of_datum?_eq_array hd
      obtain ⟨item, rfl, hitem⟩ := itemsData?_eq_singleton_iff.1 hitems
      have hflags : (Content.value item.1 item.2).toTexts = .ok l :=
        Content.toTexts_eq_ok_iff.2 hitem
      show (Content.value item.1 item.2).toTexts >>= _ = _
      rw [hflags]
      rfl

/-! ## The fields of a catalog -/

theorem holds_of_not_mem {w : Written} {key : String} (hkey : key ∉ known) {d? : Option Datum} :
    w.Holds key d? ↔ d? = none := by
  unfold Holds
  split <;> first | exact absurd (by decide) hkey | rfl

theorem mem_known_iff {key : String} :
    key ∈ known ↔ key = "flags" ∨ key = "c-files" ∨ key = "cache" ∨ key = "c" ∨ key = "cpp" := by
  simp [known]

/-- Reading the content of a key leaves what is held for other keys. -/
theorem holds_of_ne {w w' : Written} {key k : String} {content : Content} {d? : Option Datum}
    (hkey : key ∈ known) (hread : read key content w = .ok w') (hk : k ≠ key)
    (h : w.Holds k d?) : w'.Holds k d? := by
  unfold Holds at *
  -- each of the five keys that is read, against each of the five that are held
  rcases mem_known_iff.1 hkey with rfl | rfl | rfl | rfl | rfl <;>
    obtain ⟨v, -, hw'⟩ := exists_of_bind_eq_ok hread <;> cases hw' <;> split at h <;> simp_all

/-- The fields of a catalog are read by the rules for records. -/
theorem rules : RecordRules known isSet read {} Holds where
  holds_empty key := by
    unfold Holds
    split <;> first | rfl | exact .none
  mem_known {w key d} h := by
    by_contra hkey
    cases (holds_of_not_mem hkey).1 h
  isSet_eq {w key d?} hkey h := by
    rcases mem_known_iff.1 hkey with rfl | rfl | rfl | rfl | rfl <;> exact isSome_eq_of_rel h
  holds_of_read {w w' key content} hkey hread := by
    suffices hheld : ∃ d, content.datum? = some d ∧ w'.Holds key (some d) by
      obtain ⟨d, hd, hheld⟩ := hheld
      exact ⟨d, hd, hheld, fun k d? hk h => holds_of_ne hkey hread hk h⟩
    rcases mem_known_iff.1 hkey with rfl | rfl | rfl | rfl | rfl <;>
      obtain ⟨v, hv, hw'⟩ := exists_of_bind_eq_ok hread <;> cases hw'
    · exact ⟨_, Content.toTexts_eq_ok_iff.1 hv, .some rfl⟩
    · exact ⟨_, Content.toTexts_eq_ok_iff.1 hv, .some rfl⟩
    · exact ⟨_, Content.toBool_eq_ok_iff.1 hv, .some rfl⟩
    · obtain ⟨d, hd, his⟩ := dialect_eq_ok_iff.1 hv
      exact ⟨d, hd, .some his⟩
    · obtain ⟨d, hd, his⟩ := dialect_eq_ok_iff.1 hv
      exact ⟨d, hd, .some his⟩
  exists_read {w v key content d} hd h := by
    have hkey : key ∈ known := by
      by_contra hkey
      cases (holds_of_not_mem hkey).1 h
    rcases mem_known_iff.1 hkey with rfl | rfl | rfl | rfl | rfl <;>
      obtain ⟨x, -, his⟩ := exists_of_rel_some h
    · cases his
      exact ⟨_, by rw [read, Content.toTexts_eq_ok_iff.2 hd]; rfl⟩
    · cases his
      exact ⟨_, by rw [read, Content.toTexts_eq_ok_iff.2 hd]; rfl⟩
    · cases his
      exact ⟨_, by rw [read, Content.toBool_eq_ok_iff.2 hd]; rfl⟩
    · exact ⟨_, by rw [read, dialect_eq_ok_iff.2 ⟨d, hd, his⟩]; rfl⟩
    · exact ⟨_, by rw [read, dialect_eq_ok_iff.2 ⟨d, hd, his⟩]; rfl⟩
  eq_of_holds {w w'} h := by
    obtain ⟨_, hflags, hflags'⟩ := h "flags"
    obtain ⟨_, hcFiles, hcFiles'⟩ := h "c-files"
    obtain ⟨_, hcache, hcache'⟩ := h "cache"
    obtain ⟨_, hc, hc'⟩ := h "c"
    obtain ⟨_, hcpp, hcpp'⟩ := h "cpp"
    obtain ⟨flags, cFiles, cache, c, cpp⟩ := w
    obtain ⟨flags', cFiles', cache', c', cpp'⟩ := w'
    obtain rfl : flags = flags' := eq_of_rel rightUnique_isTexts hflags hflags'
    obtain rfl : cFiles = cFiles' := eq_of_rel rightUnique_isTexts hcFiles hcFiles'
    obtain rfl : cache = cache' := eq_of_rel rightUnique_isBoolean hcache hcache'
    obtain rfl : c = c' := eq_of_rel rightUnique_isDialect hc hc'
    obtain rfl : cpp = cpp' := eq_of_rel rightUnique_isDialect hcpp hcpp'
    rfl

/-- **A text is read as a catalog exactly if it is what the table of the text holds.** -/
theorem ofText_eq_ok_iff {text : String} {w : Written} :
    ofText text = .ok w ↔
      ∃ table, tableOfText? text = some table ∧ ∀ key, w.Holds key (table.lookup key) := by
  unfold ofText tableOfText? dataOfText?
  rw [mapError_eq_ok_iff]
  constructor
  · intro h
    obtain ⟨d, hd, h⟩ := exists_of_bind_eq_ok h
    rw [hd]
    exact rules.readFields_eq_ok_iff.1 (mapError_eq_ok_iff.1 h)
  · rintro ⟨table, htable, hholds⟩
    cases hd : Document.ofText text with
    | error f =>
      rw [hd] at htable
      cases htable
    | ok d =>
      rw [hd] at htable
      exact mapError_eq_ok_iff.2 (rules.readFields_eq_ok_iff.2 ⟨table, htable, hholds⟩)

end Written

/-! ## Catalogs as bytes -/

/-- **Bytes are a catalog exactly if they are a text whose table holds one.** -/
theorem decode_eq_ok_iff {data : Bytes} {catalog : Catalog} :
    decode data = .ok catalog ↔
      ∃ text table w, data = Utf8.encode text ∧ tableOfText? text = some table ∧
        (∀ key, w.Holds key (table.lookup key)) ∧ ofWritten w = .ok catalog := by
  constructor
  · intro h
    obtain ⟨text, htext, h⟩ := exists_of_bind_eq_ok h
    obtain ⟨w, hw, h⟩ := exists_of_bind_eq_ok h
    have hdata := mapError_eq_ok_iff.1 (mapError_eq_ok_iff.1 htext)
    have hread := mapError_eq_ok_iff.1 (mapError_eq_ok_iff.1 hw)
    obtain ⟨table, htable, hholds⟩ := Written.ofText_eq_ok_iff.1 hread
    exact ⟨text, table, w, Utf8.decode_eq_ok_iff.1 hdata, htable, hholds, h⟩
  · rintro ⟨text, table, w, rfl, htable, hholds, h⟩
    have hdata : Utf8.decode (Utf8.encode text) = .ok text := Utf8.decode_eq_ok_iff.2 rfl
    have hread : Written.ofText text = .ok w := Written.ofText_eq_ok_iff.2 ⟨table, htable, hholds⟩
    unfold decode
    rw [hdata, inContext, mapError_eq_ok_iff.2 (mapError_eq_ok_iff.2 rfl)]
    show inContext _ ((Written.ofText text).mapError _) >>= _ = _
    rw [inContext, mapError_eq_ok_iff.2 (mapError_eq_ok_iff.2 hread)]
    exact h

/-- A text is a catalog exactly if its table holds one. -/
theorem decode_encode_eq_ok_iff {text : String} {catalog : Catalog} :
    decode (Utf8.encode text) = .ok catalog ↔
      ∃ table w, tableOfText? text = some table ∧
        (∀ key, Written.Holds w key (table.lookup key)) ∧ ofWritten w = .ok catalog := by
  rw [decode_eq_ok_iff]
  constructor
  · rintro ⟨text', table, w, hdata, h⟩
    obtain rfl := Utf8.encode_injective hdata
    exact ⟨table, w, h⟩
  · rintro ⟨table, w, h⟩
    exact ⟨text, table, w, rfl, h⟩

/-- What is no catalog is told to be at fault. -/
theorem exists_fault_of_not_ok {data : Bytes} (h : ∀ catalog, decode data ≠ .ok catalog) :
    ∃ fault, decode data = .error fault := by
  cases hd : decode data with
  | error fault => exact ⟨fault, rfl⟩
  | ok catalog => exact absurd hd (h catalog)

/-! ## The schema -/

/-- The table follows the schema of a catalog, and `w` is what it holds. -/
structure Follows (table : List (String × Datum)) (w : Written) : Prop where
  keys : ∀ entry ∈ table, entry.1 ∈ ["flags", "c-files", "cache", "c", "cpp"]
  flags : table.lookup "flags" = w.flags.map .texts
  cFiles : table.lookup "c-files" = w.cFiles.map .texts
  cache : table.lookup "cache" = w.cache.map .boolean
  c : table.lookup "c" = w.c.map fun flags => .table [("flags", .texts flags)]
  cpp : table.lookup "cpp" = w.cpp.map fun flags => .table [("flags", .texts flags)]

/-- The ways in which a table is against the schema of a catalog. An array with the flags of a
language as its only item is none of them: it is read like a table with these flags. -/
inductive Violates (table : List (String × Datum)) : Prop where
  | unknownKey {key : String} {d : Datum} :
    (key, d) ∈ table → key ∉ ["flags", "c-files", "cache", "c", "cpp"] → Violates table
  | notTexts {key : String} {d : Datum} :
    (key, d) ∈ table → key ∈ ["flags", "c-files"] → (∀ l, d ≠ .texts l) → Violates table
  | notBoolean {d : Datum} : ("cache", d) ∈ table → (∀ b, d ≠ .boolean b) → Violates table
  | notTable {key : String} {d : Datum} :
    (key, d) ∈ table → key ∈ ["c", "cpp"] → (∀ inner, d ≠ .table inner) →
      (∀ l, d ≠ .array [.texts l]) → Violates table
  | unknownDialectKey {key k : String} {inner : List (String × Datum)} {d : Datum} :
    (key, .table inner) ∈ table → key ∈ ["c", "cpp"] → (k, d) ∈ inner → k ≠ "flags" →
      Violates table
  | noDialectFlags {key : String} {inner : List (String × Datum)} :
    (key, .table inner) ∈ table → key ∈ ["c", "cpp"] → (∀ d, ("flags", d) ∉ inner) →
      Violates table
  | dialectFlagsNotTexts {key : String} {inner : List (String × Datum)} {d : Datum} :
    (key, .table inner) ∈ table → key ∈ ["c", "cpp"] → ("flags", d) ∈ inner →
      (∀ l, d ≠ .texts l) → Violates table

theorem rel_map {α : Type} {is : Datum → α → Prop} {f : α → Datum} (hf : ∀ a, is (f a) a)
    (v? : Option α) : Option.Rel is (v?.map f) v? := by
  cases v? with
  | none => exact .none
  | some v => exact .some (hf v)

theorem Follows.holds {table : List (String × Datum)} {w : Written} (h : Follows table w)
    (key : String) : w.Holds key (table.lookup key) := by
  by_cases hkey : key ∈ Written.known
  · rcases Written.mem_known_iff.1 hkey with rfl | rfl | rfl | rfl | rfl
    · exact h.flags ▸ rel_map isTexts_texts w.flags
    · exact h.cFiles ▸ rel_map isTexts_texts w.cFiles
    · exact h.cache ▸ rel_map isBoolean_boolean w.cache
    · exact h.c ▸ rel_map (fun _ => .inl rfl) w.c
    · exact h.cpp ▸ rel_map (fun _ => .inl rfl) w.cpp
  · rw [Written.holds_of_not_mem hkey, List.lookup_eq_none_iff]
    intro entry hentry
    rw [bne_iff_ne]
    rintro rfl
    exact hkey (h.keys entry hentry)

theorem exists_isDialect {w : Written} {key : String} {d : Datum} (hkey : key ∈ ["c", "cpp"])
    (h : w.Holds key (some d)) : ∃ l, IsDialect d l := by
  rcases List.mem_pair.1 hkey with rfl | rfl
  · obtain ⟨l, -, hl⟩ := exists_of_rel_some h
    exact ⟨l, hl⟩
  · obtain ⟨l, -, hl⟩ := exists_of_rel_some h
    exact ⟨l, hl⟩

theorem exists_of_isDialect_table {w : Written} {key : String} {inner : List (String × Datum)}
    (hkey : key ∈ ["c", "cpp"]) (h : w.Holds key (some (.table inner))) :
    ∃ l, inner = [("flags", .texts l)] := by
  obtain ⟨l, hl | hl⟩ := exists_isDialect hkey h
  · exact ⟨l, Datum.table.inj hl⟩
  · cases hl

/-- A table against the schema is not what any catalog holds. -/
theorem Violates.not_holds {table : List (String × Datum)}
    (hsorted : table.Pairwise fun a b => a.1 < b.1) (h : Violates table) (w : Written) :
    ¬∀ key, w.Holds key (table.lookup key) := by
  intro hholds
  have hheld : ∀ {key d}, (key, d) ∈ table → w.Holds key (some d) := fun hmem =>
    Json.lookup_eq_some_of_mem hsorted hmem ▸ hholds _
  cases h with
  | unknownKey hmem hkey => cases (Written.holds_of_not_mem hkey).1 (hheld hmem)
  | notTexts hmem hkey hno =>
    have h := hheld hmem
    rcases List.mem_pair.1 hkey with rfl | rfl
    · obtain ⟨l, -, hl⟩ := exists_of_rel_some h
      exact hno l hl
    · obtain ⟨l, -, hl⟩ := exists_of_rel_some h
      exact hno l hl
  | notBoolean hmem hno =>
    obtain ⟨b, -, hb⟩ := exists_of_rel_some (hheld hmem)
    exact hno b hb
  | notTable hmem hkey htable harray =>
    obtain ⟨l, hl | hl⟩ := exists_isDialect hkey (hheld hmem)
    · exact htable _ hl
    · exact harray _ hl
  | unknownDialectKey hmem hkey hinner hother =>
    obtain ⟨l, rfl⟩ := exists_of_isDialect_table hkey (hheld hmem)
    exact hother (congrArg Prod.fst (List.mem_singleton.1 hinner))
  | noDialectFlags hmem hkey hno =>
    obtain ⟨l, rfl⟩ := exists_of_isDialect_table hkey (hheld hmem)
    exact hno _ List.mem_cons_self
  | dialectFlagsNotTexts hmem hkey hinner hno =>
    obtain ⟨l, rfl⟩ := exists_of_isDialect_table hkey (hheld hmem)
    exact hno l (congrArg Prod.snd (List.mem_singleton.1 hinner))

/-- The catalog of a text in the shape of one. -/
theorem Follows.decode_eq_ok_iff {text : String} {table : List (String × Datum)}
    (htable : tableOfText? text = some table) {w : Written} (h : Follows table w)
    {catalog : Catalog} :
    decode (Utf8.encode text) = .ok catalog ↔ ofWritten w = .ok catalog := by
  rw [decode_encode_eq_ok_iff]
  constructor
  · rintro ⟨table', w', htable', hholds, hw'⟩
    rw [htable, Option.some.injEq] at htable'
    subst htable'
    have hsame : w' = w :=
      Written.rules.eq_of_holds fun key => ⟨table.lookup key, hholds key, h.holds key⟩
    exact hsame ▸ hw'
  · intro hw
    exact ⟨table, w, htable, h.holds, hw⟩

/-- Keys can be written in any order. -/
theorem toOption_decode_perm {text text' : String} {data data' : List (String × Datum)}
    (hdata : dataOfText? text = some data) (hdata' : dataOfText? text' = some data')
    (hperm : data.Perm data') :
    (decode (Utf8.encode text)).toOption = (decode (Utf8.encode text')).toOption := by
  have htable : tableOfText? text = tableOfText? text' := by
    rw [tableOfText?, tableOfText?, hdata, hdata']
    exact entriesOf_perm hperm
  apply Option.ext
  intro catalog
  rw [toOption_eq_some_iff, toOption_eq_some_iff, decode_encode_eq_ok_iff,
    decode_encode_eq_ok_iff, htable]

/-- **A catalog is decoded by its schema.** Bytes that are no text, and texts that are no document
in which no key is there twice, are refused. A table that follows the schema is a catalog exactly if
the names of C files in it are not empty and hold no separator. The catalog then has what is
written, list by list in the given order, and where a key is absent no flags, no names, leave to
keep flags, or the built-in flags of that language, and no file. A table with another key, with a
value of another kind, or with a language whose table does not hold the flags and nothing else is
refused. Documents that differ in the order of their keys come to the same. -/
theorem decode_follows_schema :
    (∀ data : Bytes, (∀ text, data ≠ Utf8.encode text) → ∃ fault, decode data = .error fault) ∧
    (∀ text, tableOfText? text = none → ∃ fault, decode (Utf8.encode text) = .error fault) ∧
    (∀ text table, tableOfText? text = some table →
      (∀ w, Follows table w →
        ((∃ catalog, decode (Utf8.encode text) = .ok catalog) ↔
          ∀ name ∈ w.cFiles.getD [], name ≠ "" ∧ ∀ c ∈ name.toList, c ≠ '/' ∧ c ≠ '\\') ∧
        ∀ catalog, decode (Utf8.encode text) = .ok catalog →
          catalog = {
            flags := w.flags.getD []
            c := w.c.getD builtIn.c
            cpp := w.cpp.getD builtIn.cpp
            cFiles := w.cFiles.getD []
            cache := w.cache.getD true
            path := none }) ∧
      (Violates table → ∃ fault, decode (Utf8.encode text) = .error fault)) ∧
    ∀ text text' data data', dataOfText? text = some data → dataOfText? text' = some data' →
      data.Perm data' →
        (decode (Utf8.encode text)).toOption = (decode (Utf8.encode text')).toOption := by
  refine ⟨?_, ?_, ?_, fun _ _ _ _ => toOption_decode_perm⟩
  · intro data hdata
    apply exists_fault_of_not_ok
    intro catalog h
    obtain ⟨text, -, -, htext, -⟩ := decode_eq_ok_iff.1 h
    exact hdata text htext
  · intro text hnone
    apply exists_fault_of_not_ok
    intro catalog h
    obtain ⟨table, w, htable, -⟩ := decode_encode_eq_ok_iff.1 h
    rw [hnone] at htable
    cases htable
  · intro text table htable
    constructor
    · intro w hfollows
      constructor
      · constructor
        · rintro ⟨catalog, h⟩ name hname
          obtain ⟨hall, -⟩ := ofWritten_eq_ok_iff.1 ((hfollows.decode_eq_ok_iff htable).1 h)
          exact isLeaf_iff.1 (hall name hname)
        · intro hall
          refine ⟨_, (hfollows.decode_eq_ok_iff htable).2 (ofWritten_eq_ok_iff.2 ⟨?_, rfl⟩)⟩
          intro name hname
          exact isLeaf_iff.2 (hall name hname)
      · intro catalog h
        exact (ofWritten_eq_ok_iff.1 ((hfollows.decode_eq_ok_iff htable).1 h)).2
    · intro hviolates
      apply exists_fault_of_not_ok
      intro catalog h
      obtain ⟨table', w, htable', hholds, -⟩ := decode_encode_eq_ok_iff.1 h
      rw [htable, Option.some.injEq] at htable'
      subst htable'
      exact hviolates.not_holds (pairwise_of_bind_entriesOf htable) w hholds

/-- A catalog with three of its fields. -/
def someFields : String :=
  "cache = false\nc-files = ['arq.h', 'legacy.c']\n\n[cpp]\nflags = ['-std=c++17']\n"

/-- The same fields from the last to the first. -/
def someFieldsBackwards : String :=
  "cpp = \x7b flags = ['-std=c++17'] \x7d\nc-files = ['arq.h', 'legacy.c']\ncache = false\n"

/-- A document with a key that no catalog has. -/
def misspelt : String := "c_files = ['arq.h']\n"

/-- What `someFields` holds, the last field first. -/
def someData : List (String × Datum) :=
  [("cpp", .table [("flags", .texts ["-std=c++17"])]),
    ("c-files", .texts ["arq.h", "legacy.c"]), ("cache", .boolean false)]

theorem follows_someFields :
    Follows
      [("c-files", .texts ["arq.h", "legacy.c"]), ("cache", .boolean false),
        ("cpp", .table [("flags", .texts ["-std=c++17"])])]
      { cFiles := some ["arq.h", "legacy.c"], cache := some false,
        cpp := some ["-std=c++17"] } where
  keys := by decide
  flags := rfl
  cFiles := rfl
  cache := rfl
  c := rfl
  cpp := rfl

/-- What is not there is filled in, keys can change places, and a misspelt key is refused. -/
theorem decode_someFields :
    decode (Utf8.encode someFields) = .ok {
      flags := []
      c := ["-std=c99", "-x", "c"]
      cpp := ["-std=c++17"]
      cFiles := ["arq.h", "legacy.c"]
      cache := false
      path := none } ∧
    (decode (Utf8.encode someFieldsBackwards)).toOption =
      (decode (Utf8.encode someFields)).toOption ∧
    (∃ fault, decode (Utf8.encode misspelt) = .error fault) ∧
    ∃ fault, decode [0xff] = .error fault := by
  obtain ⟨hbytes, -, htables, hperm⟩ := decode_follows_schema
  refine ⟨?_, ?_, ?_, ?_⟩
  · obtain ⟨hok, hvalue⟩ := (htables someFields _ (by decide +kernel)).1 _ follows_someFields
    have hleaf : ∀ name ∈ ["arq.h", "legacy.c"], isLeaf name = true := by decide
    obtain ⟨catalog, hcatalog⟩ := hok.2 fun name hname => isLeaf_iff.1 (hleaf name hname)
    rw [hcatalog, hvalue catalog hcatalog]
    rfl
  · exact hperm someFieldsBackwards someFields someData.reverse someData (by decide +kernel)
      (by decide +kernel) someData.reverse_perm
  · exact (htables misspelt [("c_files", .texts ["arq.h"])] (by decide +kernel)).2
      (.unknownKey List.mem_cons_self (by decide))
  · apply hbytes
    intro text htext
    have hok : (Utf8.decode [0xff]).toOption = some text :=
      toOption_eq_some_iff.2 (Utf8.decode_eq_ok_iff.2 htext)
    have hnone : (Utf8.decode [0xff]).toOption = none := by decide +kernel
    rw [hok] at hnone
    cases hnone

end CompileFlags.Catalog
