import CompileFlags.Proofs.Lines
import CompileFlags.Proofs.Spelling
import Mathlib.Data.List.Infix

/-!
# The names of a path

What counts in an absolute path are its names, the pieces that are neither empty nor `.`: joining
puts names behind each other, and going up leaves out the last one.

* `backNames_join` — a relative path adds its names to those of a directory.
* `map_backNames_ancestors` — the names of an absolute path and of the paths above it are the names
  of the path without the last ones, one fewer each time.
* `isText_bytes_iff` — a path is a text exactly when all of its names are.
* `Root.ofString_join` — seen from a root, a text is the path that it is from the directory.
-/

namespace CompileFlags

namespace Path

/-- Whether a piece is a name: it is not empty, and not `.`. -/
def isName (piece : Bytes) : Bool := piece != [] && piece != [dot]

/-- The names of a path, the last one first. -/
def backNames (p : Path) : List Bytes := p.back.filter isName

/-- The names of a path, outermost first. -/
def names (p : Path) : List Bytes := p.segments.filter isName

theorem names_eq_reverse (p : Path) : p.names = p.backNames.reverse := by
  rw [names, segments, backNames, List.filter_reverse]

@[simp]
theorem isName_nil : isName [] = false := rfl

theorem isAbsolute_iff_getLast? (p : Path) : p.isAbsolute = true ↔ p.before.getLast? = some [] := by
  rw [isAbsolute, beq_iff_eq]

/-- The pieces of an absolute path end with an empty one. -/
theorem getLast?_back {p : Path} (h : p.isAbsolute = true) : p.back.getLast? = some [] := by
  rw [back, List.getLast?_cons, (isAbsolute_iff_getLast? p).1 h]
  rfl

theorem components_eq_names {p : Path} (h : p.isAbsolute = true) : p.components = p.names := by
  have hfirst : p.segments.head? = some [] := by
    rw [segments, List.head?_reverse, getLast?_back h]
  obtain ⟨rest, hrest⟩ := List.head?_eq_some_iff.1 hfirst
  rw [components, names, hrest]
  rfl

/-! ## Joining -/

theorem back_join {base p : Path} (h : p.isAbsolute = false) :
    (base.join p).back = p.back ++ if base.last.isEmpty then base.before else base.back := by
  rw [join, if_neg (by simp [h])]
  rfl

theorem backNames_join {base p : Path} (h : p.isAbsolute = false) :
    (base.join p).backNames = p.backNames ++ base.backNames := by
  rw [backNames, back_join h, List.filter_append]
  congr 1
  split
  · rename_i hl
    rw [backNames, back, List.isEmpty_iff.1 hl, List.filter_cons_of_neg (by simp)]
  · rfl

theorem names_join {base p : Path} (h : p.isAbsolute = false) :
    (base.join p).names = base.names ++ p.names := by
  rw [names_eq_reverse, backNames_join h, List.reverse_append, ← names_eq_reverse,
    ← names_eq_reverse]

/-! ## Spelling -/

/-- Cut at its slashes, what is joined with them is its pieces. -/
theorem pieces_joinPieces {ps : List Bytes} (hne : ps ≠ []) (h : ∀ piece ∈ ps, slash ∉ piece) :
    pieces (· == slash) (joinPieces [slash] ps) = ps := by
  induction ps with
  | nil => exact absurd rfl hne
  | cons piece more ih =>
    have hpiece : pieces (· == slash) piece = [piece] :=
      pieces_of_notMem (h piece List.mem_cons_self)
    by_cases hmore : more = []
    · rw [hmore]
      exact hpiece
    · have hrest := ih hmore fun q hq => h q (List.mem_cons_of_mem _ hq)
      rw [joinPieces_cons_of_ne_nil _ _ hmore, List.append_assoc, List.singleton_append,
        pieces_append_cons (by decide), hpiece, hrest]
      rfl

theorem pieces_bytes (p : Path) : pieces (· == slash) p.bytes = p.segments := by
  apply pieces_joinPieces
  · simp [segments, back]
  · intro piece h
    exact p.slash_notMem piece (List.mem_reverse.1 h)

/-- What a path is spelled with gives the path again. -/
theorem ofBytes_bytes (p : Path) : ofBytes p.bytes = p := by
  have hback : (pieces (· == slash) p.bytes).reverse = p.last :: p.before := by
    rw [pieces_bytes, segments, List.reverse_reverse, back]
  unfold ofBytes ofBack
  split
  · rename_i h _
    rw [hback] at h
    cases h
  · rename_i h _
    rw [hback] at h
    cases h
    rfl

/-! ## Going up -/

/-- Pieces of an absolute path, from the end. -/
def Rooted (ps : List Bytes) : Prop := ps.getLast? = some []

theorem Rooted.of_cons {piece : Bytes} {before : List Bytes} (h : Rooted (piece :: before))
    (hb : before ≠ []) : Rooted before := by
  rw [Rooted, List.getLast?_cons_of_ne_nil hb] at h
  exact h

/-- In an absolute path the components are the names. -/
theorem isComponent_of_rooted {piece : Bytes} {before : List Bytes}
    (h : Rooted (piece :: before)) : isComponent piece before = isName piece := by
  cases before with
  | nil =>
    rw [Rooted, List.getLast?_singleton, Option.some.injEq] at h
    rw [h]
    rfl
  | cons q before => simp [isComponent, isName]

theorem trimmed_cases {ps : List Bytes} (h : Rooted ps) :
    (trimmed ps = [] ∧ ps.filter isName = []) ∨
      ∃ name before, trimmed ps = name :: before ∧ Rooted before ∧
        ps.filter isName = name :: before.filter isName := by
  induction ps with
  | nil => cases h
  | cons piece before ih =>
    rw [trimmed, isComponent_of_rooted h, List.filter_cons]
    cases hn : isName piece with
    | true =>
      refine .inr ⟨piece, before, if_pos rfl, ?_, if_pos rfl⟩
      apply h.of_cons
      rintro rfl
      rw [Rooted, List.getLast?_singleton, Option.some.injEq] at h
      rw [h] at hn
      cases hn
    | false =>
      by_cases hb : before = []
      · rw [hb]
        exact .inl ⟨rfl, rfl⟩
      · exact ih (h.of_cons hb)

/-- Without its last component an absolute path has its names but the last one. -/
theorem dropLast?_cases {ps : List Bytes} (h : Rooted ps) :
    (dropLast? ps = none ∧ ps.filter isName = []) ∨
      ∃ name qs, dropLast? ps = some qs ∧ (qs = [] ∨ Rooted qs.tail) ∧
        ps.filter isName = name :: qs.filter isName := by
  rcases trimmed_cases h with ⟨ht, hn⟩ | ⟨name, before, ht, hb, hn⟩
  · exact .inl ⟨by rw [dropLast?, ht], hn⟩
  · refine .inr ⟨name, trimmed before, by rw [dropLast?, ht], ?_⟩
    rw [hn]
    rcases trimmed_cases hb with ⟨ht', hn'⟩ | ⟨name', before', ht', hb', hn'⟩
    · rw [ht', hn']
      exact ⟨.inl rfl, rfl⟩
    · have hname : name' ∈ before.filter isName := hn' ▸ List.mem_cons_self
      rw [ht', hn', List.filter_cons_of_pos (List.mem_filter.1 hname).2]
      exact ⟨.inr hb', rfl⟩

theorem isAbsolute_ofBack {qs : List Bytes} (h : qs = [] ∨ Rooted qs.tail)
    (hs : ∀ piece ∈ qs, slash ∉ piece) : (ofBack true qs hs).isAbsolute = true := by
  cases qs with
  | nil => rfl
  | cons q before =>
    rcases h with h | h
    · cases h
    · exact (isAbsolute_iff_getLast? _).2 h

theorem backNames_ofBack (rooted : Bool) (qs : List Bytes) (hs : ∀ piece ∈ qs, slash ∉ piece) :
    (ofBack rooted qs hs).backNames = qs.filter isName := by
  cases qs with
  | nil => cases rooted <;> rfl
  | cons q qs => rfl

theorem Rooted.cons (piece : Bytes) {before : List Bytes} (h : Rooted before) :
    Rooted (piece :: before) := by
  have hb : before.getLast? = some [] := h
  rw [Rooted, List.getLast?_cons, hb]
  rfl

theorem Rooted.of_tail {ps : List Bytes} (h : Rooted ps.tail) : Rooted ps := by
  cases ps with
  | nil => cases h
  | cons piece before => exact h.cons piece

/-- Each step of a climb leaves out one name. -/
theorem climb_of_rooted (ps : List Bytes) (hs : ∀ piece ∈ ps, slash ∉ piece)
    (h : ps = [] ∨ Rooted ps) :
    (∀ q ∈ climb true ps hs, q.isAbsolute = true) ∧
      (climb true ps hs).map backNames = (ps.filter isName).tails.tail := by
  fun_induction climb true ps hs with
  | case1 ps hs hd =>
    -- no component is left, so no name is
    have hn : ps.filter isName = [] := by
      rcases h with rfl | h
      · rfl
      · rcases dropLast?_cases h with ⟨-, hn⟩ | ⟨name, qs, hd', -⟩
        · exact hn
        · rw [hd] at hd'
          cases hd'
    rw [hn]
    exact ⟨fun q hq => absurd hq List.not_mem_nil, rfl⟩
  | case2 ps hs qs hd ih =>
    have hps : Rooted ps := by
      rcases h with rfl | h
      · cases hd
      · exact h
    rcases dropLast?_cases hps with ⟨hd', -⟩ | ⟨name, qs', hd', hq, hn⟩
    · rw [hd] at hd'
      cases hd'
    · rw [hd] at hd'
      cases hd'
      obtain ⟨habs, hmap⟩ := ih (hq.imp_right Rooted.of_tail)
      constructor
      · intro q hmem
        rcases List.mem_cons.1 hmem with rfl | hmem
        · exact isAbsolute_ofBack hq _
        · exact habs q hmem
      · rw [List.map_cons, hmap, backNames_ofBack, hn, List.tails_cons, List.tail_cons]
        cases qs.filter isName <;> rfl

/-- Every path above an absolute path is absolute. -/
theorem isAbsolute_of_mem_ancestors {p a : Path} (h : p.isAbsolute = true)
    (ha : a ∈ p.ancestors) : a.isAbsolute = true := by
  rw [ancestors, h] at ha
  rcases List.mem_cons.1 ha with rfl | ha
  · exact h
  · exact (climb_of_rooted p.back p.slash_notMem (.inr (getLast?_back h))).1 a ha

/-- The names of an absolute path and of the paths above it are the names of the path without the
last ones, one fewer each time. -/
theorem map_backNames_ancestors {p : Path} (h : p.isAbsolute = true) :
    p.ancestors.map backNames = p.backNames.tails := by
  rw [ancestors, h, List.map_cons,
    (climb_of_rooted p.back p.slash_notMem (.inr (getLast?_back h))).2, ← backNames]
  cases p.backNames <;> rfl

/-- The parent of an absolute path has its names but the last one. -/
theorem exists_parent?_of_backNames {p : Path} {name : Bytes} {rest : List Bytes}
    (h : p.isAbsolute = true) (hn : p.backNames = name :: rest) :
    ∃ dir, p.parent? = some dir ∧ dir.isAbsolute = true ∧ dir.backNames = rest := by
  rcases dropLast?_cases (getLast?_back h) with ⟨-, hn'⟩ | ⟨name', qs, hd, hq, hn'⟩
  · rw [backNames, hn'] at hn
    cases hn
  · rw [backNames, hn'] at hn
    cases hn
    unfold parent?
    split
    · rename_i hd'
      rw [hd] at hd'
      cases hd'
    · rename_i qs' hd'
      rw [hd] at hd'
      cases hd'
      refine ⟨_, rfl, ?_, backNames_ofBack _ _ _⟩
      simp only [h]
      exact isAbsolute_ofBack hq _

/-! ## Paths that are texts -/

/-- Whether bytes are a text. -/
def IsText (bs : Bytes) : Prop := ∃ s, bs = Utf8.encode s

/-- Bytes are a text exactly if they can be read as one. -/
theorem isText_iff_isOk_decode (bs : Bytes) : IsText bs ↔ (Utf8.decode bs).isOk = true := by
  constructor
  · rintro ⟨s, rfl⟩
    rw [Utf8.decode_encode]
    rfl
  · intro h
    cases hd : Utf8.decode bs with
    | ok s => exact ⟨s, Utf8.decode_eq_ok_iff.1 hd⟩
    | error e =>
      rw [hd] at h
      cases h

instance (bs : Bytes) : Decidable (IsText bs) := decidable_of_iff' _ (isText_iff_isOk_decode bs)

theorem IsText.append {a b : Bytes} (ha : IsText a) (hb : IsText b) : IsText (a ++ b) := by
  obtain ⟨s, rfl⟩ := ha
  obtain ⟨t, rfl⟩ := hb
  exact ⟨s ++ t, (Utf8.encode_append s t).symm⟩

theorem isText_joinPieces {ps : List Bytes} (h : ∀ piece ∈ ps, IsText piece) :
    IsText (joinPieces [slash] ps) := by
  induction ps with
  | nil => exact ⟨"", rfl⟩
  | cons piece more ih =>
    have hpiece := h piece List.mem_cons_self
    have hrest := ih fun q hq => h q (List.mem_cons_of_mem _ hq)
    cases more with
    | nil => exact hpiece
    | cons q more => exact (hpiece.append ⟨"/", rfl⟩).append hrest

/-- A text is cut at the slashes among its characters. -/
theorem pieces_encodeChars_slash (cs : List Char) :
    pieces (· == slash) (Utf8.encodeChars cs) = (pieces (· == '/') cs).map Utf8.encodeChars := by
  apply pieces_encodeChars
  · intro c hc
    rw [beq_iff_eq] at hc
    subst hc
    exact ⟨slash, rfl, rfl⟩
  · intro c hc b hb
    rw [beq_eq_false_iff_ne] at hc ⊢
    rintro rfl
    exact hc ((Utf8.ofNat_mem_encodeChar_iff (a := '/') (by decide)).1 hb)

/-- A path is a text exactly when all of its names are. -/
theorem isText_bytes_iff (p : Path) : IsText p.bytes ↔ ∀ name ∈ p.names, IsText name := by
  constructor
  · rintro ⟨s, hs⟩ name hname
    have hmem : name ∈ (pieces (· == '/') s.toList).map Utf8.encodeChars := by
      rw [← pieces_encodeChars_slash]
      show name ∈ pieces (· == slash) (Utf8.encode s)
      rw [← hs, pieces_bytes]
      exact (List.mem_filter.1 hname).1
    obtain ⟨cs, -, rfl⟩ := List.mem_map.1 hmem
    exact ⟨.ofList cs, by rw [Utf8.encode, String.toList_ofList]⟩
  · intro h
    apply isText_joinPieces
    intro piece hp
    cases hn : isName piece with
    | true => exact h piece (List.mem_filter.2 ⟨hp, hn⟩)
    | false =>
      rw [isName, Bool.and_eq_false_iff, bne_eq_false_iff_eq, bne_eq_false_iff_eq] at hn
      rcases hn with rfl | rfl
      · exact ⟨"", rfl⟩
      · exact ⟨".", rfl⟩

theorem isText_ofString (s : String) : IsText (ofString s).bytes :=
  ⟨s, by rw [ofString, bytes_ofBytes]⟩

/-- A path that is a text is found again from what is shown of it. -/
theorem ofString_display {p : Path} (h : IsText p.bytes) : ofString p.display = p := by
  obtain ⟨s, hs⟩ := h
  rw [ofString, display, hs, Utf8.lossy_encode, ← hs, ofBytes_bytes]

theorem isText_bytes_join {base p : Path} (hb : IsText base.bytes) (hp : IsText p.bytes) :
    IsText (base.join p).bytes := by
  cases h : p.isAbsolute with
  | true =>
    rw [join_of_isAbsolute h]
    exact hp
  | false =>
    rw [isText_bytes_iff] at hb hp ⊢
    rw [names_join h]
    intro name hname
    exact (List.mem_append.1 hname).elim (hb name) (hp name)

end Path

/-- Seen from a root, a text is the path that it is from the directory. -/
theorem Root.ofString_join (r : Root) (s : String) :
    Path.ofString (r.join s) = r.path.join (.ofString s) :=
  Path.ofString_display (Path.isText_bytes_join (Path.isText_ofString _) (Path.isText_ofString _))

end CompileFlags
