import CompileFlags.Text.Pieces
import CompileFlags.Text.Utf8

/-!
# Paths

A path is a run of bytes in which slashes separate pieces. It is kept as its pieces, from the end,
so that a path and the paths above it share what they have in common. No piece is lost: joining and
taking the parent only cut and glue, they look at no file and resolve no `.` or `..`.

* `bytes_ofBytes` — a path is spelled as it was.
* `join` puts a path after a directory, unless the path is absolute already.
* `components` are the names on the way; `.` and empty pieces are not names, `..` is one.
* `parent?` leaves out the last component, and `ancestors` repeats that until none is left.
-/

namespace CompileFlags

/-- The byte between two pieces. -/
def Path.slash : UInt8 := 0x2F

/-- A path, as the pieces between its slashes. -/
structure Path where
  /-- The piece after the last slash. -/
  last : Bytes
  /-- The pieces before it, from the end. -/
  before : List Bytes
  slash_notMem : ∀ piece ∈ last :: before, Path.slash ∉ piece
  deriving DecidableEq, Repr

namespace Path

/-- The byte of the name that stands for a directory itself. -/
def dot : UInt8 := 0x2E

/-- The empty path. -/
def empty : Path := ⟨[], [], by simp⟩

/-- The root directory. -/
def root : Path := ⟨[], [[]], by simp⟩

instance : Inhabited Path := ⟨empty⟩

/-- The pieces of a path, from the end. -/
def back (p : Path) : List Bytes := p.last :: p.before

/-- The pieces of a path between its slashes. -/
def segments (p : Path) : List Bytes := p.back.reverse

/-- The bytes that a path is spelled with. -/
def bytes (p : Path) : Bytes := joinPieces [slash] p.segments

/-- The path of pieces from the end. Without pieces it is the root directory if it is `rooted`, or
else empty. -/
def ofBack (rooted : Bool) (ps : List Bytes) (h : ∀ piece ∈ ps, slash ∉ piece) : Path :=
  match ps, h with
  | [], _ => if rooted then root else empty
  | piece :: before, h => ⟨piece, before, h⟩

/-- The path that bytes spell. -/
def ofBytes (bs : Bytes) : Path :=
  ofBack false (pieces (· == slash) bs).reverse (by
    intro piece h hs
    have := not_isSep_of_mem_pieces (List.mem_reverse.1 h) slash hs
    simp at this)

/-- The path that a text spells. -/
def ofString (s : String) : Path := ofBytes (Utf8.encode s)

/-- A path is spelled as it was. -/
theorem bytes_ofBytes (bs : Bytes) : (ofBytes bs).bytes = bs := by
  unfold ofBytes ofBack
  split
  · rename_i h _
    exact absurd (List.reverse_eq_nil_iff.1 h) (pieces_ne_nil _ _)
  · rename_i h _
    simp only [bytes, segments, back, ← h, List.reverse_reverse]
    exact flatten_pieces slash bs

/-- The path as messages show it. -/
def display (p : Path) : String := Utf8.lossy p.bytes

/-- The number of bytes of a path. -/
def size (p : Path) : Nat := p.before.foldl (fun n piece => n + (piece.length + 1)) p.last.length

theorem size_eq_length_bytes (p : Path) : p.size = p.bytes.length := by
  have h : ∀ (ps : List Bytes) (n : Nat), ps.foldl (fun n piece => n + (piece.length + 1)) n =
      n + ps.flatten.length + ps.length := by
    intro ps
    induction ps with
    | nil => simp
    | cons piece ps ih =>
      intro n
      simp only [List.foldl_cons, ih, List.flatten_cons, List.length_append, List.length_cons]
      omega
  simp [size, h, bytes, segments, back, length_joinPieces, List.sum_reverse]
  omega

/-- Whether a path starts at the root directory: it has a slash, and nothing before the first. -/
def isAbsolute (p : Path) : Bool := p.before.getLast? == some []

/-- A path seen from a directory: an absolute path stands for itself, any other follows the
directory after exactly one slash, unless the directory is empty. -/
def join (base p : Path) : Path :=
  if p.isAbsolute then p
  else
    let above := if base.last.isEmpty then base.before else base.back
    ⟨p.last, p.before ++ above, by
      intro piece h
      have h' : piece ∈ p.back ∨ piece ∈ base.back := by
        rcases List.mem_append.1 (List.cons_append ▸ h) with h | h
        · exact .inl h
        · refine .inr ?_
          simp only [above] at h
          split at h
          · exact List.mem_cons_of_mem _ h
          · exact h
      exact h'.elim (p.slash_notMem piece) (base.slash_notMem piece)⟩

theorem join_of_isAbsolute {base p : Path} (h : p.isAbsolute = true) : base.join p = p := by
  simp [join, h]

/-- What is seen from an absolute directory is absolute. -/
theorem isAbsolute_join {base : Path} (h : base.isAbsolute = true) (p : Path) :
    (base.join p).isAbsolute = true := by
  unfold join
  split
  · assumption
  · simp only [isAbsolute, beq_iff_eq, List.getLast?_append] at h ⊢
    split <;> simp [back, h, List.getLast?_cons]

/-! ## Components -/

/-- Whether a piece is a component, given the pieces before it. An empty piece is none, and `.` is
one only at the start of a relative path. -/
def isComponent (piece : Bytes) (before : List Bytes) : Bool :=
  piece != [] && (piece != [dot] || before.isEmpty)

/-- The components of a path, outermost first. -/
def components (p : Path) : List Bytes :=
  match p.segments with
  | [] => []
  | first :: rest =>
    let names := rest.filter fun piece => piece != [] && piece != [dot]
    if first = [] then names else first :: names

/-! ## Parents

The pieces are taken from the end: `piece :: before` is a path whose last piece is `piece`. -/

/-- Leaves out the pieces at the end that are no components. -/
def trimmed : List Bytes → List Bytes
  | [] => []
  | piece :: before => if isComponent piece before then piece :: before else trimmed before

theorem trimmed_suffix (ps : List Bytes) : trimmed ps <:+ ps := by
  induction ps with
  | nil => exact List.suffix_refl []
  | cons piece before ih =>
    simp only [trimmed]
    split
    · exact List.suffix_refl _
    · exact ih.trans (List.suffix_cons piece before)

/-- Leaves out the last component and what else is no component before it. -/
def dropLast? (ps : List Bytes) : Option (List Bytes) :=
  match trimmed ps with
  | [] => none
  | _ :: before => some (trimmed before)

/-- What is left without the last component is the end of a shorter path. -/
theorem suffix_of_dropLast? {ps qs : List Bytes} (h : dropLast? ps = some qs) :
    qs <:+ ps ∧ qs.length < ps.length := by
  unfold dropLast? at h
  split at h
  · simp at h
  · rename_i piece before ht
    have h1 := trimmed_suffix ps
    have h2 := trimmed_suffix before
    have h3 := h1.length_le
    have h4 := h2.length_le
    rw [ht] at h1 h3
    simp only [Option.some.injEq] at h
    subst h
    refine ⟨h2.trans ((List.suffix_cons piece before).trans h1), ?_⟩
    simp only [List.length_cons] at h3
    omega

theorem slash_notMem_of_dropLast? {ps qs : List Bytes} (h : dropLast? ps = some qs)
    (hp : ∀ piece ∈ ps, slash ∉ piece) : ∀ piece ∈ qs, slash ∉ piece :=
  fun piece hq => hp piece ((suffix_of_dropLast? h).1.subset hq)

/-- A path without its last component, if it has one. -/
def parent? (p : Path) : Option Path :=
  match _h : dropLast? p.back with
  | none => none
  | some qs => some (ofBack p.isAbsolute qs (slash_notMem_of_dropLast? _h p.slash_notMem))

/-- The paths that are left after each removal of a last component. -/
def climb (rooted : Bool) (ps : List Bytes) (h : ∀ piece ∈ ps, slash ∉ piece) : List Path :=
  match _h : dropLast? ps with
  | none => []
  | some qs =>
    ofBack rooted qs (slash_notMem_of_dropLast? _h h) ::
      climb rooted qs (slash_notMem_of_dropLast? _h h)
termination_by ps.length
decreasing_by exact (suffix_of_dropLast? _h).2

/-- A path, its parent, the parent of that, and so on. -/
def ancestors (p : Path) : List Path := p :: climb p.isAbsolute p.back p.slash_notMem

/-! ## Names to walk -/

/-- One step of a walk through directories. -/
inductive Step where
  /-- Stay in the directory. -/
  | here
  /-- Go to the directory that holds it. -/
  | up
  /-- Go to what has this name in it. -/
  | down (name : Bytes)
  deriving DecidableEq, Repr

/-- The step that a piece of a path asks for. -/
def Step.ofPiece (piece : Bytes) : Step :=
  if piece = [] || piece = [dot] then .here
  else if piece = [dot, dot] then .up
  else .down piece

/-- The steps of a path. -/
def steps (p : Path) : List Step := p.segments.map Step.ofPiece

end Path

end CompileFlags
