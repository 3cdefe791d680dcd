import CompileFlags.FileSystem
import CompileFlags.Proofs.Components

/-!
# Where walks lead

A walk from the root follows the names of a path, of which `..` goes back up; the pieces that are no
names change nothing, as long as there is somewhere to go on from.

* `Node.wellNamed` — all names in a tree are ones that a file can have.
* `resolve_eq_reach` — a path that ends in a file name leads where its names lead.
* `nodeAt_walk` — names without `..` lead to what they lead to in the tree.
* `nodeAt_resolve` — the same for a path that ends in a file name.
* `reach_namesOf` — a path that exists, seen from the working directory, leads where its names from
  the root lead.
-/

namespace CompileFlags

open CompileFlags.Path (isName Step)

/-! ## Names of files -/

/-- The name that stands for the directory above. -/
def Path.dotdot : Bytes := [Path.dot, Path.dot]

/-- Whether a file can have a name. -/
def Path.isFileName (name : Bytes) : Bool :=
  isName name && name != dotdot && !name.contains slash && !name.contains 0 &&
    decide (name.length ≤ Workplace.maxName)

/-- With another byte than a dot in it, a piece is a name. -/
theorem Path.isName_of_mem {piece : Bytes} {b : UInt8} (h : b ∈ piece) (hb : b ≠ dot) :
    isName piece = true := by
  rw [isName, Bool.and_eq_true, bne_iff_ne, bne_iff_ne]
  constructor
  · rintro rfl
    cases h
  · rintro rfl
    exact hb (List.mem_singleton.1 h)

/-- What it takes to be the name of a file. -/
structure Path.FileName (name : Bytes) : Prop where
  isName : isName name = true
  ne_dotdot : name ≠ dotdot
  slash_notMem : slash ∉ name
  zero_notMem : 0 ∉ name
  length_le : name.length ≤ Workplace.maxName

theorem Path.isFileName_iff (name : Bytes) : isFileName name = true ↔ FileName name := by
  simp only [isFileName, Bool.and_eq_true, bne_iff_ne, Bool.not_eq_true', List.contains_eq_mem,
    decide_eq_false_iff_not, decide_eq_true_eq]
  constructor
  · rintro ⟨⟨⟨⟨h1, h2⟩, h3⟩, h4⟩, h5⟩
    exact ⟨h1, h2, h3, h4, h5⟩
  · rintro ⟨h1, h2, h3, h4, h5⟩
    exact ⟨⟨⟨⟨h1, h2⟩, h3⟩, h4⟩, h5⟩

/-- A piece that is no name is for staying. -/
theorem Path.Step.ofPiece_bne_here (piece : Bytes) : (ofPiece piece != .here) = isName piece := by
  rw [ofPiece, isName]
  by_cases h1 : piece = []
  · rw [h1]
    rfl
  · by_cases h2 : piece = [dot]
    · rw [h2]
      rfl
    · rw [if_neg (by simp [h1, h2]), bne_iff_ne.2 h1, bne_iff_ne.2 h2]
      split <;> rfl

/-- A name is for going down, unless it is `..`. -/
theorem Path.Step.ofPiece_of_isName {name : Bytes} (h : isName name = true) (hd : name ≠ dotdot) :
    ofPiece name = .down name := by
  rw [isName, Bool.and_eq_true, bne_iff_ne, bne_iff_ne] at h
  exact (if_neg (by simp [h.1, h.2])).trans (if_neg hd)

theorem Path.FileName.step {name : Bytes} (h : FileName name) : Step.ofPiece name = .down name :=
  Step.ofPiece_of_isName h.isName h.ne_dotdot

namespace Node

/-- Whether a node is a file. -/
def isFile : Node → Bool
  | .file _ => true
  | .directory _ => false

mutual

/-- Whether all names in a tree are ones that files can have. -/
def wellNamed : Node → Bool
  | .file _ => true
  | .directory entries => wellNamedEntries entries

/-- The same for the entries of a directory. -/
def wellNamedEntries : List (Bytes × Node) → Bool
  | [] => true
  | (name, node) :: rest => Path.isFileName name && node.wellNamed && wellNamedEntries rest

end

theorem wellNamed_of_child? {node child : Node} {name : Bytes} (hw : node.wellNamed = true)
    (h : node.child? name = some child) : Path.FileName name ∧ child.wellNamed = true := by
  cases node with
  | file data => cases h
  | directory entries =>
    rw [wellNamed] at hw
    rw [child?] at h
    induction entries with
    | nil => cases h
    | cons entry rest ih =>
      obtain ⟨k, node⟩ := entry
      rw [wellNamedEntries, Bool.and_eq_true, Bool.and_eq_true] at hw
      obtain ⟨⟨hk, hn⟩, hrest⟩ := hw
      rw [List.lookup_cons] at h
      split at h
      · rename_i hkey
        rw [beq_iff_eq] at hkey
        cases h
        subst hkey
        exact ⟨(Path.isFileName_iff _).1 hk, hn⟩
      · exact ih hrest h

/-- Names that lead to something are names of files. -/
theorem wellNamed_of_find? {node child : Node} {names : List Bytes} (hw : node.wellNamed = true)
    (h : node.find? names = some child) :
    (∀ name ∈ names, Path.FileName name) ∧ child.wellNamed = true := by
  induction names generalizing node with
  | nil =>
    cases h
    exact ⟨fun name hname => absurd hname List.not_mem_nil, hw⟩
  | cons name rest ih =>
    obtain ⟨next, hnext, h⟩ := Option.bind_eq_some_iff.1 h
    obtain ⟨hname, hw⟩ := wellNamed_of_child? hw hnext
    obtain ⟨hrest, hchild⟩ := ih hw h
    refine ⟨?_, hchild⟩
    intro n hn
    rcases List.mem_cons.1 hn with rfl | hn
    · exact hname
    · exact hrest n hn

end Node

namespace Workplace

variable (w : Workplace)

/-! ## Walking on -/

theorem walk_append (trail : Trail) (a b : List Step) :
    w.walk trail (a ++ b) = (w.walk trail a).bind fun trail => w.walk trail b := by
  induction a generalizing trail with
  | nil => rfl
  | cons next a ih =>
    rw [List.cons_append, walk, walk]
    cases w.step trail next with
    | error e => rfl
    | ok trail => exact ih trail

theorem walk_singleton (trail : Trail) (next : Step) :
    w.walk trail [next] = w.step trail next := by
  rw [walk]
  cases w.step trail next <;> rfl

/-- From a file there is nowhere to go. -/
theorem step_of_file {trail : Trail} {data : Bytes} (h : w.nodeAt trail = some (.file data))
    (next : Step) : w.step trail next = .error .notADirectory := by
  rw [step, h]

/-- Everything that a step can do. -/
theorem step_cases {trail trail' : Trail} {next : Step} (h : w.step trail next = .ok trail') :
    (next = .here ∧ trail' = trail) ∨ (next = .up ∧ trail' = trail.tail) ∨
      ∃ name child, next = .down name ∧ (w.nodeAt trail).bind (Node.child? name) = some child ∧
        trail' = (name, some child) :: trail := by
  unfold step at h
  split at h
  · cases h
  · cases next with
    | here =>
      cases h
      exact .inl ⟨rfl, rfl⟩
    | up =>
      cases h
      exact .inr (.inl ⟨rfl, rfl⟩)
    | down name =>
      simp only at h
      split at h
      · cases h
      · split at h
        · cases h
        · split at h
          · rename_i child hc
            cases h
            exact .inr (.inr ⟨name, child, rfl, hc, rfl⟩)
          · cases h

theorem step_here {trail trail' : Trail} (h : w.step trail .here = .ok trail') :
    trail' = trail := by
  rcases w.step_cases h with ⟨-, rfl⟩ | ⟨h, -⟩ | ⟨name, child, h, -⟩
  · rfl
  · cases h
  · cases h

/-- Staying where one is changes nothing about the next step. -/
theorem walk_here_cons (trail : Trail) (next : Step) (rest : List Step) :
    w.walk trail (.here :: next :: rest) = w.walk trail (next :: rest) := by
  rw [walk]
  cases h : w.step trail .here with
  | ok trail' => rw [w.step_here h]
  | error e =>
    unfold step at h
    split at h
    · rename_i data hn
      cases h
      rw [walk, w.step_of_file hn]
    · cases h

/-- Before a last step down, staying where one is changes nothing. Without such a step it can: one
cannot stay at a file. -/
theorem walk_filter_concat (trail : Trail) (steps : List Step) (name : Bytes) :
    w.walk trail (steps ++ [.down name]) =
      w.walk trail (steps.filter (· != .here) ++ [.down name]) := by
  induction steps generalizing trail with
  | nil => rfl
  | cons next steps ih =>
    by_cases hn : next = .here
    · subst hn
      obtain ⟨s, more, hm⟩ := List.exists_cons_of_ne_nil
        (List.append_ne_nil_of_right_ne_nil steps (List.cons_ne_nil (Step.down name) []))
      rw [List.filter_cons_of_neg (by simp), ← ih, List.cons_append, hm, walk_here_cons]
    · rw [List.filter_cons_of_pos (by simpa using hn), List.cons_append, List.cons_append, walk,
        walk]
      cases w.step trail next with
      | error e => rfl
      | ok trail => exact ih trail

/-- A walk that arrives also arrives without staying where it is. -/
theorem walk_filter {trail trail' : Trail} {steps : List Step}
    (h : w.walk trail steps = .ok trail') :
    w.walk trail (steps.filter (· != .here)) = .ok trail' := by
  induction steps generalizing trail with
  | nil => exact h
  | cons next steps ih =>
    rw [walk] at h
    cases hs : w.step trail next with
    | error e =>
      rw [hs] at h
      cases h
    | ok trail1 =>
      rw [hs] at h
      by_cases hn : next = .here
      · subst hn
        rw [List.filter_cons_of_neg (by simp), ← w.step_here hs]
        exact ih h
      · rw [List.filter_cons_of_pos (by simpa using hn), walk, hs]
        exact ih h

/-! ## Names from the root -/

/-- The steps that are not for staying are those of the names. -/
theorem filter_map_ofPiece (ps : List Bytes) :
    (ps.map Step.ofPiece).filter (· != .here) = (ps.filter isName).map Step.ofPiece := by
  rw [List.filter_map]
  congr 2
  funext piece
  exact Step.ofPiece_bne_here piece

/-- The trail along names from the root, outermost first. -/
def reach (names : List Bytes) : Except IoError Trail := w.walk [] (names.map Step.ofPiece)

theorem reach_append (a b : List Bytes) :
    w.reach (a ++ b) = (w.reach a).bind fun trail => w.walk trail (b.map Step.ofPiece) := by
  rw [reach, List.map_append, walk_append]
  rfl

/-- A path that ends in a file name leads where its names lead. -/
theorem resolve_eq_reach {p : Path} (habs : p.isAbsolute = true) (hlast : Path.FileName p.last)
    (hzero : ∀ name ∈ p.names, 0 ∉ name) (hsize : p.size < minTooLong) :
    w.resolve p = w.reach p.names := by
  have hsteps : p.steps = p.before.reverse.map Step.ofPiece ++ [.down p.last] := by
    rw [Path.steps, Path.segments_eq, List.map_append, List.map_singleton, hlast.step]
  have hnames : p.names = p.before.reverse.filter isName ++ [p.last] := by
    rw [Path.names, Path.segments_eq, List.filter_append, List.filter_cons_of_pos hlast.isName]
    rfl
  -- an absolute path has at least its first slash
  have hpos : p.size ≠ 0 := by
    intro h
    rw [Path.size_eq_length_bytes, List.length_eq_zero_iff] at h
    have hhead := (Path.isAbsolute_iff p).1 habs
    rw [h] at hhead
    cases hhead
  rw [resolve, if_neg, if_neg hpos, if_neg (Nat.not_le.2 hsize), if_pos habs, hsteps,
    walk_filter_concat, filter_map_ofPiece, reach, hnames, List.map_append, List.map_singleton,
    hlast.step]
  rw [Bool.not_eq_true, List.any_eq_false]
  intro piece hp
  rw [List.contains_iff_mem]
  intro hz
  refine hzero piece (List.mem_filter.2 ⟨List.mem_reverse.2 hp, ?_⟩) hz
  exact Path.isName_of_mem hz (by decide)

/-! ## Walking down -/

theorem step_down_of_child? {trail : Trail} {child : Node} {name : Bytes}
    (h : (w.nodeAt trail).bind (Node.child? name) = some child) (hlen : name.length ≤ maxName) :
    w.step trail (.down name) = .ok ((name, some child) :: trail) := by
  obtain ⟨node, hn, hc⟩ := Option.bind_eq_some_iff.1 h
  cases node with
  | file data => cases hc
  | directory entries =>
    rw [step, hn]
    simp only [Option.isNone_some, Bool.false_eq_true, if_false, Option.bind_some, hc,
      if_neg (Nat.not_lt.2 hlen)]

theorem exists_step_down_error {trail : Trail} {name : Bytes}
    (h : (w.nodeAt trail).bind (Node.child? name) = none) :
    ∃ e, w.step trail (.down name) = .error e := by
  cases hs : w.step trail (.down name) with
  | error e => exact ⟨e, rfl⟩
  | ok trail' =>
    rcases w.step_cases hs with ⟨hn, -⟩ | ⟨hn, -⟩ | ⟨name', child, hn, hc, -⟩
    · cases hn
    · cases hn
    · cases hn
      rw [h] at hc
      cases hc

/-- Names without `..` lead to what they lead to in the tree. -/
theorem nodeAt_walk {trail : Trail} {node : Node} {names : List Bytes}
    (hn : w.nodeAt trail = some node) (hw : node.wellNamed = true)
    (h : ∀ name ∈ names, isName name = true ∧ name ≠ Path.dotdot) :
    (w.walk trail (names.map Step.ofPiece)).toOption.bind w.nodeAt = node.find? names := by
  induction names generalizing trail node with
  | nil => exact hn
  | cons name rest ih =>
    obtain ⟨hname, hdotdot⟩ := h name List.mem_cons_self
    rw [List.map_cons, Step.ofPiece_of_isName hname hdotdot, walk, Node.find?]
    cases hc : node.child? name with
    | none =>
      obtain ⟨e, he⟩ := w.exists_step_down_error (by rw [hn, Option.bind_some, hc])
      rw [he]
      rfl
    | some child =>
      obtain ⟨hfile, hchild⟩ := Node.wellNamed_of_child? hw hc
      rw [w.step_down_of_child? (by rw [hn, Option.bind_some, hc]) hfile.length_le]
      exact ih rfl hchild fun n hn => h n (List.mem_cons_of_mem _ hn)

/-- Names that are in the tree are walked along. -/
theorem walk_of_find? {trail : Trail} {node child : Node} {names : List Bytes}
    (hn : w.nodeAt trail = some node) (hw : node.wellNamed = true)
    (h : node.find? names = some child) :
    w.walk trail (names.map Step.ofPiece) = .ok (names.foldl
      (fun trail name => (name, (w.nodeAt trail).bind (Node.child? name)) :: trail) trail) := by
  induction names generalizing trail node with
  | nil => rfl
  | cons name rest ih =>
    obtain ⟨next, hnext, h⟩ := Option.bind_eq_some_iff.1 h
    obtain ⟨hname, hw'⟩ := Node.wellNamed_of_child? hw hnext
    have hstep : (w.nodeAt trail).bind (Node.child? name) = some next := by
      rw [hn, Option.bind_some, hnext]
    rw [List.map_cons, hname.step, walk, w.step_down_of_child? hstep hname.length_le,
      List.foldl_cons, hstep]
    exact ih rfl hw' h

/-- A path with a zero byte leads nowhere. -/
theorem resolve_of_zero_mem {p : Path} {name : Bytes} (h : name ∈ p.names) (hz : 0 ∈ name) :
    w.resolve p = .error .zeroByte := by
  rw [resolve, if_pos]
  rw [List.any_eq_true]
  exact ⟨name, List.mem_reverse.1 (List.mem_filter.1 h).1, List.contains_iff_mem.2 hz⟩

theorem resolve_of_too_long {p : Path} (h : minTooLong ≤ p.size) :
    w.resolve p = .error (if p.back.any (·.contains 0) then .zeroByte else .nameTooLong) := by
  have hpos : p.size ≠ 0 := Nat.ne_of_gt (Nat.lt_of_lt_of_le (by decide) h)
  rw [resolve, if_neg hpos, if_pos h]
  split <;> rfl

/-- Two paths with the same names that end in a file name lead to the same place. -/
theorem resolve_congr {p q : Path} (hp : p.isAbsolute = true) (hq : q.isAbsolute = true)
    (hnames : p.names = q.names) (hlastp : Path.FileName p.last) (hlastq : Path.FileName q.last)
    (hsizep : p.size < minTooLong) (hsizeq : q.size < minTooLong) :
    w.resolve p = w.resolve q := by
  by_cases hzero : ∀ name ∈ p.names, 0 ∉ name
  · rw [w.resolve_eq_reach hp hlastp hzero hsizep,
      w.resolve_eq_reach hq hlastq (hnames ▸ hzero) hsizeq, hnames]
  · push Not at hzero
    obtain ⟨name, hname, hz⟩ := hzero
    rw [w.resolve_of_zero_mem hname hz, w.resolve_of_zero_mem (hnames ▸ hname) hz]

/-- Without `..` in it, a path that ends in a file name leads to what is under its names. -/
theorem nodeAt_resolve {p : Path} (hw : w.tree.wellNamed = true) (habs : p.isAbsolute = true)
    (hlast : Path.FileName p.last) (hdots : Path.dotdot ∉ p.names) (hsize : p.size < minTooLong) :
    (w.resolve p).toOption.bind w.nodeAt = w.tree.find? p.names := by
  by_cases hzero : ∀ name ∈ p.names, 0 ∉ name
  · rw [w.resolve_eq_reach habs hlast hzero hsize, reach, w.nodeAt_walk rfl hw]
    intro name hname
    refine ⟨(List.mem_filter.1 hname).2, ?_⟩
    rintro rfl
    exact hdots hname
  · have hfind : w.tree.find? p.names = none := by
      rw [Option.eq_none_iff_forall_not_mem]
      intro node hnode
      apply hzero
      intro name hname
      exact ((Node.wellNamed_of_find? hw hnode).1 name hname).zero_notMem
    push Not at hzero
    obtain ⟨name, hname, hz⟩ := hzero
    rw [w.resolve_of_zero_mem hname hz, hfind]
    rfl

theorem isFile_eq (p : Path) :
    w.isFile p = ((w.resolve p).toOption.bind w.nodeAt).any Node.isFile := by
  rw [isFile]
  cases w.resolve p with
  | error e => rfl
  | ok trail =>
    show _ = (w.nodeAt trail).any Node.isFile
    cases hn : w.nodeAt trail with
    | none => simp only [hn, Option.any_none]
    | some node => cases node <;> simp only [hn, Option.any_some, Node.isFile]

theorem read_of_nodeAt {p : Path} {data : Bytes}
    (h : (w.resolve p).toOption.bind w.nodeAt = some (.file data)) : w.read p = .ok data := by
  rw [read]
  cases hr : w.resolve p with
  | error e =>
    rw [hr] at h
    cases h
  | ok trail =>
    rw [hr] at h
    have hn : w.nodeAt trail = some (.file data) := h
    simp only [hn]

/-! ## The working directory -/

variable {w}

theorem reach_current {node : Node} (hw : w.tree.wellNamed = true)
    (hc : w.tree.find? w.current = some node) : w.reach w.current = .ok (w.trailTo w.current) :=
  w.walk_of_find? rfl hw hc

theorem isAbsolute_pathOf (names : List Bytes) : (pathOf names).isAbsolute = true := by
  rw [Path.isAbsolute_iff, pathOf, Path.bytes_ofBytes]
  rfl

theorem names_pathOf {names : List Bytes} (h : ∀ name ∈ names, Path.FileName name) :
    (pathOf names).names = names := by
  have hseg : (pathOf names).segments =
      [] :: pieces (· == Path.slash) (joinPieces [Path.slash] names) := by
    rw [← Path.pieces_bytes, pathOf, Path.bytes_ofBytes]
    rfl
  rw [Path.names, hseg, List.filter_cons_of_neg (by simp)]
  by_cases hn : names = []
  · rw [hn]
    rfl
  · rw [Path.pieces_joinPieces hn fun name hname => (h name hname).slash_notMem]
    exact List.filter_eq_self.2 fun name hname => (h name hname).isName

/-- A path as seen from the root. -/
def absolute (w : Workplace) (p : Path) : Path :=
  if p.isAbsolute then p else (pathOf w.current).join p

/-- The names of a path as seen from the root, outermost first. -/
def namesOf (w : Workplace) (p : Path) : List Bytes :=
  if p.isAbsolute then p.names else w.current ++ p.names

theorem isAbsolute_absolute (w : Workplace) (p : Path) : (w.absolute p).isAbsolute = true := by
  rw [absolute]
  split
  · assumption
  · exact Path.isAbsolute_join (isAbsolute_pathOf _) p

theorem names_absolute (hc : ∀ name ∈ w.current, Path.FileName name) (p : Path) :
    (w.absolute p).names = w.namesOf p := by
  rw [absolute, namesOf]
  split
  · rfl
  · rename_i hp
    rw [Path.names_join (by simpa using hp), names_pathOf hc]

/-- A path that leads somewhere leads there by its names from the root. -/
theorem reach_namesOf {p : Path} {trail : Trail} {node : Node} (hw : w.tree.wellNamed = true)
    (hc : w.tree.find? w.current = some node) (h : w.resolve p = .ok trail) :
    w.reach (w.namesOf p) = .ok trail := by
  have hwalk : w.walk (if p.isAbsolute then [] else w.trailTo w.current) p.steps = .ok trail := by
    unfold resolve at h
    split at h
    · cases h
    · split at h
      · cases h
      · split at h
        · cases h
        · exact h
  have hnames := w.walk_filter hwalk
  rw [Path.steps, filter_map_ofPiece, ← Path.names] at hnames
  rw [namesOf]
  split
  · rename_i hp
    rw [if_pos hp] at hnames
    exact hnames
  · rename_i hp
    rw [if_neg hp] at hnames
    rw [reach_append, reach_current hw hc]
    exact hnames

end Workplace

end CompileFlags
