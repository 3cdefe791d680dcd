import CompileFlags.Proofs.Slices
import Mathlib.Algebra.Ring.Parity
import Mathlib.Data.List.DropRight
import Mathlib.Data.List.Induction

/-!
# Runs of separate prefixes

A flag list can be cut anywhere, and what the part before the cut owes to the part behind it cannot
be told from its last entry: a separate prefix there may be the path of another prefix before it.
It takes all the separate prefixes at the end of the part. The first of them is no path, since what
stands before it takes none, so they are prefix and path in turn, and a path is owed exactly if they
are odd in number.

* `prefixRun` — the separate prefixes at the end of a flag list.
* `foldl_pendingAfter_iff` — a path is owed at the end of a list exactly if they are odd in number.
* `isValueAt_iff_odd` — an entry is a value exactly if an odd number of them stands right before it.
* `normalize_append_by_prefixRun` — how the parts of a list are normalized, for every cut.
-/

namespace CompileFlags

/-- The separate prefixes at the end of a flag list, back to the last entry that is none. -/
def prefixRun (flags : List String) : List String :=
  flags.rtakeWhile (separatePrefixes.contains ·)

theorem prefixRun_concat_of_mem (flags : List String) {entry : String}
    (h : entry ∈ separatePrefixes) : prefixRun (flags ++ [entry]) = prefixRun flags ++ [entry] :=
  List.rtakeWhile_concat_pos _ _ _ (List.contains_iff_mem.2 h)

theorem prefixRun_concat_of_notMem (flags : List String) {entry : String}
    (h : entry ∉ separatePrefixes) : prefixRun (flags ++ [entry]) = [] :=
  List.rtakeWhile_concat_neg _ _ _ (mt List.contains_iff_mem.1 h)

theorem prefixRun_suffix (flags : List String) : prefixRun flags <:+ flags :=
  List.rtakeWhile_suffix _ _

theorem mem_separatePrefixes_of_mem_prefixRun {flags : List String} {entry : String}
    (h : entry ∈ prefixRun flags) : entry ∈ separatePrefixes :=
  List.contains_iff_mem.1 (List.mem_rtakeWhile_imp h)

/-- Any separate prefixes at the end of a flag list are among these. -/
theorem suffix_prefixRun {flags run : List String} (hrun : run <:+ flags)
    (hall : ∀ entry ∈ run, entry ∈ separatePrefixes) : run <:+ prefixRun flags := by
  induction flags using List.reverseRecOn generalizing run with
  | nil => exact hrun
  | append_singleton flags last ih =>
    rcases List.suffix_concat_iff.1 hrun with rfl | ⟨before, rfl, hbefore⟩
    · exact List.nil_suffix
    · rw [prefixRun_concat_of_mem flags (hall last (by simp))]
      have := ih hbefore fun entry h => hall entry (List.mem_append_left _ h)
      exact List.suffix_concat_iff.2 (.inr ⟨before, rfl, this⟩)

/-- A path is owed at the end of a flag list exactly if the separate prefixes there are odd in
number. -/
theorem foldl_pendingAfter_iff (flags : List String) :
    flags.foldl pendingAfter false = true ↔ Odd (prefixRun flags).length := by
  -- from one entry to the next both sides change alike: a separate prefix owes a path exactly if
  -- none was owed before it, and any other entry ends the run
  induction flags using List.reverseRecOn with
  | nil => simp [prefixRun]
  | append_singleton flags last ih =>
    rw [List.foldl_append, List.foldl_cons, List.foldl_nil, pendingAfter_eq]
    by_cases h : last ∈ separatePrefixes
    · rw [prefixRun_concat_of_mem flags h, List.length_append, List.length_singleton,
        Nat.odd_add_one, ← ih]
      simp [h]
    · rw [prefixRun_concat_of_notMem flags h]
      simp [h]

theorem closed_iff_even (flags : List String) :
    Closed flags ↔ Even (prefixRun flags).length := by
  rw [← Nat.not_odd_iff_even, ← foldl_pendingAfter_iff, Closed, Bool.not_eq_true]

/-- An entry is a value exactly if an odd number of separate prefixes stands right before it. -/
theorem isValueAt_iff_odd {flags : List String} {i : Nat} (h : i ≤ flags.length) :
    isValueAt flags i = true ↔ Odd (prefixRun (flags.take i)).length := by
  rw [isValueAt_eq_foldl flags h, foldl_pendingAfter_iff]

/-- Behind a cut where a path is owed, the first entry is resolved, and nothing is owed after it. -/
theorem normalize_append_cons_of_owed {r : Root} (hr : r.text ≠ "") {before : List String}
    (h : before.foldl pendingAfter false = true) (path : String) (rest : List String) :
    normalize (before ++ path :: rest) (some r) =
      normalize before (some r) ++ r.resolved path :: normalize rest (some r) := by
  have hpath : (rewrites r true (path :: rest)).map Rewrite.result =
      r.resolved path :: (rewrites r false rest).map Rewrite.result := by
    rw [rewrites, List.map_cons, Rewrite.result_ofEntry_value, Root.join_eq_resolved hr]
    rfl
  rw [normalize_of_text_ne_empty _ hr, normalize_of_text_ne_empty _ hr,
    normalize_of_text_ne_empty _ hr, rewrites_append, h, List.map_append, hpath]

/-- **The separate prefixes at the end of the first part decide how a flag list can be cut.** They
are the longest end of that part that holds nothing else. If they are even in number, or nothing
follows, the parts are normalized apart. If they are odd in number, the first entry behind the cut
is resolved as a path, even if it looks like a flag, and what follows it is normalized apart. -/
theorem normalize_append_by_prefixRun {r : Root} (hr : r.text ≠ "") (before after : List String) :
    (prefixRun before <:+ before ∧ (∀ entry ∈ prefixRun before, entry ∈ separatePrefixes) ∧
      ∀ run, run <:+ before → (∀ entry ∈ run, entry ∈ separatePrefixes) →
        run.length ≤ (prefixRun before).length) ∧
    (Even (prefixRun before).length ∨ after = [] →
      normalize (before ++ after) (some r) =
        normalize before (some r) ++ normalize after (some r)) ∧
    ∀ path rest, Odd (prefixRun before).length → after = path :: rest →
      normalize (before ++ after) (some r) =
        normalize before (some r) ++ [r.resolved path] ++ normalize rest (some r) := by
  refine ⟨⟨prefixRun_suffix before, fun entry h => mem_separatePrefixes_of_mem_prefixRun h, ?_⟩,
    ?_, ?_⟩
  · intro run hrun hall
    exact (suffix_prefixRun hrun hall).length_le
  · intro h
    exact normalize_append (h.imp_left (closed_iff_even before).2) (some r)
  · rintro path rest hodd rfl
    rw [normalize_append_cons_of_owed hr ((foldl_pendingAfter_iff before).2 hodd),
      List.append_assoc, List.singleton_append]

/-- Two prefixes at the end of the first part owe nothing; of three the last one owes a path. -/
theorem normalize_behind_three_prefixes :
    normalize (["-isystem", "-I"] ++ ["x", "--sysroot=y"]) (some ⟨"/r"⟩) =
      normalize ["-isystem", "-I"] (some ⟨"/r"⟩) ++ normalize ["x", "--sysroot=y"] (some ⟨"/r"⟩) ∧
    normalize (["a", "-I", "-I", "-iquote"] ++ ["--sysroot=x", "--sysroot=y"]) (some ⟨"/r"⟩) =
      normalize ["a", "-I", "-I", "-iquote"] (some ⟨"/r"⟩) ++ ["/r/--sysroot=x"] ++
        normalize ["--sysroot=y"] (some ⟨"/r"⟩) := by
  have hr : (⟨"/r"⟩ : Root).text ≠ "" := by decide
  obtain ⟨-, heven, -⟩ :=
    normalize_append_by_prefixRun hr ["-isystem", "-I"] ["x", "--sysroot=y"]
  obtain ⟨-, -, hodd⟩ :=
    normalize_append_by_prefixRun hr ["a", "-I", "-I", "-iquote"] ["--sysroot=x", "--sysroot=y"]
  exact ⟨heven (.inl (by decide +kernel)),
    hodd "--sysroot=x" ["--sysroot=y"] (by decide +kernel) rfl⟩

end CompileFlags
