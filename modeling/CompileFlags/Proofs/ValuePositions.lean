import CompileFlags.Normalize
import CompileFlags.Proofs.Spelling

/-!
# What normalization does at each position

An entry is a value if the entry before it is a separate prefix and no value itself. Reading from
the start, this is all that has to be remembered.

* `getElem?_rewrites` — what becomes of an entry depends on the entry and on what is remembered when
  it is reached.
* `isValueAt_eq_foldl` — what is remembered is whether the entry is a value.
* `normalize_at_each_position` — values are resolved as paths, after `--sysroot=` the rest of the
  entry is, and every other entry stays as it is.
-/

namespace CompileFlags

/-! ## Classifying an entry -/

/-- The spellings of the separate prefixes. -/
def separatePrefixes : List String := ["-isystem", "-I", "-iquote"]

namespace Flag

/-- The separate prefixes are tried first, then the attached one. -/
theorem parse_eq (entry : String) :
    parse entry =
      if entry = "-isystem" then .separate .system
      else if entry = "-I" then .separate .user
      else if entry = "-iquote" then .separate .quote
      else
        match "--sysroot=".toList.isPrefixOf? entry.toList with
        | some path => .attached .sysroot (.ofList path)
        | none => .plain := by
  have hsys : matchPrefix? .system entry =
    if entry = "-isystem" then some (.separate .system) else none := rfl
  have huser : matchPrefix? .user entry =
    if entry = "-I" then some (.separate .user) else none := rfl
  have hquote : matchPrefix? .quote entry =
    if entry = "-iquote" then some (.separate .quote) else none := rfl
  have hroot : matchPrefix? .sysroot entry =
    ("--sysroot=".toList.isPrefixOf? entry.toList).map
      fun path => .attached .sysroot (.ofList path) := rfl
  simp only [parse, parseWith, PathPrefix.all, List.findSome?, hsys, huser, hquote, hroot]
  by_cases h1 : entry = "-isystem"
  · simp only [if_pos h1, Option.getD_some]
  by_cases h2 : entry = "-I"
  · simp only [if_neg h1, if_pos h2, Option.getD_some]
  by_cases h3 : entry = "-iquote"
  · simp only [if_neg h1, if_neg h2, if_pos h3, Option.getD_some]
  simp only [if_neg h1, if_neg h2, if_neg h3]
  cases "--sysroot=".toList.isPrefixOf? entry.toList <;> rfl

theorem parse_of_mem_separatePrefixes {entry : String} (h : entry ∈ separatePrefixes) :
    ∃ p, parse entry = .separate p := by
  simp only [separatePrefixes, List.mem_cons, List.not_mem_nil, or_false] at h
  rcases h with rfl | rfl | rfl
  · exact ⟨.system, rfl⟩
  · exact ⟨.user, rfl⟩
  · exact ⟨.quote, rfl⟩

theorem parse_sysroot (path : String) :
    parse ("--sysroot=" ++ path) = .attached .sysroot path := by
  -- an entry that starts with two dashes is none of the separate prefixes
  have hne : ∀ s : String, s.toList.take 2 ≠ ['-', '-'] → "--sysroot=" ++ path ≠ s := by
    rintro s hs rfl
    exact hs (by rw [String.toList_append]; rfl)
  rw [parse_eq, if_neg (hne _ (by decide)), if_neg (hne _ (by decide)), if_neg (hne _ (by decide)),
    String.toList_append, List.isPrefixOf?_eq_some_iff_append_eq.2 rfl]
  simp only [String.ofList_toList]

/-- An entry that is no separate prefix and does not start with an attached one is plain. -/
theorem parse_eq_plain {entry : String} (hs : entry ∉ separatePrefixes)
    (ha : ∀ path, entry ≠ "--sysroot=" ++ path) : parse entry = .plain := by
  simp only [separatePrefixes, List.mem_cons, List.not_mem_nil, or_false, not_or] at hs
  rw [parse_eq, if_neg hs.1, if_neg hs.2.1, if_neg hs.2.2]
  cases hp : "--sysroot=".toList.isPrefixOf? entry.toList with
  | none => rfl
  | some path =>
    refine absurd ?_ (ha (.ofList path))
    apply String.toList_inj.1
    rw [← List.append_eq_of_isPrefixOf?_eq_some hp, String.toList_append]
    simp only [String.toList_ofList]

/-- Every entry is a separate prefix, an attached one with its path, or plain. -/
theorem parse_cases (entry : String) :
    (entry ∈ separatePrefixes ∧ ∃ p, parse entry = .separate p) ∨
    (∃ path, entry = "--sysroot=" ++ path ∧ parse entry = .attached .sysroot path) ∨
    (entry ∉ separatePrefixes ∧ (∀ path, entry ≠ "--sysroot=" ++ path) ∧
      parse entry = .plain) := by
  by_cases hs : entry ∈ separatePrefixes
  · exact .inl ⟨hs, parse_of_mem_separatePrefixes hs⟩
  · by_cases ha : ∃ path, entry = "--sysroot=" ++ path
    · obtain ⟨path, rfl⟩ := ha
      exact .inr (.inl ⟨path, rfl, parse_sysroot path⟩)
    · have ha' : ∀ path, entry ≠ "--sysroot=" ++ path := fun path h => ha ⟨path, h⟩
      exact .inr (.inr ⟨hs, ha', parse_eq_plain hs ha'⟩)

/-- The entries that take the next one as their path are the separate prefixes. -/
theorem takesNext_parse_iff (entry : String) :
    (parse entry).takesNext = true ↔ entry ∈ separatePrefixes := by
  rcases parse_cases entry with ⟨hs, p, hp⟩ | ⟨path, rfl, hp⟩ | ⟨hs, -, hp⟩
  · rw [hp]
    exact ⟨fun _ => hs, fun _ => rfl⟩
  · rw [hp]
    constructor
    · intro h
      cases h
    · intro h
      obtain ⟨p, hq⟩ := parse_of_mem_separatePrefixes h
      rw [hq] at hp
      cases hp
  · rw [hp]
    constructor
    · intro h
      cases h
    · intro h
      exact absurd h hs

end Flag

/-! ## What is remembered -/

/-- Whether the entry at a position is the path of the separate prefix before it. -/
def isValueAt (flags : List String) : Nat → Bool
  | 0 => false
  | i + 1 => !isValueAt flags i && flags[i]?.any fun entry => separatePrefixes.contains entry

theorem pendingAfter_eq (pending : Bool) (entry : String) :
    pendingAfter pending entry = (!pending && separatePrefixes.contains entry) := by
  rw [pendingAfter, Bool.eq_iff_iff.2 (Flag.takesNext_parse_iff entry |>.trans
    List.contains_iff_mem.symm)]

/-- What is remembered at a position is whether the entry there is a value. -/
theorem isValueAt_eq_foldl (flags : List String) {i : Nat} (h : i ≤ flags.length) :
    isValueAt flags i = (flags.take i).foldl pendingAfter false := by
  induction i with
  | zero => rfl
  | succ i ih =>
    have hi : i < flags.length := by omega
    rw [isValueAt, ih (by omega), List.take_add_one, List.foldl_append,
      List.getElem?_eq_getElem hi]
    simp only [Option.any_some, Option.toList_some, List.foldl_cons, List.foldl_nil,
      pendingAfter_eq]

/-- What becomes of an entry depends on the entry and on what is remembered when it is reached. -/
theorem getElem?_rewrites (r : Root) (pending : Bool) (flags : List String) (i : Nat) :
    (rewrites r pending flags)[i]? =
      flags[i]?.map (Rewrite.ofEntry r ((flags.take i).foldl pendingAfter pending)) := by
  induction flags generalizing pending i with
  | nil => rfl
  | cons entry rest ih =>
    cases i with
    | zero => rfl
    | succ i =>
      rw [rewrites, List.getElem?_cons_succ, ih, List.getElem?_cons_succ, List.take_succ_cons,
        List.foldl_cons]

/-! ## What becomes of an entry -/

namespace Rewrite

/-- Asking first whether the path of a separate prefix is absolute changes nothing. -/
theorem result_ofValue (r : Root) (path : String) : (ofValue r path).result = r.join path := by
  unfold ofValue
  split
  · rename_i h
    have ha : path.toList.head? = some '/' := by
      rw [Bool.or_eq_true, decide_eq_true_eq, Path.isAbsolute_ofString_iff, or_self] at h
      exact h
    rw [Root.join_of_absolute r ha]
    rfl
  · rfl

theorem result_ofAttached (r : Root) (p : PathPrefix) (path : String) :
    (ofAttached r p path).result = p.spelling ++ r.join path := rfl

theorem result_ofEntry_value (r : Root) (entry : String) :
    (ofEntry r true entry).result = r.join entry := by
  rw [ofEntry, if_pos rfl, result_ofValue]

theorem result_ofEntry_sysroot (r : Root) (path : String) :
    (ofEntry r false ("--sysroot=" ++ path)).result = "--sysroot=" ++ r.join path := by
  rw [ofEntry, if_neg (by simp), Flag.parse_sysroot]
  rfl

theorem result_ofEntry_other (r : Root) {entry : String}
    (h : ∀ path, entry ≠ "--sysroot=" ++ path) : (ofEntry r false entry).result = entry := by
  rw [ofEntry, if_neg (by simp)]
  rcases Flag.parse_cases entry with ⟨-, p, hp⟩ | ⟨path, rfl, -⟩ | ⟨-, -, hp⟩
  · rw [hp]
    rfl
  · exact absurd rfl (h path)
  · rw [hp]
    rfl

end Rewrite

/-! ## Normalized lists -/

theorem normalize_of_text_ne_empty (flags : List String) {r : Root} (h : r.text ≠ "") :
    normalize flags (some r) = (rewrites r false flags).map Rewrite.result := by
  have hr : r.isEmpty = false := by
    rw [Root.isEmpty, ← Bool.not_eq_true, String.isEmpty_iff]
    exact h
  rw [normalize, hr]
  rfl

theorem getElem?_normalize {flags : List String} {r : Root} (hr : r.text ≠ "") {i : Nat}
    {entry : String} (h : flags[i]? = some entry) :
    (normalize flags (some r))[i]? = some (Rewrite.ofEntry r (isValueAt flags i) entry).result := by
  have hi : i < flags.length := (List.getElem?_eq_some_iff.1 h).1
  rw [normalize_of_text_ne_empty flags hr, List.getElem?_map, getElem?_rewrites, h,
    isValueAt_eq_foldl flags (by omega)]
  rfl

/-- **Normalization, position by position.** Without a root, or under the empty one, nothing
changes. Under any other root the list keeps its length; a value is resolved as a path, whatever it
looks like; an entry that is no value has the path after `--sysroot=` resolved, if it starts with
that, and stays as it is otherwise. Both resolve a path in the same way, although only values are
first asked whether they are absolute. -/
theorem normalize_at_each_position (flags : List String) :
    normalize flags none = flags ∧
    (∀ r : Root, r.text = "" → normalize flags (some r) = flags) ∧
    ∀ r : Root, r.text ≠ "" →
      (∀ path, (Rewrite.ofValue r path).result = r.resolved path ∧
        ∀ p : PathPrefix,
          (Rewrite.ofAttached r p path).result = p.spelling ++ r.resolved path) ∧
      (normalize flags (some r)).length = flags.length ∧
      ∀ i entry, flags[i]? = some entry →
        (isValueAt flags i = true → (normalize flags (some r))[i]? = some (r.resolved entry)) ∧
        (isValueAt flags i = false →
          (∀ path, entry = "--sysroot=" ++ path →
            (normalize flags (some r))[i]? = some ("--sysroot=" ++ r.resolved path)) ∧
          ((∀ path, entry ≠ "--sysroot=" ++ path) →
            (normalize flags (some r))[i]? = some entry)) := by
  refine ⟨normalize_none flags, ?_, ?_⟩
  · intro r hr
    exact normalize_of_isEmpty flags (by rw [Root.isEmpty, String.isEmpty_iff, hr])
  · intro r hr
    have hjoin := Root.join_eq_resolved hr
    refine ⟨?_, ?_, ?_⟩
    · intro path
      rw [← hjoin]
      exact ⟨Rewrite.result_ofValue r path, fun p => Rewrite.result_ofAttached r p path⟩
    · rw [normalize_of_text_ne_empty flags hr, List.length_map, length_rewrites]
    · intro i entry he
      rw [getElem?_normalize hr he]
      refine ⟨?_, ?_⟩
      · intro hv
        rw [hv, Rewrite.result_ofEntry_value, hjoin]
      · intro hv
        rw [hv]
        refine ⟨?_, ?_⟩
        · rintro path rfl
          rw [Rewrite.result_ofEntry_sysroot, hjoin]
        · intro ho
          rw [Rewrite.result_ofEntry_other r ho]

/-- The second of three prefixes is the path of the first, so the third entry is none. -/
theorem normalize_value_like_a_flag :
    (⟨"/r"⟩ : Root).text ≠ "" ∧
    (normalize ["-I", "--sysroot=x", "--sysroot=y"] (some ⟨"/r"⟩))[1]? =
      some "/r/--sysroot=x" ∧
    (normalize ["-I", "--sysroot=x", "--sysroot=y"] (some ⟨"/r"⟩))[2]? =
      some "--sysroot=/r/y" := by
  have hr : (⟨"/r"⟩ : Root).text ≠ "" := by decide
  obtain ⟨-, -, h⟩ :=
    (normalize_at_each_position ["-I", "--sysroot=x", "--sysroot=y"]).2.2 ⟨"/r"⟩ hr
  refine ⟨hr, ?_, ?_⟩
  · exact (h 1 "--sysroot=x" rfl).1 (by decide)
  · exact ((h 2 "--sysroot=y" rfl).2 (by decide)).1 "y" rfl

end CompileFlags
