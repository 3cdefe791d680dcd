import CompileFlags.Flag
import CompileFlags.Proofs.Encoding
import Mathlib.Data.List.NodupEquivFin

/-!
# Lists of prefixes

An entry of a flag list is classified by the first prefix that it has. A list of prefixes is checked
for pairs of which one could take entries away from the other, and it passes if there are none. Then
all prefixes of the list that an entry has say the same of it, so their order does not matter.

* `PathPrefix.isUnambiguous_iff` — the check finds exactly the pairs that it is to find;
  `PathPrefix.isUnambiguous_iff_count` — which are two attached prefixes, as there is only one.
* `Flag.eq_of_matchPrefix?` — in a list that passes, two prefixes that an entry has say the same.
* `PathPrefix.unambiguous_in_any_order` — a list that passes can be tried in any order.
-/

namespace CompileFlags

/-! ## The check -/

theorem allM_eq_some_true_iff {α : Type} {check : α → Option Bool} {l : List α} :
    l.allM check = some true ↔ ∀ a ∈ l, check a = some true := by
  induction l with
  | nil => simp [List.allM]
  | cons a l ih =>
    simp only [List.allM, List.forall_mem_cons]
    cases ha : check a with
    | none => simp
    | some answer => cases answer <;> simp [ih]

namespace PathPrefix

theorem begins?_eq_some_true_iff {start bytes : Bytes} :
    begins? start.toArray bytes.toArray = some true ↔ start <+: bytes := by
  have hplace (i : Nat) (hi : i < start.length) :
      (do let a ← start[i]?; let b ← bytes[i]?; pure (a == b)) = some true ↔
        bytes[i]? = some start[i] := by
    rw [List.getElem?_eq_getElem hi]
    cases bytes[i]? with
    | none => simp
    | some b => simpa using eq_comm
  simp only [begins?, List.size_toArray, List.getElem?_toArray]
  rw [List.prefix_iff_getElem?]
  by_cases hlt : bytes.length < start.length
  · rw [if_pos hlt]
    constructor
    · intro h
      cases h
    · intro h
      have hlast := h (start.length - 1) (by omega)
      have hlen := (List.getElem?_eq_some_iff.1 hlast).1
      omega
  · rw [if_neg hlt, allM_eq_some_true_iff]
    constructor
    · intro h i hi
      exact (hplace i hi).1 (h i (List.mem_range.2 hi))
    · intro h i hi
      exact (hplace i (List.mem_range.1 hi)).2 (h i (List.mem_range.1 hi))

/-- A spelling begins another one with its bytes exactly if it does with its characters. -/
theorem begins?_bytes_eq_some_true_iff (a b : PathPrefix) :
    begins? a.bytes b.bytes = some true ↔ a.spelling.toList <+: b.spelling.toList := by
  rw [begins?_eq_some_true_iff, bytes, bytes, Utf8.encode, Utf8.encode]
  exact Utf8.encodeChars_prefix_iff

/-- Whether trying `a` before `b` can take entries away from `b`: one of them is attached, and the
spelling of `a` begins that of `b`. -/
def Hides (a b : PathPrefix) : Prop :=
  (a.shape = .attached ∨ b.shape = .attached) ∧ a.spelling.toList <+: b.spelling.toList

instance (a b : PathPrefix) : Decidable (Hides a b) := inferInstanceAs (Decidable (_ ∧ _))

theorem isClear?_eq_some_true_iff {ps : List PathPrefix} {i j : Nat} (hi : i < ps.length)
    (hj : j < ps.length) :
    isClear? ps.toArray i j = some true ↔ ¬ (i ≠ j ∧ Hides ps[i] ps[j]) := by
  have hsome := isSome_begins? ps[i].bytes ps[j].bytes
  have hiff := begins?_bytes_eq_some_true_iff ps[i] ps[j]
  simp only [isClear?, List.getElem?_toArray, List.getElem?_eq_getElem hi,
    List.getElem?_eq_getElem hj, Option.bind_eq_bind, Option.bind_some, Hides]
  obtain ⟨hidden, hb⟩ := Option.isSome_iff_exists.1 hsome
  rw [hb, Option.some_inj] at hiff
  rw [hb, ← hiff, ← and_assoc]
  split
  · rename_i h
    cases hidden <;> simp [h]
  · rename_i h
    simp [h]

/-- **The check finds exactly the pairs of places that it is to find.** -/
theorem isUnambiguous_iff (ps : List PathPrefix) :
    isUnambiguous ps = true ↔
      ¬ ∃ i j : Fin ps.length, i ≠ j ∧ Hides ps[i] ps[j] := by
  rw [isUnambiguous, ← Option.some_inj, Option.some_get, isUnambiguous?]
  simp only [allM_eq_some_true_iff, List.mem_range, List.size_toArray, not_exists]
  constructor
  · intro h i j
    rw [← Fin.val_ne_iff]
    exact (isClear?_eq_some_true_iff i.isLt j.isLt).1 (h i i.isLt j j.isLt)
  · intro h i hi j hj
    refine (isClear?_eq_some_true_iff hi hj).2 ?_
    have := h ⟨i, hi⟩ ⟨j, hj⟩
    rwa [← Fin.val_ne_iff] at this

/-- Only the attached prefix hides one, namely itself. -/
theorem hides_iff (a b : PathPrefix) : Hides a b ↔ a = .sysroot ∧ b = .sysroot := by
  cases a <;> cases b <;> decide

theorem isUnambiguous_iff_count (ps : List PathPrefix) :
    isUnambiguous ps = true ↔ ps.count .sysroot ≤ 1 := by
  rw [isUnambiguous_iff, ← Nat.lt_succ_iff, ← Nat.not_le, not_iff_not,
    ← List.duplicate_iff_two_le_count, List.duplicate_iff_exists_distinct_get]
  simp only [hides_iff]
  constructor
  · rintro ⟨i, j, hne, hi, hj⟩
    rcases lt_or_gt_of_ne hne with hlt | hlt
    · exact ⟨i, j, hlt, hi.symm, hj.symm⟩
    · exact ⟨j, i, hlt, hj.symm, hi.symm⟩
  · rintro ⟨i, j, hlt, hi, hj⟩
    exact ⟨i, j, ne_of_lt hlt, hi.symm, hj.symm⟩

/-! ## The order of prefixes -/

theorem spelling_injective : Function.Injective spelling := by
  have hall : ∀ a ∈ all, ∀ b ∈ all, a.spelling = b.spelling → a = b := by decide
  exact fun a b h => hall a (mem_all a) b (mem_all b) h

/-- In a list that passes, no prefix hides another than itself. -/
theorem eq_of_hides {ps : List PathPrefix} (hps : isUnambiguous ps = true) {a b : PathPrefix}
    (ha : a ∈ ps) (hb : b ∈ ps) (h : Hides a b) : a = b := by
  by_contra hne
  obtain ⟨i, hi, rfl⟩ := List.getElem_of_mem ha
  obtain ⟨j, hj, rfl⟩ := List.getElem_of_mem hb
  refine (isUnambiguous_iff ps).1 hps ⟨⟨i, hi⟩, ⟨j, hj⟩, fun hij => hne ?_, h⟩
  cases hij
  rfl

end PathPrefix

namespace Flag

open PathPrefix

/-- An entry that has a prefix begins with its spelling, and is no more than that if the prefix is
separate. -/
theorem matchPrefix?_spelling {p : PathPrefix} {entry : String} {f : Flag}
    (h : matchPrefix? p entry = some f) :
    p.spelling.toList <+: entry.toList ∧ (p.shape = .separate → entry = p.spelling) := by
  unfold matchPrefix? at h
  cases hp : p.shape with
  | separate =>
    rw [hp] at h
    dsimp only at h
    split at h
    · rename_i hentry
      rw [hentry]
      exact ⟨List.prefix_refl _, fun _ => rfl⟩
    · cases h
  | attached =>
    rw [hp] at h
    obtain ⟨path, hpath, -⟩ := Option.map_eq_some_iff.1 h
    rw [List.isPrefixOf?_eq_some_iff_append_eq] at hpath
    exact ⟨⟨path, hpath⟩, Shape.noConfusion⟩

/-- In a list that passes, two prefixes that an entry has say the same of it. -/
theorem eq_of_matchPrefix? {ps : List PathPrefix} (hps : isUnambiguous ps = true)
    {a b : PathPrefix} (ha : a ∈ ps) (hb : b ∈ ps) {entry : String} {f g : Flag}
    (hf : matchPrefix? a entry = some f) (hg : matchPrefix? b entry = some g) : f = g := by
  obtain ⟨hbegin, hwhole⟩ := matchPrefix?_spelling hf
  obtain ⟨hbegin', hwhole'⟩ := matchPrefix?_spelling hg
  have hab : a = b := by
    by_cases hattached : a.shape = .attached ∨ b.shape = .attached
    · -- both spellings begin the entry, so one of them begins the other
      rcases List.prefix_or_prefix_of_prefix hbegin hbegin' with hp | hp
      · exact eq_of_hides hps ha hb ⟨hattached, hp⟩
      · exact (eq_of_hides hps hb ha ⟨hattached.symm, hp⟩).symm
    · rw [not_or] at hattached
      have hseparate {p : PathPrefix} (h : p.shape ≠ .attached) : p.shape = .separate := by
        cases hp : p.shape with
        | separate => rfl
        | attached => exact absurd hp h
      apply spelling_injective
      rw [← hwhole (hseparate hattached.1), ← hwhole' (hseparate hattached.2)]
  subst hab
  exact Option.some.inj (hf.symm.trans hg)

end Flag

/-- If all that can be found in a list is the same, it is found first in every order. -/
theorem findSome?_perm {α β : Type} {f : α → Option β} {l l' : List α} (h : l.Perm l')
    (hsame : ∀ a ∈ l, ∀ b ∈ l, ∀ x y, f a = some x → f b = some y → x = y) :
    l.findSome? f = l'.findSome? f := by
  have hfound {m : List α} (hm : ∀ a, a ∈ m ↔ a ∈ l) (x : β) :
      m.findSome? f = some x ↔ ∃ a ∈ l, f a = some x := by
    constructor
    · intro hx
      obtain ⟨a, ha, hfa⟩ := List.exists_of_findSome?_eq_some hx
      exact ⟨a, (hm a).1 ha, hfa⟩
    · rintro ⟨a, ha, hfa⟩
      cases hx : m.findSome? f with
      | none => rw [List.findSome?_eq_none_iff.1 hx a ((hm a).2 ha)] at hfa; cases hfa
      | some y =>
        obtain ⟨b, hb, hfb⟩ := List.exists_of_findSome?_eq_some hx
        rw [hsame a ha b ((hm b).1 hb) x y hfa hfb]
  apply Option.ext
  intro x
  rw [hfound (fun a => Iff.rfl), hfound fun a => h.symm.mem_iff]

namespace PathPrefix

/-- **A list of prefixes that passes the check can be tried in any order.** The check looks at no
place that is not in the list. It passes exactly if no two different places, of which one holds an
attached prefix, hold spellings of which the first begins the second; with the prefixes that there
are, that is to say that `--sysroot=` is there at most once. Then every entry is classified in the
same way whatever the order of the prefixes is, and so it is with the order of all prefixes. -/
theorem unambiguous_in_any_order (ps : List PathPrefix) :
    isUnambiguous? ps.toArray = some (isUnambiguous ps) ∧
    (isUnambiguous ps = true ↔
      ¬ ∃ i j : Fin ps.length, i ≠ j ∧
        (ps[i].shape = .attached ∨ ps[j].shape = .attached) ∧
        ps[i].spelling.toList <+: ps[j].spelling.toList) ∧
    (isUnambiguous ps = true ↔ ps.count .sysroot ≤ 1) ∧
    (isUnambiguous ps = true → ∀ qs : List PathPrefix, qs.Perm ps → ∀ entry,
      Flag.parseWith qs entry = Flag.parseWith ps entry) ∧
    ∀ qs : List PathPrefix, qs.Perm PathPrefix.all → ∀ entry,
      Flag.parseWith qs entry = Flag.parse entry := by
  have horder {rs qs : List PathPrefix} (hrs : isUnambiguous rs = true) (hqs : qs.Perm rs)
      (entry : String) : Flag.parseWith qs entry = Flag.parseWith rs entry := by
    have hfirst : qs.findSome? (Flag.matchPrefix? · entry) =
        rs.findSome? (Flag.matchPrefix? · entry) :=
      (findSome?_perm hqs.symm fun _ ha _ hb _ _ hf hg =>
        Flag.eq_of_matchPrefix? hrs ha hb hf hg).symm
    rw [Flag.parseWith, Flag.parseWith, hfirst]
  refine ⟨(Option.some_get _).symm, isUnambiguous_iff ps, isUnambiguous_iff_count ps, ?_, ?_⟩
  · intro hps qs hqs entry
    exact horder hps hqs entry
  · intro qs hqs entry
    exact horder isUnambiguous_all hqs entry

/-- A separate prefix may be there twice. The order does not matter even for an entry that holds the
spellings of two prefixes. -/
theorem unambiguous_with_one_repeated :
    isUnambiguous [.user, .sysroot, .user] = true ∧
      [PathPrefix.sysroot, .user, .user].Perm [.user, .sysroot, .user] ∧
      Flag.parseWith [.sysroot, .user, .user] "--sysroot=-I" =
        Flag.parseWith [.user, .sysroot, .user] "--sysroot=-I" := by
  have hpasses : isUnambiguous [.user, .sysroot, .user] = true := by decide
  have hperm : [PathPrefix.sysroot, .user, .user].Perm [.user, .sysroot, .user] := by decide
  obtain ⟨-, -, -, horder, -⟩ := unambiguous_in_any_order [.user, .sysroot, .user]
  exact ⟨hpasses, hperm, horder hpasses _ hperm "--sysroot=-I"⟩

end PathPrefix

end CompileFlags
