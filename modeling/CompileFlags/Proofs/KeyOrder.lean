import CompileFlags.Json.Value
import Mathlib.Data.String.Basic

/-!
# Fields in the order of their keys

Fields that are set one after another stand in the order of their keys, each key once. Such fields
are the same if the same can be looked up in them, in whatever order they were set.

* `pairwise_setField` — setting a field keeps the order.
* `lookup_eq_some_of_mem` — no key stands there twice.
* `eq_of_lookup_eq` — fields in order are what can be looked up in them.
* `setField_comm` — fields with different keys can be set in any order.
-/

namespace CompileFlags.Json

variable {α : Type}

theorem mem_setField {key : String} {value : α} {fields : List (String × α)} {f : String × α}
    (h : f ∈ setField key value fields) : f.1 = key ∨ f ∈ fields := by
  induction fields with
  | nil =>
    rw [setField, List.mem_singleton] at h
    exact .inl (congrArg Prod.fst h)
  | cons g fields ih =>
    obtain ⟨k, v⟩ := g
    rw [setField] at h
    split at h
    · rcases List.mem_cons.1 h with rfl | h
      · exact .inl rfl
      · exact .inr (List.mem_cons_of_mem _ h)
    split at h
    · rcases List.mem_cons.1 h with rfl | h
      · exact .inl rfl
      · exact .inr h
    · rcases List.mem_cons.1 h with rfl | h
      · exact .inr List.mem_cons_self
      · exact (ih h).imp id (List.mem_cons_of_mem _)

/-- Setting a field keeps the order, and no key comes to stand there twice. -/
theorem pairwise_setField (key : String) (value : α) {fields : List (String × α)}
    (h : fields.Pairwise fun a b => a.1 < b.1) :
    (setField key value fields).Pairwise fun a b => a.1 < b.1 := by
  induction fields with
  | nil => exact List.pairwise_singleton _ _
  | cons g fields ih =>
    obtain ⟨k, v⟩ := g
    obtain ⟨hk, hrest⟩ := List.pairwise_cons.1 h
    rw [setField]
    split
    · rename_i heq
      subst heq
      exact List.pairwise_cons.2 ⟨hk, hrest⟩
    split
    · rename_i hlt
      refine List.pairwise_cons.2 ⟨?_, h⟩
      intro f hf
      rcases List.mem_cons.1 hf with rfl | hf
      · exact hlt
      · exact lt_trans hlt (hk f hf)
    · rename_i hne hnlt
      refine List.pairwise_cons.2 ⟨?_, ih hrest⟩
      intro f hf
      rcases mem_setField hf with hf | hf
      · rw [hf]
        exact lt_of_le_of_ne (not_lt.1 hnlt) hne
      · exact hk f hf

theorem lookup_eq_none_of_lt {key : String} {fields : List (String × α)}
    (h : ∀ f ∈ fields, key < f.1) : fields.lookup key = none := by
  rw [List.lookup_eq_none_iff]
  intro f hf
  exact bne_iff_ne.2 (ne_of_lt (h f hf))

/-- A field in order is the one that is found under its key. -/
theorem lookup_eq_some_of_mem {key : String} {value : α} {fields : List (String × α)}
    (h : fields.Pairwise fun a b => a.1 < b.1) (hmem : (key, value) ∈ fields) :
    fields.lookup key = some value := by
  induction fields with
  | nil => cases hmem
  | cons f fields ih =>
    obtain ⟨hf, hrest⟩ := List.pairwise_cons.1 h
    rw [List.lookup_cons]
    rcases List.mem_cons.1 hmem with rfl | hmem
    · simp
    · have hne : (key == f.1) = false := beq_eq_false_iff_ne.2 (ne_of_lt (hf _ hmem)).symm
      rw [hne]
      exact ih hrest hmem

/-- With the same fields, the first key of one list is not after the first key of another. -/
theorem fst_le_of_lookup_eq {f g : String × α} {a b : List (String × α)}
    (ha : (f :: a).Pairwise fun x y => x.1 < y.1)
    (h : ∀ key, (f :: a).lookup key = (g :: b).lookup key) : f.1 ≤ g.1 := by
  by_contra hlt
  have hnone : (f :: a).lookup g.1 = none := by
    apply lookup_eq_none_of_lt
    intro x hx
    rcases List.mem_cons.1 hx with rfl | hx
    · exact not_le.1 hlt
    · exact lt_trans (not_le.1 hlt) ((List.pairwise_cons.1 ha).1 x hx)
  rw [h, List.lookup_cons, beq_self_eq_true] at hnone
  cases hnone

/-- Fields in order are what can be looked up in them. -/
theorem eq_of_lookup_eq {a b : List (String × α)} (ha : a.Pairwise fun x y => x.1 < y.1)
    (hb : b.Pairwise fun x y => x.1 < y.1) (h : ∀ key, a.lookup key = b.lookup key) : a = b := by
  induction a generalizing b with
  | nil =>
    cases b with
    | nil => rfl
    | cons g b =>
      have hg := h g.1
      rw [List.lookup_nil, List.lookup_cons, beq_self_eq_true] at hg
      cases hg
  | cons f a ih =>
    cases b with
    | nil =>
      have hf := h f.1
      rw [List.lookup_nil, List.lookup_cons, beq_self_eq_true] at hf
      cases hf
    | cons g b =>
      have hkey : f.1 = g.1 :=
        le_antisymm (fst_le_of_lookup_eq ha h) (fst_le_of_lookup_eq hb fun key => (h key).symm)
      obtain ⟨hfa, ha⟩ := List.pairwise_cons.1 ha
      obtain ⟨hgb, hb⟩ := List.pairwise_cons.1 hb
      have hvalue : f.2 = g.2 := by
        have hf := h f.1
        rw [List.lookup_cons, List.lookup_cons, hkey, beq_self_eq_true] at hf
        exact Option.some.inj hf
      have hrest : a = b := by
        apply ih ha hb
        intro key
        by_cases hk : key = f.1
        · rw [hk, lookup_eq_none_of_lt hfa, hkey, lookup_eq_none_of_lt hgb]
        · have hr := h key
          rw [List.lookup_cons, List.lookup_cons, ← hkey, beq_eq_false_iff_ne.2 hk] at hr
          exact hr
      rw [hrest, Prod.ext hkey hvalue]

/-- Fields with different keys can be set in any order. -/
theorem setField_comm {k l : String} (hkl : k ≠ l) (v w : α) {fields : List (String × α)}
    (h : fields.Pairwise fun a b => a.1 < b.1) :
    setField k v (setField l w fields) = setField l w (setField k v fields) := by
  apply eq_of_lookup_eq
  · exact pairwise_setField k v (pairwise_setField l w h)
  · exact pairwise_setField l w (pairwise_setField k v h)
  · intro key
    rw [lookup_setField, lookup_setField, lookup_setField, lookup_setField]
    by_cases hk : key = k
    · simp [hk, hkl]
    · simp [hk]

end CompileFlags.Json
