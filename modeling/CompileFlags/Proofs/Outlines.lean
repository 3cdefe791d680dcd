import CompileFlags.Json.Tree
import CompileFlags.Proofs.KeyOrder
import CompileFlags.Proofs.Results

/-!
# Values as they are written

A text that can be read has an outline: its value with the members of every object in the order in
which they are written, each as often as it is written. The value itself keeps one member for each
key, the last one.

* `toOption_valueOfText` — a text has a value exactly when it has an outline, and the value is that
  of the outline.
* `lookup_fieldsAfter` — an object has for each key the last value that is written for it.
* `fieldsAfter_congr` — the fields of an object depend only on what is written for each key, not on
  the order of members with different keys.
-/

namespace CompileFlags.Json

/-- A value as it is written: the members of an object in their order, where a key may repeat. -/
inductive Outline where
  | scalar (s : Scalar)
  | list (items : List Outline)
  | object (members : List (String × Outline))

mutual

/-- What is written where a tree can be read to its end. -/
def Tree.outline? : Tree → Option Outline
  | .scalar s _ => some (.scalar s)
  | .list _ items => items.outlines?.map .list
  | .object _ members => members.outlines?.map .object
  | .broken _ => none

/-- The items of a list that can be read to its end. -/
def Items.outlines? : Items → Option (List Outline)
  | .closed _ => some []
  | .broken _ => none
  | .item value rest =>
    value.outline?.bind fun o => rest.outlines?.map (o :: ·)

/-- The members of an object that can be read to its end. -/
def Members.outlines? : Members → Option (List (String × Outline))
  | .closed _ => some []
  | .broken _ => none
  | .member key value rest =>
    value.outline?.bind fun o => rest.outlines?.map ((key.name, o) :: ·)

end

mutual

/-- The value that is written. -/
def Outline.value : Outline → Value
  | .scalar s => .scalar s
  | .list items => .list (valuesOfItems items)
  | .object members => .object (fieldsAfter [] members)

/-- The values of the items of a list. -/
def valuesOfItems : List Outline → List Value
  | [] => []
  | o :: rest => o.value :: valuesOfItems rest

/-- The fields of an object, of which some were written before. -/
def fieldsAfter (before : Fields) : List (String × Outline) → Fields
  | [] => before
  | (key, o) :: rest => fieldsAfter (setField key o.value before) rest

end

/-- What a text says, if all of it can be read. -/
def Outline.ofText? (text : String) : Option Outline :=
  let d := Document.ofText text
  if d.trailing.isSome then none else d.value.outline?

/-! ## Values and outlines -/

mutual

/-- A tree has the value of its outline, and none if it has no outline. -/
theorem Tree.toOption_toValue (t : Tree) : t.toValue.toOption = t.outline?.map Outline.value := by
  cases t with
  | scalar s stop => rfl
  | list start items =>
    rw [Tree.toValue, Tree.outline?, toOption_map, items.toOption_toValues, Option.map_map,
      Option.map_map]
    rfl
  | object start members =>
    rw [Tree.toValue, Tree.outline?, toOption_map, members.toOption_toFields, Option.map_map,
      Option.map_map]
    rfl
  | broken f => rfl

theorem Items.toOption_toValues (items : Items) :
    items.toValues.toOption = items.outlines?.map valuesOfItems := by
  cases items with
  | closed stop => rfl
  | broken f => rfl
  | item value rest =>
    rw [Items.toValues, Items.outlines?, toOption_bind, value.toOption_toValue]
    cases value.outline? with
    | none => rfl
    | some o =>
      rw [Option.map_some, Option.bind_some, Option.bind_some, toOption_bind,
        rest.toOption_toValues, Option.map_map]
      cases rest.outlines? <;> rfl

theorem Members.toOption_toFields (members : Members) (before : Fields) :
    (members.toFields before).toOption = members.outlines?.map (fieldsAfter before) := by
  cases members with
  | closed stop => rfl
  | broken f => rfl
  | member key value rest =>
    rw [Members.toFields, Members.outlines?, toOption_bind, value.toOption_toValue]
    cases value.outline? with
    | none => rfl
    | some o =>
      rw [Option.map_some, Option.bind_some, Option.bind_some, rest.toOption_toFields,
        Option.map_map]
      rfl

end

theorem Tree.toValue_of_outline? {t : Tree} {o : Outline} (h : t.outline? = some o) :
    t.toValue = .ok o.value := by
  rw [← toOption_eq_some_iff, t.toOption_toValue, h]
  rfl

/-- A text has the value of its outline, and none if it has no outline. -/
theorem toOption_valueOfText (text : String) :
    (Value.ofText text).toOption = (Outline.ofText? text).map Outline.value := by
  unfold Value.ofText Outline.ofText?
  dsimp only
  rw [toOption_bind, Tree.toOption_toValue]
  cases (Document.ofText text).trailing with
  | none => cases (Document.ofText text).value.outline? <;> rfl
  | some f => cases (Document.ofText text).value.outline? <;> rfl

/-! ## Members -/

theorem Members.eq_closed_of_outlines? {members : Members} (h : members.outlines? = some []) :
    ∃ stop, members = .closed stop := by
  cases members with
  | closed stop => exact ⟨stop, rfl⟩
  | broken f => cases h
  | member key value rest =>
    rw [Members.outlines?, Option.bind_eq_some_iff] at h
    obtain ⟨o, -, h⟩ := h
    obtain ⟨ms, -, h⟩ := Option.map_eq_some_iff.1 h
    cases h

theorem Members.eq_member_of_outlines? {members : Members} {k : String} {o : Outline}
    {ms : List (String × Outline)} (h : members.outlines? = some ((k, o) :: ms)) :
    ∃ key value rest, members = .member key value rest ∧ key.name = k ∧
      value.outline? = some o ∧ rest.outlines? = some ms := by
  cases members with
  | closed stop => cases h
  | broken f => cases h
  | member key value rest =>
    rw [Members.outlines?, Option.bind_eq_some_iff] at h
    obtain ⟨o', ho, h⟩ := h
    obtain ⟨ms', hms, h⟩ := Option.map_eq_some_iff.1 h
    cases h
    exact ⟨key, value, rest, rfl, rfl, ho, hms⟩

/-! ## What is written for a key -/

/-- What is written for a key, in order. -/
def writtenFor (key : String) (members : List (String × Outline)) : List Outline :=
  (members.filter fun m => m.1 == key).map Prod.snd

/-- The members with other keys than some. -/
def others (known : List String) (members : List (String × Outline)) : List (String × Outline) :=
  members.filter fun m => !known.contains m.1

theorem writtenFor_cons (key k : String) (o : Outline) (members : List (String × Outline)) :
    writtenFor key ((k, o) :: members) =
      if k = key then o :: writtenFor key members else writtenFor key members := by
  rw [writtenFor, List.filter_cons]
  by_cases h : k = key
  · rw [if_pos h, if_pos (beq_iff_eq.2 h), List.map_cons]
    rfl
  · rw [if_neg h, if_neg (fun hb => h (beq_iff_eq.1 hb))]
    rfl

theorem writtenFor_append (key : String) (before after : List (String × Outline)) :
    writtenFor key (before ++ after) = writtenFor key before ++ writtenFor key after := by
  simp [writtenFor]

theorem others_cons (known : List String) (k : String) (o : Outline)
    (members : List (String × Outline)) :
    others known ((k, o) :: members) =
      if k ∈ known then others known members else (k, o) :: others known members := by
  rw [others, List.filter_cons]
  by_cases h : k ∈ known
  · rw [if_pos h, if_neg (by simpa using h)]
    rfl
  · rw [if_neg h, if_pos (by simpa using h)]
    rfl

theorem writtenFor_others (key : String) (known : List String)
    (members : List (String × Outline)) :
    writtenFor key (others known members) =
      if key ∈ known then [] else writtenFor key members := by
  induction members with
  | nil =>
    split
    · rfl
    · rfl
  | cons m members ih =>
    obtain ⟨k, o⟩ := m
    rw [others_cons, writtenFor_cons]
    by_cases hk : k ∈ known
    · rw [if_pos hk, ih]
      split
      · rfl
      · rename_i hkey
        have hne : k ≠ key := by
          rintro rfl
          exact hkey hk
        rw [if_neg hne]
    · rw [if_neg hk, writtenFor_cons, ih]
      by_cases hkey : k = key
      · subst hkey
        rw [if_pos rfl, if_neg hk, if_neg hk, if_pos rfl]
      · rw [if_neg hkey, if_neg hkey]

/-! ## Fields -/

/-- An object has for each key the last value that is written for it. -/
theorem lookup_fieldsAfter (before : Fields) (members : List (String × Outline)) (key : String) :
    (fieldsAfter before members).lookup key =
      ((writtenFor key members).getLast?.map Outline.value).or (before.lookup key) := by
  induction members generalizing before with
  | nil => rfl
  | cons m members ih =>
    obtain ⟨k, o⟩ := m
    rw [fieldsAfter, ih, lookup_setField, writtenFor_cons]
    by_cases hk : k = key
    · subst hk
      rw [if_pos rfl, if_pos rfl, List.getLast?_cons]
      cases (writtenFor k members).getLast? <;> rfl
    · rw [if_neg (Ne.symm hk), if_neg hk]

/-- The keys of fields are in order, and no key is there twice. -/
def Ordered (fields : Fields) : Prop := fields.Pairwise fun a b => a.1 < b.1

theorem ordered_fieldsAfter {before : Fields} (h : Ordered before)
    (members : List (String × Outline)) : Ordered (fieldsAfter before members) := by
  induction members generalizing before with
  | nil => exact h
  | cons m members ih =>
    obtain ⟨k, o⟩ := m
    rw [fieldsAfter]
    exact ih (pairwise_setField k o.value h)

/-- The fields of an object depend only on what is written for each key. -/
theorem fieldsAfter_congr {a b : List (String × Outline)}
    (h : ∀ key, writtenFor key a = writtenFor key b) : fieldsAfter [] a = fieldsAfter [] b := by
  apply eq_of_lookup_eq
  · exact ordered_fieldsAfter List.Pairwise.nil a
  · exact ordered_fieldsAfter List.Pairwise.nil b
  · intro key
    rw [lookup_fieldsAfter, lookup_fieldsAfter, h]

end CompileFlags.Json
