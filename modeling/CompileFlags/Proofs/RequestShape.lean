import CompileFlags.Proofs.ReadBack
import CompileFlags.Request
import Mathlib.Data.List.Forall2

/-!
# Which texts are requests

A request is an object. A key that is understood may be written once, and with a value of its kind;
every other key may be written as often as one likes, and its last value is kept aside.

* `field?` is the rule for a key that is understood, the same for all of them.
* `Request.toOption_ofText` — reading member by member gives what the rule gives for each key.
* `Request.accepted_iff_wellShaped` — which texts are requests, and what is read from them.
-/

namespace CompileFlags

open Json

namespace Json

/-! ## Kinds of values -/

/-- A text. -/
def Outline.text? : Outline → Option String
  | .scalar (.text s) => some s
  | _ => none

/-- A boolean, or nothing for null. -/
def Outline.flag? : Outline → Option (Option Bool)
  | .scalar .null => some none
  | .scalar (.boolean b) => some (some b)
  | _ => none

/-- The members of an object. -/
def Outline.members? : Outline → Option (List (String × Outline))
  | .object members => some members
  | _ => none

variable {t : Tree} {o : Outline}

theorem Tree.toOption_toText (h : t.outline? = some o) : t.toText.toOption = o.text? := by
  cases t with
  | scalar s stop =>
    cases h
    cases s <;> rfl
  | list start items =>
    obtain ⟨os, -, rfl⟩ := Option.map_eq_some_iff.1 h
    rfl
  | object start members =>
    obtain ⟨ms, -, rfl⟩ := Option.map_eq_some_iff.1 h
    rfl
  | broken f => cases h

theorem Tree.toOption_toBool? (h : t.outline? = some o) : t.toBool?.toOption = o.flag? := by
  cases t with
  | scalar s stop =>
    cases h
    cases s <;> rfl
  | list start items =>
    obtain ⟨os, -, rfl⟩ := Option.map_eq_some_iff.1 h
    rfl
  | object start members =>
    obtain ⟨ms, -, rfl⟩ := Option.map_eq_some_iff.1 h
    rfl
  | broken f => cases h

/-- Reading the members of an object is reading those of its outline. -/
theorem toOption_bind_toMembers {β : Type} (expected : String) (h : t.outline? = some o)
    {read : Members → Except Failure β} {read' : List (String × Outline) → Option β}
    (hread : ∀ members ms, members.outlines? = some ms → (read members).toOption = read' ms) :
    (t.toMembers expected >>= read).toOption = o.members?.bind read' := by
  rw [toOption_bind]
  cases t with
  | scalar s stop =>
    cases h
    rfl
  | list start items =>
    obtain ⟨os, -, rfl⟩ := Option.map_eq_some_iff.1 h
    rfl
  | object start members =>
    obtain ⟨ms, hm, rfl⟩ := Option.map_eq_some_iff.1 h
    exact hread members ms hm
  | broken f => cases h

/-! ## Keys that are understood -/

/-- What is read for a key that is understood: nothing, or what was read before, if the key is not
written; one value of its kind, if it is written once; and otherwise there is no reading. -/
def field? {β : Type} (read : Outline → Option β) (before : Option β) :
    List Outline → Option (Option β)
  | [] => some before
  | [o] => if before.isSome then none else (read o).map some
  | _ :: _ :: _ => none

theorem field?_cons {β : Type} (read : Outline → Option β) (before : Option β) (o : Outline)
    (rest : List Outline) :
    field? read before (o :: rest) =
      if before.isSome then none else (read o).bind fun b => field? read (some b) rest := by
  cases rest with
  | nil =>
    rw [field?]
    cases read o <;> rfl
  | cons o' rest =>
    rw [field?]
    split
    · rfl
    · cases read o with
      | none => rfl
      | some b => cases rest <;> rfl

theorem field?_congr {β : Type} {read : Outline → Option β} {before : Option β}
    {xs ys : List Outline} (h : List.Forall₂ (fun x y => read x = read y) xs ys) :
    field? read before xs = field? read before ys := by
  cases h with
  | nil => rfl
  | cons hread hrest =>
    cases hrest with
    | nil => rw [field?, field?, hread]
    | cons _ _ => rfl

theorem field?_map {β γ : Type} (f : β → γ) (read : Outline → Option β) (xs : List Outline) :
    (field? read none xs).map (Option.map f) = field? (fun o => (read o).map f) none xs := by
  match xs with
  | [] => rfl
  | [o] =>
    show ((read o).map some).map (Option.map f) = ((read o).map f).map some
    cases read o <;> rfl
  | _ :: _ :: _ => rfl

end Json

/-! ## Options -/

namespace Options

/-- The options that are written as the members of an object. -/
def ofOutlines? (members : List (String × Outline)) : Option Options :=
  (field? Outline.flag? none (writtenFor "cache" members)).map fun cache =>
    { cache := cache.getD none, ignored := fieldsAfter [] (others ["cache"] members) }

/-- Reading the members one by one, with a cache option or none before them. -/
theorem toOption_ofMembers (before : Option (Option Bool)) (ignored : Fields) {members : Members}
    {ms : List (String × Outline)} (h : members.outlines? = some ms) :
    (ofMembers before.isSome { cache := before.getD none, ignored } members).toOption =
      (field? Outline.flag? before (writtenFor "cache" ms)).map fun cache =>
        { cache := cache.getD none, ignored := fieldsAfter ignored (others ["cache"] ms) } := by
  induction ms generalizing before ignored members with
  | nil =>
    obtain ⟨stop, rfl⟩ := Members.eq_closed_of_outlines? h
    cases before <;> rfl
  | cons m ms ih =>
    obtain ⟨k, o⟩ := m
    obtain ⟨key, value, rest, rfl, rfl, hv, hr⟩ := Members.eq_member_of_outlines? h
    rw [ofMembers, writtenFor_cons, others_cons]
    by_cases hk : key.name = "cache"
    · rw [if_pos hk, if_pos hk, if_pos (List.mem_singleton.2 hk), field?_cons]
      cases before with
      | some b => rfl
      | none =>
        rw [Option.isSome_none, if_neg Bool.false_ne_true, if_neg Bool.false_ne_true, toOption_bind,
          Tree.toOption_toBool? hv]
        cases o.flag? with
        | none => rfl
        | some cache => exact ih (some cache) ignored hr
    · rw [if_neg hk, if_neg hk, if_neg (fun hm => hk (List.mem_singleton.1 hm)),
        Tree.toValue_of_outline? hv]
      exact ih before (setField key.name o.value ignored) hr

theorem toOption_ofTree {t : Tree} {o : Outline} (h : t.outline? = some o) :
    (ofTree t).toOption = o.members?.bind ofOutlines? :=
  toOption_bind_toMembers _ h fun _ _ hm => toOption_ofMembers none [] hm

end Options

/-! ## Requests -/

namespace Request

/-- The keys of a request that are understood. -/
def known : List String := ["filename", "options"]

theorem mem_known_iff {key : String} : key ∈ known ↔ key = "filename" ∨ key = "options" := by
  rw [known, List.mem_cons, List.mem_singleton]

/-- The request that is written as the members of an object. -/
def ofOutlines? (members : List (String × Outline)) : Option Request :=
  (field? Outline.text? none (writtenFor "filename" members)).bind fun filename =>
  (field? (fun o => o.members?.bind Options.ofOutlines?) none
    (writtenFor "options" members)).bind fun options =>
  filename.map fun filename =>
    { filename, options := options.getD {}, ignored := fieldsAfter [] (others known members) }

/-- Reading the members one by one, with what the draft holds before them. -/
theorem toOption_ofMembers (d : Draft) {members : Members} {ms : List (String × Outline)}
    (h : members.outlines? = some ms) :
    (ofMembers d members).toOption =
      (field? Outline.text? d.filename (writtenFor "filename" ms)).bind fun filename =>
      (field? (fun o => o.members?.bind Options.ofOutlines?) d.options
        (writtenFor "options" ms)).bind fun options =>
      filename.map fun filename =>
        { filename, options := options.getD {},
          ignored := fieldsAfter d.ignored (others known ms) } := by
  induction ms generalizing d members with
  | nil =>
    obtain ⟨stop, rfl⟩ := Members.eq_closed_of_outlines? h
    rw [ofMembers]
    cases d.filename <;> rfl
  | cons m ms ih =>
    obtain ⟨k, o⟩ := m
    obtain ⟨key, value, rest, rfl, rfl, hv, hr⟩ := Members.eq_member_of_outlines? h
    rw [ofMembers, writtenFor_cons, writtenFor_cons, others_cons]
    by_cases hf : key.name = "filename"
    · have ho : ¬key.name = "options" := by
        rw [hf]
        decide
      rw [if_pos hf, if_pos hf, if_neg ho, if_pos (mem_known_iff.2 (.inl hf)), field?_cons]
      cases d.filename.isSome with
      | true => rfl
      | false =>
        rw [if_neg Bool.false_ne_true, if_neg Bool.false_ne_true, toOption_bind,
          Tree.toOption_toText hv]
        cases o.text? with
        | none => rfl
        | some filename => exact ih { d with filename := some filename } hr
    rw [if_neg hf, if_neg hf]
    by_cases ho : key.name = "options"
    · rw [if_pos ho, if_pos ho, if_pos (mem_known_iff.2 (.inr ho)), field?_cons]
      obtain ⟨filename, hfilename⟩ : ∃ f,
          f = field? Outline.text? d.filename (writtenFor "filename" ms) := ⟨_, rfl⟩
      rw [← hfilename]
      -- the rule asks for the name of the file first, so a fault of the options comes second there
      cases d.options.isSome with
      | true => cases filename <;> rfl
      | false =>
        rw [if_neg Bool.false_ne_true, if_neg Bool.false_ne_true, toOption_bind,
          Options.toOption_ofTree hv]
        cases o.members?.bind Options.ofOutlines? with
        | none => cases filename <;> rfl
        | some options =>
          rw [hfilename]
          exact ih { d with options := some options } hr
    · have hk : key.name ∉ known := fun hm => (mem_known_iff.1 hm).elim hf ho
      rw [if_neg ho, if_neg ho, if_neg hk, Tree.toValue_of_outline? hv]
      exact ih { d with ignored := setField key.name o.value d.ignored } hr

/-- **A text is the request of its outline**, if it has one. -/
theorem toOption_ofText {text : String} {o : Outline} (h : Outline.ofText? text = some o) :
    (ofText text).toOption = o.members?.bind ofOutlines? := by
  unfold Outline.ofText? at h
  dsimp only at h
  cases ht : (Document.ofText text).trailing with
  | some f =>
    rw [ht] at h
    cases h
  | none =>
    rw [ht, Option.isSome_none, if_neg Bool.false_ne_true] at h
    have hd : (ofText text).toOption = (ofTree (Document.ofText text).value).toOption := by
      rw [ofText, ofDocument, ht]
      cases ofTree (Document.ofText text).value <;> rfl
    rw [hd]
    exact toOption_bind_toMembers _ h fun _ _ hm => toOption_ofMembers {} hm

end Request

/-! ## The shape of a request -/

theorem field?_eq_some_iff {β : Type} {read : Outline → Option β} {values : List Outline}
    {b? : Option β} :
    field? read none values = some b? ↔
      values = [] ∧ b? = none ∨ ∃ o b, values = [o] ∧ read o = some b ∧ b? = some b := by
  match values with
  | [] =>
    rw [field?, Option.some.injEq]
    constructor
    · rintro rfl
      exact .inl ⟨rfl, rfl⟩
    · rintro (⟨-, rfl⟩ | ⟨o, b, h, -⟩)
      · rfl
      · cases h
  | [o] =>
    rw [field?, Option.isSome_none, if_neg Bool.false_ne_true, Option.map_eq_some_iff]
    constructor
    · rintro ⟨b, hb, rfl⟩
      exact .inr ⟨o, b, rfl, hb, rfl⟩
    · rintro (⟨h, -⟩ | ⟨o', b, h, hb, rfl⟩)
      · cases h
      · cases h
        exact ⟨b, hb, rfl⟩
  | o :: o' :: rest =>
    rw [field?]
    constructor
    · intro h
      cases h
    · rintro (⟨h, -⟩ | ⟨o'', b, h, -⟩)
      · cases h
      · cases h

/-- There is a reading exactly when the key is written at most once, with a value of its kind. -/
theorem exists_field?_iff {β : Type} {read : Outline → Option β} {values : List Outline} :
    (∃ b?, field? read none values = some b?) ↔
      values.length ≤ 1 ∧ ∀ o ∈ values, ∃ b, read o = some b := by
  match values with
  | [] =>
    refine ⟨fun _ => ⟨Nat.zero_le 1, ?_⟩, fun _ => ⟨none, rfl⟩⟩
    intro o ho
    cases ho
  | [o] =>
    constructor
    · rintro ⟨b?, h⟩
      rcases field?_eq_some_iff.1 h with ⟨h, -⟩ | ⟨o', b, h, hb, -⟩
      · cases h
      · refine ⟨Nat.le_refl 1, ?_⟩
        intro x hx
        rw [h, List.mem_singleton] at hx
        exact ⟨b, hx ▸ hb⟩
    · rintro ⟨-, h⟩
      obtain ⟨b, hb⟩ := h o List.mem_cons_self
      exact ⟨some b, field?_eq_some_iff.2 (.inr ⟨o, b, rfl, hb, rfl⟩)⟩
  | o :: o' :: rest =>
    constructor
    · rintro ⟨b?, h⟩
      cases h
    · rintro ⟨h, -⟩
      exact absurd h (by simp)

/-- The members of an object are those of options: the cache option is there at most once, as a
boolean or null. -/
structure Options.WellShaped (members : List (String × Outline)) : Prop where
  cache_once : (writtenFor "cache" members).length ≤ 1
  cache_flag : ∀ o ∈ writtenFor "cache" members,
    o = .scalar .null ∨ ∃ b, o = .scalar (.boolean b)

/-- The members of an object are those of a request: the name of the file is there once, as a text,
and options are there at most once, as an object. -/
structure Request.WellShaped (members : List (String × Outline)) : Prop where
  filename : ∃ name, writtenFor "filename" members = [.scalar (.text name)]
  options_once : (writtenFor "options" members).length ≤ 1
  options_object : ∀ o ∈ writtenFor "options" members,
    ∃ ms, o = .object ms ∧ Options.WellShaped ms

/-- The last value that is written for a key which is not among some. -/
def keptAside (known : List String) (members : List (String × Outline)) (key : String) :
    Option Value :=
  if key ∈ known then none else (writtenFor key members).getLast?.map Outline.value

theorem lookup_ignored (known : List String) (members : List (String × Outline)) (key : String) :
    (fieldsAfter [] (others known members)).lookup key = keptAside known members key := by
  rw [lookup_fieldsAfter, writtenFor_others, keptAside, List.lookup_nil, Option.or_none]
  split <;> rfl

/-- Options hold what the members of an object say: the cache option if it is a boolean, and the
last value of every other key. -/
structure Options.Holds (o : Options) (members : List (String × Outline)) : Prop where
  cache : ∀ b, o.cache = some b ↔ writtenFor "cache" members = [.scalar (.boolean b)]
  ignored : ∀ key, o.ignored.lookup key = keptAside ["cache"] members key
  ordered : Ordered o.ignored

/-- The members of the options, of which there are none without options. -/
def optionMembers (members : List (String × Outline)) : List (String × Outline) :=
  (writtenFor "options" members).flatMap fun o => o.members?.getD []

/-- A request holds what the members of an object say: the name of the file, the options, and the
last value of every other key. -/
structure Request.Holds (r : Request) (members : List (String × Outline)) : Prop where
  filename : writtenFor "filename" members = [.scalar (.text r.filename)]
  options : r.options.Holds (optionMembers members)
  ignored : ∀ key, r.ignored.lookup key = keptAside known members key
  ordered : Ordered r.ignored

/-- The same is written for each key, in the same order. Members with different keys may stand in
any order. -/
def SameByKey (a b : List (String × Outline)) : Prop :=
  ∀ key, writtenFor key a = writtenFor key b

/-- The members of two requests are the same but for the order of members with different keys, in
the request and in its options. -/
structure SameRequest (a b : List (String × Outline)) : Prop where
  fields : ∀ key, key ≠ "options" → writtenFor key a = writtenFor key b
  options : List.Forall₂ (fun x y => x = y ∨ ∃ ms ms', x = .object ms ∧ y = .object ms' ∧
    SameByKey ms ms') (writtenFor "options" a) (writtenFor "options" b)

theorem Outline.flag?_eq_some_iff {o : Outline} {c : Option Bool} :
    o.flag? = some c ↔
      o = .scalar .null ∧ c = none ∨ ∃ b, o = .scalar (.boolean b) ∧ c = some b := by
  constructor
  · intro h
    unfold Outline.flag? at h
    split at h
    · cases h
      exact .inl ⟨rfl, rfl⟩
    · cases h
      exact .inr ⟨_, rfl, rfl⟩
    · cases h
  · rintro (⟨rfl, rfl⟩ | ⟨b, rfl, rfl⟩)
    · rfl
    · rfl

theorem Outline.text?_eq_some_iff {o : Outline} {s : String} :
    o.text? = some s ↔ o = .scalar (.text s) := by
  constructor
  · intro h
    unfold Outline.text? at h
    split at h
    · cases h
      rfl
    · cases h
  · rintro rfl
    rfl

theorem Outline.members?_eq_some_iff {o : Outline} {ms : List (String × Outline)} :
    o.members? = some ms ↔ o = .object ms := by
  constructor
  · intro h
    unfold Outline.members? at h
    split at h
    · cases h
      rfl
    · cases h
  · rintro rfl
    rfl

theorem others_congr {a b : List (String × Outline)} (known : List String)
    (h : ∀ key, key ∉ known → writtenFor key a = writtenFor key b) :
    fieldsAfter [] (others known a) = fieldsAfter [] (others known b) := by
  apply fieldsAfter_congr
  intro key
  rw [writtenFor_others, writtenFor_others]
  split
  · rfl
  · rename_i hk
    exact h key hk

/-! ## What is read from options -/

namespace Options

theorem holds_of_ofOutlines? {members : List (String × Outline)} {o : Options}
    (h : ofOutlines? members = some o) : o.Holds members := by
  obtain ⟨c, hc, rfl⟩ := Option.map_eq_some_iff.1 h
  refine ⟨?_, lookup_ignored ["cache"] members, ordered_fieldsAfter List.Pairwise.nil _⟩
  intro b
  rcases field?_eq_some_iff.1 hc with ⟨hw, rfl⟩ | ⟨v, c, hw, hv, rfl⟩
  · rw [hw]
    constructor
    · intro h
      cases h
    · intro h
      cases h
  · rw [hw]
    rcases Outline.flag?_eq_some_iff.1 hv with ⟨rfl, rfl⟩ | ⟨b', rfl, rfl⟩
    · constructor
      · intro h
        cases h
      · intro h
        cases h
    · show some b' = some b ↔ _
      constructor
      · intro h
        cases h
        rfl
      · intro h
        cases h
        rfl

theorem exists_ofOutlines?_iff (members : List (String × Outline)) :
    (∃ o, ofOutlines? members = some o) ↔ WellShaped members := by
  have hfield : (∃ o, ofOutlines? members = some o) ↔
      ∃ c, field? Outline.flag? none (writtenFor "cache" members) = some c := by
    constructor
    · rintro ⟨o, h⟩
      obtain ⟨c, hc, -⟩ := Option.map_eq_some_iff.1 h
      exact ⟨c, hc⟩
    · rintro ⟨c, hc⟩
      exact ⟨_, Option.map_eq_some_iff.2 ⟨c, hc, rfl⟩⟩
  rw [hfield, exists_field?_iff]
  constructor
  · rintro ⟨hone, hflag⟩
    refine ⟨hone, ?_⟩
    intro o ho
    obtain ⟨c, hc⟩ := hflag o ho
    rcases Outline.flag?_eq_some_iff.1 hc with ⟨rfl, -⟩ | ⟨b, rfl, -⟩
    · exact .inl rfl
    · exact .inr ⟨b, rfl⟩
  · rintro ⟨hone, hflag⟩
    refine ⟨hone, ?_⟩
    intro o ho
    rcases hflag o ho with rfl | ⟨b, rfl⟩
    · exact ⟨none, rfl⟩
    · exact ⟨some b, rfl⟩

theorem ofOutlines?_congr {a b : List (String × Outline)} (h : SameByKey a b) :
    ofOutlines? a = ofOutlines? b := by
  rw [ofOutlines?, ofOutlines?, h "cache", others_congr ["cache"] fun key _ => h key]

end Options

/-! ## What is read from requests -/

namespace Request

/-- The rule for the options. -/
theorem members?_bind_eq_some_iff {o : Outline} {options : Options} :
    o.members?.bind Options.ofOutlines? = some options ↔
      ∃ ms, o = .object ms ∧ Options.ofOutlines? ms = some options := by
  rw [Option.bind_eq_some_iff]
  constructor
  · rintro ⟨ms, hm, h⟩
    exact ⟨ms, Outline.members?_eq_some_iff.1 hm, h⟩
  · rintro ⟨ms, rfl, h⟩
    exact ⟨ms, rfl, h⟩

theorem ofOutlines?_eq_some_iff {members : List (String × Outline)} {r : Request} :
    ofOutlines? members = some r ↔
      ∃ name options?, writtenFor "filename" members = [.scalar (.text name)] ∧
        field? (fun o => o.members?.bind Options.ofOutlines?) none (writtenFor "options" members) =
          some options? ∧
        r = { filename := name, options := options?.getD {},
              ignored := fieldsAfter [] (others known members) } := by
  rw [ofOutlines?, Option.bind_eq_some_iff]
  constructor
  · rintro ⟨name?, hname, h⟩
    obtain ⟨options?, hoptions, h⟩ := Option.bind_eq_some_iff.1 h
    obtain ⟨name, rfl, rfl⟩ := Option.map_eq_some_iff.1 h
    rcases field?_eq_some_iff.1 hname with ⟨-, h⟩ | ⟨o, name', hw, ho, h⟩
    · cases h
    · cases h
      rw [Outline.text?_eq_some_iff] at ho
      exact ⟨name, options?, ho ▸ hw, hoptions, rfl⟩
  · rintro ⟨name, options?, hw, hoptions, rfl⟩
    refine ⟨some name, ?_, ?_⟩
    · exact field?_eq_some_iff.2 (.inr ⟨_, name, hw, rfl, rfl⟩)
    · rw [hoptions]
      rfl

theorem exists_ofOutlines?_iff (members : List (String × Outline)) :
    (∃ r, ofOutlines? members = some r) ↔ WellShaped members := by
  constructor
  · rintro ⟨r, h⟩
    obtain ⟨name, options?, hname, hoptions, -⟩ := ofOutlines?_eq_some_iff.1 h
    obtain ⟨hone, hobject⟩ := exists_field?_iff.1 ⟨options?, hoptions⟩
    refine ⟨⟨name, hname⟩, hone, ?_⟩
    intro o ho
    obtain ⟨options, h⟩ := hobject o ho
    obtain ⟨ms, rfl, hms⟩ := members?_bind_eq_some_iff.1 h
    exact ⟨ms, rfl, (Options.exists_ofOutlines?_iff ms).1 ⟨options, hms⟩⟩
  · rintro ⟨⟨name, hname⟩, hone, hobject⟩
    have hread : ∀ o ∈ writtenFor "options" members,
        ∃ options, o.members?.bind Options.ofOutlines? = some options := by
      intro o ho
      obtain ⟨ms, rfl, hms⟩ := hobject o ho
      exact (Options.exists_ofOutlines?_iff ms).2 hms
    obtain ⟨options?, hoptions⟩ := exists_field?_iff.2 ⟨hone, hread⟩
    exact ⟨_, ofOutlines?_eq_some_iff.2 ⟨name, options?, hname, hoptions, rfl⟩⟩

theorem holds_of_ofOutlines? {members : List (String × Outline)} {r : Request}
    (h : ofOutlines? members = some r) : r.Holds members := by
  obtain ⟨name, options?, hname, hoptions, rfl⟩ := ofOutlines?_eq_some_iff.1 h
  refine ⟨hname, ?_, lookup_ignored known members, ordered_fieldsAfter List.Pairwise.nil _⟩
  rcases field?_eq_some_iff.1 hoptions with ⟨hw, rfl⟩ | ⟨o, options, hw, ho, rfl⟩
  · -- without options, none of them is written
    rw [optionMembers, hw]
    exact Options.holds_of_ofOutlines? (show Options.ofOutlines? [] = some {} from rfl)
  · obtain ⟨ms, rfl, hms⟩ := members?_bind_eq_some_iff.1 ho
    rw [optionMembers, hw, List.flatMap_singleton]
    exact Options.holds_of_ofOutlines? hms

theorem ofOutlines?_congr {a b : List (String × Outline)} (h : SameRequest a b) :
    ofOutlines? a = ofOutlines? b := by
  have hfilename : writtenFor "filename" a = writtenFor "filename" b :=
    h.fields "filename" (by decide)
  have hignored : fieldsAfter [] (others known a) = fieldsAfter [] (others known b) := by
    apply others_congr
    intro key hk
    apply h.fields
    rintro rfl
    exact hk (mem_known_iff.2 (.inr rfl))
  have hoptions : field? (fun o => o.members?.bind Options.ofOutlines?) none
        (writtenFor "options" a) =
      field? (fun o => o.members?.bind Options.ofOutlines?) none (writtenFor "options" b) := by
    apply field?_congr
    refine List.Forall₂.imp ?_ h.options
    intro x y hxy
    rcases hxy with rfl | ⟨ms, ms', rfl, rfl, hsame⟩
    · rfl
    · exact Options.ofOutlines?_congr hsame
  rw [ofOutlines?, ofOutlines?, hfilename, hignored, hoptions]

/-- **Which texts are requests.** A text that is a value, with its members in the order in which
they are written, is a request exactly when it is an object in which the name of the file is written
once, as a text, and options at most once, as an object with the cache option at most once, as a
boolean or null. The request then holds these values, and for each other key the last value that is
written for it; so no key is both understood and kept aside, a cache option outside the options or a
file name inside them is only kept aside, and the order of members with different keys changes
nothing. -/
theorem accepted_iff_wellShaped (text : String) :
    (Value.ofText text).toOption = (Outline.ofText? text).map Outline.value ∧
    ∀ o, Outline.ofText? text = some o →
      ((∃ r, ofText text = .ok r) ↔ ∃ members, o = .object members ∧ WellShaped members) ∧
      (∀ r, ofText text = .ok r → ∃ members, o = .object members ∧ r.Holds members) ∧
      ∀ members members' text', o = .object members →
        Outline.ofText? text' = some (.object members') → SameRequest members members' →
          (ofText text').toOption = (ofText text).toOption := by
  refine ⟨toOption_valueOfText text, ?_⟩
  intro o ho
  have hread := toOption_ofText ho
  refine ⟨?_, ?_, ?_⟩
  · constructor
    · rintro ⟨r, hr⟩
      rw [hr] at hread
      obtain ⟨members, hm, hr⟩ := Option.bind_eq_some_iff.1 hread.symm
      have hshape := (exists_ofOutlines?_iff members).1 ⟨r, hr⟩
      exact ⟨members, Outline.members?_eq_some_iff.1 hm, hshape⟩
    · rintro ⟨members, rfl, hshape⟩
      obtain ⟨r, hr⟩ := (exists_ofOutlines?_iff members).2 hshape
      exact ⟨r, toOption_eq_some_iff.1 (hread.trans hr)⟩
  · intro r hr
    rw [hr] at hread
    obtain ⟨members, hm, hr⟩ := Option.bind_eq_some_iff.1 hread.symm
    exact ⟨members, Outline.members?_eq_some_iff.1 hm, holds_of_ofOutlines? hr⟩
  · rintro members members' text' rfl ho' hsame
    rw [toOption_ofText ho', hread]
    exact (ofOutlines?_congr hsame).symm

/-- A request with the cache option inside the options and beside them, and with a key that is
written twice. -/
def repeatedKeys : List (String × Outline) :=
  [("cache", .scalar (.boolean true)), ("filename", .scalar (.text "a.c")),
    ("options", .object [("filename", .scalar (.text "b.c")), ("cache", .scalar (.boolean false))]),
    ("cache", .scalar (.text "x"))]

/-- How it is written. -/
def repeatedKeysText : String :=
  .ofList (objectOf [("cache", boolean true), ("filename", Text.quote "a.c"),
    ("options", objectOf [("filename", Text.quote "b.c"), ("cache", boolean false)]),
    ("cache", Text.quote "x")])

theorem ofText?_repeatedKeysText :
    Outline.ofText? repeatedKeysText = some (.object repeatedKeys) := by
  have hinner : Reads 126 (objectOf [("filename", Text.quote "b.c"), ("cache", boolean false)])
      (.object [("filename", .scalar (.text "b.c")), ("cache", .scalar (.boolean false))]) :=
    reads_objectOf (.cons ⟨rfl, reads_quote 125 "b.c"⟩ (.cons ⟨rfl, reads_boolean 125 false⟩ .nil))
  apply ofText?_of_reads
  exact reads_objectOf (.cons ⟨rfl, reads_boolean 126 true⟩ (.cons ⟨rfl, reads_quote 126 "a.c"⟩
    (.cons ⟨rfl, hinner⟩ (.cons ⟨rfl, reads_quote 126 "x"⟩ .nil))))

/-- Only the cache option inside the options takes effect, and the last of the others is kept. -/
theorem request_with_repeated_keys :
    ∃ r, ofText repeatedKeysText = .ok r ∧ r.filename = "a.c" ∧ r.options.cache = some false ∧
      r.ignored.lookup "cache" = some (.scalar (.text "x")) ∧
      r.options.ignored.lookup "filename" = some (.scalar (.text "b.c")) := by
  obtain ⟨haccept, hholds, -⟩ :=
    (accepted_iff_wellShaped repeatedKeysText).2 _ ofText?_repeatedKeysText
  have hshape : WellShaped repeatedKeys := by
    refine ⟨⟨"a.c", rfl⟩, Nat.le_refl 1, ?_⟩
    intro o ho
    rw [List.mem_singleton.1 ho]
    refine ⟨_, rfl, Nat.le_refl 1, ?_⟩
    intro v hv
    exact .inr ⟨false, List.mem_singleton.1 hv⟩
  obtain ⟨r, hr⟩ := haccept.2 ⟨repeatedKeys, rfl, hshape⟩
  obtain ⟨members, hm, h⟩ := hholds r hr
  cases hm
  have hname : [Outline.scalar (.text "a.c")] = [.scalar (.text r.filename)] := h.filename
  refine ⟨r, hr, ?_, (h.options.cache false).2 rfl, h.ignored "cache", h.options.ignored "filename"⟩
  rw [List.singleton_inj, Outline.scalar.injEq, Scalar.text.injEq] at hname
  exact hname.symm

end Request

end CompileFlags
