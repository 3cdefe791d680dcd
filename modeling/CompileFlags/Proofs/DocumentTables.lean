import CompileFlags.Proofs.KeyOrder
import CompileFlags.Proofs.Results
import CompileFlags.Toml.Field

/-!
# The table of a document

What a document says, apart from how it is written: a table that holds a datum for each of its keys.
It does not matter whether a table has a header of its own, stands in braces or is made by dotted
keys, nor in which order keys are written; but no key may be written twice. A record that is read
from a document field by field then holds what the table of the document holds.

* `entriesOf_perm` — keys can be written in any order.
* `Content.toTexts_eq_ok_iff` and `Content.toBool_eq_ok_iff` — when a content is read as a list of
  texts, or as a boolean.
* `RecordRules.readFields_eq_ok_iff` — a record is read exactly if it is what the table holds.
-/

namespace CompileFlags.Toml

/-! ## Data -/

/-- A datum that holds no others. -/
inductive Scalar where
  | integer (i : Int)
  | float (x : Double)
  | boolean (b : Bool)
  | text (s : String)
  | date
  deriving DecidableEq, Repr

/-- What a key holds, apart from how and where it is written. -/
inductive Datum where
  | scalar (s : Scalar)
  | array (items : List Datum)
  /-- A table, with its keys in order. -/
  | table (entries : List (String × Datum))
  /-- An array of tables with headers, whatever they hold. -/
  | tables

namespace Datum

/-- A list of texts. -/
def texts (items : List String) : Datum := .array (items.map fun s => .scalar (.text s))

/-- A boolean. -/
def boolean (b : Bool) : Datum := .scalar (.boolean b)

theorem texts_inj {a b : List String} : texts a = texts b ↔ a = b := by
  constructor
  · intro h
    have hinj : Function.Injective fun s => Datum.scalar (.text s) := by
      intro s t hst
      cases hst
      rfl
    exact List.map_injective_iff.2 hinj (Datum.array.inj h)
  · rintro rfl
    rfl

end Datum

mutual

/-- Data can be compared. -/
def Datum.decEq : (a b : Datum) → Decidable (a = b)
  | .scalar s, .scalar t => decidable_of_iff (s = t) (by simp)
  | .array xs, .array ys =>
    have := decEqItems xs ys
    decidable_of_iff (xs = ys) (by simp)
  | .table xs, .table ys =>
    have := decEqEntries xs ys
    decidable_of_iff (xs = ys) (by simp)
  | .tables, .tables => isTrue rfl
  | .scalar _, .array _ | .scalar _, .table _ | .scalar _, .tables => isFalse nofun
  | .array _, .scalar _ | .array _, .table _ | .array _, .tables => isFalse nofun
  | .table _, .scalar _ | .table _, .array _ | .table _, .tables => isFalse nofun
  | .tables, .scalar _ | .tables, .array _ | .tables, .table _ => isFalse nofun

/-- Items can be compared. -/
def decEqItems : (a b : List Datum) → Decidable (a = b)
  | [], [] => isTrue rfl
  | [], _ :: _ | _ :: _, [] => isFalse nofun
  | x :: xs, y :: ys =>
    have := x.decEq y
    have := decEqItems xs ys
    decidable_of_iff (x = y ∧ xs = ys) (by simp)

/-- Entries can be compared. -/
def decEqEntries : (a b : List (String × Datum)) → Decidable (a = b)
  | [], [] => isTrue rfl
  | [], _ :: _ | _ :: _, [] => isFalse nofun
  | (k, x) :: xs, (l, y) :: ys =>
    have := x.decEq y
    have := decEqEntries xs ys
    decidable_of_iff ((k = l ∧ x = y) ∧ xs = ys) (by simp)

end

instance : DecidableEq Datum := Datum.decEq

/-! ## Tables -/

/-- The entries of a table from its keys in any order; there are none if a key is there twice. -/
def entriesOf : List (String × Datum) → Option (List (String × Datum))
  | [] => some []
  | (key, d) :: rest =>
    (entriesOf rest).bind fun entries =>
      if (entries.lookup key).isSome then none else some (Json.setField key d entries)

theorem entriesOf_cons_eq_some_iff {key : String} {d : Datum}
    {rest entries : List (String × Datum)} :
    entriesOf ((key, d) :: rest) = some entries ↔
      ∃ before, entriesOf rest = some before ∧ before.lookup key = none ∧
        entries = Json.setField key d before := by
  rw [entriesOf, Option.bind_eq_some_iff]
  constructor
  · rintro ⟨before, hrest, h⟩
    split at h
    · cases h
    · rename_i hnone
      cases h
      exact ⟨before, hrest, Option.not_isSome_iff_eq_none.1 hnone, rfl⟩
  · rintro ⟨before, hrest, hnone, rfl⟩
    exact ⟨before, hrest, by simp [hnone]⟩

/-- The entries of a table are in the order of their keys. -/
theorem pairwise_of_entriesOf {data entries : List (String × Datum)}
    (h : entriesOf data = some entries) : entries.Pairwise fun a b => a.1 < b.1 := by
  induction data generalizing entries with
  | nil =>
    cases h
    exact .nil
  | cons entry rest ih =>
    obtain ⟨key, d⟩ := entry
    obtain ⟨before, hrest, -, rfl⟩ := entriesOf_cons_eq_some_iff.1 h
    exact Json.pairwise_setField key d (ih hrest)

theorem pairwise_of_bind_entriesOf {data? : Option (List (String × Datum))}
    {entries : List (String × Datum)} (h : data?.bind entriesOf = some entries) :
    entries.Pairwise fun a b => a.1 < b.1 := by
  obtain ⟨data, -, hentries⟩ := Option.bind_eq_some_iff.1 h
  exact pairwise_of_entriesOf hentries

theorem entriesOf_swap (x y : String × Datum) (rest : List (String × Datum)) :
    entriesOf (y :: x :: rest) = entriesOf (x :: y :: rest) := by
  obtain ⟨k, v⟩ := x
  obtain ⟨l, w⟩ := y
  apply Option.ext
  intro entries
  have hone : ∀ {k l : String} {v w : Datum}, entriesOf ((l, w) :: (k, v) :: rest) = some entries →
      entriesOf ((k, v) :: (l, w) :: rest) = some entries := by
    intro k l v w h
    obtain ⟨before, hk, hl, rfl⟩ := entriesOf_cons_eq_some_iff.1 h
    obtain ⟨first, hrest, hnone, rfl⟩ := entriesOf_cons_eq_some_iff.1 hk
    rw [Json.lookup_setField] at hl
    split at hl
    · cases hl
    · rename_i hne
      refine entriesOf_cons_eq_some_iff.2 ⟨Json.setField l w first, ?_, ?_, ?_⟩
      · exact entriesOf_cons_eq_some_iff.2 ⟨first, hrest, hl, rfl⟩
      · rw [Json.lookup_setField, if_neg (Ne.symm hne), hnone]
      · exact Json.setField_comm hne w v (pairwise_of_entriesOf hrest)
  exact ⟨hone, hone⟩

/-- Keys can be written in any order. -/
theorem entriesOf_perm {a b : List (String × Datum)} (h : a.Perm b) :
    entriesOf a = entriesOf b := by
  induction h with
  | nil => rfl
  | cons x _ ih => rw [entriesOf, entriesOf, ih]
  | swap x y rest => exact entriesOf_swap x y rest
  | trans _ _ iha ihb => exact iha.trans ihb

/-! ## Values and contents as data -/

mutual

/-- What a value says, unless a table in it has a key twice. -/
def Value.datum? : Value → Option Datum
  | .integer i => some (.scalar (.integer i))
  | .float x => some (.scalar (.float x))
  | .boolean b => some (.scalar (.boolean b))
  | .text s => some (.scalar (.text s))
  | .date => some (.scalar .date)
  | .array items => (itemsData? items).map .array
  | .table _ pairs => ((pairsData? pairs).bind entriesOf).map .table

/-- What the items of an array say. -/
def itemsData? : List Placed → Option (List Datum)
  | [] => some []
  | (_, v) :: rest => v.datum?.bind fun d => (itemsData? rest).map (d :: ·)

/-- What pairs say, each with its key. -/
def pairsData? : List Pair → Option (List (String × Datum))
  | [] => some []
  | (key, _, v) :: rest => v.datum?.bind fun d => (pairsData? rest).map ((key, d) :: ·)

end

mutual

/-- What a content says, unless a table in it has a key twice or its headers are in conflict. -/
def Content.datum? : Content → Option Datum
  | .value _ v => v.datum?
  | .table _ fields => ((fieldsData? fields).bind entriesOf).map .table
  | .tables => some .tables

/-- What fields say, each with its key. -/
def fieldsData? : List Field → Option (List (String × Datum))
  | [] => some []
  | .conflict _ :: _ => none
  | .field key content :: rest =>
    content.datum?.bind fun d => (fieldsData? rest).map ((key, d) :: ·)

end

/-- What a text says as a document, key by key, in the order in which the keys are kept. -/
def dataOfText? (text : String) : Option (List (String × Datum)) :=
  (Document.ofText text).toOption.bind fun d => fieldsData? d.fields

/-- The table of a text, if it is a document in which no key is there twice. -/
def tableOfText? (text : String) : Option (List (String × Datum)) :=
  (dataOfText? text).bind entriesOf

/-- An item alone in an array is all that the array holds. -/
theorem itemsData?_eq_singleton_iff {items : List Placed} {d : Datum} :
    itemsData? items = some [d] ↔ ∃ item, items = [item] ∧ item.2.datum? = some d := by
  constructor
  · intro h
    cases items with
    | nil => cases h
    | cons item more =>
      obtain ⟨d', hd', h⟩ := Option.bind_eq_some_iff.1 h
      obtain ⟨ds, hds, h⟩ := Option.map_eq_some_iff.1 h
      obtain ⟨rfl, rfl⟩ := List.cons.inj h
      cases more with
      | nil => exact ⟨item, rfl, hd'⟩
      | cons next more =>
        obtain ⟨e, -, he⟩ := Option.bind_eq_some_iff.1 hds
        obtain ⟨es, -, hcons⟩ := Option.map_eq_some_iff.1 he
        cases hcons
  · rintro ⟨item, rfl, hd⟩
    show (item.2.datum?.bind fun d => some [d]) = _
    rw [hd]
    rfl

theorem fieldsData?_fieldsOfPairs (pairs : List Pair) :
    fieldsData? (fieldsOfPairs pairs) = pairsData? pairs := by
  induction pairs with
  | nil => rfl
  | cons pair rest ih =>
    obtain ⟨key, start, v⟩ := pair
    show (v.datum?.bind fun d => (fieldsData? (fieldsOfPairs rest)).map ((key, d) :: ·)) = _
    rw [ih, pairsData?]

/-! ## Which contents a datum comes from -/

namespace Content

variable {content : Content}

/-- The value that is written for a scalar. -/
def ofScalar : Scalar → Value
  | .integer i => .integer i
  | .float x => .float x
  | .boolean b => .boolean b
  | .text s => .text s
  | .date => .date

theorem exists_of_datum?_eq_scalar {s : Scalar} (h : content.datum? = some (.scalar s)) :
    ∃ start, content = .value start (ofScalar s) := by
  cases content with
  | value start v =>
    refine ⟨start, ?_⟩
    cases v with
    | array items =>
      obtain ⟨ds, -, hd⟩ := Option.map_eq_some_iff.1 h
      cases hd
    | table dotted pairs =>
      obtain ⟨entries, -, hd⟩ := Option.map_eq_some_iff.1 h
      cases hd
    | _ =>
      cases h
      rfl
  | table defined fields =>
    obtain ⟨entries, -, hd⟩ := Option.map_eq_some_iff.1 h
    cases hd
  | tables => cases h

theorem exists_of_datum?_eq_array {ds : List Datum} (h : content.datum? = some (.array ds)) :
    ∃ start items, content = .value start (.array items) ∧ itemsData? items = some ds := by
  cases content with
  | value start v =>
    cases v with
    | array items =>
      obtain ⟨ds', hitems, hd⟩ := Option.map_eq_some_iff.1 h
      cases hd
      exact ⟨start, items, rfl, hitems⟩
    | table dotted pairs =>
      obtain ⟨entries, -, hd⟩ := Option.map_eq_some_iff.1 h
      cases hd
    | _ => cases h
  | table defined fields =>
    obtain ⟨entries, -, hd⟩ := Option.map_eq_some_iff.1 h
    cases hd
  | tables => cases h

/-- A table stands in braces or is made by dotted keys, or has headers. -/
theorem exists_of_datum?_eq_table {entries : List (String × Datum)}
    (h : content.datum? = some (.table entries)) :
    (∃ start dotted pairs, content = .value start (.table dotted pairs) ∧
      (pairsData? pairs).bind entriesOf = some entries) ∨
    ∃ defined fields, content = .table defined fields ∧
      (fieldsData? fields).bind entriesOf = some entries := by
  cases content with
  | value start v =>
    cases v with
    | array items =>
      obtain ⟨ds, -, hd⟩ := Option.map_eq_some_iff.1 h
      cases hd
    | table dotted pairs =>
      obtain ⟨entries', hpairs, hd⟩ := Option.map_eq_some_iff.1 h
      cases hd
      exact .inl ⟨start, dotted, pairs, rfl, hpairs⟩
    | _ => cases h
  | table defined fields =>
    obtain ⟨entries', hfields, hd⟩ := Option.map_eq_some_iff.1 h
    cases hd
    exact .inr ⟨defined, fields, rfl, hfields⟩
  | tables => cases h

/-! ## Reading a datum -/

theorem mismatch_ne_ok {α : Type} (expected : String) (content : Content) (a : α) :
    content.mismatch expected ≠ .ok a := by
  unfold mismatch
  split <;> simp

/-- A content is read as a text if it is one. -/
theorem toText_eq_ok_iff {s : String} :
    content.toText = .ok s ↔ content.datum? = some (.scalar (.text s)) := by
  constructor
  · intro h
    unfold toText at h
    split at h
    · cases h
      rfl
    · exact absurd h (mismatch_ne_ok _ _ _)
  · intro h
    obtain ⟨start, rfl⟩ := exists_of_datum?_eq_scalar h
    rfl

/-- A content is read as a boolean if it is one. -/
theorem toBool_eq_ok_iff {b : Bool} :
    content.toBool = .ok b ↔ content.datum? = some (.boolean b) := by
  constructor
  · intro h
    unfold toBool at h
    split at h
    · cases h
      rfl
    · exact absurd h (mismatch_ne_ok _ _ _)
  · intro h
    obtain ⟨start, rfl⟩ := exists_of_datum?_eq_scalar h
    rfl

theorem mapM_toText_eq_ok_iff {items : List Placed} {l : List String} :
    (items.mapM fun item => (value item.1 item.2).toText) = .ok l ↔
      itemsData? items = some (l.map fun s => .scalar (.text s)) := by
  induction items generalizing l with
  | nil => cases l <;> simp [itemsData?, pure, Except.pure]
  | cons item rest ih =>
    obtain ⟨start, v⟩ := item
    rw [List.mapM_cons, itemsData?]
    constructor
    · intro h
      obtain ⟨s, hs, h⟩ := exists_of_bind_eq_ok h
      obtain ⟨l', hl', h⟩ := exists_of_bind_eq_ok h
      cases h
      have hv : v.datum? = some (.scalar (.text s)) := toText_eq_ok_iff.1 hs
      rw [hv, ih.1 hl']
      rfl
    · intro h
      obtain ⟨d, hd, h⟩ := Option.bind_eq_some_iff.1 h
      obtain ⟨ds, hds, h⟩ := Option.map_eq_some_iff.1 h
      cases l with
      | nil => cases h
      | cons s l =>
        obtain ⟨rfl, rfl⟩ := List.cons.inj h
        have hs : (value start v).toText = .ok s := toText_eq_ok_iff.2 hd
        rw [hs, ih.2 hds]
        rfl

/-- A content is read as a list of texts if it is one. -/
theorem toTexts_eq_ok_iff {l : List String} :
    content.toTexts = .ok l ↔ content.datum? = some (.texts l) := by
  constructor
  · intro h
    unfold toTexts at h
    split at h
    · rename_i start items
      show (itemsData? items).map Datum.array = _
      rw [mapM_toText_eq_ok_iff.1 h]
      rfl
    · exact absurd h (mismatch_ne_ok _ _ _)
    · exact absurd h (mismatch_ne_ok _ _ _)
  · intro h
    obtain ⟨start, items, rfl, hitems⟩ := exists_of_datum?_eq_array h
    exact mapM_toText_eq_ok_iff.2 hitems

end Content

/-! ## Reading a record -/

section

variable {α : Type} {known : List String} {isSet : String → α → Bool}
  {read : String → Content → α → Except Failure α} {named : Bool} {empty : α}
  {holds : α → String → Option Datum → Prop}

theorem readInOrder_append (record : α) (before after : List Field) :
    readInOrder known isSet read named record (before ++ after) =
      (readInOrder known isSet read named record before).bind fun record =>
        readInOrder known isSet read named record after := by
  induction before generalizing record with
  | nil => rfl
  | cons f before ih =>
    cases f with
    | conflict f => rfl
    | field key content =>
      rw [List.cons_append, readInOrder, readInOrder]
      split
      · rfl
      split
      · rfl
      · cases read key content record with
        | error f => rfl
        | ok record' => exact ih record'

/-- The field that is written last is read last. -/
theorem readFields_cons (f : Field) (fields : List Field) :
    readFields known isSet read named empty (f :: fields) =
      (readFields known isSet read named empty fields).bind fun record =>
        readInOrder known isSet read named record [f] := by
  rw [readFields, List.reverse_cons, readInOrder_append]
  rfl

theorem readInOrder_singleton_eq_ok_iff {f : Field} {record record' : α} :
    readInOrder known isSet read named record [f] = .ok record' ↔
      ∃ key content, f = .field key content ∧ key ∈ known ∧ isSet key record = false ∧
        read key content record = .ok record' := by
  cases f with
  | conflict f => simp [readInOrder]
  | field key content =>
    rw [readInOrder]
    constructor
    · intro h
      split at h
      · cases h
      rename_i hknown
      split at h
      · cases h
      rename_i hset
      refine ⟨key, content, rfl, by simpa using hknown, by simpa using hset, ?_⟩
      cases hread : read key content record with
      | error f =>
        rw [hread] at h
        cases h
      | ok r =>
        rw [hread] at h
        exact h
    · rintro ⟨key', content', heq, hknown, hset, hread⟩
      cases heq
      rw [if_neg (by simpa using hknown), if_neg (by simp [hset]), hread]
      rfl

/-- The rules by which a record is read: its `known` fields, whether one of them `isSet`, how one is
`read`, and the `empty` record. `holds w key d?` stands for the record `w` holding for a key what
the datum `d?` gives, or nothing if there is none. -/
structure RecordRules (known : List String) (isSet : String → α → Bool)
    (read : String → Content → α → Except Failure α) (empty : α)
    (holds : α → String → Option Datum → Prop) : Prop where
  holds_empty : ∀ key, holds empty key none
  mem_known : ∀ {w key d}, holds w key (some d) → key ∈ known
  isSet_eq : ∀ {w key d?}, key ∈ known → holds w key d? → isSet key w = d?.isSome
  /-- What is read is held for its key, and what is held for any other key stays. -/
  holds_of_read : ∀ {w w' key content}, key ∈ known → read key content w = .ok w' →
    ∃ d, content.datum? = some d ∧ holds w' key (some d) ∧
      ∀ k d?, k ≠ key → holds w k d? → holds w' k d?
  /-- What can be held for a key can be read. -/
  exists_read : ∀ {w v key content d}, content.datum? = some d → holds v key (some d) →
    ∃ w', read key content w = .ok w'
  /-- A record is what it holds. -/
  eq_of_holds : ∀ {w w'}, (∀ key, ∃ d?, holds w key d? ∧ holds w' key d?) → w = w'

namespace RecordRules

variable (rules : RecordRules known isSet read empty holds)

include rules

/-- What is read from fields is what their table holds. -/
theorem exists_entriesOf_of_readFields {fields : List Field} {w : α}
    (h : readFields known isSet read named empty fields = .ok w) :
    ∃ data entries, fieldsData? fields = some data ∧ entriesOf data = some entries ∧
      ∀ key, holds w key (entries.lookup key) := by
  induction fields generalizing w with
  | nil =>
    cases h
    exact ⟨[], [], rfl, rfl, rules.holds_empty⟩
  | cons f fields ih =>
    rw [readFields_cons] at h
    obtain ⟨before, hbefore, hlast⟩ := exists_of_bind_eq_ok h
    obtain ⟨data, entries, hdata, hentries, hholds⟩ := ih hbefore
    obtain ⟨key, content, rfl, hknown, hset, hread⟩ := readInOrder_singleton_eq_ok_iff.1 hlast
    obtain ⟨d, hd, hkey, hothers⟩ := rules.holds_of_read hknown hread
    have hnone : entries.lookup key = none := by
      have := rules.isSet_eq hknown (hholds key)
      rw [hset] at this
      simpa using this.symm
    refine ⟨(key, d) :: data, Json.setField key d entries, ?_, ?_, ?_⟩
    · rw [fieldsData?, hd, hdata]
      rfl
    · exact entriesOf_cons_eq_some_iff.2 ⟨entries, hentries, hnone, rfl⟩
    · intro k
      rw [Json.lookup_setField]
      split
      · rename_i hk
        exact hk ▸ hkey
      · rename_i hk
        exact hothers k _ hk (hholds k)

/-- Fields are read if each key of their table holds what can be held for it. -/
theorem exists_readFields {fields : List Field} {data entries : List (String × Datum)}
    (hdata : fieldsData? fields = some data) (hentries : entriesOf data = some entries)
    (hcan : ∀ key d, entries.lookup key = some d → ∃ v, holds v key (some d)) :
    ∃ w, readFields known isSet read named empty fields = .ok w := by
  induction fields generalizing data entries with
  | nil => exact ⟨empty, rfl⟩
  | cons f fields ih =>
    cases f with
    | conflict f => cases hdata
    | field key content =>
      obtain ⟨d, hd, h⟩ := Option.bind_eq_some_iff.1 hdata
      obtain ⟨data', hdata', rfl⟩ := Option.map_eq_some_iff.1 h
      obtain ⟨before, hbefore, hnone, rfl⟩ := entriesOf_cons_eq_some_iff.1 hentries
      have hcan' : ∀ k d', before.lookup k = some d' → ∃ v, holds v k (some d') := by
        intro k d' hk
        apply hcan
        rw [Json.lookup_setField, if_neg, hk]
        rintro rfl
        rw [hnone] at hk
        cases hk
      obtain ⟨w, hw⟩ := ih hdata' hbefore hcan'
      -- what was read before holds nothing for this key yet
      obtain ⟨data'', entries, hdata'', hentries', hholds⟩ :=
        rules.exists_entriesOf_of_readFields hw
      have hsame : entries = before := by
        rw [hdata', Option.some.injEq] at hdata''
        rw [← hdata'', hbefore, Option.some.injEq] at hentries'
        exact hentries'.symm
      obtain ⟨v, hv⟩ := hcan key d (by rw [Json.lookup_setField, if_pos rfl])
      have hset : isSet key w = false := by
        rw [rules.isSet_eq (rules.mem_known hv) (hholds key), hsame, hnone]
        rfl
      obtain ⟨w', hw'⟩ := rules.exists_read hd hv
      refine ⟨w', ?_⟩
      rw [readFields_cons, hw]
      exact readInOrder_singleton_eq_ok_iff.2
        ⟨key, content, rfl, rules.mem_known hv, hset, hw'⟩

/-- **A record is read from fields exactly if it is what their table holds.** -/
theorem readFields_eq_ok_iff {fields : List Field} {w : α} :
    readFields known isSet read named empty fields = .ok w ↔
      ∃ entries, (fieldsData? fields).bind entriesOf = some entries ∧
        ∀ key, holds w key (entries.lookup key) := by
  constructor
  · intro h
    obtain ⟨data, entries, hdata, hentries, hholds⟩ := rules.exists_entriesOf_of_readFields h
    exact ⟨entries, by rw [hdata]; exact hentries, hholds⟩
  · rintro ⟨entries, h, hholds⟩
    obtain ⟨data, hdata, hentries⟩ := Option.bind_eq_some_iff.1 h
    obtain ⟨w', hw'⟩ : ∃ w', readFields known isSet read named empty fields = .ok w' :=
      rules.exists_readFields hdata hentries fun key d hd => ⟨w, hd ▸ hholds key⟩
    obtain ⟨data', entries', hdata', hentries', hholds'⟩ :=
      rules.exists_entriesOf_of_readFields hw'
    rw [hdata, Option.some.injEq] at hdata'
    rw [← hdata', hentries, Option.some.injEq] at hentries'
    have hsame : w' = w :=
      rules.eq_of_holds fun key => ⟨entries.lookup key, hentries' ▸ hholds' key, hholds key⟩
    rw [hw', hsame]

end RecordRules

end

end CompileFlags.Toml
