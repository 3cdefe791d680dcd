import CompileFlags.Json.Text
import CompileFlags.Proofs.Outlines
import Mathlib.Data.List.Forall2
import Mathlib.Data.List.TakeWhile

/-!
# Reading what is written

Texts, booleans and the lists and objects that are written of them are read back, whatever follows
them.

* `Reads` says of characters that they are read as an outline.
* `reads_listOf`, `reads_objectOf` — a list is read back if its items are, and an object if the
  values of its members are.
* `ofText?_of_reads` — a text of such characters has that outline.
-/

namespace CompileFlags.Json

/-- Wherever the characters stand before the rest, they are read, and what is read has the
outline. -/
def Gets {α β : Type} (read : Input → Read α) (outline? : α → Option β) (cs rest : List Char)
    (o : β) : Prop :=
  ∀ offset, ∃ a stop, read ⟨offset, cs ++ rest⟩ = (a, .ok ⟨stop, rest⟩) ∧ outline? a = some o

/-- Within so many brackets, the characters are read as a value with an outline, whatever stands
behind them. -/
structure Reads (depth : Nat) (cs : List Char) (o : Outline) : Prop where
  head : ∃ c tail, cs = c :: tail ∧ Input.isSkipped c = false ∧ c ≠ ']'
  value : ∀ fuel rest, cs.length < fuel → Gets (value fuel depth) Tree.outline? cs rest o

theorem skipBlanks_of_head {c : Char} (h : Input.isSkipped c = false) (offset : Nat)
    (rest : List Char) : Input.skipBlanks ⟨offset, c :: rest⟩ = ⟨offset, c :: rest⟩ := by
  rw [Input.skipBlanks, List.takeWhile_cons, List.dropWhile_cons, h]
  rfl

/-! ## Scalars -/

theorem reads_boolean (depth : Nat) (b : Bool) :
    Reads depth (boolean b) (.scalar (.boolean b)) where
  head := by
    cases b with
    | true => exact ⟨'t', ['r', 'u', 'e'], rfl, rfl, by decide⟩
    | false => exact ⟨'f', ['a', 'l', 's', 'e'], rfl, rfl, by decide⟩
  value := by
    intro fuel rest hfuel offset
    cases fuel with
    | zero => exact absurd hfuel (Nat.not_lt_zero _)
    | succ fuel =>
      cases b with
      | true => exact ⟨.scalar (.boolean true) (offset + 4), offset + 4, rfl, rfl⟩
      | false => exact ⟨.scalar (.boolean false) (offset + 5), offset + 5, rfl, rfl⟩

/-- What is written of a text is its opening quote, its escaped characters and its closing quote. -/
theorem quote_append (s : String) (rest : List Char) :
    Text.quote s ++ rest = '"' :: (s.toList.flatMap Text.escaped ++ '"' :: rest) := by
  rw [Text.quote, List.append_assoc, List.cons_append, List.singleton_append]

/-- A text is read back after its opening quote. -/
theorem text_quote (s : String) (offset : Nat) (rest : List Char) :
    ∃ stop, text ⟨offset, s.toList.flatMap Text.escaped ++ '"' :: rest⟩ =
      .ok (s, ⟨stop, rest⟩) := by
  obtain ⟨stop, hstop⟩ := Text.body_quote s offset rest
  refine ⟨stop, ?_⟩
  rw [text, hstop]
  show Except.ok (String.ofList s.toList, _) = _
  rw [String.ofList_toList]

theorem reads_quote (depth : Nat) (s : String) :
    Reads depth (Text.quote s) (.scalar (.text s)) where
  head := ⟨'"', _, rfl, rfl, by decide⟩
  value := by
    intro fuel rest hfuel offset
    cases fuel with
    | zero => exact absurd hfuel (Nat.not_lt_zero _)
    | succ fuel =>
      obtain ⟨stop, hstop⟩ := text_quote s (offset + 1) rest
      refine ⟨.scalar (.text s) stop, stop, ?_, rfl⟩
      rw [quote_append, value, skipBlanks_of_head rfl]
      show scalarTree ((text ⟨offset + 1, _⟩).map fun p => (Scalar.text p.1, p.2)) = _
      rw [hstop]
      rfl

/-! ## Objects -/

/-- A key is read back up to the colon after it. -/
theorem key_quote (name : String) (offset : Nat) (rest : List Char) :
    ∃ stop, key ⟨offset, name.toList.flatMap Text.escaped ++ '"' :: ':' :: rest⟩ =
      .ok (⟨name, stop⟩, ⟨stop, ':' :: rest⟩) := by
  obtain ⟨stop, hstop⟩ := text_quote name offset (':' :: rest)
  refine ⟨stop, ?_⟩
  rw [key, hstop]
  show Except.ok (Key.mk name _, Input.skipBlanks ⟨stop, ':' :: rest⟩) = _
  rw [skipBlanks_of_head rfl]
  rfl

/-- A member as it is written, with its value written already. -/
def memberChars (m : String × List Char) : List Char := Text.quote m.1 ++ ':' :: m.2

/-- The first member of an object is read, and then those after it. -/
theorem members_of_member {fuel depth : Nat} {m : String × List Char} {more rest : List Char}
    {o : Outline} {ms : List (String × Outline)}
    (hv : Gets (value fuel depth) Tree.outline? m.2 (more ++ rest) o)
    (hr : Gets (members fuel depth false) Members.outlines? more rest ms) :
    Gets (members (fuel + 1) depth true) Members.outlines? (memberChars m ++ more) rest
      ((m.1, o) :: ms) := by
  intro offset
  have hcs : memberChars m ++ more ++ rest =
      '"' :: (m.1.toList.flatMap Text.escaped ++ '"' :: ':' :: (m.2 ++ (more ++ rest))) := by
    rw [memberChars, List.append_assoc, List.append_assoc, quote_append]
    rfl
  obtain ⟨mark, hkey⟩ := key_quote m.1 (offset + 1) (m.2 ++ (more ++ rest))
  obtain ⟨tree, next, hvalue, ho⟩ := hv (mark + 1)
  obtain ⟨read, stop, hmore, hms⟩ := hr next
  refine ⟨.member ⟨m.1, mark⟩ tree read, stop, ?_, ?_⟩
  · rw [hcs, members, skipBlanks_of_head rfl]
    simp only [if_true, hkey, hvalue, hmore]
    rfl
  · rw [Members.outlines?, ho, hms]
    rfl

/-- A member after a comma is read as if it were the first. -/
theorem members_comma (fuel depth offset : Nat) (cs : List Char) :
    members (fuel + 1) depth false ⟨offset, ',' :: '"' :: cs⟩ =
      members (fuel + 1) depth true ⟨offset + 1, '"' :: cs⟩ := by
  rw [members, members, skipBlanks_of_head rfl, skipBlanks_of_head rfl]
  simp only [Bool.false_eq_true, if_false, if_true]
  rfl

/-- What stands behind the first member of an object. -/
def moreMembers (ms : List (String × List Char)) : List Char :=
  ms.flatMap (fun m => ',' :: memberChars m) ++ ['}']

/-- The members and their values are read back. -/
def MembersRead (depth : Nat) (ms : List (String × List Char)) (os : List (String × Outline)) :
    Prop :=
  List.Forall₂ (fun m o => m.1 = o.1 ∧ Reads depth m.2 o.2) ms os

theorem gets_moreMembers {depth : Nat} {ms : List (String × List Char)}
    {os : List (String × Outline)} (h : MembersRead depth ms os) {fuel : Nat} (rest : List Char)
    (hfuel : (moreMembers ms).length < fuel) :
    Gets (members fuel depth false) Members.outlines? (moreMembers ms) rest os := by
  induction h generalizing fuel with
  | nil =>
    cases fuel with
    | zero => exact absurd hfuel (Nat.not_lt_zero _)
    | succ fuel =>
      intro offset
      refine ⟨.closed (offset + 1), offset + 1, ?_, rfl⟩
      rfl
  | @cons m o ms os hm h ih =>
    cases fuel with
    | zero => exact absurd hfuel (Nat.not_lt_zero _)
    | succ fuel =>
      obtain ⟨k, v⟩ := o
      obtain ⟨rfl, hv⟩ := hm
      have hsplit : moreMembers (m :: ms) = ',' :: (memberChars m ++ moreMembers ms) := by
        rw [moreMembers, List.flatMap_cons, List.append_assoc]
        rfl
      have hlength : m.2.length + (moreMembers ms).length < fuel := by
        rw [hsplit, List.length_cons, List.length_append, memberChars, List.length_append,
          List.length_cons] at hfuel
        omega
      intro offset
      have hfirst := members_of_member (hv.value fuel (moreMembers ms ++ rest) (by omega))
        (ih (by omega)) (offset + 1)
      obtain ⟨read, stop, hread, ho⟩ := hfirst
      refine ⟨read, stop, ?_, ho⟩
      rw [hsplit, List.cons_append, ← hread, memberChars, List.append_assoc, List.append_assoc,
        quote_append]
      exact members_comma fuel depth offset _

theorem joinPieces_cons_eq_flatMap {α : Type} (sep : α) (p : List α) (ps : List (List α)) :
    joinPieces [sep] (p :: ps) = p ++ ps.flatMap (sep :: ·) := by
  induction ps generalizing p with
  | nil => exact (List.append_nil p).symm
  | cons q ps ih =>
    rw [joinPieces_cons_of_ne_nil _ _ (List.cons_ne_nil q ps), ih, List.flatMap_cons,
      List.append_assoc]
    rfl

theorem objectOf_cons (m : String × List Char) (ms : List (String × List Char)) :
    objectOf (m :: ms) = '{' :: (memberChars m ++ moreMembers ms) := by
  rw [objectOf, List.map_cons, joinPieces_cons_eq_flatMap, List.flatMap_map, moreMembers,
    List.cons_append, List.append_assoc]
  rfl

/-- **An object that is written is read back**, if the values of its members are. -/
theorem reads_objectOf {depth : Nat} {ms : List (String × List Char)}
    {os : List (String × Outline)} (h : MembersRead depth ms os) :
    Reads (depth + 1) (objectOf ms) (.object os) where
  head := ⟨'{', _, rfl, rfl, by decide⟩
  value := by
    intro fuel rest hfuel offset
    cases fuel with
    | zero => exact absurd hfuel (Nat.not_lt_zero _)
    | succ fuel =>
      have hmembers : ∃ cs, objectOf ms = '{' :: cs ∧
          Gets (members fuel depth true) Members.outlines? cs rest os := by
        cases h with
        | nil =>
          refine ⟨['}'], rfl, ?_⟩
          intro offset
          cases fuel with
          | zero => exact absurd hfuel (by decide)
          | succ fuel => exact ⟨.closed (offset + 1), offset + 1, rfl, rfl⟩
        | @cons m o ms os hm h =>
          obtain ⟨k, v⟩ := o
          obtain ⟨rfl, hv⟩ := hm
          refine ⟨_, objectOf_cons m ms, ?_⟩
          rw [objectOf_cons, List.length_cons, List.length_append, memberChars, List.length_append,
            List.length_cons] at hfuel
          cases fuel with
          | zero => omega
          | succ fuel =>
            exact members_of_member (hv.value fuel _ (by omega))
              (gets_moreMembers h rest (by omega))
      obtain ⟨cs, hcs, hgets⟩ := hmembers
      obtain ⟨read, stop, hread, ho⟩ := hgets (offset + 1)
      refine ⟨.object offset read, stop, ?_, ?_⟩
      · rw [hcs, List.cons_append, value, skipBlanks_of_head rfl]
        simp only [hread]
      · rw [Tree.outline?, ho]
        rfl

/-! ## Lists -/

/-- The first item of a list is read, and then those after it. -/
theorem items_of_item {fuel depth : Nat} {c : Char} {cs more rest : List Char} {o : Outline}
    {os : List Outline} (hc : Input.isSkipped c = false) (hclose : c ≠ ']')
    (hv : Gets (value fuel depth) Tree.outline? (c :: cs) (more ++ rest) o)
    (hr : Gets (items fuel depth false) Items.outlines? more rest os) :
    Gets (items (fuel + 1) depth true) Items.outlines? (c :: cs ++ more) rest (o :: os) := by
  intro offset
  obtain ⟨tree, next, hvalue, ho⟩ := hv offset
  obtain ⟨read, stop, hmore, hos⟩ := hr next
  refine ⟨.item tree read, stop, ?_, ?_⟩
  · rw [List.append_assoc, List.cons_append] at *
    rw [items, skipBlanks_of_head hc]
    simp only [if_true, hvalue, hmore]
  · rw [Items.outlines?, ho, hos]
    rfl

/-- An item after a comma is read as if it were the first. -/
theorem items_comma {c : Char} (hc : Input.isSkipped c = false) (hclose : c ≠ ']')
    (fuel depth offset : Nat) (cs : List Char) :
    items (fuel + 1) depth false ⟨offset, ',' :: c :: cs⟩ =
      items (fuel + 1) depth true ⟨offset + 1, c :: cs⟩ := by
  rw [items, items, skipBlanks_of_head rfl, skipBlanks_of_head hc]
  simp only [Bool.false_eq_true, if_false, if_true, skipBlanks_of_head hc, Char.reduceEq, imp_self]
  split
  · rename_i h
    cases h
  · rename_i h
    exact absurd (List.cons.inj h).1 hclose
  · rfl

/-- What stands behind the first item of a list. -/
def moreItems (items : List (List Char)) : List Char := items.flatMap (',' :: ·) ++ [']']

theorem moreItems_cons (item : List Char) (items : List (List Char)) :
    moreItems (item :: items) = ',' :: (item ++ moreItems items) := by
  rw [moreItems, List.flatMap_cons, List.append_assoc]
  rfl

theorem gets_moreItems {depth : Nat} {its : List (List Char)} {os : List Outline}
    (h : List.Forall₂ (Reads depth) its os) {fuel : Nat} (rest : List Char)
    (hfuel : (moreItems its).length < fuel) :
    Gets (items fuel depth false) Items.outlines? (moreItems its) rest os := by
  induction h generalizing fuel with
  | nil =>
    cases fuel with
    | zero => exact absurd hfuel (Nat.not_lt_zero _)
    | succ fuel =>
      intro offset
      refine ⟨.closed (offset + 1), offset + 1, ?_, rfl⟩
      rfl
  | @cons item o its os hitem h ih =>
    cases fuel with
    | zero => exact absurd hfuel (Nat.not_lt_zero _)
    | succ fuel =>
      obtain ⟨c, cs, rfl, hc, hclose⟩ := hitem.head
      rw [moreItems_cons, List.length_cons, List.length_append] at hfuel
      intro offset
      obtain ⟨read, stop, hread, ho⟩ := items_of_item hc hclose
        (hitem.value fuel (moreItems its ++ rest) (by omega)) (ih (by omega)) (offset + 1)
      refine ⟨read, stop, ?_, ho⟩
      rw [moreItems_cons, ← hread]
      exact items_comma hc hclose fuel depth offset _

theorem listOf_cons (item : List Char) (items : List (List Char)) :
    listOf (item :: items) = '[' :: (item ++ moreItems items) := by
  rw [listOf, joinPieces_cons_eq_flatMap, moreItems, List.cons_append, List.append_assoc]

/-- **A list that is written is read back**, if its items are. -/
theorem reads_listOf {depth : Nat} {its : List (List Char)} {os : List Outline}
    (h : List.Forall₂ (Reads depth) its os) : Reads (depth + 1) (listOf its) (.list os) where
  head := ⟨'[', _, rfl, rfl, by decide⟩
  value := by
    intro fuel rest hfuel offset
    cases fuel with
    | zero => exact absurd hfuel (Nat.not_lt_zero _)
    | succ fuel =>
      have hitems : ∃ cs, listOf its = '[' :: cs ∧
          Gets (items fuel depth true) Items.outlines? cs rest os := by
        cases h with
        | nil =>
          refine ⟨[']'], rfl, ?_⟩
          intro offset
          cases fuel with
          | zero => exact absurd hfuel (by decide)
          | succ fuel => exact ⟨.closed (offset + 1), offset + 1, rfl, rfl⟩
        | @cons item o its os hitem h =>
          refine ⟨_, listOf_cons item its, ?_⟩
          have hmore : 0 < (moreItems its).length := by simp [moreItems]
          rw [listOf_cons, List.length_cons, List.length_append] at hfuel
          obtain ⟨c, cs, rfl, hc, hclose⟩ := hitem.head
          have hfirst : 0 < (c :: cs).length := Nat.succ_pos _
          cases fuel with
          | zero => omega
          | succ fuel =>
            exact items_of_item hc hclose (hitem.value fuel _ (by omega))
              (gets_moreItems h rest (by omega))
      obtain ⟨cs, hcs, hgets⟩ := hitems
      obtain ⟨read, stop, hread, ho⟩ := hgets (offset + 1)
      refine ⟨.list offset read, stop, ?_, ?_⟩
      · rw [hcs, List.cons_append, value, skipBlanks_of_head rfl]
        simp only [hread]
      · rw [Tree.outline?, ho]
        rfl

/-- A list of texts is read back. -/
theorem reads_texts (depth : Nat) (items : List String) :
    Reads (depth + 1) (texts items) (.list (items.map fun s => .scalar (.text s))) := by
  apply reads_listOf
  rw [List.forall₂_map_left_iff, List.forall₂_map_right_iff]
  exact List.forall₂_same.2 fun s _ => reads_quote depth s

/-! ## Texts -/

/-- A text that is read as a value has its outline, if nothing but blanks follows. -/
theorem ofText?_of_reads_append {cs blanks : List Char} {o : Outline} (h : Reads maxDepth cs o)
    (hblanks : ∀ c ∈ blanks, Input.isSkipped c = true) :
    Outline.ofText? (.ofList (cs ++ blanks)) = some o := by
  have hfuel : cs.length < (cs ++ blanks).length + 1 := by
    rw [List.length_append]
    omega
  obtain ⟨tree, stop, hread, ho⟩ := h.value _ blanks hfuel 0
  have hskip : (Input.skipBlanks ⟨stop, blanks⟩).rest = [] :=
    List.dropWhile_eq_nil_iff.2 hblanks
  have hd : Document.ofText (.ofList (cs ++ blanks)) = ⟨tree, none⟩ := by
    rw [Document.ofText, Input.ofText, String.toList_ofList]
    simp only [hread, hskip, List.isEmpty_nil, if_true]
  unfold Outline.ofText?
  rw [hd]
  exact ho

/-- A text that is read as a value has its outline. -/
theorem ofText?_of_reads {cs : List Char} {o : Outline} (h : Reads maxDepth cs o) :
    Outline.ofText? (.ofList cs) = some o := by
  have hread := ofText?_of_reads_append h (fun c hc => absurd hc (List.not_mem_nil (a := c)))
  rwa [List.append_nil] at hread

end CompileFlags.Json
