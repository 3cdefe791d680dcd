import CompileFlags.Proofs.Replies
import CompileFlags.Proofs.RequestShape

/-!
# Replies that are read back

Nothing in a reply says of which kind it is: an answer and a refusal have different members, and
that is all. Whoever reads a reply gets the flags, the cache hint or the reason as they were,
whatever characters they hold, and finds no member that would make it a reply of the other kind.

* `Json.Outline.ofBytes?`, `Json.Outline.member?` — what a reader asks of bytes and of an object.
* `Json.ofBytes?_of_reads`, `Json.ofBytes?_line_of_reads` — what is written is read back, as it is
  or with a newline behind it.
* `Answer.ofOutline?_outline` — a reader gets what was answered.
* `Reply.outline_injective` — what a reply says tells which reply it is.
* `Reply.read_back_as_written` — all of this for the bytes of a reply.
-/

namespace CompileFlags

/-! ## Readers -/

namespace Json

namespace Outline

/-- What bytes say, if they are a text and all of it can be read. -/
def ofBytes? (bs : Bytes) : Option Outline := (Utf8.decode bs).toOption.bind ofText?

/-- The value of an object for a key, the last one that is written for it. -/
def member? (key : String) (o : Outline) : Option Outline :=
  o.members?.bind fun members => (writtenFor key members).getLast?

/-- A boolean. -/
def boolean? : Outline → Option Bool
  | scalar (.boolean b) => some b
  | _ => none

/-- A list of texts. -/
def texts? : Outline → Option (List String)
  | list items => items.mapM text?
  | _ => none

/-- A list of texts as it is written. -/
def ofTexts (items : List String) : Outline := .list (items.map fun s => .scalar (.text s))

theorem texts?_ofTexts (items : List String) : (ofTexts items).texts? = some items := by
  show (items.map fun s => Outline.scalar (.text s)).mapM text? = _
  rw [List.mapM_map]
  exact (List.mapM_pure (f := id)).trans (by rw [List.map_id]; rfl)

end Outline

/-- Bytes of characters that are read as a value have its outline. -/
theorem ofBytes?_of_reads {cs : List Char} {o : Outline} (h : Reads maxDepth cs o) :
    Outline.ofBytes? (Utf8.encode (.ofList cs)) = some o := by
  rw [Outline.ofBytes?, Utf8.decode_encode]
  exact ofText?_of_reads h

/-- A newline behind them changes nothing. -/
theorem ofBytes?_line_of_reads {cs : List Char} {o : Outline} (h : Reads maxDepth cs o) :
    Outline.ofBytes? (Utf8.encode (.ofList cs ++ "\n")) = some o := by
  have hline : String.ofList cs ++ "\n" = .ofList (cs ++ ['\n']) := String.ofList_append.symm
  rw [Outline.ofBytes?, Utf8.decode_encode, hline]
  exact ofText?_of_reads_append h (List.forall_mem_singleton.2 rfl)

end Json

open Json (Outline Reads)

/-! ## Answers -/

namespace Answer

/-- An answer as it is written. -/
def outline (a : Answer) : Outline :=
  .object [("flags", .ofTexts a.flags), ("do_cache", .scalar (.boolean a.cache))]

/-- The answer in an object, if it has the members of one. -/
def ofOutline? (o : Outline) : Option Answer := do
  let flags ← (← o.member? "flags").texts?
  let cache ← (← o.member? "do_cache").boolean?
  some ⟨flags, cache⟩

theorem reads_written (a : Answer) : Reads Json.maxDepth a.written.toList a.outline := by
  rw [written, String.toList_ofList]
  exact Json.reads_objectOf
    (.cons ⟨rfl, Json.reads_texts 125 a.flags⟩ (.cons ⟨rfl, Json.reads_boolean 126 a.cache⟩ .nil))

theorem member?_flags (a : Answer) : a.outline.member? "flags" = some (.ofTexts a.flags) := rfl

/-- A reader of answers gets what was answered. -/
theorem ofOutline?_outline (a : Answer) : ofOutline? a.outline = some a := by
  show (Outline.texts? (.ofTexts a.flags)).bind _ = _
  rw [Outline.texts?_ofTexts]
  rfl

end Answer

/-! ## Replies -/

namespace Reply

/-- A reply as it is written. -/
def outline : Reply → Outline
  | answer a => a.outline
  | refusal reason => .object [("error", .scalar (.text reason))]

/-- The reason in an object, if it has the member of a refusal. -/
def reasonOf? (o : Outline) : Option String := (o.member? "error").bind Outline.text?

theorem reads_written (r : Reply) : Reads Json.maxDepth r.written.toList r.outline := by
  cases r with
  | answer a => exact a.reads_written
  | refusal reason =>
    rw [written, String.toList_ofList]
    exact Json.reads_objectOf (.cons ⟨rfl, Json.reads_quote 126 reason⟩ .nil)

/-- The bytes of a reply are read back as what it says. -/
theorem ofBytes?_written (r : Reply) :
    Outline.ofBytes? (Utf8.encode r.written) = some r.outline := by
  have h := Json.ofBytes?_of_reads r.reads_written
  rwa [String.ofList_toList] at h

/-- What a reply says tells which reply it is. -/
theorem outline_injective : Function.Injective outline := by
  intro r s h
  cases r with
  | answer a =>
    cases s with
    | answer b =>
      have hsome : some a = some b := by
        rw [← a.ofOutline?_outline, ← b.ofOutline?_outline]
        exact congrArg Answer.ofOutline? h
      rw [Option.some.inj hsome]
    | refusal reason =>
      have hreason : none = some reason := congrArg reasonOf? h
      cases hreason
  | refusal reason =>
    cases s with
    | answer b =>
      have hreason : some reason = none := congrArg reasonOf? h
      cases hreason
    | refusal other =>
      have hsome : some reason = some other := congrArg reasonOf? h
      rw [Option.some.inj hsome]

/-- **Replies are read back as they were written.** No byte of a written reply is a control. An
answer is read as one object with its flags and its cache hint as its only members, in this order,
and a refusal as one with its reason as its only member. So a reader who asks for an answer gets the
answer and nothing from a refusal, a reader who asks for a reason gets the reason and nothing from
an answer, and different replies are written with different bytes. -/
theorem read_back_as_written :
    (∀ r : Reply, ∀ b ∈ Utf8.encode r.written, 0x20 ≤ b.toNat) ∧
    (∀ a : Answer,
      let o := Outline.object [("flags", .list (a.flags.map fun s => .scalar (.text s))),
        ("do_cache", .scalar (.boolean a.cache))]
      Outline.ofBytes? (Utf8.encode (answer a).written) = some o ∧
        Answer.ofOutline? o = some a ∧ reasonOf? o = none) ∧
    (∀ reason : String,
      let o := Outline.object [("error", .scalar (.text reason))]
      Outline.ofBytes? (Utf8.encode (refusal reason).written) = some o ∧
        reasonOf? o = some reason ∧ Answer.ofOutline? o = none) ∧
    Function.Injective fun r : Reply => Utf8.encode r.written := by
  refine ⟨fun r b hb => le_toNat_of_mem_written hb, ?_, ?_, ?_⟩
  · intro a o
    exact ⟨ofBytes?_written (answer a), a.ofOutline?_outline, rfl⟩
  · intro reason o
    exact ⟨ofBytes?_written (refusal reason), rfl, rfl⟩
  · intro r s h
    have hread : some r.outline = some s.outline := by
      rw [← ofBytes?_written, ← ofBytes?_written]
      exact congrArg Outline.ofBytes? h
    exact outline_injective (Option.some.inj hread)

end Reply

end CompileFlags
