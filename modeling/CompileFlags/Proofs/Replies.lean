import CompileFlags.Answer
import CompileFlags.Proofs.Encoding

/-!
# What replies are written with

Every text in a reply is escaped, so a reply is written without control characters, whatever the
flags or the reason hold.

* `Json.noControls_quote`, `Json.noControls_objectOf` — neither texts nor what holds them bring in
  controls.
* `Reply.le_toNat_of_mem_written` — no byte of a written reply is below 0x20.
-/

namespace CompileFlags

namespace Json

/-- No character is a control of ASCII. -/
def NoControls (cs : List Char) : Prop := ∀ c ∈ cs, 0x20 ≤ c.toNat

theorem NoControls.append {a b : List Char} (ha : NoControls a) (hb : NoControls b) :
    NoControls (a ++ b) := by
  intro c hc
  rcases List.mem_append.1 hc with hc | hc
  · exact ha c hc
  · exact hb c hc

theorem NoControls.cons {c : Char} {cs : List Char} (hc : 0x20 ≤ c.toNat) (hcs : NoControls cs) :
    NoControls (c :: cs) := by
  intro d hd
  rcases List.mem_cons.1 hd with rfl | hd
  · exact hc
  · exact hcs d hd

theorem noControls_nil : NoControls [] := by
  intro c hc
  cases hc

theorem noControls_pair {c d : Char} (hc : 0x20 ≤ c.toNat) (hd : 0x20 ≤ d.toNat) :
    NoControls [c, d] := .cons hc (.cons hd noControls_nil)

theorem noControls_joinPieces {sep : List Char} {ps : List (List Char)} (hs : NoControls sep)
    (hp : ∀ p ∈ ps, NoControls p) : NoControls (joinPieces sep ps) := by
  induction ps with
  | nil => exact noControls_nil
  | cons p ps ih =>
    have hrest := ih fun q hq => hp q (List.mem_cons_of_mem _ hq)
    cases ps with
    | nil => exact hp p List.mem_cons_self
    | cons q ps => exact ((hp p List.mem_cons_self).append hs).append hrest

theorem le_toNat_digitChar : ∀ d < 16, 0x20 ≤ (Nat.digitChar d).toNat := by decide

/-- A control is escaped, with characters that are none. -/
theorem noControls_escaped (c : Char) : NoControls (Text.escaped c) := by
  unfold Text.escaped
  iterate 7
    split
    · exact noControls_pair (by decide) (by decide)
  split
  · rename_i h
    have h1 := le_toNat_digitChar (c.toNat / 16) (by omega)
    have h2 := le_toNat_digitChar (c.toNat % 16) (by omega)
    exact .cons (by decide) (.cons (by decide) (.cons (by decide) (.cons (by decide)
      (noControls_pair h1 h2))))
  · rename_i h
    exact .cons (by omega) noControls_nil

theorem noControls_quote (s : String) : NoControls (Text.quote s) := by
  refine NoControls.append (.cons (by decide) ?_) (.cons (by decide) noControls_nil)
  intro c hc
  obtain ⟨d, -, hd⟩ := List.mem_flatMap.1 hc
  exact noControls_escaped d c hd

theorem noControls_listOf {items : List (List Char)} (h : ∀ item ∈ items, NoControls item) :
    NoControls (listOf items) :=
  .append (.cons (by decide) (noControls_joinPieces (.cons (by decide) noControls_nil) h))
    (.cons (by decide) noControls_nil)

theorem noControls_texts (items : List String) : NoControls (texts items) := by
  apply noControls_listOf
  intro item hi
  obtain ⟨s, -, rfl⟩ := List.mem_map.1 hi
  exact noControls_quote s

theorem noControls_objectOf {members : List (String × List Char)}
    (h : ∀ m ∈ members, NoControls m.2) : NoControls (objectOf members) := by
  refine .append (.cons (by decide) (noControls_joinPieces (.cons (by decide) noControls_nil) ?_))
    (.cons (by decide) noControls_nil)
  intro p hp
  obtain ⟨m, hm, rfl⟩ := List.mem_map.1 hp
  exact (noControls_quote m.1).append (.cons (by decide) (h m hm))

theorem noControls_boolean (b : Bool) : NoControls (boolean b) := by
  cases b with
  | true =>
    exact .cons (by decide) (.cons (by decide) (noControls_pair (by decide) (by decide)))
  | false =>
    exact .cons (by decide) (.cons (by decide) (.cons (by decide)
      (noControls_pair (by decide) (by decide))))

end Json

namespace Reply

theorem noControls_written (r : Reply) : Json.NoControls r.written.toList := by
  cases r with
  | answer a =>
    rw [written, Answer.written, String.toList_ofList]
    apply Json.noControls_objectOf
    intro m hm
    rcases List.mem_cons.1 hm with rfl | hm
    · exact Json.noControls_texts a.flags
    · rw [List.mem_singleton.1 hm]
      exact Json.noControls_boolean a.cache
  | refusal reason =>
    rw [written, String.toList_ofList]
    apply Json.noControls_objectOf
    intro m hm
    rw [List.mem_singleton.1 hm]
    exact Json.noControls_quote reason

/-- No byte of a written reply is a control. -/
theorem le_toNat_of_mem_written {r : Reply} {b : UInt8} (h : b ∈ Utf8.encode r.written) :
    0x20 ≤ b.toNat := by
  by_contra hb
  obtain ⟨c, hc, hcb⟩ := Utf8.exists_mem_of_mem_encodeChars h (by omega)
  have := r.noControls_written c hc
  omega

end Reply

end CompileFlags
