import CompileFlags.Proofs.Encoding
import CompileFlags.Proofs.ReadArguments
import Mathlib.Data.List.Nodup
import Mathlib.Data.List.TakeWhile

/-!
# The spellings of an option

An option with a value can be written in five ways, with its letter or with its name. Each of them
is read as the same option with the same value, whatever bytes the value is made of: a value that
has an argument of its own may look like an option, be empty, or be the two hyphens behind which
there are only operands.

* `Spelled` — the ways to write an option with its value.
* `Grammar.WellSpelled` — no letter and no name of a grammar stands for two of its options.
* `Grammar.read_spelled` — all spellings are read alike.
* `Grammar.read_parts` — arguments that each change the settings in some way make all the changes,
  in their order.
-/

namespace CompileFlags.CommandLine

open CompileFlags.Utf8 (encode encodeChar)

/-- What has a key is found by it, if no two have the same. -/
theorem find?_of_nodup {α β : Type} [BEq β] [LawfulBEq β] {key : α → Option β} {xs : List α} {x : α}
    {b : β} (h : (xs.filterMap key).Nodup) (hx : x ∈ xs) (hb : key x = some b) :
    xs.find? (fun y => key y == some b) = some x := by
  induction xs with
  | nil => cases hx
  | cons y xs ih =>
    rcases List.mem_cons.1 hx with rfl | hx
    · exact List.find?_cons_of_pos (by rw [hb]; exact beq_self_eq_true _)
    · have hmem : b ∈ xs.filterMap key := List.mem_filterMap.2 ⟨x, hx, hb⟩
      have hne : key y ≠ some b := by
        intro hy
        rw [List.filterMap_cons_some hy, List.nodup_cons] at h
        exact h.1 hmem
      rw [List.find?_cons_of_neg (by rwa [beq_iff_eq])]
      refine ih ?_ hx
      cases hy : key y with
      | none => rwa [List.filterMap_cons_none hy] at h
      | some a =>
        rw [List.filterMap_cons_some hy] at h
        exact h.of_cons

/-- The ways to write an option with its value. -/
inductive Spelled (short : Option Char) (long : String) (v : Bytes) : List Bytes → Prop where
  /-- A letter, and the value as the next argument. -/
  | letter {c : Char} (hc : short = some c) : Spelled short long v [encode (shortSpelling c), v]
  /-- A letter, and the value behind an equals sign. -/
  | letterEquals {c : Char} (hc : short = some c) :
    Spelled short long v [encode (shortSpelling c) ++ equals :: v]
  /-- A letter and the value right behind it. An empty value would be none, and the equals sign at
  the start of a value would not belong to it. -/
  | letterJoined {c : Char} (hc : short = some c) (hne : v ≠ []) (heq : v.head? ≠ some equals) :
    Spelled short long v [encode (shortSpelling c) ++ v]
  /-- A name, and the value as the next argument. -/
  | name : Spelled short long v [encode ("--" ++ long), v]
  /-- A name, and the value behind an equals sign. -/
  | nameEquals : Spelled short long v [encode ("--" ++ long) ++ equals :: v]

/-! ## How arguments are spelled -/

theorem encode_shortSpelling (c : Char) : encode (shortSpelling c) = hyphen :: encodeChar c := by
  rw [encode, shortSpelling, String.toList_ofList, Utf8.encodeChars_cons, Utf8.encodeChars_cons,
    Utf8.encodeChars_nil, List.append_nil]
  rfl

/-- A hyphen and another character start letters. -/
theorem spelling_letter {c : Char} (hc : c ≠ '-') (rest : Bytes) :
    Spelling.of (encode (shortSpelling c) ++ rest) = .shorts (encodeChar c ++ rest) := by
  obtain ⟨b, bs, hb⟩ := List.exists_cons_of_ne_nil (Utf8.encodeChar_ne_nil c)
  have hne : b ≠ hyphen := by
    rintro rfl
    have hmem : UInt8.ofNat '-'.toNat ∈ encodeChar c := by
      rw [hb]
      exact List.mem_cons_self
    exact hc ((Utf8.ofNat_mem_encodeChar_iff (by decide)).1 hmem)
  rw [encode_shortSpelling, hb]
  simp [Spelling.of, hne]

theorem encode_hyphens (long : String) :
    encode ("--" ++ long) = hyphen :: hyphen :: encode long := by
  rw [Utf8.encode_append]
  rfl

/-- No byte of a name without an equals sign ends the name. -/
theorem bne_equals_of_mem_encode {long : String} (h : '=' ∉ long.toList) :
    ∀ b ∈ encode long, (b != equals) = true := by
  intro b hb
  rw [bne_iff_ne]
  rintro rfl
  exact h ((Utf8.ofNat_mem_encode_iff (by decide : '='.toNat < 0x80) long).1 hb)

/-- Two hyphens and a name without an equals sign are a name without a value. -/
theorem spelling_name {long : String} (hne : long ≠ "") (h : '=' ∉ long.toList) :
    Spelling.of (encode ("--" ++ long)) = .long (encode long) none := by
  have hall := bne_equals_of_mem_encode h
  have htake : (encode long).takeWhile (· != equals) = encode long :=
    List.takeWhile_eq_self_iff.2 hall
  have hdrop : afterEquals (encode long) = none := by
    rw [afterEquals, List.dropWhile_eq_nil_iff.2 hall]
    rfl
  rw [encode_hyphens]
  simp [Spelling.of, Utf8.encode_ne_nil hne, htake, hdrop]

/-- Behind the first equals sign stands the value of the name. -/
theorem spelling_nameEquals {long : String} (h : '=' ∉ long.toList) (v : Bytes) :
    Spelling.of (encode ("--" ++ long) ++ equals :: v) = .long (encode long) (some v) := by
  have hall := bne_equals_of_mem_encode h
  have htake : (encode long ++ equals :: v).takeWhile (· != equals) = encode long := by
    rw [List.takeWhile_append_of_pos hall, List.takeWhile_cons_of_neg (by simp), List.append_nil]
  have hdrop : afterEquals (encode long ++ equals :: v) = some v := by
    rw [afterEquals, List.dropWhile_append_of_pos hall, List.dropWhile_cons_of_neg (by simp)]
    rfl
  rw [encode_hyphens]
  simp [Spelling.of, htake, hdrop]

/-- A text that is a lone hyphen, or does not start with one, is an operand. -/
theorem spelling_operand {name : String} (h : name = "-" ∨ name.toList.head? ≠ some '-') :
    Spelling.of (encode name) = .operand := by
  rcases h with rfl | h
  · rfl
  · have hhead : (encode name).head? ≠ some hyphen := by
      rw [show hyphen = UInt8.ofNat '-'.toNat from rfl, ne_eq, Utf8.head?_encode_eq_iff (by decide)]
      exact h
    match hname : encode name with
    | [] => rfl
    | [b] => rfl
    | a :: b :: rest =>
      have ha : a ≠ hyphen := by
        rintro rfl
        exact hhead (by rw [hname]; rfl)
      simp [Spelling.of, ha]

theorem textValue_encode (label s : String) : textValue label (encode s) = .ok s := by
  rw [textValue, textOf_encode]
  rfl

/-! ## Reading -/

namespace Grammar

variable {σ : Type} {g : Grammar σ} {rule : OptionRule σ} {long : String}
  {apply : Bytes → σ → Except Fault σ} {v : Bytes} {args : List Bytes}

/-- A grammar in which no spelling of an option is one of another, or means something else: no
letter is the hyphen, and no name is empty or has an equals sign in it. -/
structure WellSpelled (g : Grammar σ) : Prop where
  letters : (g.options.filterMap (·.short)).Nodup
  names : (g.options.filterMap (·.long)).Nodup
  letters_ne : '-' ∉ g.options.filterMap (·.short)
  names_plain : ∀ long ∈ g.options.filterMap (·.long), long ≠ "" ∧ '=' ∉ long.toList

namespace WellSpelled

/-- The letter of an option leads to it. -/
theorem short?_eq (hg : g.WellSpelled) (hrule : rule ∈ g.options) {c : Char}
    (hc : rule.short = some c) : c ≠ '-' ∧ g.short? c = some rule := by
  have hmem : c ∈ g.options.filterMap (·.short) := List.mem_filterMap.2 ⟨rule, hrule, hc⟩
  constructor
  · rintro rfl
    exact hg.letters_ne hmem
  · exact find?_of_nodup hg.letters hrule hc

theorem plain (hg : g.WellSpelled) (hrule : rule ∈ g.options) (hl : rule.long = some long) :
    long ≠ "" ∧ '=' ∉ long.toList :=
  hg.names_plain long (List.mem_filterMap.2 ⟨rule, hrule, hl⟩)

/-- The name of an option leads to it. -/
theorem long?_eq (hg : g.WellSpelled) (hrule : rule ∈ g.options) (hl : rule.long = some long) :
    g.long? (encode long) = some rule := by
  rw [long?, Utf8.lossy_encode]
  exact find?_of_nodup hg.names hrule hl

end WellSpelled

/-- A letter with bytes behind it takes these bytes, but for an equals sign at their start. -/
theorem read_value_behind {c : Char} {chain more : Bytes} {arg : Bytes} {b : UInt8}
    (hs : Spelling.of arg = .shorts chain) (hf : Utf8.front chain = .char c (b :: more))
    (hr : g.short? c = some rule) (he : rule.effect = .value apply) (rest : List Bytes) (s : σ) :
    g.read (arg :: rest) s =
      (apply (if b = equals then more else b :: more) s).bind fun s => g.read rest s := by
  rw [read]
  simp only [hs, readChain_value hf hr he]
  cases apply (if b = equals then more else b :: more) s <;> rfl

/-- **All spellings of an option are read alike.** -/
theorem read_spelled (hg : g.WellSpelled) (hrule : rule ∈ g.options) (hl : rule.long = some long)
    (he : rule.effect = .value apply) (h : Spelled rule.short long v args) (rest : List Bytes)
    (s : σ) : g.read (args ++ rest) s = (apply v s).bind fun s => g.read rest s := by
  have hlong := hg.long?_eq hrule hl
  obtain ⟨hne, hplain⟩ := hg.plain hrule hl
  cases h with
  | @letter c hc =>
    obtain ⟨hc', hr⟩ := hg.short?_eq hrule hc
    have hs := spelling_letter hc' []
    have hf := Utf8.front_encodeChar c []
    rw [List.append_nil] at hs
    exact read_value hs hf hr he rest s
  | @letterEquals c hc =>
    obtain ⟨hc', hr⟩ := hg.short?_eq hrule hc
    have hread := read_value_behind (spelling_letter hc' (equals :: v))
      (Utf8.front_encodeChar c (equals :: v)) hr he rest s
    rwa [if_pos rfl] at hread
  | @letterJoined c hc hne heq =>
    obtain ⟨hc', hr⟩ := hg.short?_eq hrule hc
    obtain ⟨b, more, rfl⟩ := List.exists_cons_of_ne_nil hne
    have hb : b ≠ equals := by
      rintro rfl
      exact heq rfl
    have hread := read_value_behind (spelling_letter hc' (b :: more))
      (Utf8.front_encodeChar c (b :: more)) hr he rest s
    rwa [if_neg hb] at hread
  | name =>
    rw [List.cons_append, List.singleton_append, read]
    simp only [spelling_name hne hplain, hlong, he]
  | nameEquals =>
    rw [List.singleton_append, read]
    simp only [spelling_nameEquals hplain, hlong, he]

theorem read_operand {arg : Bytes} (hs : Spelling.of arg = .operand) (rest : List Bytes) (s : σ) :
    g.read (arg :: rest) s = (g.operand arg s).bind fun s => g.read rest s := by
  rw [read]
  simp only [hs]

/-- Arguments that only change the settings, in a way of their own, wherever they stand. -/
def Changes (g : Grammar σ) (change : σ → σ) (args : List Bytes) : Prop :=
  ∀ rest s, g.read (args ++ rest) s = g.read rest (change s)

/-- **Parts of arguments make their changes one after the other**, whatever stands behind them. -/
theorem read_parts {α : Type} {change : α → σ → σ} {said : List α} {parts : List (List Bytes)}
    (h : List.Forall₂ (fun a => g.Changes (change a)) said parts) (rest : List Bytes) (s : σ) :
    g.read (parts.flatten ++ rest) s = g.read rest (said.foldl (fun s a => change a s) s) := by
  induction h generalizing s with
  | nil => rfl
  | cons hpart _ ih =>
    rw [List.flatten_cons, List.append_assoc, hpart, ih]
    rfl

/-- If nothing stands behind them, the changes are all there is. -/
theorem read_flatten {α : Type} {change : α → σ → σ} {said : List α} {parts : List (List Bytes)}
    (h : List.Forall₂ (fun a => g.Changes (change a)) said parts) (s : σ) :
    g.read parts.flatten s = .ok (said.foldl (fun s a => change a s) s) := by
  rw [← List.append_nil parts.flatten, read_parts h, read]

/-- An option that takes a value changes the settings, if the value is good for every settings. -/
theorem changes_spelled {change : σ → σ} (hg : g.WellSpelled) (hrule : rule ∈ g.options)
    (hl : rule.long = some long) (he : rule.effect = .value apply)
    (hv : ∀ s, apply v s = .ok (change s)) (h : Spelled rule.short long v args) :
    g.Changes change args := by
  intro rest s
  rw [read_spelled hg hrule hl he h, hv]
  rfl

/-- An option whose value is a path. -/
theorem changes_path (hg : g.WellSpelled) {c : Char} {set : Path → σ → σ}
    (hrule : pathOption c long set ∈ g.options) (h : Spelled (some c) long v args) :
    g.Changes (set (.ofBytes v)) args :=
  changes_spelled hg hrule rfl rfl (fun _ => rfl) h

/-- An option whose value is one of a few names. -/
theorem changes_choice {α : Type} (set : α → σ → σ) (hg : g.WellSpelled) {short : Option Char}
    {ofName : String → Except Complaint α} {name : String} {x : α}
    (hrule : choiceOption short long ofName set ∈ g.options) (hx : ofName name = .ok x)
    (h : Spelled short long (encode name) args) : g.Changes (set x) args := by
  refine changes_spelled hg hrule rfl rfl ?_ h
  intro s
  rw [textValue_encode]
  show ((ofName name).mapError _ >>= _) = _
  rw [hx]
  rfl

end Grammar

end CompileFlags.CommandLine
