import CompileFlags.Text.Character
import CompileFlags.Toml.Error

/-!
# Signs of a document

A document is read as a row of signs: words, strings, brackets, and the blanks, comments and
newlines between them. `Tokens.ofText` gives the signs of a text with the byte that each starts at;
where the text holds none, the row ends with the reason.

Carriage returns before newlines are dropped at the very start, so a line has one kind of end.
-/

namespace CompileFlags.Toml

/-- A sign of a document. -/
inductive Token where
  | newline
  /-- Blanks within a line; `single` if they are just one space. -/
  | blanks (single : Bool)
  | comment
  | equals
  | period
  | comma
  | colon
  | plus
  | leftBrace
  | rightBrace
  | leftBracket
  | rightBracket
  | text (value : String) (multiline : Bool)
  | word (value : String)
  deriving DecidableEq, Repr

/-- What a message calls a sign. -/
def Token.describe : Token → String
  | newline => "a newline"
  | blanks _ => "whitespace"
  | comment => "a comment"
  | equals => "an equals"
  | period => "a period"
  | comma => "a comma"
  | colon => "a colon"
  | plus => "a plus"
  | leftBrace => "a left brace"
  | rightBrace => "a right brace"
  | leftBracket => "a left bracket"
  | rightBracket => "a right bracket"
  | text _ true => "a multiline string"
  | text _ false => "a string"
  | word _ => "an identifier"

/-- A row of signs, each with the byte it starts at. -/
inductive Tokens where
  /-- The document ends. -/
  | finish (offset : Nat)
  /-- The document goes on with something that is no sign. -/
  | broken (offset : Nat) (f : Failure)
  | token (offset : Nat) (t : Token) (rest : Tokens)
  deriving Repr

namespace Tokens

/-- The byte at which a row of signs starts. -/
def offset : Tokens → Nat
  | finish n => n
  | broken n _ => n
  | token n _ _ => n

/-- The number of signs. -/
def length : Tokens → Nat
  | token _ _ rest => rest.length + 1
  | _ => 0

end Tokens

/-! ## Characters and their bytes -/

/-- Characters, each with the byte it starts at. -/
abbrev Marks := List (Nat × Char)

/-- The characters of a text that starts at a byte. A carriage return and the newline after it are
one newline, at the byte of the former. -/
def marksFrom (offset : Nat) : List Char → Marks
  | [] => []
  | '\r' :: '\n' :: rest => (offset, '\n') :: marksFrom (offset + 2) rest
  | c :: rest => (offset, c) :: marksFrom (offset + c.utf8Size) rest

/-- Whether a character can be in a word. -/
def isWordChar (c : Char) : Bool := c.isAlphanum || c == '-' || c == '_'

/-- Whether a character is a blank within a line. -/
def isInlineBlank (c : Char) : Bool := c == ' ' || c == '\t'

/-- Whether a character is allowed in a comment: a tab, or none of the first controls. -/
def isCommentChar (c : Char) : Bool := c == '\t' || 0x20 ≤ c.toNat

/-- Whether a character is allowed in a string. -/
def isStringChar (c : Char) : Bool := isCommentChar c && c != '\x7F'

theorem length_dropWhile_le (p : Nat × Char → Bool) (cs : Marks) :
    (cs.dropWhile p).length ≤ cs.length :=
  (List.dropWhile_sublist p).length_le

/-! ## Strings -/

/-- The character of an escape of one letter. -/
def simpleEscape? : Char → Option Char
  | '"' => some '"'
  | '\\' => some '\\'
  | 'b' => some '\x08'
  | 'f' => some '\x0C'
  | 'n' => some '\n'
  | 'r' => some '\r'
  | 't' => some '\t'
  | _ => none

/-- The character with so many hexadecimal digits. `start` is where the string starts and `letter`
where the letter of the escape stands. -/
def numberEscape (start letter digits : Nat) (cs : Marks) : Except Failure (List Char × Marks) :=
  let number := cs.take digits
  match number.find? fun m => (Text.hexValue? m.2).isNone with
  | some (i, c) => .error (.atByte i (.hexEscape c))
  | none =>
    if number.length < digits then .error (.atByte start .unterminatedString)
    else
      let n := number.foldl (fun n m => n * 16 + (Text.hexValue? m.2).getD 0) 0
      match Text.charOfNat? n with
      | some c => .ok ([c], cs.drop digits)
      | none => .error (.atByte letter (.escapeValue n))

/-- What an escape stands for. In a string of several lines a backslash at the end of a line takes
away the end of the line and all blanks and newlines after it. -/
def escape (multiline : Bool) (start : Nat) : Marks → Except Failure (List Char × Marks)
  | [] => .error (.atByte start .unterminatedString)
  | (i, c) :: rest =>
    if c = 'u' then numberEscape start i 4 rest
    else if c = 'U' then numberEscape start i 8 rest
    else
      match simpleEscape? c with
      | some d => .ok ([d], rest)
      | none =>
        let isGap := fun (m : Nat × Char) => isInlineBlank m.2 || m.2 == '\n'
        if multiline && c = '\n' then .ok ([], rest.dropWhile isGap)
        else if multiline && isInlineBlank c then
          match rest.dropWhile fun m => isInlineBlank m.2 with
          | [] => .ok ([], [])
          | (_, '\n') :: more => .ok ([], more.dropWhile isGap)
          | _ => .error (.atByte i (.escape c))
        else .error (.atByte i (.escape c))

theorem numberEscape_length {start letter digits : Nat} {cs rest : Marks} {out : List Char}
    (h : numberEscape start letter digits cs = .ok (out, rest)) : rest.length ≤ cs.length := by
  unfold numberEscape at h
  simp only at h
  split at h
  · simp at h
  · split at h
    · simp at h
    · split at h
      · simp only [Except.ok.injEq, Prod.mk.injEq] at h
        simp [← h.2]
      · simp at h

theorem escape_length {multiline : Bool} {start : Nat} {cs rest : Marks} {out : List Char}
    (h : escape multiline start cs = .ok (out, rest)) : rest.length ≤ cs.length := by
  cases cs with
  | nil => simp [escape] at h
  | cons m cs =>
    obtain ⟨i, c⟩ := m
    simp only [escape] at h
    split at h
    · have := numberEscape_length h; simp; omega
    · split at h
      · have := numberEscape_length h; simp; omega
      · split at h
        · simp only [Except.ok.injEq, Prod.mk.injEq] at h
          simp [← h.2]
        · split at h
          · simp only [Except.ok.injEq, Prod.mk.injEq] at h
            have := length_dropWhile_le (fun m => isInlineBlank m.2 || m.2 == '\n') cs
            rw [← h.2]; simp; omega
          · split at h
            · have hle := length_dropWhile_le (fun m => isInlineBlank m.2) cs
              split at h
              · simp only [Except.ok.injEq, Prod.mk.injEq] at h
                simp [← h.2]
              · rename_i more hm
                simp only [Except.ok.injEq, Prod.mk.injEq] at h
                have := length_dropWhile_le (fun m => isInlineBlank m.2 || m.2 == '\n') more
                rw [hm] at hle
                rw [← h.2]; simp only [List.length_cons] at hle ⊢; omega
              · simp at h
            · simp at h

/-- The inside of a string that starts at `start`, up to its closing quotes. A string of several
lines is closed by three quotes, and up to two more in front of them belong to it. -/
def stringBody (quote : Char) (multiline : Bool) (start : Nat) (cs : Marks) :
    Except Failure (List Char × Marks) :=
  match cs with
  | [] => .error (.atByte start .unterminatedString)
  | (i, c) :: rest =>
    if c = '\n' then
      if multiline then
        match stringBody quote multiline start rest with
        | .ok (out, rest) => .ok ('\n' :: out, rest)
        | .error f => .error f
      else .error (.atByte i .newlineInString)
    else if c = quote then
      let more := (rest.takeWhile fun m => m.2 == quote).length
      if !multiline then .ok ([], rest)
      else if more < 2 then
        match stringBody quote multiline start rest with
        | .ok (out, rest) => .ok (c :: out, rest)
        | .error f => .error f
      else .ok (List.replicate (Nat.min more 4 - 2) quote, rest.drop (Nat.min more 4))
    else if c = '\\' ∧ quote = '"' then
      match _h : escape multiline start rest with
      | .ok (here, after) =>
        match stringBody quote multiline start after with
        | .ok (out, rest) => .ok (here ++ out, rest)
        | .error f => .error f
      | .error f => .error f
    else if isStringChar c then
      match stringBody quote multiline start rest with
      | .ok (out, rest) => .ok (c :: out, rest)
      | .error f => .error f
    else .error (.atByte i (.charInString c))
termination_by cs.length
decreasing_by
  · simp
  · simp
  · have := escape_length _h; simp; omega
  · simp

/-- The string with this inside, and what follows it. -/
def stringOf (quote : Char) (multiline : Bool) (start : Nat) (cs : Marks) :
    Except Failure (Token × Marks) :=
  match stringBody quote multiline start cs with
  | .ok (out, rest) => .ok (.text (.ofList out) multiline, rest)
  | .error f => .error f

/-- A string after its first quote. A newline right after three opening quotes is no part of it. -/
def stringToken (quote : Char) (start : Nat) : Marks → Except Failure (Token × Marks)
  | (i, a) :: (j, b) :: rest =>
    if a = quote ∧ b = quote then
      match rest with
      | (_, '\n') :: rest => stringOf quote true start rest
      | rest => stringOf quote true start rest
    else if a = quote then .ok (.text "" false, (j, b) :: rest)
    else stringOf quote false start ((i, a) :: (j, b) :: rest)
  | [(i, a)] => if a = quote then .ok (.text "" false, []) else stringOf quote false start [(i, a)]
  | [] => stringOf quote false start []

theorem stringBody_length {quote : Char} {multiline : Bool} {start : Nat} {cs rest : Marks}
    {out : List Char} (h : stringBody quote multiline start cs = .ok (out, rest)) :
    rest.length ≤ cs.length := by
  fun_induction stringBody quote multiline start cs generalizing out rest with
  | case1 => simp at h
  | case2 => simp_all; omega
  | case3 => simp_all
  | case4 => simp_all
  | case5 => simp_all
  | case6 => simp_all; omega
  | case7 => simp_all
  | case8 =>
    simp only [Except.ok.injEq, Prod.mk.injEq] at h
    rw [← h.2]
    simp
    omega
  | case9 =>
    rename_i he _ _ hb ih
    simp only [Except.ok.injEq, Prod.mk.injEq] at h
    have h1 := escape_length he
    have h2 := ih hb
    rw [← h.2]
    simp
    omega
  | case10 => simp at h
  | case11 => simp at h
  | case12 => simp_all; omega
  | case13 => simp_all
  | case14 => simp at h

theorem stringOf_length {quote : Char} {multiline : Bool} {start : Nat} {cs rest : Marks}
    {t : Token} (h : stringOf quote multiline start cs = .ok (t, rest)) :
    rest.length ≤ cs.length := by
  unfold stringOf at h
  split at h
  · rename_i hb
    simp only [Except.ok.injEq, Prod.mk.injEq] at h
    have := stringBody_length hb
    rw [← h.2]
    omega
  · simp at h

theorem stringToken_length {quote : Char} {start : Nat} {cs rest : Marks} {t : Token}
    (h : stringToken quote start cs = .ok (t, rest)) : rest.length ≤ cs.length := by
  unfold stringToken at h
  split at h
  · split at h
    · split at h
      all_goals have := stringOf_length h; simp_all; omega
    · split at h
      · simp only [Except.ok.injEq, Prod.mk.injEq] at h
        rw [← h.2]
        simp
      · exact stringOf_length h
  · split at h
    · simp only [Except.ok.injEq, Prod.mk.injEq] at h
      rw [← h.2]
      simp
    · exact stringOf_length h
  · exact stringOf_length h

/-! ## Rows of signs -/

/-- The sign of a single character. -/
def singleToken? : Char → Option Token
  | '\n' => some .newline
  | '=' => some .equals
  | '.' => some .period
  | ',' => some .comma
  | ':' => some .colon
  | '+' => some .plus
  | '{' => some .leftBrace
  | '}' => some .rightBrace
  | '[' => some .leftBracket
  | ']' => some .rightBracket
  | _ => none

/-- The signs of characters, in a document of `size` bytes. -/
def Tokens.ofMarks (size : Nat) (cs : Marks) : Tokens :=
  match cs with
  | [] => .finish size
  | (i, c) :: rest =>
    match singleToken? c with
    | some t => .token i t (ofMarks size rest)
    | none =>
      if isInlineBlank c then
        .token i (.blanks (c == ' ' && !rest.head?.any fun m => isInlineBlank m.2))
          (ofMarks size (rest.dropWhile fun m => isInlineBlank m.2))
      else if c = '#' then
        .token i .comment (ofMarks size (rest.dropWhile fun m => isCommentChar m.2))
      else if c = '"' ∨ c = '\'' then
        match _h : stringToken c i rest with
        | .ok (t, rest) => .token i t (ofMarks size rest)
        | .error f => .broken i f
      else if isWordChar c then
        .token i (.word (.ofList (c :: (rest.takeWhile fun m => isWordChar m.2).map Prod.snd)))
          (ofMarks size (rest.dropWhile fun m => isWordChar m.2))
      else .broken i (.atByte i (.unexpectedChar c))
termination_by cs.length
decreasing_by
  · simp
  · have := length_dropWhile_le (fun m => isInlineBlank m.2) rest; simp; omega
  · have := length_dropWhile_le (fun m => isCommentChar m.2) rest; simp; omega
  · have := stringToken_length _h; simp; omega
  · have := length_dropWhile_le (fun m => isWordChar m.2) rest; simp; omega

/-- The signs of a text. A byte order mark at its start is passed over. -/
def Tokens.ofText (text : String) : Tokens :=
  let size := text.utf8ByteSize
  match text.toList with
  | '\uFEFF' :: rest => ofMarks size (marksFrom 3 rest)
  | cs => ofMarks size (marksFrom 0 cs)

end CompileFlags.Toml
