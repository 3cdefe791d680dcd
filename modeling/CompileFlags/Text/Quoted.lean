import CompileFlags.Text.Printable
import CompileFlags.Text.Utf8

/-!
# Quoted texts

Texts as messages show them, so that a reader sees where they begin and end and what is in them. A
quoted text stands in double quotes; a quote, a backslash and the usual controls are escaped with a
backslash, and any other character that does not show is given by its number.
-/

namespace CompileFlags.Text

/-- A character given by its number, in lower-case hexadecimal digits. -/
def numbered (c : Char) : List Char := ['\\', 'u', '{'] ++ Nat.toDigits 16 c.toNat ++ ['}']

/-- A character inside a quoted text. -/
def quotedChar (c : Char) : List Char :=
  if c = '"' then ['\\', '"']
  else if c = '\\' then ['\\', '\\']
  else if c = '\n' then ['\\', 'n']
  else if c = '\r' then ['\\', 'r']
  else if c = '\t' then ['\\', 't']
  else if c = '\x00' then ['\\', '0']
  else if isPrintable c then [c]
  else numbered c

/-- A text in double quotes. -/
def quoted (s : String) : String :=
  String.ofList ('"' :: s.toList.flatMap quotedChar ++ ['"'])

/-- A list of texts, each in double quotes. -/
def quotedList (l : List String) : String :=
  "[" ++ String.intercalate ", " (l.map quoted) ++ "]"

/-- A byte that is no part of a character, by its two upper-case hexadecimal digits. -/
def quotedByte (b : UInt8) : List Char :=
  ['\\', 'x', (Nat.digitChar (b.toNat / 16)).toUpper, (Nat.digitChar (b.toNat % 16)).toUpper]

/-- The inside of quoted bytes: characters as in a quoted text, and every other byte by itself. -/
def quotedBytesInside (bs : Bytes) : List Char :=
  match _h : Utf8.front bs with
  | .finished => []
  | .char c rest => quotedChar c ++ quotedBytesInside rest
  | .bad width rest => (bs.take width).flatMap quotedByte ++ quotedBytesInside rest
  | .cut => bs.flatMap quotedByte
termination_by bs.length
decreasing_by
  · exact Utf8.front_char_length _h
  · exact Utf8.front_bad_length _h

/-- Any bytes in double quotes. -/
def quotedBytes (bs : Bytes) : String := String.ofList ('"' :: quotedBytesInside bs ++ ['"'])

/-- A single character in a message: visible ASCII as itself, quotes and the backslash with a
backslash, the rest escaped. -/
def shownChar (c : Char) : List Char :=
  if c = '\t' then ['\\', 't']
  else if c = '\r' then ['\\', 'r']
  else if c = '\n' then ['\\', 'n']
  else if c = '\'' || c = '"' || c = '\\' then ['\\', c]
  else if 0x20 ≤ c.toNat && c.toNat ≤ 0x7E then [c]
  else numbered c

end CompileFlags.Text
