import CompileFlags.Pattern.CharSet

/-!
# Patterns

What a pattern is made of: sets of characters, assertions about a spot between two characters, and
the ways to put patterns together. `depth` measures how deep they are put together.
-/

namespace CompileFlags

namespace Pattern

/-- An assertion about the spot between two characters. -/
inductive Look where
  /-- The text starts here. -/
  | start
  /-- The text ends here. -/
  | finish
  /-- A line starts here. -/
  | lineStart
  /-- A line ends here. -/
  | lineFinish
  /-- A line starts here, where a carriage return ends a line too. -/
  | lineStartReturn
  /-- A line ends here, where a carriage return ends a line too. -/
  | lineFinishReturn
  /-- A word is on exactly one side. -/
  | boundary
  | notBoundary
  /-- A word follows, and none comes before. -/
  | wordStart
  /-- A word comes before, and none follows. -/
  | wordFinish
  /-- No word comes before. -/
  | wordStartHalf
  /-- No word follows. -/
  | wordFinishHalf
  deriving DecidableEq, Repr

end Pattern

/-- A pattern for texts. -/
inductive Pattern where
  | empty
  | char (c : Char)
  | oneOf (set : CharSet)
  | look (l : Pattern.Look)
  /-- At least `min` and at most `max` times the same pattern. -/
  | repetition (min : Nat) (max : Option Nat) (sub : Pattern)
  /-- A numbered group, which may have a name. -/
  | group (number : Nat) (name : Option String) (sub : Pattern)
  | sequence (subs : List Pattern)
  | choice (subs : List Pattern)
  deriving Inhabited

namespace Pattern

/-- A sequence; one pattern is its own sequence. -/
def ofSequence : List Pattern → Pattern
  | [] => empty
  | [p] => p
  | subs => sequence subs

/-- A choice; one pattern is its own choice. -/
def ofChoice : List Pattern → Pattern
  | [p] => p
  | subs => choice subs

/-- A repetition; no round at all is the empty pattern, and exactly one is the pattern itself. -/
def ofRepetition (min : Nat) (max : Option Nat) (sub : Pattern) : Pattern :=
  if min = 0 ∧ max = some 0 then empty
  else if min = 1 ∧ max = some 1 then sub
  else repetition min max sub

/-- How many patterns a pattern is nested in at most. -/
def depth : Pattern → Nat
  | repetition _ _ sub | group _ _ sub => sub.depth + 1
  | sequence subs | choice subs => depths subs + 1
  | _ => 0
where
  /-- The greatest depth in a list of patterns. -/
  depths : List Pattern → Nat
    | [] => 0
    | p :: ps => max p.depth (depths ps)

end Pattern

end CompileFlags
