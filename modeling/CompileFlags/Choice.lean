import CompileFlags.Fault

/-!
# Choices

What a run can be asked for by name: when the table of flags is in color, and how the flags of a
file are written.
-/

namespace CompileFlags

/-- When the output is in color. -/
inductive Color where
  /-- Exactly if it goes to a terminal. -/
  | auto
  | always
  | never
  deriving DecidableEq, Repr

namespace Color

/-- The choice that a name stands for. -/
def ofName (name : String) : Except Complaint Color :=
  match name with
  | "auto" => .ok auto
  | "always" => .ok always
  | "never" => .ok never
  | _ => .error (.unknownColor name)

/-- Whether an output is in color. -/
def applies (terminal : Bool) : Color → Bool
  | auto => terminal
  | always => true
  | never => false

end Color

/-- How the flags of a file are written. -/
inductive Layout where
  /-- As an object, with whether they may be kept. -/
  | json
  /-- Each on a line of its own. -/
  | lines
  deriving DecidableEq, Repr

/-- The layout that a name stands for. -/
def Layout.ofName (name : String) : Except Complaint Layout :=
  match name with
  | "json" => .ok .json
  | "lines" => .ok .lines
  | _ => .error (.unknownFormat name)

end CompileFlags
