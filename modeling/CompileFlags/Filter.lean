import CompileFlags.Fault
import CompileFlags.Pattern.Match
import CompileFlags.Pattern.Parser

/-!
# Filters

Which flags of a catalog are shown. A filter is a list of rules, each a pattern that includes or
excludes what it matches, and the last rule that matches a flag decides. A flag that no rule matches
is included exactly if no rule of the filter includes anything.
-/

namespace CompileFlags

/-- A pattern and whether it includes or excludes what it matches. -/
structure Rule where
  pattern : Pattern
  includes : Bool

/-- Rules in the order in which they were given. -/
structure Filter where
  rules : List Rule := []

namespace Filter

/-- The filter with one more rule. -/
def push (f : Filter) (rule : Rule) : Filter := ⟨f.rules ++ [rule]⟩

/-- The filter with one more rule, whose pattern is written as a text. -/
def add (f : Filter) (includes : Bool) (text : String) : Except Fault Filter :=
  match Pattern.parse text with
  | .ok pattern => .ok (f.push ⟨pattern, includes⟩)
  | .error e => inContext (if includes then .includePattern else .excludePattern)
      (.error (.ofCause (.pattern e)))

/-- Whether a text passes the filter. -/
def accepts (f : Filter) (subject : String) : Bool :=
  f.rules.foldl
    (fun verdict rule => if rule.pattern.isMatch subject then rule.includes else verdict)
    (f.rules.all fun rule => !rule.includes)

end Filter

end CompileFlags
