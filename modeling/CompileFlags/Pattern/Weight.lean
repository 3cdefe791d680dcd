import CompileFlags.Pattern.Basic

/-!
# The weight of patterns

A matcher takes a step for every sign of a pattern, and for a counted repetition the steps of its
rounds one after the other. So a short text can write a pattern that is too heavy to be matched. The
weight of a pattern counts in bytes what its steps, the links between them and its groups take up.

* `steps` is the weight of the steps.
* `weight` is the whole weight.
-/

namespace CompileFlags.Pattern

/-- The weight of a step. -/
def stepWeight : Nat := 32

/-- The weight of a link from a step that has more than one way on. -/
def linkWeight : Nat := 4

/-- The weight of a range of characters. -/
def rangeWeight : Nat := 8

/-- The weight of a group. -/
def groupWeight : Nat := 16

/-- The weight of the name of a group. -/
def nameWeight (name : String) : Nat := name.utf8ByteSize + 4

/-- Whether a pattern can match without taking a character. -/
def matchesEmpty : Pattern → Bool
  | empty | look _ => true
  | char _ | oneOf _ => false
  | repetition min _ sub => min == 0 || sub.matchesEmpty
  | group _ _ sub => sub.matchesEmpty
  | sequence subs => all subs
  | choice subs => any subs
where
  /-- Whether all patterns of a list can. -/
  all : List Pattern → Bool
    | [] => true
    | p :: ps => p.matchesEmpty && all ps
  /-- Whether any pattern of a list can. -/
  any : List Pattern → Bool
    | [] => false
    | p :: ps => p.matchesEmpty || any ps

/-- The weight of a repetition whose rounds weigh `sub` each. Rounds that have to be made stand one
after the other, and one that may be left out has a step before it that can go past it. A repetition
without end goes back to its last round; if its rounds can match nothing and none has to be made, it
is a repetition of at least one round that may be left out. -/
def rounds (min : Nat) (max : Option Nat) (nothing : Bool) (sub : Nat) : Nat :=
  let fork := stepWeight + 2 * linkWeight
  match max with
  | none =>
    if min = 0 then
      if nothing then sub + 2 * fork + stepWeight else sub + fork
    else min * sub + fork
  | some max =>
    if min = 0 ∧ max = 1 then fork + sub + stepWeight
    else
      let needed := if min = 0 then stepWeight else min * sub
      if min = max then needed else needed + stepWeight + (max - min) * (fork + sub)

/-- The weight of the steps of a pattern. -/
def steps : Pattern → Nat
  | empty | char _ | look _ => stepWeight
  | oneOf set => stepWeight + rangeWeight * set.ranges.length
  | repetition min max sub => rounds min max sub.matchesEmpty sub.steps
  | group _ _ sub => sub.steps + 2 * stepWeight
  | sequence subs => total subs
  | choice subs => total subs + 2 * stepWeight + linkWeight * subs.length
where
  /-- The weight of the steps of all patterns in a list. -/
  total : List Pattern → Nat
    | [] => 0
    | p :: ps => p.steps + total ps

/-- The groups in a pattern, by their numbers and names. -/
def groups : Pattern → List (Nat × Option String)
  | group number name sub => (number, name) :: sub.groups
  | repetition _ _ sub => sub.groups
  | sequence subs | choice subs => groupsIn subs
  | _ => []
where
  /-- The groups in a list of patterns. -/
  groupsIn : List Pattern → List (Nat × Option String)
    | [] => []
    | p :: ps => p.groups ++ groupsIn ps

/-- The weight of a pattern: that of its steps, of the start and the finish, and of all groups up to
the last that is left in it. The whole pattern is the group with number 0. -/
def weight (p : Pattern) : Nat :=
  let last := (p.groups.map (·.1)).foldl max 0
  let names := (p.groups.filterMap (·.2)).map nameWeight
  p.steps + 3 * stepWeight + groupWeight * (last + 1) + names.foldl (· + ·) 0

/-- The weight of the heaviest patterns that can be matched. -/
def maxWeight : Nat := 10 * Nat.pow 2 20

end CompileFlags.Pattern
