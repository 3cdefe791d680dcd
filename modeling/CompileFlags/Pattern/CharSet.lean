import CompileFlags.Text.Character

/-!
# Sets of characters

Sets of characters as lists of ranges of their numbers. The ranges of a set ascend, and between two
of them there is a number that is in neither, so equal sets have equal lists.

* `contains` is what a set means.
* `mem_insertRange` says that putting a range into a list adds its numbers and no others.
-/

namespace CompileFlags

/-- A set of characters, as ranges of their numbers with both ends included. -/
structure CharSet where
  ranges : List (Nat × Nat)
  deriving DecidableEq, Repr

namespace CharSet

/-- Whether a character is in a set. -/
def contains (s : CharSet) (c : Char) : Bool := Text.inRanges s.ranges c

/-- The set without characters. -/
def empty : CharSet := ⟨[]⟩

/-- Puts a range into a list of ranges. Ranges that overlap or touch become one. -/
def insertRange (low high : Nat) : List (Nat × Nat) → List (Nat × Nat)
  | [] => [(low, high)]
  | (first, last) :: rest =>
    if high + 1 < first then (low, high) :: (first, last) :: rest
    else if last + 1 < low then (first, last) :: insertRange low high rest
    else insertRange (min first low) (max last high) rest

theorem mem_insertRange {low high n : Nat} {ranges : List (Nat × Nat)} (h : low ≤ high)
    (hr : ∀ range ∈ ranges, range.1 ≤ range.2) :
    (∃ range ∈ insertRange low high ranges, range.1 ≤ n ∧ n ≤ range.2) ↔
      (low ≤ n ∧ n ≤ high) ∨ ∃ range ∈ ranges, range.1 ≤ n ∧ n ≤ range.2 := by
  induction ranges generalizing low high with
  | nil => simp [insertRange]
  | cons range rest ih =>
    obtain ⟨first, last⟩ := range
    have hfirst : first ≤ last := hr (first, last) (by simp)
    have hrest : ∀ range ∈ rest, range.1 ≤ range.2 := fun range hm => hr range (by simp [hm])
    simp only [insertRange]
    split
    · simp
    · split
      · have step := ih h hrest
        simp only [List.mem_cons, exists_eq_or_imp, step]
        exact or_left_comm
      · rw [ih (by omega) hrest]
        simp only [List.mem_cons, exists_eq_or_imp, ← or_assoc]
        refine or_congr_left ?_
        omega

/-- The characters of a set and those from `low` to `high`. -/
def insert (s : CharSet) (low high : Char) : CharSet := ⟨insertRange low.toNat high.toNat s.ranges⟩

/-- The characters from `low` to `high`. -/
def range (low high : Char) : CharSet := empty.insert low high

/-- The set of a single character. -/
def single (c : Char) : CharSet := range c c

/-- The characters in any of the ranges. -/
def ofRanges (ranges : List (Char × Char)) : CharSet :=
  ranges.foldr (fun r s => s.insert r.1 r.2) empty

/-- Puts ranges into a list of ranges. -/
def insertAll (new ranges : List (Nat × Nat)) : List (Nat × Nat) :=
  new.foldr (fun r rs => insertRange r.1 r.2 rs) ranges

/-- The characters in either set. -/
def union (a b : CharSet) : CharSet := ⟨insertAll a.ranges b.ranges⟩

/-- The greatest number of a character. -/
def maxNumber : Nat := 0x10FFFF

/-- The ranges of numbers from `start` on that a list of ranges leaves out. -/
def gaps (start : Nat) : List (Nat × Nat) → List (Nat × Nat)
  | [] => if start ≤ maxNumber then [(start, maxNumber)] else []
  | (first, last) :: rest =>
    if start < first then (start, first - 1) :: gaps (last + 1) rest else gaps (last + 1) rest

/-- The characters that are not in a set. -/
def complement (s : CharSet) : CharSet := ⟨gaps 0 s.ranges⟩

/-- The other case of the ASCII letters in a range: of the small ones if there are any, else of the
capital ones. -/
def otherCase (range : Nat × Nat) : Option (Nat × Nat) :=
  if range.1 ≤ 'z'.toNat ∧ 'a'.toNat ≤ range.2 then
    some (max range.1 'a'.toNat - 32, min range.2 'z'.toNat - 32)
  else if range.1 ≤ 'Z'.toNat ∧ 'A'.toNat ≤ range.2 then
    some (max range.1 'A'.toNat + 32, min range.2 'Z'.toNat + 32)
  else none

/-- The characters of a set and the other case of the letters in each of its ranges. -/
def folded (s : CharSet) : CharSet := ⟨insertAll (s.ranges.filterMap otherCase) s.ranges⟩

theorem contains_single {c d : Char} : (single c).contains d = true ↔ d = c := by
  simp only [single, range, insert, empty, insertRange, contains, Text.inRanges_iff,
    List.mem_singleton, exists_eq_left]
  constructor
  · intro h
    exact Char.toNat_inj.1 (by omega)
  · rintro rfl
    simp

end CharSet

end CompileFlags
