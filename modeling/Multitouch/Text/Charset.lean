/-!
# Sets of characters

A set of characters is kept as ascending ranges of their numbers that neither overlap nor touch.
-/

namespace Multitouch

/-- A set of characters: the first and last number of each range, in ascending order. -/
structure Charset where
  ranges : List (Nat × Nat)
  deriving DecidableEq, Repr

namespace Charset

/-- The greatest number of a character. -/
def last : Nat := 0x10FFFF

/-- No character. -/
def empty : Charset := ⟨[]⟩

/-- The characters from `a` to `b`. -/
def range (a b : Nat) : Charset := ⟨[(a, b)]⟩

/-- A single character. -/
def single (c : Char) : Charset := range c.toNat c.toNat

/-- All characters. -/
def all : Charset := range 0 last

/-- A number lies in one of the ranges. -/
def covered (n : Nat) : List (Nat × Nat) → Bool
  | [] => false
  | (a, b) :: rest => if n < a then false else n ≤ b || covered n rest

/-- The character with the number `n` is in the set. -/
def covers (s : Charset) (n : Nat) : Bool :=
  covered n s.ranges

/-- The character is in the set. -/
def contains (s : Charset) (c : Char) : Bool :=
  s.covers c.toNat

/-- Joins ranges that overlap or touch, the ranges after `(a, b)` coming in ascending order. -/
def coalesce (a b : Nat) : List (Nat × Nat) → List (Nat × Nat)
  | [] => [(a, b)]
  | (c, d) :: rest =>
    if c ≤ b + 1 then coalesce a (max b d) rest else (a, b) :: coalesce c d rest

/-- The characters in any of the ranges, which may come in any order. -/
def ofRanges (ranges : List (Nat × Nat)) : Charset :=
  match ranges.mergeSort fun r s => decide (r.1 ≤ s.1) with
  | [] => empty
  | (a, b) :: rest => ⟨coalesce a b rest⟩

/-- The characters of both sets. -/
def union (s t : Charset) : Charset :=
  ofRanges (s.ranges ++ t.ranges)

/-- The numbers from `n` on that lie in none of the ranges. -/
def missing (n : Nat) : List (Nat × Nat) → List (Nat × Nat)
  | [] => if n ≤ last then [(n, last)] else []
  | (a, b) :: rest => if n < a then (n, a - 1) :: missing (b + 1) rest else missing (b + 1) rest

/-- The characters in both sets. -/
def inter (s t : Charset) : Charset :=
  ⟨missing 0 (ofRanges (missing 0 s.ranges ++ missing 0 t.ranges)).ranges⟩

/-- The characters among the numbers of a range.  Surrogates, from D800 to DFFF, are none. -/
def characters (range : Nat × Nat) : Option (Nat × Nat) :=
  let a := if 0xD800 ≤ range.1 ∧ range.1 ≤ 0xDFFF then 0xE000 else range.1
  let b := if 0xD800 ≤ range.2 ∧ range.2 ≤ 0xDFFF then 0xD7FF else range.2
  if a ≤ b then some (a, b) else none

/-- The characters of `s` that are not in `t`. -/
def diff (s t : Charset) : Charset :=
  ⟨(s.inter ⟨missing 0 t.ranges⟩).ranges.filterMap characters⟩

/-- The number of the character after `n`. -/
def following (n : Nat) : Nat :=
  if n = 0xD7FF then 0xE000 else n + 1

/-- The number of the character before `n`. -/
def preceding (n : Nat) : Nat :=
  if n = 0xE000 then 0xD7FF else n - 1

/-- What lies between ranges from the character `n` on.  Where nothing but surrogates lies between
two ranges, the characters on either side of the surrogates are taken. -/
def gaps (n : Nat) : List (Nat × Nat) → List (Nat × Nat)
  | [] => if n ≤ last then [(n, last)] else []
  | (a, b) :: rest =>
    if a = 0 then gaps (following b) rest
    else (min n (preceding a), max n (preceding a)) :: gaps (following b) rest

/-- The characters not in the set, as far as `gaps` tells. -/
def compl (s : Charset) : Charset :=
  ⟨gaps 0 s.ranges⟩

/-- The characters in exactly one of the sets. -/
def symmDiff (s t : Charset) : Charset :=
  (s.union t).diff (s.inter t)

/-- No character beyond the first 128 is in the set. -/
def ascii (s : Charset) : Bool :=
  s.ranges.all (·.2 < 0x80)

end Charset

end Multitouch
