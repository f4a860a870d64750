import Multitouch.Target.Escape

/-!
# Sets in brackets

A set in brackets lists characters, ranges, classes and further sets in brackets; the lists can
be joined by operators, which are applied from left to right.  Case is ignored before a set is
negated and before an operator is applied.

With every set comes its height, the number of levels of parts it is made of.
-/

namespace Multitouch.Target

/-- An operator between lists within brackets. -/
inductive SetOperator where
  | inter
  | diff
  | symmDiff

/-- What an operator makes of two sets. -/
def SetOperator.apply : SetOperator → Charset → Charset → Charset
  | inter => .inter
  | diff => .diff
  | symmDiff => .symmDiff

/-- Brackets that are still open. -/
structure Bracket where
  negated : Bool
  /-- The set before the last operator, with its height, and that operator. -/
  left : Option (Charset × Nat × SetOperator) := none
  /-- The characters listed since. -/
  listed : Charset := .empty
  /-- How many entries have been listed. -/
  count : Nat := 0
  /-- The greatest height of an entry. -/
  height : Nat := 0

namespace Bracket

/-- Lists a set of the given height. -/
def add (b : Bracket) (s : Charset) (height : Nat) : Bracket :=
  { b with
    listed := b.listed.union s
    count := b.count + 1
    height := max b.height height }

/-- What is listed, after the last operator has been applied. -/
def value (f : Flags) (b : Bracket) : Charset × Nat :=
  let height := if b.count ≤ 1 then b.height else b.height + 1
  match b.left with
  | none => (b.listed, height)
  | some (s, leftHeight, op) =>
    (op.apply (f.fold s) (f.fold b.listed), max leftHeight height + 1)

/-- Goes on after an operator. -/
def operator (f : Flags) (b : Bracket) (op : SetOperator) : Bracket :=
  let (s, height) := b.value f
  { negated := b.negated, left := some (s, height, op) }

/-- The set that the brackets stand for. -/
def close (f : Flags) (b : Bracket) : Option (Charset × Nat) :=
  let (s, height) := b.value f
  (f.signed b.negated (f.fold s)).map (·, height + 1)

/-- A character that is listed by itself or ends a range. -/
def literal (f : Flags) (c : Char) : Option Nat :=
  if f.unicode || c.toNat < 0x80 then some c.toNat else none

/-- Reads hyphens at the start of brackets, which stand for themselves. -/
def hyphens (f : Flags) (b : Bracket) (fuel : Nat) (text : List Char) : Bracket × List Char :=
  match fuel, f.next text with
  | fuel + 1, '-' :: rest => hyphens f (b.add (.single '-') 0) fuel rest
  | _, text => (b, text)

/-- Reads the start of brackets after the opening one: a circumflex negates, and a closing
bracket that comes first stands for itself. -/
def start (f : Flags) (text : List Char) : Bracket × List Char :=
  let (negated, text) := match f.next text with
    | '^' :: rest => (true, rest)
    | text => (false, text)
  let (b, text) := hyphens f { negated } text.length text
  match text with
  | ']' :: rest => if b.count = 0 then (b.add (.single ']') 0, rest) else (b, text)
  | _ => (b, text)

/-- Reads the name of a class from after its opening bracket on, with its sign. -/
def className? : List Char → Option (Charset × Bool × List Char)
  | ':' :: text =>
    let (negated, text) := match text with
      | '^' :: rest => (true, rest)
      | _ => (false, text)
    match text.dropWhile (· != ':') with
    | ':' :: ']' :: rest =>
      (namedClass? (String.ofList (text.takeWhile (· != ':')))).map (·, negated, rest)
    | _ => none
  | _ => none

/-- Reads a character or an escape within brackets. -/
def atom (f : Flags) : List Char → Option (Atom × List Char)
  | [] => none
  | '\\' :: rest => escape f rest
  | c :: rest => some (.literal c false, rest)

/-- Reads an entry that is not itself in brackets: a character, a class or a range. -/
def entry (f : Flags) (text : List Char) : Option (Charset × List Char) := do
  let (first, rest) ← atom f text
  let ranged := match f.next rest with
    | '-' :: more => if f.peek more = some ']' ∨ f.peek more = some '-' then none else some more
    | _ => none
  match first, ranged with
  | .literal c _, some more =>
    match ← atom f (f.next more) with
    | (.literal d _, rest) =>
      let a ← literal f c
      let b ← literal f d
      if a ≤ b then return (.range a b, rest) else none
    | _ => none
  | .literal c _, none => return (.range (← literal f c) (← literal f c), rest)
  | .set s, none => return (s, rest)
  | _, _ => none

/-- Reads what is listed in the innermost brackets `b`, with the brackets around. -/
def run (f : Flags) (outer : List Bracket) (b : Bracket) (fuel : Nat) (text : List Char) :
    Option (Charset × Nat × List Char) :=
  match fuel, f.next text with
  | 0, _ => none
  | _, [] => none
  | fuel + 1, '[' :: rest =>
    match className? rest with
    | some (s, negated, rest) => do run f outer (b.add (← f.signed negated (f.fold s)) 0) fuel rest
    | none =>
      let (inner, rest) := start f rest
      run f (b :: outer) inner fuel rest
  | fuel + 1, ']' :: rest => do
    let (s, height) ← b.close f
    match outer with
    | [] => return (s, height, rest)
    | b :: outer => run f outer (b.add s height) fuel rest
  | fuel + 1, '&' :: '&' :: rest => run f outer (b.operator f .inter) fuel rest
  | fuel + 1, '-' :: '-' :: rest => run f outer (b.operator f .diff) fuel rest
  | fuel + 1, '~' :: '~' :: rest => run f outer (b.operator f .symmDiff) fuel rest
  | fuel + 1, text => do
    let (s, rest) ← entry f text
    run f outer (b.add s 0) fuel rest

end Bracket

/-- Reads a set in brackets from after the opening one on. -/
def bracketed (f : Flags) (text : List Char) : Option (Charset × Nat × List Char) :=
  let (b, rest) := Bracket.start f text
  Bracket.run f [] b (text.length + 1) rest

end Multitouch.Target
