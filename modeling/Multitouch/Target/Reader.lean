import Multitouch.Target.Brackets
import Multitouch.Target.Room

/-!
# Reading a target pattern

The reader keeps the parts read so far of the innermost parentheses in a `Draft`, and those of
the parentheses around in a stack.  Flags that are switched hold up to the end of the parentheses
they are switched in.  With every part comes its height, the number of levels it is made of:
patterns of too many levels are refused, and so are those whose matcher would take too much room.
-/

namespace Multitouch.Target

/-- A tree with its height. -/
structure Part where
  tree : Tree
  height : Nat

/-- What stands between two bars. -/
inductive Item where
  | part (p : Part)
  /-- Flags were switched here. -/
  | switch

/-- A part for a sequence of items, which begins with the last. -/
def Part.ofItems : List Item → Part
  | [] => ⟨.empty, 0⟩
  | [.part p] => p
  | [.switch] => ⟨.empty, 0⟩
  | items =>
    let parts := items.filterMap fun
      | .part p => some p
      | .switch => none
    ⟨.inOrder (parts.reverse.map (·.tree)), (parts.map (·.height)).foldl max 0 + 1⟩

/-- A part for alternatives. -/
def Part.ofBranches (branches : List Part) (last : Part) : Part :=
  match branches with
  | [] => last
  | _ => ⟨.anyOf ((last :: branches).reverse.map (·.tree)),
      (branches.map (·.height)).foldl max last.height + 1⟩

/-- Parentheses around the innermost ones. -/
structure Parentheses where
  flags : Flags
  branches : List Part
  items : List Item
  /-- The parentheses keep the place of what they hold. -/
  captures : Bool

/-- How far the reading of a target pattern has come. -/
structure Draft where
  flags : Flags := {}
  /-- The complete alternatives of the innermost parentheses, the latest first. -/
  branches : List Part := []
  /-- The items since the last bar, the latest first. -/
  items : List Item := []
  outer : List Parentheses := []
  /-- The names given to parentheses. -/
  names : List (List Char) := []

namespace Draft

/-- Adds a part. -/
def add (d : Draft) (tree : Tree) (height : Nat) : Draft :=
  { d with items := .part ⟨tree, height⟩ :: d.items }

/-- What the innermost parentheses hold. -/
def part (d : Draft) : Part :=
  .ofBranches d.branches (.ofItems d.items)

/-- Opens parentheses, in which the given flags hold. -/
def openParentheses (d : Draft) (flags : Flags) (captures : Bool) : Draft :=
  { d with
    flags
    branches := []
    items := []
    outer := ⟨d.flags, d.branches, d.items, captures⟩ :: d.outer }

/-- Closes the innermost parentheses. -/
def closeParentheses (d : Draft) : Option Draft :=
  match d.outer with
  | [] => none
  | p :: outer =>
    let inner := d.part
    let tree := if p.captures then .capture inner.tree else inner.tree
    some { d with
      flags := p.flags
      branches := p.branches
      items := .part ⟨tree, inner.height + 1⟩ :: p.items
      outer }

/-- Repeats the last item, which must be a part.  A question mark after the repetition says that it
should take as little as it can. -/
def repeatLast (d : Draft) (least : Nat) (most : Option Nat) (rest : List Char) :
    Option (Draft × List Char) :=
  match d.items with
  | .part p :: items =>
    let (isLazy, rest) := match rest with
      | '?' :: rest => (true, rest)
      | rest => (false, rest)
    let tree := .repetition p.tree least most (isLazy == d.flags.swapGreed)
    some ({ d with items := .part ⟨tree, p.height + 1⟩ :: items }, rest)
  | _ => none

/-- Adds a character. -/
def literal (d : Draft) (c : Char) (byte : Bool) : Option Draft :=
  if !d.flags.unicode && byte && 0x80 ≤ c.toNat then none
  else some (d.add (.ofSet (d.flags.fold (.single c)) d.flags.unicode) 0)

/-- Adds what an escape stands for. -/
def atom (d : Draft) : Atom → Option Draft
  | .literal c byte => d.literal c byte
  | .set s => some (d.add (.ofSet s d.flags.unicode) 0)
  | .place p => some (d.add (.place p) 0)

end Draft

/-- Numbers in a target pattern stay below this. -/
def countLimit : Nat := UInt32.size

/-- Reads digits, between which the flags may allow blanks; `digits` are those before, the latest
first. -/
def digitRun (f : Flags) (digits : List Char) : Nat → List Char → List Char × List Char
  | fuel + 1, c :: rest =>
    if c.isDigit then digitRun f (c :: digits) fuel (f.next rest) else (digits, c :: rest)
  | _, text => (digits, text)

/-- Reads a count, which may have blanks around it; there need not be one. -/
def count (f : Flags) (text : List Char) : Option (Option Nat × List Char) :=
  let (digits, rest) :=
    digitRun f [] text.length (text.dropWhile Charset.blanks.contains)
  let rest := f.next (rest.dropWhile Charset.blanks.contains)
  if digits = [] then some (none, rest)
  else
    let n := Nat.ofDigitChars 10 digits.reverse 0
    if n < countLimit then some (some n, rest) else none

/-- Reads counts from after an opening brace on. -/
def counts (f : Flags) (text : List Char) : Option (Nat × Option Nat × List Char) := do
  let (least, rest) ← count f (f.next text)
  let least ← least
  match rest with
  | '}' :: rest => return (least, some least, rest)
  | ',' :: rest =>
    match f.next rest with
    | '}' :: rest => return (least, none, rest)
    | rest =>
      match ← count f rest with
      | (some most, '}' :: rest) => if least ≤ most then return (least, some most, rest) else none
      | _ => none
  | _ => none

/-- Reads flags up to a colon or a closing parenthesis, and answers that too.  `seen` holds the
letters and signs passed, the latest first; none may come twice, and a sign must be followed by
a letter. -/
def switches (f : Flags) (seen : List Char) (on : Bool) :
    List Char → Option (Flags × Bool × Char × List Char)
  | [] => none
  | c :: rest =>
    if c = ':' ∨ c = ')' then
      if seen.head? = some '-' then none else some (f, seen ≠ [], c, rest)
    else if c ∈ seen then none
    else if c = '-' then switches f (c :: seen) false rest
    else do switches (← f.set c on) (c :: seen) on rest

/-- A character that a name of parentheses may hold, the first being held to more. -/
def isNameChar (first : Bool) (c : Char) : Bool :=
  c == '_' || Charset.letters.contains c ||
    (!first && (c == '.' || c == '[' || c == ']' || Charset.numbers.contains c))

/-- A name of parentheses. -/
def isName : List Char → Bool
  | [] => false
  | c :: rest => isNameChar true c && rest.all (isNameChar false)

namespace Draft

/-- Opens parentheses with the name that the text begins with. -/
def openNamed (d : Draft) (text : List Char) : Option (Draft × List Char) :=
  let name := text.takeWhile (· != '>')
  match text.dropWhile (· != '>') with
  | '>' :: rest =>
    if isName name ∧ name ∉ d.names then
      some ({ d with names := name :: d.names }.openParentheses d.flags true, rest)
    else none
  | _ => none

/-- Reads what may follow an opening parenthesis: a name, flags, or nothing special. -/
def parenthesis (d : Draft) (text : List Char) : Option (Draft × List Char) :=
  match d.flags.next text with
  | '?' :: 'P' :: '<' :: rest => d.openNamed rest
  | '?' :: '<' :: rest => d.openNamed rest
  | '?' :: rest => do
    let (flags, switched, closing, rest) ← switches d.flags [] true rest
    if closing = ':' then return (d.openParentheses flags false, rest)
    else if switched then return ({ d with flags, items := .switch :: d.items }, rest)
    else none
  | rest => some (d.openParentheses d.flags true, rest)

/-- Reads on from the character `c`, which is followed by `rest`. -/
def step (d : Draft) (c : Char) (rest : List Char) : Option (Draft × List Char) :=
  match c with
  | '(' => d.parenthesis rest
  | ')' => d.closeParentheses.map (·, rest)
  | '|' => some ({ d with branches := .ofItems d.items :: d.branches, items := [] }, rest)
  | '[' => do
    let (s, height, rest) ← bracketed d.flags rest
    return (d.add (.ofSet s d.flags.unicode) height, rest)
  | '?' => d.repeatLast 0 (some 1) rest
  | '*' => d.repeatLast 0 none rest
  | '+' => d.repeatLast 1 none rest
  | '{' => do
    let (least, most, rest) ← counts d.flags rest
    d.repeatLast least most (d.flags.next rest)
  | '\\' => do
    let (a, rest) ← escape d.flags rest
    return (← d.atom a, rest)
  | '.' => do return (d.add (.ofSet (← d.flags.dot) d.flags.unicode) 0, rest)
  | '^' => some (d.add (.place d.flags.startPlace) 0, rest)
  | '$' => some (d.add (.place d.flags.endPlace) 0, rest)
  | c => (d.literal c false).map (·, rest)

/-- Reads all that is left. -/
def run (d : Draft) : Nat → List Char → Option Draft
  | 0, _ => none
  | fuel + 1, text =>
    match d.flags.next text with
    | [] => some d
    | c :: rest => do
      let (d, rest) ← d.step c rest
      d.run fuel rest

end Draft

/-- The parts of a pattern are nested at most this deep. -/
def maxHeight : Nat := 250

/-- Reads a target pattern. -/
def Tree.read (text : List Char) : Option Tree := do
  let d ← ({} : Draft).run (text.length + 1) text
  let p := d.part
  if d.outer.isEmpty ∧ p.height ≤ maxHeight then p.tree.affordable? else none

end Multitouch.Target
