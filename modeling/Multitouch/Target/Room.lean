import Multitouch.Target.Room.Listing
import Multitouch.Target.Room.Plan

/-!
# The room that a target pattern takes

A pattern can be searched for by a machine that reads forwards, and by one that reads backwards.
A pattern is refused when one of the two would take too much room, every repetition being unrolled,
unless it lists texts that are looked for without a machine.
-/

namespace Multitouch.Target.Tree

mutual

/-- The least number of characters, unless a set without characters takes part. -/
def leastLength? : Tree → Option Nat
  | empty => some 0
  | text cs => some cs.length
  | set s _ => if s = .empty then none else some 1
  | place _ => some 0
  | sequence members => (leastLengths? members).map List.sum
  | choice alternatives => (leastLengths? alternatives).bind List.min?
  | repeated body least _ _ => body.leastLength?.map (· * least)
  | capture body => body.leastLength?

/-- The least numbers of characters of several trees. -/
def leastLengths? : List Tree → Option (List Nat)
  | [] => some []
  | t :: ts => do return (← t.leastLength?) :: (← leastLengths? ts)

end

/-- The tree cannot be passed without passing a character, as far as `leastLength?` tells. -/
def solid (t : Tree) : Bool :=
  0 < t.leastLength?.getD 0

mutual

/-- Wherever the tree occurs it begins at the start of the target or, backwards, at its end. -/
def anchored (d : Direction) : Tree → Bool
  | place p =>
    match d with
    | .forwards => p = .textStart
    | .backwards => p = .textEnd
  | sequence members =>
    let members := d.order (allAnchored d members)
    -- a member counts if nothing read before it has room for a character
    members.any (·.1) && (members.takeWhile (!·.1)).all (·.2)
  | choice alternatives => (allAnchored d alternatives).all (·.1)
  | repeated body least _ _ => 0 < least && body.anchored d
  | capture body => body.anchored d
  | _ => false

/-- For each of the trees, whether it is anchored and whether it is weightless. -/
def allAnchored (d : Direction) : List Tree → List (Bool × Bool)
  | [] => []
  | t :: ts => (t.anchored d, t.weightless) :: allAnchored d ts

end

/-- The bytes of a text in the order in which they are read. -/
def word? (d : Direction) : Tree → Option (List Nat)
  | text cs => some (d.order (Utf8.ofText cs))
  | _ => none

mutual

/-- What is planned for a tree.  What is captured is marked in one direction only. -/
def piece (d : Direction) : Tree → Piece
  | empty => .states 1 0 0
  | text cs => .states (cs.map Char.utf8Size).sum 0 0
  | set s _ => if s.ascii then .states 2 s.ranges.length 0 else ⟨.runs s.runs, false⟩
  | place _ => .states 1 0 0
  | sequence members => .inOrder (d.order (pieces d members))
  | choice alternatives =>
    match alternatives.mapM (word? d) with
    | some words =>
      let length := (words.map List.length).foldl max 0
      ⟨.states (.of 1 0 0 + Words.build length words), false⟩
    | none => .anyOf (pieces d alternatives)
  | repeated body least none _ => (body.piece d).atLeast body.solid least
  | repeated body least (some most) _ => (body.piece d).between least most
  | capture body =>
    match d with
    | .forwards => (body.piece d).marked
    | .backwards => body.piece d

/-- What is planned for each of the trees. -/
def pieces (d : Direction) : List Tree → List Piece
  | [] => []
  | t :: ts => t.piece d :: pieces d ts

end

/-- The plan of a machine that finds the tree: unless the tree is anchored, the machine can pass
bytes before it; and after it stands a state that says that it has been found. -/
def plan (d : Direction) (t : Tree) : Plan :=
  let skip : Piece := if t.anchored d then .states 1 0 0 else .states 3 1 2
  (skip.andThen ((capture t).piece d)).goOn ++ .states (.of 1 0 0)

/-- There is room for a machine in either direction. -/
def fits (t : Tree) : Bool :=
  [Direction.forwards, .backwards].all fun d => ((t.plan d).build d .none).fits

/-- What is searched for: the tree, if there is room for it, or else a list of texts. -/
def affordable? (t : Tree) : Option Tree :=
  if t.fits then some t else t.listing?

end Multitouch.Target.Tree
