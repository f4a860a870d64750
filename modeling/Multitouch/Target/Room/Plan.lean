import Multitouch.Target.Room.Build

/-!
# Plans of machines

A plan says what is built of a machine, and in which order: whether states are found again depends
on their numbers.  The parts of a pattern become pieces of a plan.
-/

namespace Multitouch.Target

/-- What is built of a machine. -/
inductive Plan where
  | states (b : Build)
  /-- What passes one of the runs. -/
  | runs (rs : List Utf8.Run)
  | both (first second : Plan)
  | times (n : Nat) (part : Plan)

namespace Plan

instance : Append Plan := ⟨both⟩

/-- Builds what is planned, or as much of it as there is room for. -/
def build (d : Direction) : Plan → Build → Build
  | states more, b => b + more
  | runs rs, b => d.buildRuns rs b
  | both first second, b => second.build d (first.build d b)
  | times n part, b => b.iterate (part.build d) n

end Plan

/-- The plan for a part of a pattern. -/
structure Piece where
  plan : Plan
  /-- The last state branches, so that it takes another branch to go on from there. -/
  branching : Bool

namespace Piece

/-- States of which the last does not branch. -/
def states (states edges branches : Nat) : Piece :=
  ⟨.states (.of states edges branches), false⟩

/-- The plan with what it takes to go on. -/
def goOn (p : Piece) : Plan :=
  if p.branching then p.plan ++ .states (.of 0 0 1) else p.plan

/-- One piece after the other. -/
def andThen (p q : Piece) : Piece :=
  ⟨p.goOn ++ q.plan, q.branching⟩

/-- A piece between two states that mark where it begins and where it ends. -/
def marked (p : Piece) : Piece :=
  states 1 0 0 |>.andThen p |>.andThen (states 1 0 0)

/-- The pieces one after the other. -/
def inOrder : List Piece → Piece
  | [] => states 1 0 0
  | p :: ps => ps.foldl andThen p

/-- Any of the pieces: a state branches to them, and all go on to another.  These two are built
after the first two pieces. -/
def anyOf : List Piece → Piece
  | [] => states 2 0 0
  | [p] => p
  | p :: q :: ps =>
    ⟨ps.foldl (· ++ ·.goOn) (p.goOn ++ q.goOn ++ .states (.of 2 0 (ps.length + 2))), false⟩

/-- A piece so many times. -/
def exactly (p : Piece) : Nat → Piece
  | 0 => states 1 0 0
  | n + 1 => ⟨.times n p.goOn ++ p.plan, p.branching⟩

/-- A piece at least so many times: a state after it branches back to it.  If the piece may be left
out, that state comes first; but if it may also be passed without passing a byte, three states
come after it, one to go back, one to leave it out, and one to go on. -/
def atLeast (p : Piece) (solid : Bool) (least : Nat) : Piece :=
  if 0 < least then ⟨.times least p.goOn ++ .states (.of 1 0 1), true⟩
  else if solid then ⟨.states (.of 1 0 1) ++ p.goOn, true⟩
  else ⟨p.goOn ++ .states (.of 3 0 4), false⟩

/-- A piece at least and at most so many times.  A state before a piece that may be left out
branches to it and to where all go on. -/
def between (p : Piece) (least most : Nat) : Piece :=
  if least = most then p.exactly least
  else
    let optional := .states (.of 1 0 2) ++ p.goOn
    if most = 1 then ⟨optional ++ .states (.of 1 0 0), false⟩
    else
      ⟨(p.exactly least).goOn ++ .states (.of 1 0 0) ++ .times (most - least) optional, false⟩

end Piece

end Multitouch.Target
