import Multitouch.Target.Tree

/-!
# Programs for target patterns

A pattern is laid out as a program of instructions, each of which names those that come after it.
A part is laid out before what stands to the left of it in the pattern, so that the instruction
to go on with is known; only a loop has to be told afterwards where it turns.
-/

namespace Multitouch.Target

/-- An instruction for a matcher. -/
inductive Instruction where
  /-- Passes one character of the set. -/
  | set (s : Charset) (next : Nat)
  /-- Goes on at such a place only. -/
  | place (p : Place) (next : Nat)
  /-- Goes on in either way. -/
  | fork (a b : Nat)
  /-- The pattern has been found. -/
  | found
  deriving Inhabited

/-- A program in the making, and where it starts. -/
structure Layout where
  start : Nat
  code : Array Instruction

namespace Layout

/-- Puts an instruction in front, which is told where the rest starts. -/
def before (l : Layout) (f : Nat → Instruction) : Layout :=
  ⟨l.code.size, l.code.push (f l.start)⟩

/-- Puts a fork in front that leads to `other` too. -/
def orElse (l : Layout) (other : Nat) : Layout :=
  l.before (.fork · other)

mutual

/-- Lays a tree out in front. -/
def lay (t : Tree) (l : Layout) : Layout :=
  match t with
  | .empty => l
  | .text cs => cs.foldr (fun c l => l.before (.set (.single c))) l
  | .set s _ => l.before (.set s)
  | .place p => l.before (.place p)
  | .sequence members => layAll members l.start l.code
  | .choice [] => l.before (.set .empty)
  | .choice (t :: ts) =>
    let next := l.start
    layChoice ts next (lay t l)
  | .repeated body least (some most) _ =>
    let rest := Nat.repeat (fun l =>
      let next := l.start
      (lay body l).orElse next) (most - least) l
    Nat.repeat (lay body) least rest
  | .repeated body least none _ =>
    let next := l.start
    let loop := l.code.size
    -- the fork leads to itself until the body is laid out
    let laid := lay body ⟨loop, l.code.push (.fork loop next)⟩
    let start := laid.start
    Nat.repeat (lay body) least ⟨loop, laid.code.setIfInBounds loop (.fork start next)⟩
  | .capture body => lay body l

/-- Lays trees out in front of what starts at `start`, the last of them first. -/
def layAll (ts : List Tree) (start : Nat) (code : Array Instruction) : Layout :=
  match ts with
  | [] => ⟨start, code⟩
  | t :: ts => lay t (layAll ts start code)

/-- Lays trees out that all go on at `next`, each as another way to what is laid out. -/
def layChoice (ts : List Tree) (next : Nat) (l : Layout) : Layout :=
  match ts with
  | [] => l
  | t :: ts =>
    let other := l.start
    layChoice ts next ((lay t ⟨next, l.code⟩).orElse other)

end

end Layout

/-- A program with its start. -/
def Tree.program (t : Tree) : Layout :=
  Layout.lay t ⟨0, #[.found]⟩

end Multitouch.Target
