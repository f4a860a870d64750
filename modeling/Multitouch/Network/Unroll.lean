import Multitouch.Expression
import Multitouch.Network.Basic

/-!
# Unrolling an expression into a network

An expression is laid out between two nodes that exist already, its entry and its exit.
Repetitions are unrolled: as many copies in a row as are required, then either a loop or as many
further copies as are allowed, each with a link to the exit.  Alternatives share entry and exit.
For that reason nothing may ever lead back to an entry: a loop turns in a node of its own.
-/

namespace Multitouch.Network

/-- A place in a network that is being laid out: the node reached so far. -/
structure Draft where
  node : Nat
  network : Network

namespace Draft

/-- Adds a node and goes there with a transition. -/
def advance (a : Action) (tag : Tag) (d : Draft) : Draft :=
  ⟨d.network.size, (d.network.add tag).connect d.node a.key a.target d.network.size⟩

/-- Adds a node and goes there with a link. -/
def branch (tag : Tag) (d : Draft) : Draft :=
  ⟨d.network.size, (d.network.add tag).link d.node d.network.size⟩

/-- Links the place reached to `exit`. -/
def leave (exit : Nat) (d : Draft) : Draft :=
  { d with network := d.network.link d.node exit }

end Draft

/-- Lays out an action: the required copies, then a loop or the optional copies. -/
def layAction (entry exit : Nat) (a : Action) (N : Network) : Network :=
  let tag := N.tag exit
  let required := Nat.repeat (Draft.advance a tag) a.repetition.min ⟨entry, N⟩
  match a.repetition.max with
  | none =>
    let loop := (if a.repetition.min = 0 then required.branch tag else required).leave exit
    loop.network.connect loop.node a.key a.target loop.node
  | some most =>
    (Nat.repeat (fun d => (d.advance a tag).leave exit) (most - a.repetition.min)
      (required.leave exit)).network

/-- Repeats a pass, which leads from a place to a later one: as often as required, then in a
loop or up to the greatest number of times. -/
def layPasses (exit : Nat) (r : Repetition) (pass : Draft → Draft) (d : Draft) : Network :=
  let required := (Nat.repeat pass r.min d).leave exit
  match r.max with
  | none => (((pass required).leave exit).leave required.node).network
  | some most => (Nat.repeat (fun d => (pass d).leave exit) (most - r.min) required).network

mutual

/-- Lays out an expression between two nodes. -/
def lay (entry exit : Nat) : Expression → Network → Network
  | .action a => layAction entry exit a
  | .group name body r => fun N =>
    let opened := N.openGroup name
    layPasses exit r (layBody opened.1 body) (Draft.branch opened.1 ⟨entry, opened.2⟩)
  | .options alternatives => layOptions entry exit alternatives

/-- Lays out one pass over the body of a group: each member ends in a node of its own. -/
def layBody (tag : Tag) : List Expression → Draft → Draft
  | [] => id
  | e :: es => fun d =>
    layBody tag es ⟨d.network.size, lay d.node d.network.size e (d.network.add tag)⟩

/-- Lays out alternatives between the same two nodes. -/
def layOptions (entry exit : Nat) : List Expression → Network → Network
  | [] => id
  | e :: es => fun N => layOptions entry exit es (lay entry exit e N)

end

/-- The node a network starts in. -/
def initial : Nat := 0

/-- The node in which a network is complete. -/
def final : Nat := 1

/-- Two nodes, the first and the last. -/
def ends : Network :=
  (({} : Network).add .start).add .finish

/-- Lays out a whole pattern as the group `top`, which occurs once. -/
def ofExpressions (es : List Expression) : Network :=
  lay initial final (.group (some Tag.topName) es .once) ends

end Multitouch.Network
