import Multitouch.Automaton.Basic
import Multitouch.Automaton.Numbering
import Multitouch.Grammar.Reader
import Multitouch.Network.Unroll

/-!
# From a pattern to an automaton

A pattern is read, unrolled into a network, and the network's closure is taken.  The automaton
consists of the nodes that can be reached, renumbered; each text that occurs as a target is given
sense once.
-/

namespace Multitouch.Automaton

/-- The target texts of the nodes in `order`, each once, in the order they are first met. -/
def sources (cells : Array Cell) (order : List Nat) : List String :=
  (order.flatMap fun n =>
    match cells[n]? with
    | some cell => cell.table.edges.map (·.target)
    | none => []).eraseDups

/-- The guard for a text. -/
def guardFor (L : Dialect) (guards : List Guard) (source : String) : Guard :=
  match guards.find? (·.source == source) with
  | some g => g
  | none => .ofSource L source

/-- The state that a node becomes. -/
def stateOf (L : Dialect) (guards : List Guard) (v : Numbering) (tag : Tag) (cell : Cell) :
    State where
  tag := tag
  rows := cell.table.rows.map fun row =>
    row.entries.map fun way => (guardFor L guards way.1, way.2.map v.get)
  final := cell.final

/-- Takes the closure of a network and keeps what is reached from the initial node. -/
def ofNetwork (L : Dialect) (N : Network) (initial final : Nat) : Automaton :=
  let closure := Closure.run N initial final
  let v := Numbering.run closure.cells initial
  let guards := (sources closure.cells v.order.toList).map (.ofSource L)
  { states := v.order.map fun n => stateOf L guards v (N.tag n) (closure.cell n)
    groups := N.groups
    guards }

/-- The automaton of a pattern that has been read. -/
def ofExpressions (L : Dialect) (es : List Expression) : Automaton :=
  ofNetwork L (.ofExpressions es) Network.initial Network.final

/-- Reads a pattern and builds its automaton. -/
def ofPattern (L : Dialect) (pattern : String) : Except PatternError Automaton :=
  (Expression.read pattern).map (ofExpressions L)

end Multitouch.Automaton
