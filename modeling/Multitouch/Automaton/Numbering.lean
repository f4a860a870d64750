import Multitouch.Network.Closure

/-!
# Numbering the nodes that are reached

The nodes that edges lead to from the initial one are numbered in the order of a breadth-first
search: in the order they are found, where a node is searched edge by edge after all nodes with
smaller numbers.  The list of nodes found is also the queue of the search.
-/

namespace Multitouch

/-- The nodes found so far. -/
structure Numbering where
  /-- The nodes in the order they were found. -/
  order : Array Nat
  /-- The place of a node in that order, if it has been found. -/
  number : Array (Option Nat)

namespace Numbering

/-- Gives a node the next number, unless it has one. -/
def find (v : Numbering) (n : Nat) : Numbering :=
  let i := v.order.size
  match v.number[n]? with
  | some none => ⟨v.order.push n, v.number.setIfInBounds n (some i)⟩
  | _ => v

/-- Finds the destinations of the `i`th node found. -/
def search (cells : Array Cell) (v : Numbering) (i : Nat) : Numbering :=
  match v.order[i]? with
  | some n =>
    match cells[n]? with
    | some cell => (cell.table.edges.flatMap (·.dests)).foldl find v
    | none => v
  | none => v

/-- Numbers what is reached from `initial`. -/
def run (cells : Array Cell) (initial : Nat) : Numbering :=
  (List.range cells.size).foldl (search cells)
    (find ⟨#[], Array.replicate cells.size none⟩ initial)

/-- A node's number; every node that is reached has one. -/
def get (v : Numbering) (n : Nat) : Nat :=
  match v.number[n]? with
  | some (some i) => i
  | _ => 0

end Numbering

end Multitouch
