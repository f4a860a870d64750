import Multitouch.Network.Basic

/-!
# What links lead to

A node can do whatever the nodes can do that it reaches by links alone.  The closure gives every
node the transitions of all of these, and tells from which of them the final node is reached, so
that links need not be followed any more.

It is found by one depth-first search along the links.  When the search leaves a node, the node's
table goes to the node it was taken up from.  A link to a node that the search has not left yet
cannot be settled: the node that has the link *owes* the other's table, and is put on the other's
list of *waiting* nodes, to be served when that is left.  A node that takes over a table which is
itself incomplete owes what that table lacks.
-/

namespace Multitouch

/-- How far the search has come with a node. -/
inductive Mark where
  | fresh
  | active
  | done
  deriving DecidableEq, Repr

/-- What the search knows of a node. -/
structure Cell where
  links : List Nat
  table : Table
  /-- The final node is reached by the links settled so far. -/
  final : Bool
  mark : Mark := .fresh
  /-- The nodes to be served when the search leaves this one. -/
  waiting : List Nat := []
  /-- The active nodes whose tables this one lacks. -/
  owed : List Nat := []

/-- The search for the closure. -/
structure Closure where
  cells : Array Cell
  /-- The path from the root of the search to where it is, latest first, each node with the links
  it has still to follow. -/
  path : List (Nat × List Nat) := []
  /-- The nodes to start from when the path is empty. -/
  roots : List Nat

namespace Closure

/-- A node's cell; a number that is no node's counts as left, with nothing to give. -/
def cell (c : Closure) (n : Nat) : Cell :=
  c.cells[n]?.getD ⟨[], .empty, false, .done, [], []⟩

/-- Changes a node's cell. -/
def modify (c : Closure) (n : Nat) (f : Cell → Cell) : Closure :=
  { c with cells := c.cells.modify n f }

/-- Takes a node up: the search goes on from there. -/
def visit (c : Closure) (n : Nat) : Closure :=
  let path := (n, (c.cell n).links) :: c.path
  { c.modify n fun cell => { cell with mark := .active } with path }

/-- Notes that `n` owes the table of `m`, unless it is noted already. -/
def await (c : Closure) (n m : Nat) : Closure :=
  if m ∈ (c.cell n).owed then c
  else (c.modify n fun cell => { cell with owed := cell.owed ++ [m] }).modify m fun cell =>
    { cell with waiting := cell.waiting ++ [n] }

/-- Gives `n` what `m` has, and lets it owe what `m` owes. -/
def inherit (c : Closure) (n m : Nat) : Closure :=
  let given := c.cell m
  let c := c.modify n fun cell =>
    { cell with table := cell.table.union given.table, final := cell.final || given.final }
  (given.owed.filter (· != n)).foldl (fun c p => c.await n p) c

/-- Serves a node that waits for `m`. -/
def serve (c : Closure) (m n : Nat) : Closure :=
  let c := c.modify n fun cell => { cell with owed := cell.owed.erase m }
  if n = m then c else c.inherit n m

/-- Leaves a node and serves the nodes that wait for it. -/
def leave (c : Closure) (n : Nat) : Closure :=
  let waiting := (c.cell n).waiting
  let c := c.modify n fun cell =>
    { cell with mark := .done, waiting := [], owed := cell.owed.erase n }
  waiting.foldl (fun c w => c.serve n w) c

/-- One step of the search: it follows a link, leaves a node, or takes up the next root. -/
def step (c : Closure) : Closure :=
  match c.path with
  | (n, m :: links) :: path =>
    let c := { c with path := (n, links) :: path }
    if m = n then c
    else match (c.cell m).mark with
      | .fresh => c.visit m
      | .done => c.inherit n m
      | .active => c.await n m
  | [(n, [])] => { c with path := [] }.leave n
  | (n, []) :: (m, links) :: path =>
    ({ c with path := (m, links) :: path }.leave n).inherit m n
  | [] =>
    match c.roots with
    | [] => c
    | n :: roots =>
      let c := { c with roots }
      if (c.cell n).mark = .fresh then c.visit n else c

/-- The search before its first step. -/
def start (N : Network) (initial final : Nat) : Closure where
  cells := N.nodes.mapIdx fun n node =>
    { links := node.links, table := node.table, final := n == final }
  roots := initial :: List.range N.size

/-- How many steps the search takes: one for each root, one for each link, and one to leave each
node. -/
def work (N : Network) : Nat :=
  N.nodes.foldl (fun n node => n + node.links.length) (2 * N.size + 1)

/-- The closure of a network. -/
def run (N : Network) (initial final : Nat) : Closure :=
  Nat.repeat step (work N) (start N initial final)

end Closure

end Multitouch
