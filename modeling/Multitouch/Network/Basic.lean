import Multitouch.Tag
import Multitouch.Network.Table

/-!
# Networks

A network is a nondeterministic automaton with spontaneous links: nodes, numbered from `0` in the
order they are added, each with a tag, a table of transitions and a list of links that may be
followed without reading anything.  It is built by adding nodes, linking and connecting them, and
opening groups, which hands out the numbers of unnamed groups in turn.
-/

namespace Multitouch

/-- A node of a network. -/
structure Node where
  tag : Tag
  table : Table := .empty
  /-- The nodes that may be entered without reading anything, in the order they were linked. -/
  links : List Nat := []

/-- Nodes, and how many group numbers have been handed out. -/
structure Network where
  nodes : Array Node := #[]
  groups : Nat := 0

namespace Network

/-- The number the next node gets. -/
def size (N : Network) : Nat :=
  N.nodes.size

/-- The tag of a node. -/
def tag (N : Network) (n : Nat) : Tag :=
  match N.nodes[n]? with
  | some node => node.tag
  | none => .finish

/-- Adds a node, numbered `N.size`. -/
def add (N : Network) (tag : Tag) : Network :=
  { N with nodes := N.nodes.push { tag } }

/-- Links `a` to `b`, unless it is so already. -/
def link (N : Network) (a b : Nat) : Network :=
  { N with nodes := N.nodes.modify a fun node =>
      if b ∈ node.links then node else { node with links := node.links ++ [b] } }

/-- Lets `a` be left for `b` with a key and a target. -/
def connect (N : Network) (a : Nat) (key : Key) (target : String) (b : Nat) : Network :=
  { N with nodes := N.nodes.modify a fun node =>
      { node with table := node.table.union (.single ⟨key, target, [b]⟩) } }

/-- Opens a group: a name is its own tag, and a group without one gets the next number. -/
def openGroup (N : Network) : Option String → Tag × Network
  | some name => (.named name, N)
  | none => (.numbered N.groups, { N with groups := N.groups + 1 })

end Network

end Multitouch
