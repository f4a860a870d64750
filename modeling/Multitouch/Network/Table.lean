import Multitouch.Keyed
import Multitouch.Touch

/-!
# Transition tables

An edge leads, for one key and one target, to the states in its destination list.  A table keeps a
state's edges in rows, one for each key, and a row has one edge for each target, so that there is
at most one edge for a key and a target.  Tables are joined edge by edge; where both have an edge,
the destinations of the second that are new follow those of the first.
-/

namespace Multitouch

/-- A transition: for a key, and a target told by an `α`, the states that are entered. -/
structure Edge (α : Type) where
  key : Key
  target : α
  dests : List Nat
  deriving DecidableEq, Repr

namespace Edge

/-- The edges in rows, one after the other. -/
def ofRows {α : Type} (rows : Keyed Key (List (α × List Nat))) : List (Edge α) :=
  rows.entries.flatMap fun row => row.2.map fun way => ⟨row.1, way.1, way.2⟩

/-- Adds a destination, unless it is there already. -/
def addDest (dests : List Nat) (d : Nat) : List Nat :=
  if d ∈ dests then dests else dests ++ [d]

/-- The destinations of `a`, then those of `b` that are new, each once. -/
def join (a b : List Nat) : List Nat :=
  b.foldl addDest a

end Edge

/-- The edges that leave a state: for each key, where each target leads. -/
structure Table where
  rows : Keyed Key (Keyed String (List Nat))

/-- The order of targets, which are texts, is transitive.  It is said here so that tables are the
same whatever else is known about texts. -/
instance Table.transTarget : Trans (α := String) (· < ·) (· < ·) (· < ·) := ⟨String.lt_trans⟩

namespace Table

/-- No edge. -/
def empty : Table := ⟨.empty⟩

/-- One edge. -/
def single (e : Edge String) : Table := ⟨.single e.key (.single e.target e.dests)⟩

/-- The edges of both tables. -/
def union (s t : Table) : Table :=
  ⟨s.rows.merge (Keyed.merge Edge.join) t.rows⟩

/-- The edges, in ascending order of key and target. -/
def edges (t : Table) : List (Edge String) :=
  Edge.ofRows (t.rows.map (·.entries))

/-- The destinations of the edge for a key and a target, if there is one. -/
def find? (t : Table) (key : Key) (target : String) : Option (List Nat) :=
  (t.rows.get? key).bind (·.get? target)

/-- Where the edge for a key and a target leads; nowhere if there is none. -/
def dests (t : Table) (key : Key) (target : String) : List Nat :=
  (t.find? key target).getD []

end Table

end Multitouch
