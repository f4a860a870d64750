import Multitouch.Tag
import Multitouch.Network.Table

/-!
# Automata

An automaton reads symbols from a set of states at a time.  It has no links: all a step does is
to follow the edges of the symbol's key whose guard matches the symbol's target.  The initial
state is `0`.

What a guard matches is left to a *dialect*, which gives sense to the texts that targets are
written as.  A text that has no sense in the dialect matches nothing.
-/

namespace Multitouch

/-- What target patterns mean: the targets a text matches, or nothing if the text is no pattern. -/
abbrev Dialect := String → Option (String → Bool)

/-- A target pattern with its meaning. -/
structure Guard where
  source : String
  accepts : Option (String → Bool)

namespace Guard

/-- The guard that a text is in a dialect. -/
def ofSource (L : Dialect) (source : String) : Guard :=
  ⟨source, L source⟩

/-- The text is a pattern. -/
def valid (g : Guard) : Bool :=
  g.accepts.isSome

/-- The guard lets a target pass. -/
def test (g : Guard) (target : String) : Bool :=
  match g.accepts with
  | some p => p target
  | none => false

end Guard

/-- A state of an automaton. -/
structure State where
  tag : Tag
  /-- The edges that leave the state: for each key the guards with where they lead. -/
  rows : Keyed Key (List (Guard × List Nat))
  /-- The gesture may be complete here. -/
  final : Bool

namespace State

/-- The edges that leave the state, row by row. -/
def edges (s : State) : List (Edge Guard) :=
  Edge.ofRows s.rows

/-- The keys that the state has a row for. -/
def keys (s : State) : List Key :=
  s.rows.keys

/-- The edges for a key. -/
def row (s : State) (key : Key) : List (Edge Guard) :=
  match s.rows.get? key with
  | some ways => ways.map fun way => ⟨key, way.1, way.2⟩
  | none => []

/-- The state has no row. -/
def halting (s : State) : Bool :=
  s.rows.isEmpty

/-- The edges that a symbol follows. -/
def matching (s : State) (x : Symbol) : List (Edge Guard) :=
  (s.row x.key).filter fun e => e.target.test x.target

end State

/-- What comes of a step. -/
structure Step where
  /-- The states entered, ascending. -/
  states : List Nat
  /-- The tags of the states left, in the order they are first met. -/
  tags : List Tag
  deriving DecidableEq, Repr

/-- An automaton for gestures. -/
structure Automaton where
  states : Array State
  /-- How many unnamed groups were unrolled. -/
  groups : Nat
  /-- The guards of all edges, one for each text, in the order they are first met. -/
  guards : List Guard

namespace Automaton

/-- The state every run starts in. -/
def initial : Nat := 0

/-- How many states there are. -/
def size (A : Automaton) : Nat :=
  A.states.size

/-- The states with the given numbers; numbers that are no state's are passed over. -/
def known (A : Automaton) (ids : List Nat) : List State :=
  ids.filterMap fun n => A.states[n]?

/-- Numbers in ascending order, each once. -/
def ascending (ids : List Nat) : List Nat :=
  (ids.mergeSort fun m n => decide (m ≤ n)).eraseReps

/-- What a state contributes to a step: its tag, and where the symbol leads from it. -/
def move (x : Symbol) (s : State) : Option (Tag × List Nat) :=
  match s.matching x with
  | [] => none
  | edges => some (s.tag, edges.flatMap (·.dests))

/-- Reads a symbol in all of the given states. -/
def step (A : Automaton) (ids : List Nat) (x : Symbol) : Step :=
  let moves := (A.known ids).filterMap (move x)
  ⟨ascending (moves.flatMap (·.2)), (moves.map (·.1)).eraseDups⟩

/-- None of the states can be left. -/
def exhausted (A : Automaton) (ids : List Nat) : Bool :=
  (A.known ids).all (·.halting)

/-- The gesture may be complete in one of the states. -/
def complete (A : Automaton) (ids : List Nat) : Bool :=
  (A.known ids).any (·.final)

/-- The steps of a word, one after the other. -/
def trace (A : Automaton) (ids : List Nat) : List Symbol → List Step
  | [] => []
  | x :: word => A.step ids x :: A.trace (A.step ids x).states word

/-- The word leads from the given states to a final one. -/
def acceptsFrom (A : Automaton) (ids : List Nat) : List Symbol → Bool
  | [] => A.complete ids
  | x :: word =>
    match (A.step ids x).states with
    | [] => false
    | next => A.acceptsFrom next word

/-- The word is a complete gesture. -/
def accepts (A : Automaton) (word : List Symbol) : Bool :=
  A.acceptsFrom [initial] word

/-- The texts among the guards that are no patterns, in ascending order. -/
def rejected (A : Automaton) : List String :=
  ((A.guards.filter (!·.valid)).map (·.source)).mergeSort fun s t => decide (s ≤ t)

end Automaton

end Multitouch
