import Std.Data.HashMap
import Multitouch.Text.Utf8

/-!
# Building a machine

A machine that reads the bytes of a target is built state by state.  Here its states are counted
and the room that they take, in particular what it takes to pass a character of a set: the states
for that are shared if they are found again.
-/

namespace Multitouch.Target

/-- Which way a machine reads. -/
inductive Direction where
  | forwards
  | backwards

/-- Members of a sequence in the order in which they are read. -/
def Direction.order {α : Type} : Direction → List α → List α
  | forwards, members => members
  | backwards, members => members.reverse

/-- A machine takes at most this much room, in bytes. -/
def maxRoom : Nat := 10 * 1024 * 1024

/-- So many states have been built, which take so many bytes. -/
structure Build where
  states : Nat
  bytes : Nat

namespace Build

/-- Nothing has been built. -/
def none : Build := ⟨0, 0⟩

/-- States take 32 bytes each.  Edges, which pass a range of bytes, take 8, and branches, which
pass nothing, take 4; a state has room for one way to go on in any case. -/
def of (states edges branches : Nat) : Build :=
  ⟨states, 32 * states + 8 * edges + 4 * branches⟩

instance : Add Build := ⟨fun b c => ⟨b.states + c.states, b.bytes + c.bytes⟩⟩

/-- There is room for what has been built. -/
def fits (b : Build) : Bool :=
  b.bytes ≤ maxRoom

/-- Builds the same over and over, as long as there is room. -/
def iterate (f : Build → Build) : Nat → Build → Build
  | 0, b => b
  | n + 1, b => if b.fits then iterate f n (f b) else b

end Build

/-! ### Shared states -/

/-- A machine in the making that remembers its states.  There are so many places for them; a state
is remembered at its place, with what describes it and its number, until another takes the
place. -/
structure Sharing where
  build : Build
  places : Nat
  remembered : Std.HashMap Nat (List Nat × Nat) := {}

namespace Sharing

/-- The place for what is described by some numbers: their hash, which each of them enters by an
exclusive or and a multiplication of words of 64 bits. -/
def place (s : Sharing) (description : List Nat) : Nat :=
  let hash : UInt64 := description.foldl (fun (hash : UInt64) (n : Nat) =>
    (hash ^^^ n.toUInt64) * 0x100000001B3) 0xCBF29CE484222325
  hash.toNat % s.places

/-- The number of the state with the given description and number of edges, which is built unless
it is remembered. -/
def state (s : Sharing) (description : List Nat) (edges : Nat) : Nat × Sharing :=
  let place := s.place description
  match s.remembered[place]? with
  | some (other, number) => if other = description then (number, s) else add place
  | none => add place
where
  /-- Builds the state and remembers it. -/
  add (place : Nat) : Nat × Sharing :=
    (s.build.states, { s with
      build := s.build + .of 1 edges 0
      remembered := s.remembered.insert place (description, s.build.states) })

/-- The ranges that runs begin with, each with what comes after it. -/
def heads (runs : List Utf8.Run) : List ((Nat × Nat) × List Utf8.Run) :=
  runs.foldr (fun run heads =>
    match run, heads with
    | [], heads => heads
    | range :: rest, [] => [(range, [rest])]
    | range :: rest, (range', rests) :: heads =>
      if range = range' then (range, rest :: rests) :: heads
      else (range, [rest]) :: (range', rests) :: heads) []

/-- The state before runs of at most the given length, and `last` at the end of each.  It has an
edge for every range that the runs begin with, and is built after the states behind them. -/
def before (last : Nat) : Nat → List Utf8.Run → Sharing → Nat × Sharing
  | 0, _, s => (last, s)
  | length + 1, runs, s =>
    match heads runs with
    | [] => (last, s)
    | heads =>
      let (description, s) := heads.foldl (fun (description, s) ((a, b), rests) =>
        let (next, s) := before last length rests s
        (description ++ [a, b, next], s)) ([], s)
      s.state description heads.length

/-- Builds the states that pass a run from its last byte to its first, which leads to `last`. -/
def behind (s : Sharing) (last : Nat) (run : Utf8.Run) : Sharing :=
  (run.foldl (fun (next, s) (a, b) => s.state [next, a, b] 0) (last, s)).2

end Sharing

/-- Builds what passes one of the runs, which are of the length of a character.  Forwards, these
are the states before the runs and one at the end of all.  Backwards, a state branches to the end
of every run, and one stands at the beginning of all. -/
def Direction.buildRuns (d : Direction) (runs : List Utf8.Run) (b : Build) : Build :=
  match d with
  | forwards =>
    (Sharing.before b.states 4 runs { build := b + .of 1 0 0, places := 10000 }).2.build
  | backwards =>
    let s : Sharing := { build := b + .of 2 0 runs.length, places := 1000 }
    (runs.foldl (fun s run => s.behind (b.states + 1) run) s).build

end Multitouch.Target
