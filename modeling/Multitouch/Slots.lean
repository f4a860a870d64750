import Multitouch.Touch

/-!
# Slots

A gesture numbers its contacts from `1`.  A `Slots` remembers which contact holds which number:
a contact that is new takes the lowest number no other contact holds, and a released contact's
number is free again.  Beside the bindings it keeps a row of marks, one for each number handed
out so far, so that the lowest free number is found without looking at the bindings; number `0`
is never handed out and its mark stays off.
-/

namespace Multitouch

/-- Contacts bound to the numbers a gesture knows them by. -/
structure Slots where
  /-- The bound contacts with their numbers, the latest first. -/
  bound : List (Nat × Nat) := []
  /-- Mark `i` is on while number `i` is held. -/
  taken : List Bool := []
  deriving DecidableEq, Repr

namespace Slots

/-- No contact is bound. -/
def empty : Slots := {}

/-- The contact that starts a gesture is number `1`. -/
def starting (touch : Nat) : Slots :=
  ⟨[(touch, 1)], [false, true]⟩

/-- The number `touch` holds. -/
def get? (s : Slots) (touch : Nat) : Option Nat :=
  s.bound.lookup touch

/-- How many contacts are bound. -/
def size (s : Slots) : Nat :=
  s.bound.length

/-- The least number from `1` on whose mark is off. -/
def lowestFree (s : Slots) : Nat :=
  (s.taken.drop 1).idxOf false + 1

/-- Binds a new contact to number `i`. -/
def bind (s : Slots) (touch i : Nat) : Slots where
  bound := (touch, i) :: s.bound
  taken := (s.taken ++ List.replicate (i + 1 - s.taken.length) false).set i true

/-- The number of `touch`, which is bound to the lowest free one if it holds none. -/
def assign (s : Slots) (touch : Nat) : Nat × Slots :=
  match s.get? touch with
  | some i => (i, s)
  | none => (s.lowestFree, s.bind touch s.lowestFree)

/-- Unbinds `touch`, answering the number it held. -/
def release (s : Slots) (touch : Nat) : Option Nat × Slots :=
  match s.get? touch with
  | some i => (some i, ⟨s.bound.filter (·.1 != touch), s.taken.set i false⟩)
  | none => (none, s)

/-- The symbol an event is, with its contact's number, and the numbers held after it: a new
contact is bound, and a released one is unbound once the symbol has been made. -/
def observe (s : Slots) (e : Event) : Symbol × Slots :=
  let assigned := s.assign e.touch
  (e.symbol assigned.1,
    if e.phase = .release then (assigned.2.release e.touch).2 else assigned.2)

/-- The symbol that the first event of a gesture is, and the numbers held after it. -/
def observeFirst (e : Event) : Symbol × Slots :=
  let started := starting e.touch
  (e.symbol 1, if e.phase = .release then (started.release e.touch).2 else started)

end Slots

end Multitouch
