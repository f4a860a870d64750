import Multitouch.Automaton.Basic
import Multitouch.Slots

/-!
# Recognizers and their reports

A recognizer holds gestures and the live *attempts* to match them.  An attempt remembers the
states its automaton is in, and which contact holds which slot.  What happens to attempts is told
in *reports*; those that concern the user of the recognizer are its notices.
-/

namespace Multitouch

/-- How an attempt ends. -/
inductive Outcome where
  | accepted
  | rejected
  deriving DecidableEq, Repr

/-- An attempt to match a gesture. -/
structure Attempt where
  id : Nat
  /-- The number of the gesture. -/
  gesture : Nat
  automaton : Automaton
  /-- The states the automaton is in, ascending. -/
  states : List Nat
  slots : Slots

/-- Gestures and the attempts to match them. -/
structure Recognizer where
  /-- At most this many attempts are live at a time. -/
  capacity : Nat := 1024
  gestures : Array Automaton := #[]
  /-- The live attempts, oldest first. -/
  live : List Attempt := []
  /-- The number of the next attempt. -/
  nextId : Nat := 0

/-- What happens to attempts. -/
inductive Report where
  /-- A gesture could start, but there are `live` attempts and no room for more. -/
  | skipped (gesture live : Nat)
  | created (id gesture touch : Nat)
  /-- The attempt has read a symbol. -/
  | stepped (id gesture : Nat) (x : Symbol) (step : Step)
  | ended (id gesture : Nat) (outcome : Outcome)
  deriving DecidableEq, Repr

/-- What the user of a recognizer is told. -/
inductive Notice where
  | created (id gesture : Nat)
  /-- The attempt has advanced through the groups with these tags. -/
  | advanced (id gesture : Nat) (tags : List Tag)
  | terminated (id gesture : Nat) (outcome : Outcome)
  deriving DecidableEq, Repr

/-- The notice in a report; a step that leads nowhere is none. -/
def Report.notice? : Report → Option Notice
  | skipped .. => none
  | created id gesture _ => some (.created id gesture)
  | stepped id gesture _ step =>
    if step.tags = [] then none else some (.advanced id gesture step.tags)
  | ended id gesture outcome => some (.terminated id gesture outcome)

/-- The notices in reports. -/
def Report.notices (reports : List Report) : List Notice :=
  reports.filterMap notice?

end Multitouch
