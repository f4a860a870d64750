import Multitouch.Recognizer.Basic

/-!
# What a recognizer does with an event

An event goes first to the live attempts, oldest first, and then to every gesture: where the
initial state can read the event as that of the first contact, a new attempt starts.  An attempt
ends as soon as none of its states can be left; it is accepted if the gesture was complete before
the event or is complete after it.
-/

namespace Multitouch

namespace Attempt

/-- Reads a symbol.  Answers the attempt, unless it ends, and what happened. -/
def feed (a : Attempt) (x : Symbol) : Option Attempt × List Report :=
  let step := a.automaton.step a.states x
  let stepped := Report.stepped a.id a.gesture x step
  if a.automaton.exhausted step.states then
    let outcome :=
      if a.automaton.complete a.states || a.automaton.complete step.states then .accepted
      else .rejected
    (none, [stepped, .ended a.id a.gesture outcome])
  else (some { a with states := step.states }, [stepped])

/-- Takes an event in, by the number its contact holds. -/
def observe (a : Attempt) (e : Event) : Option Attempt × List Report :=
  let observed := a.slots.observe e
  { a with slots := observed.2 }.feed observed.1

/-- A new attempt, before it reads the event that starts it. -/
def start (id gesture : Nat) (automaton : Automaton) (e : Event) : Attempt where
  id := id
  gesture := gesture
  automaton := automaton
  states := [Automaton.initial]
  slots := (Slots.observeFirst e).2

end Attempt

namespace Recognizer

/-- Adds a gesture, whose number is the count of those before it. -/
def add (R : Recognizer) (A : Automaton) : Recognizer :=
  { R with gestures := R.gestures.push A }

/-- Lets the live attempts take an event in. -/
def proceed (R : Recognizer) (e : Event) : Recognizer × List Report :=
  let results := R.live.map (·.observe e)
  ({ R with live := results.filterMap (·.1) }, results.flatMap (·.2))

/-- Starts an attempt at a gesture whose initial state can read the event, if there is room. -/
def begin (R : Recognizer) (e : Event) (gesture : Nat) (A : Automaton) :
    Recognizer × List Report :=
  let x := (Slots.observeFirst e).1
  if (A.step [Automaton.initial] x).states = [] then (R, [])
  else if R.capacity ≤ R.live.length then (R, [.skipped gesture R.live.length])
  else
    let fed := (Attempt.start R.nextId gesture A e).feed x
    ({ R with nextId := R.nextId + 1, live := R.live ++ fed.1.toList },
      .created R.nextId gesture e.touch :: fed.2)

/-- Offers an event to gestures, one after the other. -/
def beginAll (e : Event) : List (Automaton × Nat) → Recognizer → Recognizer × List Report
  | [], R => (R, [])
  | (A, gesture) :: rest, R =>
    let first := R.begin e gesture A
    let others := beginAll e rest first.1
    (others.1, first.2 ++ others.2)

/-- Takes an event in. -/
def observe (R : Recognizer) (e : Event) : Recognizer × List Report :=
  let proceeded := R.proceed e
  let begun := beginAll e R.gestures.toList.zipIdx proceeded.1
  (begun.1, proceeded.2 ++ begun.2)

/-- Takes several events in, one after the other. -/
def observeAll (R : Recognizer) : List Event → Recognizer × List Report
  | [] => (R, [])
  | e :: events =>
    let first := R.observe e
    let others := first.1.observeAll events
    (others.1, first.2 ++ others.2)

/-- Drops a live attempt; tells whether there was one. -/
def cancel (R : Recognizer) (id : Nat) : Bool × Recognizer :=
  (R.live.any (·.id == id), { R with live := R.live.filter (·.id != id) })

/-- Drops all live attempts. -/
def clear (R : Recognizer) : Recognizer :=
  { R with live := [] }

end Recognizer

end Multitouch
