import Multitouch.Touch

/-!
# Gesture expressions

An expression describes the sequences of touch symbols that make up a gesture: an *action* is one
phase of one contact on a matching target, a *group* is a sequence of expressions, *options* are
alternatives.  Actions and groups carry a *repetition*, the least and the greatest number of
times they occur.

`Expression.bound` says how many automaton states an expression is unrolled to at most; the
reader uses it to refuse expressions that would grow without measure.
-/

namespace Multitouch

/-- How often something occurs: at least `min` times and, where there is a `max`, at most that
often. -/
structure Repetition where
  min : Nat
  max : Option Nat
  deriving DecidableEq, Repr

namespace Repetition

/-- Exactly once, which is meant where nothing is written. -/
def once : Repetition := ⟨1, some 1⟩

/-- Once or not at all. -/
def optional : Repetition := ⟨0, some 1⟩

/-- Any number of times. -/
def any : Repetition := ⟨0, none⟩

/-- At least once. -/
def atLeastOnce : Repetition := ⟨1, none⟩

/-- Exactly `n` times. -/
def exactly (n : Nat) : Repetition := ⟨n, some n⟩

/-- There is no greatest number of times. -/
def unbounded (r : Repetition) : Bool :=
  r.max.isNone

/-- How many copies of what is repeated the unrolled form holds at most: one for each time, and
one more to loop in where there is no greatest number; never none. -/
def copies (r : Repetition) : Nat :=
  match r.max with
  | some most => Nat.max most 1
  | none => r.min + 1

end Repetition

/-- One phase of one contact, on a target that matches `target`. -/
structure Action where
  key : Key
  target : String
  repetition : Repetition
  deriving DecidableEq, Repr

/-- A gesture expression. -/
inductive Expression where
  | action (a : Action)
  | group (name : Option String) (body : List Expression) (repetition : Repetition)
  | options (alternatives : List Expression)
  deriving Repr

namespace Expression

mutual

/-- Expressions are compared member by member. -/
def decEq : (e f : Expression) → Decidable (e = f)
  | .action a, .action b => decidable_of_iff (a = b) (by simp)
  | .action _, .group _ _ _ => isFalse (by simp)
  | .action _, .options _ => isFalse (by simp)
  | .group _ _ _, .action _ => isFalse (by simp)
  | .group m es r, .group n fs s =>
    have := decEqAll es fs
    decidable_of_iff (m = n ∧ es = fs ∧ r = s) (by simp)
  | .group _ _ _, .options _ => isFalse (by simp)
  | .options _, .action _ => isFalse (by simp)
  | .options _, .group _ _ _ => isFalse (by simp)
  | .options es, .options fs =>
    have := decEqAll es fs
    decidable_of_iff (es = fs) (by simp)

/-- Lists of expressions are compared member by member. -/
def decEqAll : (es fs : List Expression) → Decidable (es = fs)
  | [], [] => isTrue rfl
  | [], _ :: _ => isFalse (by simp)
  | _ :: _, [] => isFalse (by simp)
  | e :: es, f :: fs =>
    have := decEq e f
    have := decEqAll es fs
    decidable_of_iff (e = f ∧ es = fs) (by simp)

end

instance : DecidableEq Expression := decEq

mutual

/-- At most this many states are needed to unroll the expression between two given ones. -/
def bound : Expression → Nat
  | action a => a.repetition.copies
  | group _ body r => (bodyBound body + 1) * r.copies + 1
  | options alternatives => optionsBound alternatives

/-- One pass over the body of a group ends each member in a state of its own. -/
def bodyBound : List Expression → Nat
  | [] => 0
  | e :: es => e.bound + 1 + bodyBound es

/-- Alternatives share the states they start and end in. -/
def optionsBound : List Expression → Nat
  | [] => 0
  | e :: es => e.bound + optionsBound es

end

end Expression

end Multitouch
