import Mathlib.Algebra.Order.Kleene
import Multitouch.Proofs.Language.Words

/-!
# Unrolled patterns

A *layout* is a pattern with its repetitions unrolled: there is a copy of a part for every time
that is required, then one for each further time that is allowed, or one that may be gone through
any number of times.  Each copy of a group is on its own, with the tag of the group or with the
next number, so a layout is *planned* from the count of numbers handed out before it.

A match of a layout is taken down letter by letter.  What a symbol is taken down as may depend on
the innermost group that the part which matches it is in.  A match may be one of the whole layout
(`Layout.full`), or one of a part from its beginning (`Layout.part`): it has come to some point,
from where it may or may not be possible to go on.
-/

open scoped Computability

namespace Multitouch

/-- An unrolled pattern. -/
inductive Layout where
  /-- One symbol. -/
  | act (key : Key) (target : String)
  /-- No symbols. -/
  | skip
  /-- A choice without alternatives. -/
  | never
  /-- One after the other. -/
  | row (l m : Layout)
  | either (l m : Layout)
  /-- Any number of times. -/
  | loop (l : Layout)
  /-- A copy of a group. -/
  | copy (tag : Tag) (l : Layout)

/-! ### Unrolling -/

/-- How something is unrolled after so many groups have been numbered: what to, and how many have
been numbered then. -/
abbrev Plan := Nat → Layout × Nat

namespace Plan

/-- There is nothing to number. -/
def of (l : Layout) : Plan := fun n => (l, n)

def row (p q : Plan) : Plan := fun n =>
  (.row (p n).1 (q (p n).2).1, (q (p n).2).2)

def either (p q : Plan) : Plan := fun n =>
  (.either (p n).1 (q (p n).2).1, (q (p n).2).2)

def loop (p : Plan) : Plan := fun n =>
  (.loop (p n).1, (p n).2)

/-- The tag of a group: its name, or the next number. -/
def tag (n : Nat) : Option String → Tag × Nat
  | some name => (.named name, n)
  | none => (.numbered n, n + 1)

/-- A group has its tag before the groups in it have theirs. -/
def copy (name : Option String) (p : Plan) : Plan := fun n =>
  let tagged := tag n name
  (.copy tagged.1 (p tagged.2).1, (p tagged.2).2)

/-- Several copies, one after the other. -/
def copies (p : Plan) : Nat → Plan
  | 0 => of .skip
  | k + 1 => (copies p k).row p

/-- Copies that may each be left out together with those after it. -/
def upTo (p : Plan) : Nat → Plan
  | 0 => of .skip
  | k + 1 => (of .skip).either (p.row (upTo p k))

/-- The copies that are required, and those that are allowed or a loop. -/
def repeated (p : Plan) (r : Repetition) : Plan :=
  match r.max with
  | none => (p.copies r.min).row p.loop
  | some most => (p.copies r.min).row (p.upTo (most - r.min))

end Plan

namespace Expression

mutual

/-- How an expression is unrolled. -/
def plan : Expression → Plan
  | action a => (Plan.of (.act a.key a.target)).repeated a.repetition
  | group name body r => ((rowPlan body).repeated r).copy name
  | options alternatives => choicePlan alternatives

/-- How expressions one after the other are unrolled. -/
def rowPlan : List Expression → Plan
  | [] => .of .skip
  | e :: es => e.plan.row (rowPlan es)

/-- How alternatives are unrolled. -/
def choicePlan : List Expression → Plan
  | [] => .of .never
  | e :: es => e.plan.either (choicePlan es)

end

/-- A whole pattern, unrolled. -/
def layout (es : List Expression) : Layout :=
  (rowPlan es 0).1

end Expression

/-! ### Matching -/

variable {α : Type}

/-- What the symbols for a key and a target are taken down as, where the innermost group has the
tag. -/
abbrev Letters (α : Type) := Key → String → Tag → Language α

/-- Symbols are taken down as they are. -/
def plain (L : Dialect) : Letters Symbol := fun key target _ => Expression.symbols L key target

/-- Symbols are taken down with the tag. -/
def tagged (L : Dialect) : Letters (Symbol × Tag) := fun key target tag =>
  {w | ∃ x : Symbol, w = [(x, tag)] ∧ x.Fits L key target}

namespace Layout

variable (ρ : Letters α)

/-- The matches of a whole layout, which is in a group with the tag. -/
def full : Layout → Tag → Language α
  | act key target, tag => ρ key target tag
  | skip, _ => 1
  | never, _ => 0
  | row l m, tag => l.full tag * m.full tag
  | either l m, tag => l.full tag + m.full tag
  | loop l, tag => (l.full tag)∗
  | copy tag l, _ => l.full tag

/-- The matches of a part of a layout from its beginning. -/
def part : Layout → Tag → Language α
  | act key target, tag => 1 + ρ key target tag
  | skip, _ => 1
  | never, _ => 1
  | row l m, tag => l.part tag + l.full ρ tag * m.part tag
  | either l m, tag => l.part tag + m.part tag
  | loop l, tag => (l.full ρ tag)∗ * l.part tag
  | copy tag l, _ => l.part tag

variable {ρ} {tag : Tag}

theorem one_le_part : ∀ (l : Layout) (tag : Tag), 1 ≤ l.part ρ tag
  | act _ _, _ => le_add_right le_rfl
  | skip, _ => le_rfl
  | never, _ => le_rfl
  | row l _, tag => le_add_right (one_le_part l tag)
  | either l _, tag => le_add_right (one_le_part l tag)
  | loop l, tag => one_le_mul one_le_kstar (one_le_part l tag)
  | copy tag l, _ => one_le_part l tag

/-- A match of the whole has come to the end. -/
theorem full_le_part : ∀ (l : Layout) (tag : Tag), l.full ρ tag ≤ l.part ρ tag
  | act _ _, _ => le_add_left le_rfl
  | skip, _ => le_rfl
  | never, _ => zero_le
  | row _ m, tag => le_add_left (mul_le_mul_right (full_le_part m tag) _)
  | either l m, tag => add_le_add (full_le_part l tag) (full_le_part m tag)
  | loop l, tag => le_mul_of_one_le_right' (one_le_part l tag)
  | copy tag l, _ => full_le_part l tag

/-! ### What is read ahead -/

/-- What is read from the beginning of a layout on, if `Z` is read from its end on, and `F` from
wherever the layout is left before its end. -/
def ahead (ρ : Letters α) (F : Language α) (l : Layout) (tag : Tag) (Z : Language α) :
    Language α :=
  l.full ρ tag * Z + l.part ρ tag * F

variable {F Z : Language α} {l m : Layout}

theorem ahead_skip (h : F ≤ Z) : skip.ahead ρ F tag Z = Z := by
  rw [ahead, full, part, one_mul, one_mul]
  exact add_eq_left_iff_le.mpr h

theorem ahead_never : never.ahead ρ F tag Z = F := by
  rw [ahead, full, part, zero_mul, one_mul, zero_add]

theorem ahead_act {key : Key} {target : String} (h : F ≤ Z) :
    (act key target).ahead ρ F tag Z = ρ key target tag * Z + F := by
  rw [ahead, full, part, add_mul, one_mul, add_comm F, ← add_assoc]
  exact congrArg (· + F) (add_eq_left_iff_le.mpr (mul_le_mul_right h _))

/-- What is read ahead of the first part is what is read ahead of the second one. -/
theorem ahead_row : (row l m).ahead ρ F tag Z = l.ahead ρ F tag (m.ahead ρ F tag Z) := by
  rw [ahead, full, part, ahead, ahead, mul_add, add_mul, mul_assoc, mul_assoc,
    add_comm (l.part ρ tag * F), add_assoc]

theorem ahead_either :
    (either l m).ahead ρ F tag Z = l.ahead ρ F tag Z + m.ahead ρ F tag Z := by
  rw [ahead, full, part, add_mul, add_mul]
  exact add_add_add_comm _ _ _ _

theorem ahead_loop :
    (loop l).ahead ρ F tag Z = (l.full ρ tag)∗ * (Z + l.part ρ tag * F) := by
  rw [ahead, full, part, mul_add, mul_assoc]

theorem le_ahead : F ≤ l.ahead ρ F tag Z :=
  le_add_left (le_mul_of_one_le_left' (one_le_part l tag))

theorem ahead_mono {Z' : Language α} (h : Z ≤ Z') : l.ahead ρ F tag Z ≤ l.ahead ρ F tag Z' :=
  add_le_add (mul_le_mul_right h _) le_rfl

/-- A turn of a loop leads to what may be read ahead of the loop. -/
theorem ahead_turn : l.ahead ρ F tag ((loop l).ahead ρ F tag Z) ≤ (loop l).ahead ρ F tag Z := by
  rw [ahead_loop, ahead, ← mul_assoc]
  refine add_le (mul_le_mul_left mul_kstar_le_kstar _) ?_
  exact (le_add_left le_rfl).trans (le_mul_of_one_le_left' one_le_kstar)

/-- Ahead of a loop no more is read than what its end and its turns need. -/
theorem ahead_loop_le {X : Language α} (hexit : Z ≤ X) (hturn : l.ahead ρ F tag X ≤ X) :
    (loop l).ahead ρ F tag Z ≤ X := by
  rw [ahead, add_le_iff] at hturn
  rw [ahead_loop]
  exact kstar_mul_le (add_le hexit hturn.2) hturn.1

/-- At the end of a loop one may stop turning. -/
theorem le_ahead_loop : Z ≤ (loop l).ahead ρ F tag Z := by
  rw [ahead_loop]
  exact (le_add_right le_rfl).trans (le_mul_of_one_le_left' one_le_kstar)

end Layout

/-! ### Words -/

section Words

variable {L : Dialect} {V : Language Symbol} {p : Plan} {tag : Tag}

theorem Plan.full_copies (hp : ∀ n, (p n).1.full (plain L) tag = V) (k : Nat) :
    ∀ n, (p.copies k n).1.full (plain L) tag = V ^ k := by
  induction k with
  | zero => exact fun _ => (pow_zero V).symm
  | succ k ih => exact fun n => (congrArg₂ (· * ·) (ih n) (hp _)).trans (pow_succ V k).symm

theorem Plan.full_upTo (hp : ∀ n, (p n).1.full (plain L) tag = V) (k : Nat) :
    ∀ n, (p.upTo k n).1.full (plain L) tag = Multitouch.upTo V k := by
  induction k with
  | zero => exact fun _ => rfl
  | succ k ih => exact fun n => congrArg (1 + ·) (congrArg₂ (· * ·) (hp n) (ih _))

theorem Plan.full_repeated (hp : ∀ n, (p n).1.full (plain L) tag = V) (r : Repetition) (n : Nat) :
    (p.repeated r n).1.full (plain L) tag = r.words V := by
  unfold repeated
  cases hm : r.max with
  | none =>
      rw [Repetition.words_of_unbounded hm]
      exact congrArg₂ (· * ·) (full_copies hp r.min n) (congrArg (·∗) (hp _))
  | some most =>
      rw [Repetition.words_of_bounded hm]
      exact congrArg₂ (· * ·) (full_copies hp r.min n) (full_upTo hp _ _)

namespace Expression

mutual

/-- **An unrolled expression is matched by the words it stands for.** -/
theorem full_plan : ∀ (e : Expression) (n : Nat) (tag : Tag),
    (e.plan n).1.full (plain L) tag = e.words L
  | .action a, n, _ => by
      rw [plan, words]
      exact Plan.full_repeated (p := .of (.act a.key a.target)) (fun _ => rfl) a.repetition n
  | .group name body r, n, _ => by
      rw [plan, words]
      exact Plan.full_repeated (fun n => full_rowPlan body n _) r _
  | .options alternatives, n, tag => by
      rw [plan, words]
      exact full_choicePlan alternatives n tag

theorem full_rowPlan : ∀ (es : List Expression) (n : Nat) (tag : Tag),
    (rowPlan es n).1.full (plain L) tag = sequence L es
  | [], _, _ => rfl
  | e :: es, n, tag => by
      rw [rowPlan, sequence]
      exact congrArg₂ (· * ·) (full_plan e n tag) (full_rowPlan es _ tag)

theorem full_choicePlan : ∀ (es : List Expression) (n : Nat) (tag : Tag),
    (choicePlan es n).1.full (plain L) tag = choice L es
  | [], _, _ => rfl
  | e :: es, n, tag => by
      rw [choicePlan, choice]
      exact congrArg₂ (· + ·) (full_plan e n tag) (full_choicePlan es _ tag)

end

end Expression

end Words

end Multitouch
