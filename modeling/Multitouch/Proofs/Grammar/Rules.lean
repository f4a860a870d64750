import Mathlib.Algebra.GroupWithZero.Nat
import Multitouch.Grammar.Reader

/-!
# The grammar of patterns

The rules by which patterns are written, as relations between a text and what it stands for.  Each
rule puts a text together from its parts and looks at nothing else: what may follow a part is not
said, as no other rule would let anything else follow.

    sequence    ::=  alternatives*
    alternatives ::=  item ('|' item)*
    item        ::=  '(' sequence ')' repetition  |  action
    action      ::=  phase digits ('/' target '/')? repetition
    repetition  ::=  '+' | '*' | '?' | '{' digits (',' digits)? '}' | nothing

A pattern is a sequence whose groups are not nested too deep and which is not unrolled to too many
states (`Derives`).

By the rules a number may have any digits in front of it that are zeros.  A reader may ask for more,
so that what is asked of the digits of every number is a parameter `P` of the rules; where nothing
is asked, it is `Any`.
-/

namespace Multitouch

namespace Grammar

/-- Nothing is asked of digits. -/
def Any (_ : List Char) : Prop := True

section Rules

variable (P : List Char → Prop)

/-- Decimal digits that stand for `n`.  There may be zeros in front. -/
structure Numeral (digits : List Char) (n : Nat) : Prop where
  ne_nil : digits ≠ []
  isDigit : ∀ c ∈ digits, c.isDigit = true
  value_eq : value digits = n
  lt : n < numberLimit
  fits : P digits

/-- What is written for a repetition. -/
inductive Repeats : List Char → Repetition → Prop where
  | once : Repeats [] .once
  | atLeastOnce : Repeats ['+'] .atLeastOnce
  | any : Repeats ['*'] .any
  | optional : Repeats ['?'] .optional
  | exactly {digits : List Char} {n : Nat} :
      Numeral P digits n → Repeats ('{' :: (digits ++ ['}'])) (.exactly n)
  | between {s t : List Char} {m n : Nat} :
      Numeral P s m → Numeral P t n → m ≤ n →
        Repeats ('{' :: (s ++ ',' :: (t ++ ['}']))) ⟨m, some n⟩

/-- How many backslashes a text ends with. -/
def trailing (text : List Char) : Nat :=
  (text.reverse.takeWhile (· == '\\')).length

/-- A text that can stand between the slashes of a target: a slash in it comes after an odd number
of backslashes, and the slash after it does not. -/
structure Closed (text : List Char) : Prop where
  slash : ∀ u v, text = u ++ '/' :: v → trailing u % 2 = 1
  even : trailing text % 2 = 0

/-- What is written for a target. -/
inductive Targets : List Char → String → Prop where
  | any : Targets [] anyTarget
  | slashes {t : List Char} : Closed t → Targets ('/' :: (t ++ ['/'])) (String.ofList t)

/-- What is written for an action. -/
inductive Acts : List Char → Action → Prop where
  | mk {phase : Phase} {digits s m : List Char} {n : Nat} {t : String} {r : Repetition} :
      Numeral P digits n → 1 ≤ n → Targets s t → Repeats P m r →
        Acts (phase.letter :: (digits ++ (s ++ m))) ⟨⟨phase, n⟩, t, r⟩

/-- The expression that alternatives are; one alone is the expression itself. -/
def joined : List Expression → Expression
  | [e] => e
  | alternatives => .options alternatives

mutual

/-- What is written for an item. -/
inductive Item : List Char → Expression → Prop where
  | action {s : List Char} {a : Action} : Acts P s a → Item s (.action a)
  | group {s m : List Char} {es : List Expression} {r : Repetition} :
      Sequence s es → Repeats P m r → Item ('(' :: (s ++ ')' :: m)) (.group none es r)

/-- What is written for items with bars between them. -/
inductive Alternatives : List Char → List Expression → Prop where
  | one {s : List Char} {e : Expression} : Item s e → Alternatives s [e]
  | more {s t : List Char} {e : Expression} {es : List Expression} :
      Item s e → Alternatives t es → Alternatives (s ++ '|' :: t) (e :: es)

/-- What is written for expressions one after the other. -/
inductive Sequence : List Char → List Expression → Prop where
  | nil : Sequence [] []
  | cons {s t : List Char} {alternatives es : List Expression} :
      Alternatives s alternatives → Sequence t es → Sequence (s ++ t) (joined alternatives :: es)

end

end Rules

end Grammar

namespace Expression

mutual

/-- How deep groups are nested in an expression. -/
def nesting : Expression → Nat
  | action _ => 0
  | group _ body _ => nestingAll body + 1
  | options alternatives => nestingAll alternatives

/-- How deep groups are nested in expressions at most. -/
def nestingAll : List Expression → Nat
  | [] => 0
  | e :: es => max e.nesting (nestingAll es)

end

end Expression

namespace Grammar

/-- The states that a pattern is unrolled to at most. -/
def statesBound (es : List Expression) : Nat :=
  3 + (es.map fun e => e.bound + 1).sum

/-- The text is a pattern that stands for the expressions. -/
structure Derives (P : List Char → Prop) (text : List Char) (es : List Expression) : Prop where
  sequence : Sequence P text es
  nesting_le : Expression.nestingAll es ≤ maxNesting
  states_le : statesBound es ≤ maxStates

/-! ### What is asked of digits

What the rules write with digits of which `P` holds, they write with digits of which `Q` holds, if
`Q` holds of the digits of each number in the text. -/

variable {P Q : List Char → Prop} {s m : List Char}

theorem Numeral.imp {digits : List Char} {n : Nat} (h : Numeral P digits n) (hQ : Q digits) :
    Numeral Q digits n :=
  { h with fits := hQ }

theorem Repeats.imp {r : Repetition} (h : Repeats P m r)
    (hQ : ∀ digits n, digits <:+: m → Numeral P digits n → Q digits) : Repeats Q m r := by
  cases h with
  | once => exact .once
  | atLeastOnce => exact .atLeastOnce
  | any => exact .any
  | optional => exact .optional
  | @exactly digits n hn => exact .exactly (hn.imp (hQ digits n ⟨['{'], ['}'], by simp⟩ hn))
  | @between s t k n hk hn hle =>
      have hs : s <:+: '{' :: (s ++ ',' :: (t ++ ['}'])) := ⟨['{'], ',' :: (t ++ ['}']), by simp⟩
      have ht : t <:+: '{' :: (s ++ ',' :: (t ++ ['}'])) := ⟨'{' :: (s ++ [',']), ['}'], by simp⟩
      exact .between (hk.imp (hQ s k hs hk)) (hn.imp (hQ t n ht hn)) hle

theorem Acts.imp {a : Action} (h : Acts P s a)
    (hQ : ∀ digits n, digits <:+: s → Numeral P digits n → Q digits) : Acts Q s a := by
  obtain @⟨phase, digits, u, m, n, t, r, hn, hpos, ht, hr⟩ := h
  have hdigits : digits <:+: phase.letter :: (digits ++ (u ++ m)) :=
    ⟨[phase.letter], u ++ m, by simp⟩
  have hm : m <:+: phase.letter :: (digits ++ (u ++ m)) :=
    ⟨phase.letter :: (digits ++ u), [], by simp⟩
  exact .mk (hn.imp (hQ digits n hdigits hn)) hpos ht
    (hr.imp fun d k hd => hQ d k (hd.trans hm))

mutual

theorem Item.imp : ∀ {s : List Char} {e : Expression}, Item P s e →
    (∀ digits n, digits <:+: s → Numeral P digits n → Q digits) → Item Q s e
  | _, _, .action ha, hQ => .action (ha.imp hQ)
  | _, _, .group (s := s) (m := m) hs hr, hQ => by
      have hbody : s <:+: '(' :: (s ++ ')' :: m) := ⟨['('], ')' :: m, by simp⟩
      have hm : m <:+: '(' :: (s ++ ')' :: m) := ⟨'(' :: (s ++ [')']), [], by simp⟩
      exact .group (hs.imp fun d n hd => hQ d n (hd.trans hbody))
        (hr.imp fun d n hd => hQ d n (hd.trans hm))

theorem Alternatives.imp : ∀ {s : List Char} {es : List Expression}, Alternatives P s es →
    (∀ digits n, digits <:+: s → Numeral P digits n → Q digits) → Alternatives Q s es
  | _, _, .one he, hQ => .one (he.imp hQ)
  | _, _, .more (s := s) (t := t) he ha, hQ => by
      have hs : s <:+: s ++ '|' :: t := List.infix_append [] s _
      have ht : t <:+: s ++ '|' :: t := ⟨s ++ ['|'], [], by simp⟩
      exact .more (he.imp fun d n hd => hQ d n (hd.trans hs))
        (ha.imp fun d n hd => hQ d n (hd.trans ht))

theorem Sequence.imp : ∀ {s : List Char} {es : List Expression}, Sequence P s es →
    (∀ digits n, digits <:+: s → Numeral P digits n → Q digits) → Sequence Q s es
  | _, _, .nil, _ => .nil
  | _, _, .cons (s := s) (t := t) ha hs, hQ => by
      have hfirst : s <:+: s ++ t := List.infix_append [] s t
      have hrest : t <:+: s ++ t := ⟨s, [], by simp⟩
      exact .cons (ha.imp fun d n hd => hQ d n (hd.trans hfirst))
        (hs.imp fun d n hd => hQ d n (hd.trans hrest))

end

theorem Derives.imp {text : List Char} {es : List Expression} (h : Derives P text es)
    (hQ : ∀ digits n, digits <:+: text → Numeral P digits n → Q digits) : Derives Q text es :=
  ⟨h.sequence.imp hQ, h.nesting_le, h.states_le⟩

theorem Numeral.any {digits : List Char} {n : Nat} (h : Numeral P digits n) :
    Numeral Any digits n :=
  h.imp trivial

theorem Item.any {e : Expression} (h : Item P s e) : Item Any s e :=
  h.imp fun _ _ _ _ => trivial

theorem Sequence.any {es : List Expression} (h : Sequence P s es) : Sequence Any s es :=
  h.imp fun _ _ _ _ => trivial

theorem Derives.any {es : List Expression} (h : Derives P s es) : Derives Any s es :=
  h.imp fun _ _ _ _ => trivial

end Grammar

end Multitouch
