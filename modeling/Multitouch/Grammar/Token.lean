import Multitouch.Expression
import Multitouch.Grammar.Error

/-!
# The smallest parts of a pattern

Readers of numbers, repetitions, targets and actions.  Each takes the text that is left, and
answers what it read together with what is then left, or a fault: a cause, and the text from the
place of the fault on.  None of them looks further ahead than one character, and none answers a
longer text than it was given.

Whether there is a number is told by a counter of its digits, which has 32 bits and a sign.  So
digits in front of a number are not for free: from `2 ^ 31` digits on the counter may show that
there are none, and then they are passed over.
-/

namespace Multitouch.Grammar

/-- A cause, and the text from the place it was found on. -/
structure Fault where
  cause : Cause
  rest : List Char
  deriving DecidableEq, Repr

/-- What a reader answers: something read and the text left, or a fault. -/
abbrev Reading (α : Type) := Except Fault (α × List Char)

/-- The value of a run of decimal digits. -/
def value (digits : List Char) : Nat :=
  Nat.ofDigitChars 10 digits 0

/-- The digits are some by the counter of a run of digits, which starts over from `-2 ^ 31` when
its 32 bits are used up. -/
def Counted (digits : List Char) : Prop :=
  0 < Int32.ofNat digits.length

instance (digits : List Char) : Decidable (Counted digits) :=
  inferInstanceAs (Decidable (0 < Int32.ofNat digits.length))

/-- Reads a run of digits, if there is one by the counter. -/
def number (text : List Char) : Reading (Option Nat) :=
  let digits := text.takeWhile Char.isDigit
  if value digits < numberLimit then
    .ok (if Counted digits then some (value digits) else none, text.dropWhile Char.isDigit)
  else .error ⟨.numberTooLarge, text⟩

/-- Reads the rest of a repetition in braces, whose text begins at `opening`. -/
def bounds (opening rest : List Char) : Reading Repetition :=
  match number rest with
  | .error e => .error e
  | .ok (none, rest) => .error ⟨.malformedRepetition .number, rest⟩
  | .ok (some least, '}' :: rest) => .ok (.exactly least, rest)
  | .ok (some least, ',' :: rest) =>
    match number rest with
    | .error e => .error e
    | .ok (none, rest) => .error ⟨.malformedRepetition .number, rest⟩
    | .ok (some most, '}' :: rest) =>
      if least ≤ most then .ok (⟨least, some most⟩, rest)
      else .error ⟨.invertedBounds least most, opening⟩
    | .ok (some _, rest) => .error ⟨.malformedRepetition .close, rest⟩
  | .ok (some _, rest) => .error ⟨.malformedRepetition .commaOrClose, rest⟩

/-- Reads a repetition; where none is written, once is meant. -/
def repetition : List Char → Reading Repetition
  | '+' :: rest => .ok (.atLeastOnce, rest)
  | '*' :: rest => .ok (.any, rest)
  | '?' :: rest => .ok (.optional, rest)
  | '{' :: rest => bounds ('{' :: rest) rest
  | rest => .ok (.once, rest)

/-- Splits a text at the slash that closes a target.  A backslash keeps the character after it
from closing; both stay in the target.  `seen` is what has been passed, the latest first. -/
def closeTarget (seen : List Char) : List Char → Option (List Char × List Char)
  | [] => none
  | '/' :: rest => some (seen.reverse, rest)
  | '\\' :: c :: rest => closeTarget (c :: '\\' :: seen) rest
  | c :: rest => closeTarget (c :: seen) rest

/-- The target of an action that names none matches everything. -/
def anyTarget : String := ".*"

/-- Reads a target between slashes, if there is one. -/
def target : List Char → Reading String
  | '/' :: rest =>
    match closeTarget [] rest with
    | some (t, rest) => .ok (String.ofList t, rest)
    | none => .error ⟨.openTarget, '/' :: rest⟩
  | rest => .ok (anyTarget, rest)

/-- The first byte a character is encoded with, as the character of that number. -/
def leadByte (c : Char) : Char :=
  if c.toNat < 0x80 then c
  else if c.toNat < 0x800 then Char.ofNat (0xC0 + c.toNat / 0x40)
  else if c.toNat < 0x10000 then Char.ofNat (0xE0 + c.toNat / 0x1000)
  else Char.ofNat (0xF0 + c.toNat / 0x40000)

/-- Reads the slot of an action: a number that is not zero. -/
def slot (text : List Char) : Reading Nat :=
  match number text with
  | .error e => .error e
  | .ok (none, rest) => .error ⟨.missingSlot, rest⟩
  | .ok (some 0, _) => .error ⟨.zeroSlot, text⟩
  | .ok (some n, rest) => .ok (n, rest)

/-- Reads an action: a phase, a slot, a target and a repetition. -/
def action : List Char → Reading Action
  | [] => .error ⟨.missingItem, []⟩
  | c :: rest =>
    match Phase.ofLetter? c with
    | none => .error ⟨.unknownPhase (leadByte c), c :: rest⟩
    | some phase =>
      match slot rest with
      | .error e => .error e
      | .ok (slot, rest) =>
        match target rest with
        | .error e => .error e
        | .ok (target, rest) =>
          match repetition rest with
          | .error e => .error e
          | .ok (repetition, rest) => .ok (⟨⟨phase, slot⟩, target, repetition⟩, rest)

/-! ### What is left is never longer -/

theorem number_length {text rest : List Char} {n : Option Nat}
    (h : number text = .ok (n, rest)) : rest.length ≤ text.length := by
  simp only [number] at h
  split at h
  · cases h; exact (List.dropWhile_sublist _).length_le
  · cases h

theorem bounds_length {opening text rest : List Char} {r : Repetition}
    (h : bounds opening text = .ok (r, rest)) : rest.length ≤ text.length := by
  unfold bounds at h
  split at h
  · cases h
  · cases h
  · next hn => cases h; have := number_length hn; simp at this; omega
  · next hn =>
    have h₁ := number_length hn
    split at h
    · cases h
    · cases h
    · next hm =>
      split at h
      · cases h; have := number_length hm; simp at this h₁; omega
      · cases h
    · cases h
  · cases h

theorem repetition_length {text rest : List Char} {r : Repetition}
    (h : repetition text = .ok (r, rest)) : rest.length ≤ text.length := by
  unfold repetition at h
  split at h
  · cases h; simp
  · cases h; simp
  · cases h; simp
  · have := bounds_length h; simp; omega
  · cases h; exact Nat.le_refl _

theorem closeTarget_length {seen text t rest : List Char}
    (h : closeTarget seen text = some (t, rest)) : rest.length ≤ text.length := by
  fun_induction closeTarget seen text with
  | case1 => cases h
  | case2 => cases h; simp
  | case3 _ _ _ ih => have := ih h; simp; omega
  | case4 _ _ _ _ _ ih => have := ih h; simp; omega

theorem target_length {text rest : List Char} {t : String}
    (h : target text = .ok (t, rest)) : rest.length ≤ text.length := by
  unfold target at h
  split at h
  · split at h
    · next hc => cases h; have := closeTarget_length hc; simp; omega
    · cases h
  · cases h; exact Nat.le_refl _

theorem slot_length {text rest : List Char} {n : Nat}
    (h : slot text = .ok (n, rest)) : rest.length ≤ text.length := by
  unfold slot at h
  split at h
  · cases h
  · cases h
  · cases h
  · next hn => cases h; exact number_length hn

/-- An action is at least one character long. -/
theorem action_length {text rest : List Char} {a : Action}
    (h : action text = .ok (a, rest)) : rest.length < text.length := by
  unfold action at h
  split at h
  · cases h
  · split at h
    · cases h
    · split at h
      · cases h
      · next hs =>
        split at h
        · cases h
        · next ht =>
          split at h
          · cases h
          · next hr =>
            cases h
            have h₁ := slot_length hs
            have h₂ := target_length ht
            have h₃ := repetition_length hr
            simp; omega

end Multitouch.Grammar
