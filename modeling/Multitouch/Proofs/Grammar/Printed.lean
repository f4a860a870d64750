import Multitouch.Expression.Printer
import Multitouch.Proofs.Grammar.Complete

/-!
# Texts of expressions

What an expression is shown as is written by the rules, and stands for that expression, if it is
*writable*: its repetitions are of a kind that can be written, a slash in a target is kept from
closing it, groups have no names, and alternatives are two items or more.  Conversely the rules
write nothing else.  So texts and patterns are inverse to one another on the lists of expressions
that are writable and within the limits (`Expressible`).

The one number that the limits leave open is the slot of an action: the greatest number of a
repetition is one of the states that are counted (`most_le_copies`).
-/

namespace Multitouch

/-- The repetition can be written: its bounds are not inverted, and if there is no greatest number
of times, the least is zero or one. -/
def Repetition.Writable : Repetition → Prop
  | ⟨least, some most⟩ => least ≤ most
  | ⟨least, none⟩ => least ≤ 1

/-- The action can be written.  A slot is a positive number of 32 bits. -/
structure Action.Writable (a : Action) : Prop where
  slot_pos : 1 ≤ a.key.slot
  slot_lt : a.key.slot < numberLimit
  target : Grammar.Closed a.target.toList
  repetition : a.repetition.Writable

namespace Expression

/-- The expression is a choice between alternatives. -/
def isOptions : Expression → Bool
  | options _ => true
  | _ => false

mutual

/-- The expression can be written. -/
def Writable : Expression → Prop
  | action a => a.Writable
  | group name body r => name = none ∧ AllWritable body ∧ r.Writable
  | options alternatives =>
    2 ≤ alternatives.length ∧ (∀ e ∈ alternatives, e.isOptions = false) ∧
      AllWritable alternatives

/-- All of the expressions can be written. -/
def AllWritable : List Expression → Prop
  | [] => True
  | e :: es => e.Writable ∧ AllWritable es

end

/-- The expressions can be written as a pattern: each of them can, and they are within the limits
on nesting and on states. -/
structure Expressible (es : List Expression) : Prop where
  writable : AllWritable es
  nesting_le : nestingAll es ≤ maxNesting
  states_le : Grammar.statesBound es ≤ maxStates

end Expression

namespace Grammar

/-! ### What is shown is written by the rules -/

/-- A number is shown without zeros in front of it, so in ten digits at most. -/
theorem numeral_toDigits {n : Nat} (h : n < numberLimit) :
    Numeral Counted (Nat.toDigits 10 n) n where
  ne_nil := Nat.toDigits_ne_nil
  isDigit _ hc := Nat.isDigit_of_mem_toDigits (by decide) (by decide) hc
  value_eq := Nat.ofDigitChars_ten_toDigits
  lt := h
  fits := by
    have hlength : (Nat.toDigits 10 n).length ≤ 10 :=
      (Nat.length_toDigits_le_iff (by decide) (by decide)).mpr (Nat.lt_trans h (by decide))
    exact counted_of_length Nat.toDigits_ne_nil (Nat.lt_of_le_of_lt hlength (by decide))

/-- There is a copy for each time that something may occur. -/
theorem most_le_copies {least most : Nat} : most ≤ (⟨least, some most⟩ : Repetition).copies :=
  Nat.le_max_left most 1

theorem copies_pos (r : Repetition) : 0 < r.copies := by
  unfold Repetition.copies
  split
  · exact Nat.lt_of_lt_of_le Nat.zero_lt_one (Nat.le_max_right _ 1)
  · exact Nat.succ_pos _

theorem repeats_chars : ∀ {r : Repetition}, r.Writable → r.copies < numberLimit →
    Repeats Counted r.chars r
  | ⟨0, none⟩, _, _ => .any
  | ⟨1, none⟩, _, _ => .atLeastOnce
  | ⟨_ + 2, none⟩, h, _ => absurd h (by simp [Repetition.Writable])
  | ⟨least, some most⟩, h, hc => by
      have hmost : most < numberLimit := Nat.lt_of_le_of_lt most_le_copies hc
      have hleast : least < numberLimit := Nat.lt_of_le_of_lt h hmost
      simpa [Repetition.chars] using
        Repeats.between (numeral_toDigits hleast) (numeral_toDigits hmost) h

theorem acts_chars {a : Action} (h : a.Writable) (hc : a.repetition.copies < numberLimit) :
    Acts Counted a.chars a := by
  obtain ⟨⟨phase, n⟩, t, r⟩ := a
  have ht : Targets ('/' :: (t.toList ++ ['/'])) t := by
    simpa using Targets.slashes h.target
  simpa [Action.chars, Key.chars] using
    Acts.mk (numeral_toDigits h.slot_lt) h.slot_pos ht (repeats_chars h.repetition hc)

theorem joined_of_two_le {es : List Expression} (h : 2 ≤ es.length) : joined es = .options es := by
  match es with
  | [] => simp at h
  | [_] => simp at h
  | _ :: _ :: _ => rfl

/-- A group has at least as many states as its members. -/
theorem bodyBound_lt {name : Option String} {body : List Expression} {r : Repetition} :
    Expression.bodyBound body < (Expression.group name body r).bound := by
  rw [Expression.bound]
  have := Nat.le_mul_of_pos_right (Expression.bodyBound body + 1) (copies_pos r)
  omega

theorem copies_lt {name : Option String} {body : List Expression} {r : Repetition} :
    r.copies < (Expression.group name body r).bound := by
  rw [Expression.bound]
  exact Nat.lt_succ_of_le (Nat.le_mul_of_pos_left r.copies (Nat.succ_pos _))

mutual

/-- **An item is written as it is shown.** -/
theorem item_chars : ∀ {e : Expression}, e.Writable → e.isOptions = false →
    e.bound < numberLimit → Item Counted e.chars e
  | .action a, h, _, hb => by
      rw [Expression.Writable] at h
      rw [Expression.bound] at hb
      rw [Expression.chars]
      exact .action (acts_chars h hb)
  | .group name body r, h, _, hb => by
      rw [Expression.Writable] at h
      obtain ⟨rfl, hbody, hr⟩ := h
      rw [Expression.chars]
      exact .group (sequence_chars hbody (Nat.lt_trans bodyBound_lt hb))
        (repeats_chars hr (Nat.lt_trans copies_lt hb))
  | .options _, _, hi, _ => absurd hi (by simp [Expression.isOptions])

/-- Alternatives are written as they are shown. -/
theorem alternatives_chars : ∀ {es : List Expression}, es ≠ [] → Expression.AllWritable es →
    (∀ e ∈ es, e.isOptions = false) → Expression.optionsBound es < numberLimit →
      Alternatives Counted (Expression.optionsChars es) es
  | [], hne, _, _, _ => absurd rfl hne
  | [e], _, h, hi, hb => by
      rw [Expression.AllWritable] at h
      rw [Expression.optionsBound] at hb
      rw [Expression.optionsChars]
      exact .one (item_chars h.1 (hi e List.mem_cons_self) (by omega))
  | e :: f :: es, _, h, hi, hb => by
      rw [Expression.AllWritable] at h
      rw [Expression.optionsBound] at hb
      rw [Expression.optionsChars]
      · exact .more (item_chars h.1 (hi e List.mem_cons_self) (by omega))
          (alternatives_chars (List.cons_ne_nil f es) h.2
            (fun g hg => hi g (List.mem_cons_of_mem e hg)) (by omega))
      · exact List.cons_ne_nil f es

/-- A sequence is written as it is shown: what begins an expression ends the one before. -/
theorem sequence_chars : ∀ {es : List Expression}, Expression.AllWritable es →
    Expression.bodyBound es < numberLimit → Sequence Counted (Expression.sequenceChars es) es
  | [], _, _ => by
      rw [Expression.sequenceChars]
      exact .nil
  | .action a :: es, h, hb => by
      rw [Expression.AllWritable] at h
      rw [Expression.bodyBound] at hb
      rw [Expression.sequenceChars]
      exact .cons (.one (item_chars h.1 rfl (by omega))) (sequence_chars h.2 (by omega))
  | .group name body r :: es, h, hb => by
      rw [Expression.AllWritable] at h
      rw [Expression.bodyBound] at hb
      rw [Expression.sequenceChars]
      exact .cons (.one (item_chars h.1 rfl (by omega))) (sequence_chars h.2 (by omega))
  | .options alternatives :: es, h, hb => by
      rw [Expression.AllWritable, Expression.Writable] at h
      obtain ⟨⟨htwo, hitems, halternatives⟩, hes⟩ := h
      rw [Expression.bodyBound, Expression.bound] at hb
      have hne : alternatives ≠ [] := by
        rintro rfl
        simp at htwo
      rw [Expression.sequenceChars, Expression.chars, ← joined_of_two_le htwo]
      exact .cons (alternatives_chars hne halternatives hitems (by omega))
        (sequence_chars hes (by omega))

end

/-! ### What the rules write is writable -/

variable {P : List Char → Prop}

theorem Repeats.writable {m : List Char} {r : Repetition} (h : Repeats P m r) : r.Writable := by
  cases h with
  | between _ _ hle => exact hle
  | exactly => exact Nat.le_refl _
  | once => exact Nat.le_refl _
  | atLeastOnce => exact Nat.le_refl _
  | any => exact Nat.zero_le _
  | optional => exact Nat.zero_le _

/-- The target that is meant where none is written could be written. -/
theorem closed_anyTarget : Closed anyTarget.toList :=
  (closed_nil.concat (c := '.') (by decide) (by decide)).concat (c := '*') (by decide) (by decide)

theorem Targets.closed {s : List Char} {t : String} (h : Targets s t) : Closed t.toList := by
  cases h with
  | any => exact closed_anyTarget
  | slashes ht => simpa using ht

theorem Acts.writable {s : List Char} {a : Action} (h : Acts P s a) : a.Writable := by
  obtain ⟨hn, hpos, ht, hr⟩ := h
  exact ⟨hpos, hn.lt, ht.closed, hr.writable⟩

theorem joined_writable {es : List Expression} (hne : es ≠ []) (h : Expression.AllWritable es)
    (hi : ∀ e ∈ es, e.isOptions = false) : (joined es).Writable := by
  match es with
  | [] => exact absurd rfl hne
  | [e] =>
      rw [Expression.AllWritable] at h
      exact h.1
  | e :: f :: es =>
      rw [joined, Expression.Writable]
      · exact ⟨by simp, hi, h⟩
      · simp

mutual

theorem Item.writable : ∀ {s : List Char} {e : Expression}, Item P s e →
    e.Writable ∧ e.isOptions = false
  | _, _, .action ha => ⟨by rw [Expression.Writable]; exact ha.writable, rfl⟩
  | _, _, .group hs hm =>
      ⟨by rw [Expression.Writable]; exact ⟨rfl, hs.writable, hm.writable⟩, rfl⟩

theorem Alternatives.writable : ∀ {s : List Char} {es : List Expression}, Alternatives P s es →
    es ≠ [] ∧ Expression.AllWritable es ∧ ∀ e ∈ es, e.isOptions = false
  | _, _, .one he => by
      obtain ⟨hw, hi⟩ := he.writable
      rw [Expression.AllWritable, Expression.AllWritable]
      exact ⟨List.cons_ne_nil _ _, ⟨hw, trivial⟩, List.forall_mem_singleton.mpr hi⟩
  | _, _, .more he ha => by
      obtain ⟨hw, hi⟩ := he.writable
      obtain ⟨-, hws, his⟩ := ha.writable
      rw [Expression.AllWritable]
      exact ⟨List.cons_ne_nil _ _, ⟨hw, hws⟩, List.forall_mem_cons.mpr ⟨hi, his⟩⟩

theorem Sequence.writable : ∀ {s : List Char} {es : List Expression}, Sequence P s es →
    Expression.AllWritable es
  | _, _, .nil => by
      rw [Expression.AllWritable]
      trivial
  | _, _, .cons ha hs => by
      obtain ⟨hne, hws, his⟩ := ha.writable
      rw [Expression.AllWritable]
      exact ⟨joined_writable hne hws his, hs.writable⟩

end

/-! ### Patterns -/

/-- Within the limits, the members of a sequence are small enough for every number to be read. -/
theorem bodyBound_lt_statesBound (es : List Expression) :
    Expression.bodyBound es < statesBound es := by
  unfold statesBound
  induction es with
  | nil => simp [Expression.bodyBound]
  | cons e es ih =>
      rw [Expression.bodyBound, List.map_cons, List.sum_cons]
      omega

theorem derives_chars {es : List Expression} (h : Expression.Expressible es) :
    Derives Counted (Expression.sequenceChars es) es where
  sequence := by
    have hlt : statesBound es < numberLimit := Nat.lt_of_le_of_lt h.states_le (by decide)
    exact sequence_chars h.writable (Nat.lt_trans (bodyBound_lt_statesBound es) hlt)
  nesting_le := h.nesting_le
  states_le := h.states_le

theorem Derives.expressible {text : List Char} {es : List Expression} (h : Derives P text es) :
    Expression.Expressible es :=
  ⟨h.sequence.writable, h.nesting_le, h.states_le⟩

end Grammar

namespace Expression

theorem toList_join_text (es : List Expression) :
    (String.join (es.map text)).toList = sequenceChars es := by
  induction es with
  | nil => simp [sequenceChars]
  | cons e es ih =>
      rw [List.map_cons, String.join_cons, String.toList_append, ih, sequenceChars, text,
        String.toList_ofList]

/-- **Texts and patterns are inverse to one another.**  The texts of expressible expressions, one
after the other, are read as these expressions, and what is read is expressible. -/
theorem read_join_text :
    (∀ es, Expressible es → read (String.join (es.map text)) = .ok es) ∧
      ∀ pattern es, read pattern = .ok es → Expressible es := by
  refine ⟨fun es h => ?_, fun pattern es h => ?_⟩
  · rw [read, toList_join_text, Grammar.read_complete (Grammar.derives_chars h)]
  · unfold read at h
    split at h
    · next hr =>
        cases h
        exact (Grammar.read_sound hr).expressible
    · cases h

/-- A group that may be missing, of a choice and a contact with the greatest slot. -/
def optionalChoice : List Expression :=
  [.group none
    [.options [.action ⟨⟨.press, 1⟩, "a\\/b", .atLeastOnce⟩, .group none [] .any],
      .action ⟨⟨.release, 4294967295⟩, ".*", ⟨2, some 3⟩⟩]
    .optional]

theorem read_join_text_optionalChoice :
    Expressible optionalChoice ∧
      String.join (optionalChoice.map text) =
        "(d1/a\\/b/+|()*u4294967295/.*/\x7b2,3\x7d)\x7b0,1\x7d" ∧
      read (String.join (optionalChoice.map text)) = .ok optionalChoice := by
  have htarget : Grammar.Closed "a\\/b".toList :=
    ((Grammar.closed_nil.concat (c := 'a') (by decide) (by decide)).escape '/').concat
      (c := 'b') (by decide) (by decide)
  have hpress : Action.Writable ⟨⟨.press, 1⟩, "a\\/b", .atLeastOnce⟩ :=
    ⟨by decide, by decide, htarget, Nat.le_refl 1⟩
  have hrelease : Action.Writable ⟨⟨.release, 4294967295⟩, ".*", ⟨2, some 3⟩⟩ :=
    ⟨by decide, by decide, Grammar.closed_anyTarget, Nat.le_succ 2⟩
  have hwritable : AllWritable optionalChoice := by
    simp [optionalChoice, AllWritable, Writable, hpress, hrelease, isOptions, Repetition.any,
      Repetition.optional, Repetition.Writable]
  have h : Expressible optionalChoice := ⟨hwritable, by decide, by decide⟩
  exact ⟨h, rfl, read_join_text.1 optionalChoice h⟩

end Expression

end Multitouch
