import Multitouch.Proofs.Grammar.Places
import Multitouch.Proofs.Text.Utf8

/-!
# Where the faults of a pattern are

A pattern that is refused falls into the text before the place of the fault and the text from there
on.  For each cause there are rules for what these two are (`Located`).  The text before is always
a pattern that breaks off: with an item due (`Begun`), with a repetition due (`Bare`), or within
one of the smallest parts.

The rules have one exception.  Where the digits of a number are so many that the reader's counter
takes them for none, a number is reported missing behind them (`Miscounted`).

The readers of the smallest parts place their faults by the rules, up to this exception
(`action_fault`).  They take all the digits there are, so that where a number has been read no
further digit follows.
-/

namespace Multitouch.Grammar

/-! ### Patterns that break off -/

/-- A sequence that breaks off where an item may follow. -/
inductive Begun : List Char → Prop where
  | outer {s u : List Char} {es alternatives : List Expression} :
      Sequence Any s es → Barred Any u alternatives → Begun (s ++ u)
  | inner {before s u : List Char} {es alternatives : List Expression} :
      Begun before → Sequence Any s es → Barred Any u alternatives →
        Begun (before ++ '(' :: (s ++ u))

/-- A sequence that breaks off after an item without a repetition, where one may follow. -/
inductive Bare : List Char → Prop where
  | action {before digits s : List Char} {phase : Phase} {n : Nat} {t : String} :
      Begun before → Numeral Any digits n → 1 ≤ n → Targets s t →
        Bare (before ++ phase.letter :: (digits ++ s))
  | group {before s : List Char} {es : List Expression} :
      Begun before → Sequence Any s es → Bare (before ++ '(' :: (s ++ [')']))

/-- A pattern that breaks off where a number must follow: a slot, or a bound of a repetition. -/
inductive Counts : List Char → Prop where
  | slot {before : List Char} (phase : Phase) : Begun before → Counts (before ++ [phase.letter])
  | least {before : List Char} : Bare before → Counts (before ++ ['{'])
  | most {before s : List Char} {m : Nat} :
      Bare before → Numeral Any s m → Counts (before ++ '{' :: (s ++ [',']))

/-- All the digits between two texts: none stands before them, and none after. -/
structure Run (before digits rest : List Char) : Prop where
  ne_nil : digits ≠ []
  isDigit : ∀ c ∈ digits, c.isDigit = true
  begins : ∀ c ∈ before.getLast?, c.isDigit = false
  ends : Before (fun c => c.isDigit = false) rest

/-! ### The place of a fault -/

/-- With this text before it and this text from it on, a place is one of a fault with the cause. -/
inductive Located : List Char → List Char → Cause → Prop where
  | unknownPhase {before rest : List Char} {c lead : Char} :
      Begun before → c ≠ '(' → Phase.ofLetter? c = none →
        (Utf8.encode c.toNat).head? = some lead.toNat →
          Located before (c :: rest) (.unknownPhase lead)
  | missingItem {before : List Char} :
      Begun (before ++ ['|']) → Located (before ++ ['|']) [] .missingItem
  | missingSlot {before rest : List Char} {phase : Phase} :
      Begun before → Before (fun c => c.isDigit = false) rest →
        Located (before ++ [phase.letter]) rest .missingSlot
  | zeroSlot {before digits rest : List Char} {phase : Phase} :
      Begun before → Run (before ++ [phase.letter]) digits rest → (∀ c ∈ digits, c = '0') →
        Located (before ++ [phase.letter]) (digits ++ rest) .zeroSlot
  | numberTooLarge {before digits rest : List Char} :
      Counts before → Run before digits rest → numberLimit ≤ value digits →
        Located before (digits ++ rest) .numberTooLarge
  | openTarget {before digits rest : List Char} {phase : Phase} {n : Nat} :
      Begun before → Numeral Any digits n →
        (∀ u v, rest = u ++ '/' :: v → trailing u % 2 = 1) →
          Located (before ++ phase.letter :: digits) ('/' :: rest) .openTarget
  | openGroup {before rest : List Char} {depth : Nat} :
      (Place.outside 0).after before = some (.outside depth) → Balanced rest →
        Located before ('(' :: rest) .openGroup
  | strayClose {before rest : List Char} :
      (Place.outside 0).after before = some (.outside 0) →
        Located before (')' :: rest) .strayClose
  | leastMissing {before rest : List Char} :
      Bare before → Before (fun c => c.isDigit = false) rest →
        Located (before ++ ['{']) rest (.malformedRepetition .number)
  | mostMissing {before s rest : List Char} {m : Nat} :
      Bare before → Numeral Any s m → Before (fun c => c.isDigit = false) rest →
        Located (before ++ '{' :: (s ++ [','])) rest (.malformedRepetition .number)
  | commaOrCloseMissing {before s rest : List Char} {m : Nat} :
      Bare before → Numeral Any s m →
        Before (fun c => c.isDigit = false ∧ c ≠ ',' ∧ c ≠ '}') rest →
          Located (before ++ '{' :: s) rest (.malformedRepetition .commaOrClose)
  | closeMissing {before s t rest : List Char} {m n : Nat} :
      Bare before → Numeral Any s m → Numeral Any t n →
        Before (fun c => c.isDigit = false ∧ c ≠ '}') rest →
          Located (before ++ '{' :: (s ++ ',' :: t)) rest (.malformedRepetition .close)
  | invertedBounds {before s t rest : List Char} {m n : Nat} :
      Bare before → Numeral Any s m → Numeral Any t n → n < m →
        Located before ('{' :: (s ++ ',' :: (t ++ '}' :: rest))) (.invertedBounds m n)
  | nestingTooDeep {before rest : List Char} :
      (Place.outside 0).after before = some (.outside maxNesting) →
        Located before ('(' :: rest) .nestingTooDeep
  | tooManyStates {before s rest : List Char} {es : List Expression} {e : Expression} :
      Sequence Any before es → statesBound es ≤ maxStates →
        Sequence Any (before ++ s) (es ++ [e]) → maxStates < statesBound (es ++ [e]) →
          Located before (s ++ rest) .tooManyStates

/-- With this text before it and this text from it on, a place is one where a number with too many
digits for their counter has just ended. -/
inductive Miscounted : List Char → List Char → Cause → Prop where
  | slot {before digits rest : List Char} {phase : Phase} :
      Begun before → Run (before ++ [phase.letter]) digits rest → ¬ Counted digits →
        Miscounted (before ++ [phase.letter] ++ digits) rest .missingSlot
  | least {before digits rest : List Char} :
      Bare before → Run (before ++ ['{']) digits rest → ¬ Counted digits →
        Miscounted (before ++ ['{'] ++ digits) rest (.malformedRepetition .number)
  | most {before s digits rest : List Char} {m : Nat} :
      Bare before → Numeral Any s m → Run (before ++ '{' :: (s ++ [','])) digits rest →
        ¬ Counted digits →
          Miscounted (before ++ '{' :: (s ++ [',']) ++ digits) rest (.malformedRepetition .number)

/-- A place where a fault with the cause is reported: one of the cause by its rules, or one behind
miscounted digits. -/
def Reported (before rest : List Char) (cause : Cause) : Prop :=
  Located before rest cause ∨ Miscounted before rest cause

/-- A fault in what follows `before` is at a place where it is reported. -/
def Fault.Within (f : Fault) (before text : List Char) : Prop :=
  ∃ used, text = used ++ f.rest ∧ Reported (before ++ used) f.rest f.cause

variable {text rest before : List Char} {f : Fault}

theorem Fault.Within.here {cause : Cause} (h : Located before text cause) :
    Fault.Within ⟨cause, text⟩ before text :=
  ⟨[], rfl, .inl ((List.append_nil _).symm ▸ h)⟩

/-- The reader that has found the fault may have been preceded by others. -/
theorem Fault.Within.after {s : List Char} (h : f.Within (before ++ s) text) :
    f.Within before (s ++ text) := by
  obtain ⟨used, rfl, hl⟩ := h
  exact ⟨s ++ used, by rw [List.append_assoc], by rwa [← List.append_assoc]⟩

/-! ### Numbers -/

theorem isDigit_letter (phase : Phase) : phase.letter.isDigit = false := by
  cases phase <;> rfl

theorem Counts.begins (h : Counts before) : ∀ c ∈ before.getLast?, c.isDigit = false := by
  cases h with
  | slot phase _ => simp [isDigit_letter]
  | least _ => simp
  | @most before s _ _ _ =>
      have hlast : before ++ '{' :: (s ++ [',']) = (before ++ '{' :: s) ++ [','] := by simp
      rw [hlast, List.getLast?_concat]
      simp

/-- A reader of numbers takes all digits there are. -/
theorem before_dropWhile (text : List Char) :
    Before (fun c => c.isDigit = false) (text.dropWhile Char.isDigit) := by
  intro c hc
  have hnot := List.head?_dropWhile_not Char.isDigit text
  rwa [Option.mem_def.mp hc] at hnot

theorem number_rest {n : Option Nat} (h : number text = .ok (n, rest)) :
    rest = text.dropWhile Char.isDigit := by
  simp only [number] at h
  split at h <;> cases h
  rfl

/-- Digits at a place where a number is due are all the digits there. -/
theorem Counts.run {digits : List Char} (hb : Counts before) (hne : digits ≠ [])
    (hdigit : ∀ c ∈ digits, c.isDigit = true) (hends : Before (fun c => c.isDigit = false) rest) :
    Run before digits rest :=
  ⟨hne, hdigit, hb.begins, hends⟩

/-- Where no number is found there is no digit, or there are too many for their counter. -/
theorem number_none (hb : Counts before) (h : number text = .ok (none, rest)) :
    rest = text ∧ Before (fun c => c.isDigit = false) text ∨
      ∃ digits, text = digits ++ rest ∧ Run before digits rest ∧ ¬ Counted digits := by
  have hends := before_dropWhile text
  have hsplit := List.takeWhile_append_dropWhile (p := Char.isDigit) (l := text)
  obtain rfl := number_rest h
  by_cases hnil : text.takeWhile Char.isDigit = []
  · rw [hnil, List.nil_append] at hsplit
    exact .inl ⟨hsplit, hsplit ▸ hends⟩
  · refine .inr ⟨_, hsplit.symm,
      hb.run hnil (List.all_eq_true.mp List.all_takeWhile) hends, fun hcounted => ?_⟩
    simp only [number, if_pos hcounted] at h
    split at h <;> cases h

theorem number_some {n : Nat} (h : number text = .ok (some n, rest)) :
    ∃ digits, text = digits ++ rest ∧ Numeral Any digits n ∧
      Before (fun c => c.isDigit = false) rest := by
  obtain ⟨digits, ht, hn⟩ := number_sound h
  exact ⟨digits, ht, hn.any, number_rest h ▸ before_dropWhile text⟩

theorem number_fault (hb : Counts before) (h : number text = .error f) : f.Within before text := by
  simp only [number] at h
  split at h
  · cases h
  · next hle =>
      cases h
      have hne : text.takeWhile Char.isDigit ≠ [] := fun hnil => hle (hnil ▸ by decide)
      have hrun := hb.run hne (List.all_eq_true.mp List.all_takeWhile) (before_dropWhile text)
      have hlocated := Located.numberTooLarge hb hrun (Nat.le_of_not_lt hle)
      rw [List.takeWhile_append_dropWhile] at hlocated
      exact .here hlocated

/-- Digits that stand for zero are zeros. -/
theorem eq_zero_of_value {digits : List Char} (hd : ∀ c ∈ digits, c.isDigit = true)
    (h : value digits = 0) : ∀ c ∈ digits, c = '0' := by
  induction digits with
  | nil => exact nofun
  | cons d digits ih =>
      obtain ⟨hdigit, hd⟩ := List.forall_mem_cons.mp hd
      rw [value, Nat.ofDigitChars_cons, Nat.ofDigitChars_eq_ofDigitChars_zero] at h
      obtain ⟨hfirst, hrest⟩ := Nat.add_eq_zero_iff.mp h
      refine List.forall_mem_cons.mpr ⟨?_, ih hd hrest⟩
      have hle := (Char.isDigit_iff_toNat.mp hdigit).1
      have hzero : 10 * 0 + (d.toNat - '0'.toNat) = 0 :=
        (Nat.mul_eq_zero.mp hfirst).resolve_left (Nat.ne_of_gt (Nat.pow_pos (by decide : 0 < 10)))
      exact Char.toNat_inj.mp (by omega)

/-- What may be asked of the character after a number, beside that it is no digit. -/
theorem Before.and {P Q : Char → Prop} (h : Before P text)
    (hQ : ∀ c tail, text = c :: tail → Q c) : Before (fun c => P c ∧ Q c) text := by
  intro c hc
  obtain ⟨tail, he⟩ := List.head?_eq_some_iff.mp hc
  exact ⟨h c hc, hQ c tail he⟩

/-! ### Parts of actions -/

theorem slot_fault {phase : Phase} (hb : Begun before) (h : slot text = .error f) :
    f.Within (before ++ [phase.letter]) text := by
  unfold slot at h
  split at h
  · next hn =>
      cases h
      exact number_fault (.slot phase hb) hn
  · next hn =>
      cases h
      rcases number_none (.slot phase hb) hn with ⟨rfl, hdigit⟩ | ⟨digits, rfl, hrun, hmany⟩
      · exact .here (.missingSlot hb hdigit)
      · exact ⟨digits, rfl, .inr (.slot hb hrun hmany)⟩
  · next hn =>
      cases h
      obtain ⟨digits, rfl, hnum, hends⟩ := number_some hn
      have hrun := (Counts.slot phase hb).run hnum.ne_nil hnum.isDigit hends
      have hzeros := eq_zero_of_value hnum.isDigit hnum.value_eq
      exact .here (.zeroSlot hb hrun hzeros)
  · cases h

/-- If no slash closes a target, all slashes in it come after an odd number of backslashes. -/
theorem closeTarget_none {seen : List Char} (hs : Closed seen.reverse)
    (h : closeTarget seen text = none) :
    ∀ u v, seen.reverse ++ text = u ++ '/' :: v → trailing u % 2 = 1 := by
  fun_induction closeTarget seen text with
  | case1 seen =>
      rw [List.append_nil]
      exact hs.slash
  | case2 => cases h
  | case3 seen c text ih =>
      have hesc := hs.escape c
      simpa using ih (by simpa using hesc) h
  | case4 seen c text hc hb ih =>
      cases text with
      | nil =>
          intro u v hu
          rcases eq_append_cons hu with ⟨-, he⟩ | ⟨w, hw⟩
          · exact absurd he hc
          · exact hs.slash u w hw
      | cons d text =>
          have hc' : c ≠ '\\' := fun e => hb d text e rfl
          have hadd := hs.concat hc hc'
          simpa using ih (by simpa using hadd) h

theorem target_fault {digits : List Char} {phase : Phase} {n : Nat} (hb : Begun before)
    (hn : Numeral Any digits n) (h : target text = .error f) :
    f.Within (before ++ phase.letter :: digits) text := by
  unfold target at h
  split at h
  · split at h
    · cases h
    · next hnone =>
        cases h
        have hopen := closeTarget_none (by exact closed_nil) hnone
        exact .here (.openTarget hb hn hopen)
  · cases h

/-- A bound of a repetition is read, or it is at fault. -/
theorem bounds_fault (hb : Bare before) (h : bounds ('{' :: text) text = .error f) :
    f.Within before ('{' :: text) := by
  unfold bounds at h
  split at h
  · next hn =>
      cases h
      exact .after (s := ['{']) (number_fault (.least hb) hn)
  · next hn =>
      cases h
      rcases number_none (.least hb) hn with ⟨rfl, hdigit⟩ | ⟨digits, rfl, hrun, hmany⟩
      · exact ⟨['{'], rfl, .inl (.leastMissing hb hdigit)⟩
      · exact .after (s := ['{']) ⟨digits, rfl, .inr (.least hb hrun hmany)⟩
  · cases h
  · next least left hn =>
      obtain ⟨s, rfl, hs, -⟩ := number_some hn
      split at h
      · next hm =>
          cases h
          simpa using (number_fault (.most hb hs) hm).after
      · next hm =>
          cases h
          rcases number_none (.most hb hs) hm with ⟨rfl, hdigit⟩ | ⟨digits, rfl, hrun, hmany⟩
          · exact ⟨'{' :: (s ++ [',']), by simp, .inl (.mostMissing hb hs hdigit)⟩
          · have hplace : Fault.Within ⟨.malformedRepetition .number, _⟩
                (before ++ '{' :: (s ++ [','])) (digits ++ _) :=
              ⟨digits, rfl, .inr (.most hb hs hrun hmany)⟩
            simpa using hplace.after
      · next hm =>
          split at h
          · cases h
          · next hle =>
              cases h
              obtain ⟨t, rfl, ht, -⟩ := number_some hm
              exact .here (.invertedBounds hb hs ht (Nat.lt_of_not_le hle))
      · next hclose hm =>
          cases h
          obtain ⟨t, rfl, ht, hends⟩ := number_some hm
          have hrest := hends.and fun c tail he (hc : c = '}') => hclose tail (hc ▸ he)
          exact ⟨'{' :: (s ++ ',' :: t), by simp, .inl (.closeMissing hb hs ht hrest)⟩
  · next hclose hcomma hn =>
      cases h
      obtain ⟨s, rfl, hs, hends⟩ := number_some hn
      have hrest := hends.and (Q := fun c => c ≠ ',' ∧ c ≠ '}') fun c tail he =>
        ⟨fun hc => hcomma tail (hc ▸ he), fun hc => hclose tail (hc ▸ he)⟩
      exact ⟨'{' :: s, rfl, .inl (.commaOrCloseMissing hb hs hrest)⟩

theorem repetition_fault (hb : Bare before) (h : repetition text = .error f) :
    f.Within before text := by
  unfold repetition at h
  split at h
  · cases h
  · cases h
  · cases h
  · exact bounds_fault hb h
  · cases h

/-! ### Actions -/

/-- The byte that an unknown phase is reported as is the first of the character. -/
theorem head_encode (c : Char) :
    (Utf8.encode c.toNat).head? = some (leadByte c).toNat := by
  have hlt := Utf8.toNat_lt c
  have hbyte : ∀ n < 256, (Char.ofNat n).toNat = n := fun n hn => by
    have hvalid : n.isValidChar := .inl (by omega)
    rw [Char.ofNat, dif_pos hvalid]
    rfl
  unfold Utf8.encode leadByte
  split_ifs
  · rfl
  · rw [hbyte _ (by omega)]
    rfl
  · rw [hbyte _ (by omega)]
    rfl
  · rw [hbyte _ (by omega)]
    rfl

/-- **An action that cannot be read is at fault where its rules say.** -/
theorem action_fault {c : Char} (hb : Begun before) (hc : c ≠ '(')
    (h : action (c :: text) = .error f) : f.Within before (c :: text) := by
  unfold action at h
  split at h
  · next he => cases he
  · next he =>
      cases he
      split at h
      · next hphase =>
          cases h
          exact .here (.unknownPhase hb hc hphase (head_encode c))
      · next phase hphase =>
          obtain rfl := Phase.eq_letter_of_ofLetter? hphase
          split at h
          · next hslot =>
              cases h
              exact .after (s := [phase.letter]) (slot_fault hb hslot)
          · next n left hslot =>
              obtain ⟨digits, rfl, hn, hpos⟩ := slot_sound hslot
              split at h
              · next htarget =>
                  cases h
                  exact .after (s := phase.letter :: digits)
                    (target_fault hb (hn.any) htarget)
              · next t left htarget =>
                  obtain ⟨s, rfl, ht⟩ := target_sound htarget
                  split at h
                  · next hrepetition =>
                      cases h
                      have hbare : Bare (before ++ (phase.letter :: (digits ++ s))) :=
                        .action hb (hn.any) hpos ht
                      simpa using (repetition_fault hbare hrepetition).after
                  · cases h

end Multitouch.Grammar
