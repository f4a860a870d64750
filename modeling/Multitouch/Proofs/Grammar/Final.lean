import Mathlib.Algebra.Order.Ring.Nat
import Mathlib.Data.List.TakeWhile
import Multitouch.Proofs.Grammar.Prefix

/-!
# Which refusals stay when more is typed

A fault that is not due to the text's end stays (`run_extend`).  That there are too many states may
be said of an item at the text's end, and there more text can still change the item: its slot, its
target and its repetition.  But it cannot ask for fewer copies than one (`repetition_copies_le`).
So the item, if it can be read at all, has as many states as before; and if a bar comes after it,
the states of the expression are too many already and every alternative adds to them.  A reader with
such an expression is `Doomed`: it stays so with every step, and does not come to an end
(`Doomed.run`).

`Expression.read_error_append` says what this is for a pattern: which errors are definite, and what
it takes for one to be cured.
-/

namespace Multitouch

namespace Grammar

variable {text rest more : List Char} {f : Fault}

/-! ### Copies -/

theorem number_cause (h : number text = .error f) : f.cause = .numberTooLarge := by
  simp only [number] at h
  split at h <;> cases h
  rfl

theorem bounds_cause {opening : List Char} (h : bounds opening text = .error f) :
    f.cause ≠ .tooManyStates := by
  unfold bounds at h
  split at h
  · next hn =>
      cases h
      simp [number_cause hn]
  · cases h
    simp
  · cases h
  · split at h
    · next hm =>
        cases h
        simp [number_cause hm]
    · cases h
      simp
    · split at h <;> cases h
      simp
    · cases h
      simp
  · cases h
    simp

theorem repetition_cause (h : repetition text = .error f) : f.cause ≠ .tooManyStates := by
  unfold repetition at h
  split at h
  · cases h
  · cases h
  · cases h
  · exact bounds_cause h
  · cases h

theorem slot_cause (h : slot text = .error f) : f.cause ≠ .tooManyStates := by
  unfold slot at h
  split at h
  · next hn =>
      cases h
      simp [number_cause hn]
  · cases h
    simp
  · cases h
    simp
  · cases h

theorem target_cause (h : target text = .error f) : f.cause ≠ .tooManyStates := by
  unfold target at h
  split at h
  · split at h <;> cases h
    simp
  · cases h

/-- States are not counted in an action. -/
theorem action_cause (h : action text = .error f) : f.cause ≠ .tooManyStates := by
  unfold action at h
  split at h
  · cases h
    simp
  · split at h
    · cases h
      simp
    · split at h
      · next hs =>
          cases h
          exact slot_cause hs
      · split at h
        · next ht =>
            cases h
            exact target_cause ht
        · split at h
          · next hr =>
              cases h
              exact repetition_cause hr
          · cases h

/-- **A repetition that is typed on does not ask for fewer copies.** -/
theorem repetition_copies_le {left left' : List Char} {r r' : Repetition}
    (h : repetition text = .ok (r, left)) (h' : repetition (text ++ more) = .ok (r', left')) :
    r.copies ≤ r'.copies := by
  cases text with
  | nil =>
      -- so far it is once, and there is no repetition with less than one copy
      cases h
      exact copies_pos r'
  | cons c text =>
      rw [repetition_extend_of_ne_nil (List.cons_ne_nil c text) (by simp [h]), h] at h'
      cases h'
      exact Nat.le_refl _

theorem action_copies_le {left left' : List Char} {a a' : Action}
    (h : action text = .ok (a, left)) (h' : action (text ++ more) = .ok (a', left')) :
    a.repetition.copies ≤ a'.repetition.copies := by
  rw [action_eq] at h h'
  cases hd : actionHead text with
  | error e =>
      rw [hd] at h
      cases h
  | ok x =>
      obtain ⟨⟨key, target⟩, tail⟩ := x
      simp only [hd] at h
      by_cases htail : tail = []
      · subst htail
        cases h
        exact copies_pos _
      · rw [actionHead_extend (hd ▸ htail), hd] at h'
        simp only [Reading.extend, id_eq] at h'
        split at h
        · cases h
        · next hr =>
            cases h
            split at h'
            · cases h'
            · next hr' =>
                cases h'
                exact repetition_copies_le hr hr'

/-! ### Expressions with too many states -/

/-- The alternatives of the outermost expression that is being read, the latest first. -/
def pending (alternatives : List Expression) : List Frame → List Expression
  | [] => alternatives
  | frame :: frames => pending frame.alternatives frames

theorem optionsBound_eq (es : List Expression) :
    Expression.optionsBound es = (es.map Expression.bound).sum := by
  induction es with
  | nil => rfl
  | cons e es ih => rw [Expression.optionsBound, ih, List.map_cons, List.sum_cons]

namespace Progress

variable {p q : Progress} {e e' : Expression} {c : Char} {frame : Frame} {frames : List Frame}

theorem bound_close (p : Progress) (e : Expression) :
    (p.close e).bound = e.bound + Expression.optionsBound p.alternatives := by
  unfold close
  split
  · next hnil => rw [hnil, Expression.optionsBound, Nat.add_zero]
  · rw [Expression.bound, optionsBound_eq, List.map_reverse, List.sum_reverse, optionsBound_eq,
      List.map_cons, List.sum_cons]

/-- A complete expression is refused only for its states, and only on the outermost level. -/
theorem take_error (h : p.take e text = .error f) :
    p.frames = [] ∧ maxStates < p.states + (p.close e).bound + 1 := by
  unfold take at h
  split at h
  · cases h
  · split at h
    · next ha =>
        cases h
        unfold add at ha
        split at ha
        · next hframes =>
            split at ha
            · cases ha
            · next hmany => exact ⟨hframes, Nat.lt_of_not_le hmany⟩
        · cases ha
    · cases h

/-- The alternatives of the outermost expression have too many states already. -/
structure Doomed (p : Progress) : Prop where
  begun : pending p.alternatives p.frames ≠ []
  exceeds : maxStates < p.states + Expression.optionsBound (pending p.alternatives p.frames) + 1

/-- An item with which the outermost expression has too many states does not complete it. -/
theorem doomed_of_take (hframes : p.frames = [])
    (hmany : maxStates < p.states + (p.close e).bound + 1) (ht : p.take e text = .ok (q, rest)) :
    q.Doomed := by
  unfold take at ht
  split at ht
  · cases ht
    rw [bound_close] at hmany
    have hpending : pending (e :: p.alternatives) p.frames = e :: p.alternatives := by
      rw [hframes, pending]
    refine ⟨by simp [hpending], ?_⟩
    rwa [hpending, Expression.optionsBound]
  · unfold add at ht
    rw [if_pos hframes, if_neg (Nat.not_le_of_lt hmany)] at ht
    cases ht

namespace Doomed

theorem take (h : p.Doomed) (ht : p.take e text = .ok (q, rest)) : q.Doomed := by
  cases hframes : p.frames with
  | nil =>
      have hexceeds := h.exceeds
      rw [hframes, pending] at hexceeds
      refine doomed_of_take hframes ?_ ht
      rw [bound_close]
      omega
  | cons frame frames =>
      -- the alternatives of the outermost expression are those before a group, and stay
      have hpending : ∀ alternatives, pending alternatives p.frames =
          pending p.alternatives p.frames := fun _ => by rw [hframes, pending, pending]
      have hdoomed : ∀ members alternatives,
          ({ p with members, alternatives } : Progress).Doomed := fun _ alternatives =>
        ⟨hpending alternatives ▸ h.begun, hpending alternatives ▸ h.exceeds⟩
      unfold Progress.take at ht
      split at ht
      · cases ht
        exact hdoomed _ _
      · unfold add at ht
        rw [if_neg (by simp [hframes])] at ht
        cases ht
        exact hdoomed _ _

theorem back (h : p.Doomed) (hf : p.frames = frame :: frames) : (p.back frame frames).Doomed := by
  obtain ⟨hbegun, hexceeds⟩ := h
  rw [hf] at hbegun hexceeds
  exact ⟨hbegun, hexceeds⟩

theorem step (h : p.Doomed) (hs : p.step c text = .ok (q, rest)) : q.Doomed := by
  obtain ⟨start, hbegin⟩ := begin_eq p (c :: text)
  have hbegun : ({ p with start } : Progress).Doomed := ⟨h.begun, h.exceeds⟩
  unfold Progress.step at hs
  rw [hbegin] at hs
  split at hs
  · unfold closeGroup at hs
    split at hs
    · cases hs
    · next hframes =>
        split at hs
        · cases hs
        · exact (h.back hframes).take hs
  · split at hs
    · split at hs
      · cases hs
      · next ho =>
          cases hs
          unfold openGroup at ho
          split at ho
          · cases ho
          · cases ho
            exact ⟨h.begun, h.exceeds⟩
    · split at hs
      · cases hs
      · exact hbegun.take hs

/-- **What has too many states is not read, whatever follows.** -/
theorem run (h : p.Doomed) (text : List Char) : ∃ f, p.run text = .error f := by
  fun_induction Progress.run p text with
  | case1 p =>
      unfold finish
      split
      · exact ⟨_, rfl⟩
      · next hnone =>
          split
          · exact ⟨_, rfl⟩
          · next hframes =>
              have hbegun := h.begun
              rw [hframes] at hbegun
              exact absurd hbegun hnone
  | case2 p c text f _ => exact ⟨f, rfl⟩
  | case3 p c text q rest hs ih => exact ih (h.step hs)

end Doomed

/-- If there are too many states with an item, there are with an item of as many in its place. -/
theorem take_exceeds {text' : List Char} (h : p.take e text = .error f) (hle : e.bound ≤ e'.bound)
    (ht : (p.extend more).take e' text' = .ok (q, rest)) : q.Doomed := by
  obtain ⟨hframes, hmany⟩ := take_error h
  have hframes' : (p.extend more).frames = [] := by rw [extend, hframes, List.map_nil]
  refine doomed_of_take hframes' (hmany.trans_le ?_) ht
  rw [bound_close, bound_close]
  simp only [extend]
  gcongr

theorem closeGroup_exceeds {closing closing' : List Char}
    (h : p.closeGroup closing text = .error f) (hf : f.cause = .tooManyStates)
    (hs : (p.extend more).closeGroup closing' (text ++ more) = .ok (q, rest)) : q.Doomed := by
  unfold closeGroup at h hs
  cases hframes : p.frames with
  | nil =>
      rw [hframes] at h
      cases h
      cases hf
  | cons frame frames =>
      rw [frames_extend hframes] at hs
      simp only [hframes] at h hs
      split at h
      · next hr =>
          cases h
          exact absurd hf (repetition_cause hr)
      · next r left hr =>
          split at hs
          · cases hs
          · next r' left' hr' =>
              have hcopies := repetition_copies_le hr hr'
              refine take_exceeds (p := p.back frame frames) h ?_ hs
              simp only [Expression.bound, extend]
              gcongr

/-- **If an expression has too many states, it is not completed when the text goes on.** -/
theorem step_exceeds (h : p.step c text = .error f) (hf : f.cause = .tooManyStates)
    (hs : (p.extend more).step c (text ++ more) = .ok (q, rest)) : q.Doomed := by
  have halternatives : (p.extend more).alternatives = p.alternatives := rfl
  unfold step at h hs
  rw [halternatives, begin_extend] at hs
  split at h
  · next hc =>
      rw [if_pos hc] at hs
      exact closeGroup_exceeds h hf hs
  · next hc =>
      rw [if_neg hc] at hs
      split at h
      · split at h
        · next ho =>
            cases h
            unfold openGroup at ho
            split at ho <;> cases ho
            cases hf
        · cases h
      · next hc =>
          rw [if_neg hc] at hs
          split at h
          · next ha =>
              cases h
              exact absurd hf (action_cause ha)
          · next a left ha =>
              split at hs
              · cases hs
              · next a' left' ha' =>
                  refine take_exceeds h ?_ hs
                  rw [Expression.bound, Expression.bound]
                  exact action_copies_le ha ha'

/-- States are not counted at the end of the text. -/
theorem finish_cause (h : p.finish = .error f) : f.cause ≠ .tooManyStates := by
  unfold finish at h
  split at h
  · cases h
    simp
  · split at h <;> cases h
    simp

/-- **A pattern with too many states is refused, whatever follows.** -/
theorem run_exceeds (h : p.run text = .error f) (hf : f.cause = .tooManyStates) :
    ∃ f', (p.extend more).run (text ++ more) = .error f' := by
  fun_induction run p text with
  | case1 p => exact absurd hf (finish_cause h)
  | case2 p c text e hs =>
      cases h
      cases hs' : (p.extend more).step c (text ++ more) with
      | error f' => exact ⟨f', run_of_fault hs'⟩
      | ok x =>
          obtain ⟨q, rest⟩ := x
          obtain ⟨f', hrun⟩ := (step_exceeds hs hf hs').run rest
          exact ⟨f', (run_of_step hs').trans hrun⟩
  | case3 p c text q rest hs ih =>
      have hrest : rest ≠ [] := fun hnil => by
        rw [hnil, run] at h
        exact finish_cause h hf
      have hsettled : Settled (p.step c text) := hs ▸ hrest
      have hstep : (p.extend more).step c (text ++ more) = _ := step_extend hsettled
      rw [hs] at hstep
      obtain ⟨f', hrun⟩ := ih h
      exact ⟨f', (run_of_step hstep).trans hrun⟩

/-- Where an outermost expression starts is noted when it starts. -/
theorem run_start (hframes : p.frames = []) (halternatives : p.alternatives = [])
    (start text : List Char) : ({ p with start } : Progress).run text = p.run text := by
  cases text with
  | nil => rw [run, run, finish, finish]
  | cons c text =>
      have hstep : ({ p with start } : Progress).step c text = p.step c text := by
        unfold step begin closeGroup
        simp only [hframes, halternatives, and_self, if_true]
      rw [run, run, hstep]

end Progress

theorem read_extend (h : read text = .error f) (hf : f.Final) (more : List Char) :
    read (text ++ more) = .error (f.extend more) :=
  (Progress.run_start rfl rfl _ _).symm.trans (Progress.run_extend h hf)

theorem read_exceeds (h : read text = .error f) (hf : f.cause = .tooManyStates)
    (more : List Char) : ∃ f', read (text ++ more) = .error f' := by
  obtain ⟨f', hrun⟩ : ∃ f', (Progress.extend more {}).run (text ++ more) = .error f' :=
    Progress.run_exceeds h hf
  exact ⟨f', (Progress.run_start rfl rfl _ _).symm.trans hrun⟩

end Grammar

/-! ### Patterns -/

namespace PatternError

open Grammar

/-- The error is definite: nothing that is typed after the pattern `s` takes it away.  Where a slot
or a part of a repetition is missing, something else has to stand there; and a slot of zeros has to
be at its end. -/
def Definite (s : String) (e : PatternError) : Prop :=
  match e.cause with
  | .unknownPhase _ | .numberTooLarge | .strayClose | .invertedBounds _ _ | .nestingTooDeep => True
  | .missingSlot | .malformedRepetition _ => e.position < s.utf8ByteSize
  | .zeroSlot => ∃ b ∈ (Utf8.bytes s).drop e.position, ¬ (48 ≤ b ∧ b ≤ 57)
  | .missingItem | .openTarget | .openGroup | .tooManyStates => False

/-- The error is due to the end of the pattern `s`: something is missing there, a slot of zeros may
still go on, or a target or a group has not been closed until then. -/
def AtEnd (s : String) (e : PatternError) : Prop :=
  match e.cause with
  | .missingItem | .missingSlot | .malformedRepetition _ => e.position = s.utf8ByteSize
  | .zeroSlot => ∀ b ∈ (Utf8.bytes s).drop e.position, 48 ≤ b ∧ b ≤ 57
  | .openTarget | .openGroup => True
  | .unknownPhase _ | .numberTooLarge | .strayClose | .invertedBounds _ _ | .nestingTooDeep
  | .tooManyStates => False

/-- The errors that are neither are those of too many states. -/
theorem definite_or_atEnd {s : String} {e : PatternError} (hle : e.position ≤ s.utf8ByteSize)
    (hmissing : e.cause = .missingItem → e.position = s.utf8ByteSize)
    (hmany : e.cause ≠ .tooManyStates) : e.Definite s ∨ e.AtEnd s := by
  obtain ⟨cause, position⟩ := e
  unfold Definite AtEnd
  cases cause with
  | missingItem => exact .inr (hmissing rfl)
  | missingSlot => exact hle.lt_or_eq
  | malformedRepetition _ => exact hle.lt_or_eq
  | zeroSlot =>
      by_cases hdigits : ∀ b ∈ (Utf8.bytes s).drop position, 48 ≤ b ∧ b ≤ 57
      · exact .inr hdigits
      · exact .inl (by simpa only [not_forall, exists_prop] using hdigits)
  | openTarget => exact .inr trivial
  | openGroup => exact .inr trivial
  | tooManyStates => exact absurd rfl hmany
  | _ => exact .inl trivial

end PatternError

namespace Grammar

/-- A digit is a byte of its own. -/
theorem digit_of_mem_ofText {digits : List Char} (h : ∀ c ∈ digits, c.isDigit = true) {b : Nat}
    (hb : b ∈ Utf8.ofText digits) : 48 ≤ b ∧ b ≤ 57 := by
  obtain ⟨c, hc, hb⟩ := List.mem_flatMap.mp hb
  have hdigit : 48 ≤ c.toNat ∧ c.toNat ≤ 57 := by
    simpa [Char.isDigit, UInt32.le_iff_toNat_le] using h c hc
  rw [Utf8.encode, if_pos (by omega), List.mem_singleton] at hb
  exact hb ▸ hdigit

/-- What is definite as an error of a pattern is final as a fault in its text. -/
theorem Fault.final_of_definite {s : String} {before : List Char} {f : Fault}
    (hs : s.toList = before ++ f.rest)
    (h : PatternError.Definite s ⟨f.cause, (Utf8.ofText before).length⟩) : f.Final := by
  have hbytes : Utf8.bytes s = Utf8.ofText before ++ Utf8.ofText f.rest := by
    rw [Utf8.bytes_eq, hs, Utf8.ofText_append]
  have hrest : (Utf8.ofText before).length < s.utf8ByteSize → f.rest ≠ [] := by
    intro hlt hnil
    rw [← Utf8.length_bytes, hbytes, hnil, List.length_append] at hlt
    exact Nat.lt_irrefl _ hlt
  unfold PatternError.Definite at h
  unfold Final
  cases hcause : f.cause with
  | zeroSlot =>
      simp only [hcause, hbytes, List.drop_left] at h
      obtain ⟨b, hb, hdigit⟩ := h
      exact fun hnil => hdigit (digit_of_mem_ofText (List.dropWhile_eq_nil_iff.mp hnil) hb)
  | missingSlot =>
      rw [hcause] at h
      exact hrest h
  | malformedRepetition _ =>
      rw [hcause] at h
      exact hrest h
  | _ =>
      rw [hcause] at h
      exact h

end Grammar

namespace Expression

open Grammar

variable {s : String} {e : PatternError}

/-- A pattern is refused with the cause of its fault, and the bytes before it. -/
theorem read_of_fault {before : List Char} {f : Fault} (h : Grammar.read s.toList = .error f)
    (hs : s.toList = before ++ f.rest) :
    Expression.read s = .error ⟨f.cause, (Utf8.ofText before).length⟩ := by
  unfold Expression.read
  rw [h]
  dsimp only
  rw [hs, position_eq]

theorem fault_of_read (h : Expression.read s = .error e) :
    ∃ (before : List Char) (f : Fault), Grammar.read s.toList = .error f ∧
      s.toList = before ++ f.rest ∧ e = ⟨f.cause, (Utf8.ofText before).length⟩ := by
  cases hf : Grammar.read s.toList with
  | ok es =>
      unfold Expression.read at h
      rw [hf] at h
      cases h
  | error f =>
      obtain ⟨before, hs, -⟩ := read_fault hf
      rw [read_of_fault hf hs] at h
      cases h
      exact ⟨before, f, rfl, hs, rfl⟩

/-- **Only errors that are due to the end of a pattern can be cured by typing on.**  With more text
after it, a definite error stays as it is, where it is; a pattern with too many states is still
refused; and if the longer pattern is read, the error was at the end. -/
theorem read_error_append (h : Expression.read s = .error e) (t : String) :
    (e.Definite s → Expression.read (s ++ t) = .error e) ∧
      (e.cause = .tooManyStates → ∃ e', Expression.read (s ++ t) = .error e') ∧
      ∀ es, Expression.read (s ++ t) = .ok es → e.AtEnd s := by
  have hdefinite : e.Definite s → Expression.read (s ++ t) = .error e := by
    intro hdefinite
    obtain ⟨before, f, hf, hs, rfl⟩ := fault_of_read h
    have hlonger := read_extend hf (Fault.final_of_definite hs hdefinite) t.toList
    rw [← String.toList_append] at hlonger
    refine read_of_fault (f := f.extend t.toList) hlonger ?_
    rw [String.toList_append, hs, Fault.extend, List.append_assoc]
  have hmany : e.cause = .tooManyStates → ∃ e', Expression.read (s ++ t) = .error e' := by
    intro hmany
    obtain ⟨before, f, hf, -, rfl⟩ := fault_of_read h
    obtain ⟨f', hlonger⟩ := read_exceeds hf hmany t.toList
    rw [← String.toList_append] at hlonger
    obtain ⟨before', hs', -⟩ := read_fault hlonger
    exact ⟨_, read_of_fault hlonger hs'⟩
  refine ⟨hdefinite, hmany, fun es hes => ?_⟩
  have hle := position_le h
  have hmissing := position_of_missingItem h
  have hcause : e.cause ≠ .tooManyStates := fun hcause => by
    obtain ⟨e', he'⟩ := hmany hcause
    rw [hes] at he'
    cases he'
  refine (PatternError.definite_or_atEnd hle hmissing hcause).resolve_left fun hd => ?_
  rw [hdefinite hd] at hes
  cases hes

/-- A parenthesis that closes nothing, too many copies, and a slot that is missing at the end. -/
theorem read_error_append_slot :
    Expression.read "d1)" = .error ⟨.strayClose, 2⟩ ∧
      Expression.read "d1)u1" = .error ⟨.strayClose, 2⟩ ∧
      Expression.read "d1{99997}" = .error ⟨.tooManyStates, 0⟩ ∧
      (∃ e, Expression.read "d1{99997}|" = .error e) ∧
      Expression.read "d" = .error ⟨.missingSlot, 1⟩ ∧
      (∃ es, Expression.read "d1" = .ok es) ∧
      PatternError.AtEnd "d" ⟨.missingSlot, 1⟩ := by
  have hstray : Expression.read "d1)" = .error ⟨.strayClose, 2⟩ := by decide +kernel
  have hmany : Expression.read "d1{99997}" = .error ⟨.tooManyStates, 0⟩ := by decide +kernel
  have hmissing : Expression.read "d" = .error ⟨.missingSlot, 1⟩ := by decide +kernel
  have hread : Expression.read "d1" = .ok [.action ⟨⟨.press, 1⟩, ".*", .once⟩] := by decide +kernel
  exact ⟨hstray, (read_error_append hstray "u1").1 trivial, hmany,
    (read_error_append hmany "|").2.1 rfl, hmissing, ⟨_, hread⟩,
    (read_error_append hmissing "1").2.2 _ hread⟩

end Expression

end Multitouch
