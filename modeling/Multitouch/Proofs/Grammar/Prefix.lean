import Multitouch.Proofs.Grammar.Printed
import Multitouch.Proofs.Grammar.Refused

/-!
# What more text does not change

The readers look at a text from left to right, and at no more of it than they need.  A reading is
*settled* if it leaves some of the text, or ends in a fault that is not due to the text's end: then
it is the same if the text goes on (`number_extend` and the like).  What the reader keeps of a text
behind it, the places of open groups and of the outermost expression, goes on with the text, and
nothing depends on it.

So a pattern with such a fault keeps it, whatever is added to it (`run_extend`).
-/

namespace Multitouch.Grammar

variable {α : Type} {text rest more : List Char}

namespace Fault

/-- The same fault in a text that goes on. -/
def extend (more : List Char) (f : Fault) : Fault :=
  ⟨f.cause, f.rest ++ more⟩

/-- More text cannot undo the fault: it is not due to the text's end. -/
def Final (f : Fault) : Prop :=
  match f.cause with
  | .unknownPhase _ | .numberTooLarge | .strayClose | .invertedBounds _ _ | .nestingTooDeep => True
  | .missingSlot | .malformedRepetition _ => f.rest ≠ []
  | .zeroSlot => f.rest.dropWhile Char.isDigit ≠ []
  | .missingItem | .openTarget | .openGroup | .tooManyStates => False

end Fault

/-- The same reading of a text that goes on, where `f` tells what has been read. -/
def Reading.extend (f : α → α) (more : List Char) : Reading α → Reading α
  | .ok (x, rest) => .ok (f x, rest ++ more)
  | .error e => .error (e.extend more)

/-- The reading does not depend on whether the text goes on. -/
def Settled : Reading α → Prop
  | .ok (_, rest) => rest ≠ []
  | .error f => f.Final

/-! ### Numbers -/

theorem value_le_append (s t : List Char) : value s ≤ value (s ++ t) := by
  have hpos : 0 < 10 ^ t.length := Nat.pow_pos (Nat.succ_pos 9)
  rw [value, value, Nat.ofDigitChars_append, Nat.ofDigitChars_eq_ofDigitChars_zero (l := t)]
  exact Nat.le_trans (Nat.le_mul_of_pos_left _ hpos) (Nat.le_add_right _ _)

theorem number_extend (h : Settled (number text)) :
    number (text ++ more) = Reading.extend id more (number text) := by
  by_cases hleft : text.dropWhile Char.isDigit = []
  · -- the digits go on to the end, so there are too many of them already
    have htext : text.takeWhile Char.isDigit = text := by
      have hsplit := List.takeWhile_append_dropWhile (p := Char.isDigit) (l := text)
      rwa [hleft, List.append_nil] at hsplit
    have hmore : (text ++ more).takeWhile Char.isDigit = text ++ more.takeWhile Char.isDigit := by
      rw [List.takeWhile_append, if_pos (congrArg List.length htext)]
    simp only [number, htext, hleft, hmore] at h ⊢
    split at h
    · exact absurd rfl h
    · next hlarge =>
        have hle := value_le_append text (more.takeWhile Char.isDigit)
        rw [if_neg (by omega), if_neg hlarge]
        rfl
  · have hdigits : ∀ c ∈ text.takeWhile Char.isDigit, c.isDigit = true :=
      List.all_eq_true.mp List.all_takeWhile
    have hends : Before (fun c => c.isDigit = false) (text.dropWhile Char.isDigit ++ more) := by
      have hbefore := before_dropWhile text
      cases htail : text.dropWhile Char.isDigit with
      | nil => exact absurd htail hleft
      | cons c tail => exact before_of_head (hbefore c (by rw [htail]; rfl))
    have hsplit : text ++ more =
        text.takeWhile Char.isDigit ++ (text.dropWhile Char.isDigit ++ more) := by
      rw [← List.append_assoc, List.takeWhile_append_dropWhile]
    have htake := takeWhile_digits hdigits hends
    have hdrop := dropWhile_digits hdigits hends
    rw [← hsplit] at htake hdrop
    simp only [number, htake, hdrop]
    split <;> rfl

/-! ### Repetitions -/

/-- A repetition in braces ends with its brace, so only its faults may depend on what follows. -/
theorem bounds_extend {opening : List Char} (h : ∀ f, bounds opening text = .error f → f.Final) :
    bounds (opening ++ more) (text ++ more) = Reading.extend id more (bounds opening text) := by
  unfold bounds at h ⊢
  cases hn : number text with
  | error e =>
      rw [number_extend (hn ▸ h e (by rw [hn])), hn]
      rfl
  | ok x =>
      obtain ⟨_ | least, left⟩ := x
      · have hleft : left ≠ [] := h ⟨.malformedRepetition .number, left⟩ (by rw [hn])
        rw [number_extend (hn ▸ hleft), hn]
        rfl
      rw [hn] at h
      cases left with
      | nil => exact absurd rfl (h ⟨.malformedRepetition .commaOrClose, []⟩ rfl)
      | cons c left =>
          rw [number_extend (hn ▸ List.cons_ne_nil c left), hn]
          by_cases hclose : c = '}'
          · subst hclose
            rfl
          by_cases hcomma : c = ','
          · subst hcomma
            simp only [Reading.extend, id_eq, List.cons_append]
            cases hm : number left with
            | error e =>
                rw [number_extend (hm ▸ h e (by simp only [hm])), hm]
                rfl
            | ok x =>
                obtain ⟨_ | most, left⟩ := x
                · have hleft : left ≠ [] :=
                    h ⟨.malformedRepetition .number, left⟩ (by simp only [hm])
                  rw [number_extend (hm ▸ hleft), hm]
                  rfl
                simp only [hm] at h
                cases left with
                | nil => exact absurd rfl (h ⟨.malformedRepetition .close, []⟩ rfl)
                | cons c left =>
                    rw [number_extend (hm ▸ List.cons_ne_nil c left), hm]
                    by_cases hclose : c = '}'
                    · subst hclose
                      simp only [Reading.extend, List.cons_append, id_eq]
                      split <;> rfl
                    · simp [Reading.extend, hclose, Fault.extend]
          · simp [Reading.extend, hclose, hcomma, Fault.extend]

/-- What a repetition is depends only on what it is written with, if anything follows its place. -/
theorem repetition_extend_of_ne_nil (htext : text ≠ [])
    (h : ∀ f, repetition text = .error f → f.Final) :
    repetition (text ++ more) = Reading.extend id more (repetition text) := by
  cases text with
  | nil => exact absurd rfl htext
  | cons c text =>
      by_cases hc : c ∈ ['+', '*', '?', '{']
      · simp only [List.mem_cons, List.not_mem_nil, or_false] at hc
        rcases hc with rfl | rfl | rfl | rfl
        · rfl
        · rfl
        · rfl
        · exact bounds_extend h
      · simp only [List.mem_cons, List.not_mem_nil, or_false, not_or] at hc
        simp [repetition, hc, Reading.extend]

theorem repetition_extend (h : Settled (repetition text)) :
    repetition (text ++ more) = Reading.extend id more (repetition text) := by
  refine repetition_extend_of_ne_nil (fun hnil => ?_) fun f hf => ?_
  · rw [hnil] at h
    exact h rfl
  · rwa [hf] at h

/-! ### Actions -/

theorem closeTarget_extend {seen t : List Char} (h : closeTarget seen text = some (t, rest)) :
    closeTarget seen (text ++ more) = some (t, rest ++ more) := by
  fun_induction closeTarget seen text with
  | case1 => cases h
  | case2 seen rest =>
      cases h
      rfl
  | case3 seen c text ih => exact ih h
  | case4 seen c text hc hb ih =>
      cases text with
      | nil => cases h
      | cons d text =>
          have hb' : c ≠ '\\' := fun e => hb d text e rfl
          rw [← ih h, List.cons_append, closeTarget.eq_def]
          simp [hb']

theorem target_extend (h : Settled (target text)) :
    target (text ++ more) = Reading.extend id more (target text) := by
  cases text with
  | nil => exact absurd rfl h
  | cons c text =>
      by_cases hc : c = '/'
      · subst hc
        simp only [target, List.cons_append] at h ⊢
        cases ht : closeTarget [] text with
        | none =>
            rw [ht] at h
            exact h.elim
        | some x => rw [closeTarget_extend ht]; rfl
      · simp [target, hc, Reading.extend]

theorem slot_extend (h : Settled (slot text)) :
    slot (text ++ more) = Reading.extend id more (slot text) := by
  unfold slot at h ⊢
  have hnumber : Settled (number text) := by
    cases hn : number text with
    | error e =>
        rw [hn] at h
        exact h
    | ok x =>
        obtain ⟨n, rest⟩ := x
        rw [hn] at h
        match n with
        | none => exact h
        | some 0 => exact number_rest hn ▸ h
        | some (n + 1) => exact h
  rw [number_extend hnumber]
  cases hn : number text with
  | error e => rfl
  | ok x =>
      obtain ⟨n, rest⟩ := x
      match n with
      | none => rfl
      | some 0 => rfl
      | some (n + 1) => rfl

/-- Reads an action up to its repetition. -/
def actionHead : List Char → Reading (Key × String)
  | [] => .error ⟨.missingItem, []⟩
  | c :: rest =>
    match Phase.ofLetter? c with
    | none => .error ⟨.unknownPhase (leadByte c), c :: rest⟩
    | some phase =>
      match slot rest with
      | .error e => .error e
      | .ok (slot, rest) =>
        match target rest with
        | .error e => .error e
        | .ok (target, rest) => .ok ((⟨phase, slot⟩, target), rest)

theorem action_eq (text : List Char) : action text =
    match actionHead text with
    | .error e => .error e
    | .ok ((key, target), rest) =>
      match repetition rest with
      | .error e => .error e
      | .ok (repetition, rest) => .ok (⟨key, target, repetition⟩, rest) := by
  cases text with
  | nil => rfl
  | cons c text =>
      unfold action actionHead
      dsimp only
      cases Phase.ofLetter? c with
      | none => rfl
      | some phase =>
          dsimp only
          cases slot text with
          | error e => rfl
          | ok x =>
              dsimp only
              cases target x.2 <;> rfl

theorem actionHead_extend (h : Settled (actionHead text)) :
    actionHead (text ++ more) = Reading.extend id more (actionHead text) := by
  cases text with
  | nil => exact h.elim
  | cons c text =>
      unfold actionHead at h ⊢
      dsimp only [List.cons_append] at h ⊢
      cases hc : Phase.ofLetter? c with
      | none => rfl
      | some phase =>
          simp only [hc] at h ⊢
          cases hs : slot text with
          | error e =>
              simp only [hs] at h
              rw [slot_extend (hs ▸ h), hs]
              rfl
          | ok x =>
              obtain ⟨n, left⟩ := x
              simp only [hs] at h ⊢
              -- where nothing is left, no target is read, and then nothing is left either
              have hleft : left ≠ [] := fun hnil => by
                subst hnil
                exact h rfl
              rw [slot_extend (hs ▸ hleft), hs]
              simp only [Reading.extend, id_eq]
              cases ht : target left with
              | error e =>
                  simp only [ht] at h
                  rw [target_extend (ht ▸ h), ht]
                  rfl
              | ok x =>
                  simp only [ht] at h
                  rw [target_extend (ht ▸ h), ht]
                  rfl

theorem action_extend (h : Settled (action text)) :
    action (text ++ more) = Reading.extend id more (action text) := by
  rw [action_eq] at h
  rw [action_eq, action_eq]
  cases hd : actionHead text with
  | error e =>
      simp only [hd] at h
      rw [actionHead_extend (hd ▸ h), hd]
      rfl
  | ok x =>
      obtain ⟨head, left⟩ := x
      simp only [hd] at h ⊢
      have hleft : left ≠ [] := fun hnil => by
        subst hnil
        exact h rfl
      rw [actionHead_extend (hd ▸ hleft), hd]
      simp only [Reading.extend, id_eq]
      cases hr : repetition left with
      | error e =>
          simp only [hr] at h
          rw [repetition_extend (hr ▸ h), hr]
          rfl
      | ok x =>
          simp only [hr] at h
          rw [repetition_extend (hr ▸ h), hr]
          rfl

/-! ### Steps -/

/-- The frame in a text that goes on. -/
def Frame.extend (more : List Char) (frame : Frame) : Frame :=
  { frame with opening := frame.opening ++ more }

namespace Progress

variable {p q : Progress} {item : Expression} {c : Char} {f : Fault}

/-- The progress in a text that goes on. -/
def extend (more : List Char) (p : Progress) : Progress :=
  { p with frames := p.frames.map (·.extend more), start := p.start ++ more }

theorem frames_extend {frame : Frame} {frames : List Frame} (h : p.frames = frame :: frames) :
    (p.extend more).frames = frame.extend more :: frames.map (·.extend more) :=
  congrArg (List.map _) h

theorem begin_extend (p : Progress) (c : Char) (text more : List Char) :
    (p.extend more).begin (c :: (text ++ more)) = (p.begin (c :: text)).extend more := by
  unfold begin extend
  simp only [List.map_eq_nil_iff]
  split <;> rfl

theorem add_extend (p : Progress) (e : Expression) (more : List Char) :
    (p.extend more).add e = ((p.add e).map (·.extend more)).mapError (·.extend more) := by
  unfold add extend
  simp only [List.map_eq_nil_iff]
  split
  · split <;> rfl
  · rfl

theorem openGroup_extend (p : Progress) (c : Char) (text more : List Char) :
    (p.extend more).openGroup (c :: (text ++ more)) =
      ((p.openGroup (c :: text)).map (·.extend more)).mapError (·.extend more) := by
  unfold openGroup extend
  simp only [List.length_map]
  split <;> rfl

/-- An item that no bar follows completes the expression. -/
theorem take_eq (hbar : ∀ rest, text ≠ '|' :: rest) :
    p.take item text = (p.add (p.close item)).map fun q => (q, text) := by
  unfold take
  split
  · next rest => exact absurd rfl (hbar rest)
  · cases p.add (p.close item) <;> rfl

theorem take_extend (htext : text ≠ []) :
    (p.extend more).take item (text ++ more) =
      Reading.extend (·.extend more) more (p.take item text) := by
  cases text with
  | nil => exact absurd rfl htext
  | cons c text =>
      by_cases hc : c = '|'
      · subst hc
        rfl
      · have hclose : (p.extend more).close item = p.close item := rfl
        rw [List.cons_append, take_eq fun rest h => hc (List.cons.inj h).1,
          take_eq fun rest h => hc (List.cons.inj h).1, hclose, add_extend]
        cases p.add (p.close item) <;> rfl

/-- At the end of the text it is not known whether an item completes the expression. -/
theorem ne_nil_of_take (h : Settled (p.take item text)) : text ≠ [] := by
  rintro rfl
  have hbar : ∀ rest, ([] : List Char) ≠ '|' :: rest := fun _ => nofun
  rw [take_eq hbar] at h
  unfold add at h
  split at h
  · split at h
    · exact h rfl
    · exact h
  · exact h rfl

theorem closeGroup_extend {closing : List Char} (h : Settled (p.closeGroup closing text)) :
    (p.extend more).closeGroup (closing ++ more) (text ++ more) =
      Reading.extend (·.extend more) more (p.closeGroup closing text) := by
  unfold closeGroup at h ⊢
  cases hf : p.frames with
  | nil =>
      have hf' : (p.extend more).frames = [] := congrArg (List.map _) hf
      rw [hf']
      rfl
  | cons frame frames =>
      rw [frames_extend hf]
      simp only [hf] at h ⊢
      cases hr : repetition text with
      | error e =>
          simp only [hr] at h
          rw [repetition_extend (hr ▸ h), hr]
          rfl
      | ok x =>
          obtain ⟨r, left⟩ := x
          simp only [hr] at h
          have hleft := ne_nil_of_take h
          rw [repetition_extend (hr ▸ hleft), hr]
          exact take_extend (p := p.back frame frames) hleft

/-- **A step that is settled is the same if the text goes on.** -/
theorem step_extend (h : Settled (p.step c text)) :
    (p.extend more).step c (text ++ more) =
      Reading.extend (·.extend more) more (p.step c text) := by
  have halternatives : (p.extend more).alternatives = p.alternatives := rfl
  unfold step at h ⊢
  rw [halternatives, begin_extend]
  split
  · next hc =>
      rw [if_pos hc] at h
      exact closeGroup_extend h
  · next hc =>
      rw [if_neg hc] at h
      split
      · rw [openGroup_extend]
        cases (p.begin (c :: text)).openGroup (c :: text) <;> rfl
      · next hc =>
          rw [if_neg hc] at h
          cases ha : action (c :: text) with
          | error e =>
              simp only [ha] at h
              have hsettled : Settled (action (c :: text)) := ha ▸ h
              rw [← List.cons_append, action_extend hsettled, ha]
              rfl
          | ok x =>
              obtain ⟨a, left⟩ := x
              simp only [ha] at h
              have hleft := ne_nil_of_take h
              have hsettled : Settled (action (c :: text)) := ha ▸ hleft
              rw [← List.cons_append, action_extend hsettled, ha]
              exact take_extend hleft

theorem run_of_fault (h : p.step c text = .error f) : p.run (c :: text) = .error f := by
  rw [run]
  split
  · next he =>
      rw [h] at he
      cases he
      rfl
  · next hq =>
      rw [h] at hq
      cases hq

/-- At the end of the text no fault is final. -/
theorem not_final_of_finish (h : p.finish = .error f) : ¬ f.Final := by
  unfold finish at h
  split at h
  · cases h
    exact id
  · split at h <;> cases h
    exact id

/-- **A final fault stays where it is, whatever follows.** -/
theorem run_extend (h : p.run text = .error f) (hf : f.Final) :
    (p.extend more).run (text ++ more) = .error (f.extend more) := by
  fun_induction run p text with
  | case1 p => exact absurd hf (not_final_of_finish h)
  | case2 p c text e hs =>
      cases h
      have hsettled : Settled (p.step c text) := hs ▸ hf
      have hstep : (p.extend more).step c (text ++ more) = _ := step_extend hsettled
      rw [hs] at hstep
      exact run_of_fault hstep
  | case3 p c text q rest hs ih =>
      have hrest : rest ≠ [] := fun hnil => by
        rw [hnil, run] at h
        exact not_final_of_finish h hf
      have hsettled : Settled (p.step c text) := hs ▸ hrest
      have hstep : (p.extend more).step c (text ++ more) = _ := step_extend hsettled
      rw [hs] at hstep
      exact (run_of_step hstep).trans (ih h)

end Progress

end Multitouch.Grammar
