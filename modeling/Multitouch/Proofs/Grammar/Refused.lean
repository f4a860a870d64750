import Multitouch.Proofs.Grammar.Faults

/-!
# Faults are where they are said to be

While a pattern is read, the frames of the reader keep the texts from the parentheses on that have
opened the groups, and the text from the outermost expression on.  So each of these places is known
by the text before it: a parenthesis that is open opens a group there, and what stands between it
and the reader is balanced (`Nested`); and before the outermost expression there are complete ones
(`Progress.Started`).  Every step keeps this (`Noted.step`).

Hence, whatever goes wrong in a step or at the end, the place that is reported is one of a fault
with the cause that is reported (`step_fault`, `finish_fault`).  Counted in bytes, it is on the
boundary of a character (`read_error_located`).
-/

namespace Multitouch

namespace Grammar

/-- The fault is reported at the place, in the whole text, from which on `f` has it. -/
def Fault.Placed (f : Fault) (whole : List Char) : Prop :=
  ∃ before, whole = before ++ f.rest ∧ Reported before f.rest f.cause

theorem Fault.Within.placed {f : Fault} {before text : List Char} (h : f.Within before text) :
    f.Placed (before ++ text) := by
  obtain ⟨used, rfl, hl⟩ := h
  exact ⟨before ++ used, (List.append_assoc ..).symm, hl⟩

/-! ### The text behind the reader -/

theorem Behind.begun {states : Nat} {frames : List Frame} {members alternatives : List Expression}
    {text : List Char} (h : Behind states frames members alternatives text) : Begun text := by
  induction h with
  | outer hl _ _ =>
      obtain ⟨s, u, rfl, hs, hu⟩ := hl.split
      exact .outer hs.any hu.any
  | inner _ hl ih =>
      obtain ⟨s, u, rfl, hs, hu⟩ := hl.split
      exact .inner ih hs.any hu.any

/-- If there are alternatives, the last thing that has been read is a bar. -/
theorem Barred.concat_bar {P : List Char → Prop} {u : List Char} {es : List Expression}
    (h : Barred P u es) (hne : es ≠ []) : ∃ w, u = w ++ ['|'] := by
  induction h with
  | nil => exact absurd rfl hne
  | @more s t e es _ ht ih =>
      cases ht with
      | nil => exact ⟨s, rfl⟩
      | more =>
          obtain ⟨w, hw⟩ := ih (List.cons_ne_nil _ _)
          exact ⟨s ++ '|' :: w, by rw [hw, List.append_assoc, List.cons_append]⟩

theorem Level.concat_bar {depth : Nat} {members alternatives : List Expression}
    {text : List Char} (h : Level depth members alternatives text) (hne : alternatives ≠ []) :
    ∃ w, text = w ++ ['|'] := by
  obtain ⟨s, u, rfl, -, hu⟩ := h.split
  obtain ⟨w, rfl⟩ := hu.concat_bar (mt List.reverse_eq_nil_iff.mp hne)
  exact ⟨s ++ w, (List.append_assoc ..).symm⟩

theorem Behind.concat_bar {states : Nat} {frames : List Frame}
    {members alternatives : List Expression} {text : List Char}
    (h : Behind states frames members alternatives text) (hne : alternatives ≠ []) :
    ∃ w, text = w ++ ['|'] := by
  cases h with
  | outer hl _ _ => exact hl.concat_bar hne
  | @inner _ _ _ _ before _ _ hl =>
      obtain ⟨w, rfl⟩ := hl.concat_bar hne
      exact ⟨before ++ '(' :: w, by rw [List.append_assoc, List.cons_append]⟩

/-! ### The open groups -/

/-- The groups that are open between the text behind the reader and the text that is left: each of
them was opened by the parenthesis that its frame tells. -/
inductive Nested : List Frame → List Char → List Char → Prop where
  | outer {before rest : List Char} : Balanced before → Nested [] before rest
  | inner {frame : Frame} {frames : List Frame} {before text rest : List Char} :
      Nested frames before ('(' :: (text ++ rest)) → frame.opening = '(' :: (text ++ rest) →
        Balanced text → Nested (frame :: frames) (before ++ '(' :: text) rest

namespace Nested

variable {frames : List Frame} {frame : Frame} {before used rest : List Char}

/-- As many groups are open as there are frames. -/
theorem after (h : Nested frames before rest) :
    (Place.outside 0).after before = some (.outside frames.length) := by
  induction h with
  | outer hb => exact hb 0
  | @inner frame frames before text rest _ _ ht ih =>
      rw [Place.after_append, ih]
      exact ht (frames.length + 1)

/-- What is balanced may be read. -/
theorem read (h : Nested frames before (used ++ rest)) (hu : Balanced used) :
    Nested frames (before ++ used) rest := by
  cases h with
  | outer hb => exact .outer (hb.append hu)
  | inner hb ho ht =>
      rw [List.append_assoc, List.cons_append]
      rw [← List.append_assoc] at hb ho
      exact .inner hb ho (ht.append hu)

theorem opened (h : Nested frames before ('(' :: rest)) (members alternatives : List Expression) :
    Nested (⟨'(' :: rest, members, alternatives⟩ :: frames) (before ++ ['(']) rest := by
  refine .inner ?_ rfl balanced_nil
  exact h

theorem closed (h : Nested (frame :: frames) before (')' :: rest)) :
    Nested frames (before ++ [')']) rest := by
  cases h with
  | @inner _ _ before text _ hb _ ht =>
      have hgroup : Nested frames before (('(' :: (text ++ [')'])) ++ rest) := by simpa using hb
      simpa using hgroup.read ht.group

end Nested

/-! ### The outermost expression -/

/-- The complete members of the outermost sequence, the latest first. -/
def outermost (members : List Expression) : List Frame → List Expression
  | [] => members
  | frame :: frames => outermost frame.members frames

namespace Progress

variable {p q : Progress} {before used text rest s : List Char} {e : Expression} {f : Fault}

/-- Before the place that the reader has noted as the start of an outermost expression there are
complete ones, and not too many states have been counted for them. -/
def Started (p : Progress) (before rest : List Char) : Prop :=
  ∃ b u es, before = b ++ u ∧ p.start = u ++ rest ∧ Sequence Any b es ∧
    statesBound es ≤ maxStates ∧ outermost p.members p.frames = es.reverse

/-- The places that the reader has noted are what they are meant to be. -/
structure Noted (p : Progress) (before rest : List Char) : Prop where
  nested : Nested p.frames before rest
  started : p.frames ≠ [] ∨ p.alternatives ≠ [] → p.Started before rest

/-- As long as the outermost expression is not complete, what it started with remains. -/
theorem Started.read (h : p.Started before (used ++ rest)) (hs : q.start = p.start)
    (ho : outermost q.members q.frames = outermost p.members p.frames) :
    q.Started (before ++ used) rest := by
  obtain ⟨b, u, es, rfl, hstart, hb, hle, hes⟩ := h
  exact ⟨b, u ++ used, es, List.append_assoc .., by rw [hs, hstart, List.append_assoc], hb, hle,
    ho.trans hes⟩

theorem statesBound_reverse (es : List Expression) : statesBound es.reverse = statesBound es := by
  rw [statesBound, statesBound, List.map_reverse, List.sum_reverse]

/-- When an item is due, the outermost expression starts with it or has been started before. -/
theorem Noted.begin (h : p.Noted before rest) (hread : p.Read before) :
    (p.begin rest).Started before rest := by
  unfold Progress.begin
  split
  · next hidle =>
      unfold Read at hread
      rw [hidle.1, hidle.2] at hread
      cases hread with
      | outer hl hs hle =>
          refine ⟨before, [], p.members.reverse, (List.append_nil _).symm, rfl, hl.sequence.any,
            ?_, ?_⟩
          · rwa [statesBound_reverse, ← hs]
          · rw [hidle.1, outermost, List.reverse_reverse]
  · next hbusy => exact h.started (not_and_or.mp hbusy)

/-! ### Steps -/

theorem Noted.take (hn : Nested p.frames before (s ++ text)) (hst : p.Started before (s ++ text))
    (hs : Balanced s) (ht : p.take e text = .ok (q, rest)) :
    ∃ used, text = used ++ rest ∧ q.Noted (before ++ (s ++ used)) rest := by
  unfold Progress.take at ht
  split at ht
  · cases ht
    have hbar : Balanced ['|'] := balanced_singleton (by decide)
    have hsplit : s ++ '|' :: rest = (s ++ ['|']) ++ rest := by simp
    rw [hsplit] at hn hst
    exact ⟨['|'], rfl, hn.read (hs.append hbar), fun _ => hst.read rfl rfl⟩
  · split at ht
    · cases ht
    · next ha =>
        cases ht
        refine ⟨[], rfl, ?_⟩
        rw [List.append_nil]
        unfold Progress.add at ha
        split at ha
        · next hframes =>
            split at ha
            · cases ha
              exact ⟨hn.read hs, fun h => absurd h (by simp [hframes])⟩
            · cases ha
        · next hframes =>
            cases ha
            refine ⟨hn.read hs, fun _ => hst.read rfl ?_⟩
            obtain ⟨frame, frames, hf⟩ := List.exists_cons_of_ne_nil hframes
            rw [hf]
            rfl

/-- The reader when it has gone back to the sequence in which a group was opened. -/
def back (p : Progress) (frame : Frame) (frames : List Frame) : Progress :=
  { p with members := frame.members, alternatives := frame.alternatives, frames }

theorem Noted.back {frame : Frame} {frames : List Frame} (hf : p.frames = frame :: frames)
    (h : p.Noted before (')' :: rest)) :
    Nested (p.back frame frames).frames (before ++ [')']) rest ∧
      (p.back frame frames).Started (before ++ [')']) rest := by
  have hstarted : p.Started before ([')'] ++ rest) := h.started (.inl (by simp [hf]))
  have hnested := h.nested
  rw [hf] at hnested
  refine ⟨hnested.closed, hstarted.read rfl ?_⟩
  rw [hf]
  rfl

/-- **A step keeps the places that are noted.** -/
theorem Noted.step {c : Char} (h : p.Noted before (c :: text)) (hread : p.Read before)
    (hs : p.step c text = .ok (q, rest)) :
    ∃ used, c :: text = used ++ rest ∧ q.Noted (before ++ used) rest := by
  have hstarted := h.begin hread
  obtain ⟨start, hbegin⟩ := begin_eq p (c :: text)
  unfold Progress.step at hs
  split at hs
  · next hc =>
      obtain ⟨rfl, -⟩ := hc
      unfold Progress.closeGroup at hs
      split at hs
      · cases hs
      · next frame frames hframes =>
          split at hs
          · cases hs
          · next r left hr =>
              obtain ⟨m, rfl, hm⟩ := repetition_sound hr
              obtain ⟨hnested, houter⟩ := h.back hframes
              obtain ⟨used, rfl, hq⟩ := Noted.take hnested houter hm.balanced hs
              exact ⟨')' :: (m ++ used), by simp, by simpa using hq⟩
  · split at hs
    · next hc =>
        subst hc
        split at hs
        · cases hs
        · next ho =>
            cases hs
            unfold Progress.openGroup at ho
            split at ho
            · cases ho
            · cases ho
              rw [hbegin] at hstarted ⊢
              have hopened : Started { p with start } before (['('] ++ text) := hstarted
              exact ⟨['('], rfl, h.nested.opened _ _, fun _ => hopened.read rfl rfl⟩
    · split at hs
      · cases hs
      · next a left ha =>
          obtain ⟨s, hs', hact⟩ := action_sound ha
          rw [hs'] at hstarted ⊢
          have hnested : Nested (p.begin (s ++ left)).frames before (s ++ left) := by
            rw [← hs', hbegin]
            exact h.nested
          rw [hs'] at hs
          obtain ⟨used, rfl, hq⟩ := Noted.take hnested hstarted hact.balanced hs
          exact ⟨s ++ used, (List.append_assoc ..).symm, hq⟩

/-! ### Faults -/

/-- If an expression does not fit any more, it begins where the reader has noted it. -/
theorem add_fault (h : p.Read before) (he : Item Counted s e)
    (hn : p.frames.length + e.nesting ≤ maxNesting) (hst : p.Started (before ++ s) text)
    (ha : p.add (p.close e) = .error f) : f.Placed (before ++ (s ++ text)) := by
  unfold Progress.add at ha
  split at ha
  · next hframes =>
      split at ha
      · cases ha
      · next hmany =>
          cases ha
          obtain ⟨b, u, es, hbu, hstart, hb, hle, hes⟩ := hst
          rw [hframes, outermost] at hes
          unfold Read at h
          rw [hframes] at h hn
          cases h with
          | outer hl hs _ =>
              have hlonger := (hl.close he hn).sequence.any
              rw [List.reverse_cons, hes, List.reverse_reverse, hbu] at hlonger
              have hbound : maxStates < statesBound (es ++ [p.close e]) := by
                rw [← statesBound_reverse, List.reverse_append, ← hes]
                simp only [statesBound, List.reverse_singleton, List.singleton_append,
                  List.map_cons, List.sum_cons] at hs ⊢
                omega
              refine ⟨b, ?_, hstart ▸ .inl (.tooManyStates hb hle hlonger hbound)⟩
              rw [← List.append_assoc, hbu, hstart, List.append_assoc]
  · cases ha

theorem take_fault (h : p.Read before) (he : Item Counted s e)
    (hn : p.frames.length + e.nesting ≤ maxNesting) (hst : p.Started (before ++ s) text)
    (ht : p.take e text = .error f) : f.Placed (before ++ (s ++ text)) := by
  unfold Progress.take at ht
  split at ht
  · cases ht
  · split at ht
    · next ha =>
        cases ht
        exact add_fault h he hn hst ha
    · cases ht

theorem closeGroup_fault (h : p.Read before) (hn : p.Noted before (')' :: text))
    (ha : p.alternatives = []) (hs : p.closeGroup (')' :: text) text = .error f) :
    f.Placed (before ++ ')' :: text) := by
  unfold Progress.closeGroup at hs
  split at hs
  · next hframes =>
      cases hs
      have hafter := hn.nested.after
      rw [hframes] at hafter
      exact ⟨before, rfl, .inl (.strayClose hafter)⟩
  · next frame frames hframes =>
      have hclosed := (hn.back hframes).2
      unfold Read at h
      rw [hframes, ha] at h
      cases h with
      | @inner _ _ _ _ before t hb hl =>
          split at hs
          · next hr =>
              cases hs
              have hbare : Bare (before ++ '(' :: (t ++ [')'])) :=
                .group hb.begun hl.sequence.any
              simpa using (repetition_fault hbare hr).placed
          · next r left hr =>
              obtain ⟨m, rfl, hm⟩ := repetition_sound hr
              have houter : (p.back frame frames).Read before := hb
              have hstarted : (p.back frame frames).Started
                  (before ++ '(' :: (t ++ ')' :: m)) left := by
                simpa using hclosed.read rfl rfl
              simpa using take_fault houter (.group hl.sequence hm) hl.group_le hstarted hs

/-- **What goes wrong in a step is reported where it is.** -/
theorem step_fault {c : Char} (h : p.Read before) (hn : p.Noted before (c :: text))
    (hs : p.step c text = .error f) : f.Placed (before ++ c :: text) := by
  have hstarted := hn.begin h
  obtain ⟨start, hbegin⟩ := begin_eq p (c :: text)
  have hread : Read { p with start } before := h
  unfold Progress.step at hs
  rw [hbegin] at hs hstarted
  split at hs
  · next hc =>
      obtain ⟨rfl, ha⟩ := hc
      exact closeGroup_fault h hn ha hs
  · split at hs
    · next hc =>
        subst hc
        split at hs
        · next ho =>
            cases hs
            unfold Progress.openGroup at ho
            split at ho
            · next hdepth =>
                cases ho
                have hafter := hn.nested.after
                rw [show p.frames.length = maxNesting from hdepth] at hafter
                exact ⟨before, rfl, .inl (.nestingTooDeep hafter)⟩
            · cases ho
        · cases hs
    · next hc =>
        split at hs
        · next ha =>
            cases hs
            exact (action_fault (Behind.begun h) hc ha).placed
        · next a left ha =>
            obtain ⟨s, hs', hact⟩ := action_sound ha
            rw [hs'] at hstarted ⊢
            have hdepth := Behind.depth_le h
            exact take_fault hread (.action hact) hdepth (hstarted.read rfl rfl) hs

/-- **What is missing at the end is reported where it is.** -/
theorem finish_fault (h : p.Read before) (hn : p.Noted before []) (hf : p.finish = .error f) :
    f.Placed before := by
  unfold Progress.finish at hf
  split at hf
  · next ha =>
      cases hf
      obtain ⟨b, rfl⟩ := Behind.concat_bar h ha
      exact ⟨_, (List.append_nil _).symm, .inl (.missingItem (Behind.begun h))⟩
  · split at hf
    · next frame frames hframes =>
        cases hf
        have hnested := hn.nested
        rw [hframes] at hnested
        cases hnested with
        | inner hb ho ht =>
            rw [List.append_nil] at ho
            exact ⟨_, congrArg _ ho.symm, .inl (ho ▸ .openGroup hb.after ht)⟩
    · cases hf

theorem run_fault (h : p.Read before) (hn : p.Noted before text) (hr : p.run text = .error f) :
    f.Placed (before ++ text) := by
  fun_induction Progress.run p text generalizing before with
  | case1 p =>
      rw [List.append_nil]
      exact finish_fault h hn hr
  | case2 p c text e hs =>
      cases hr
      exact step_fault h hn hs
  | case3 p c text q rest hs ih =>
      obtain ⟨used, ht, hq⟩ := h.step hs
      obtain ⟨used', ht', hq'⟩ := hn.step h hs
      obtain rfl : used = used' := List.append_cancel_right (ht.symm.trans ht')
      rw [ht, ← List.append_assoc]
      exact ih hq hq' hr

end Progress

/-- **A pattern that is refused is at fault at the place that is reported.** -/
theorem read_fault {text : List Char} {f : Fault} (h : read text = .error f) : f.Placed text := by
  have hread : ({} : Progress).Read [] := .outer (.start (Nat.zero_le _)) rfl (by decide)
  have hnoted : ({} : Progress).Noted [] text := ⟨.outer balanced_nil, by simp⟩
  exact Progress.run_fault hread hnoted h

/-! ### Bytes -/

theorem byteLength_eq (text : List Char) : byteLength text = (Utf8.ofText text).length := by
  have hfold : ∀ n, text.foldl (fun n c => n + c.utf8Size) n = n + (Utf8.ofText text).length := by
    induction text with
    | nil => exact fun _ => rfl
    | cons c text ih =>
        intro n
        rw [List.foldl_cons, ih, Utf8.ofText_cons, List.length_append, Utf8.length_encode,
          Nat.add_assoc]
  exact (hfold 0).trans (Nat.zero_add _)

/-- A place is as many bytes after the start as the text before it has. -/
theorem position_eq (before rest : List Char) :
    byteLength (before ++ rest) - byteLength rest = (Utf8.ofText before).length := by
  rw [byteLength_eq, byteLength_eq, Utf8.ofText_append, List.length_append, Nat.add_sub_cancel]

section Reported

variable {before rest : List Char}

theorem Reported.eq_nil (h : Reported before rest .missingItem) : rest = [] := by
  rcases h with h | h
  · cases h
    rfl
  · cases h

end Reported

end Grammar

namespace Expression

variable {pattern : String} {e : PatternError}

/-- The place of an error is as many bytes after the start as the text before it has. -/
theorem exists_reported (h : Expression.read pattern = .error e) :
    ∃ before rest, pattern = String.ofList before ++ String.ofList rest ∧
      (String.ofList before).utf8ByteSize = e.position ∧ Grammar.Reported before rest e.cause := by
  unfold Expression.read at h
  split at h
  · cases h
  · next f hf =>
      obtain ⟨before, hsplit, hl⟩ := Grammar.read_fault hf
      cases h
      refine ⟨before, f.rest, ?_, ?_, hl⟩
      · rw [← String.ofList_append, ← hsplit, String.ofList_toList]
      · rw [hsplit, Grammar.position_eq]
        exact Utf8.utf8ByteSize_ofList before

theorem position_le (h : Expression.read pattern = .error e) :
    e.position ≤ pattern.utf8ByteSize := by
  obtain ⟨before, rest, rfl, hbefore, -⟩ := exists_reported h
  rw [String.utf8ByteSize_append, hbefore]
  exact Nat.le_add_right _ _

/-- An item is missing only at the end. -/
theorem position_of_missingItem (h : Expression.read pattern = .error e)
    (hmissing : e.cause = .missingItem) : e.position = pattern.utf8ByteSize := by
  obtain ⟨before, rest, rfl, hbefore, hr⟩ := exists_reported h
  rw [hmissing] at hr
  rw [hr.eq_nil, String.utf8ByteSize_append, hbefore]
  rfl

end Expression

end Multitouch
