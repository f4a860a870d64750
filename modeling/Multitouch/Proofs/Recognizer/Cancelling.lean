import Multitouch.Proofs.Recognizer.Independent
import Multitouch.Proofs.Recognizer.Lifecycle

/-!
# Dropping an attempt drops nothing else

Of two recognizers that carry out the same operations, one of which has dropped an attempt before,
this one has the other's attempts but the one dropped, and tells what the other tells but of it
(`Recognizer.cancel_filters`).  Its attempts are a view of the other's that keeps all numbers
(`View.except`).  As long as both have room for every attempt they give new attempts the same
numbers (`Without.begin`), and the one with an attempt less has room whenever the other has.
-/

namespace Multitouch

namespace View

/-- All attempts but one. -/
def except (x : Nat) : View where
  sees id _ := id != x
  number id := id
  gesture g := g

theorem attempts_except (x : Nat) (live : List Attempt) :
    (except x).attempts live = live.filter (·.id != x) := by
  rw [← List.filterMap_eq_filter]
  rfl

theorem notices_except (x : Nat) (told : List Notice) :
    (except x).notices told = told.filter (·.attempt != x) := by
  rw [← List.filterMap_eq_filter]
  refine List.filterMap_congr fun n _ => ?_
  cases n <;> rfl

end View

/-- What the caller of an operation gets back, apart from what is told. -/
inductive Answer where
  | nothing
  /-- The number of the gesture that has been added. -/
  | gesture (n : Nat)
  | error (e : PatternError)
  /-- Whether the attempt was live. -/
  | found (live : Bool)

namespace Recognizer

open View

variable {L : Dialect} {R S : Recognizer} {x : Nat}

/-- What is got back from an operation. -/
def answer (L : Dialect) (R : Recognizer) : Op → Answer
  | .register pattern =>
    match Automaton.ofPattern L pattern with
    | .ok _ => .gesture R.gestures.size
    | .error e => .error e
  | .add _ => .gesture R.gestures.size
  | .observe _ => .nothing
  | .cancel id => .found (R.cancel id).1
  | .clear => .nothing

/-- What is got back from operations, one after the other. -/
def answers (L : Dialect) (R : Recognizer) : List Op → List Answer
  | [] => []
  | op :: ops => R.answer L op :: (R.apply L op).1.answers L ops

/-- The recognizer `S` is `R` without the attempt `x`. -/
structure Without (x : Nat) (R S : Recognizer) : Prop where
  live : S.live = (except x).attempts R.live
  lt : x < R.nextId
  nextId : S.nextId = R.nextId
  capacity : S.capacity = R.capacity
  gestures : S.gestures = R.gestures

/-- After the same has been done to both, `S` is still `R` without the attempt `x`, and has told
what `R` has but of `x`. -/
structure Filters (x : Nat) (whole part : Recognizer × List Report) : Prop where
  without : Without x whole.1 part.1
  notices : Report.notices part.2 = (except x).notices (Report.notices whole.2)

theorem Filters.quiet (h : Without x R S) : Filters x (R, []) (S, []) :=
  ⟨h, rfl⟩

/-- One thing is done after the other. -/
theorem Filters.append {whole whole' part part' : Recognizer × List Report}
    (h : Filters x whole part) (h' : Filters x whole' part') :
    Filters x (whole'.1, whole.2 ++ whole'.2) (part'.1, part.2 ++ part'.2) where
  without := h'.without
  notices := by
    rw [Report.notices_append, Report.notices_append, notices_append, h.notices, h'.notices]

/-- A recognizer that has dropped an attempt. -/
theorem without_cancel (hR : R.Fresh) (hx : ∃ a ∈ R.live, a.id = x) :
    Without x R (R.cancel x).2 where
  live := (attempts_except x R.live).symm
  lt := by
    obtain ⟨a, ha, rfl⟩ := hx
    exact hR a ha
  nextId := rfl
  capacity := rfl
  gestures := rfl

theorem Without.proceed (h : Without x R S) (e : Event) :
    Filters x (R.proceed e) (S.proceed e) where
  without := ⟨(View.proceed h.live e).1, h.lt, h.nextId, h.capacity, h.gestures⟩
  notices := (View.proceed h.live e).2

/-- Both start an attempt, of the same number, if there is room for it. -/
theorem Without.begin (h : Without x R S) (e : Event) (g : Nat) (A : Automaton)
    (hroom : ∀ r ∈ (R.begin e g A).2, r.isSkipped = false) :
    Filters x (R.begin e g A) (S.begin e g A) := by
  by_cases hA : A.Opens e
  · have hlt : R.live.length < R.capacity := by
      by_contra hfull
      rw [begin_of_full hA (Nat.not_lt.mp hfull)] at hroom
      cases hroom _ List.mem_cons_self
    have hlt' : S.live.length < S.capacity := by
      rw [h.live, h.capacity]
      exact (List.length_filterMap_le _ _).trans_lt hlt
    have hsees : (except x).sees R.nextId g = true := bne_iff_ne.mpr h.lt.ne'
    obtain ⟨hlive, hnotices⟩ :=
      View.begin_seen h.live hA hlt hlt' hsees (show R.nextId = S.nextId from h.nextId.symm)
    refine ⟨⟨hlive, h.lt.trans_le (R.begins_begin e g A).nextId_le, ?_, ?_, ?_⟩, hnotices⟩
    · rw [begin_of_room hA hlt, begin_of_room hA hlt', h.nextId]
    · rw [capacity_begin, capacity_begin, h.capacity]
    · rw [(R.begins_begin e g A).gestures, (S.begins_begin e g A).gestures, h.gestures]
  · rw [begin_of_closed hA, begin_of_closed hA]
    exact .quiet h

theorem Without.beginAll {e : Event} {gs : List (Automaton × Nat)} :
    ∀ {R S : Recognizer}, Without x R S →
      (∀ r ∈ (beginAll e gs R).2, r.isSkipped = false) →
        Filters x (beginAll e gs R) (beginAll e gs S) := by
  induction gs with
  | nil => exact fun h _ => .quiet h
  | cons p gs ih =>
      obtain ⟨A, g⟩ := p
      intro R S h hroom
      obtain ⟨hfirst, hrest⟩ := List.forall_mem_append.mp hroom
      have hbegun := h.begin e g A hfirst
      exact hbegun.append (ih hbegun.without hrest)

theorem Without.observe (h : Without x R S) (e : Event)
    (hroom : ∀ r ∈ (R.observe e).2, r.isSkipped = false) :
    Filters x (R.observe e) (S.observe e) := by
  have hfirst := h.proceed e
  have hbegun := hfirst.without.beginAll (List.forall_mem_append.mp hroom).2
  have hboth := hfirst.append hbegun
  rw [Recognizer.observe, Recognizer.observe, h.gestures]
  exact hboth

/-- Dropping another attempt. -/
theorem Without.cancel (h : Without x R S) (y : Nat) :
    Without x (R.cancel y).2 (S.cancel y).2 where
  live := by
    rw [Recognizer.cancel, Recognizer.cancel, h.live, attempts_except, attempts_except,
      List.filter_filter, List.filter_filter]
    exact List.filter_congr fun a _ => Bool.and_comm _ _
  lt := h.lt
  nextId := h.nextId
  capacity := h.capacity
  gestures := h.gestures

/-- Another attempt is found in both or in none. -/
theorem Without.found (h : Without x R S) {y : Nat} (hy : y ≠ x) :
    (S.cancel y).1 = (R.cancel y).1 := by
  rw [Recognizer.cancel, Recognizer.cancel, h.live, attempts_except, List.any_filter]
  refine List.any_congr rfl fun a => ?_
  by_cases ha : a.id = y
  · simp [ha, hy]
  · simp [ha]

/-- **Whatever is done to both, the one stays the other without the attempt**, unless this is
what is dropped. -/
theorem Without.apply (h : Without x R S) {op : Op} (hop : op ≠ .cancel x)
    (hroom : ∀ r ∈ (R.apply L op).2, r.isSkipped = false) :
    Filters x (R.apply L op) (S.apply L op) ∧ S.answer L op = R.answer L op := by
  have hadd : ∀ A, Without x (R.add A) (S.add A) := fun A =>
    ⟨h.live, h.lt, h.nextId, h.capacity, congrArg (·.push A) h.gestures⟩
  have hsize : S.gestures.size = R.gestures.size := congrArg Array.size h.gestures
  cases op with
  | register pattern =>
      cases hread : Automaton.ofPattern L pattern with
      | ok A =>
          simp only [Recognizer.apply, answer, hread]
          exact ⟨.quiet (hadd A), congrArg Answer.gesture hsize⟩
      | error e =>
          simp only [Recognizer.apply, answer, hread]
          exact ⟨.quiet h, trivial⟩
  | add A => exact ⟨.quiet (hadd A), congrArg Answer.gesture hsize⟩
  | observe e => exact ⟨h.observe e hroom, rfl⟩
  | cancel y =>
      exact ⟨.quiet (h.cancel y), congrArg Answer.found (h.found fun he => hop (he ▸ rfl))⟩
  | clear => exact ⟨.quiet ⟨rfl, h.lt, h.nextId, h.capacity, h.gestures⟩, rfl⟩

theorem Without.history {ops : List Op} : ∀ {R S : Recognizer}, Without x R S →
    .cancel x ∉ ops → (∀ m ∈ R.history L ops, ∀ r ∈ m.reports, r.isSkipped = false) →
      List.Forall₂ (fun whole part : Moment =>
          part.notices = whole.notices.filter (·.attempt != x) ∧
            part.after.live = whole.after.live.filter (·.id != x))
        (R.history L ops) (S.history L ops) ∧ S.answers L ops = R.answers L ops := by
  induction ops with
  | nil => exact fun _ _ _ => ⟨.nil, rfl⟩
  | cons op ops ih =>
      intro R S h hops hroom
      obtain ⟨hop, hops⟩ := List.ne_and_not_mem_of_not_mem_cons hops
      obtain ⟨hroom, hrooms⟩ := List.forall_mem_cons.mp hroom
      obtain ⟨hstep, hanswer⟩ := h.apply (L := L) hop.symm hroom
      obtain ⟨hrest, hanswers⟩ := ih hstep.without hops hrooms
      refine ⟨.cons ⟨?_, ?_⟩ hrest, congrArg₂ List.cons hanswer hanswers⟩
      · rw [← notices_except]
        exact hstep.notices
      · rw [← attempts_except]
        exact hstep.without.live

/-- **Dropping an attempt is a pure filter.**  Let an attempt be live after any calls, and let the
same operations follow, which do not drop it alone, once after it has been dropped and once
without that.  If there is room for every attempt in the run that keeps it, the other one tells at
every moment what this one tells of other attempts, in the same order and under the same numbers,
has the same other attempts live, in the same states and with the same contacts bound, and answers
the same. -/
theorem cancel_filters (L : Dialect) (capacity : Nat) (calls : List Call) (ops : List Op)
    (a : Attempt) (ha : a ∈ (serve L { capacity } calls).1.live) (hops : .cancel a.id ∉ ops)
    (hroom : ∀ m ∈ history L (serve L { capacity } calls).1 ops,
      ∀ r ∈ m.reports, r.isSkipped = false) :
    let R := (serve L { capacity } calls).1
    let S := (R.cancel a.id).2
    List.Forall₂ (fun whole part : Moment =>
        part.notices = whole.notices.filter (·.attempt != a.id) ∧
          part.after.live = whole.after.live.filter (·.id != a.id))
      (history L R ops) (history L S ops) ∧ answers L S ops = answers L R ops := by
  intro R S
  have hstart : Without a.id R S := without_cancel (fresh_serve L capacity calls) ⟨a, ha, rfl⟩
  exact hstart.history hops hroom

/-- Two strokes have begun, one after the other. -/
def begunStrokes : List Call :=
  [.one (.register "m1*"), .batch [⟨.move, 7, "a"⟩, ⟨.move, 7, "a"⟩]]

/-- They go on, and end when another contact is pressed. -/
def endStrokes : List Op :=
  [.observe ⟨.move, 7, "a"⟩, .cancel 1, .observe ⟨.press, 8, "a"⟩]

theorem cancel_filters_begunStrokes :
    let R := (serve everywhere { capacity := 3 } begunStrokes).1
    let whole := history everywhere R endStrokes
    let part := history everywhere (R.cancel 0).2 endStrokes
    (∃ a ∈ R.live, a.id = 0) ∧ .cancel 0 ∉ endStrokes ∧
      (∀ m ∈ whole, ∀ r ∈ m.reports, r.isSkipped = false) ∧
      whole.map Moment.notices =
        [[.advanced 0 0 [.top], .advanced 1 0 [.top], .created 2 0, .advanced 2 0 [.start]], [],
          [.terminated 0 0 .accepted, .terminated 2 0 .accepted]] ∧
      List.Forall₂ (fun whole part : Moment =>
          part.notices = whole.notices.filter (·.attempt != 0) ∧
            part.after.live = whole.after.live.filter (·.id != 0)) whole part := by
  intro R whole part
  have hlive : (serve everywhere { capacity := 3 } begunStrokes).1.live.any (·.id == 0) = true := by
    decide +kernel
  have hroom : (history everywhere (serve everywhere { capacity := 3 } begunStrokes).1
      endStrokes).all (fun m => m.reports.all fun r => !r.isSkipped) = true := by decide +kernel
  have hroom' : ∀ m ∈ whole, ∀ r ∈ m.reports, r.isSkipped = false := by
    simpa only [List.all_eq_true, Bool.not_eq_true'] using hroom
  have htold : (history everywhere (serve everywhere { capacity := 3 } begunStrokes).1
      endStrokes).map Moment.notices =
        [[.advanced 0 0 [.top], .advanced 1 0 [.top], .created 2 0, .advanced 2 0 [.start]], [],
          [.terminated 0 0 .accepted, .terminated 2 0 .accepted]] := by decide +kernel
  obtain ⟨a, ha, hid⟩ := List.any_eq_true.mp hlive
  have hid : a.id = 0 := beq_iff_eq.mp hid
  have hops : .cancel a.id ∉ endStrokes := by simp [endStrokes, hid]
  obtain ⟨hfilters, -⟩ := cancel_filters everywhere 3 begunStrokes endStrokes a ha hops hroom'
  rw [hid] at hfilters hops
  exact ⟨⟨a, ha, hid⟩, hops, hroom', htold, hfilters⟩

end Recognizer

end Multitouch
