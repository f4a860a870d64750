import Multitouch.Proofs.Recognizer.Faithful
import Multitouch.Proofs.Recognizer.Views

/-!
# Gestures on their own

As long as there is room for every attempt, it does not matter to a gesture which others there
are: what is told of its attempts, and what these are at any time, is what a recognizer with this
gesture alone tells and has (`Recognizer.gesture_alone`).  Only the numbers are different, since
the attempts at all gestures are numbered together.

The other gestures come before it and after it when an event is offered, and start attempts that
are not seen (`View.only`).  With them there are at least as many live attempts as without, so
where the recognizer has room for an attempt at the gesture, the other one has too
(`Alone.begin`).
-/

namespace Multitouch

/-- The report tells that there was no room for an attempt. -/
def Report.isSkipped : Report → Bool
  | skipped .. => true
  | _ => false

namespace View

/-- The attempts at one gesture. -/
def only (gesture : Nat) (ids : List Nat) : View where
  sees _ g := g == gesture
  number := rank ids
  gesture _ := 0

theorem settled_only (gesture : Nat) : Settled (only gesture) where
  number _ := rfl
  gesture _ _ := rfl
  sees _ _ _ _ := rfl

/-- The attempts at one gesture come to be seen when they are created. -/
theorem numbers_only (p : Nat → Bool) :
    ∀ {wholes parts : List Moment}, wholes.length = parts.length →
      numbers (fun _ => p) wholes parts = wholes.flatMap fun m => Notice.createdAt p m.notices
  | [], [], _ => rfl
  | whole :: wholes, part :: parts, h => by
      rw [numbers, numbers_only p (Nat.succ.inj h), List.flatMap_cons]
      rfl

end View

namespace Recognizer

open View

variable {e : Event} {R S : Recognizer} {ids : List Nat} {i : Nat} {A : Automaton}

/-- A recognizer with the given gestures. -/
def offering (capacity : Nat) (As : List Automaton) : Recognizer :=
  As.foldl add { capacity }

theorem foldl_add (As : List Automaton) :
    ∀ R : Recognizer, As.foldl add R = { R with gestures := R.gestures ++ As.toArray } := by
  induction As with
  | nil => exact fun R => by simp
  | cons A As ih => exact fun R => by rw [List.foldl_cons, ih]; simp [add]

/-- The recognizer `S` has the gesture `A` alone, of the number `i` in `R`, and its attempts. -/
structure Alone (i : Nat) (A : Automaton) (ids : List Nat) (R S : Recognizer) : Prop extends
    Tracks (only i) ids R S where
  capacity : R.capacity = S.capacity
  gesture : R.gestures[i]? = some A
  gestures : S.gestures = #[A]

/-- The gestures before the one and those after it have other numbers. -/
theorem exists_others {As : List Automaton} (h : As[i]? = some A) :
    ∃ before after, As.zipIdx = before ++ (A, i) :: after ∧
      i ∉ before.map Prod.snd ∧ i ∉ after.map Prod.snd := by
  obtain ⟨before, after, hsplit⟩ :=
    List.append_of_mem (List.mem_zipIdx_iff_getElem?.mpr h : (A, i) ∈ As.zipIdx)
  have hnodup := nodup_gestures As
  rw [hsplit, List.map_append, List.map_cons, List.nodup_middle, List.nodup_cons,
    List.mem_append, not_or] at hnodup
  exact ⟨before, after, hsplit, hnodup.1⟩

theorem added_append_only (p : Nat → Bool) (whole whole' part part' : List Report) :
    added (fun _ => p) (whole ++ whole') (part ++ part') =
      added (fun _ => p) whole part ++ added (fun _ => p) whole' part' := by
  rw [added, Report.notices_append, Notice.createdAt_append]
  rfl

/-- Other gestures do not concern it. -/
theorem Alone.others {gs : List (Automaton × Nat)} (h : Alone i A ids R S)
    (hgs : i ∉ gs.map Prod.snd) (e : Event) :
    Keeps (only i) (fun _ => (· == i)) (Alone i A) ids (beginAll e gs R) (S, []) := by
  have hother : ∀ p ∈ gs, ∀ id, (only i ids).sees id p.2 = false := fun p hp _ =>
    beq_eq_false_iff_ne.mpr fun hi => hgs (hi ▸ List.mem_map_of_mem hp)
  have hb := begins_beginAll e gs R
  obtain ⟨hlive, hnotices⟩ := beginAll_unseen (e := e) (R := R) hother
  refine .of_added_eq_nil (createdAt_beginAll_eq_nil hgs) ?_ hnotices.symm
  exact ⟨h.begins hb hlive, (capacity_beginAll e gs R).trans h.capacity,
    hb.gestures ▸ h.gesture, h.gestures⟩

/-- It starts an attempt in both or in none, if there is always room for one. -/
theorem Alone.begin (h : Alone i A ids R S) (e : Event)
    (hroom : ∀ r ∈ (R.begin e i A).2, r.isSkipped = false) :
    Keeps (only i) (fun _ => (· == i)) (Alone i A) ids (R.begin e i A) (S.begin e 0 A) := by
  by_cases hA : A.Opens e
  · have hlt : R.live.length < R.capacity := by
      by_contra hfull
      rw [begin_of_full hA (Nat.not_lt.mp hfull)] at hroom
      cases hroom _ List.mem_cons_self
    -- the attempts at other gestures only take more room
    have hlt' : S.live.length < S.capacity := by
      rw [h.live, ← h.capacity]
      exact (List.length_filterMap_le _ _).trans_lt hlt
    have hadded : added (fun _ => (· == i)) (R.begin e i A).2 (S.begin e 0 A).2 = [R.nextId] := by
      rw [added, begin_of_room hA hlt, notices_created, ← List.singleton_append,
        Notice.createdAt_append, createdAt_firstStep]
      simp [Notice.createdAt, Notice.created?]
    obtain ⟨htracks, hnotices⟩ :=
      h.toTracks.begin_seen (settled_only i) hA hlt hlt' (beq_self_eq_true i)
    refine ⟨?_, hadded ▸ hnotices⟩
    rw [hadded]
    refine ⟨htracks, ?_, (R.begins_begin e i A).gestures ▸ h.gesture,
      (S.begins_begin e 0 A).gestures.trans h.gestures⟩
    rw [capacity_begin, capacity_begin]
    exact h.capacity
  · rw [begin_of_closed hA, begin_of_closed hA]
    exact .quiet h

theorem Alone.proceed (h : Alone i A ids R S) (e : Event) :
    Keeps (only i) (fun _ => (· == i)) (Alone i A) ids (R.proceed e) (S.proceed e) :=
  .of_added_eq_nil (createdAt_proceed _)
    ⟨h.toTracks.proceed e, h.capacity, h.gesture, h.gestures⟩ (View.proceed h.live e).2

/-- The gesture among the others starts what it starts alone. -/
theorem Alone.beginAll (h : Alone i A ids R S) (e : Event)
    (hroom : ∀ r ∈ (beginAll e R.gestures.toList.zipIdx R).2, r.isSkipped = false) :
    Keeps (only i) (fun _ => (· == i)) (Alone i A) ids
      (beginAll e R.gestures.toList.zipIdx R) (beginAll e S.gestures.toList.zipIdx S) := by
  have hgesture := h.gesture
  rw [← Array.getElem?_toList] at hgesture
  obtain ⟨before, after, hsplit, hbefore, hafter⟩ := exists_others hgesture
  rw [hsplit, beginAll_append] at hroom
  rw [hsplit, beginAll_append, h.gestures]
  have hfirst := h.others hbefore e
  have hb := begins_beginAll e before R
  have hthis := hfirst.related.begin e fun r hr =>
    hroom r (List.mem_append_right _ (List.mem_append_left _ hr))
  have hb' := (Recognizer.beginAll e before R).1.begins_begin e i A
  have hrest : Keeps (only i) (fun _ => (· == i)) (Alone i A) _
      (Recognizer.beginAll e ((A, i) :: after) (Recognizer.beginAll e before R).1)
      (Recognizer.beginAll e [(A, 0)] S) :=
    hthis.append (settled_only i) (hthis.related.others hafter e)
      (added_append_only _ _ _ _ _) (fun n hn => (hb'.notices n hn).2) (begins_beginAll e after _)
  have hall := hfirst.append (settled_only i) hrest (added_append_only _ _ _ _ _)
    (fun n hn => (hb.notices n hn).2) (begins_beginAll e ((A, i) :: after) _)
  exact hall

/-- **An event that there is room for keeps the gesture as it is alone.** -/
theorem Alone.observe (h : Alone i A ids R S) (e : Event)
    (hroom : ∀ r ∈ (R.observe e).2, r.isSkipped = false) :
    Keeps (only i) (fun _ => (· == i)) (Alone i A) ids (R.observe e) (S.observe e) := by
  have hfirst := h.proceed e
  have hbegun := hfirst.related.beginAll e fun r hr => hroom r (List.mem_append_right _ hr)
  exact hfirst.append (settled_only i) hbegun (added_append_only _ _ _ _ _)
    (fun n hn => h.fresh.attempt_lt_of_proceed hn) (R.begins_observe e)

theorem length_history (L : Dialect) (ops : List Op) :
    ∀ R : Recognizer, (R.history L ops).length = ops.length := by
  induction ops with
  | nil => exact fun _ => rfl
  | cons op ops ih => exact fun R => congrArg Nat.succ (ih _)

/-- **Gestures do not interfere.**  If there is room for every attempt, a recognizer tells of the
attempts at a gesture, and has them live, as a recognizer with the same capacity and this gesture
alone, under the number `0`, does at the same events.  The attempts are numbered in the order in
which they are created at the gesture. -/
theorem gesture_alone (L : Dialect) (capacity : Nat) (As : List Automaton) (events : List Event)
    (i : Nat) (A : Automaton) (hA : As[i]? = some A)
    (hroom : ∀ m ∈ history L (offering capacity As) (events.map .observe),
      ∀ r ∈ m.reports, r.isSkipped = false) :
    let whole := history L (offering capacity As) (events.map .observe)
    let alone := history L (offering capacity [A]) (events.map .observe)
    let numbers := whole.flatMap fun m => Notice.createdAt (· == i) m.notices
    List.Forall₂ (only i numbers).Shows whole alone := by
  intro whole alone numbers
  have hstart : Alone i A [] (offering capacity As) (offering capacity [A]) := by
    rw [offering, offering, foldl_add, foldl_add]
    exact ⟨⟨rfl, fresh_start capacity, nofun, rfl⟩, rfl, by simpa using hA, by simp⟩
  have hshows := shows_history (L := L) (P := fun op => ∃ e, op = .observe e)
    (Q := fun m => ∀ r ∈ m.reports, r.isSkipped = false) (settled_only i) (fun h => h.toTracks)
    (fun h ⟨e, he⟩ hm => by subst he; exact h.observe e hm) hstart
    (by simp) hroom
  have hlength : whole.length = alone.length := by
    rw [length_history, length_history]
  rw [List.nil_append, numbers_only _ hlength] at hshows
  exact hshows.imp fun _ _ h => h.1

theorem gesture_alone_twoStrokes :
    let A := Automaton.ofExpressions everywhere strokes
    let events : List Event := [⟨.move, 7, "a"⟩, ⟨.move, 8, "a"⟩]
    let whole := history everywhere (offering 4 [A, A]) (events.map .observe)
    let alone := history everywhere (offering 4 [A]) (events.map .observe)
    [A, A][1]? = some A ∧ (∀ m ∈ whole, ∀ r ∈ m.reports, r.isSkipped = false) ∧
      alone.map Moment.notices =
        [[.created 0 0, .advanced 0 0 [.start]],
          [.terminated 0 0 .accepted, .created 1 0, .advanced 1 0 [.start]]] ∧
      List.Forall₂ (only 1 [1, 3]).Shows whole alone := by
  intro A events whole alone
  have hroom : whole.all (fun m => m.reports.all fun r => !r.isSkipped) = true := by decide +kernel
  have hroom' : ∀ m ∈ whole, ∀ r ∈ m.reports, r.isSkipped = false := by
    simpa only [List.all_eq_true, Bool.not_eq_true'] using hroom
  have hnumbers : (whole.flatMap fun m => Notice.createdAt (· == 1) m.notices) = [1, 3] := by
    decide +kernel
  refine ⟨rfl, hroom', by decide +kernel, ?_⟩
  rw [← hnumbers]
  exact gesture_alone everywhere 4 [A, A] events 1 A rfl hroom'

end Recognizer

end Multitouch
