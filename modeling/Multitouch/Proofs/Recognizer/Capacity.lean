import Multitouch.Proofs.Recognizer.Faithful
import Multitouch.Proofs.Recognizer.Views

/-!
# Room for more attempts

Of two recognizers that carry out the same operations, and differ in their capacity only, the one
with more room has all the attempts of the other, and these do the same in both.  Attempts are
identified by the operation that created them and their gesture (`View.started`): an operation
creates at most one attempt at a gesture (`length_createdAt_le_one`).

That the attempts of the smaller recognizer are among those of the larger one is not enough to go
on: the larger one might be full of others when the smaller one has room.  It is not, because the
attempts that only the larger one has are never more than the room it has in addition (`Covers`).
-/

namespace Multitouch

namespace View

/-- The attempts with the given numbers. -/
def among (ids : List Nat) : View where
  sees id _ := ids.contains id
  number := rank ids
  gesture g := g

theorem settled_among : Settled among where
  number _ := rfl
  gesture _ _ := rfl
  sees ids later id hid := by
    funext g
    simp [among, hid]

/-- An attempt at the gesture is created. -/
def started (told : List Notice) (gesture : Nat) : Bool :=
  told.any fun n => (n.created? (· == gesture)).isSome

theorem started_append (s t : List Notice) (g : Nat) :
    started (s ++ t) g = (started s g || started t g) :=
  List.any_append

theorem started_iff {told : List Notice} {g : Nat} :
    started told g = true ↔ ∃ id, .created id g ∈ told := by
  rw [started, List.any_eq_true]
  constructor
  · rintro ⟨n, hn, h⟩
    obtain ⟨id, h⟩ := Option.isSome_iff_exists.mp h
    obtain ⟨g', rfl, hg⟩ := Notice.created?_eq_some.mp h
    exact ⟨id, beq_iff_eq.mp hg ▸ hn⟩
  · rintro ⟨id, hn⟩
    exact ⟨_, hn, by simp [Notice.created?]⟩

theorem started_eq_false {told : List Notice} {g : Nat} (h : ∀ id, .created id g ∉ told) :
    started told g = false :=
  Bool.eq_false_iff.mpr fun hs => (started_iff.mp hs).elim h

end View

namespace Recognizer

open View

variable {e : Event} {R S : Recognizer} {ids : List Nat} {room : Nat}

/-! ### At most one attempt at a gesture -/

theorem createdAt_begin_eq_nil {g k : Nat} {A : Automaton} (h : k ≠ g) :
    Notice.createdAt (· == g) (Report.notices (R.begin e k A).2) = [] :=
  Notice.createdAt_eq_nil fun id g' hn => by
    have hk : g' = k := gesture_of_begin hn
    exact beq_eq_false_iff_ne.mpr (hk ▸ h)

theorem length_createdAt_begin (R : Recognizer) (e : Event) (g k : Nat) (A : Automaton) :
    (Notice.createdAt (· == g) (Report.notices (R.begin e k A).2)).length ≤ 1 := by
  rcases R.begin_cases e k A with ⟨reports, h, hn⟩ | h
  · rw [h, hn]
    exact Nat.zero_le 1
  · rw [h, notices_created, ← List.singleton_append, Notice.createdAt_append, createdAt_firstStep,
      List.append_nil]
    exact List.length_filterMap_le _ _

theorem length_createdAt_beginAll {gs : List (Automaton × Nat)} (g : Nat) :
    ∀ {R : Recognizer}, (gs.map Prod.snd).Nodup →
      (Notice.createdAt (· == g) (Report.notices (beginAll e gs R).2)).length ≤ 1 := by
  induction gs with
  | nil => exact fun _ => Nat.zero_le 1
  | cons p gs ih =>
      obtain ⟨A, k⟩ := p
      intro R h
      obtain ⟨hk, hgs⟩ := List.nodup_cons.mp h
      rw [beginAll, Report.notices_append, Notice.createdAt_append]
      by_cases hkg : k = g
      · rw [createdAt_beginAll_eq_nil (hkg ▸ hk), List.append_nil]
        exact length_createdAt_begin R e g k A
      · rw [createdAt_begin_eq_nil hkg, List.nil_append]
        exact ih hgs

/-- **An operation creates at most one attempt at a gesture.** -/
theorem length_createdAt_le_one {L : Dialect} {ops : List Op} (g : Nat) :
    ∀ {R : Recognizer}, ∀ m ∈ R.history L ops,
      (Notice.createdAt (· == g) m.notices).length ≤ 1 := by
  induction ops with
  | nil => exact fun _ h => nomatch h
  | cons op ops ih =>
      intro R m hm
      rcases List.mem_cons.mp hm with rfl | hm
      · by_cases hop : ∃ e, op = .observe e
        · obtain ⟨e, rfl⟩ := hop
          change (Notice.createdAt _ (Report.notices (R.observe e).2)).length ≤ 1
          rw [notices_observe, Notice.createdAt_append, createdAt_proceed, List.nil_append]
          exact length_createdAt_beginAll g (nodup_gestures _)
        · rw [notices_of_ne (not_exists.mp hop)]
          exact Nat.zero_le 1
      · exact ih m hm

/-! ### One recognizer covers another -/

/-- The recognizer `R`, which has more room, has the attempts of `S`, under the numbers `ids`, and
no more others than it has more room. -/
structure Covers (room : Nat) (ids : List Nat) (R S : Recognizer) : Prop extends
    Tracks among ids R S where
  unseen_le : (among ids).unseen R.live ≤ room
  capacity : R.capacity = S.capacity + room
  gestures : R.gestures = S.gestures

theorem Covers.length (h : Covers room ids R S) :
    R.live.length = S.live.length + (among ids).unseen R.live := by
  rw [h.live]
  exact (among ids).length_eq R.live

/-- A gesture that is not open changes neither. -/
theorem Covers.begin_closed {g : Nat} {A : Automaton} (h : Covers room ids R S)
    (hA : ¬ A.Opens e) : Keeps among started (Covers room) ids (R.begin e g A) (S.begin e g A) := by
  rw [begin_of_closed hA, begin_of_closed hA]
  exact .quiet h

/-- If the smaller one is full, a new attempt of the larger one is one of the others. -/
theorem Covers.begin_full {g : Nat} {A : Automaton} (h : Covers room ids R S)
    (hA : A.Opens e) (hfull : S.capacity ≤ S.live.length) :
    Keeps among started (Covers room) ids (R.begin e g A) (S.begin e g A) := by
  have hR := R.begins_begin e g A
  have hsees : (among ids).sees R.nextId g = false := by
    simpa [among] using fun hm => Nat.lt_irrefl _ (h.lt _ hm)
  obtain ⟨hlive, hnotices⟩ := begin_unseen (e := e) (A := A) hsees
  have hadded : added started (R.begin e g A).2 (S.begin e g A).2 = [] := by
    rw [begin_of_full hA hfull]
    exact Notice.createdAt_eq_nil fun _ _ _ => rfl
  have hunseen : (among ids).unseen (R.begin e g A).1.live ≤ room := by
    have hlength := (among ids).length_eq (R.begin e g A).1.live
    rw [hlive, ← h.live] at hlength
    have := R.length_begin_le e g A
    have := h.length
    have := h.unseen_le
    have := h.capacity
    omega
  refine .of_added_eq_nil hadded ?_ ?_
  · rw [begin_of_full hA hfull]
    exact ⟨h.begins hR hlive, hunseen, R.capacity_begin.trans h.capacity,
      hR.gestures.trans h.gestures⟩
  · rw [hnotices, begin_of_full hA hfull]
    rfl

/-- If the smaller one has room, so has the larger one, and both start an attempt. -/
theorem Covers.begin_room {g : Nat} {A : Automaton} (h : Covers room ids R S)
    (hA : A.Opens e) (hroom : S.live.length < S.capacity) :
    Keeps among started (Covers room) ids (R.begin e g A) (S.begin e g A) := by
  have hroom' : R.live.length < R.capacity := by
    have := h.length
    have := h.unseen_le
    have := h.capacity
    omega
  have hR := R.begins_begin e g A
  have hwhole : Report.notices (R.begin e g A).2 =
      .created R.nextId g :: Report.notices (firstStep R.nextId g A e).2 := by
    rw [begin_of_room hA hroom', notices_created]
  have hpart : Report.notices (S.begin e g A).2 =
      .created S.nextId g :: Report.notices (firstStep S.nextId g A e).2 := by
    rw [begin_of_room hA hroom, notices_created]
  have hadded : added started (R.begin e g A).2 (S.begin e g A).2 = [R.nextId] := by
    have hstarted : started (Report.notices (S.begin e g A).2) g = true :=
      started_iff.mpr ⟨S.nextId, hpart ▸ List.mem_cons_self⟩
    rw [added, hwhole, ← List.singleton_append, Notice.createdAt_append, createdAt_firstStep,
      List.append_nil]
    simp [Notice.createdAt, Notice.created?, hstarted]
  have hsees : ∀ g, (among (ids ++ [R.nextId])).sees R.nextId g = true := by simp [among]
  obtain ⟨htracks, hnotices⟩ := h.toTracks.begin_seen settled_among hA hroom' hroom (hsees g)
  have hunseen : (among (ids ++ [R.nextId])).unseen (R.begin e g A).1.live ≤ room := by
    have hnew : (among (ids ++ [R.nextId])).unseen (firstStep R.nextId g A e).1.toList = 0 :=
      List.countP_eq_zero.mpr fun a ha => by simp [id_of_firstStep ha, hsees]
    have hseen := settled_among.agrees ids [R.nextId] R.nextId (by simp)
    have hold := hseen.unseen h.fresh ▸ h.unseen_le
    rw [begin_of_room hA hroom', unseen, List.countP_append]
    exact (Nat.add_eq_left.mpr hnew).trans_le hold
  refine ⟨?_, hadded ▸ hnotices⟩
  rw [hadded]
  refine ⟨htracks, hunseen, ?_, hR.gestures.trans ?_⟩
  · rw [capacity_begin, capacity_begin]
    exact h.capacity
  · exact h.gestures.trans (S.begins_begin e g A).gestures.symm

theorem Covers.begin (h : Covers room ids R S) (e : Event) (g : Nat) (A : Automaton) :
    Keeps among started (Covers room) ids (R.begin e g A) (S.begin e g A) := by
  by_cases hA : A.Opens e
  · rcases Nat.lt_or_ge S.live.length S.capacity with hroom | hfull
    · exact h.begin_room hA hroom
    · exact h.begin_full hA hfull
  · exact h.begin_closed hA

/-- Attempts at a gesture are not created in one part of an operation by the one recognizer and in
the other part by the other. -/
theorem added_append {whole whole' part part' : List Report}
    (h : ∀ id g, .created id g ∈ Report.notices whole →
      ∀ id', .created id' g ∉ Report.notices part')
    (h' : ∀ id g, .created id g ∈ Report.notices whole' →
      ∀ id', .created id' g ∉ Report.notices part) :
    added started (whole ++ whole') (part ++ part') =
      added started whole part ++ added started whole' part' := by
  rw [added, Report.notices_append, Report.notices_append, Notice.createdAt_append]
  refine congrArg₂ (· ++ ·) (Notice.createdAt_congr fun id g hn => ?_)
    (Notice.createdAt_congr fun id g hn => ?_)
  · rw [started_append, started_eq_false (h id g hn), Bool.or_false]
  · rw [started_append, started_eq_false (h' id g hn), Bool.false_or]

theorem Covers.beginAll {gs : List (Automaton × Nat)} :
    ∀ {ids : List Nat} {R S : Recognizer}, Covers room ids R S → (gs.map Prod.snd).Nodup →
      Keeps among started (Covers room) ids (beginAll e gs R) (beginAll e gs S) := by
  induction gs with
  | nil => exact fun h _ => .quiet h
  | cons p gs ih =>
      obtain ⟨A, k⟩ := p
      intro ids R S h hgs
      obtain ⟨hk, hgs⟩ := List.nodup_cons.mp hgs
      have hfirst := h.begin e k A
      have hold := (R.begins_begin e k A).notices
      refine hfirst.append settled_among (ih hfirst.related hgs) (added_append ?_ ?_)
        (fun n hn => (hold n hn).2) (begins_beginAll e gs _)
      · intro id g hn id' hn'
        have hg : g = k := gesture_of_begin hn
        exact hk (hg ▸ gesture_of_beginAll hn')
      · intro id g hn id' hn'
        have hg : g = k := gesture_of_begin hn'
        exact hk (hg ▸ gesture_of_beginAll hn)

/-! ### Operations -/

theorem Covers.proceed (h : Covers room ids R S) (e : Event) :
    Keeps among started (Covers room) ids (R.proceed e) (S.proceed e) := by
  exact .of_added_eq_nil (createdAt_proceed _)
    ⟨h.toTracks.proceed e, (unseen_proceed_le _ R e).trans h.unseen_le, h.capacity, h.gestures⟩
    (View.proceed h.live e).2

theorem Covers.observe (h : Covers room ids R S) (e : Event) :
    Keeps among started (Covers room) ids (R.observe e) (S.observe e) := by
  have hfirst := h.proceed e
  have hbegun := hfirst.related.beginAll (e := e) (nodup_gestures R.gestures.toList)
  rw [Recognizer.observe, Recognizer.observe, ← h.gestures]
  refine hfirst.append settled_among hbegun (added_append ?_ ?_)
    (fun n hn => h.fresh.attempt_lt_of_proceed hn) (R.begins_observe e)
  · exact fun id g hn => absurd hn not_created_proceed
  · exact fun id g _ id' hn => absurd hn not_created_proceed

/-- **An operation keeps the covering**, if it does not drop one attempt. -/
theorem Covers.apply {L : Dialect} (h : Covers room ids R S) {op : Op}
    (hop : ∀ id, op ≠ .cancel id) :
    Keeps among started (Covers room) ids (R.apply L op) (S.apply L op) := by
  have hadd : ∀ A, Covers room ids (R.add A) (S.add A) := fun A =>
    ⟨⟨h.live, h.fresh, h.lt, h.nextId⟩, h.unseen_le, h.capacity, congrArg (·.push A) h.gestures⟩
  cases op with
  | register pattern =>
      unfold Recognizer.apply
      dsimp only
      split
      · exact .quiet (hadd _)
      · exact .quiet h
  | add A => exact .quiet (hadd A)
  | observe e => exact h.observe e
  | cancel id => exact absurd rfl (hop id)
  | clear =>
      exact .quiet ⟨⟨rfl, nofun, h.lt, h.nextId⟩, Nat.zero_le _, h.capacity, h.gestures⟩

/-- **More capacity loses nothing.**  Of two runs of the same operations, without dropping single
attempts, from recognizers that differ in their capacity, the one with more room tells at every
moment of each attempt that both have created what the other one tells, in the same order, and has
the other one's live attempts among its own, with no more others than it has more room.  Attempts
are the same if the same operation created them at the same gesture, of which there is at most
one. -/
theorem raised_capacity (L : Dialect) (capacity capacity' : Nat) (h : capacity ≤ capacity')
    (ops : List Op) (hops : ∀ op ∈ ops, ∀ id, op ≠ .cancel id) :
    let large := history L { capacity := capacity' } ops
    let small := history L { capacity := capacity } ops
    let same := numbers started large small
    (∀ m ∈ large, ∀ g, (Notice.createdAt (· == g) m.notices).length ≤ 1) ∧
      List.Forall₂ (fun whole part => (among same).Shows whole part ∧
          whole.after.live.length ≤ part.after.live.length + (capacity' - capacity))
        large small := by
  intro large small same
  have hstart : Covers (capacity' - capacity) [] { capacity := capacity' }
      { capacity := capacity } :=
    ⟨⟨rfl, fresh_start _, nofun, rfl⟩, Nat.zero_le _, (Nat.add_sub_cancel' h).symm, rfl⟩
  have hshows := shows_history (L := L) (P := fun op => ∀ id, op ≠ .cancel id)
    (Q := fun _ => True) settled_among (fun h => h.toTracks)
    (fun h hop _ => h.apply hop) hstart hops fun _ _ => trivial
  refine ⟨fun m hm g => length_createdAt_le_one g m hm, hshows.imp ?_⟩
  rintro whole part ⟨hm, ids, hcovers⟩
  exact ⟨hm, hcovers.length ▸ Nat.add_le_add_left hcovers.unseen_le _⟩

/-- Two strokes begin, if there is room, and go on together until the contact is pressed. -/
def twoStrokes : List Op :=
  [.add (.ofExpressions everywhere strokes), .observe ⟨.move, 7, "a"⟩, .observe ⟨.move, 7, "a"⟩,
    .observe ⟨.press, 7, "a"⟩]

theorem raised_capacity_twoStrokes :
    let large := history everywhere { capacity := 2 } twoStrokes
    let small := history everywhere { capacity := 1 } twoStrokes
    1 ≤ 2 ∧ (∀ op ∈ twoStrokes, ∀ id, op ≠ .cancel id) ∧
      large.map Moment.notices =
        [[], [.created 0 0, .advanced 0 0 [.start]],
          [.advanced 0 0 [.top], .created 1 0, .advanced 1 0 [.start]],
          [.terminated 0 0 .accepted, .terminated 1 0 .accepted]] ∧
      List.Forall₂ (fun whole part => (among [0]).Shows whole part ∧
          whole.after.live.length ≤ part.after.live.length + (2 - 1))
        large small := by
  intro large small
  have hops : ∀ op ∈ twoStrokes, ∀ id, op ≠ .cancel id := by simp [twoStrokes]
  have hsame : numbers started large small = [0] := by decide +kernel
  refine ⟨by decide, hops, by decide +kernel, ?_⟩
  rw [← hsame]
  exact (raised_capacity everywhere 1 2 (by decide) twoStrokes hops).2

end Recognizer

end Multitouch
