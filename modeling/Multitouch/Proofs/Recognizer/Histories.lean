import Mathlib.Data.List.Forall2
import Multitouch.Proofs.Recognizer.Runs

/-!
# Histories

A run is seen from outside through what each operation reports and the attempts that are live
after it.  These are the `Moment`s of the run, one for each operation, and together its `history`.

What a moment tells comes from the live attempts, one after the other (`notices_proceed`), and then
from the gestures.  At a gesture the event opens, a new attempt starts if there is room
(`begin_of_closed`, `begin_of_full`, `begin_of_room`), and it is told of under the gesture's number
(`gesture_of_beginAll`).  The attempts that are created are picked out of what is told by
`created`, in the order of their creation.
-/

namespace Multitouch

/-- What an operation has reported, and the recognizer after it. -/
structure Moment where
  reports : List Report
  after : Recognizer

/-- What the user is told at the moment. -/
def Moment.notices (m : Moment) : List Notice :=
  Report.notices m.reports

/-- The gesture of the attempt that a notice is about. -/
def Notice.gesture : Notice → Nat
  | created _ g => g
  | advanced _ g _ => g
  | terminated _ g _ => g

/-- The attempt that a notice tells is created, if this is at a gesture of which `p` holds. -/
def Notice.created? (p : Nat → Bool) : Notice → Option Nat
  | created id g => if p g then some id else none
  | _ => none

/-- The attempts that are created at gestures of which `p` holds. -/
def Notice.createdAt (p : Nat → Bool) (told : List Notice) : List Nat :=
  told.filterMap (created? p)

namespace Recognizer

/-- The moment of one operation. -/
def moment (L : Dialect) (R : Recognizer) (op : Op) : Moment :=
  ⟨(R.apply L op).2, (R.apply L op).1⟩

/-- The moments of a run. -/
def history (L : Dialect) (R : Recognizer) : List Op → List Moment
  | [] => []
  | op :: ops => R.moment L op :: (R.moment L op).after.history L ops

end Recognizer

/-! ### Created attempts -/

namespace Notice

variable {p : Nat → Bool}

theorem createdAt_append (s t : List Notice) :
    createdAt p (s ++ t) = createdAt p s ++ createdAt p t :=
  List.filterMap_append

theorem created?_eq_some {n : Notice} {id : Nat} :
    n.created? p = some id ↔ ∃ g, n = .created id g ∧ p g = true := by
  constructor
  · intro h
    cases n with
    | created id' g =>
        rw [created?, Option.ite_none_right_eq_some] at h
        obtain ⟨hg, hid⟩ := h
        cases hid
        exact ⟨g, rfl, hg⟩
    | advanced => cases h
    | terminated => cases h
  · rintro ⟨g, rfl, hg⟩
    exact if_pos hg

theorem mem_createdAt {told : List Notice} {id : Nat} :
    id ∈ createdAt p told ↔ ∃ g, .created id g ∈ told ∧ p g = true := by
  rw [createdAt, List.mem_filterMap]
  constructor
  · rintro ⟨n, hn, h⟩
    obtain ⟨g, rfl, hg⟩ := created?_eq_some.mp h
    exact ⟨g, hn, hg⟩
  · rintro ⟨g, hn, hg⟩
    exact ⟨_, hn, if_pos hg⟩

theorem createdAt_congr {q : Nat → Bool} {told : List Notice}
    (h : ∀ id g, .created id g ∈ told → p g = q g) : createdAt p told = createdAt q told :=
  List.filterMap_congr fun n hn => by
    cases n with
    | created id g => rw [created?, created?, h id g hn]
    | advanced => rfl
    | terminated => rfl

/-- Nothing is created where no notice says so. -/
theorem createdAt_eq_nil {told : List Notice} (h : ∀ id g, .created id g ∈ told → p g = false) :
    createdAt p told = [] := by
  refine List.eq_nil_iff_forall_not_mem.mpr fun id hid => ?_
  obtain ⟨g, hn, hg⟩ := mem_createdAt.mp hid
  rw [h id g hn] at hg
  cases hg

end Notice

/-- The initial state of the automaton can read an event as that of the first contact. -/
def Automaton.Opens (A : Automaton) (e : Event) : Prop :=
  (A.step [Automaton.initial] (Slots.observeFirst e).1).states ≠ []

instance (A : Automaton) (e : Event) : Decidable (A.Opens e) :=
  inferInstanceAs (Decidable (_ ≠ _))

namespace Attempt

theorem gesture_of_feed {a b : Attempt} {x : Symbol} (h : (a.feed x).1 = some b) :
    b.gesture = a.gesture := by
  rw [feed_fst] at h
  split at h
  · cases h
  · cases h
    rfl

theorem gesture_of_observe {a b : Attempt} {e : Event} (h : (a.observe e).1 = some b) :
    b.gesture = a.gesture := by
  have hg := gesture_of_feed h
  exact hg

/-- Notices about an attempt name its gesture. -/
theorem told_of_feed {a : Attempt} {x : Symbol} {n : Notice}
    (h : n ∈ Report.notices (a.feed x).2) : n.gesture = a.gesture := by
  rw [notices_feed, List.mem_append] at h
  rcases h with h | h
  · split at h
    · cases h
    · rw [List.mem_singleton] at h
      exact h ▸ rfl
  · split at h
    · rw [List.mem_singleton] at h
      exact h ▸ rfl
    · cases h

end Attempt

namespace Recognizer

variable {R : Recognizer} {e : Event} {gesture : Nat} {A : Automaton}

/-! ### The live attempts -/

theorem live_proceed (R : Recognizer) (e : Event) :
    (R.proceed e).1.live = R.live.filterMap fun a => (a.observe e).1 :=
  List.filterMap_map

theorem notices_proceed (R : Recognizer) (e : Event) :
    Report.notices (R.proceed e).2 = R.live.flatMap fun a => Report.notices (a.observe e).2 := by
  simp only [proceed, Report.notices, List.flatMap_map, List.filterMap_flatMap]

theorem createdAt_proceed (p : Nat → Bool) :
    Notice.createdAt p (Report.notices (R.proceed e).2) = [] :=
  Notice.createdAt_eq_nil fun _ _ h => absurd h not_created_proceed

/-- Live attempts have been numbered before. -/
theorem Fresh.attempt_lt_of_proceed (hR : R.Fresh) {n : Notice}
    (h : n ∈ Report.notices (R.proceed e).2) : n.attempt < R.nextId := by
  rw [notices_proceed, List.mem_flatMap] at h
  obtain ⟨a, ha, hn⟩ := h
  exact (Attempt.attempt_of_observe hn).1 ▸ hR a ha

/-! ### New attempts -/

theorem begin_of_closed (h : ¬ A.Opens e) : R.begin e gesture A = (R, []) :=
  if_pos (not_not.mp h)

theorem begin_of_full (h : A.Opens e) (hfull : R.capacity ≤ R.live.length) :
    R.begin e gesture A = (R, [.skipped gesture R.live.length]) :=
  (if_neg h).trans (if_pos hfull)

theorem begin_of_room (h : A.Opens e) (hroom : R.live.length < R.capacity) :
    R.begin e gesture A =
      ({ R with
          nextId := R.nextId + 1
          live := R.live ++ (firstStep R.nextId gesture A e).1.toList },
        .created R.nextId gesture e.touch :: (firstStep R.nextId gesture A e).2) :=
  (if_neg h).trans (if_neg (Nat.not_le.mpr hroom))

/-- A new attempt does not fill a recognizer beyond its capacity. -/
theorem length_begin_le (R : Recognizer) (e : Event) (gesture : Nat) (A : Automaton) :
    (R.begin e gesture A).1.live.length ≤ max R.live.length R.capacity := by
  by_cases hA : A.Opens e
  · rcases Nat.lt_or_ge R.live.length R.capacity with hroom | hfull
    · rw [begin_of_room hA hroom, List.length_append]
      have := Option.length_toList_le (o := (firstStep R.nextId gesture A e).1)
      omega
    · rw [begin_of_full hA hfull]
      exact Nat.le_max_left _ _
  · rw [begin_of_closed hA]
    exact Nat.le_max_left _ _

theorem createdAt_firstStep (p : Nat → Bool) (id : Nat) :
    Notice.createdAt p (Report.notices (firstStep id gesture A e).2) = [] :=
  Notice.createdAt_eq_nil fun id' g h => absurd rfl ((attempt_of_firstStep h).2 id' g)

/-- A gesture is told of by its number. -/
theorem gesture_of_begin {n : Notice} (h : n ∈ Report.notices (R.begin e gesture A).2) :
    n.gesture = gesture := by
  rcases R.begin_cases e gesture A with ⟨reports, he, hn⟩ | he
  · rw [he, hn] at h
    cases h
  · rw [he, notices_created] at h
    rcases List.mem_cons.mp h with rfl | h
    · rfl
    · exact Attempt.told_of_feed h

theorem gesture_of_beginAll {gs : List (Automaton × Nat)} {n : Notice} :
    ∀ {R : Recognizer}, n ∈ Report.notices (beginAll e gs R).2 → n.gesture ∈ gs.map Prod.snd := by
  induction gs with
  | nil => exact fun h => nomatch h
  | cons p gs ih =>
      obtain ⟨A, gesture⟩ := p
      intro R h
      rw [beginAll, Report.notices_append] at h
      rcases List.mem_append.mp h with h | h
      · exact gesture_of_begin h ▸ List.mem_cons_self
      · exact List.mem_cons_of_mem _ (ih h)

/-- Nothing is created at other gestures. -/
theorem createdAt_beginAll_eq_nil {gs : List (Automaton × Nat)} {g : Nat}
    (h : g ∉ gs.map Prod.snd) :
    Notice.createdAt (· == g) (Report.notices (beginAll e gs R).2) = [] :=
  Notice.createdAt_eq_nil fun id g' hn => by
    have hg : g' ∈ gs.map Prod.snd := gesture_of_beginAll hn
    exact beq_eq_false_iff_ne.mpr fun he => h (he ▸ hg)

/-- Gestures have different numbers. -/
theorem nodup_gestures (As : List Automaton) : (As.zipIdx.map Prod.snd).Nodup := by
  rw [List.zipIdx_map_snd]
  exact List.nodup_range'

theorem beginAll_append (e : Event) (gs gs' : List (Automaton × Nat)) :
    ∀ R : Recognizer, beginAll e (gs ++ gs') R =
      ((beginAll e gs' (beginAll e gs R).1).1,
        (beginAll e gs R).2 ++ (beginAll e gs' (beginAll e gs R).1).2) := by
  induction gs with
  | nil => exact fun _ => rfl
  | cons p gs ih =>
      intro R
      rw [List.cons_append, beginAll, beginAll, ih, List.append_assoc]

theorem capacity_begin (R : Recognizer) : (R.begin e gesture A).1.capacity = R.capacity := by
  rcases R.begin_cases e gesture A with ⟨reports, h, -⟩ | h <;> rw [h]

theorem capacity_beginAll (e : Event) (gs : List (Automaton × Nat)) :
    ∀ R : Recognizer, (beginAll e gs R).1.capacity = R.capacity := by
  induction gs with
  | nil => exact fun _ => rfl
  | cons p gs ih => exact fun R => (ih _).trans R.capacity_begin

theorem notices_observe (R : Recognizer) (e : Event) :
    Report.notices (R.observe e).2 = Report.notices (R.proceed e).2 ++
      Report.notices (beginAll e R.gestures.toList.zipIdx (R.proceed e).1).2 :=
  Report.notices_append _ _

/-! ### Operations -/

/-- Only of events something is told. -/
theorem notices_of_ne {L : Dialect} {op : Op} (h : ∀ e, op ≠ .observe e) :
    (R.moment L op).notices = [] := by
  cases op with
  | observe e => exact absurd rfl (h e)
  | register pattern =>
      unfold moment Recognizer.apply
      dsimp only
      split <;> rfl
  | add A => rfl
  | cancel id => rfl
  | clear => rfl

/-- What is told comes from the live attempts or from the gestures. -/
theorem exists_event {L : Dialect} {op : Op} {n : Notice} (h : n ∈ (R.moment L op).notices) :
    ∃ e, op = .observe e ∧
      (n ∈ Report.notices (R.proceed e).2 ∨
        n ∈ Report.notices (beginAll e R.gestures.toList.zipIdx (R.proceed e).1).2) := by
  by_cases hop : ∃ e, op = .observe e
  · obtain ⟨e, rfl⟩ := hop
    refine ⟨e, rfl, List.mem_append.mp ?_⟩
    rw [← notices_observe]
    exact h
  · rw [notices_of_ne (not_exists.mp hop)] at h
    cases h

theorem nextId_le_moment (L : Dialect) (R : Recognizer) (op : Op) :
    R.nextId ≤ (R.moment L op).after.nextId := by
  cases op with
  | observe e => exact (R.begins_observe e).nextId_le
  | register pattern =>
      unfold moment Recognizer.apply
      dsimp only
      split <;> exact Nat.le_refl _
  | add A => exact Nat.le_refl _
  | cancel id => exact Nat.le_refl _
  | clear => exact Nat.le_refl _

/-- An operation tells of attempts that have been numbered. -/
theorem Fresh.attempt_lt {L : Dialect} (hR : R.Fresh) {op : Op} {n : Notice}
    (h : n ∈ (R.moment L op).notices) : n.attempt < (R.moment L op).after.nextId := by
  obtain ⟨e, rfl, hn | hn⟩ := exists_event h
  · exact (hR.attempt_lt_of_proceed hn).trans_le (R.begins_observe e).nextId_le
  · exact ((R.begins_observe e).notices n hn).2

/-- An attempt that an operation creates gets a new number. -/
theorem nextId_le_of_created {L : Dialect} {op : Op} {id g : Nat}
    (h : .created id g ∈ (R.moment L op).notices) : R.nextId ≤ id := by
  obtain ⟨e, rfl, hn | hn⟩ := exists_event h
  · exact absurd hn not_created_proceed
  · exact ((R.begins_observe e).notices _ hn).1

end Recognizer

end Multitouch
