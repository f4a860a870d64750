import Mathlib.Data.Nat.Basic
import Mathlib.Order.Basic
import Multitouch.Automaton.Build
import Multitouch.Recognizer.Observe

/-!
# Runs of a recognizer

A run is any sequence of the operations of a recognizer.  What becomes of one attempt in it is
seen by selecting what carries its number: the live attempts with it (`attempts`) and the notices
about it (`noticesOf`).  An event does to the selection what it does to the attempts in it
(`attempts_observe`, `noticesOf_observe`), whatever other attempts there are, and an attempt that
it starts begins with its own first step (`observe_created`).  For this it is enough that no live
attempt has the number of one that is still to come (`Fresh`).
-/

namespace Multitouch

/-- What can be done with a recognizer. -/
inductive Op where
  | register (pattern : String)
  | add (A : Automaton)
  | observe (e : Event)
  | cancel (id : Nat)
  | clear

/-- The event of an operation, if it takes one in. -/
def Op.event? : Op → Option Event
  | observe e => some e
  | _ => none

/-- The attempt a notice is about. -/
def Notice.attempt : Notice → Nat
  | created id _ => id
  | advanced id _ _ => id
  | terminated id _ _ => id

/-- The notices about one attempt. -/
def Report.noticesOf (id : Nat) (reports : List Report) : List Notice :=
  (Report.notices reports).filter (·.attempt == id)

namespace Recognizer

/-- Carries out an operation.  A pattern that cannot be read changes nothing. -/
def apply (L : Dialect) (R : Recognizer) : Op → Recognizer × List Report
  | .register pattern =>
    match Automaton.ofPattern L pattern with
    | .ok A => (R.add A, [])
    | .error _ => (R, [])
  | .add A => (R.add A, [])
  | .observe e => R.observe e
  | .cancel id => ((R.cancel id).2, [])
  | .clear => (R.clear, [])

/-- Carries out operations one after the other. -/
def run (L : Dialect) (R : Recognizer) (ops : List Op) : Recognizer :=
  ops.foldl (fun R op => (R.apply L op).1) R

/-- The live attempts with the given number. -/
def attempts (R : Recognizer) (id : Nat) : List Attempt :=
  R.live.filter (·.id == id)

/-- No live attempt has the number of one that is still to come. -/
def Fresh (R : Recognizer) : Prop :=
  ∀ a ∈ R.live, a.id < R.nextId

theorem Fresh.attempts_eq_nil {R : Recognizer} (h : R.Fresh) {id : Nat} (hid : R.nextId ≤ id) :
    R.attempts id = [] := by
  refine List.filter_eq_nil_iff.mpr fun a ha he => ?_
  have := h a ha
  rw [beq_iff_eq.mp he] at this
  omega

end Recognizer

/-! ### One attempt -/

namespace Report

theorem notices_append (r s : List Report) : notices (r ++ s) = notices r ++ notices s :=
  List.filterMap_append

theorem noticesOf_append (id : Nat) (r s : List Report) :
    noticesOf id (r ++ s) = noticesOf id r ++ noticesOf id s := by
  rw [noticesOf, notices_append, List.filter_append]
  rfl

/-- Nothing is told of an attempt in reports that concern other ones. -/
theorem noticesOf_eq_nil {id : Nat} {reports : List Report}
    (h : ∀ n ∈ notices reports, n.attempt ≠ id) : noticesOf id reports = [] :=
  List.filter_eq_nil_iff.mpr fun n hn he => h n hn (beq_iff_eq.mp he)

theorem noticesOf_eq_self {id : Nat} {reports : List Report}
    (h : ∀ n ∈ notices reports, n.attempt = id) : noticesOf id reports = notices reports :=
  List.filter_eq_self.mpr fun n hn => beq_iff_eq.mpr (h n hn)

end Report

namespace Attempt

/-- The notices of one step. -/
theorem notices_feed (a : Attempt) (x : Symbol) :
    Report.notices (a.feed x).2 =
      (if (a.automaton.step a.states x).tags = [] then []
        else [.advanced a.id a.gesture (a.automaton.step a.states x).tags]) ++
      if a.automaton.exhausted (a.automaton.step a.states x).states then
        [.terminated a.id a.gesture
          (if a.automaton.complete a.states ||
              a.automaton.complete (a.automaton.step a.states x).states then .accepted
            else .rejected)]
      else [] := by
  unfold feed Report.notices
  split <;> split <;> simp [Report.notice?, *]

/-- An attempt goes on unless the states it has come to cannot be left. -/
theorem feed_fst (a : Attempt) (x : Symbol) :
    (a.feed x).1 =
      if a.automaton.exhausted (a.automaton.step a.states x).states then none
      else some { a with states := (a.automaton.step a.states x).states } := by
  simp only [feed]
  split <;> rfl

theorem id_of_feed {a b : Attempt} {x : Symbol} (h : (a.feed x).1 = some b) : b.id = a.id := by
  rw [feed_fst] at h
  split at h
  · cases h
  · cases h
    rfl

theorem attempt_of_feed {a : Attempt} {x : Symbol} {n : Notice}
    (h : n ∈ Report.notices (a.feed x).2) :
    n.attempt = a.id ∧ ∀ id g, n ≠ .created id g := by
  rw [notices_feed, List.mem_append] at h
  rcases h with h | h
  · split at h
    · cases h
    · rw [List.mem_singleton] at h
      subst h
      exact ⟨rfl, nofun⟩
  · split at h
    · rw [List.mem_singleton] at h
      subst h
      exact ⟨rfl, nofun⟩
    · cases h

theorem observe_eq (a : Attempt) (e : Event) :
    a.observe e = { a with slots := (a.slots.observe e).2 }.feed (a.slots.observe e).1 := rfl

theorem id_of_observe {a b : Attempt} {e : Event} (h : (a.observe e).1 = some b) :
    b.id = a.id := by
  have hid := id_of_feed h
  exact hid

theorem attempt_of_observe {a : Attempt} {e : Event} {n : Notice}
    (h : n ∈ Report.notices (a.observe e).2) :
    n.attempt = a.id ∧ ∀ id g, n ≠ .created id g := by
  have hn := attempt_of_feed h
  exact hn

end Attempt

namespace Recognizer

/-! ### The live attempts take an event in -/

theorem attempts_proceed (R : Recognizer) (e : Event) (id : Nat) :
    (R.proceed e).1.attempts id = (R.attempts id).filterMap fun a => (a.observe e).1 := by
  simp only [proceed, attempts, List.filterMap_map, List.filter_filterMap, List.filterMap_filter]
  refine congrArg (List.filterMap · R.live) (funext fun a => ?_)
  cases h : (a.observe e).1 with
  | none => simp [h]
  | some b =>
      have hid := Attempt.id_of_observe h
      by_cases ha : a.id = id <;> simp [h, hid, ha]

theorem noticesOf_proceed (R : Recognizer) (e : Event) (id : Nat) :
    Report.noticesOf id (R.proceed e).2 =
      (R.attempts id).flatMap fun a => Report.notices (a.observe e).2 := by
  simp only [proceed, attempts, List.flatMap_map]
  induction R.live with
  | nil => rfl
  | cons a live ih =>
      rw [List.flatMap_cons, Report.noticesOf_append, ih]
      by_cases ha : a.id = id
      · rw [List.filter_cons, if_pos (beq_iff_eq.mpr ha), List.flatMap_cons,
          Report.noticesOf_eq_self fun n hn => (Attempt.attempt_of_observe hn).1.trans ha]
      · rw [List.filter_cons, if_neg (fun h => ha (beq_iff_eq.mp h)),
          Report.noticesOf_eq_nil fun n hn h => ha ((Attempt.attempt_of_observe hn).1 ▸ h)]
        rfl

theorem Fresh.proceed {R : Recognizer} (h : R.Fresh) (e : Event) : (R.proceed e).1.Fresh := by
  intro b hb
  obtain ⟨r, hr, hb⟩ := List.mem_filterMap.mp hb
  obtain ⟨a, ha, rfl⟩ := List.mem_map.mp hr
  exact Attempt.id_of_observe hb ▸ h a ha

/-- Live attempts do not report that an attempt is created. -/
theorem not_created_proceed {R : Recognizer} {e : Event} {id g : Nat} :
    .created id g ∉ Report.notices (R.proceed e).2 := by
  intro h
  obtain ⟨r, hr, hn⟩ := List.mem_filterMap.mp h
  obtain ⟨p, hp, hr⟩ := List.mem_flatMap.mp hr
  obtain ⟨a, -, rfl⟩ := List.mem_map.mp hp
  exact (Attempt.attempt_of_observe (List.mem_filterMap.mpr ⟨r, hr, hn⟩)).2 id g rfl

/-! ### New attempts -/

/-- The first step of an attempt that an event starts. -/
def firstStep (id gesture : Nat) (A : Automaton) (e : Event) : Option Attempt × List Report :=
  (Attempt.start id gesture A e).feed (Slots.observeFirst e).1

/-- A gesture starts no attempt, and nothing is noticed, or it starts the next one. -/
theorem begin_cases (R : Recognizer) (e : Event) (gesture : Nat) (A : Automaton) :
    (∃ reports, R.begin e gesture A = (R, reports) ∧ Report.notices reports = []) ∨
      R.begin e gesture A =
        ({ R with
            nextId := R.nextId + 1
            live := R.live ++ (firstStep R.nextId gesture A e).1.toList },
          .created R.nextId gesture e.touch :: (firstStep R.nextId gesture A e).2) := by
  simp only [Recognizer.begin]
  split
  · exact .inl ⟨[], rfl, rfl⟩
  · split
    · exact .inl ⟨_, rfl, rfl⟩
    · exact .inr rfl

theorem notices_created (id gesture touch : Nat) (reports : List Report) :
    Report.notices (.created id gesture touch :: reports) =
      .created id gesture :: Report.notices reports := rfl

theorem attempt_of_firstStep {id gesture : Nat} {A : Automaton} {e : Event} {n : Notice}
    (h : n ∈ Report.notices (firstStep id gesture A e).2) :
    n.attempt = id ∧ ∀ id' g, n ≠ .created id' g :=
  Attempt.attempt_of_feed h

theorem id_of_firstStep {id gesture : Nat} {A : Automaton} {e : Event} {a : Attempt}
    (h : a ∈ (firstStep id gesture A e).1.toList) : a.id = id :=
  Attempt.id_of_feed (Option.mem_toList.mp h)

/-- What starting attempts leaves as it is. -/
structure Begins (R R' : Recognizer) (reports : List Report) : Prop where
  fresh : R.Fresh → R'.Fresh
  gestures : R'.gestures = R.gestures
  nextId_le : R.nextId ≤ R'.nextId
  attempts : ∀ id < R.nextId, R'.attempts id = R.attempts id
  notices : ∀ n ∈ Report.notices reports, R.nextId ≤ n.attempt ∧ n.attempt < R'.nextId

theorem begins_begin (R : Recognizer) (e : Event) (gesture : Nat) (A : Automaton) :
    Begins R (R.begin e gesture A).1 (R.begin e gesture A).2 := by
  rcases R.begin_cases e gesture A with ⟨reports, h, hn⟩ | h
  · rw [h]
    exact ⟨id, rfl, le_rfl, fun _ _ => rfl, fun n hm => by simp [hn] at hm⟩
  · rw [h]
    refine ⟨fun hR a ha => ?_, rfl, Nat.le_succ _, fun id hid => ?_, fun n hm => ?_⟩
    · rcases List.mem_append.mp ha with ha | ha
      · exact Nat.lt_succ_of_lt (hR a ha)
      · exact (id_of_firstStep ha).trans_lt (Nat.lt_succ_self _)
    · refine (List.filter_append _ _).trans (List.append_right_eq_self.mpr ?_)
      refine List.filter_eq_nil_iff.mpr fun a ha he => ?_
      rw [id_of_firstStep ha, beq_iff_eq] at he
      omega
    · rw [notices_created] at hm
      have hid : n.attempt = R.nextId := by
        rcases List.mem_cons.mp hm with rfl | hm
        · rfl
        · exact (attempt_of_firstStep hm).1
      exact ⟨hid.ge, hid.trans_lt (Nat.lt_succ_self _)⟩

theorem begins_beginAll (e : Event) (gs : List (Automaton × Nat)) :
    ∀ R : Recognizer, Begins R (beginAll e gs R).1 (beginAll e gs R).2 := by
  induction gs with
  | nil => exact fun R => ⟨id, rfl, le_rfl, fun _ _ => rfl, nofun⟩
  | cons p gs ih =>
      obtain ⟨A, gesture⟩ := p
      intro R
      have h₁ := R.begins_begin e gesture A
      have h₂ := ih (R.begin e gesture A).1
      refine ⟨fun h => h₂.fresh (h₁.fresh h), h₂.gestures.trans h₁.gestures,
        h₁.nextId_le.trans h₂.nextId_le, fun id hid => ?_, fun n hn => ?_⟩
      · exact (h₂.attempts id (hid.trans_le h₁.nextId_le)).trans (h₁.attempts id hid)
      · rw [beginAll, Report.notices_append] at hn
        rcases List.mem_append.mp hn with hn | hn
        · exact ⟨(h₁.notices n hn).1, (h₁.notices n hn).2.trans_le h₂.nextId_le⟩
        · exact ⟨h₁.nextId_le.trans (h₂.notices n hn).1, (h₂.notices n hn).2⟩

/-- The recognizer `R'` has the attempt that `e` starts at a gesture, after its first step, and
the reports tell of that step and nothing else about it. -/
structure Started (e : Event) (id gesture : Nat) (A : Automaton) (R' : Recognizer)
    (reports : List Report) : Prop where
  lt : id < R'.nextId
  attempts : R'.attempts id = (firstStep id gesture A e).1.toList
  notices : Report.noticesOf id reports =
    .created id gesture :: Report.notices (firstStep id gesture A e).2

/-- Attempts that are started later leave it alone. -/
theorem Started.begins {e : Event} {id gesture : Nat} {A : Automaton} {R R' : Recognizer}
    {reports more : List Report} (h : Started e id gesture A R reports)
    (hb : Begins R R' more) : Started e id gesture A R' (reports ++ more) where
  lt := h.lt.trans_le hb.nextId_le
  attempts := (hb.attempts id h.lt).trans h.attempts
  notices := by
    have hlater : Report.noticesOf id more = [] :=
      Report.noticesOf_eq_nil fun n hn => (h.lt.trans_le (hb.notices n hn).1).ne'
    rw [Report.noticesOf_append, hlater, List.append_nil, h.notices]

/-- The attempt that a gesture is reported to start is the next one. -/
theorem begin_created {R : Recognizer} {e : Event} {id gesture k : Nat} {A : Automaton}
    (hR : R.Fresh) (h : .created id gesture ∈ Report.notices (R.begin e k A).2) :
    gesture = k ∧ Started e id gesture A (R.begin e k A).1 (R.begin e k A).2 := by
  rcases R.begin_cases e k A with ⟨reports, he, hn⟩ | he
  · rw [he, hn] at h
    cases h
  rw [he, notices_created] at h
  have hcreated : id = R.nextId ∧ gesture = k := by
    rcases List.mem_cons.mp h with h | h
    · cases h
      exact ⟨rfl, rfl⟩
    · exact absurd rfl ((attempt_of_firstStep h).2 id gesture)
  obtain ⟨rfl, rfl⟩ := hcreated
  rw [he]
  refine ⟨rfl, Nat.lt_succ_self _, ?_, ?_⟩
  · have hold := hR.attempts_eq_nil le_rfl
    rw [Recognizer.attempts] at hold
    rw [Recognizer.attempts, List.filter_append, hold, List.nil_append]
    exact List.filter_eq_self.mpr fun a ha => beq_iff_eq.mpr (id_of_firstStep ha)
  · rw [Report.noticesOf_eq_self fun n hn => ?_, notices_created]
    rw [notices_created] at hn
    rcases List.mem_cons.mp hn with rfl | hn
    · rfl
    · exact (attempt_of_firstStep hn).1

/-- An attempt that is created is started at one of the gestures. -/
theorem beginAll_created {e : Event} {id gesture : Nat} {gs : List (Automaton × Nat)} :
    ∀ {R : Recognizer}, R.Fresh → .created id gesture ∈ Report.notices (beginAll e gs R).2 →
      ∃ A, (A, gesture) ∈ gs ∧
        Started e id gesture A (beginAll e gs R).1 (beginAll e gs R).2 := by
  induction gs with
  | nil => exact fun _ h => nomatch h
  | cons p gs ih =>
      obtain ⟨B, k⟩ := p
      intro R hR h
      have h₁ := R.begins_begin e k B
      have h₂ := begins_beginAll e gs (R.begin e k B).1
      rw [beginAll, Report.notices_append] at h
      rcases List.mem_append.mp h with h | h
      · -- it is the next attempt, and the later gestures do not touch it
        obtain ⟨rfl, hs⟩ := begin_created hR h
        exact ⟨B, List.mem_cons_self, hs.begins h₂⟩
      · -- what the first gesture started, if anything, is an earlier attempt
        obtain ⟨A, hA, hs⟩ := ih (h₁.fresh hR) h
        have hlater := (h₂.notices _ h).1
        have hfirst : Report.noticesOf id (R.begin e k B).2 = [] :=
          Report.noticesOf_eq_nil fun n hn => ((h₁.notices n hn).2.trans_le hlater).ne
        refine ⟨A, List.mem_cons_of_mem _ hA, hs.lt, hs.attempts, ?_⟩
        rw [beginAll, Report.noticesOf_append, hfirst, List.nil_append, hs.notices]

/-! ### Events and runs -/

variable {R : Recognizer} {e : Event}

theorem begins_observe (R : Recognizer) (e : Event) :
    Begins (R.proceed e).1 (R.observe e).1
      (beginAll e R.gestures.toList.zipIdx (R.proceed e).1).2 :=
  begins_beginAll e _ _

/-- **An event does to an attempt what it does to it alone.** -/
theorem attempts_observe {id : Nat} (h : id < R.nextId) :
    (R.observe e).1.attempts id = (R.attempts id).filterMap fun a => (a.observe e).1 :=
  ((R.begins_observe e).attempts id h).trans (R.attempts_proceed e id)

theorem noticesOf_observe {id : Nat} (h : id < R.nextId) :
    Report.noticesOf id (R.observe e).2 =
      (R.attempts id).flatMap fun a => Report.notices (a.observe e).2 := by
  rw [observe, Report.noticesOf_append, noticesOf_proceed,
    Report.noticesOf_eq_nil fun n hn hid => ?_, List.append_nil]
  have hle : R.nextId ≤ n.attempt := ((R.begins_observe e).notices n hn).1
  omega

/-- **An attempt that is created begins with its own first step.** -/
theorem observe_created {id gesture : Nat} (hR : R.Fresh)
    (h : .created id gesture ∈ Report.notices (R.observe e).2) :
    ∃ A, R.gestures[gesture]? = some A ∧
      Started e id gesture A (R.observe e).1 (R.observe e).2 := by
  rw [observe, Report.notices_append] at h
  have hnew := (List.mem_append.mp h).resolve_left not_created_proceed
  obtain ⟨A, hA, hs⟩ := beginAll_created (hR.proceed e) hnew
  refine ⟨A, ?_, hs.lt, hs.attempts, ?_⟩
  · rw [← Array.getElem?_toList]
    exact List.mem_zipIdx_iff_getElem?.mp hA
  · have hle : R.nextId ≤ id := ((R.begins_observe e).notices _ hnew).1
    rw [observe, Report.noticesOf_append, noticesOf_proceed, hR.attempts_eq_nil hle, hs.notices]
    rfl

theorem Fresh.apply {L : Dialect} (h : R.Fresh) (op : Op) : (R.apply L op).1.Fresh := by
  cases op with
  | register pattern =>
      unfold Recognizer.apply
      dsimp only
      split <;> exact h
  | add A => exact h
  | observe e => exact (R.begins_observe e).fresh (h.proceed e)
  | cancel id => exact fun a ha => h a (List.mem_filter.mp ha).1
  | clear => exact nofun

theorem Fresh.run {L : Dialect} {ops : List Op} :
    ∀ {R : Recognizer}, R.Fresh → (R.run L ops).Fresh := by
  induction ops with
  | nil => exact fun h => h
  | cons op ops ih => exact fun h => ih (h.apply op)

theorem fresh_start (capacity : Nat) : Fresh { capacity } := nofun

end Recognizer

end Multitouch
