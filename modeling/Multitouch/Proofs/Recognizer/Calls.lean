import Multitouch.Proofs.Recognizer.Histories

/-!
# Calls

A recognizer is called for one operation at a time, or for a batch of events that came together.
Whatever it is called for, there are few things that it does: live attempts take an event in,
gestures start attempts, gestures are added, attempts are dropped.  A property of the recognizer
and of all that has been told, if each of these keeps it, is kept by any calls (`Kept.serve`).
-/

namespace Multitouch

/-- What a recognizer is called for. -/
inductive Call where
  | one (op : Op)
  | batch (events : List Event)

/-- The operations that a call comes down to: a batch takes its events in one by one. -/
def Call.ops : Call → List Op
  | one op => [op]
  | batch events => events.map .observe

/-- The notices about one attempt. -/
def Notice.about (id : Nat) (told : List Notice) : List Notice :=
  told.filter (·.attempt == id)

theorem Notice.about_append (id : Nat) (s t : List Notice) :
    about id (s ++ t) = about id s ++ about id t :=
  List.filter_append _ _

theorem Notice.mem_about {id : Nat} {told : List Notice} {n : Notice} :
    n ∈ about id told ↔ n ∈ told ∧ n.attempt = id := by
  rw [about, List.mem_filter, beq_iff_eq]

namespace Recognizer

/-- Carries out a call. -/
def call (L : Dialect) (R : Recognizer) : Call → Recognizer × List Report
  | .one op => R.apply L op
  | .batch events => R.observeAll events

/-- Carries out calls one after the other, and gathers what is told. -/
def serve (L : Dialect) (R : Recognizer) : List Call → Recognizer × List Notice
  | [] => (R, [])
  | c :: calls =>
    let first := R.call L c
    let others := first.1.serve L calls
    (others.1, Report.notices first.2 ++ others.2)

variable {L : Dialect}

theorem serve_append (calls later : List Call) :
    ∀ R : Recognizer, R.serve L (calls ++ later) =
      (((R.serve L calls).1.serve L later).1,
        (R.serve L calls).2 ++ ((R.serve L calls).1.serve L later).2) := by
  induction calls with
  | nil => exact fun _ => rfl
  | cons c calls ih =>
      intro R
      rw [List.cons_append, serve, serve, ih, List.append_assoc]

theorem run_append (R : Recognizer) (ops later : List Op) :
    R.run L (ops ++ later) = (R.run L ops).run L later :=
  List.foldl_append

theorem observeAll_fst (events : List Event) :
    ∀ R : Recognizer, (R.observeAll events).1 = R.run L (events.map .observe) := by
  induction events with
  | nil => exact fun _ => rfl
  | cons e events ih => exact fun R => ih (R.observe e).1

/-- Calls leave the recognizer that their operations do. -/
theorem serve_fst (calls : List Call) :
    ∀ R : Recognizer, (R.serve L calls).1 = R.run L (calls.flatMap Call.ops) := by
  induction calls with
  | nil => exact fun _ => rfl
  | cons c calls ih =>
      intro R
      have hcall : (R.call L c).1 = R.run L c.ops := by
        cases c with
        | one op => rfl
        | batch events => exact observeAll_fst events R
      rw [serve, ih, hcall, List.flatMap_cons, run_append]

/-- What is told is told by one of the calls. -/
theorem mem_serve {n : Notice} {calls : List Call} : ∀ {R : Recognizer}, n ∈ (R.serve L calls).2 →
    ∃ earlier c later, calls = earlier ++ c :: later ∧
      n ∈ Report.notices ((R.serve L earlier).1.call L c).2 := by
  induction calls with
  | nil => exact fun h => nomatch h
  | cons c calls ih =>
      intro R h
      rcases List.mem_append.mp h with h | h
      · exact ⟨[], c, calls, rfl, h⟩
      · obtain ⟨earlier, d, later, hcalls, hn⟩ := ih h
        exact ⟨c :: earlier, d, later, congrArg (c :: ·) hcalls, hn⟩

/-- The call drops an attempt, which is live. -/
def Drops (R : Recognizer) (id : Nat) : Call → Prop
  | .one (.cancel k) => k = id ∧ (R.cancel id).1 = true
  | .one .clear => ∃ a ∈ R.live, a.id = id
  | _ => False

/-! ### What calls keep -/

/-- A property of a recognizer, and of all that has been told, that whatever is done keeps, where
attempts are dropped by operations of which `P` holds only. -/
structure Kept (P : Op → Prop) (I : Recognizer → List Notice → Prop) : Prop where
  proceed : ∀ {R told} (e : Event), I R told →
    I (R.proceed e).1 (told ++ Report.notices (R.proceed e).2)
  begin : ∀ {R told} (e : Event) (gesture : Nat) (A : Automaton), I R told →
    I (R.begin e gesture A).1 (told ++ Report.notices (R.begin e gesture A).2)
  add : ∀ {R told} (A : Automaton), I R told → I (R.add A) told
  cancel : ∀ {R told} (id : Nat), P (.cancel id) → I R told → I (R.cancel id).2 told
  clear : ∀ {R told}, P .clear → I R told → I R.clear told

variable {P : Op → Prop} {I : Recognizer → List Notice → Prop}

theorem Kept.beginAll (h : Kept P I) (e : Event) {gs : List (Automaton × Nat)} :
    ∀ {R : Recognizer} {told : List Notice}, I R told →
      I (beginAll e gs R).1 (told ++ Report.notices (beginAll e gs R).2) := by
  induction gs with
  | nil =>
      intro R told hR
      exact (List.append_nil told).symm ▸ hR
  | cons p gs ih =>
      obtain ⟨A, gesture⟩ := p
      intro R told hR
      rw [Recognizer.beginAll, Report.notices_append, ← List.append_assoc]
      exact ih (h.begin e gesture A hR)

variable {R : Recognizer} {told : List Notice}

theorem Kept.observe (h : Kept P I) (e : Event) (hR : I R told) :
    I (R.observe e).1 (told ++ Report.notices (R.observe e).2) := by
  rw [notices_observe, ← List.append_assoc]
  exact h.beginAll e (h.proceed e hR)

theorem Kept.apply (h : Kept P I) {op : Op} (hop : P op) (hR : I R told) :
    I (R.apply L op).1 (told ++ Report.notices (R.apply L op).2) := by
  have hquiet : told ++ Report.notices [] = told := List.append_nil told
  cases op with
  | register pattern =>
      unfold Recognizer.apply
      dsimp only
      split
      · exact hquiet.symm ▸ h.add _ hR
      · exact hquiet.symm ▸ hR
  | add A => exact hquiet.symm ▸ h.add A hR
  | observe e => exact h.observe e hR
  | cancel id => exact hquiet.symm ▸ h.cancel id hop hR
  | clear => exact hquiet.symm ▸ h.clear hop hR

theorem Kept.observeAll (h : Kept P I) {events : List Event} :
    ∀ {R : Recognizer} {told : List Notice}, I R told →
      I (R.observeAll events).1 (told ++ Report.notices (R.observeAll events).2) := by
  induction events with
  | nil =>
      intro R told hR
      exact (List.append_nil told).symm ▸ hR
  | cons e events ih =>
      intro R told hR
      rw [Recognizer.observeAll, Report.notices_append, ← List.append_assoc]
      exact ih (h.observe e hR)

theorem Kept.call (h : Kept P I) {c : Call} (hc : ∀ op, c = .one op → P op) (hR : I R told) :
    I (R.call L c).1 (told ++ Report.notices (R.call L c).2) := by
  cases c with
  | one op => exact h.apply (hc op rfl) hR
  | batch events => exact h.observeAll hR

/-- **What everything keeps, all calls keep.** -/
theorem Kept.serve (h : Kept P I) {calls : List Call} :
    ∀ {R : Recognizer} {told : List Notice}, (∀ op, .one op ∈ calls → P op) → I R told →
      I (R.serve L calls).1 (told ++ (R.serve L calls).2) := by
  induction calls with
  | nil =>
      intro R told _ hR
      exact (List.append_nil told).symm ▸ hR
  | cons c calls ih =>
      intro R told hP hR
      have hfirst := h.call (L := L) (c := c)
        (fun op hop => hP op (hop ▸ List.mem_cons_self)) hR
      rw [Recognizer.serve, ← List.append_assoc]
      exact ih (fun op hop => hP op (List.mem_cons_of_mem _ hop)) hfirst

/-- Nothing has been told before. -/
theorem Kept.serve_nil (h : Kept P I) {calls : List Call} (hP : ∀ op, .one op ∈ calls → P op)
    (hR : I R []) : I (R.serve L calls).1 (R.serve L calls).2 :=
  h.serve hP hR

end Recognizer

end Multitouch
