import Multitouch.Proofs.Automaton.Entered
import Multitouch.Proofs.Recognizer.Outcomes
import Multitouch.Proofs.Slots

/-!
# What holds of a recognizer at any time

Whatever a recognizer does, there are no more live attempts than it has room for, they stand in
the order of their numbers, and each of them is sound: the states it is in are such as a step
leads on to, and its slots are consistent (`Recognizer.Coherent`).  A step makes an attempt sound
whatever states it was in, as long as its automaton is one in which nothing leads back to the start
(`Attempt.sound_of_feed`); so a new attempt, which is in the initial state before its first step,
is sound as soon as it is live.
-/

namespace Multitouch

namespace Attempt

/-- The slots are consistent, and the automaton is underway if nothing in it leads back to the
start. -/
structure Sound (a : Attempt) : Prop where
  underway : a.automaton.Rooted → a.automaton.Underway a.states
  slots : a.slots.Consistent

variable {a b : Attempt}

/-- **A step makes an attempt sound**, or ends it. -/
theorem sound_of_feed {x : Symbol} (hs : a.slots.Consistent) (h : (a.feed x).1 = some b) :
    b.Sound := by
  rw [feed_fst] at h
  split at h
  · cases h
  · next hgoes =>
      cases h
      exact ⟨fun hA => hA.underway (Bool.eq_false_of_not_eq_true hgoes), hs⟩

theorem Sound.observe {e : Event} (ha : a.Sound) (h : (a.observe e).1 = some b) : b.Sound :=
  sound_of_feed (a := { a with slots := (a.slots.observe e).2 }) (ha.slots.observe e) h

theorem sound_of_firstStep {id gesture : Nat} {A : Automaton} {e : Event}
    (h : (Recognizer.firstStep id gesture A e).1 = some b) : b.Sound :=
  sound_of_feed (a := .start id gesture A e) (Slots.consistent_empty.observe e) h

end Attempt

namespace Recognizer

/-- There is room for the live attempts, they stand in the order of their numbers, the next number
is none of theirs, and they are sound. -/
structure Coherent (R : Recognizer) : Prop where
  room : R.live.length ≤ R.capacity
  ascending : R.live.Pairwise fun a b => a.id < b.id
  fresh : R.Fresh
  sound : ∀ a ∈ R.live, a.Sound

variable {R : Recognizer}

theorem coherent_start (capacity : Nat) : Coherent { capacity } :=
  ⟨Nat.zero_le _, .nil, fresh_start capacity, nofun⟩

/-- Attempts that go on keep their numbers, so those that are left stand in the same order. -/
theorem Coherent.proceed (h : R.Coherent) (e : Event) : (R.proceed e).1.Coherent where
  room := by
    rw [live_proceed]
    exact (List.length_filterMap_le _ _).trans h.room
  ascending := by
    rw [live_proceed, List.pairwise_filterMap]
    refine h.ascending.imp fun hlt a ha b hb => ?_
    rw [Attempt.id_of_observe ha, Attempt.id_of_observe hb]
    exact hlt
  fresh := h.fresh.proceed e
  sound b hb := by
    rw [live_proceed] at hb
    obtain ⟨a, ha, hab⟩ := List.mem_filterMap.mp hb
    exact (h.sound a ha).observe hab

/-- A new attempt has a higher number than all before it. -/
theorem Coherent.begin (h : R.Coherent) (e : Event) (gesture : Nat) (A : Automaton) :
    (R.begin e gesture A).1.Coherent := by
  have hroom : (R.begin e gesture A).1.live.length ≤ (R.begin e gesture A).1.capacity := by
    rw [capacity_begin]
    exact (R.length_begin_le e gesture A).trans (max_le h.room le_rfl)
  have hfresh := (R.begins_begin e gesture A).fresh h.fresh
  rcases R.begin_cases e gesture A with ⟨reports, hsame, -⟩ | hnext
  · rw [hsame]
    exact h
  · rw [hnext] at hroom hfresh ⊢
    refine ⟨hroom, ?_, hfresh, fun b hb => ?_⟩
    · refine List.pairwise_append.mpr ⟨h.ascending, ?_, fun a ha b hb => ?_⟩
      · cases (firstStep R.nextId gesture A e).1 with
        | none => exact .nil
        | some b => exact List.pairwise_singleton _ b
      · rw [id_of_firstStep hb]
        exact h.fresh a ha
    · rcases List.mem_append.mp hb with hb | hb
      · exact h.sound b hb
      · exact Attempt.sound_of_firstStep (Option.mem_toList.mp hb)

theorem Coherent.cancel (h : R.Coherent) (id : Nat) : (R.cancel id).2.Coherent where
  room := (List.length_filter_le _ _).trans h.room
  ascending := h.ascending.filter _
  fresh := h.fresh.cancel id
  sound a ha := h.sound a (List.mem_filter.mp ha).1

/-- **Whatever is done keeps a recognizer coherent**, and its capacity as it is. -/
theorem kept_coherent (capacity : Nat) :
    Kept (fun _ => True) fun R _ => R.capacity = capacity ∧ R.Coherent where
  proceed e h := ⟨h.1, h.2.proceed e⟩
  begin e g A h := ⟨(capacity_begin _).trans h.1, h.2.begin e g A⟩
  add _ h := ⟨h.1, h.2.room, h.2.ascending, h.2.fresh, h.2.sound⟩
  cancel id _ h := ⟨h.1, h.2.cancel id⟩
  clear _ h := ⟨h.1, Nat.zero_le _, .nil, nofun, nofun⟩

/-- Calls that add patterns only, be they written out or not, add what patterns have in common. -/
theorem adds_of_patterns {L : Dialect} {P : Automaton → Prop} {calls : List Call}
    (hP : ∀ es, P (.ofExpressions L es))
    (hcalls : ∀ A, .one (.add A) ∈ calls → ∃ es, A = .ofExpressions L es) :
    ∀ c ∈ calls, Adds P L c := by
  intro c hc
  match c, hc with
  | .batch _, _ => trivial
  | .one (.observe _), _ => trivial
  | .one (.cancel _), _ => trivial
  | .one .clear, _ => trivial
  | .one (.add A), hc =>
      obtain ⟨es, rfl⟩ := hcalls A hc
      exact hP es
  | .one (.register pattern), _ =>
      intro A hA
      obtain ⟨es, -, rfl⟩ := Automaton.ofPattern_eq_ok hA
      exact hP es

/-- **A recognizer is coherent at any time.**  After any calls, where what is added to the gestures
are patterns, there are no more live attempts than the capacity, in ascending order of their
numbers, which the next number exceeds.  Each has the automaton of its gesture.  The states it is
in are some, in ascending order, of the states of its automaton, without the initial one, and an
edge leaves at least one of them.  Its slots are consistent. -/
theorem coherent (L : Dialect) (capacity : Nat) (calls : List Call)
    (hadd : ∀ A, .one (.add A) ∈ calls → ∃ es, A = .ofExpressions L es) :
    let R := (serve L { capacity } calls).1
    R.live.length ≤ capacity ∧
    (R.live.map (·.id)).Pairwise (· < ·) ∧
    ∀ a ∈ R.live, a.id < R.nextId ∧ R.gestures[a.gesture]? = some a.automaton ∧
      a.states ≠ [] ∧ a.states.Pairwise (· < ·) ∧ (∀ i ∈ a.states, i < a.automaton.size) ∧
      Automaton.initial ∉ a.states ∧
      (∃ i ∈ a.states, ∃ s, a.automaton.states[i]? = some s ∧ s.edges ≠ []) ∧
      a.slots.Consistent := by
  intro R
  obtain ⟨hcapacity, h⟩ : R.capacity = capacity ∧ R.Coherent :=
    (kept_coherent capacity).serve_nil (fun _ _ => trivial) ⟨rfl, coherent_start capacity⟩
  have hregistered : R.Registered := Registered.serve (R := { capacity }) nofun
  have hrooted : ∀ A ∈ R.gestures, A.Rooted :=
    gestures_serve (adds_of_patterns (Automaton.rooted_ofExpressions L) hadd)
      (fun A hA => absurd hA (Array.not_mem_empty A))
  refine ⟨hcapacity ▸ h.room, List.pairwise_map.mpr h.ascending, fun a ha => ?_⟩
  have hgesture := hregistered a ha
  have hstates := (h.sound a ha).underway (hrooted _ (Array.mem_of_getElem? hgesture))
  exact ⟨h.fresh a ha, hgesture, hstates.ne_nil, hstates.ascending, hstates.lt,
    hstates.not_initial, hstates.leaves, (h.sound a ha).slots⟩

/-- Strokes are to be recognized, and a contact moves twice. -/
def strokeAndMore : List Call :=
  [.one (.add (.ofExpressions everywhere strokes)), .batch [⟨.move, 7, "a"⟩, ⟨.move, 7, "a"⟩]]

theorem coherent_strokeAndMore :
    let R := (serve everywhere { capacity := 1 } strokeAndMore).1
    (∀ A, .one (.add A) ∈ strokeAndMore → ∃ es, A = .ofExpressions everywhere es) ∧
      R.live.map (·.id) = [0] ∧
      ∀ a ∈ R.live, a.id < R.nextId ∧ R.gestures[a.gesture]? = some a.automaton ∧
        Automaton.initial ∉ a.states ∧ a.slots.Consistent := by
  intro R
  have hadd : ∀ A, .one (.add A) ∈ strokeAndMore → ∃ es, A = .ofExpressions everywhere es := by
    intro A hA
    obtain rfl : A = .ofExpressions everywhere strokes := by simpa [strokeAndMore] using hA
    exact ⟨_, rfl⟩
  have hids : (serve everywhere { capacity := 1 } strokeAndMore).1.live.map (·.id) = [0] := by
    decide +kernel
  obtain ⟨-, -, hlive⟩ := coherent everywhere 1 strokeAndMore hadd
  refine ⟨hadd, hids, fun a ha => ?_⟩
  obtain ⟨hid, hgesture, -, -, -, hinitial, -, hslots⟩ := hlive a ha
  exact ⟨hid, hgesture, hinitial, hslots⟩

end Recognizer

end Multitouch
