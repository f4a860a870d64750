import Multitouch.Proofs.Automaton.Edges
import Multitouch.Proofs.Recognizer.Runs

/-!
# An attempt is a run of its automaton

The events that a recognizer takes in while an attempt is live make up a word: contacts are
numbered by slots of their own, from the event that created the attempt on.  `Attempt.reading` is
what the attempt should be after these events, by the word alone.  One event takes it to what it
should be next (`observe_reading`) and is told as the word says (`notices_reading`).

`Follows` says that the recognizer has just this attempt while the word lasts, and none with its
number afterwards.  Every operation keeps it, unless it drops the attempt (`Follows.apply`).
-/

namespace Multitouch

/-! ### Events as words -/

namespace Slots

/-- The symbols that events are, where contacts are bound and unbound as they come and go. -/
def transcribe (s : Slots) : List Event → List Symbol
  | [] => []
  | e :: events => (s.observe e).1 :: (s.observe e).2.transcribe events

/-- The bindings after events. -/
def after (s : Slots) (events : List Event) : Slots :=
  events.foldl (fun s e => (s.observe e).2) s

theorem transcribe_concat (events : List Event) (e : Event) :
    ∀ s : Slots, s.transcribe (events ++ [e]) =
      s.transcribe events ++ [((s.after events).observe e).1] := by
  induction events with
  | nil => exact fun _ => rfl
  | cons f events ih => exact fun s => congrArg ((s.observe f).1 :: ·) (ih _)

theorem after_append (s : Slots) (events more : List Event) :
    s.after (events ++ more) = (s.after events).after more :=
  List.foldl_append

theorem after_concat (s : Slots) (events : List Event) (e : Event) :
    s.after (events ++ [e]) = ((s.after events).observe e).2 :=
  s.after_append events [e]

end Slots

theorem Op.events_cons (op : Op) (ops : List Op) :
    (op :: ops).filterMap event? = op.event?.toList ++ ops.filterMap event? := by
  rw [List.filterMap_cons]
  cases op.event? <;> rfl

/-! ### Words and what they are told as -/

namespace Automaton

/-- No prefix of the word, short of the empty one, leads to states that cannot be left. -/
def Lasts (A : Automaton) (word : List Symbol) : Prop :=
  ∀ u, u ≠ [] → u <+: word → A.exhausted (A.reached u) = false

theorem lasts_nil (A : Automaton) : A.Lasts [] :=
  fun _ hu hp => absurd (List.prefix_nil.mp hp) hu

theorem lasts_concat {A : Automaton} {word : List Symbol} {x : Symbol} :
    A.Lasts (word ++ [x]) ↔
      A.Lasts word ∧ A.exhausted (A.reached (word ++ [x])) = false := by
  constructor
  · exact fun h => ⟨fun u hu hp => h u hu (hp.trans (List.prefix_append _ _)),
      h _ (by simp) List.prefix_rfl⟩
  · rintro ⟨h, hx⟩ u hu hp
    rcases List.prefix_concat_iff.mp hp with rfl | hp
    · exact hx
    · exact h u hu hp

/-- What is told of the step by which `x` follows `word`: that it advances, with the tags of the
step, if the states it leads to are not none; and how the attempt ends, if they cannot be left. -/
def told (A : Automaton) (id gesture : Nat) (word : List Symbol) (x : Symbol) : List Notice :=
  (if A.reached (word ++ [x]) = [] then []
    else [.advanced id gesture (A.step (A.reached word) x).tags]) ++
  if A.exhausted (A.reached (word ++ [x])) then
    [.terminated id gesture
      (if A.accepts word || A.accepts (word ++ [x]) then .accepted else .rejected)]
  else []

end Automaton

/-! ### One attempt -/

namespace Attempt

variable {id gesture : Nat} {A : Automaton} {events : List Event}

/-- What an attempt is after the events that it has taken in. -/
def reading (id gesture : Nat) (A : Automaton) (events : List Event) : Attempt where
  id := id
  gesture := gesture
  automaton := A
  states := A.reached (Slots.empty.transcribe events)
  slots := Slots.empty.after events

/-- **An event takes an attempt to what it should be next**, or the attempt ends. -/
theorem observe_reading (e : Event) :
    ((reading id gesture A events).observe e).1 =
      if A.exhausted (A.reached (Slots.empty.transcribe (events ++ [e]))) then none
      else some (reading id gesture A (events ++ [e])) := by
  rw [observe_eq, feed_fst, reading, reading, Slots.transcribe_concat, Slots.after_concat,
    Automaton.reached_concat]

/-- **An event is told as its step in the word.** -/
theorem notices_reading (hA : A.Leading) (e : Event) :
    Report.notices ((reading id gesture A events).observe e).2 =
      A.told id gesture (Slots.empty.transcribe events)
        ((Slots.empty.after events).observe e).1 := by
  rw [observe_eq, notices_feed, Automaton.told, Automaton.reached_concat, Automaton.accepts_eq,
    Automaton.accepts_eq, Automaton.reached_concat]
  simp only [Automaton.step_states_eq_nil hA]
  rfl

/-- A first step is a step from no events at all: in a table without bindings, the contact of the
first event gets slot `1`. -/
theorem firstStep_eq (e : Event) :
    Recognizer.firstStep id gesture A e = (reading id gesture A []).observe e := rfl

end Attempt

/-! ### One attempt among others -/

namespace Recognizer

variable {L : Dialect} {R : Recognizer} {id gesture : Nat} {A : Automaton} {events : List Event}

/-- The recognizer has the attempt that has taken `events` in, as long as their word lasts. -/
structure Follows (R : Recognizer) (id gesture : Nat) (A : Automaton) (events : List Event) :
    Prop where
  lt : id < R.nextId
  live : A.Lasts (Slots.empty.transcribe events) →
    R.attempts id = [.reading id gesture A events]
  ended : ¬ A.Lasts (Slots.empty.transcribe events) → R.attempts id = []

/-- An attempt that has read a word which lasts takes one more event in. -/
theorem toList_reading (id gesture : Nat) (e : Event)
    (h : A.Lasts (Slots.empty.transcribe events)) :
    (A.Lasts (Slots.empty.transcribe (events ++ [e])) →
      ((Attempt.reading id gesture A events).observe e).1.toList =
        [.reading id gesture A (events ++ [e])]) ∧
    (¬ A.Lasts (Slots.empty.transcribe (events ++ [e])) →
      ((Attempt.reading id gesture A events).observe e).1.toList = []) := by
  rw [Attempt.observe_reading, Slots.transcribe_concat, Automaton.lasts_concat,
    ← Slots.transcribe_concat]
  cases hx : A.exhausted (A.reached (Slots.empty.transcribe (events ++ [e]))) with
  | true => exact ⟨fun hl => absurd hl.2 nofun, fun _ => rfl⟩
  | false => exact ⟨fun _ => rfl, fun hl => absurd ⟨h, rfl⟩ hl⟩

theorem Follows.observe (h : R.Follows id gesture A events) (e : Event) :
    (R.observe e).1.Follows id gesture A (events ++ [e]) := by
  have hobserve := attempts_observe (e := e) h.lt
  have hlt : id < (R.observe e).1.nextId :=
    h.lt.trans_le (R.begins_observe e).nextId_le
  by_cases hl : A.Lasts (Slots.empty.transcribe events)
  · have hone : (R.observe e).1.attempts id =
        ((Attempt.reading id gesture A events).observe e).1.toList := by
      rw [hobserve, h.live hl]
      cases hb : ((Attempt.reading id gesture A events).observe e).1 <;> simp [hb]
    have hs := toList_reading id gesture e hl
    exact ⟨hlt, fun hl => hone.trans (hs.1 hl), fun hl => hone.trans (hs.2 hl)⟩
  · have hl' : ¬ A.Lasts (Slots.empty.transcribe (events ++ [e])) := fun hl' => by
      rw [Slots.transcribe_concat, Automaton.lasts_concat] at hl'
      exact hl hl'.1
    -- an attempt that is not there does not come back
    rw [h.ended hl] at hobserve
    exact ⟨hlt, fun h => absurd h hl', fun _ => hobserve⟩

/-- A created attempt is followed from the event that creates it. -/
theorem Started.follows {e : Event} {reports : List Report}
    (h : Started e id gesture A R reports) : R.Follows id gesture A [e] := by
  have hs := toList_reading id gesture e (show A.Lasts (Slots.empty.transcribe []) from A.lasts_nil)
  exact ⟨h.lt, fun hl => h.attempts.trans (hs.1 hl), fun hl => h.attempts.trans (hs.2 hl)⟩

/-- **Only dropping an attempt keeps it from going on as its word says.** -/
theorem Follows.apply (h : R.Follows id gesture A events) {op : Op} (hc : op ≠ .cancel id)
    (hr : op ≠ .clear) :
    (R.apply L op).1.Follows id gesture A (events ++ op.event?.toList) := by
  cases op with
  | register pattern =>
      rw [show (Op.register pattern).event? = none from rfl, Option.toList_none, List.append_nil]
      unfold Recognizer.apply
      dsimp only
      split <;> exact ⟨h.lt, h.live, h.ended⟩
  | add B => exact (List.append_nil events).symm ▸ ⟨h.lt, h.live, h.ended⟩
  | observe e => exact h.observe e
  | cancel other =>
      have hne : other ≠ id := fun e => hc (e ▸ rfl)
      have hkeep : (R.cancel other).2.attempts id = R.attempts id := by
        rw [cancel, attempts, attempts, List.filter_filter]
        refine List.filter_congr fun a _ => ?_
        by_cases ha : a.id = id
        · simp [ha, hne.symm]
        · simp [ha]
      rw [show (Op.cancel other).event? = none from rfl, Option.toList_none, List.append_nil]
      exact ⟨h.lt, fun hl => hkeep.trans (h.live hl), fun hl => hkeep.trans (h.ended hl)⟩
  | clear => exact absurd rfl hr

theorem Follows.run {ops : List Op} : ∀ {R : Recognizer} {events : List Event},
    R.Follows id gesture A events → (∀ op ∈ ops, op ≠ .cancel id ∧ op ≠ .clear) →
      (R.run L ops).Follows id gesture A (events ++ ops.filterMap Op.event?) := by
  induction ops with
  | nil =>
      intro R events h _
      rw [List.filterMap_nil, List.append_nil]
      exact h
  | cons op ops ih =>
      intro R events h hops
      obtain ⟨hc, hr⟩ := hops op List.mem_cons_self
      have hnext := ih (h.apply (L := L) hc hr) fun op hop => hops op (List.mem_cons_of_mem _ hop)
      rw [List.append_assoc] at hnext
      exact Op.events_cons op ops ▸ hnext

/-- What an event does to an attempt that is followed, and what is told of it. -/
theorem Follows.noticesOf (h : R.Follows id gesture A events) (hA : A.Leading) (e : Event) :
    (A.Lasts (Slots.empty.transcribe events) → Report.noticesOf id (R.observe e).2 =
      A.told id gesture (Slots.empty.transcribe events)
        ((Slots.empty.after events).observe e).1) ∧
    (¬ A.Lasts (Slots.empty.transcribe events) → Report.noticesOf id (R.observe e).2 = []) := by
  have hobserve := noticesOf_observe (e := e) h.lt
  refine ⟨fun hl => ?_, fun hl => ?_⟩
  · rw [hobserve, h.live hl, List.flatMap_singleton, Attempt.notices_reading hA]
  · rw [hobserve, h.ended hl, List.flatMap_nil]

theorem Follows.live_iff (h : R.Follows id gesture A events) :
    (∃ a ∈ R.live, a.id = id) ↔ A.Lasts (Slots.empty.transcribe events) := by
  have hmem : ∀ a, a ∈ R.attempts id ↔ a ∈ R.live ∧ a.id = id := fun a => by
    rw [attempts, List.mem_filter, beq_iff_eq]
  constructor
  · rintro ⟨a, ha⟩
    by_contra hl
    have hmem := (hmem a).mpr ha
    rw [h.ended hl] at hmem
    cases hmem
  · intro hl
    refine ⟨.reading id gesture A events, (hmem _).mp ?_⟩
    rw [h.live hl]
    exact List.mem_singleton_self _

theorem Follows.eq_reading (h : R.Follows id gesture A events) {a : Attempt} (ha : a ∈ R.live)
    (hid : a.id = id) : a = .reading id gesture A events := by
  have hl := h.live_iff.mp ⟨a, ha, hid⟩
  have hmem : a ∈ R.attempts id := List.mem_filter.mpr ⟨ha, beq_iff_eq.mpr hid⟩
  rw [h.live hl] at hmem
  exact List.mem_singleton.mp hmem

/-- **Every attempt is a faithful run of its automaton.**  An attempt at a gesture built from
expressions, whichever operations come before and after its creation by `e`, is live as long as
the word of its events lasts, and then in the states that the word leads to; the event that
creates it and every later event that it takes in are told as the word says; and once the word
does not last it is not heard of again. -/
theorem attempt_faithful (L : Dialect) (capacity : Nat) (es : List Expression)
    (before after : List Op) (e : Event) (id gesture : Nat)
    (hA : (run L { capacity } before).gestures[gesture]? = some (.ofExpressions L es))
    (hc : .created id gesture ∈ Report.notices ((run L { capacity } before).observe e).2)
    (hk : ∀ op ∈ after, op ≠ .cancel id ∧ op ≠ .clear) :
    let A := Automaton.ofExpressions L es
    let created := (run L { capacity } before).observe e
    let R := run L created.1 after
    let events := e :: after.filterMap Op.event?
    let word := Slots.empty.transcribe events
    ((∃ a ∈ R.live, a.id = id) ↔ A.Lasts word) ∧
    (∀ a ∈ R.live, a.id = id →
      a.gesture = gesture ∧ a.automaton = A ∧ a.states = A.reached word ∧
        a.slots = Slots.empty.after events) ∧
    Report.noticesOf id created.2 =
      .created id gesture :: A.told id gesture [] (Slots.empty.observe e).1 ∧
    ∀ f : Event,
      (A.Lasts word → Report.noticesOf id (R.observe f).2 =
        A.told id gesture word ((Slots.empty.after events).observe f).1) ∧
      (¬ A.Lasts word → Report.noticesOf id (R.observe f).2 = []) := by
  intro A created R events word
  have hlead := Automaton.leading_ofExpressions L es
  obtain ⟨B, hB, hs⟩ := observe_created ((fresh_start capacity).run (L := L)) hc
  obtain rfl : A = B := Option.some.inj (hA.symm.trans hB)
  have hR : R.Follows id gesture A events := hs.follows.run hk
  refine ⟨hR.live_iff, fun a ha hid => ?_, ?_, fun f => hR.noticesOf hlead f⟩
  · rw [hR.eq_reading ha hid]
    exact ⟨rfl, rfl, rfl, rfl⟩
  · rw [hs.notices, Attempt.firstStep_eq, Attempt.notices_reading hlead]
    rfl

/-- Every target text matches every target. -/
def everywhere : Dialect := fun _ => some fun _ => true

/-- A contact that is pressed and released. -/
def tap : List Expression :=
  [.action ⟨⟨.press, 1⟩, ".*", .once⟩, .action ⟨⟨.release, 1⟩, ".*", .once⟩]

/-- A contact that moves any number of times. -/
def strokes : List Expression :=
  [.action ⟨⟨.move, 1⟩, ".*", .any⟩]

theorem attempt_faithful_tap :
    let before := [Op.add (.ofExpressions everywhere tap)]
    let pressed := (run everywhere { capacity := 1 } before).observe ⟨.press, 7, "a"⟩
    let R := run everywhere pressed.1 [.cancel 3]
    Notice.created 0 0 ∈ Report.notices pressed.2 ∧ (∃ a ∈ R.live, a.id = 0) ∧
      Report.noticesOf 0 (R.observe ⟨.release, 7, "a"⟩).2 =
        [.advanced 0 0 [.top], .terminated 0 0 .accepted] := by
  intro before pressed R
  have hc : Notice.created 0 0 ∈ Report.notices pressed.2 := by
    have h : Report.notices pressed.2 = [.created 0 0, .advanced 0 0 [.start]] := by decide +kernel
    rw [h]
    exact List.mem_cons_self
  have hk : ∀ op ∈ [Op.cancel 3], op ≠ .cancel 0 ∧ op ≠ .clear := by simp
  have hl : (Automaton.ofExpressions everywhere tap).Lasts ([] ++ [⟨⟨.press, 1⟩, "a"⟩]) :=
    Automaton.lasts_concat.mpr ⟨Automaton.lasts_nil _, by decide +kernel⟩
  obtain ⟨hlive, -, -, hnotices⟩ :=
    attempt_faithful everywhere 1 tap before [.cancel 3] ⟨.press, 7, "a"⟩ 0 0 rfl hc hk
  exact ⟨hc, hlive.mpr hl, ((hnotices ⟨.release, 7, "a"⟩).1 hl).trans (by decide +kernel)⟩

end Recognizer

end Multitouch
