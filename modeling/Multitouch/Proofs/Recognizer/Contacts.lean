import Multitouch.Proofs.Recognizer.Faithful
import Multitouch.Proofs.Recognizer.Lifecycle
import Multitouch.Proofs.Slots

/-!
# Contacts come and go with the events

Which contacts an attempt has bound can be told from the events since its creation: a contact is
bound if the last event of it is no release (`Slots.bound_after`).  It holds the same slot all the
while (`Slots.get?_after`), and the symbol of the release that unbinds it still has this slot.  A
release of a contact that is not bound leaves the bindings as they were
(`Slots.get?_observe_of_unbound`).

An attempt that is live has taken in every event since the one that created it.  So whatever
attempt has its number, as long as there is one, has the slots that these events lead to
(`Recognizer.Holds`).
-/

namespace Multitouch

/-! ### Bindings and events -/

namespace Slots

variable {s : Slots} {e : Event} {events : List Event} {t i : Nat}

/-- A bound contact keeps its slot until it is released. -/
theorem get?_observe_of_bound (h : s.get? t = some i) (he : e.touch = t → e.phase ≠ .release) :
    (s.observe e).2.get? t = some i := by
  rw [get?_observe]
  split
  · next ht =>
      subst ht
      rw [if_neg (he rfl), assign_of_bound h]
  · exact h

/-- A contact that is released without being bound leaves no trace. -/
theorem get?_observe_of_unbound (h : s.get? e.touch = none) (he : e.phase = .release) :
    (s.observe e).2.get? t = s.get? t := by
  rw [get?_observe, if_pos he]
  split
  · next ht => rw [ht, h]
  · rfl

theorem get?_after (h : s.get? t = some i)
    (hkeep : ∀ f ∈ events, f.touch = t → f.phase ≠ .release) :
    (s.after events).get? t = some i := by
  induction events generalizing s with
  | nil => exact h
  | cons e events ih =>
      have he := get?_observe_of_bound h (hkeep e List.mem_cons_self)
      exact ih he fun f hf => hkeep f (List.mem_cons_of_mem _ hf)

/-- The contact of the first event holds slot `1` until it is released. -/
theorem get?_first (hkeep : ∀ f ∈ e :: events, f.touch = e.touch → f.phase ≠ .release) :
    (empty.after (e :: events)).get? e.touch = some 1 := by
  have hfirst : (empty.observe e).2.get? e.touch = some 1 := by
    rw [get?_observe, if_pos rfl, if_neg (hkeep e List.mem_cons_self rfl), assign_empty]
  have hlater := get?_after hfirst fun f hf => hkeep f (List.mem_cons_of_mem e hf)
  exact hlater

theorem Consistent.after (h : s.Consistent) : (s.after events).Consistent := by
  induction events generalizing s with
  | nil => exact h
  | cons e events ih => exact ih (h.observe e)

/-- **A contact is bound if the last event of it is no release.** -/
theorem bound_after (events : List Event) (t : Nat) :
    (∃ i, (empty.after events).get? t = some i) ↔
      ∃ f, (events.filter (·.touch == t)).getLast? = some f ∧ f.phase ≠ .release := by
  induction events using List.reverseRecOn with
  | nil => exact iff_of_false (fun ⟨_, h⟩ => nomatch h) (fun ⟨_, h, _⟩ => nomatch h)
  | append_singleton events e ih =>
      rw [after_concat, get?_observe, List.filter_append]
      by_cases ht : e.touch = t
      · rw [if_pos ht.symm, List.filter_singleton, beq_iff_eq.mpr ht]
        simp
      · rw [if_neg (Ne.symm ht), List.filter_singleton, beq_eq_false_iff_ne.mpr ht]
        simpa using ih

end Slots

/-! ### What is told of symbols -/

namespace Attempt

variable {a b : Attempt}

theorem slots_of_feed {x : Symbol} (h : (a.feed x).1 = some b) : b.slots = a.slots := by
  rw [feed_fst] at h
  split at h
  · cases h
  · cases h
    rfl

/-- A step is reported with the symbol that has been read. -/
theorem stepped_feed (a : Attempt) (x : Symbol) :
    .stepped a.id a.gesture x (a.automaton.step a.states x) ∈ (a.feed x).2 := by
  unfold feed
  dsimp only
  split <;> exact List.mem_cons_self

end Attempt

namespace Recognizer

variable {L : Dialect} {R : Recognizer} {a : Attempt} {e : Event} {id gesture : Nat} {s : Slots}

/-- A live attempt reads an event by the slot of its contact. -/
theorem stepped_of_live (ha : a ∈ R.live) (e : Event) :
    .stepped a.id a.gesture (a.slots.observe e).1
      (a.automaton.step a.states (a.slots.observe e).1) ∈ (R.observe e).2 :=
  List.mem_append_left _ (List.mem_flatMap.mpr ⟨a.observe e, List.mem_map_of_mem ha,
    { a with slots := (a.slots.observe e).2 }.stepped_feed (a.slots.observe e).1⟩)

/-- A new attempt reads the event that creates it as that of its first contact. -/
theorem stepped_of_begin {A : Automaton} {k : Nat}
    (h : .created id gesture ∈ Report.notices (R.begin e k A).2) :
    ∃ step, .stepped id gesture (e.symbol 1) step ∈ (R.begin e k A).2 := by
  rcases R.begin_cases e k A with ⟨reports, hsame, hquiet⟩ | hnext
  · rw [hsame, hquiet] at h
    cases h
  · rw [hnext, notices_created] at h
    rw [hnext]
    rcases List.mem_cons.mp h with h | h
    · cases h
      exact ⟨_, List.mem_cons_of_mem _ (Attempt.stepped_feed _ _)⟩
    · exact absurd rfl ((attempt_of_firstStep h).2 id gesture)

theorem stepped_of_beginAll {gs : List (Automaton × Nat)} :
    ∀ {R : Recognizer}, .created id gesture ∈ Report.notices (beginAll e gs R).2 →
      ∃ step, .stepped id gesture (e.symbol 1) step ∈ (beginAll e gs R).2 := by
  induction gs with
  | nil => exact fun h => nomatch h
  | cons p gs ih =>
      obtain ⟨A, k⟩ := p
      intro R h
      rw [beginAll, Report.notices_append] at h
      rcases List.mem_append.mp h with h | h
      · obtain ⟨step, hstep⟩ := stepped_of_begin h
        exact ⟨step, List.mem_append_left _ hstep⟩
      · obtain ⟨step, hstep⟩ := ih h
        exact ⟨step, List.mem_append_right _ hstep⟩

theorem stepped_of_created (h : .created id gesture ∈ Report.notices (R.observe e).2) :
    ∃ step, .stepped id gesture (e.symbol 1) step ∈ (R.observe e).2 := by
  rw [notices_observe] at h
  have hnew := (List.mem_append.mp h).resolve_left not_created_proceed
  obtain ⟨step, hstep⟩ := stepped_of_beginAll hnew
  exact ⟨step, List.mem_append_right _ hstep⟩

/-! ### Bindings of an attempt -/

/-- The attempt has been created, and has these slots if it is live. -/
structure Holds (R : Recognizer) (id : Nat) (s : Slots) : Prop where
  lt : id < R.nextId
  slots : ∀ a ∈ R.live, a.id = id → a.slots = s

theorem mem_attempts : a ∈ R.attempts id ↔ a ∈ R.live ∧ a.id = id := by
  rw [attempts, List.mem_filter, beq_iff_eq]

theorem Started.holds {A : Automaton} {reports : List Report}
    (h : Started e id gesture A R reports) : R.Holds id (Slots.empty.observe e).2 where
  lt := h.lt
  slots b hb hid := by
    have hmem := mem_attempts.mpr ⟨hb, hid⟩
    rw [h.attempts] at hmem
    have hb := Attempt.slots_of_feed (Option.mem_toList.mp hmem)
    exact hb

theorem Holds.observe (h : R.Holds id s) (e : Event) :
    (R.observe e).1.Holds id (s.observe e).2 where
  lt := h.lt.trans_le (R.begins_observe e).nextId_le
  slots b hb hid := by
    have hmem := mem_attempts.mpr ⟨hb, hid⟩
    rw [attempts_observe h.lt] at hmem
    obtain ⟨a, ha, hab⟩ := List.mem_filterMap.mp hmem
    obtain ⟨hlive, haid⟩ := mem_attempts.mp ha
    have hb := Attempt.slots_of_feed hab
    exact hb.trans (h.slots a hlive haid ▸ rfl)

/-- Only events change what an attempt has bound. -/
theorem Holds.apply (h : R.Holds id s) (op : Op) :
    (R.apply L op).1.Holds id (s.after op.event?.toList) := by
  cases op with
  | register pattern =>
      unfold Recognizer.apply
      dsimp only
      split <;> exact ⟨h.lt, h.slots⟩
  | add A => exact ⟨h.lt, h.slots⟩
  | observe e => exact h.observe e
  | cancel k => exact ⟨h.lt, fun a ha => h.slots a (List.mem_filter.mp ha).1⟩
  | clear => exact ⟨h.lt, nofun⟩

/-- **The slots of an attempt are those that the events lead to.** -/
theorem Holds.run {ops : List Op} : ∀ {R : Recognizer} {s : Slots}, R.Holds id s →
    (R.run L ops).Holds id (s.after (ops.filterMap Op.event?)) := by
  induction ops with
  | nil => exact fun h => h
  | cons op ops ih =>
      intro R s h
      rw [Op.events_cons, Slots.after_append]
      exact ih (h.apply op)

theorem mem_events {ops : List Op} {f : Event} :
    f ∈ ops.filterMap Op.event? ↔ .observe f ∈ ops := by
  rw [List.mem_filterMap]
  constructor
  · rintro ⟨op, hop, hevent⟩
    cases op with
    | observe g => exact Option.some.inj hevent ▸ hop
    | _ => cases hevent
  · exact fun hop => ⟨_, hop, rfl⟩

/-- A live attempt has been created by an event. -/
theorem exists_creation {capacity : Nat} {ops : List Op}
    (ha : a ∈ (run L { capacity } ops).live) :
    ∃ before e after, ops = before ++ .observe e :: after ∧
      .created a.id a.gesture ∈ Report.notices ((run L { capacity } before).observe e).2 := by
  have hrun : ∀ ops, (serve L { capacity } (ops.map .one)).1 = run L { capacity } ops := by
    intro ops
    rw [serve_fst, List.flatMap_map]
    exact congrArg _ (List.flatMap_singleton' ops)
  have hmem : a ∈ (serve L { capacity } (ops.map .one)).1.attempts a.id :=
    mem_attempts.mpr ⟨hrun ops ▸ ha, rfl⟩
  have hcreated : .created a.id a.gesture ∈ (serve L { capacity } (ops.map .one)).2 := by
    cases stage_serve L capacity (ops.map .one) a.id with
    | coming hle =>
        rw [(fresh_serve L capacity _).attempts_eq_nil hle] at hmem
        cases hmem
    | live b _ hone htold =>
        rw [hone] at hmem
        obtain rfl := List.mem_singleton.mp hmem
        exact (Notice.mem_about.mp htold.created_mem).1
    | past _ _ _ hnone =>
        rw [hnone] at hmem
        cases hmem
  obtain ⟨earlier, c, later, hcalls, hc⟩ := mem_serve hcreated
  obtain ⟨before, rest, rfl, rfl, hrest⟩ := List.map_eq_append_iff.mp hcalls
  obtain ⟨op, after, rfl, rfl, -⟩ := List.map_eq_cons_iff.mp hrest
  rw [hrun] at hc
  obtain ⟨e, rfl, -⟩ := exists_event hc
  exact ⟨before, e, after, rfl, hc⟩

/-- **A live attempt has the slots that the events since its creation lead to**, and so has
whatever attempt has its number. -/
theorem exists_events {capacity : Nat} {ops : List Op}
    (ha : a ∈ (run L { capacity } ops).live) :
    ∃ before e after, ops = before ++ .observe e :: after ∧
      .created a.id a.gesture ∈ Report.notices ((run L { capacity } before).observe e).2 ∧
      a.slots = Slots.empty.after (e :: after.filterMap Op.event?) ∧
      (run L { capacity } ops).Holds a.id a.slots := by
  obtain ⟨before, e, after, rfl, hcreated⟩ := exists_creation ha
  obtain ⟨A, -, hstarted⟩ := observe_created ((fresh_start capacity).run (L := L)) hcreated
  have hholds : (run L { capacity } (before ++ .observe e :: after)).Holds a.id
      (Slots.empty.after (e :: after.filterMap Op.event?)) := by
    rw [run_append]
    exact hstarted.holds.run
  have hslots : a.slots = Slots.empty.after (e :: after.filterMap Op.event?) :=
    hholds.slots a ha rfl
  exact ⟨before, e, after, rfl, hcreated, hslots, hslots ▸ hholds⟩

/-- **Contacts come and go with the events.**  A live attempt has been created by an event, which
it has read as that of contact `1`.  Of the events since then, including that one, the last one of
a contact tells whether the contact is bound: it is, if there is such an event and it is no
release.  The contact that has started the attempt holds slot `1` until it is first released.  Any
contact that is bound holds its slot as long as it is not released, and what is read of it, up to
its release, has this slot.  A release of a contact that is not bound is read with the least free
slot, and leaves all bindings as they were. -/
theorem contacts_follow_events (L : Dialect) (capacity : Nat) (calls : List Call) (a : Attempt)
    (ha : a ∈ (serve L { capacity } calls).1.live) :
    let R := (serve L { capacity } calls).1
    let reads (x : Symbol) : Report := .stepped a.id a.gesture x (a.automaton.step a.states x)
    ∃ before e after, calls.flatMap Call.ops = before ++ .observe e :: after ∧
      let created := (run L { capacity } before).observe e
      let events := e :: after.filterMap Op.event?
      .created a.id a.gesture ∈ Report.notices created.2 ∧
      (∃ step, .stepped a.id a.gesture (e.symbol 1) step ∈ created.2) ∧
      (∀ t, (∃ i, a.slots.get? t = some i) ↔
        ∃ f, (events.filter (·.touch == t)).getLast? = some f ∧ f.phase ≠ .release) ∧
      ((∀ f ∈ events, f.touch = e.touch → f.phase ≠ .release) →
        a.slots.get? e.touch = some 1) ∧
      (∀ t i, a.slots.get? t = some i →
        (∀ f : Event, f.touch = t → reads (f.symbol i) ∈ (R.observe f).2) ∧
        ∀ later b, b ∈ (R.serve L later).1.live → b.id = a.id →
          (∀ f, .observe f ∈ later.flatMap Call.ops → f.touch = t → f.phase ≠ .release) →
            b.slots.get? t = some i) ∧
      ∀ f : Event, f.phase = .release → a.slots.get? f.touch = none →
        (∃ i, IsLeast {i | a.slots.Free i} i ∧ reads (f.symbol i) ∈ (R.observe f).2) ∧
        ∀ b ∈ (R.observe f).1.live, b.id = a.id → ∀ t, b.slots.get? t = a.slots.get? t := by
  intro R reads
  have hR : R = run L { capacity } (calls.flatMap Call.ops) := serve_fst calls { capacity }
  have hlive : a ∈ (run L { capacity } (calls.flatMap Call.ops)).live := hR ▸ ha
  obtain ⟨before, e, after, hops, hcreated, hslots, hholds⟩ := exists_events hlive
  rw [← hR] at hholds
  have hconsistent : a.slots.Consistent := hslots ▸ Slots.consistent_empty.after
  refine ⟨before, e, after, hops, hcreated, stepped_of_created hcreated,
    fun t => hslots ▸ Slots.bound_after _ t, fun hkeep => hslots ▸ Slots.get?_first hkeep,
    fun t i hti => ⟨fun f hf => ?_, fun later b hb hid hkeep => ?_⟩,
    fun f hf hnone => ⟨⟨a.slots.lowestFree, hconsistent.isLeast_lowestFree, ?_⟩,
      fun b hb hid t => ?_⟩⟩
  · have hread := stepped_of_live ha f
    rw [Slots.observe_fst, hf, Slots.assign_of_bound hti] at hread
    exact hread
  · rw [serve_fst] at hb
    rw [(hholds.run (L := L)).slots b hb hid]
    exact Slots.get?_after hti fun f hf => hkeep f (mem_events.mp hf)
  · have hread := stepped_of_live ha f
    rw [Slots.observe_fst, Slots.assign_of_unbound hnone] at hread
    exact hread
  · rw [(hholds.observe f).slots b hb hid]
    exact Slots.get?_observe_of_unbound hnone hf

/-- A stroke has begun, and is going on. -/
def stroking : List Call :=
  [.one (.register "m1*"), .batch [⟨.move, 7, "a"⟩, ⟨.move, 7, "a"⟩]]

theorem contacts_follow_events_stroking :
    let R := (serve everywhere { capacity := 1 } stroking).1
    ∃ a ∈ R.live, a.slots.get? 7 = some 1 ∧ a.slots.get? 8 = none ∧
      (∃ step, .stepped a.id a.gesture ⟨⟨.release, 1⟩, "a"⟩ step ∈
        (R.observe ⟨.release, 7, "a"⟩).2) ∧
      ∃ i step, IsLeast {i | a.slots.Free i} i ∧
        .stepped a.id a.gesture ⟨⟨.release, i⟩, "a"⟩ step ∈ (R.observe ⟨.release, 8, "a"⟩).2 := by
  intro R
  have hlive : (serve everywhere { capacity := 1 } stroking).1.live.any
      (fun a => a.slots.get? 7 == some 1 && a.slots.get? 8 == none) = true := by decide +kernel
  obtain ⟨a, ha, hbound⟩ := List.any_eq_true.mp hlive
  obtain ⟨h₇, h₈⟩ := (Bool.and_eq_true_iff.mp hbound).imp beq_iff_eq.mp beq_iff_eq.mp
  obtain ⟨-, -, -, -, -, -, -, -, hkeeps, hfree⟩ :=
    contacts_follow_events everywhere 1 stroking a ha
  obtain ⟨i, hleast, hread⟩ := (hfree ⟨.release, 8, "a"⟩ rfl h₈).1
  exact ⟨a, ha, h₇, h₈, ⟨_, (hkeeps 7 1 h₇).1 ⟨.release, 7, "a"⟩ rfl⟩, i, _, hleast, hread⟩

end Recognizer

end Multitouch
