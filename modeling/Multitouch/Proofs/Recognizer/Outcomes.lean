import Multitouch.Proofs.Automaton.Exits
import Multitouch.Proofs.Recognizer.Faithful
import Multitouch.Proofs.Recognizer.Lifecycle

/-!
# How attempts end

An attempt holds the automaton of its gesture all along (`Recognizer.Registered`), and gestures
are only what has been read or added (`Recognizer.gestures_serve`).  So if all of these are
passable patterns, nothing is in the way of any attempt.

What is told of the end of an attempt is told of one step, of a live attempt or of one that has
just been created (`Recognizer.told_of_terminated`).  If the step enters states and none of them
can be left, the gesture is complete and the attempt is accepted (`Attempt.outcome_of_feed`).
-/

namespace Multitouch

theorem Automaton.ofPattern_eq_ok {L : Dialect} {pattern : String} {A : Automaton}
    (h : ofPattern L pattern = .ok A) :
    ∃ es, Expression.read pattern = .ok es ∧ A = ofExpressions L es := by
  unfold ofPattern at h
  cases hread : Expression.read pattern with
  | error _ =>
      rw [hread] at h
      cases h
  | ok es =>
      rw [hread] at h
      cases h
      exact ⟨es, rfl, rfl⟩

/-! ### The end of one attempt -/

namespace Attempt

variable {a b : Attempt} {x : Symbol} {e : Event} {id gesture : Nat}

theorem automaton_of_feed (h : (a.feed x).1 = some b) : b.automaton = a.automaton := by
  rw [feed_fst] at h
  split at h
  · cases h
  · cases h
    rfl

theorem automaton_of_observe (h : (a.observe e).1 = some b) : b.automaton = a.automaton := by
  have ha := automaton_of_feed h
  exact ha

/-- An attempt that advances enters states. -/
theorem states_of_advanced {tags : List Tag} (hA : a.automaton.Leading)
    (h : .advanced id gesture tags ∈ Report.notices (a.feed x).2) :
    (a.automaton.step a.states x).states ≠ [] := by
  intro hnil
  rw [notices_feed, if_pos ((Automaton.step_states_eq_nil hA).mp hnil), List.nil_append] at h
  split at h
  · cases List.mem_singleton.mp h
  · cases h

/-- **An attempt that enters states is not rejected**, and one that is rejected was not complete
before. -/
theorem outcome_of_feed {outcome : Outcome} (hA : a.automaton.Unblocked)
    (h : .terminated id gesture outcome ∈ Report.notices (a.feed x).2) :
    ((a.automaton.step a.states x).states ≠ [] → outcome = .accepted) ∧
      (outcome = .rejected → a.automaton.complete a.states = false) := by
  rw [notices_feed, List.mem_append] at h
  have hlast := h.resolve_left fun h => by
    split at h
    · cases h
    · cases List.mem_singleton.mp h
  split at hlast
  · next hexhausted =>
      cases List.mem_singleton.mp hlast
      refine ⟨fun hne => ?_, fun ho => ?_⟩
      · rw [hA.complete hne hexhausted, Bool.or_true, if_pos rfl]
      · by_contra hcomplete
        rw [Bool.not_eq_false] at hcomplete
        rw [hcomplete, Bool.true_or, if_pos rfl] at ho
        cases ho
  · cases hlast

end Attempt

namespace Recognizer

variable {L : Dialect} {R : Recognizer}

/-! ### Attempts and their gestures -/

/-- Each live attempt has the automaton of its gesture. -/
def Registered (R : Recognizer) : Prop :=
  ∀ a ∈ R.live, R.gestures[a.gesture]? = some a.automaton

theorem Registered.proceed (h : R.Registered) (e : Event) : (R.proceed e).1.Registered := by
  intro b hb
  rw [live_proceed] at hb
  obtain ⟨a, ha, hab⟩ := List.mem_filterMap.mp hb
  rw [Attempt.gesture_of_observe hab, Attempt.automaton_of_observe hab]
  exact h a ha

theorem Registered.begin (h : R.Registered) (e : Event) {gesture : Nat} {A : Automaton}
    (hA : R.gestures[gesture]? = some A) : (R.begin e gesture A).1.Registered := by
  rcases R.begin_cases e gesture A with ⟨reports, hsame, -⟩ | hnext
  · rw [hsame]
    exact h
  · rw [hnext]
    intro b hb
    rcases List.mem_append.mp hb with hb | hb
    · exact h b hb
    · have hstart := Option.mem_toList.mp hb
      rw [Attempt.gesture_of_feed hstart, Attempt.automaton_of_feed hstart]
      exact hA

theorem Registered.beginAll {e : Event} {gs : List (Automaton × Nat)} :
    ∀ {R : Recognizer}, R.Registered → (∀ p ∈ gs, R.gestures[p.2]? = some p.1) →
      (beginAll e gs R).1.Registered := by
  induction gs with
  | nil => exact fun h _ => h
  | cons p gs ih =>
      obtain ⟨A, gesture⟩ := p
      intro R h hgs
      refine ih (h.begin e (hgs _ List.mem_cons_self)) fun q hq => ?_
      rw [(R.begins_begin e gesture A).gestures]
      exact hgs q (List.mem_cons_of_mem _ hq)

theorem Registered.observe (h : R.Registered) (e : Event) : (R.observe e).1.Registered :=
  (h.proceed e).beginAll fun p hp => by
    rw [← Array.getElem?_toList]
    exact List.mem_zipIdx_iff_getElem?.mp hp

/-- A new gesture leaves those before it their numbers. -/
theorem Registered.add (h : R.Registered) (A : Automaton) : (R.add A).Registered := by
  intro a ha
  have hold := h a ha
  have hlt := (Array.getElem?_eq_some_iff.mp hold).1
  exact (Array.getElem?_push_lt hlt).trans ((Array.getElem?_eq_getElem hlt).symm.trans hold)

theorem Registered.apply (h : R.Registered) (op : Op) : (R.apply L op).1.Registered := by
  cases op with
  | register pattern =>
      unfold Recognizer.apply
      dsimp only
      split
      · exact h.add _
      · exact h
  | add A => exact h.add A
  | observe e => exact h.observe e
  | cancel id => exact fun a ha => h a (List.mem_filter.mp ha).1
  | clear => exact nofun

theorem Registered.observeAll {events : List Event} :
    ∀ {R : Recognizer}, R.Registered → (R.observeAll events).1.Registered := by
  induction events with
  | nil => exact fun h => h
  | cons e events ih => exact fun h => ih (h.observe e)

/-- **Live attempts have the automata of their gestures**, whatever a recognizer is called for. -/
theorem Registered.serve {calls : List Call} :
    ∀ {R : Recognizer}, R.Registered → (R.serve L calls).1.Registered := by
  induction calls with
  | nil => exact fun h => h
  | cons c calls ih =>
      intro R h
      refine ih ?_
      cases c with
      | one op => exact h.apply op
      | batch events => exact h.observeAll

theorem gestures_observe (R : Recognizer) (e : Event) : (R.observe e).1.gestures = R.gestures :=
  (R.begins_observe e).gestures

theorem gestures_observeAll (events : List Event) :
    ∀ R : Recognizer, (R.observeAll events).1.gestures = R.gestures := by
  induction events with
  | nil => exact fun _ => rfl
  | cons e events ih => exact fun R => (ih _).trans (R.gestures_observe e)

/-- The call adds only what has the property. -/
def Adds (P : Automaton → Prop) (L : Dialect) : Call → Prop
  | .one (.add A) => P A
  | .one (.register pattern) => ∀ A, Automaton.ofPattern L pattern = .ok A → P A
  | _ => True

theorem gestures_call {P : Automaton → Prop} {c : Call} (hc : Adds P L c)
    (h : ∀ A ∈ R.gestures, P A) : ∀ A ∈ (R.call L c).1.gestures, P A := by
  have hadd : ∀ {A}, P A → ∀ B ∈ (R.add A).gestures, P B := fun hA B hB => by
    rcases Array.mem_push.mp hB with hB | rfl
    · exact h B hB
    · exact hA
  match c, hc with
  | .batch events, _ => exact R.gestures_observeAll events ▸ h
  | .one (.observe e), _ => exact R.gestures_observe e ▸ h
  | .one (.add A), hc => exact hadd hc
  | .one (.cancel _), _ => exact h
  | .one .clear, _ => exact h
  | .one (.register pattern), hc =>
      unfold Recognizer.call Recognizer.apply
      dsimp only
      split
      · next A hA => exact hadd (hc A hA)
      · exact h

/-- **Gestures are what has been added.** -/
theorem gestures_serve {P : Automaton → Prop} {calls : List Call} :
    ∀ {R : Recognizer}, (∀ c ∈ calls, Adds P L c) → (∀ A ∈ R.gestures, P A) →
      ∀ A ∈ (R.serve L calls).1.gestures, P A := by
  induction calls with
  | nil => exact fun _ h => h
  | cons c calls ih =>
      intro R hcalls h
      exact ih (fun d hd => hcalls d (List.mem_cons_of_mem _ hd))
        (gestures_call (hcalls c List.mem_cons_self) h)

/-! ### The end of an attempt among others -/

section

variable {capacity : Nat} {calls : List Call} {e : Event} {id gesture : Nat} {outcome : Outcome}

/-- What is told of the end of an attempt is told of one step: of a live attempt, or of one that
the event has created and that has advanced. -/
theorem told_of_terminated :
    let R := (serve L { capacity } calls).1
    .terminated id gesture outcome ∈ Report.notices (R.observe e).2 →
      (∃ a ∈ R.live, a.id = id ∧
        Report.noticesOf id (R.observe e).2 = Report.notices (a.observe e).2) ∨
      ∃ A g tags, R.gestures[g]? = some A ∧
        Report.noticesOf id (R.observe e).2 =
          .created id g :: Report.notices (firstStep id g A e).2 ∧
        .advanced id g tags ∈ Report.notices (firstStep id g A e).2 := by
  intro R h
  have hmem : .terminated id gesture outcome ∈ Report.noticesOf id (R.observe e).2 :=
    Notice.mem_about.mpr ⟨h, rfl⟩
  cases stage_serve L capacity calls id with
  | live a hlt hone =>
      have ha : a ∈ R.attempts id := hone ▸ List.mem_singleton_self a
      obtain ⟨hlive, hid⟩ := List.mem_filter.mp ha
      refine .inl ⟨a, hlive, beq_iff_eq.mp hid, ?_⟩
      rw [noticesOf_observe hlt, hone, List.flatMap_singleton]
  | past _ _ hlt hnone =>
      rw [noticesOf_observe hlt, hnone, List.flatMap_nil] at hmem
      cases hmem
  | coming hle htold =>
      -- nothing has been told of it before, so its lifeline is all that the event tells of it
      have hnext := stage_serve L capacity (calls ++ [.one (.observe e)]) id
      rw [serve_append, Notice.about_append, htold, List.nil_append,
        show ∀ R : Recognizer, (R.serve L [.one (.observe e)]).2 =
          Report.notices (R.observe e).2 from fun R => List.append_nil _] at hnext
      cases hnext with
      | coming _ htold =>
          rw [show Report.noticesOf id (R.observe e).2 = [] from htold] at hmem
          cases hmem
      | live a _ _ htold => exact absurd hmem (htold.not_terminated gesture outcome)
      | past g _ _ _ htold =>
          obtain ⟨A, hA, hs⟩ := observe_created (fresh_serve L capacity calls)
            (Notice.mem_about.mp htold.created_mem).1
          obtain ⟨first, more, hline, -⟩ := htold
          have hsame := hs.notices.symm.trans hline
          exact .inr ⟨A, g, first, hA, hs.notices,
            (List.cons.inj hsame).2 ▸ List.mem_cons_self⟩

/-- If nothing is in the way of the gestures, an attempt that advances and ends at one event is
accepted, and a rejected one was led nowhere by the event. -/
theorem outcome_of_terminated :
    let R := (serve L { capacity } calls).1
    (∀ A ∈ R.gestures, A.Unblocked) →
    .terminated id gesture outcome ∈ Report.notices (R.observe e).2 →
      ((∃ tags, .advanced id gesture tags ∈ Report.notices (R.observe e).2) →
        outcome = .accepted) ∧
      (outcome = .rejected → ∃ a ∈ R.live, a.id = id ∧ a.gesture = gesture ∧
        (a.automaton.step a.states (a.slots.observe e).1).states = [] ∧
          a.automaton.complete a.states = false) := by
  intro R hgestures h
  have hmem : .terminated id gesture outcome ∈ Report.noticesOf id (R.observe e).2 :=
    Notice.mem_about.mpr ⟨h, rfl⟩
  rcases told_of_terminated h with ⟨a, ha, hid, htold⟩ | ⟨A, g, tags, hA, htold, hadvanced⟩
  · let b : Attempt := { a with slots := (a.slots.observe e).2 }
    have hregistered : R.Registered := Registered.serve (R := { capacity }) nofun
    have hA : b.automaton.Unblocked :=
      hgestures _ (Array.mem_of_getElem? (hregistered a ha))
    rw [htold, Attempt.observe_eq] at hmem
    obtain ⟨haccepted, hrejected⟩ := Attempt.outcome_of_feed (a := b) hA hmem
    refine ⟨fun ⟨tags, hadvanced⟩ => ?_, fun ho => ⟨a, ha, hid, ?_, ?_, hrejected ho⟩⟩
    · have hadvanced' : .advanced id gesture tags ∈ Report.noticesOf id (R.observe e).2 :=
        Notice.mem_about.mpr ⟨hadvanced, rfl⟩
      rw [htold, Attempt.observe_eq] at hadvanced'
      exact haccepted (Attempt.states_of_advanced (a := b) hA.leading hadvanced')
    · exact (Attempt.told_of_feed hmem).symm
    · by_contra hne
      have hoa := haccepted hne
      exact Outcome.noConfusion (ho.symm.trans hoa)
  · -- an attempt that has just been created has advanced
    have hA' := hgestures A (Array.mem_of_getElem? hA)
    rw [htold] at hmem
    have hterminated := (List.mem_cons.mp hmem).resolve_left nofun
    have hoa := (Attempt.outcome_of_feed (a := .start id g A e) hA' hterminated).1
      (Attempt.states_of_advanced (a := .start id g A e) hA'.leading hadvanced)
    exact ⟨fun _ => hoa, fun ho => Outcome.noConfusion (ho.symm.trans hoa)⟩

end

/-- **There are no dead ends.**  In the automaton of a passable pattern every state leads to a
final one, and one that cannot be left is final; what can be read is passable.  So in a recognizer
whose gestures have been read, or added as the automata of passable patterns, an attempt that
advances and ends at one event is accepted, and it is rejected only if the event led it nowhere and
the gesture was not complete before. -/
theorem no_dead_ends (L : Dialect) :
    (∀ es, Expression.AllPassable es → ∀ k s, (Automaton.ofExpressions L es).states[k]? = some s →
      (Automaton.ofExpressions L es).Finishes k ∧ (s.halting = true → s.final = true)) ∧
    (∀ pattern es, Expression.read pattern = .ok es → Expression.AllPassable es) ∧
    ∀ capacity calls, (∀ A, .one (.add A) ∈ calls →
        ∃ es, Expression.AllPassable es ∧ A = .ofExpressions L es) →
      let R := (serve L { capacity } calls).1
      ∀ e id gesture outcome,
        .terminated id gesture outcome ∈ Report.notices (R.observe e).2 →
          ((∃ tags, .advanced id gesture tags ∈ Report.notices (R.observe e).2) →
            outcome = .accepted) ∧
          (outcome = .rejected → ∃ a ∈ R.live, a.id = id ∧ a.gesture = gesture ∧
            (a.automaton.step a.states (a.slots.observe e).1).states = [] ∧
              a.automaton.complete a.states = false) := by
  refine ⟨fun es h k s hs => ?_, fun pattern es => Expression.passable_of_read, ?_⟩
  · have hfinishes := (Automaton.unblocked_ofExpressions L h).finishes k
      (Array.getElem?_eq_some_iff.mp hs).1
    exact ⟨hfinishes, hfinishes.final_of_halting hs⟩
  intro capacity calls hadd R e id gesture outcome h
  have hunblocked : ∀ A ∈ R.gestures, A.Unblocked := by
    refine gestures_serve (fun c hc => ?_) (fun A hA => absurd hA (Array.not_mem_empty A))
    match c, hc with
    | .batch _, _ => trivial
    | .one (.observe _), _ => trivial
    | .one (.cancel _), _ => trivial
    | .one .clear, _ => trivial
    | .one (.add A), hc =>
        obtain ⟨es, hes, rfl⟩ := hadd A hc
        exact Automaton.unblocked_ofExpressions L hes
    | .one (.register pattern), _ =>
        intro A hA
        obtain ⟨es, hes, rfl⟩ := Automaton.ofPattern_eq_ok hA
        exact Automaton.unblocked_ofExpressions L (Expression.passable_of_read hes)
  exact outcome_of_terminated hunblocked h

/-- A tap is to be recognized, and a contact is pressed. -/
def pressed : List Call :=
  [.one (.register "d1u1"), .one (.observe ⟨.press, 7, "a"⟩)]

theorem no_dead_ends_tap :
    let R := (serve everywhere { capacity := 1 } pressed).1
    (Automaton.ofExpressions everywhere tap).Finishes 0 ∧
      Report.notices (R.observe ⟨.release, 7, "a"⟩).2 =
        [.advanced 0 0 [.top], .terminated 0 0 .accepted] ∧
      Report.notices (R.observe ⟨.move, 7, "a"⟩).2 = [.terminated 0 0 .rejected] ∧
      ∃ a ∈ R.live, a.id = 0 ∧ a.automaton.complete a.states = false := by
  intro R
  obtain ⟨hfinishes, hpassable, houtcome⟩ := no_dead_ends everywhere
  have htap : Expression.AllPassable tap := hpassable "d1u1" tap (by decide +kernel)
  obtain ⟨s, hs⟩ : ∃ s, (Automaton.ofExpressions everywhere tap).states[0]? = some s :=
    Option.isSome_iff_exists.mp (by decide +kernel)
  have hadd : ∀ A, .one (.add A) ∈ pressed →
      ∃ es, Expression.AllPassable es ∧ A = .ofExpressions everywhere es := by
    simp [pressed]
  have hrelease : Report.notices
      ((serve everywhere { capacity := 1 } pressed).1.observe ⟨.release, 7, "a"⟩).2 =
        [.advanced 0 0 [.top], .terminated 0 0 .accepted] := by decide +kernel
  have hmove : Report.notices
      ((serve everywhere { capacity := 1 } pressed).1.observe ⟨.move, 7, "a"⟩).2 =
        [.terminated 0 0 .rejected] := by decide +kernel
  obtain ⟨a, ha, hid, -, -, hcomplete⟩ :=
    (houtcome 1 pressed hadd ⟨.move, 7, "a"⟩ 0 0 .rejected
      (hmove ▸ List.mem_singleton_self _)).2 rfl
  exact ⟨(hfinishes tap htap 0 s hs).1, hrelease, hmove, a, ha, hid, hcomplete⟩

end Recognizer

end Multitouch
