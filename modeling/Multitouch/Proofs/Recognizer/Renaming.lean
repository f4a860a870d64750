import Mathlib.Data.List.Forall2
import Multitouch.Proofs.Recognizer.Faithful
import Multitouch.Proofs.Recognizer.Histories

/-!
# The names of contacts do not matter

The platform's identifier of a contact is looked up among the bound contacts, bound and unbound,
and nothing else is done with it.  So if every event tells its contact by another name, and
different contacts still have different names, a recognizer does the same: `rename` acts on all
that mentions contacts, and every operation commutes with it, from the slots of one attempt
(`Slots.observe_rename`) to a whole run (`Recognizer.run_rename`).

Injectivity is used in just two places, where a contact is looked up (`Slots.get?_rename`) and
where it is unbound (`Slots.filter_rename`).
-/

namespace Multitouch

/-! ### Other names -/

/-- The event, with its contact called by another name. -/
def Event.rename (f : Nat → Nat) (e : Event) : Event :=
  { e with touch := f e.touch }

/-- The operation, with contacts called by other names. -/
def Op.rename (f : Nat → Nat) : Op → Op
  | observe e => .observe (e.rename f)
  | op => op

/-- The bindings, with contacts called by other names. -/
def Slots.rename (f : Nat → Nat) (s : Slots) : Slots :=
  ⟨s.bound.map fun b => (f b.1, b.2), s.taken⟩

/-- The attempt, with contacts called by other names. -/
def Attempt.rename (f : Nat → Nat) (a : Attempt) : Attempt :=
  { a with slots := a.slots.rename f }

/-- The report, with contacts called by other names. -/
def Report.rename (f : Nat → Nat) : Report → Report
  | created id gesture touch => .created id gesture (f touch)
  | report => report

/-- The recognizer, with contacts called by other names. -/
def Recognizer.rename (f : Nat → Nat) (R : Recognizer) : Recognizer :=
  { R with live := R.live.map (Attempt.rename f) }

/-- A recognizer and what it reports, with contacts called by other names. -/
def Recognizer.renameBoth (f : Nat → Nat) (r : Recognizer × List Report) :
    Recognizer × List Report :=
  (r.1.rename f, r.2.map (Report.rename f))

/-- Notices do not mention contacts. -/
@[simp] theorem Report.notices_rename (f : Nat → Nat) (reports : List Report) :
    notices (reports.map (rename f)) = notices reports := by
  rw [notices, notices, List.filterMap_map]
  refine congrArg (List.filterMap · reports) (funext fun r => ?_)
  cases r <;> rfl

variable {f : Nat → Nat}

/-! ### Slots -/

namespace Slots

variable (hf : Function.Injective f)

theorem lowestFree_rename (s : Slots) : (s.rename f).lowestFree = s.lowestFree := rfl

theorem bind_rename (s : Slots) (touch i : Nat) :
    (s.rename f).bind (f touch) i = (s.bind touch i).rename f := rfl

include hf

/-- A contact is found under its new name. -/
theorem get?_rename (s : Slots) (touch : Nat) : (s.rename f).get? (f touch) = s.get? touch := by
  rw [get?, get?, rename]
  induction s.bound with
  | nil => rfl
  | cons b bound ih => rw [List.map_cons, List.lookup_cons, List.lookup_cons, hf.beq_eq, ih]

/-- The bound contacts are those that were bound, under their new names. -/
theorem get?_rename_eq_some {s : Slots} {touch i : Nat} :
    (s.rename f).get? touch = some i ↔ ∃ t, f t = touch ∧ s.get? t = some i := by
  constructor
  · intro h
    obtain ⟨before, later, hbound, -⟩ := List.lookup_eq_some_iff.mp h
    have hmem : (touch, i) ∈ (s.rename f).bound := hbound ▸ List.mem_append_cons_self
    obtain ⟨b, -, hb⟩ := List.mem_map.mp hmem
    obtain rfl : f b.1 = touch := congrArg Prod.fst hb
    exact ⟨b.1, rfl, (get?_rename hf s b.1).symm.trans h⟩
  · rintro ⟨t, rfl, h⟩
    exact (get?_rename hf s t).trans h

theorem assign_rename (s : Slots) (touch : Nat) :
    (s.rename f).assign (f touch) = ((s.assign touch).1, (s.assign touch).2.rename f) := by
  unfold assign
  rw [get?_rename hf]
  cases s.get? touch with
  | some i => rfl
  | none => rw [lowestFree_rename, bind_rename]

/-- Under other names the same bindings are kept. -/
theorem filter_rename (s : Slots) (touch : Nat) :
    (s.rename f).bound.filter (·.1 != f touch) =
      (s.bound.filter (·.1 != touch)).map fun b => (f b.1, b.2) := by
  rw [rename, List.filter_map]
  refine congrArg _ (List.filter_congr fun b _ => ?_)
  exact congrArg not hf.beq_eq

theorem release_rename (s : Slots) (touch : Nat) :
    (s.rename f).release (f touch) = ((s.release touch).1, (s.release touch).2.rename f) := by
  unfold release
  rw [get?_rename hf]
  cases s.get? touch with
  | some i => rw [filter_rename hf]; rfl
  | none => rfl

/-- **An event is the same symbol under other names.** -/
theorem observe_rename (s : Slots) (e : Event) :
    (s.rename f).observe (e.rename f) = ((s.observe e).1, (s.observe e).2.rename f) := by
  simp only [observe, Event.rename, assign_rename hf]
  split
  · rw [release_rename hf]
    rfl
  · rfl

theorem observeFirst_rename (e : Event) :
    observeFirst (e.rename f) = ((observeFirst e).1, (observeFirst e).2.rename f) := by
  have hstart : starting (f e.touch) = (starting e.touch).rename f := rfl
  simp only [observeFirst, Event.rename, hstart]
  split
  · rw [release_rename hf]
    rfl
  · rfl

end Slots

/-! ### Attempts -/

namespace Attempt

/-- Reading a symbol does not look at the slots. -/
theorem feed_rename (a : Attempt) (x : Symbol) :
    (a.rename f).feed x = ((a.feed x).1.map (rename f), (a.feed x).2.map (Report.rename f)) := by
  cases h : a.automaton.exhausted (a.automaton.step a.states x).states with
  | true => simp [feed, rename, h, Report.rename]
  | false => simp [feed, rename, h, Report.rename]

theorem observe_rename (hf : Function.Injective f) (a : Attempt) (e : Event) :
    (a.rename f).observe (e.rename f) =
      ((a.observe e).1.map (rename f), (a.observe e).2.map (Report.rename f)) := by
  rw [observe_eq, observe_eq, ← feed_rename]
  simp only [rename, Slots.observe_rename hf]

theorem start_rename (hf : Function.Injective f) (id gesture : Nat) (A : Automaton) (e : Event) :
    start id gesture A (e.rename f) = (start id gesture A e).rename f := by
  simp only [start, rename, Slots.observeFirst_rename hf]

end Attempt

/-! ### Recognizers -/

namespace Recognizer

variable {L : Dialect}

section

variable (hf : Function.Injective f)

include hf

theorem proceed_rename (R : Recognizer) (e : Event) :
    (R.rename f).proceed (e.rename f) = renameBoth f (R.proceed e) := by
  simp only [proceed, renameBoth, rename, List.map_map, List.filterMap_map, List.flatMap_map,
    List.map_filterMap, List.map_flatMap, Function.comp_def, Attempt.observe_rename hf]

theorem firstStep_rename (id gesture : Nat) (A : Automaton) (e : Event) :
    firstStep id gesture A (e.rename f) =
      ((firstStep id gesture A e).1.map (Attempt.rename f),
        (firstStep id gesture A e).2.map (Report.rename f)) := by
  rw [firstStep, firstStep, ← Attempt.feed_rename, Attempt.start_rename hf,
    Slots.observeFirst_rename hf]

theorem opens_rename {A : Automaton} {e : Event} : A.Opens (e.rename f) ↔ A.Opens e := by
  rw [Automaton.Opens, Automaton.Opens, Slots.observeFirst_rename hf]

theorem begin_rename (R : Recognizer) (e : Event) (gesture : Nat) (A : Automaton) :
    (R.rename f).begin (e.rename f) gesture A = renameBoth f (R.begin e gesture A) := by
  have hlength : (R.rename f).live.length = R.live.length := List.length_map _
  by_cases hA : A.Opens e
  · have hA' := (opens_rename hf).mpr hA
    rcases Nat.lt_or_ge R.live.length R.capacity with hroom | hfull
    · rw [begin_of_room hA hroom, begin_of_room hA' (hlength.trans_lt hroom)]
      simp only [renameBoth, firstStep_rename hf, rename, List.map_append, List.map_cons,
        Option.toList_map]
      rfl
    · rw [begin_of_full hA hfull, begin_of_full hA' (hlength.symm ▸ hfull), hlength]
      rfl
  · rw [begin_of_closed hA, begin_of_closed (mt (opens_rename hf).mp hA)]
    rfl

theorem beginAll_rename (e : Event) (gs : List (Automaton × Nat)) :
    ∀ R : Recognizer,
      beginAll (e.rename f) gs (R.rename f) = renameBoth f (beginAll e gs R) := by
  induction gs with
  | nil => exact fun _ => rfl
  | cons p gs ih =>
      intro R
      simp only [beginAll, begin_rename hf, ih, renameBoth, List.map_append]

theorem observe_rename (R : Recognizer) (e : Event) :
    (R.rename f).observe (e.rename f) = renameBoth f (R.observe e) := by
  simp only [observe, proceed_rename hf, renameBoth, List.map_append]
  rw [show (R.rename f).gestures = R.gestures from rfl, beginAll_rename hf]
  rfl

/-- **Every operation does the same under other names.** -/
theorem apply_rename (R : Recognizer) (op : Op) :
    (R.rename f).apply L (op.rename f) = renameBoth f (R.apply L op) := by
  cases op with
  | register pattern =>
      unfold Op.rename apply
      dsimp only
      split <;> rfl
  | add A => rfl
  | observe e => exact observe_rename hf R e
  | cancel id =>
      simp only [Op.rename, apply, cancel, renameBoth, rename, List.filter_map]
      rfl
  | clear => rfl

theorem run_rename (ops : List Op) :
    ∀ R : Recognizer, (R.rename f).run L (ops.map (Op.rename f)) = (R.run L ops).rename f := by
  induction ops with
  | nil => exact fun _ => rfl
  | cons op ops ih =>
      intro R
      have hstep : ((R.rename f).apply L (op.rename f)).1 = ((R.apply L op).1).rename f :=
        congrArg Prod.fst (apply_rename hf R op)
      rw [List.map_cons, run, List.foldl_cons, hstep]
      exact ih _

end

/-- **The names of contacts do not matter.**  If in all operations contacts are called by other
names, different ones by different names, the next operation tells the same and an attempt is
cancelled as before, and the live attempts are the same but for the names of the contacts that they
have bound. -/
theorem names_opaque (hf : Function.Injective f) (L : Dialect) (capacity : Nat) (ops : List Op) :
    let R := run L { capacity } ops
    let S := run L { capacity } (ops.map (Op.rename f))
    (∀ op, (S.moment L (op.rename f)).notices = (R.moment L op).notices) ∧
    (∀ id, (S.cancel id).1 = (R.cancel id).1) ∧
    List.Forall₂ (fun a b : Attempt => b.id = a.id ∧ b.gesture = a.gesture ∧ b.states = a.states ∧
        ∀ touch i, b.slots.get? touch = some i ↔ ∃ t, f t = touch ∧ a.slots.get? t = some i)
      R.live S.live := by
  intro R S
  have hS : S = R.rename f := run_rename hf ops { capacity }
  refine ⟨fun op => ?_, fun id => ?_, ?_⟩
  · rw [Moment.notices, moment, hS, apply_rename hf]
    exact Report.notices_rename f _
  · rw [hS, cancel, cancel, rename, List.any_map]
    rfl
  · rw [hS, rename, List.forall₂_map_right_iff]
    exact List.forall₂_same.mpr fun a _ =>
      ⟨rfl, rfl, rfl, fun _ _ => Slots.get?_rename_eq_some hf⟩

theorem names_opaque_tap :
    let pressed := [Op.add (.ofExpressions everywhere tap), .observe ⟨.press, 7, "a"⟩]
    let S := run everywhere { capacity := 1 } (pressed.map (Op.rename (· + 100)))
    Function.Injective (· + 100) ∧ (S.cancel 0).1 = true ∧
      (S.moment everywhere (.observe ⟨.release, 107, "a"⟩)).notices =
        [.advanced 0 0 [.top], .terminated 0 0 .accepted] := by
  intro pressed S
  have hf : Function.Injective (· + 100) := add_left_injective 100
  obtain ⟨hnotices, hcancel, -⟩ := names_opaque hf everywhere 1 pressed
  exact ⟨hf, (hcancel 0).trans (by decide +kernel),
    (hnotices (.observe ⟨.release, 7, "a"⟩)).trans (by decide +kernel)⟩

end Recognizer

end Multitouch
