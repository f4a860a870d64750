import Mathlib.Data.List.Nodup
import Multitouch.Proofs.Automaton.Edges
import Multitouch.Proofs.Recognizer.Calls

/-!
# The life of an attempt

All that is ever told of an attempt is its *lifeline*: it is created, it advances at once and any
number of times after that, and it may be terminated (`Notice.Lifeline`).  At any time an attempt
is yet to come, and nothing has been told of it, or it is live and has not been terminated, or it
is over (`Recognizer.Stage`).  Whatever a recognizer does takes an attempt from one stage to
another and its lifeline on.  It is over without having been terminated only if it has been
dropped; and once it is over nothing is told of it (`Recognizer.Gone`).

An attempt that starts takes the next number (`Recognizer.Orderly`), so that numbers tell apart
all attempts there ever are.
-/

namespace Multitouch

/-! ### Steps and their tags -/

/-- The tags of a step that leads somewhere: there are some, and each is there once. -/
def Tag.Proper (tags : List Tag) : Prop :=
  tags ≠ [] ∧ tags.Nodup

/-- A step without tags leads nowhere. -/
theorem Automaton.states_eq_nil {A : Automaton} {ids : List Nat} {x : Symbol}
    (h : (A.step ids x).tags = []) : (A.step ids x).states = [] := by
  refine List.eq_nil_iff_forall_not_mem.mpr fun d hd => ?_
  rw [step, tags_eq_nil.mp h, mem_ascending] at hd
  cases hd

/-! ### Lifelines -/

namespace Notice

variable {id gesture : Nat} {told : List Notice}

/-- An attempt advances by some steps, and may be terminated. -/
def passage (id gesture : Nat) (steps : List (List Tag)) (outcome : Option Outcome) :
    List Notice :=
  steps.map (.advanced id gesture) ++ outcome.toList.map (.terminated id gesture)

/-- An attempt is created, advances at once and any number of times after that, and may be
terminated. -/
def Lifeline (id gesture : Nat) (outcome : Option Outcome) (told : List Notice) : Prop :=
  ∃ first more, told =
      .created id gesture :: .advanced id gesture first :: passage id gesture more outcome ∧
    ∀ tags ∈ first :: more, Tag.Proper tags

theorem passage_append (steps more : List (List Tag)) (outcome : Option Outcome) :
    passage id gesture steps none ++ passage id gesture more outcome =
      passage id gesture (steps ++ more) outcome := by
  simp [passage]

theorem of_mem_passage {steps : List (List Tag)} {outcome : Option Outcome} {n : Notice}
    (h : n ∈ passage id gesture steps outcome) :
    n.attempt = id ∧ ∀ id' g, n ≠ .created id' g := by
  rcases List.mem_append.mp h with h | h
  · obtain ⟨tags, -, rfl⟩ := List.mem_map.mp h
    exact ⟨rfl, nofun⟩
  · obtain ⟨o, -, rfl⟩ := List.mem_map.mp h
    exact ⟨rfl, nofun⟩

/-- A lifeline begins with a passage that advances. -/
theorem Lifeline.of_passage {steps : List (List Tag)} {outcome : Option Outcome}
    (hsteps : steps ≠ []) (h : ∀ tags ∈ steps, Tag.Proper tags) :
    Lifeline id gesture outcome (.created id gesture :: passage id gesture steps outcome) := by
  obtain ⟨first, more, rfl⟩ := List.exists_cons_of_ne_nil hsteps
  exact ⟨first, more, rfl, h⟩

/-- A lifeline goes on until it ends. -/
theorem Lifeline.append {steps : List (List Tag)} {outcome : Option Outcome}
    (h : Lifeline id gesture none told) (hsteps : ∀ tags ∈ steps, Tag.Proper tags) :
    Lifeline id gesture outcome (told ++ passage id gesture steps outcome) := by
  obtain ⟨first, more, rfl, hmore⟩ := h
  refine ⟨first, more ++ steps, ?_, ?_⟩
  · rw [List.cons_append, List.cons_append, passage_append]
  · rw [← List.cons_append]
    exact List.forall_mem_append.mpr ⟨hmore, hsteps⟩

variable {outcome : Option Outcome}

theorem Lifeline.created_mem (h : Lifeline id gesture outcome told) :
    .created id gesture ∈ told := by
  obtain ⟨first, more, rfl, -⟩ := h
  exact List.mem_cons_self

theorem Lifeline.attempt (h : Lifeline id gesture outcome told) : ∀ n ∈ told, n.attempt = id := by
  obtain ⟨first, more, rfl, -⟩ := h
  refine List.forall_mem_cons.mpr ⟨rfl, List.forall_mem_cons.mpr ⟨rfl, fun n hn => ?_⟩⟩
  exact (of_mem_passage hn).1

theorem Lifeline.terminated_mem {o : Outcome} (h : Lifeline id gesture (some o) told) :
    .terminated id gesture o ∈ told := by
  obtain ⟨first, more, rfl, -⟩ := h
  simp [passage]

theorem Lifeline.not_terminated (h : Lifeline id gesture none told) (g : Nat) (o : Outcome) :
    .terminated id g o ∉ told := by
  obtain ⟨first, more, rfl, -⟩ := h
  simp [passage]

theorem mem_created : id ∈ createdAt (fun _ => true) told ↔ ∃ g, .created id g ∈ told := by
  simp [mem_createdAt]

/-- What is told next after the creation of an attempt is that it advances. -/
def Prompt (told : List Notice) : Prop :=
  ∀ k id gesture, told[k]? = some (.created id gesture) →
    ∃ tags, told[k + 1]? = some (.advanced id gesture tags) ∧ Tag.Proper tags

theorem Prompt.append {s t : List Notice} (hs : Prompt s) (ht : Prompt t) : Prompt (s ++ t) := by
  intro k id gesture hk
  rcases Nat.lt_or_ge k s.length with hlt | hge
  · rw [List.getElem?_append_left hlt] at hk
    obtain ⟨tags, hnext, htags⟩ := hs k id gesture hk
    obtain ⟨hlt', -⟩ := List.getElem?_eq_some_iff.mp hnext
    exact ⟨tags, (List.getElem?_append_left hlt').trans hnext, htags⟩
  · rw [List.getElem?_append_right hge] at hk
    obtain ⟨tags, hnext, htags⟩ := ht _ id gesture hk
    rw [← Nat.sub_add_comm hge] at hnext
    exact ⟨tags, (List.getElem?_append_right (Nat.le_succ_of_le hge)).trans hnext, htags⟩

theorem Prompt.of_not_created (h : ∀ id g, .created id g ∉ told) : Prompt told :=
  fun _ id g hk => absurd (List.mem_of_getElem? hk) (h id g)

theorem Lifeline.prompt (h : Lifeline id gesture outcome told) : Prompt told := by
  obtain ⟨first, more, rfl, hproper⟩ := h
  intro k id' g hk
  match k with
  | 0 =>
      cases hk
      exact ⟨first, rfl, hproper first List.mem_cons_self⟩
  | 1 => cases hk
  | k + 2 => exact absurd rfl ((of_mem_passage (List.mem_of_getElem? hk)).2 id' g)

theorem Lifeline.createdAt (h : Lifeline id gesture outcome told) :
    createdAt (fun _ => true) told = [id] := by
  obtain ⟨first, more, rfl, -⟩ := h
  have hpassage : createdAt (fun _ => true) (passage id gesture more outcome) = [] :=
    createdAt_eq_nil fun id' g hn => absurd rfl ((of_mem_passage hn).2 id' g)
  exact congrArg (id :: ·) hpassage

end Notice

/-! ### One step of an attempt -/

/-- What is told of a step is a passage, which ends if the attempt does. -/
theorem Attempt.exists_passage (a : Attempt) (x : Symbol) :
    ∃ steps outcome, Report.notices (a.feed x).2 = Notice.passage a.id a.gesture steps outcome ∧
      (∀ tags ∈ steps, Tag.Proper tags) ∧ ((a.feed x).1 ≠ none ↔ outcome = none) ∧
      ((a.automaton.step a.states x).states ≠ [] → steps ≠ []) := by
  let step := a.automaton.step a.states x
  let outcome : Outcome :=
    if a.automaton.complete a.states || a.automaton.complete step.states then .accepted
    else .rejected
  refine ⟨if step.tags = [] then [] else [step.tags],
    if a.automaton.exhausted step.states then some outcome else none, ?_, ?_, ?_, ?_⟩
  · rw [notices_feed, Notice.passage]
    refine congrArg₂ (· ++ ·) ?_ ?_ <;> split <;> rfl
  · intro tags htags
    split at htags
    · cases htags
    · next h => exact List.mem_singleton.mp htags ▸ ⟨h, Automaton.nodup_tags _ _ _⟩
  · rw [feed_fst]
    split <;> simp
  · intro hstates
    rw [if_neg fun h => hstates (Automaton.states_eq_nil h)]
    exact List.cons_ne_nil _ _

namespace Recognizer

open Notice

variable {R R' : Recognizer} {id : Nat} {dropped : Prop} {told : List Notice}

/-- What has become of an attempt, given all that has been told of it. -/
inductive Stage (R : Recognizer) (id : Nat) (dropped : Prop) (told : List Notice) : Prop where
  /-- It has not been created. -/
  | coming (hid : R.nextId ≤ id) (htold : told = [])
  | live (a : Attempt) (hid : id < R.nextId) (hone : R.attempts id = [a])
      (htold : Lifeline id a.gesture none told)
  /-- It has been terminated, or dropped. -/
  | past (gesture : Nat) (outcome : Option Outcome) (hid : id < R.nextId)
      (hnone : R.attempts id = []) (htold : Lifeline id gesture outcome told)
      (hdropped : outcome = none → dropped)

theorem Stage.eq_nil (h : Stage R id dropped told) (hid : R.nextId ≤ id) : told = [] := by
  cases h with
  | coming _ htold => exact htold
  | live a hlt => exact absurd hlt (Nat.not_lt.mpr hid)
  | past g o hlt => exact absurd hlt (Nat.not_lt.mpr hid)

/-- An attempt is live after a step, or else the step has terminated it. -/
theorem Stage.of_feed {a : Attempt} {x : Symbol} {outcome : Option Outcome} (hid : id < R.nextId)
    (hone : R.attempts id = (a.feed x).1.toList) (htold : Lifeline id a.gesture outcome told)
    (hlive : (a.feed x).1 ≠ none ↔ outcome = none) : Stage R id dropped told := by
  cases hb : (a.feed x).1 with
  | none =>
      exact .past a.gesture outcome hid (hone.trans (congrArg _ hb)) htold fun ho =>
        absurd hb (hlive.mpr ho)
  | some b =>
      obtain rfl : outcome = none := hlive.mp (hb ▸ Option.some_ne_none b)
      rw [← Attempt.gesture_of_feed hb] at htold
      exact .live b hid (hone.trans (congrArg _ hb)) htold

/-- What does not concern an attempt leaves it at its stage. -/
theorem Stage.stay (h : Stage R id dropped told) (hid : id < R'.nextId ↔ id < R.nextId)
    (hsame : R'.attempts id = R.attempts id) : Stage R' id dropped told := by
  cases h with
  | coming hle htold =>
      exact .coming (Nat.not_lt.mp fun hlt => Nat.not_lt.mpr hle (hid.mp hlt)) htold
  | live a hlt hone htold => exact .live a (hid.mpr hlt) (hsame.trans hone) htold
  | past g o hlt hnone htold hdropped =>
      exact .past g o (hid.mpr hlt) (hsame.trans hnone) htold hdropped

/-- An attempt may be dropped. -/
theorem Stage.drop (h : Stage R id dropped told) (hid : R'.nextId = R.nextId)
    (hnone : R'.attempts id = []) (hdropped : dropped) : Stage R' id dropped told := by
  cases h with
  | coming hle htold => exact .coming (hid ▸ hle) htold
  | live a hlt _ htold => exact .past a.gesture none (hid ▸ hlt) hnone htold fun _ => hdropped
  | past g o hlt _ htold _ => exact .past g o (hid ▸ hlt) hnone htold fun _ => hdropped

theorem attempts_cancel (R : Recognizer) (k id : Nat) :
    (R.cancel k).2.attempts id = if k = id then [] else R.attempts id := by
  rw [cancel, attempts, List.filter_filter, attempts]
  split
  · next h => exact List.filter_eq_nil_iff.mpr fun a _ => by simp [h]
  · next h =>
      refine List.filter_congr fun a _ => ?_
      by_cases ha : a.id = id
      · simp [ha, Ne.symm h]
      · simp [ha]

/-- Live attempts go on, or they end. -/
theorem Stage.proceed (h : Stage R id dropped told) (hR : R.Fresh) (e : Event) :
    Stage (R.proceed e).1 id dropped (told ++ about id (Report.notices (R.proceed e).2)) := by
  have hattempts := R.attempts_proceed e id
  have hnotices : about id (Report.notices (R.proceed e).2) = _ := R.noticesOf_proceed e id
  have hquiet : R.attempts id = [] →
      Stage (R.proceed e).1 id dropped (told ++ about id (Report.notices (R.proceed e).2)) := by
    intro hnone
    rw [hnone] at hattempts hnotices
    rw [hnotices, List.flatMap_nil, List.append_nil]
    exact h.stay Iff.rfl (hattempts.trans hnone.symm)
  cases h with
  | coming hle => exact hquiet (hR.attempts_eq_nil hle)
  | past g o _ hnone => exact hquiet hnone
  | live a hlt hone htold =>
      have ha : a ∈ R.attempts id := hone ▸ List.mem_singleton_self a
      obtain rfl : a.id = id := beq_iff_eq.mp (List.mem_filter.mp ha).2
      let b : Attempt := { a with slots := (a.slots.observe e).2 }
      obtain ⟨steps, outcome, hpassage, hsteps, hlive, -⟩ :=
        b.exists_passage (a.slots.observe e).1
      rw [hone] at hattempts hnotices
      have hone' : (R.proceed e).1.attempts a.id = (b.feed (a.slots.observe e).1).1.toList := by
        rw [hattempts, List.filterMap_cons, Attempt.observe_eq]
        cases (b.feed (a.slots.observe e).1).1 <;> rfl
      rw [hnotices, List.flatMap_singleton, Attempt.observe_eq, hpassage]
      exact .of_feed (a := b) hlt hone' (htold.append hsteps) hlive

/-- A gesture starts nothing, or the next attempt, and then its lifeline. -/
theorem begin_lifeline (R : Recognizer) (e : Event) (gesture : Nat) (A : Automaton) :
    ((R.begin e gesture A).1 = R ∧ Report.notices (R.begin e gesture A).2 = []) ∨
      (R.begin e gesture A).1.nextId = R.nextId + 1 ∧
        ∃ outcome, Lifeline R.nextId gesture outcome (Report.notices (R.begin e gesture A).2) ∧
          ((firstStep R.nextId gesture A e).1 ≠ none ↔ outcome = none) := by
  by_cases hA : A.Opens e
  · rcases Nat.lt_or_ge R.live.length R.capacity with hroom | hfull
    · obtain ⟨steps, outcome, hpassage, hsteps, hlive, hopens⟩ :=
        (Attempt.start R.nextId gesture A e).exists_passage (Slots.observeFirst e).1
      refine .inr ⟨by rw [begin_of_room hA hroom], outcome, ?_, hlive⟩
      rw [begin_of_room hA hroom, notices_created, firstStep, hpassage]
      exact .of_passage (hopens hA) hsteps
    · exact .inl (by rw [begin_of_full hA hfull]; exact ⟨rfl, rfl⟩)
  · exact .inl (by rw [begin_of_closed hA]; exact ⟨rfl, rfl⟩)

/-- The next attempt starts, or all stay as they are. -/
theorem Stage.begin (h : Stage R id dropped told) (hR : R.Fresh) (e : Event) (gesture : Nat)
    (A : Automaton) :
    Stage (R.begin e gesture A).1 id dropped
      (told ++ about id (Report.notices (R.begin e gesture A).2)) := by
  have hb := R.begins_begin e gesture A
  rcases R.begin_lifeline e gesture A with ⟨hsame, hnotices⟩ | ⟨hnext, outcome, hlife, hlive⟩
  · rw [hsame, hnotices]
    exact (List.append_nil told).symm ▸ h
  · by_cases hid : id = R.nextId
    · subst hid
      obtain ⟨-, hs⟩ := begin_created hR hlife.created_mem
      have hall : about R.nextId (Report.notices (R.begin e gesture A).2) = _ :=
        Report.noticesOf_eq_self hlife.attempt
      rw [hall, h.eq_nil le_rfl, List.nil_append]
      exact .of_feed (a := .start R.nextId gesture A e) hs.lt hs.attempts hlife hlive
    · have hnone : about id (Report.notices (R.begin e gesture A).2) = [] :=
        Report.noticesOf_eq_nil fun n hn he => hid ((hlife.attempt n hn).symm.trans he).symm
      rw [hnone, List.append_nil]
      rcases Nat.lt_or_ge id R.nextId with hlt | hge
      · exact h.stay (by omega) (hb.attempts id hlt)
      · exact .coming (by omega) (h.eq_nil hge)

theorem Fresh.cancel (h : R.Fresh) (k : Nat) : (R.cancel k).2.Fresh :=
  fun a ha => h a (List.mem_filter.mp ha).1

/-- **Every attempt is at a stage**, and if only other attempts are dropped it is over only when it
has been terminated. -/
theorem kept_stage (id : Nat) (dropped : Prop) :
    Kept (fun op => ¬ dropped → op ≠ .cancel id ∧ op ≠ .clear)
      fun R told => R.Fresh ∧ Stage R id dropped (about id told) where
  proceed e h := ⟨h.1.proceed e, about_append id _ _ ▸ h.2.proceed h.1 e⟩
  begin e g A h := ⟨(begins_begin _ e g A).fresh h.1, about_append id _ _ ▸ h.2.begin h.1 e g A⟩
  add _ h := ⟨h.1, h.2.stay Iff.rfl rfl⟩
  cancel {R told} k hk h := by
    have hattempts := R.attempts_cancel k id
    refine ⟨h.1.cancel k, ?_⟩
    by_cases hid : k = id
    · have hdropped : dropped := by_contra fun hd => (hk hd).1 (hid ▸ rfl)
      rw [if_pos hid] at hattempts
      exact h.2.drop rfl hattempts hdropped
    · rw [if_neg hid] at hattempts
      exact h.2.stay Iff.rfl hattempts
  clear hk h := ⟨nofun, h.2.drop rfl rfl (by_contra fun hd => (hk hd).2 rfl)⟩

/-- The attempts created so far have been numbered one after the other, and each has advanced at
once. -/
structure Orderly (R : Recognizer) (told : List Notice) : Prop where
  numbered : createdAt (fun _ => true) told = List.range R.nextId
  prompt : Prompt told

theorem kept_orderly : Kept (fun _ => True) Orderly where
  proceed e h := by
    refine ⟨?_, h.prompt.append (.of_not_created fun _ _ => not_created_proceed)⟩
    rw [createdAt_append, createdAt_proceed, List.append_nil]
    exact h.numbered
  begin {R told} e g A h := by
    rcases R.begin_lifeline e g A with ⟨hsame, hnotices⟩ | ⟨hnext, outcome, hlife, -⟩
    · rw [hsame, hnotices, List.append_nil]
      exact h
    · refine ⟨?_, h.prompt.append hlife.prompt⟩
      rw [createdAt_append, hlife.createdAt, h.numbered, hnext, List.range_succ]
  add _ h := ⟨h.numbered, h.prompt⟩
  cancel _ _ h := ⟨h.numbered, h.prompt⟩
  clear _ h := ⟨h.numbered, h.prompt⟩

/-- The attempt has been created, and is not live. -/
def Gone (R : Recognizer) (id : Nat) : Prop :=
  id < R.nextId ∧ R.attempts id = []

/-- **An attempt that is gone does not come back**, and nothing is told of it. -/
theorem kept_gone (id : Nat) :
    Kept (fun _ => True) fun R told => R.Gone id ∧ about id told = [] where
  proceed {R told} e h := by
    obtain ⟨⟨hid, hnone⟩, htold⟩ := h
    have hattempts := R.attempts_proceed e id
    have hnotices : about id (Report.notices (R.proceed e).2) = _ := R.noticesOf_proceed e id
    rw [hnone] at hattempts hnotices
    rw [about_append, htold, hnotices]
    exact ⟨⟨hid, hattempts⟩, rfl⟩
  begin {R told} e g A h := by
    obtain ⟨⟨hid, hnone⟩, htold⟩ := h
    have hb := R.begins_begin e g A
    have hnotices : about id (Report.notices (R.begin e g A).2) = [] :=
      Report.noticesOf_eq_nil fun n hn he => Nat.not_lt.mpr (hb.notices n hn).1 (he ▸ hid)
    rw [about_append, htold, hnotices]
    exact ⟨⟨hid.trans_le hb.nextId_le, (hb.attempts id hid).trans hnone⟩, rfl⟩
  add _ h := h
  cancel {R told} k _ h := by
    obtain ⟨⟨hid, hnone⟩, htold⟩ := h
    have hattempts := R.attempts_cancel k id
    rw [hnone, ite_self] at hattempts
    exact ⟨⟨hid, hattempts⟩, htold⟩
  clear _ h := ⟨⟨h.1.1, rfl⟩, h.2⟩

/-! ### All calls -/

theorem kept_fresh : Kept (fun _ => True) fun R _ => R.Fresh where
  proceed e h := h.proceed e
  begin e g A h := (begins_begin _ e g A).fresh h
  add _ h := h
  cancel k _ h := h.cancel k
  clear _ _ := nofun

section

variable (L : Dialect) (capacity : Nat) (calls : List Call)

theorem fresh_serve : (serve L { capacity } calls).1.Fresh :=
  kept_fresh.serve_nil (fun _ _ => trivial) (fresh_start capacity)

theorem stage_serve (id : Nat) :
    Stage (serve L { capacity } calls).1 id True (about id (serve L { capacity } calls).2) :=
  ((kept_stage id True).serve_nil (fun _ _ h => absurd trivial h)
    ⟨fresh_start capacity, .coming (Nat.zero_le _) rfl⟩).2

theorem orderly_serve : Orderly (serve L { capacity } calls).1 (serve L { capacity } calls).2 :=
  kept_orderly.serve_nil (fun _ _ => trivial) ⟨rfl, .of_not_created nofun⟩

end

variable {L : Dialect} {capacity : Nat} {calls : List Call}

/-- Of an attempt that is gone nothing more is told. -/
theorem Gone.serve (h : R.Gone id) (calls : List Call) :
    (R.serve L calls).1.Gone id ∧ about id (R.serve L calls).2 = [] :=
  (kept_gone id).serve_nil (fun _ _ => trivial) ⟨h, rfl⟩

theorem attempts_ne_nil : R.attempts id ≠ [] ↔ ∃ a ∈ R.live, a.id = id := by
  rw [attempts, Ne, List.filter_eq_nil_iff]
  simp

/-- What drops an attempt leaves it gone. -/
theorem gone_of_drops {c : Call} (hR : R.Fresh) (h : R.Drops id c) : (R.call L c).1.Gone id := by
  match c, h with
  | .one (.cancel k), ⟨hk, hcancel⟩ =>
      obtain ⟨a, ha, hid⟩ := List.any_eq_true.mp hcancel
      exact ⟨beq_iff_eq.mp hid ▸ hR a ha, (R.attempts_cancel k id).trans (if_pos hk)⟩
  | .one .clear, ⟨a, ha, hid⟩ => exact ⟨hid ▸ hR a ha, rfl⟩

/-- An attempt that has been created has been numbered. -/
theorem lt_of_created {gesture : Nat}
    (h : .created id gesture ∈ (serve L { capacity } calls).2) :
    id < (serve L { capacity } calls).1.nextId := by
  have hcreated := mem_created.mpr ⟨gesture, h⟩
  rw [(orderly_serve L capacity calls).numbered] at hcreated
  exact List.mem_range.mp hcreated

/-- A call creates attempts that have not been numbered before. -/
theorem le_of_created {c : Call} {gesture : Nat}
    (h : .created id gesture ∈ Report.notices ((serve L { capacity } calls).1.call L c).2) :
    (serve L { capacity } calls).1.nextId ≤ id := by
  have hbefore := orderly_serve L capacity calls
  have hnumbered := (kept_orderly.call (L := L) (c := c) (fun _ _ => trivial) hbefore).numbered
  rw [createdAt_append, hbefore.numbered] at hnumbered
  have hnodup := List.nodup_append.mp (hnumbered ▸ List.nodup_range)
  have hcreated := mem_created.mpr ⟨gesture, h⟩
  by_contra hlt
  exact hnodup.2.2 id (List.mem_range.mpr (Nat.not_le.mp hlt)) id hcreated rfl

/-- An attempt that is live has been created, and has not been terminated. -/
theorem created_of_live (h : (serve L { capacity } calls).1.attempts id ≠ []) :
    (∃ gesture, .created id gesture ∈ (serve L { capacity } calls).2) ∧
      ∀ gesture outcome, .terminated id gesture outcome ∉ (serve L { capacity } calls).2 := by
  cases stage_serve L capacity calls id with
  | coming hid => exact absurd ((fresh_serve L capacity calls).attempts_eq_nil hid) h
  | past _ _ _ hnone => exact absurd hnone h
  | live a _ _ htold =>
      exact ⟨⟨a.gesture, (mem_about.mp htold.created_mem).1⟩,
        fun g o hn => htold.not_terminated g o (mem_about.mpr ⟨hn, rfl⟩)⟩

/-- An attempt that is live has not been dropped since it was created. -/
theorem not_dropped_of_live {earlier later : List Call} {c : Call} {gesture : Nat}
    (hcalls : calls = earlier ++ c :: later)
    (hc : .created id gesture ∈ Report.notices ((serve L { capacity } earlier).1.call L c).2)
    (h : (serve L { capacity } calls).1.attempts id ≠ []) :
    ∀ op, .one op ∈ later → op ≠ .cancel id ∧ op ≠ .clear := by
  intro op hop
  by_contra hdrops
  obtain ⟨between, rest, rfl⟩ := List.append_of_mem hop
  let R := (serve L { capacity } (earlier ++ c :: between)).1
  have hid : id < R.nextId := by
    have hcreated : .created id gesture ∈ (serve L { capacity } (earlier ++ c :: between)).2 := by
      rw [serve_append]
      exact List.mem_append_right _ (List.mem_append_left _ hc)
    exact lt_of_created hcreated
  have hgone : (R.apply L op).1.Gone id := by
    by_cases hcancel : op = .cancel id
    · subst hcancel
      exact ⟨hid, (R.attempts_cancel id id).trans (if_pos rfl)⟩
    · obtain rfl : op = .clear := not_not.mp fun hclear => hdrops ⟨hcancel, hclear⟩
      exact ⟨hid, rfl⟩
  have hend := (hgone.serve (L := L) rest).1.2
  have hsplit : calls = (earlier ++ c :: between) ++ .one op :: rest := by
    rw [hcalls, List.append_assoc, List.cons_append]
  rw [hsplit, serve_append] at h
  exact h hend

/-- An attempt that has been created, and since then neither terminated nor dropped, is live. -/
theorem live_of_created {earlier later : List Call} {c : Call} {gesture : Nat}
    (hcalls : calls = earlier ++ c :: later)
    (hc : .created id gesture ∈ Report.notices ((serve L { capacity } earlier).1.call L c).2)
    (hdrops : ∀ op, .one op ∈ later → op ≠ .cancel id ∧ op ≠ .clear)
    (hend : ∀ gesture outcome, .terminated id gesture outcome ∉ (serve L { capacity } calls).2) :
    (serve L { capacity } calls).1.attempts id ≠ [] := by
  let R := (serve L { capacity } earlier).1
  have hsplit : serve L { capacity } calls =
      ((R.serve L (c :: later)).1,
        (serve L { capacity } earlier).2 ++ (R.serve L (c :: later)).2) := by
    rw [hcalls, serve_append]
  rw [hsplit] at hend ⊢
  have hkeeps : ∀ op, .one op ∈ c :: later → ¬ False → op ≠ .cancel id ∧ op ≠ .clear := by
    intro op hop _
    rcases List.mem_cons.mp hop with rfl | hop
    · obtain ⟨e, rfl, -⟩ := exists_event hc
      exact ⟨nofun, nofun⟩
    · exact hdrops op hop
  have hstage := ((kept_stage id False).serve_nil (L := L) hkeeps
    ⟨fresh_serve L capacity earlier, .coming (le_of_created hc) rfl⟩).2
  cases hstage with
  | coming _ htold =>
      have hcreated : .created id gesture ∈ about id (R.serve L (c :: later)).2 :=
        mem_about.mpr ⟨List.mem_append_left _ hc, rfl⟩
      rw [htold] at hcreated
      cases hcreated
  | live a _ hone => exact hone ▸ List.cons_ne_nil a []
  | past g outcome _ _ htold hdropped =>
      cases outcome with
      | none => exact (hdropped rfl).elim
      | some o =>
          have hn := (mem_about.mp htold.terminated_mem).1
          exact absurd (List.mem_append_right _ hn) (hend g o)

/-- **The protocol of notices.**  Whatever a recognizer is called for, all that is told of an
attempt is a lifeline, at one gesture, and it advances right after it has been created.  Attempts
are created with ever higher numbers.  Once an attempt has been dropped nothing is told of it any
more.  The live attempts are those that have been created, and have since been neither dropped
nor terminated. -/
theorem lifecycle (L : Dialect) (capacity : Nat) (calls : List Call) :
    let start : Recognizer := { capacity }
    let R := (start.serve L calls).1
    let told := (start.serve L calls).2
    (∀ id, about id told = [] ∨ ∃ gesture outcome, Lifeline id gesture outcome (about id told)) ∧
    Prompt told ∧
    (createdAt (fun _ => true) told).Pairwise (· < ·) ∧
    (∀ earlier c later, calls = earlier ++ c :: later →
      ∀ id, (start.serve L earlier).1.Drops id c →
        about id (((start.serve L earlier).1.call L c).1.serve L later).2 = []) ∧
    ∀ id, (∃ a ∈ R.live, a.id = id) ↔
      (∃ earlier c later gesture, calls = earlier ++ c :: later ∧
        .created id gesture ∈ Report.notices ((start.serve L earlier).1.call L c).2 ∧
        ∀ op, .one op ∈ later → op ≠ .cancel id ∧ op ≠ .clear) ∧
      ∀ gesture outcome, .terminated id gesture outcome ∉ told := by
  intro start R told
  have horderly := orderly_serve L capacity calls
  refine ⟨fun id => ?_, horderly.prompt, ?_, ?_, fun id => ?_⟩
  · cases stage_serve L capacity calls id with
    | coming _ htold => exact .inl htold
    | live a _ _ htold => exact .inr ⟨a.gesture, none, htold⟩
    | past gesture outcome _ _ htold => exact .inr ⟨gesture, outcome, htold⟩
  · rw [horderly.numbered]
    exact List.pairwise_lt_range
  · intro earlier c later _ id hdrops
    exact ((gone_of_drops (fresh_serve L capacity earlier) hdrops).serve later).2
  · rw [← attempts_ne_nil]
    constructor
    · intro hlive
      obtain ⟨⟨gesture, hcreated⟩, hend⟩ := created_of_live hlive
      obtain ⟨earlier, c, later, hcalls, hc⟩ := mem_serve hcreated
      exact ⟨⟨earlier, c, later, gesture, hcalls, hc, not_dropped_of_live hcalls hc hlive⟩, hend⟩
    · rintro ⟨⟨earlier, c, later, gesture, hcalls, hc, hdrops⟩, hend⟩
      exact live_of_created hcalls hc hdrops hend

end Recognizer

end Multitouch
