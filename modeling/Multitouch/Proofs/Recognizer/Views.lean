import Mathlib.Data.List.Count
import Multitouch.Proofs.Recognizer.Histories

/-!
# Views

A *view* selects some of the attempts of a recognizer and knows them by other numbers.  What an
event does to live attempts it does to each of them alone, so if the live attempts of one
recognizer are a view of another's, an event keeps it so, and what is told of them is a view of
what is told (`View.proceed`).  A new attempt is added to both (`View.begin_seen`), or it is not
seen (`View.beginAll_unseen`).

The attempts that come to be seen are numbered in the order of their creation (`rank`), so that
what is still to come does not change what has been seen (`Agrees`, `Shows.congr`).  A recognizer
that has what is seen of another, under these numbers, tracks it (`Tracks`).  A relation of two
recognizers, the one tracking the other, that every operation keeps, makes one run a view of
another (`View.shows_history`).
-/

namespace Multitouch

/-- Some of the attempts of a recognizer, under other numbers. -/
structure View where
  /-- Whether the attempt with a number, at a gesture, is seen. -/
  sees : Nat → Nat → Bool
  /-- The number by which an attempt is known. -/
  number : Nat → Nat
  /-- The number by which a gesture is known. -/
  gesture : Nat → Nat

/-- The attempt with another number, at a gesture with another number. -/
def Attempt.known (a : Attempt) (id gesture : Nat) : Attempt :=
  { a with id := id, gesture := gesture }

/-- The notice about an attempt with another number, at a gesture with another number. -/
def Notice.known (id gesture : Nat) : Notice → Notice
  | created _ _ => .created id gesture
  | advanced _ _ tags => .advanced id gesture tags
  | terminated _ _ outcome => .terminated id gesture outcome

namespace View

/-- An attempt as it is seen. -/
def attempt? (v : View) (a : Attempt) : Option Attempt :=
  if v.sees a.id a.gesture then some (a.known (v.number a.id) (v.gesture a.gesture)) else none

/-- The attempts that are seen. -/
def attempts (v : View) (live : List Attempt) : List Attempt :=
  live.filterMap v.attempt?

/-- A notice as it is seen. -/
def notice? (v : View) (n : Notice) : Option Notice :=
  if v.sees n.attempt n.gesture then
    some (n.known (v.number n.attempt) (v.gesture n.gesture))
  else none

/-- The notices that are seen. -/
def notices (v : View) (told : List Notice) : List Notice :=
  told.filterMap v.notice?

/-- At one moment, a run tells and has live what is seen of another run. -/
structure Shows (v : View) (whole part : Moment) : Prop where
  notices : part.notices = v.notices whole.notices
  live : part.after.live = v.attempts whole.after.live

variable {v w : View}

theorem attempts_append (s t : List Attempt) : v.attempts (s ++ t) = v.attempts s ++ v.attempts t :=
  List.filterMap_append

theorem notices_append (s t : List Notice) : v.notices (s ++ t) = v.notices s ++ v.notices t :=
  List.filterMap_append

theorem notices_eq_nil {told : List Notice}
    (h : ∀ n ∈ told, v.sees n.attempt n.gesture = false) : v.notices told = [] :=
  List.filterMap_eq_nil_iff.mpr fun n hn => if_neg (Bool.eq_false_iff.mp (h n hn))

/-- How many attempts are not seen. -/
def unseen (v : View) (live : List Attempt) : Nat :=
  live.countP fun a => !v.sees a.id a.gesture

/-- Attempts are seen, or they are not. -/
theorem length_eq (v : View) (live : List Attempt) :
    live.length = (v.attempts live).length + v.unseen live := by
  rw [attempts, List.length_filterMap_eq_countP, unseen,
    List.length_eq_countP_add_countP fun a => (v.attempt? a).isSome]
  congr 2
  funext a
  cases h : v.sees a.id a.gesture <;> simp [attempt?, h]

/-! ### One attempt -/

/-- Numbers do not matter to what an attempt does. -/
theorem feed_known (a : Attempt) (x : Symbol) (id gesture : Nat) :
    ((a.known id gesture).feed x).1 = (a.feed x).1.map (·.known id gesture) := by
  rw [Attempt.feed_fst, Attempt.feed_fst, apply_ite (Option.map _)]
  rfl

theorem notices_feed_known (a : Attempt) (x : Symbol) (id gesture : Nat) :
    Report.notices ((a.known id gesture).feed x).2 =
      (Report.notices (a.feed x).2).map (Notice.known id gesture) := by
  rw [Attempt.notices_feed, Attempt.notices_feed, List.map_append, apply_ite (List.map _),
    apply_ite (List.map _)]
  rfl

/-- An attempt that is seen is seen to do what it does. -/
theorem feed_seen {a : Attempt} (h : v.sees a.id a.gesture = true) (x : Symbol) :
    (((a.known (v.number a.id) (v.gesture a.gesture)).feed x).1 =
        (a.feed x).1.bind v.attempt?) ∧
      Report.notices ((a.known (v.number a.id) (v.gesture a.gesture)).feed x).2 =
        v.notices (Report.notices (a.feed x).2) := by
  constructor
  · rw [feed_known]
    cases hb : (a.feed x).1 with
    | none => rfl
    | some b =>
        rw [Option.map_some, Option.bind_some, attempt?, Attempt.id_of_feed hb,
          Attempt.gesture_of_feed hb, if_pos h]
  · rw [notices_feed_known, ← List.filterMap_eq_map']
    refine List.filterMap_congr fun n hn => ?_
    rw [notice?, (Attempt.attempt_of_feed hn).1, Attempt.told_of_feed hn, if_pos h]

/-- Nothing is seen of what an attempt does that is not seen. -/
theorem feed_unseen {a : Attempt} (h : v.sees a.id a.gesture = false) (x : Symbol) :
    ((a.feed x).1.bind v.attempt? = none) ∧ v.notices (Report.notices (a.feed x).2) = [] := by
  constructor
  · cases hb : (a.feed x).1 with
    | none => rfl
    | some b =>
        rw [Option.bind_some, attempt?, Attempt.id_of_feed hb, Attempt.gesture_of_feed hb, h]
        rfl
  · refine notices_eq_nil fun n hn => ?_
    rw [(Attempt.attempt_of_feed hn).1, Attempt.told_of_feed hn, h]

/-- What is seen of an attempt takes an event in as the attempt does. -/
theorem observe_seen (v : View) (a : Attempt) (e : Event) :
    ((v.attempt? a).bind fun b => (b.observe e).1) = (a.observe e).1.bind v.attempt? ∧
      ((v.attempt? a).toList.flatMap fun b => Report.notices (b.observe e).2) =
        v.notices (Report.notices (a.observe e).2) := by
  let b : Attempt := { a with slots := (a.slots.observe e).2 }
  cases h : v.sees a.id a.gesture with
  | true =>
      have hb := feed_seen (a := b) h (a.slots.observe e).1
      rw [attempt?, if_pos h, Option.bind_some, Option.toList_some, List.flatMap_singleton]
      exact hb
  | false =>
      have hb := feed_unseen (a := b) h (a.slots.observe e).1
      rw [attempt?, h]
      exact ⟨hb.1.symm, hb.2.symm⟩

/-! ### Recognizers -/

variable {R S : Recognizer} {e : Event}

/-- **An event does to what is seen what it does to all.** -/
theorem proceed (h : S.live = v.attempts R.live) (e : Event) :
    (S.proceed e).1.live = v.attempts (R.proceed e).1.live ∧
      Report.notices (S.proceed e).2 = v.notices (Report.notices (R.proceed e).2) := by
  rw [Recognizer.live_proceed, Recognizer.live_proceed, Recognizer.notices_proceed,
    Recognizer.notices_proceed, h]
  constructor
  · rw [attempts, attempts, List.filterMap_filterMap, List.filterMap_filterMap]
    exact List.filterMap_congr fun a _ => (v.observe_seen a e).1
  · rw [attempts, notices, List.filterMap_flatMap]
    induction R.live with
    | nil => rfl
    | cons a live ih =>
        have ha := (v.observe_seen a e).2
        rw [List.flatMap_cons, ← ih, ← notices, ← ha, List.filterMap_cons]
        cases v.attempt? a with
        | none => rfl
        | some b => simp

theorem attempts_toList (v : View) (a : Option Attempt) :
    v.attempts a.toList = (a.bind v.attempt?).toList := by
  cases a with
  | none => rfl
  | some a => cases h : v.attempt? a <;> simp [attempts, h]

theorem notices_created (v : View) (id g : Nat) (told : List Notice) :
    v.notices (.created id g :: told) =
      if v.sees id g then .created (v.number id) (v.gesture g) :: v.notices told
      else v.notices told := by
  cases h : v.sees id g <;>
    simp [notices, notice?, Notice.attempt, Notice.gesture, Notice.known, h]

/-- An event does not add to what is not seen. -/
theorem unseen_proceed_le (v : View) (R : Recognizer) (e : Event) :
    v.unseen (R.proceed e).1.live ≤ v.unseen R.live := by
  rw [Recognizer.live_proceed, unseen, List.countP_filterMap]
  refine List.countP_mono_left fun a _ h => ?_
  cases hb : (a.observe e).1 with
  | none =>
      rw [hb] at h
      cases h
  | some b =>
      rw [hb, Option.map_some, Option.getD_some] at h
      rwa [Attempt.id_of_observe hb, Attempt.gesture_of_observe hb] at h

/-- A new attempt is added to what is seen. -/
theorem begin_seen {A : Automaton} {g : Nat} (h : S.live = v.attempts R.live) (hA : A.Opens e)
    (hroom : R.live.length < R.capacity) (hroom' : S.live.length < S.capacity)
    (hsees : v.sees R.nextId g = true) (hnumber : v.number R.nextId = S.nextId) :
    (S.begin e (v.gesture g) A).1.live = v.attempts (R.begin e g A).1.live ∧
      Report.notices (S.begin e (v.gesture g) A).2 =
        v.notices (Report.notices (R.begin e g A).2) := by
  have hfirst := feed_seen (a := .start R.nextId g A e) hsees (Slots.observeFirst e).1
  rw [Recognizer.begin_of_room hA hroom, Recognizer.begin_of_room hA hroom',
    Recognizer.notices_created, Recognizer.notices_created, ← hnumber]
  constructor
  · rw [attempts_append, ← h, attempts_toList]
    exact congrArg (S.live ++ Option.toList ·) hfirst.1
  · rw [notices_created, if_pos hsees]
    exact congrArg (_ :: ·) hfirst.2

/-- Nothing is seen of new attempts at gestures that are not seen. -/
theorem begin_unseen {A : Automaton} {g : Nat} (hsees : v.sees R.nextId g = false) :
    v.attempts (R.begin e g A).1.live = v.attempts R.live ∧
      v.notices (Report.notices (R.begin e g A).2) = [] := by
  rcases R.begin_cases e g A with ⟨reports, h, hn⟩ | h
  · rw [h, hn]
    exact ⟨rfl, rfl⟩
  · have hfirst := feed_unseen (a := .start R.nextId g A e) hsees (Slots.observeFirst e).1
    rw [h, Recognizer.notices_created]
    constructor
    · rw [attempts_append, attempts_toList]
      exact List.append_right_eq_self.mpr (congrArg Option.toList hfirst.1)
    · rw [notices_created, hsees]
      exact hfirst.2

theorem beginAll_unseen {gs : List (Automaton × Nat)} :
    ∀ {R : Recognizer}, (∀ p ∈ gs, ∀ id, v.sees id p.2 = false) →
      v.attempts (Recognizer.beginAll e gs R).1.live = v.attempts R.live ∧
        v.notices (Report.notices (Recognizer.beginAll e gs R).2) = [] := by
  induction gs with
  | nil => exact fun _ => ⟨rfl, rfl⟩
  | cons p gs ih =>
      obtain ⟨A, g⟩ := p
      intro R h
      obtain ⟨hp, hgs⟩ := List.forall_mem_cons.mp h
      have h₁ := begin_unseen (e := e) (A := A) (hp R.nextId)
      have h₂ := ih (R := (R.begin e g A).1) hgs
      rw [Recognizer.beginAll, Report.notices_append, notices_append, h₁.2, h₂.2]
      exact ⟨h₂.1.trans h₁.1, rfl⟩

/-! ### Numbers in the order of creation -/

/-- How many of the attempts were created before one. -/
def rank (ids : List Nat) (id : Nat) : Nat :=
  ids.countP (· < id)

theorem rank_append {ids later : List Nat} {id : Nat} (h : ∀ m ∈ later, id ≤ m) :
    rank (ids ++ later) id = rank ids id := by
  have hlater : later.countP (· < id) = 0 :=
    List.countP_eq_zero.mpr fun m hm => by simpa using h m hm
  rw [rank, List.countP_append, hlater]
  rfl

/-- What is created next has all others before it. -/
theorem rank_new {ids : List Nat} {id : Nat} (h : ∀ m ∈ ids, m < id) :
    rank (ids ++ [id]) id = ids.length := by
  rw [rank_append fun m hm => (List.mem_singleton.mp hm).ge]
  exact List.countP_eq_length.mpr fun m hm => decide_eq_true (h m hm)

/-- Two views agree on the attempts that have been numbered so far. -/
structure Agrees (v w : View) (nextId : Nat) : Prop where
  sees : ∀ id < nextId, v.sees id = w.sees id
  number : ∀ id < nextId, v.number id = w.number id
  gesture : v.gesture = w.gesture

theorem Agrees.attempts {n : Nat} {live : List Attempt} (h : Agrees v w n)
    (hlive : ∀ a ∈ live, a.id < n) : v.attempts live = w.attempts live :=
  List.filterMap_congr fun a ha => by
    rw [attempt?, attempt?, h.sees _ (hlive a ha), h.number _ (hlive a ha), h.gesture]

theorem Agrees.unseen {n : Nat} {live : List Attempt} (h : Agrees v w n)
    (hlive : ∀ a ∈ live, a.id < n) : v.unseen live = w.unseen live :=
  List.countP_congr fun a ha => by rw [h.sees _ (hlive a ha)]

theorem Agrees.notices {n : Nat} {told : List Notice} (h : Agrees v w n)
    (htold : ∀ t ∈ told, t.attempt < n) : v.notices told = w.notices told :=
  List.filterMap_congr fun t ht => by
    rw [notice?, notice?, h.sees _ (htold t ht), h.number _ (htold t ht), h.gesture]

/-- The views of a family, one for the attempts that have come to be seen so far, number these in
the order of their creation, and see the others as before when more come to be seen. -/
structure Settled (V : List Nat → View) : Prop where
  number : ∀ ids, (V ids).number = rank ids
  gesture : ∀ ids later, (V ids).gesture = (V (ids ++ later)).gesture
  sees : ∀ ids later, ∀ id ∉ later, (V ids).sees id = (V (ids ++ later)).sees id

theorem Settled.agrees {V : List Nat → View} (hV : Settled V) (ids later : List Nat) (n : Nat)
    (h : ∀ m ∈ later, n ≤ m) : Agrees (V ids) (V (ids ++ later)) n where
  sees id hid := hV.sees ids later id fun hm => Nat.not_lt.mpr (h id hm) hid
  number id hid := by
    rw [hV.number, hV.number, rank_append fun m hm => hid.le.trans (h m hm)]
  gesture := hV.gesture ids later

/-! ### A recognizer and what is seen of another -/

section

variable {V : List Nat → View} {ids : List Nat}

/-- The recognizer `S` has what is seen of `R`, and has numbered what has come to be seen. -/
structure Tracks (V : List Nat → View) (ids : List Nat) (R S : Recognizer) : Prop where
  live : S.live = (V ids).attempts R.live
  fresh : R.Fresh
  lt : ∀ id ∈ ids, id < R.nextId
  nextId : S.nextId = ids.length

theorem Tracks.proceed (h : Tracks V ids R S) (e : Event) :
    Tracks V ids (R.proceed e).1 (S.proceed e).1 :=
  ⟨(View.proceed h.live e).1, h.fresh.proceed e, h.lt, h.nextId⟩

/-- New attempts of the one recognizer, none of which is seen, do not concern the other. -/
theorem Tracks.begins {R' : Recognizer} {reports : List Report} (h : Tracks V ids R S)
    (hb : Recognizer.Begins R R' reports)
    (hlive : (V ids).attempts R'.live = (V ids).attempts R.live) : Tracks V ids R' S where
  live := h.live.trans hlive.symm
  fresh := hb.fresh h.fresh
  lt id hid := (h.lt id hid).trans_le hb.nextId_le
  nextId := h.nextId

/-- Both recognizers start an attempt, and it comes to be seen. -/
theorem Tracks.begin_seen {A : Automaton} {g : Nat} (hV : Settled V) (h : Tracks V ids R S)
    (hA : A.Opens e) (hroom : R.live.length < R.capacity) (hroom' : S.live.length < S.capacity)
    (hsees : (V (ids ++ [R.nextId])).sees R.nextId g = true) :
    let v := V (ids ++ [R.nextId])
    Tracks V (ids ++ [R.nextId]) (R.begin e g A).1 (S.begin e (v.gesture g) A).1 ∧
      Report.notices (S.begin e (v.gesture g) A).2 =
        v.notices (Report.notices (R.begin e g A).2) := by
  intro v
  have hlive : S.live = v.attempts R.live :=
    h.live.trans ((hV.agrees ids [R.nextId] R.nextId (by simp)).attempts h.fresh)
  have hnumber : v.number R.nextId = S.nextId := by
    rw [hV.number, rank_new h.lt, h.nextId]
  have hb := R.begins_begin e g A
  obtain ⟨hlive', hnotices⟩ := View.begin_seen hlive hA hroom hroom' hsees hnumber
  refine ⟨⟨hlive', hb.fresh h.fresh, fun id hid => ?_, ?_⟩, hnotices⟩
  · rw [Recognizer.begin_of_room hA hroom]
    rcases List.mem_append.mp hid with hid | hid
    · exact Nat.lt_succ_of_lt (h.lt id hid)
    · exact Nat.lt_succ_of_le (List.mem_singleton.mp hid).le
  · rw [Recognizer.begin_of_room hA hroom', List.length_append]
    exact congrArg Nat.succ h.nextId

end

/-! ### Runs -/

/-- The attempts that come to be seen: those created at gestures that are picked, given what the
other recognizer tells. -/
def added (pick : List Notice → Nat → Bool) (whole part : List Report) : List Nat :=
  Notice.createdAt (pick (Report.notices part)) (Report.notices whole)

/-- The attempts that come to be seen in a run. -/
def numbers (pick : List Notice → Nat → Bool) : List Moment → List Moment → List Nat
  | whole :: wholes, part :: parts =>
    added pick whole.reports part.reports ++ numbers pick wholes parts
  | _, _ => []

/-- What is done to two recognizers keeps a relation between them, and what is told of it in the one
is seen of the other. -/
structure Keeps (V : List Nat → View) (pick : List Notice → Nat → Bool)
    (Related : List Nat → Recognizer → Recognizer → Prop) (ids : List Nat)
    (whole part : Recognizer × List Report) : Prop where
  related : Related (ids ++ added pick whole.2 part.2) whole.1 part.1
  notices : Report.notices part.2 =
    (V (ids ++ added pick whole.2 part.2)).notices (Report.notices whole.2)

section

variable {V : List Nat → View} {pick : List Notice → Nat → Bool}
  {Related : List Nat → Recognizer → Recognizer → Prop} {ids : List Nat}
  {whole whole' part part' : Recognizer × List Report}

/-- Nothing comes to be seen. -/
theorem Keeps.of_added_eq_nil (hadded : added pick whole.2 part.2 = [])
    (h : Related ids whole.1 part.1)
    (hnotices : Report.notices part.2 = (V ids).notices (Report.notices whole.2)) :
    Keeps V pick Related ids whole part := by
  constructor <;> rw [hadded, List.append_nil]
  · exact h
  · exact hnotices

/-- Nothing is told. -/
theorem Keeps.quiet (h : Related ids R S) : Keeps V pick Related ids (R, []) (S, []) :=
  .of_added_eq_nil rfl h rfl

/-- One thing is done after the other. -/
theorem Keeps.append (hV : Settled V) (h : Keeps V pick Related ids whole part)
    (h' : Keeps V pick Related (ids ++ added pick whole.2 part.2) whole' part')
    (hadded : added pick (whole.2 ++ whole'.2) (part.2 ++ part'.2) =
      added pick whole.2 part.2 ++ added pick whole'.2 part'.2)
    (hold : ∀ n ∈ Report.notices whole.2, n.attempt < whole.1.nextId)
    (hnew : Recognizer.Begins whole.1 whole'.1 whole'.2) :
    Keeps V pick Related ids (whole'.1, whole.2 ++ whole'.2) (part'.1, part.2 ++ part'.2) := by
  have hlater : ∀ id ∈ added pick whole'.2 part'.2, whole.1.nextId ≤ id := by
    intro id hid
    obtain ⟨g, hn, -⟩ := Notice.mem_createdAt.mp hid
    exact (hnew.notices _ hn).1
  have hseen := hV.agrees (ids ++ added pick whole.2 part.2) _ _ hlater
  have hrelated := h'.related
  have hnotices := h'.notices
  rw [List.append_assoc, ← hadded] at hrelated hseen hnotices
  refine ⟨hrelated, ?_⟩
  rw [Report.notices_append, Report.notices_append, notices_append, h.notices, hseen.notices hold]
  exact congrArg (_ ++ ·) hnotices

end

theorem nextId_le_of_mem_numbers {L : Dialect} {pick : List Notice → Nat → Bool} {id : Nat}
    {ops : List Op} : ∀ {R S : Recognizer},
      id ∈ numbers pick (R.history L ops) (S.history L ops) → R.nextId ≤ id := by
  induction ops with
  | nil => exact fun h => nomatch h
  | cons op ops ih =>
      intro R S h
      rcases List.mem_append.mp h with h | h
      · obtain ⟨g, hn, -⟩ := Notice.mem_createdAt.mp h
        exact Recognizer.nextId_le_of_created hn
      · exact (R.nextId_le_moment L op).trans (ih h)

/-- What is yet to be created does not change what is seen of a moment. -/
theorem Shows.congr {L : Dialect} {op : Op} {part : Moment} (hR : R.Fresh)
    (hvw : Agrees v w (R.moment L op).after.nextId) (h : v.Shows (R.moment L op) part) :
    w.Shows (R.moment L op) part where
  notices := h.notices.trans (hvw.notices fun _ hn => hR.attempt_lt hn)
  live := h.live.trans (hvw.attempts (hR.apply op))

/-- **One run is a view of another**, with the attempts that come to be seen in it, if every
operation keeps a relation that makes it so. -/
theorem shows_history {L : Dialect} {V : List Nat → View} {pick : List Notice → Nat → Bool}
    {Related : List Nat → Recognizer → Recognizer → Prop} {P : Op → Prop} {Q : Moment → Prop}
    (hV : Settled V) (htracks : ∀ {ids R S}, Related ids R S → Tracks V ids R S)
    (hstep : ∀ {ids R S op}, Related ids R S → P op → Q (R.moment L op) →
      Keeps V pick Related ids (R.apply L op) (S.apply L op))
    {ops : List Op} : ∀ {ids : List Nat} {R S : Recognizer}, Related ids R S →
      (∀ op ∈ ops, P op) → (∀ m ∈ R.history L ops, Q m) →
        List.Forall₂ (fun whole part =>
            (V (ids ++ numbers pick (R.history L ops) (S.history L ops))).Shows whole part ∧
              ∃ ids, Related ids whole.after part.after)
          (R.history L ops) (S.history L ops) := by
  induction ops with
  | nil => exact fun _ _ _ => .nil
  | cons op ops ih =>
      intro ids R S h hP hQ
      obtain ⟨hop, hops⟩ := List.forall_mem_cons.mp hP
      obtain ⟨hm, hms⟩ := List.forall_mem_cons.mp hQ
      have hnext := hstep h hop hm
      let new := added pick (R.moment L op).reports (S.moment L op).reports
      let later := numbers pick ((R.moment L op).after.history L ops)
        ((S.moment L op).after.history L ops)
      have hlater : ∀ id ∈ later, (R.moment L op).after.nextId ≤ id :=
        fun id hid => nextId_le_of_mem_numbers hid
      have hshows : (V (ids ++ new)).Shows (R.moment L op) (S.moment L op) :=
        ⟨hnext.notices, (htracks hnext.related).live⟩
      have hseen := hV.agrees (ids ++ new) later _ hlater
      have hrest := ih hnext.related hops hms
      rw [List.append_assoc] at hseen hrest
      exact .cons ⟨hshows.congr (htracks h).fresh hseen, _, hnext.related⟩ hrest

end View

end Multitouch
