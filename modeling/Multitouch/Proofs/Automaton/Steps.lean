import Mathlib.Tactic.Tauto
import Multitouch.Automaton.Basic
import Multitouch.Proofs.Keyed

/-!
# What an automaton reads from a set of states

A state has one row for a key at most, so that the edges in it are all edges for the key
(`row_eq`).

Reading a symbol in several states at once is reading it in each of them (`mem_step`), so the words
that lead from a set of states to a final one are those that do so from a single state of the set
(`acceptsFrom_iff`).
-/

namespace Multitouch

/-! ### Numbers in ascending order -/

theorem mem_eraseReps {α : Type} [BEq α] [LawfulBEq α] {x : α} {l : List α} :
    x ∈ l.eraseReps ↔ x ∈ l := by
  have loop : ∀ (l : List α) (a : α) (done : List α),
      x ∈ List.eraseRepsBy.loop (· == ·) a l done ↔ x = a ∨ x ∈ l ∨ x ∈ done := by
    intro l
    induction l with
    | nil => simp [List.eraseRepsBy.loop, or_comm]
    | cons b l ih =>
        intro a done
        unfold List.eraseRepsBy.loop
        rw [List.mem_cons]
        split
        · next h =>
            rw [ih, eq_of_beq h]
            tauto
        · rw [ih, List.mem_cons]
          tauto
  cases l with
  | nil => exact Iff.rfl
  | cons a l =>
      rw [List.eraseReps, List.eraseRepsBy, loop]
      simp

/-! ### Each element once -/

theorem nodup_eraseDups {α : Type} [BEq α] [LawfulBEq α] : ∀ l : List α, l.eraseDups.Nodup
  | [] => List.nodup_nil
  | a :: l => by
      have hnew : a ∉ (l.filter fun b => !b == a).eraseDups := by
        rw [List.mem_eraseDups, List.mem_filter]
        simp
      rw [List.eraseDups_cons]
      exact List.nodup_cons.mpr ⟨hnew, nodup_eraseDups _⟩
termination_by l => l.length
decreasing_by exact Nat.lt_succ_of_le (List.length_filter_le _ _)

/-! ### The edges of a state -/

namespace State

variable {s : State} {e : Edge Guard}

/-- **The row for a key holds all edges for the key.** -/
theorem row_eq (s : State) (key : Key) : s.row key = s.edges.filter (·.key == key) := by
  obtain ⟨tag, ⟨entries, hascending⟩, final⟩ := s
  unfold row edges Edge.ofRows Keyed.get?
  dsimp only
  induction entries with
  | nil => rfl
  | cons row entries ih =>
      obtain ⟨hrow, hentries⟩ := List.pairwise_cons.mp hascending
      rw [Keyed.lookup_cons, List.flatMap_cons, List.filter_append, ← ih hentries]
      split_ifs with hkey
      · -- no other row is for the key
        have hrest : entries.lookup key = none :=
          Keyed.lookup_eq_none fun f hf => hkey ▸ Keyed.ne_of_lt (hrow f hf)
        rw [hrest, List.append_nil, List.filter_eq_self.mpr ?_, hkey]
        intro e he
        obtain ⟨way, -, rfl⟩ := List.mem_map.mp he
        exact beq_iff_eq.mpr hkey.symm
      · rw [List.filter_eq_nil_iff.mpr ?_, List.nil_append]
        intro e he
        obtain ⟨way, -, rfl⟩ := List.mem_map.mp he
        simpa using Ne.symm hkey

theorem mem_matching {x : Symbol} :
    e ∈ s.matching x ↔ e ∈ s.edges ∧ e.key = x.key ∧ e.target.test x.target = true := by
  rw [matching, row_eq, List.mem_filter, List.mem_filter, beq_iff_eq, and_assoc]

theorem edges_of_halting (h : s.halting = true) : s.edges = [] := by
  rw [edges, Edge.ofRows, List.isEmpty_iff.mp h, List.flatMap_nil]

theorem row_of_mem {key : Key} {ways : List (Guard × List Nat)}
    (h : (key, ways) ∈ s.rows.entries) :
    s.row key = ways.map fun way => ⟨key, way.1, way.2⟩ := by
  rw [row, Keyed.mem_entries_iff.mp h]

/-- Each row of the state has an edge. -/
def Filled (s : State) : Prop :=
  ∀ key ∈ s.keys, s.row key ≠ []

/-- A state with rows has edges, if each row has one. -/
theorem Filled.edges_ne_nil (hs : s.Filled) (h : s.halting = false) : s.edges ≠ [] := by
  have hne : s.rows.entries ≠ [] := fun hnil => by
    rw [halting, Keyed.isEmpty, hnil] at h
    cases h
  obtain ⟨row, hrow⟩ := List.exists_mem_of_ne_nil _ hne
  obtain ⟨e, he⟩ := List.exists_mem_of_ne_nil _ (hs row.1 (List.mem_map.mpr ⟨row, hrow, rfl⟩))
  rw [row_eq] at he
  exact List.ne_nil_of_mem (List.mem_filter.mp he).1

end State

namespace Automaton

@[simp] theorem mem_ascending {n : Nat} {ids : List Nat} : n ∈ ascending ids ↔ n ∈ ids := by
  rw [ascending, mem_eraseReps, List.mem_mergeSort]

/-! ### Steps -/

variable {A : Automaton} {ids : List Nat}

theorem mem_known {s : State} : s ∈ A.known ids ↔ ∃ i ∈ ids, A.states[i]? = some s :=
  List.mem_filterMap

/-- A state is entered if some edge leads to it that the symbol follows. -/
theorem mem_step {x : Symbol} {d : Nat} :
    d ∈ (A.step ids x).states ↔
      ∃ i ∈ ids, ∃ s, A.states[i]? = some s ∧ ∃ e ∈ s.matching x, d ∈ e.dests := by
  have hmove : ∀ s : State, (∃ m, move x s = some m ∧ d ∈ m.2) ↔
      ∃ e ∈ s.matching x, d ∈ e.dests := by
    intro s
    unfold move
    split
    · next h => simp [h]
    · simp
  have hmoves : d ∈ (((A.known ids).filterMap (move x)).flatMap (·.2)) ↔
      ∃ s ∈ A.known ids, ∃ m, move x s = some m ∧ d ∈ m.2 := by
    simp only [List.mem_flatMap, List.mem_filterMap]
    exact ⟨fun ⟨m, ⟨s, hs, hm⟩, hd⟩ => ⟨s, hs, m, hm, hd⟩,
      fun ⟨s, hs, m, hm, hd⟩ => ⟨m, ⟨s, hs, hm⟩, hd⟩⟩
  rw [step, mem_ascending, hmoves]
  constructor
  · rintro ⟨s, hs, hm⟩
    obtain ⟨i, hi, hs⟩ := mem_known.mp hs
    exact ⟨i, hi, s, hs, (hmove s).mp hm⟩
  · rintro ⟨i, hi, s, hs, hd⟩
    exact ⟨s, mem_known.mpr ⟨i, hi, hs⟩, (hmove s).mpr hd⟩

/-- The tag of a state is reported if the symbol follows some edge of the state. -/
theorem mem_tags {x : Symbol} {tag : Tag} :
    tag ∈ (A.step ids x).tags ↔
      ∃ i ∈ ids, ∃ s, A.states[i]? = some s ∧ s.matching x ≠ [] ∧ s.tag = tag := by
  have hmove : ∀ s : State, (∃ m, move x s = some m ∧ m.1 = tag) ↔
      s.matching x ≠ [] ∧ s.tag = tag := by
    intro s
    unfold move
    split
    · next h => simp [h]
    · next h => simp [show s.matching x ≠ [] from h]
  simp only [step, List.mem_eraseDups, List.mem_map, List.mem_filterMap]
  constructor
  · rintro ⟨m, ⟨s, hs, hm⟩, htag⟩
    obtain ⟨i, hi, hs⟩ := mem_known.mp hs
    exact ⟨i, hi, s, hs, (hmove s).mp ⟨m, hm, htag⟩⟩
  · rintro ⟨i, hi, s, hs, hm⟩
    obtain ⟨m, hm, htag⟩ := (hmove s).mpr hm
    exact ⟨m, ⟨s, mem_known.mpr ⟨i, hi, hs⟩, hm⟩, htag⟩

theorem nodup_tags (A : Automaton) (ids : List Nat) (x : Symbol) : (A.step ids x).tags.Nodup :=
  nodup_eraseDups _

theorem complete_iff : A.complete ids = true ↔
    ∃ i ∈ ids, ∃ s, A.states[i]? = some s ∧ s.final = true := by
  rw [complete, List.any_eq_true]
  constructor
  · rintro ⟨s, hs, hf⟩
    obtain ⟨i, hi, hs⟩ := mem_known.mp hs
    exact ⟨i, hi, s, hs, hf⟩
  · rintro ⟨i, hi, s, hs, hf⟩
    exact ⟨s, mem_known.mpr ⟨i, hi, hs⟩, hf⟩

/-! ### Words -/

/-- The word leads from the state `i` to a final one. -/
def Reads (A : Automaton) (i : Nat) : List Symbol → Prop
  | [] => ∃ s, A.states[i]? = some s ∧ s.final = true
  | x :: word => ∃ s, A.states[i]? = some s ∧ ∃ e ∈ s.matching x, ∃ d ∈ e.dests, A.Reads d word

theorem step_nil (A : Automaton) (x : Symbol) : (A.step [] x).states = [] := by
  refine List.eq_nil_iff_forall_not_mem.mpr fun d hd => ?_
  obtain ⟨i, hi, -⟩ := mem_step.mp hd
  cases hi

theorem acceptsFrom_nil (A : Automaton) (word : List Symbol) : A.acceptsFrom [] word = false := by
  cases word with
  | nil => rfl
  | cons x word => rw [acceptsFrom, step_nil]

/-- The early answer for an empty set is the one that reading on would give. -/
theorem acceptsFrom_cons {x : Symbol} {word : List Symbol} :
    A.acceptsFrom ids (x :: word) = A.acceptsFrom (A.step ids x).states word := by
  rw [acceptsFrom]
  split
  · next h => rw [h, acceptsFrom_nil]
  · rfl

/-- **A set of states reads what its members read.** -/
theorem acceptsFrom_iff {word : List Symbol} :
    A.acceptsFrom ids word = true ↔ ∃ i ∈ ids, A.Reads i word := by
  induction word generalizing ids with
  | nil => exact complete_iff
  | cons x word ih =>
      rw [acceptsFrom_cons, ih]
      constructor
      · rintro ⟨d, hd, hw⟩
        obtain ⟨i, hi, s, hs, e, he, hd⟩ := mem_step.mp hd
        exact ⟨i, hi, s, hs, e, he, d, hd, hw⟩
      · rintro ⟨i, hi, s, hs, e, he, d, hd, hw⟩
        exact ⟨d, mem_step.mpr ⟨i, hi, s, hs, e, he, hd⟩, hw⟩

/-- The states that a word leads to from the initial one. -/
def reached (A : Automaton) (word : List Symbol) : List Nat :=
  word.foldl (fun ids x => (A.step ids x).states) [initial]

theorem reached_concat (A : Automaton) (word : List Symbol) (x : Symbol) :
    A.reached (word ++ [x]) = (A.step (A.reached word) x).states := by
  rw [reached, List.foldl_append]
  rfl

/-- A word is accepted if one of the states it leads to is final. -/
theorem accepts_eq (A : Automaton) (word : List Symbol) :
    A.accepts word = A.complete (A.reached word) := by
  have h : ∀ ids, A.acceptsFrom ids word =
      A.complete (word.foldl (fun ids x => (A.step ids x).states) ids) := by
    induction word with
    | nil => exact fun _ => rfl
    | cons x word ih => exact fun ids => acceptsFrom_cons.trans (ih _)
  exact h [initial]

end Automaton

end Multitouch
