import Mathlib.Data.List.Sort
import Multitouch.Proofs.Automaton.Entered

/-!
# A step from several sets of states

What a step enters from two sets of states together is what it enters from the one or from the
other, and it reports the tags of the first set and after them those of the second that are new
(`step_append`).  So the order of the states, their repetition and numbers that are no state's have
no say in what is entered, and more states never enter less.
-/

namespace Multitouch

theorem eraseDups_filter {α : Type} [BEq α] [LawfulBEq α] (p : α → Bool) :
    ∀ l : List α, (l.filter p).eraseDups = l.eraseDups.filter p
  | [] => rfl
  | a :: l => by
      have ih := eraseDups_filter p (l.filter fun b => !b == a)
      rw [List.eraseDups_cons, List.filter_cons, List.filter_cons, ← ih, List.filter_comm]
      split
      · rw [List.eraseDups_cons]
      · next ha =>
          -- `a` is dropped by the filter as it is
          have hsame : (l.filter p).filter (fun b => !b == a) = l.filter p :=
            List.filter_eq_self.mpr fun b hb => by
              have hp := (List.mem_filter.mp hb).2
              rw [Bool.not_eq_true', beq_eq_false_iff_ne]
              rintro rfl
              exact ha hp
          rw [hsame]
termination_by l => l.length
decreasing_by exact Nat.lt_succ_of_le (List.length_filter_le _ _)

/-- Of a second list the members that are new are kept, each once. -/
theorem eraseDups_append_filter {α : Type} [DecidableEq α] (l l' : List α) :
    (l ++ l').eraseDups = l.eraseDups ++ l'.eraseDups.filter (· ∉ l.eraseDups) := by
  rw [List.eraseDups_append, List.removeAll, eraseDups_filter]
  refine congrArg _ (List.filter_congr fun a _ => ?_)
  rw [Bool.eq_iff_iff, decide_eq_true_iff, List.mem_eraseDups, Bool.not_eq_true',
    ← Bool.not_eq_true, List.elem_iff]

namespace Automaton

variable {A : Automaton} {ids ids' : List Nat} {x : Symbol}

theorem known_append (A : Automaton) (ids ids' : List Nat) :
    A.known (ids ++ ids') = A.known ids ++ A.known ids' :=
  List.filterMap_append

/-- Numbers that are no state's may be left out. -/
theorem known_filter_lt (A : Automaton) (ids : List Nat) :
    A.known (ids.filter (· < A.size)) = A.known ids := by
  rw [known, known, List.filterMap_filter]
  refine List.filterMap_congr fun n _ => ?_
  split
  · rfl
  · next h =>
      have hn : A.size ≤ n := by simpa using h
      exact (Array.getElem?_eq_none hn).symm

theorem pairwise_step_states (A : Automaton) (ids : List Nat) (x : Symbol) :
    (A.step ids x).states.Pairwise (· < ·) :=
  pairwise_ascending _

/-- More states enter all that fewer do. -/
theorem step_states_mono (h : ∀ i < A.size, i ∈ ids → i ∈ ids') :
    (A.step ids x).states ⊆ (A.step ids' x).states := by
  intro d hd
  obtain ⟨i, hi, s, hs, he⟩ := mem_step.mp hd
  have hlt := (Array.getElem?_eq_some_iff.mp hs).1
  exact mem_step.mpr ⟨i, h i hlt hi, s, hs, he⟩

theorem mem_step_append {d : Nat} : d ∈ (A.step (ids ++ ids') x).states ↔
    d ∈ (A.step ids x).states ∨ d ∈ (A.step ids' x).states := by
  simp only [mem_step, List.mem_append, or_and_right, exists_or]

theorem tags_append : (A.step (ids ++ ids') x).tags =
    (A.step ids x).tags ++ (A.step ids' x).tags.filter (· ∉ (A.step ids x).tags) := by
  have htags : ∀ ids, (A.step ids x).tags =
      (((A.known ids).filterMap (move x)).map (·.1)).eraseDups := fun _ => rfl
  rw [htags (ids ++ ids'), known_append, List.filterMap_append, List.map_append,
    eraseDups_append_filter, ← htags, ← htags]

/-- **A step is a homomorphism of sets of states.**  From two lists of numbers together it enters,
in ascending order, what it enters from the one or from the other; and it reports the tags of the
first, followed by those of the second that are not among them.  So what is entered depends only on
which states are listed, numbers that are no state's change nothing, more states never enter fewer,
and no state is entered exactly if no tag is reported. -/
theorem step_append (L : Dialect) (es : List Expression) (x : Symbol) (ids ids' : List Nat) :
    let A := ofExpressions L es
    let both := A.step (ids ++ ids') x
    let first := A.step ids x
    let second := A.step ids' x
    both.states.Pairwise (· < ·) ∧
    (∀ d, d ∈ both.states ↔ d ∈ first.states ∨ d ∈ second.states) ∧
    both.tags = first.tags ++ second.tags.filter (· ∉ first.tags) ∧
    ((∀ i < A.size, i ∈ ids ↔ i ∈ ids') → first.states = second.states) ∧
    A.step (ids.filter (· < A.size)) x = first ∧
    (ids ⊆ ids' → first.states ⊆ second.states ∧
      first.states.length ≤ second.states.length) ∧
    (first.states = [] ↔ first.tags = []) := by
  intro A both first second
  have hfirst : first.states.Pairwise (· < ·) := pairwise_step_states A ids x
  have hsecond : second.states.Pairwise (· < ·) := pairwise_step_states A ids' x
  refine ⟨pairwise_step_states A _ x, fun d => mem_step_append, tags_append, fun h => ?_, ?_,
    fun h => ?_, step_states_eq_nil (leading_ofExpressions L es)⟩
  · exact hfirst.eq_of_mem_iff hsecond fun d =>
      ⟨fun hd => step_states_mono (fun i hi => (h i hi).mp) hd,
        fun hd => step_states_mono (fun i hi => (h i hi).mpr) hd⟩
  · simp only [first, step, known_filter_lt]
  · have hsub : first.states ⊆ second.states := step_states_mono fun i _ hi => h hi
    have hnodup : first.states.Nodup := hfirst.imp Nat.ne_of_lt
    exact ⟨hsub, (hnodup.subperm hsub).length_le⟩

end Automaton

end Multitouch
