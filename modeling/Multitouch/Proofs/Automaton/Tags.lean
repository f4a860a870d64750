import Multitouch.Proofs.Automaton.Edges
import Multitouch.Proofs.Language.Tagged

/-!
# The tags of a step tell which part of the gesture has advanced

The states that a word leads to are the nodes that it leads to, when it is taken down with the
tags of the nodes it enters (`mem_reached_iff`).  A step reports the tag of a state if it leads on
from there.  So the tags that it reports are those that the last symbol of the word can be taken
down with, if the symbol of the step can be read after it (`mem_tags_iff`): the tags of the
innermost groups around the parts of the unrolled pattern that match this last symbol, in all
matches that go on with the step.
-/

namespace Multitouch.Automaton

variable {L : Dialect} {N : Network} {initial final : Nat}

section Network

variable (hN : N.Wired) (hi : initial < N.size)
include hN hi

/-- What is led to from a node that is kept is kept. -/
theorem has_of_leads {u : List (Symbol × Tag)} {b : Nat} :
    ∀ {a : Nat}, (numbering N initial final).Has a → N.Leads L a u b →
      (numbering N initial final).Has b := by
  induction u with
  | nil => exact fun ha h => (h : _ = b) ▸ ha
  | cons m u ih =>
      rintro a ha ⟨t, ht, target, d, hd, -, -, h⟩
      have hlt := (numbering_inverse final hN hi).lt ha
      have hcell := (Closure.offers_run hN initial final hlt
        (o := some (m.1.key, target, d))).mpr ⟨t, ht, hd⟩
      exact ih (numbering_closed hN hi ha hcell) h

/-- **A symbol leads from a state on as it leads from its node.** -/
theorem matching_iff {k n : Nat} {s : State} {x : Symbol} (P : Nat → Prop)
    (hk : (numbering N initial final).order[k]? = some n)
    (hs : (ofNetwork L N initial final).states[k]? = some s) :
    (∃ e ∈ s.matching x, ∃ j ∈ e.dests, P j) ↔
      ∃ tag b j, N.Leads L n [(x, tag)] b ∧ (numbering N initial final).order[j]? = some b ∧
        P j := by
  have hoffers := fun target d => Closure.offers_run hN initial final
    ((numbering_inverse final hN hi).lt ⟨k, hk⟩) (o := some (x.key, target, d))
  rw [mem_matching hN hi P hk hs]
  constructor
  · rintro ⟨target, d, j, hd, hx, hj, hP⟩
    obtain ⟨t, ht, hd⟩ := (hoffers target d).mp hd
    exact ⟨N.tag d, d, j, ⟨t, ht, target, d, hd, hx, rfl, rfl⟩, hj, hP⟩
  · rintro ⟨tag, b, j, ⟨t, ht, target, d, hd, hx, -, rfl⟩, hj, hP⟩
    exact ⟨target, d, j, (hoffers target d).mpr ⟨t, ht, hd⟩, hx, hj, hP⟩

/-- **A word leads to the states whose nodes it leads to.** -/
theorem mem_reached_iff {word : List Symbol} : ∀ {k n : Nat},
    (numbering N initial final).order[k]? = some n →
      (k ∈ (ofNetwork L N initial final).reached word ↔
        ∃ u, u.map Prod.fst = word ∧ N.Leads L initial u n) := by
  have hstart := numbering_initial final hN hi
  induction word using List.reverseRecOn with
  | nil =>
      intro k n hk
      constructor
      · intro h
        obtain rfl := List.mem_singleton.mp h
        exact ⟨[], rfl, Option.some.inj (hstart.symm.trans hk)⟩
      · rintro ⟨u, hu, h⟩
        obtain rfl := List.map_eq_nil_iff.mp hu
        obtain rfl : initial = n := h
        have hv := numbering_inverse final hN hi
        exact List.mem_singleton.mpr ((hv.get hk).symm.trans (hv.get hstart))
  | append_singleton word x ih =>
      intro k n hk
      rw [reached_concat, mem_step]
      constructor
      · rintro ⟨i, hmem, s, hs, e, he, hke⟩
        obtain ⟨m, hm, -⟩ := exists_node hs
        obtain ⟨u, rfl, hu⟩ := (ih hm).mp hmem
        obtain ⟨tag, b, j, hlast, hj, rfl⟩ :=
          (matching_iff hN hi (· = k) hm hs).mp ⟨e, he, k, hke, rfl⟩
        obtain rfl : b = n := Option.some.inj (hj.symm.trans hk)
        exact ⟨u ++ [(x, tag)], List.map_append, Network.leads_append.mpr ⟨m, hu, hlast⟩⟩
      · rintro ⟨w, hw, h⟩
        obtain ⟨u, v, rfl, rfl, hx⟩ := List.map_eq_append_iff.mp hw
        obtain ⟨p, rfl, rfl⟩ := List.map_eq_singleton_iff.mp hx
        obtain ⟨m, hu, hlast⟩ := Network.leads_append.mp h
        obtain ⟨i, hm⟩ := has_of_leads hN hi ⟨_, hstart⟩ hu
        obtain ⟨s, hs, -⟩ := exists_state (L := L) hm
        obtain ⟨e, he, j, hje, rfl⟩ :=
          (matching_iff hN hi (· = k) hm hs).mpr ⟨p.2, n, k, hlast, hk, rfl⟩
        exact ⟨i, (ih hm).mpr ⟨u, rfl, hu⟩, s, hs, e, he, hje⟩

/-- **A step reports what the symbol before it can be taken down with**, if the symbol of the step
can be read after it. -/
theorem mem_tags_iff (hlead : (ofNetwork L N initial final).Leading) {word : List Symbol}
    {y x : Symbol} {tag : Tag} :
    let A := ofNetwork L N initial final
    tag ∈ (A.step (A.reached (word ++ [y])) x).tags ↔
      ∃ u t, u.map Prod.fst = word ∧ ∃ b, N.Leads L initial (u ++ [(y, tag), (x, t)]) b := by
  intro A
  rw [mem_tags]
  constructor
  · rintro ⟨k, hmem, s, hs, hne, rfl⟩
    obtain ⟨n, hn, htag⟩ := exists_node hs
    -- the last symbol is taken down with the tag of the node, and there is an edge to go on
    obtain ⟨w, hw, h⟩ := (mem_reached_iff hN hi hn).mp hmem
    obtain ⟨u, v, rfl, rfl, hy⟩ := List.map_eq_append_iff.mp hw
    obtain ⟨⟨z, tag⟩, rfl, rfl⟩ := List.map_eq_singleton_iff.mp hy
    obtain ⟨m, hu, t, ht, target, d, hd, hz, rfl, rfl⟩ := Network.leads_append.mp h
    obtain ⟨e, he⟩ := List.exists_mem_of_ne_nil _ hne
    obtain ⟨j, hj⟩ := List.exists_mem_of_ne_nil _ (hlead k _ hs e (State.mem_matching.mp he).1)
    obtain ⟨tag, b, -, hnext, -⟩ :=
      (matching_iff hN hi (fun _ => True) hn hs).mp ⟨e, he, j, hj, trivial⟩
    exact ⟨u, tag, rfl, b,
      Network.leads_append.mpr ⟨m, hu, t, ht, target, d, hd, hz, htag, hnext⟩⟩
  · rintro ⟨u, t, rfl, b, h⟩
    obtain ⟨m, hu, t', ht', target, d, hd, hy, rfl, hnext⟩ := Network.leads_append.mp h
    have hword : N.Leads L initial (u ++ [(y, N.tag d)]) d :=
      Network.leads_append.mpr ⟨m, hu, t', ht', target, d, hd, hy, rfl, rfl⟩
    have hstart := numbering_initial final hN hi
    obtain ⟨k, hk⟩ := has_of_leads hN hi ⟨_, hstart⟩ hword
    obtain ⟨j, hj⟩ := has_of_leads hN hi ⟨_, hk⟩ hnext
    obtain ⟨s, hs, htag⟩ := exists_state (L := L) hk
    obtain ⟨e, he, -⟩ :=
      (matching_iff hN hi (fun _ => True) hk hs).mpr ⟨t, b, j, hnext, hj, trivial⟩
    exact ⟨k, (mem_reached_iff hN hi hk).mpr ⟨_, List.map_append, hword⟩, s, hs,
      List.ne_nil_of_mem he, htag⟩

end Network

/-- A step from one state reports its tag, if it leads on. -/
theorem tags_singleton {A : Automaton} {i : Nat} {s : State} (hs : A.states[i]? = some s)
    (x : Symbol) : (A.step [i] x).tags = if s.matching x = [] then [] else [s.tag] := by
  have hknown : A.known [i] = [s] := by
    rw [known, List.filterMap_cons, hs, List.filterMap_nil]
  simp only [step, hknown, List.filterMap_cons, List.filterMap_nil, move]
  split
  · next h =>
      split at h
      · next hnil => rw [if_pos hnil]; rfl
      · cases h
  · next h =>
      split at h
      · cases h
      · next hne =>
          cases h
          rw [if_neg hne]
          rfl

/-- **The tags of a step tell which part of the gesture has advanced.**  Each tag is reported once.
The first step reports that the start is left, if it leads anywhere.  A later step reports the
tags of the innermost groups in the unrolled pattern that contain what has matched the symbol
before it, in all partial matches that go on with the symbol of the step; the start and the end
are not reported any more. -/
theorem tags_ofExpressions (L : Dialect) (es : List Expression) (word : List Symbol)
    (x : Symbol) :
    let A := ofExpressions L es
    let step := A.step (A.reached word) x
    step.tags.Nodup ∧
    (word = [] → step.tags = if step.states = [] then [] else [.start]) ∧
    ∀ before y, word = before ++ [y] →
      (∀ tag, tag ∈ step.tags ↔ ∃ (u : List (Symbol × Tag)) (t : Tag),
        u.map Prod.fst = before ∧
          u ++ [(y, tag), (x, t)] ∈ (Expression.layout es).part (tagged L) .top) ∧
      .start ∉ step.tags ∧ .finish ∉ step.tags := by
  intro A step
  have hN := Network.wired_ofExpressions es
  have hi := Network.initial_lt_ofExpressions es
  have hlead := leading_ofExpressions L es
  refine ⟨nodup_tags A _ x, ?_, ?_⟩
  · rintro rfl
    obtain ⟨s, hs, hstart⟩ := exists_state (L := L) (numbering_initial Network.final hN hi)
    have htags : step.tags = if s.matching x = [] then [] else [.start] :=
      (hstart.trans (Network.tag_initial es)) ▸ tags_singleton hs x
    have hstates : step.states = [] ↔ step.tags = [] := step_states_eq_nil hlead
    simp only [hstates, htags]
    split <;> rfl
  · rintro before y rfl
    have htags : ∀ tag, tag ∈ step.tags ↔ ∃ (u : List (Symbol × Tag)) (t : Tag),
        u.map Prod.fst = before ∧
          u ++ [(y, tag), (x, t)] ∈ (Expression.layout es).part (tagged L) .top := by
      intro tag
      simp only [← Network.leads_ofExpressions]
      exact mem_tags_iff hN hi hlead
    have hgroup : ∀ tag ∈ step.tags, tag.OfGroup := by
      intro tag htag
      obtain ⟨u, t, -, hu⟩ := (htags tag).mp htag
      exact Layout.of_mem_part hu (y, tag) (by simp)
    exact ⟨htags, hgroup .start, hgroup .finish⟩

/-- A contact that is pressed, moves any number of times in a group of its own, and is released. -/
def drag : List Expression :=
  [.action ⟨⟨.press, 1⟩, ".*", .once⟩,
    .group none [.action ⟨⟨.move, 1⟩, ".*", .once⟩] .any,
    .action ⟨⟨.release, 1⟩, ".*", .once⟩]

example :
    let A := ofExpressions (fun _ => some fun _ => true) drag
    let pressed : Symbol := ⟨⟨.press, 1⟩, ""⟩
    let moved : Symbol := ⟨⟨.move, 1⟩, ""⟩
    (A.step (A.reached [pressed]) moved).tags = [.top] ∧
      (A.step (A.reached [pressed, moved]) moved).tags = [.numbered 0] := by
  decide +kernel

end Multitouch.Automaton
