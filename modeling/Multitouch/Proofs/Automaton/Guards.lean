import Mathlib.Data.String.Basic
import Multitouch.Proofs.Automaton.Exits
import Multitouch.Proofs.Network.Texts
import Multitouch.Proofs.Text.Utf8

/-!
# The guards of an automaton

Each text that occurs on the edges of an automaton has one guard, the guards are in the order in
which the texts are first met along the states (`guards_ofNetwork`), and every edge has one of them
(`target_mem_guards`).

In the network of a passable pattern every node is reached, and so every transition belongs to the
closure of a node that is kept (`mem_sourcesMet_iff`).  So the texts that have guards are the ones
that the pattern uses, and those among them that have no sense in the dialect are rejected
(`rejected_ofExpressions`).
-/

namespace Multitouch

/-- The texts on a state's edges. -/
def State.sources (s : State) : List String :=
  s.edges.map (·.target.source)

namespace Automaton

/-- The texts on the edges of an automaton, in the order of its states. -/
def sourcesMet (A : Automaton) : List String :=
  A.states.toList.flatMap State.sources

variable {L : Dialect} {N : Network} {initial final : Nat}

theorem sources_eq (c : Closure) (order : List Nat) : sources c.cells order =
    (order.flatMap fun n => (c.cell n).table.edges.map (·.target)).eraseDups := by
  refine congrArg List.eraseDups (List.flatMap_congr fun n _ => ?_)
  rw [Closure.cell]
  cases c.cells[n]? <;> rfl

theorem sources_renumbered {v : Numbering} {tag : Tag} {cell : Cell} :
    (renumbered L v tag cell).sources = cell.table.edges.map (·.target) := by
  rw [State.sources, edges_renumbered, List.map_map]
  rfl

/-- **There is one guard for each text on an edge**, in the order in which they are met. -/
theorem guards_ofNetwork : (ofNetwork L N initial final).guards =
    ((ofNetwork L N initial final).sourcesMet.eraseDups).map (.ofSource L) := by
  let c := Closure.run N initial final
  have hmet : (ofNetwork L N initial final).sourcesMet =
      (Numbering.run c.cells initial).order.toList.flatMap fun n =>
        (c.cell n).table.edges.map (·.target) := by
    simp only [sourcesMet, ofNetwork, Array.toList_map, List.flatMap_map]
    refine List.flatMap_congr fun n _ => ?_
    rw [stateOf_guards, sources_renumbered]
  rw [hmet, ← sources_eq]
  rfl

/-! ### Which texts are met -/

theorem mem_sourcesMet {A : Automaton} {text : String} : text ∈ A.sourcesMet ↔
    ∃ (k : Nat) (s : State), A.states[k]? = some s ∧ ∃ e ∈ s.edges, e.target.source = text := by
  simp only [sourcesMet, State.sources, List.mem_flatMap, Array.mem_toList_iff,
    Array.mem_iff_getElem?, List.mem_map]
  exact ⟨fun ⟨s, ⟨k, hk⟩, he⟩ => ⟨k, s, hk, he⟩, fun ⟨k, s, hk, he⟩ => ⟨s, ⟨k, hk⟩, he⟩⟩

/-- **The guard of every edge is one of the guards of the automaton**, the one for its text. -/
theorem target_mem_guards {k : Nat} {s : State} {e : Edge Guard}
    (hs : (ofNetwork L N initial final).states[k]? = some s) (he : e ∈ s.edges) :
    e.target ∈ (ofNetwork L N initial final).guards := by
  have hmet : e.target.source ∈ (ofNetwork L N initial final).sourcesMet :=
    mem_sourcesMet.mpr ⟨k, s, hs, e, he, rfl⟩
  rw [ofNetwork_state] at hs
  obtain ⟨n, -, rfl⟩ := Option.map_eq_some_iff.mp hs
  rw [edges_renumbered] at he
  obtain ⟨f, -, rfl⟩ := List.mem_map.mp he
  rw [guards_ofNetwork]
  exact List.mem_map.mpr ⟨f.target, List.mem_eraseDups.mpr hmet, rfl⟩

section Network

variable (hN : N.Wired) (hi : initial < N.size)
include hN hi

variable (final) in
/-- A node that is reached is reached by links from one that is kept. -/
theorem exists_has_reaches {m : Nat} (h : N.Comes initial m) :
    ∃ n, (numbering N initial final).Has n ∧ N.Reaches n m := by
  induction h with
  | refl => exact ⟨initial, ⟨_, numbering_initial final hN hi⟩, .refl⟩
  | @tail m m' _ harc ih =>
      obtain ⟨n, hn, hnm⟩ := ih
      obtain ⟨l, hl⟩ := harc
      cases l with
      | none => exact ⟨n, hn, hnm.tail hl⟩
      | some l =>
          have hd := (Closure.offers_run hN initial final ((numbering_inverse final hN hi).lt hn)
            (o := some (l.1, l.2, m'))).mpr ⟨m, hnm, hl⟩
          exact ⟨m', numbering_closed hN hi hn hd, .refl⟩

/-- **If every node is reached, the texts that are met are those of all transitions.** -/
theorem mem_sourcesMet_iff (hlead : (ofNetwork L N initial final).Leading)
    (hreach : ∀ n < N.size, N.Comes initial n) {text : String} :
    text ∈ (ofNetwork L N initial final).sourcesMet ↔ N.Names text := by
  have hoffers := fun {n : Nat} (hn : (numbering N initial final).Has n) key d =>
    Closure.offers_run hN initial final ((numbering_inverse final hN hi).lt hn)
      (o := some (key, text, d))
  rw [mem_sourcesMet]
  constructor
  · rintro ⟨k, s, hs, e, he, htext⟩
    obtain ⟨n, hn, -⟩ := exists_node hs
    have hne := hlead k s hs e he
    obtain rfl := Option.some.inj (hs.symm.trans (state_of_node hn))
    rw [edges_renumbered] at he
    obtain ⟨f, hf, rfl⟩ := List.mem_map.mp he
    obtain ⟨d, hd⟩ := List.exists_mem_of_ne_nil f.dests fun h => hne (congrArg (List.map _) h)
    obtain ⟨t, -, harc⟩ := (hoffers ⟨k, hn⟩ f.key d).mp
      (Table.mem_dests.mpr ⟨f, hf, rfl, htext, hd⟩)
    exact ⟨t, f.key, d, harc⟩
  · rintro ⟨a, key, b, harc⟩
    obtain ⟨n, hn, hna⟩ := exists_has_reaches final hN hi (hreach a harc.source_lt)
    obtain ⟨f, hf, -, htext, -⟩ := Table.mem_dests.mp ((hoffers hn key b).mpr ⟨a, hna, harc⟩)
    obtain ⟨k, hk⟩ := hn
    exact ⟨k, _, state_of_node hk, _, edges_renumbered ▸ List.mem_map.mpr ⟨f, hf, rfl⟩, htext⟩

end Network

/-! ### Texts without sense -/

/-- What is rejected are the texts of guards that have no sense, in the order of their bytes. -/
theorem rejected_of_guards {A : Automaton} {texts : List String}
    (hguards : A.guards = texts.map (.ofSource L)) (hnodup : texts.Nodup) :
    A.rejected.Pairwise Utf8.Before ∧ ∀ t, t ∈ A.rejected ↔ L t = none ∧ t ∈ texts := by
  let invalid := texts.filter fun t => (L t).isNone
  have hinvalid : (A.guards.filter (!·.valid)).map (·.source) = invalid := by
    rw [hguards, List.filter_map, List.map_map]
    refine (List.map_id _).trans (List.filter_congr fun t _ => ?_)
    show (!(L t).isSome) = (L t).isNone
    cases L t <;> rfl
  have htrans : ∀ r s t : String, decide (r ≤ s) = true → decide (s ≤ t) = true →
      decide (r ≤ t) = true := by
    simpa using fun _ _ _ => String.le_trans
  have htotal : ∀ s t : String, (decide (s ≤ t) || decide (t ≤ s)) = true := by
    simpa using String.le_total
  rw [rejected, hinvalid]
  constructor
  · have hsorted := List.pairwise_mergeSort htrans htotal invalid
    have hdistinct : (invalid.mergeSort fun s t => decide (s ≤ t)).Nodup :=
      (List.mergeSort_perm invalid _).nodup_iff.mpr (hnodup.filter _)
    refine (hsorted.and hdistinct).imp fun {s t} ⟨hle, hne⟩ => Utf8.before_iff.mpr ?_
    exact lt_of_le_of_ne (of_decide_eq_true hle) hne
  · intro t
    simp [invalid, and_comm]

/-- **The texts that are rejected are the ones in use that have no sense.**  They are in the order
of their bytes, and are in use if they are the target of an action that is left over when the
pattern is unrolled.  Each text in use is given sense once, in the order in which the texts are
first met along the states, and every edge has the guard that was made then. -/
theorem rejected_ofExpressions (L : Dialect) {es : List Expression}
    (h : Expression.AllPassable es) :
    let A := ofExpressions L es
    A.rejected.Pairwise Utf8.Before ∧
    (∀ text, text ∈ A.rejected ↔ L text = none ∧ Expression.AnyUses text es) ∧
    A.guards = (A.sourcesMet.eraseDups).map (.ofSource L) ∧
    (A.guards.map (·.source)).Nodup ∧
    (∀ text, text ∈ A.guards.map (·.source) ↔ Expression.AnyUses text es) ∧
    (∀ (k : Nat) (s : State), A.states[k]? = some s → ∀ e ∈ s.edges, e.target ∈ A.guards) := by
  intro A
  have hmet : ∀ text, text ∈ A.sourcesMet.eraseDups ↔ Expression.AnyUses text es := by
    intro text
    rw [List.mem_eraseDups, ← Network.names_ofExpressions]
    exact mem_sourcesMet_iff (Network.wired_ofExpressions es) (Network.initial_lt_ofExpressions es)
      (leading_ofExpressions L es) fun n hn => Network.initial_comes h hn
  have hguards : A.guards = (A.sourcesMet.eraseDups).map (.ofSource L) := guards_ofNetwork
  have hsources : A.guards.map (·.source) = A.sourcesMet.eraseDups := by
    rw [hguards, List.map_map]
    exact List.map_id _
  obtain ⟨hsorted, hmem⟩ := rejected_of_guards hguards (nodup_eraseDups _)
  refine ⟨hsorted, fun text => ?_, hguards, ?_, fun text => ?_,
    fun k s hs e he => target_mem_guards hs he⟩
  · rw [hmem, hmet]
  · rw [hsources]
    exact nodup_eraseDups _
  · rw [hsources, hmet]

/-- A contact that is pressed and released, and between this moves zero times. -/
def unmoved : List Expression :=
  [.action ⟨⟨.press, 1⟩, "(", .once⟩,
    .group none [.action ⟨⟨.move, 1⟩, "[", .once⟩] (.exactly 0),
    .action ⟨⟨.release, 1⟩, ".*", .once⟩]

theorem rejected_ofExpressions_unmoved :
    let L : Dialect := fun text => if text = ".*" then some fun _ => true else none
    let A := ofExpressions L unmoved
    Expression.AllPassable unmoved ∧ "(" ∈ A.rejected ∧ "[" ∉ A.rejected ∧ ".*" ∉ A.rejected := by
  intro L A
  have hpassable : Expression.AllPassable unmoved := by
    simp [unmoved, Expression.AllPassable, Expression.Passable]
  have hrejected := (rejected_ofExpressions L hpassable).2.1
  refine ⟨hpassable, (hrejected _).mpr ?_, fun h => ?_, fun h => ?_⟩
  · simp [L, unmoved, Expression.AnyUses, Expression.Uses, Repetition.Void, Repetition.once]
  · have huses := ((hrejected _).mp h).2
    simp [unmoved, Expression.AnyUses, Expression.Uses, Repetition.Void, Repetition.exactly]
      at huses
  · have hsense := ((hrejected _).mp h).1
    simp [L] at hsense

end Automaton

end Multitouch
