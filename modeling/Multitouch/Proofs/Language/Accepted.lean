import Multitouch.Proofs.Automaton.States
import Multitouch.Proofs.Language.Reading

/-!
# An automaton accepts the words of its pattern

The three parts of the construction, put together: what the unrolled pattern reads are its words,
the closure follows links as reading does, and the numbering only renames.  A state reads what its
node reads (`reads_ofNetwork`), by induction on the word.
-/

namespace Multitouch.Automaton

variable {L : Dialect}

/-- **A state reads what its node reads.** -/
theorem reads_ofNetwork {N : Network} {initial final : Nat} (hN : N.Wired)
    (hi : initial < N.size) {word : List Symbol} :
    ∀ {k n : Nat}, (numbering N initial final).order[k]? = some n →
      ((ofNetwork L N initial final).Reads k word ↔ N.Reads L final n word) := by
  have hv := numbering_inverse final hN hi
  induction word with
  | nil =>
      intro k n hk
      obtain ⟨s, hs, -⟩ := exists_state (L := L) hk
      rw [Network.reads_nil, ← final_iff hN hi hk hs]
      constructor
      · rintro ⟨s', hs', hf⟩
        obtain rfl : s = s' := Option.some.inj (hs.symm.trans hs')
        exact hf
      · exact fun hf => ⟨s, hs, hf⟩
  | cons x word ih =>
      intro k n hk
      obtain ⟨s, hs, -⟩ := exists_state (L := L) hk
      have hmatch := mem_matching hN hi (x := x)
        (fun j => (ofNetwork L N initial final).Reads j word) hk hs
      have hdests := fun target d => Closure.offers_run hN initial final (hv.lt ⟨k, hk⟩)
        (o := some (x.key, target, d))
      rw [Network.reads_cons]
      -- an edge of the state is a transition of some node that is reached by links
      constructor
      · rintro ⟨s', hs', h⟩
        obtain rfl : s = s' := Option.some.inj (hs.symm.trans hs')
        obtain ⟨target, d, j, hd, hx, hj, hr⟩ := hmatch.mp h
        obtain ⟨t, ht, hdt⟩ := (hdests target d).mp hd
        exact ⟨t, ht, target, d, hdt, hx, (ih hj).mp hr⟩
      · rintro ⟨t, ht, target, d, hdt, hx, hr⟩
        have hd := (hdests target d).mpr ⟨t, ht, hdt⟩
        obtain ⟨j, hj⟩ := numbering_closed hN hi ⟨k, hk⟩ hd
        exact ⟨s, hs, hmatch.mpr ⟨target, d, j, hd, hx, hj, (ih hj).mpr hr⟩⟩

/-- **The automaton of a pattern accepts exactly the words that the pattern stands for.** -/
theorem accepts_ofExpressions (L : Dialect) (es : List Expression) (word : List Symbol) :
    (ofExpressions L es).accepts word = true ↔ word ∈ Expression.sequence L es := by
  have hN := Network.wired_ofExpressions es
  have hi := Network.initial_lt_ofExpressions es
  have hstart : (ofExpressions L es).Reads Automaton.initial word ↔
      (Network.ofExpressions es).Reads L Network.final Network.initial word :=
    reads_ofNetwork hN hi (numbering_initial Network.final hN hi)
  rw [← Network.reads_ofExpressions, ← hstart, accepts, acceptsFrom_iff]
  simp [ofExpressions]

end Multitouch.Automaton
