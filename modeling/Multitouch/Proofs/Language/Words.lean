import Mathlib.Computability.Language
import Mathlib.Order.CompletePartialOrder
import Multitouch.Automaton.Basic
import Multitouch.Expression

/-!
# The words of an expression

What a pattern means, said without networks or automata: an expression stands for a set of words
of symbols.  An action stands for words of symbols that fit it, a group for passes over its body,
and the number of symbols or passes is any that the repetition allows.  Options stand for the
words of their alternatives, and a list of expressions for the words of its members one after the
other.

The dialect decides which symbols fit; a target that has no sense in it fits nothing.
-/

open scoped Computability

namespace Multitouch

/-- A symbol has the given key, and its target is one that the text `target` matches. -/
def Symbol.Fits (x : Symbol) (L : Dialect) (key : Key) (target : String) : Prop :=
  x.key = key ∧ ∃ p, L target = some p ∧ p x.target = true

namespace Repetition

/-- Something may occur `n` times.  If the least number is greater than the greatest, the least
counts. -/
def Allows (r : Repetition) (n : Nat) : Prop :=
  match r.max with
  | none => r.min ≤ n
  | some most => if most < r.min then n = r.min else r.min ≤ n ∧ n ≤ most

/-- As many words of `V`, one after the other, as the repetition allows. -/
def words (r : Repetition) (V : Language Symbol) : Language Symbol :=
  {w | ∃ n, r.Allows n ∧ w ∈ V ^ n}

end Repetition

namespace Expression

variable (L : Dialect)

/-- The words of one symbol that fits. -/
def symbols (key : Key) (target : String) : Language Symbol :=
  {w | ∃ x : Symbol, w = [x] ∧ x.Fits L key target}

mutual

/-- The words that an expression stands for. -/
def words : Expression → Language Symbol
  | action a => a.repetition.words (symbols L a.key a.target)
  | group _ body r => r.words (sequence body)
  | options alternatives => choice alternatives

/-- The words of expressions one after the other. -/
def sequence : List Expression → Language Symbol
  | [] => 1
  | e :: es => e.words * sequence es

/-- The words of any one of some alternatives. -/
def choice : List Expression → Language Symbol
  | [] => 0
  | e :: es => e.words + choice es

end

end Expression

/-! ### Counting copies -/

/-- At most `k` words of `V`, one after the other. -/
def upTo (V : Language Symbol) : Nat → Language Symbol
  | 0 => 1
  | k + 1 => 1 + V * upTo V k

theorem mem_upTo {V : Language Symbol} {k : Nat} {w : List Symbol} :
    w ∈ upTo V k ↔ ∃ n ≤ k, w ∈ V ^ n := by
  induction k generalizing w with
  | zero => simp [upTo]
  | succ k ih =>
      rw [upTo, Language.mem_add, Language.mem_mul]
      constructor
      · rintro (h | ⟨u, hu, v, hv, rfl⟩)
        · exact ⟨0, Nat.zero_le _, by rwa [pow_zero]⟩
        · obtain ⟨n, hn, hv⟩ := ih.mp hv
          refine ⟨n + 1, Nat.succ_le_succ hn, ?_⟩
          rw [pow_succ']
          exact Language.append_mem_mul hu hv
      · rintro ⟨n, hn, h⟩
        cases n with
        | zero => exact .inl (by rwa [pow_zero] at h)
        | succ n =>
            rw [pow_succ', Language.mem_mul] at h
            obtain ⟨u, hu, v, hv, rfl⟩ := h
            exact .inr ⟨u, hu, v, ih.mpr ⟨n, Nat.le_of_succ_le_succ hn, hv⟩, rfl⟩

namespace Repetition

variable {r : Repetition} {V : Language Symbol}

/-- The required copies, then any number of further ones. -/
theorem words_of_unbounded (h : r.max = none) : r.words V = V ^ r.min * V∗ := by
  ext w
  rw [Language.kstar_eq_iSup_pow, Language.mul_iSup, Language.mem_iSup]
  constructor
  · rintro ⟨n, hn, hw⟩
    simp only [Allows, h] at hn
    exact ⟨n - r.min, by rwa [← pow_add, Nat.add_sub_cancel' hn]⟩
  · rintro ⟨k, hw⟩
    exact ⟨r.min + k, by simp [Allows, h], by rwa [pow_add]⟩

theorem allows_of_bounded {most n : Nat} (h : r.max = some most) :
    r.Allows n ↔ ∃ k ≤ most - r.min, n = r.min + k := by
  simp only [Allows, h]
  split
  · exact ⟨fun e => ⟨0, Nat.zero_le _, e⟩, fun ⟨k, hk, e⟩ => by omega⟩
  · exact ⟨fun hn => ⟨n - r.min, by omega, by omega⟩, fun ⟨k, hk, e⟩ => by omega⟩

/-- The required copies, then as many more as are allowed. -/
theorem words_of_bounded {most : Nat} (h : r.max = some most) :
    r.words V = V ^ r.min * upTo V (most - r.min) := by
  ext w
  rw [Language.mem_mul]
  constructor
  · rintro ⟨n, hn, hw⟩
    obtain ⟨k, hk, rfl⟩ := (allows_of_bounded h).mp hn
    rw [pow_add, Language.mem_mul] at hw
    obtain ⟨u, hu, v, hv, rfl⟩ := hw
    exact ⟨u, hu, v, mem_upTo.mpr ⟨k, hk, hv⟩, rfl⟩
  · rintro ⟨u, hu, v, hv, rfl⟩
    obtain ⟨k, hk, hv⟩ := mem_upTo.mp hv
    refine ⟨r.min + k, (allows_of_bounded h).mpr ⟨k, hk, rfl⟩, ?_⟩
    rw [pow_add]
    exact Language.append_mem_mul hu hv

end Repetition

end Multitouch
