import Multitouch.Proofs.Language.Unrolling

/-!
# The words that a network reads

`Reads` follows links and transitions to the final node.  It is the least valid assignment
(`valid_reads`, `reads_le`), so that what is known of valid assignments gives the words that an
unrolled pattern reads (`reads_ofExpressions`).  For the closure, which has no links, a word is
taken apart: all links before its first symbol are followed at once (`reads_nil`, `reads_cons`).
-/

namespace Multitouch.Network

variable {L : Dialect} {N : Network} {exit : Nat}

/-- The word leads from a node to the final one. -/
inductive Reads (L : Dialect) (N : Network) (exit : Nat) : Nat → List Symbol → Prop where
  | stop : Reads L N exit exit []
  | link {a b : Nat} {word : List Symbol} :
      b ∈ N.links a → Reads L N exit b word → Reads L N exit a word
  | take {a b : Nat} {x : Symbol} {target : String} {word : List Symbol} :
      b ∈ N.dests a x.key target → x.Fits L x.key target → Reads L N exit b word →
        Reads L N exit a (x :: word)

/-- The words that are read from each node. -/
def language (L : Dialect) (N : Network) (exit : Nat) (n : Nat) : Language Symbol :=
  {word | Reads L N exit n word}

theorem valid_reads : Valid (plain L) 0 N (N.language L exit) where
  stop _ := zero_le
  arc a l b hb w hw := by
    obtain ⟨u, hu, v, hv, rfl⟩ := Language.mem_mul.mp hw
    cases l with
    | none =>
        obtain rfl : u = [] := hu
        exact .link hb hv
    | some l =>
        obtain ⟨x, rfl, hx⟩ := hu
        obtain ⟨key, target⟩ := l
        obtain rfl : x.key = key := hx.1
        exact .take hb hx hv

theorem reads_le {X : Nat → Language Symbol} (hX : Valid (plain L) 0 N X) (hf : 1 ≤ X exit)
    (n : Nat) : N.language L exit n ≤ X n := by
  intro w hw
  induction hw with
  | stop => exact hf rfl
  | @link a b w hb _ ih =>
      refine hX.arc a none b hb ?_
      rw [reads, one_mul]
      exact ih
  | @take a b x target w hb hx _ ih =>
      have hx₁ : [x] ∈ plain L x.key target (N.tag b) := ⟨x, rfl, hx⟩
      exact hX.arc a (some (x.key, target)) b hb (Language.append_mem_mul hx₁ ih)

/-! ### The words of a pattern -/

theorem not_arc_ends {a b : Nat} {l : Option (Key × String)} : ¬ ends.Arc a l b := by
  rw [ends, arc_add, arc_add]
  exact fun h => absurd h.source_lt (Nat.not_lt_zero a)

/-- Before a pattern is unrolled there are no arcs to be allowed for. -/
theorem valid_ends {α : Type} {ρ : Letters α} {F : Language α} {Y : Nat → Language α}
    (h : ∀ n, F ≤ Y n) : Valid ρ F ends Y :=
  ⟨h, fun _ _ _ harc => (not_arc_ends harc).elim⟩

/-- **An unrolled pattern reads what its layout says.** -/
theorem joins_ofExpressions {α : Type} (ρ : Letters α) (F : Language α) (es : List Expression) :
    Joins ρ F (Expression.layout es) .top initial final ends (.ofExpressions es) := by
  have hends : ends.Wired := fun _ _ _ h => (not_arc_ends h).elim
  have h : Joins ρ F _ _ _ _ _ _ := joins_lay (.group (some Tag.topName) es .once) hends
    (by decide : initial < ends.size) (by decide : final < ends.size)
  refine h.congr fun Z hZ => ?_
  -- the group occurs once, so its layout is that of its body, but for parts that do nothing
  show (Expression.layout es).ahead ρ F .top Z =
    (Layout.row (.row .skip (Expression.layout es)) .skip).ahead ρ F .top Z
  rw [Layout.ahead_row, Layout.ahead_row, Layout.ahead_skip hZ, Layout.ahead_skip Layout.le_ahead]

/-- **An unrolled pattern reads the words it stands for.** -/
theorem reads_ofExpressions (es : List Expression) {word : List Symbol} :
    (ofExpressions es).Reads L final initial word ↔ word ∈ Expression.sequence L es := by
  have h := joins_ofExpressions (plain L) 0 es
  have hahead : ∀ Z, (Expression.layout es).ahead (plain L) 0 .top Z =
      Expression.sequence L es * Z := fun Z => by
    rw [Layout.ahead, Expression.layout, Expression.full_rowPlan, mul_zero, add_zero]
  have hstop : (1 : Language Symbol) ≤ (ofExpressions es).language L final final := by
    rintro w rfl
    exact .stop
  constructor
  · intro hw
    let Y (n : Nat) : Language Symbol := if n = initial then Expression.sequence L es else 1
    obtain ⟨Y', hY', hs⟩ := h.sound Y (valid_ends fun _ => zero_le)
      ((hahead _).trans (mul_one _)).le
    have hfinal : (1 : Language Symbol) ≤ Y' final := (hs 1 (by decide)).ge
    have hinitial : Y' initial = Expression.sequence L es := hs 0 (by decide)
    exact hinitial ▸ reads_le hY' hfinal initial hw
  · intro hw
    refine h.complete _ valid_reads ?_
    rw [hahead]
    refine mul_le_mul_right hstop _ ?_
    rwa [mul_one]

theorem wired_ofExpressions (es : List Expression) : (ofExpressions es).Wired :=
  (joins_ofExpressions (plain fun _ => none) 0 es).wired

theorem initial_lt_ofExpressions (es : List Expression) : initial < (ofExpressions es).size :=
  (by decide : initial < ends.size).trans_le
    (joins_ofExpressions (plain fun _ => none) 0 es).grows.size_le

theorem tag_initial (es : List Expression) : (ofExpressions es).tag initial = .start :=
  (joins_ofExpressions (plain fun _ => none) 0 es).grows.tag (by decide : initial < ends.size)

/-! ### Following links at once -/

theorem Reads.of_reaches {a b : Nat} {word : List Symbol} (h : N.Reaches a b)
    (hb : N.Reads L exit b word) : N.Reads L exit a word := by
  induction h using Relation.ReflTransGen.head_induction_on with
  | refl => exact hb
  | head hl _ ih => exact .link hl ih

theorem reads_nil {n : Nat} : N.Reads L exit n [] ↔ N.Reaches n exit := by
  refine ⟨fun h => ?_, fun h => .of_reaches h .stop⟩
  generalize hw : ([] : List Symbol) = word at h
  induction h with
  | stop => exact .refl
  | link hb _ ih => exact .head hb (ih hw)
  | take => cases hw

theorem reads_cons {n : Nat} {x : Symbol} {word : List Symbol} :
    N.Reads L exit n (x :: word) ↔ ∃ t, N.Reaches n t ∧ ∃ target d,
      d ∈ N.dests t x.key target ∧ x.Fits L x.key target ∧ N.Reads L exit d word := by
  constructor
  · intro h
    generalize hw : x :: word = w at h
    induction h with
    | stop => cases hw
    | link hb _ ih =>
        obtain ⟨t, ht, h⟩ := ih hw
        exact ⟨t, .head hb ht, h⟩
    | @take a b y target w hb hx hr _ =>
        obtain ⟨rfl, rfl⟩ := List.cons.inj hw
        exact ⟨a, .refl, target, b, hb, hx, hr⟩
  · rintro ⟨t, ht, target, d, hd, hx, hr⟩
    exact .of_reaches ht (.take hd hx hr)

end Multitouch.Network
