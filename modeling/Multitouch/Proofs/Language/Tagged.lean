import Multitouch.Proofs.Language.Reading

/-!
# Words with the tags of the nodes they enter

When a network reads a symbol, the symbol can be taken down with the tag of the node that is
entered.  What leads from a node on, taken down like this, is the least valid assignment that
allows for stopping everywhere (`valid_taken`, `taken_le`).  So from what is known of valid
assignments, an unrolled pattern reads the partial matches of its layout, each symbol with the tag
of the innermost group around the part that matches it (`leads_ofExpressions`).

Apart from the initial and the final node, nodes have the tags of groups
(`Layout.of_mem_part`).
-/

open scoped Computability

namespace Multitouch

namespace Network

variable {L : Dialect} {N : Network}

/-- A word, each symbol with the tag of the node that it enters, leads from a node to another. -/
def Leads (L : Dialect) (N : Network) : Nat → List (Symbol × Tag) → Nat → Prop
  | a, [], b => a = b
  | a, (x, tag) :: word, b => ∃ t, N.Reaches a t ∧ ∃ target d,
      d ∈ N.dests t x.key target ∧ x.Fits L x.key target ∧ tag = N.tag d ∧ N.Leads L d word b

theorem leads_append {u w : List (Symbol × Tag)} {b : Nat} :
    ∀ {a : Nat}, N.Leads L a (u ++ w) b ↔ ∃ c, N.Leads L a u c ∧ N.Leads L c w b := by
  induction u with
  | nil => exact ⟨fun h => ⟨_, rfl, h⟩, fun ⟨_, hac, h⟩ => hac ▸ h⟩
  | cons m u ih =>
      intro a
      constructor
      · rintro ⟨t, ht, target, d, hd, hx, htag, h⟩
        obtain ⟨c, hu, hw⟩ := ih.mp h
        exact ⟨c, ⟨t, ht, target, d, hd, hx, htag, hu⟩, hw⟩
      · rintro ⟨c, ⟨t, ht, target, d, hd, hx, htag, hu⟩, hw⟩
        exact ⟨t, ht, target, d, hd, hx, htag, ih.mpr ⟨c, hu, hw⟩⟩

/-- What leads from a node to anywhere. -/
def taken (L : Dialect) (N : Network) (n : Nat) : Language (Symbol × Tag) :=
  {word | ∃ b, N.Leads L n word b}

theorem valid_taken : Valid (tagged L) 1 N (N.taken L) where
  stop n w hw := by
    obtain rfl : w = [] := hw
    exact ⟨n, rfl⟩
  arc a l b hb w hw := by
    obtain ⟨u, hu, v, ⟨c, hv⟩, rfl⟩ := Language.mem_mul.mp hw
    cases l with
    | none =>
        obtain rfl : u = [] := hu
        cases v with
        | nil => exact ⟨a, rfl⟩
        | cons m v =>
            obtain ⟨t, ht, hlater⟩ := hv
            exact ⟨c, t, .head hb ht, hlater⟩
    | some l =>
        obtain ⟨x, rfl, hx⟩ := hu
        obtain ⟨key, target⟩ := l
        obtain rfl : x.key = key := hx.1
        exact ⟨c, a, .refl, target, b, hb, hx, rfl, hv⟩

theorem Valid.le_of_reaches {α : Type} {ρ : Letters α} {F : Language α} {X : Nat → Language α}
    (hX : Valid ρ F N X) {a b : Nat} (h : N.Reaches a b) : X b ≤ X a := by
  induction h using Relation.ReflTransGen.head_induction_on with
  | refl => exact le_rfl
  | @head a c hl _ ih =>
      have harc := hX.arc a none c hl
      rw [reads, one_mul] at harc
      exact ih.trans harc

theorem taken_le {X : Nat → Language (Symbol × Tag)} (hX : Valid (tagged L) 1 N X) (n : Nat) :
    N.taken L n ≤ X n := by
  rintro w ⟨b, hw⟩
  induction w generalizing n with
  | nil => exact hX.stop n rfl
  | cons m w ih =>
      obtain ⟨x, tag⟩ := m
      obtain ⟨t, ht, target, d, hd, hx, rfl, hw⟩ := hw
      have hx₁ : [(x, N.tag d)] ∈ tagged L x.key target (N.tag d) := ⟨x, rfl, hx⟩
      exact hX.le_of_reaches ht
        (hX.arc t (some (x.key, target)) d hd (Language.append_mem_mul hx₁ (ih d hw)))

/-- **An unrolled pattern reads the partial matches of its layout.** -/
theorem leads_ofExpressions (es : List Expression) {word : List (Symbol × Tag)} :
    (∃ b, (ofExpressions es).Leads L initial word b) ↔
      word ∈ (Expression.layout es).part (tagged L) .top := by
  have h := joins_ofExpressions (tagged L) 1 es
  let found := (Expression.layout es).part (tagged L) .top
  constructor
  · intro hw
    let Y (n : Nat) : Language (Symbol × Tag) := if n = initial then found else 1
    have hstop : ∀ n, 1 ≤ Y n := fun n => by
      unfold Y
      split
      · exact Layout.one_le_part _ _
      · exact le_rfl
    have hahead : (Expression.layout es).ahead (tagged L) 1 .top (Y final) ≤ Y initial := by
      show (Expression.layout es).full (tagged L) .top * 1 + found * 1 ≤ found
      rw [mul_one, mul_one]
      exact add_le (Layout.full_le_part _ _) le_rfl
    obtain ⟨Y', hY', hs⟩ := h.sound Y (valid_ends hstop) hahead
    have hinitial : Y' initial = found := hs 0 (by decide)
    exact hinitial.le (taken_le hY' initial hw)
  · intro hw
    refine h.complete _ valid_taken (Or.inr ?_)
    rwa [mul_one]

end Network

/-! ### The tags of groups -/

/-- The tag is that of a group. -/
def Tag.OfGroup : Tag → Prop
  | start => False
  | finish => False
  | named _ => True
  | numbered _ => True

namespace Layout

/-- The groups in the layout have tags of groups. -/
def Grouped : Layout → Prop
  | act _ _ => True
  | skip => True
  | never => True
  | row l m => l.Grouped ∧ m.Grouped
  | either l m => l.Grouped ∧ m.Grouped
  | loop l => l.Grouped
  | copy tag l => tag.OfGroup ∧ l.Grouped

end Layout

namespace Plan

variable {p q : Plan}

theorem grouped_row (hp : ∀ n, (p n).1.Grouped) (hq : ∀ n, (q n).1.Grouped) (n : Nat) :
    (p.row q n).1.Grouped :=
  ⟨hp n, hq _⟩

theorem grouped_copies (hp : ∀ n, (p n).1.Grouped) (k : Nat) :
    ∀ n, (p.copies k n).1.Grouped := by
  induction k with
  | zero => exact fun _ => trivial
  | succ k ih => exact grouped_row ih hp

theorem grouped_upTo (hp : ∀ n, (p n).1.Grouped) (k : Nat) :
    ∀ n, (p.upTo k n).1.Grouped := by
  induction k with
  | zero => exact fun _ => trivial
  | succ k ih => exact fun n => ⟨trivial, grouped_row hp ih n⟩

theorem grouped_repeated (hp : ∀ n, (p n).1.Grouped) (r : Repetition) :
    ∀ n, (p.repeated r n).1.Grouped := by
  unfold repeated
  cases r.max with
  | none => exact grouped_row (grouped_copies hp _) hp
  | some most => exact grouped_row (grouped_copies hp _) (grouped_upTo hp _)

theorem grouped_copy (hp : ∀ n, (p n).1.Grouped) (name : Option String) (n : Nat) :
    (p.copy name n).1.Grouped := by
  cases name <;> exact ⟨trivial, hp _⟩

end Plan

namespace Expression

mutual

theorem grouped_plan : ∀ (e : Expression) (n : Nat), (e.plan n).1.Grouped
  | .action a, n => by
      rw [plan]
      exact Plan.grouped_repeated (p := .of (.act a.key a.target)) (fun _ => trivial) _ n
  | .group name body r, n => by
      rw [plan]
      exact Plan.grouped_copy (Plan.grouped_repeated (grouped_rowPlan body) r) name n
  | .options alternatives, n => by
      rw [plan]
      exact grouped_choicePlan alternatives n

theorem grouped_rowPlan : ∀ (es : List Expression) (n : Nat), (rowPlan es n).1.Grouped
  | [], _ => trivial
  | e :: es, n => by
      rw [rowPlan]
      exact Plan.grouped_row (grouped_plan e) (grouped_rowPlan es) n

theorem grouped_choicePlan : ∀ (es : List Expression) (n : Nat), (choicePlan es n).1.Grouped
  | [], _ => trivial
  | e :: es, n => by
      rw [choicePlan]
      exact ⟨grouped_plan e n, grouped_choicePlan es _⟩

end

end Expression

namespace Layout

/-- The symbols with the tags of groups. -/
def grouped : Language (Symbol × Tag) :=
  {w | ∃ x tag, w = [(x, tag)] ∧ Tag.OfGroup tag}

theorem mem_grouped {x : Symbol} {tag : Tag} {w : List (Symbol × Tag)} (hw : w = [(x, tag)])
    (ht : tag.OfGroup) : w ∈ grouped∗ :=
  (le_kstar : grouped ≤ grouped∗) ⟨x, tag, hw, ht⟩

theorem full_le_grouped {L : Dialect} : ∀ {l : Layout} {tag : Tag}, l.Grouped → tag.OfGroup →
    l.full (tagged L) tag ≤ grouped∗
  | act _ _, _, _, ht => fun _ ⟨_, hw, _⟩ => mem_grouped hw ht
  | skip, _, _, _ => one_le_kstar
  | never, _, _, _ => zero_le
  | row _ _, _, h, ht =>
      (mul_le_mul' (full_le_grouped h.1 ht) (full_le_grouped h.2 ht)).trans (kstar_mul_kstar _).le
  | either _ _, _, h, ht => add_le (full_le_grouped h.1 ht) (full_le_grouped h.2 ht)
  | loop l, _, h, ht => (kstar_mono (full_le_grouped (l := l) h ht)).trans (kstar_idem _).le
  | copy _ l, _, h, _ => full_le_grouped (l := l) h.2 h.1

theorem part_le_grouped {L : Dialect} : ∀ {l : Layout} {tag : Tag}, l.Grouped → tag.OfGroup →
    l.part (tagged L) tag ≤ grouped∗
  | act key target, _, h, ht => add_le one_le_kstar (full_le_grouped (l := act key target) h ht)
  | skip, _, _, _ => one_le_kstar
  | never, _, _, _ => one_le_kstar
  | row _ _, _, h, ht => add_le (part_le_grouped h.1 ht)
      ((mul_le_mul' (full_le_grouped h.1 ht) (part_le_grouped h.2 ht)).trans (kstar_mul_kstar _).le)
  | either _ _, _, h, ht => add_le (part_le_grouped h.1 ht) (part_le_grouped h.2 ht)
  | loop l, _, h, ht =>
      (mul_le_mul' (full_le_grouped (l := loop l) h ht) (part_le_grouped (l := l) h ht)).trans
        (kstar_mul_kstar _).le
  | copy _ l, _, h, _ => part_le_grouped (l := l) h.2 h.1

/-- **Symbols are taken down with the tags of groups.** -/
theorem of_mem_part {L : Dialect} {es : List Expression} {word : List (Symbol × Tag)}
    (h : word ∈ (Expression.layout es).part (tagged L) .top) :
    ∀ m ∈ word, Tag.OfGroup m.2 := by
  have htop : Tag.OfGroup .top := trivial
  have hgrouped := part_le_grouped (Expression.grouped_rowPlan es 0) htop h
  obtain ⟨words, rfl, hwords⟩ := Language.mem_kstar.mp hgrouped
  intro m hm
  obtain ⟨w, hw, hmw⟩ := List.mem_flatten.mp hm
  obtain ⟨x, tag, rfl, ht⟩ := hwords w hw
  obtain rfl := List.mem_singleton.mp hmw
  exact ht

end Layout

end Multitouch
