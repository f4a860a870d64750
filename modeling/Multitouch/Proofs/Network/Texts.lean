import Multitouch.Proofs.Language.Reading
import Multitouch.Proofs.Networks
import Multitouch.Proofs.Unrolled

/-!
# The texts in a network

What is laid out brings a text into the network exactly if the text is the target of some action
that is left over after unrolling (`adds_lay`): of one that is not to occur zero times, neither by
itself nor because of a group around it.  The pass over the body of a group brings in the same
texts as often as it is made, so all that counts of a repetition is whether any copies are made
(`adds_repeat`).  So the texts in the network of a pattern are those that the pattern *uses*
(`names_ofExpressions`).
-/

namespace Multitouch

/-- What is repeated does not occur at all. -/
def Repetition.Void (r : Repetition) : Prop :=
  r.min = 0 ∧ r.max = some 0

theorem Repetition.not_void_of_unbounded {r : Repetition} (h : r.max = none) : ¬ r.Void :=
  fun hv => nomatch h.symm.trans hv.2

/-- Of what occurs some copies are made, required ones or further ones. -/
theorem Repetition.not_void_iff {r : Repetition} {most : Nat} (h : r.max = some most) :
    ¬ r.Void ↔ 0 < r.min ∨ 0 < most - r.min := by
  rw [Void, h, Option.some.injEq]
  omega

namespace Expression

variable (text : String)

mutual

/-- The text is the target of an action that is left over when the expression is unrolled. -/
def Uses : Expression → Prop
  | action a => ¬ a.repetition.Void ∧ a.target = text
  | group _ body r => ¬ r.Void ∧ AnyUses body
  | options alternatives => AnyUses alternatives

/-- One of the expressions uses the text. -/
def AnyUses : List Expression → Prop
  | [] => False
  | e :: es => e.Uses ∨ AnyUses es

end

end Expression

namespace Network

/-- Some transition of the network is for the text. -/
def Names (N : Network) (text : String) : Prop :=
  ∃ a key b, N.Arc a (some (key, text)) b

variable {N : Network} {text : String}

theorem names_add {tag : Tag} : (N.add tag).Names text ↔ N.Names text := by
  simp only [Names, arc_add]

theorem names_openGroup {name : Option String} :
    (N.openGroup name).2.Names text ↔ N.Names text := by
  simp only [Names, arc_openGroup]

theorem names_link {a : Nat} (ha : a < N.size) (b : Nat) :
    (N.link a b).Names text ↔ N.Names text := by
  simp [Names, arc_link ha]

theorem names_connect {a : Nat} (ha : a < N.size) (key : Key) (target : String) (b : Nat) :
    (N.connect a key target b).Names text ↔ N.Names text ∨ target = text := by
  constructor
  · rintro ⟨m, key', n, h⟩
    rcases (arc_connect ha).mp h with h | ⟨-, hl, -⟩
    · exact .inl ⟨m, key', n, h⟩
    · cases hl
      exact .inr rfl
  · rintro (⟨m, key', n, h⟩ | rfl)
    · exact ⟨m, key', n, (arc_connect ha).mpr (.inl h)⟩
    · exact ⟨a, key, b, (arc_connect ha).mpr (.inr ⟨rfl, rfl, rfl⟩)⟩

/-! ### Copies -/

/-- From one place to the next the network has grown, and the text has come into it if `P`. -/
structure Adds (text : String) (P : Prop) (d d' : Draft) : Prop where
  lt : d'.node < d'.network.size
  size_le : d.network.size ≤ d'.network.size
  names : d'.network.Names text ↔ d.network.Names text ∨ P

variable {P Q : Prop} {d d' d'' : Draft} {exit : Nat}

theorem Adds.refl (hd : d.node < d.network.size) : Adds text False d d :=
  ⟨hd, le_rfl, (iff_of_eq (or_false _)).symm⟩

theorem Adds.trans (h : Adds text P d d') (h' : Adds text Q d' d'') :
    Adds text (P ∨ Q) d d'' :=
  ⟨h'.lt, h.size_le.trans h'.size_le, by rw [h'.names, h.names, or_assoc]⟩

theorem Adds.congr (h : Adds text P d d') (hPQ : P ↔ Q) : Adds text Q d d' :=
  ⟨h.lt, h.size_le, by rw [h.names, hPQ]⟩

/-- What has come into the network does not depend on the place reached. -/
theorem Adds.go (h : Adds text P d d') {n : Nat} (hn : n < d'.network.size) :
    Adds text P d ⟨n, d'.network⟩ :=
  ⟨hn, h.size_le, h.names⟩

theorem adds_leave (hd : d.node < d.network.size) (b : Nat) :
    Adds text False d (d.leave b) where
  lt := (size_link ..).symm ▸ hd
  size_le := (size_link ..).ge
  names := (names_link hd b).trans (iff_of_eq (or_false _)).symm

theorem adds_branch (hd : d.node < d.network.size) (tag : Tag) :
    Adds text False d (d.branch tag) where
  lt := (size_link ..).symm ▸ size_lt_add _ tag
  size_le := (size_link ..).symm ▸ (size_lt_add _ tag).le
  names := (names_link (hd.trans (size_lt_add _ tag)) _).trans
    (names_add.trans (iff_of_eq (or_false _)).symm)

theorem adds_advance (hd : d.node < d.network.size) (x : Action) (tag : Tag) :
    Adds text (x.target = text) d (d.advance x tag) where
  lt := (size_connect ..).symm ▸ size_lt_add _ tag
  size_le := (size_connect ..).symm ▸ (size_lt_add _ tag).le
  names := (names_connect (hd.trans (size_lt_add _ tag)) ..).trans (or_congr names_add Iff.rfl)

section Copies

variable {pass : Draft → Draft}
  (hp : ∀ d : Draft, d.node < d.network.size → Adds text P d (pass d))
include hp

theorem adds_repeat (hd : d.node < d.network.size) (n : Nat) :
    Adds text (0 < n ∧ P) d (Nat.repeat pass n d) := by
  induction n with
  | zero => exact (Adds.refl hd).congr (by simp)
  | succ n ih =>
      refine (ih.trans (hp _ ih.lt)).congr ?_
      simp only [Nat.succ_pos, true_and, or_iff_right_iff_imp]
      exact And.right

theorem adds_pass_leave (hd : d.node < d.network.size) (b : Nat) :
    Adds text P d ((pass d).leave b) :=
  ((hp d hd).trans (adds_leave (hp d hd).lt b)).congr (iff_of_eq (or_false P))

theorem adds_layPasses (hd : d.node < d.network.size) (ho : exit < d.network.size)
    (r : Repetition) : Adds text (¬ r.Void ∧ P) d ⟨exit, layPasses exit r pass d⟩ := by
  have hrequired := adds_repeat hp hd r.min
  have hleft := hrequired.trans (adds_leave hrequired.lt exit)
  unfold layPasses
  split
  · next hmax =>
      have hloop := hleft.trans (adds_pass_leave hp hleft.lt exit)
      have hback := hloop.trans (adds_leave hloop.lt (Nat.repeat pass r.min d).node)
      refine (hback.go (ho.trans_le hback.size_le)).congr ?_
      have hvoid := Repetition.not_void_of_unbounded hmax
      tauto
  · next most hmax =>
      have hupTo := hleft.trans
        (adds_repeat (fun d hd => adds_pass_leave hp hd exit) hleft.lt (most - r.min))
      refine (hupTo.go (ho.trans_le hupTo.size_le)).congr ?_
      rw [Repetition.not_void_iff hmax]
      tauto

end Copies

theorem adds_layAction (x : Action) {entry : Nat} (hi : entry < N.size) (ho : exit < N.size) :
    Adds text (¬ x.repetition.Void ∧ x.target = text) ⟨entry, N⟩
      ⟨exit, layAction entry exit x N⟩ := by
  have hadvance : ∀ d : Draft, d.node < d.network.size →
      Adds text (x.target = text) d (d.advance x (N.tag exit)) :=
    fun _ hd => adds_advance hd x _
  have hrequired := adds_repeat hadvance (d := ⟨entry, N⟩) hi x.repetition.min
  unfold layAction
  split
  · next hmax =>
      let required := Nat.repeat (Draft.advance x (N.tag exit)) x.repetition.min ⟨entry, N⟩
      let turning := if x.repetition.min = 0 then required.branch (N.tag exit) else required
      have hturning : Adds text False required turning := by
        unfold turning
        split
        · exact adds_branch hrequired.lt _
        · exact .refl hrequired.lt
      have hleft := (hrequired.trans hturning).trans (adds_leave hturning.lt exit)
      let N' := (turning.leave exit).network
      have hloop : Adds text (x.target = text) (turning.leave exit)
          ⟨exit, N'.connect turning.node x.key x.target turning.node⟩ :=
        ⟨(size_connect ..).symm ▸ ho.trans_le hleft.size_le, (size_connect ..).ge,
          names_connect hleft.lt ..⟩
      refine (hleft.trans hloop).congr ?_
      have hvoid := Repetition.not_void_of_unbounded hmax
      tauto
  · next most hmax =>
      have hleft := hrequired.trans (adds_leave hrequired.lt exit)
      have hupTo := hleft.trans (adds_repeat (fun d hd => adds_pass_leave hadvance hd exit)
        hleft.lt (most - x.repetition.min))
      refine (hupTo.go (ho.trans_le hupTo.size_le)).congr ?_
      rw [Repetition.not_void_iff hmax]
      tauto

/-! ### Expressions -/

variable (text)

mutual

/-- **What is laid out brings in the texts that are used.** -/
theorem adds_lay : ∀ (e : Expression) {entry exit : Nat} {N : Network},
    entry < N.size → exit < N.size →
      Adds text (e.Uses text) ⟨entry, N⟩ ⟨exit, lay entry exit e N⟩
  | .action x, _, _, _, hi, ho => by
      rw [Expression.Uses]
      exact adds_layAction x hi ho
  | .group name body r, entry, exit, N, hi, ho => by
      rw [Expression.Uses]
      have hs := size_openGroup N name
      have hopened : Adds text False ⟨entry, N⟩ ⟨entry, (N.openGroup name).2⟩ :=
        ⟨hs.symm ▸ hi, hs.ge, names_openGroup.trans (iff_of_eq (or_false _)).symm⟩
      have hbranch := hopened.trans (adds_branch hopened.lt (N.openGroup name).1)
      have hpasses := adds_layPasses (fun _ hd => adds_layBody (N.openGroup name).1 body hd)
        hbranch.lt (ho.trans_le hbranch.size_le) r
      exact (hbranch.trans hpasses).congr (by simp)
  | .options alternatives, _, _, _, hi, ho => by
      rw [Expression.Uses]
      exact adds_layOptions alternatives hi ho

theorem adds_layBody (tag : Tag) : ∀ (es : List Expression) {d : Draft},
    d.node < d.network.size → Adds text (Expression.AnyUses text es) d (layBody tag es d)
  | [], _, hd => by
      rw [Expression.AnyUses]
      exact .refl hd
  | e :: es, d, hd => by
      rw [Expression.AnyUses]
      have hs := size_lt_add d.network tag
      have hadd : Adds text False d ⟨d.node, d.network.add tag⟩ :=
        ⟨hd.trans hs, hs.le, names_add.trans (iff_of_eq (or_false _)).symm⟩
      have hmember := hadd.trans (adds_lay e hadd.lt hs)
      exact (hmember.trans (adds_layBody tag es hmember.lt)).congr (by simp)

theorem adds_layOptions : ∀ (es : List Expression) {entry exit : Nat} {N : Network},
    entry < N.size → exit < N.size →
      Adds text (Expression.AnyUses text es) ⟨entry, N⟩ ⟨exit, layOptions entry exit es N⟩
  | [], _, _, _, hi, ho => by
      rw [Expression.AnyUses]
      exact (Adds.refl (d := ⟨_, _⟩) hi).go ho
  | e :: es, entry, _, _, hi, ho => by
      rw [Expression.AnyUses]
      have hfirst := adds_lay e hi ho
      have hback := hfirst.go (hi.trans_le hfirst.size_le)
      exact hback.trans (adds_layOptions es hback.lt hfirst.lt)

end

/-- **The texts in the network of a pattern are those that the pattern uses.** -/
theorem names_ofExpressions (es : List Expression) :
    (ofExpressions es).Names text ↔ Expression.AnyUses text es := by
  have hadds := adds_lay text (.group (some Tag.topName) es .once)
    (by decide : initial < ends.size) (by decide : final < ends.size)
  have hends : ¬ ends.Names text := fun ⟨_, _, _, harc⟩ => not_arc_ends harc
  have honce : ¬ Repetition.once.Void := nofun
  rw [ofExpressions, hadds.names, Expression.Uses]
  simp only [hends, honce, false_or, not_false_eq_true, true_and]

end Network

end Multitouch
