import Multitouch.Network.Unroll

/-!
# What unrolling keeps

Unrolling builds a network by four operations: nodes are added, linked and connected, and groups
are opened.  A property of networks that each of these keeps is kept by unrolling (`Kept.lay`), by
induction on the expression.
-/

namespace Multitouch.Network

theorem repeat_succ {α : Type} (f : α → α) (n : Nat) (a : α) :
    Nat.repeat f (n + 1) a = Nat.repeat f n (f a) := by
  induction n with
  | zero => rfl
  | succ n ih => exact congrArg f ih

/-- The operations that build a network keep `P`. -/
structure Kept (P : Network → Prop) : Prop where
  add : ∀ N tag, P N → P (N.add tag)
  link : ∀ N a b, P N → P (N.link a b)
  connect : ∀ N a key target b, P N → P (N.connect a key target b)
  openGroup : ∀ N name, P N → P (N.openGroup name).2

namespace Kept

variable {P : Network → Prop}

theorem advance (h : Kept P) {a : Action} {tag : Tag} {d : Draft} (hd : P d.network) :
    P (d.advance a tag).network :=
  h.connect _ _ _ _ _ (h.add _ _ hd)

theorem branch (h : Kept P) {tag : Tag} {d : Draft} (hd : P d.network) : P (d.branch tag).network :=
  h.link _ _ _ (h.add _ _ hd)

theorem leave (h : Kept P) {exit : Nat} {d : Draft} (hd : P d.network) : P (d.leave exit).network :=
  h.link _ _ _ hd

theorem repeated {f : Draft → Draft} (hf : ∀ d : Draft, P d.network → P (f d).network) {d : Draft}
    (hd : P d.network) (n : Nat) : P (Nat.repeat f n d).network := by
  induction n with
  | zero => exact hd
  | succ n ih => exact hf _ ih

theorem layAction (h : Kept P) {entry exit : Nat} {a : Action} {N : Network} (hN : P N) :
    P (layAction entry exit a N) := by
  have hadvance : ∀ d : Draft, P d.network → P (d.advance a (N.tag exit)).network :=
    fun _ => h.advance
  have hrequired := repeated hadvance (d := ⟨entry, N⟩) hN a.repetition.min
  unfold Network.layAction
  split
  · refine h.connect _ _ _ _ _ (h.leave ?_)
    split
    · exact h.branch hrequired
    · exact hrequired
  · exact repeated (fun d hd => h.leave (hadvance d hd)) (h.leave hrequired) _

theorem layPasses (h : Kept P) {exit : Nat} {r : Repetition} {pass : Draft → Draft}
    (hp : ∀ d : Draft, P d.network → P (pass d).network) {d : Draft} (hd : P d.network) :
    P (layPasses exit r pass d) := by
  have hrequired : P ((Nat.repeat pass r.min d).leave exit).network :=
    h.leave (repeated hp hd r.min)
  unfold Network.layPasses
  split
  · exact h.leave (h.leave (hp _ hrequired))
  · exact repeated (fun d hd => h.leave (hp d hd)) hrequired _

mutual

/-- **What the operations keep, unrolling keeps.** -/
theorem lay (h : Kept P) :
    ∀ (e : Expression) {entry exit : Nat} {N : Network}, P N → P (lay entry exit e N)
  | .action _, _, _, _, hN => h.layAction hN
  | .group name body _, _, _, N, hN =>
      h.layPasses (fun _ hd => h.layBody (N.openGroup name).1 body hd)
        (h.branch (h.openGroup N name hN))
  | .options alternatives, _, _, _, hN => h.layOptions alternatives hN

theorem layBody (h : Kept P) (tag : Tag) :
    ∀ (es : List Expression) {d : Draft}, P d.network → P (layBody tag es d).network
  | [], _, hd => hd
  | e :: es, _, hd => h.layBody tag es (h.lay e (h.add _ _ hd))

theorem layOptions (h : Kept P) :
    ∀ (es : List Expression) {entry exit : Nat} {N : Network},
      P N → P (layOptions entry exit es N)
  | [], _, _, _, hN => hN
  | e :: es, _, _, _, hN => h.layOptions es (h.lay e hN)

end

theorem ofExpressions (h : Kept P) (hstart : P {}) (es : List Expression) : P (.ofExpressions es) :=
  h.lay _ (h.add _ _ (h.add _ _ hstart))

end Kept

end Multitouch.Network
