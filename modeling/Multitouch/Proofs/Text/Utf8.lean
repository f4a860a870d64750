import Mathlib.Data.List.Basic
import Multitouch.Text.Utf8

/-!
# Texts and their bytes

The bytes that `ofText` gives are those in which a string is kept (`bytes_eq`).  The encoding
keeps the order: a character that comes before another has bytes that come before the other's,
whatever follows (`encode_lt`).  So to compare texts by their characters, as `<` does, is to compare
them by their bytes (`before_iff`).
-/

namespace Multitouch.Utf8

theorem toNat_lt (c : Char) : c.toNat < 0x110000 := by
  have h := c.valid
  rw [UInt32.isValidChar, Nat.isValidChar] at h
  rw [Char.toNat]
  omega

/-- A character is encoded in the bytes that a string keeps for it. -/
theorem map_utf8EncodeChar (c : Char) :
    (String.utf8EncodeChar c).map UInt8.toNat = encode c.toNat := by
  have hlt := toNat_lt c
  have hval : c.val.toNat = c.toNat := rfl
  have hone : c.toNat ≤ 0x7f ↔ c.toNat < 0x80 := Nat.lt_succ_iff.symm
  have htwo : c.toNat ≤ 0x7ff ↔ c.toNat < 0x800 := Nat.lt_succ_iff.symm
  have hthree : c.toNat ≤ 0xffff ↔ c.toNat < 0x10000 := Nat.lt_succ_iff.symm
  unfold encode String.utf8EncodeChar
  dsimp only
  rw [hval]
  simp only [hone, htwo, hthree]
  generalize c.toNat = n at hlt
  split_ifs
  all_goals
    simp only [List.map_cons, List.map_nil, UInt8.toNat_ofNat', List.cons.injEq, and_true]
    omega

/-- The bytes in which a string is kept. -/
def bytes (s : String) : List Nat :=
  s.toByteArray.data.toList.map UInt8.toNat

/-- **The bytes in which a string is kept are those of its text.** -/
theorem bytes_eq (s : String) : bytes s = ofText s.toList := by
  rw [bytes, ← String.utf8Encode_toList, List.utf8Encode, List.data_toByteArray, List.map_flatMap,
    ofText]
  exact List.flatMap_congr fun c _ => map_utf8EncodeChar c

theorem length_bytes (s : String) : (bytes s).length = s.utf8ByteSize := by
  rw [bytes, List.length_map, Array.length_toList]
  rfl

theorem ofText_cons (c : Char) (cs : List Char) :
    ofText (c :: cs) = encode c.toNat ++ ofText cs :=
  rfl

theorem ofText_append (cs ds : List Char) : ofText (cs ++ ds) = ofText cs ++ ofText ds :=
  List.flatMap_append

theorem utf8ByteSize_ofList (cs : List Char) :
    (String.ofList cs).utf8ByteSize = (ofText cs).length := by
  rw [← length_bytes, bytes_eq, String.toList_ofList]

theorem length_encode (c : Char) : (encode c.toNat).length = c.utf8Size := by
  rw [← map_utf8EncodeChar, List.length_map, String.length_utf8EncodeChar]

/-! ### Order -/

/-- What comes first in order has bytes that come first, whatever follows. -/
theorem encode_lt {m n : Nat} (h : m < n) (u v : List Nat) : encode m ++ u < encode n ++ v := by
  unfold encode
  split_ifs
  all_goals
    simp only [List.cons_append, List.nil_append, List.cons_lt_cons_iff]
    omega

theorem ofText_lt : ∀ cs ds : List Char, ofText cs < ofText ds ↔ cs < ds
  | cs, [] => iff_of_false (List.not_lt_nil _) (List.not_lt_nil _)
  | [], d :: ds => by
      have hne : ofText (d :: ds) ≠ [] := fun h => by
        have hlen := congrArg List.length h
        rw [ofText_cons, List.length_append, length_encode, List.length_nil] at hlen
        have := d.utf8Size_pos
        omega
      obtain ⟨b, rest, hb⟩ := List.exists_cons_of_ne_nil hne
      rw [hb]
      exact iff_of_true (List.nil_lt_cons _ _) (List.nil_lt_cons _ _)
  | c :: cs, d :: ds => by
      rw [ofText_cons, ofText_cons, List.cons_lt_cons_iff]
      rcases Nat.lt_trichotomy c.toNat d.toNat with h | h | h
      · exact iff_of_true (encode_lt h _ _) (.inl h)
      · obtain rfl : c = d := Char.toNat_inj.mp h
        have hself : ¬ c < c := Nat.lt_irrefl _
        have hfirst : ∀ u v : List Nat, encode c.toNat ++ u < encode c.toNat ++ v ↔ u < v := by
          intro u v
          induction encode c.toNat with
          | nil => exact Iff.rfl
          | cons b bs ih => simpa [List.cons_lt_cons_iff] using ih
        rw [hfirst, ofText_lt cs ds]
        exact ⟨fun hlt => .inr ⟨rfl, hlt⟩, fun hlt => (hlt.resolve_left hself).2⟩
      · have hcd : ¬ c < d := Nat.lt_asymm h
        have hne : c ≠ d := fun e => Nat.lt_irrefl _ (e ▸ h : c.toNat < c.toNat)
        exact iff_of_false (List.lt_asymm (encode_lt h _ _)) (by simp [hcd, hne])

/-- By its bytes a text comes before another. -/
def Before (s t : String) : Prop :=
  bytes s < bytes t

/-- **Texts are ordered as their bytes are.** -/
theorem before_iff {s t : String} : Before s t ↔ s < t := by
  rw [Before, bytes_eq, bytes_eq]
  exact ofText_lt s.toList t.toList

end Multitouch.Utf8
