import Multitouch.Text.Charset

/-!
# Characters as bytes

UTF-8 writes a character in one to four bytes.  A range of characters falls into pieces, each of
which is all that a run of byte ranges spells, one range for each byte.
-/

namespace Multitouch.Utf8

/-- Ranges of bytes, one for each byte of a character. -/
abbrev Run := List (Nat × Nat)

/-- The bytes of the character with the number `n`. -/
def encode (n : Nat) : List Nat :=
  if n < 0x80 then [n]
  else if n < 0x800 then [0xC0 + n / 64, 0x80 + n % 64]
  else if n < 0x10000 then [0xE0 + n / 4096, 0x80 + n / 64 % 64, 0x80 + n % 64]
  else [0xF0 + n / 262144, 0x80 + n / 4096 % 64, 0x80 + n / 64 % 64, 0x80 + n % 64]

/-- The bytes of a text. -/
def ofText (cs : List Char) : List Nat :=
  cs.flatMap fun c => encode c.toNat

/-- Cuts the range from `a` to `b` where it passes from one block into another, for blocks of each
of the sizes.  Full blocks stay together unless they pass from one larger block into another. -/
def cut : List Nat → Nat → Nat → List (Nat × Nat)
  | [], a, b => [(a, b)]
  | size :: sizes, a, b =>
    if a / size = b / size then [(a, b)]
    else
      let first := (a + size - 1) / size * size
      let last := (b + 1) / size * size
      (if a < first then [(a, first - 1)] else []) ++
        (if first < last then cut sizes first (last - 1) else []) ++
        (if last ≤ b then [(last, b)] else [])

/-- The characters that take the same number of bytes, with the sizes of the blocks in which all
bytes but the last, but the last two, or but the last three agree. -/
def lengths : List (Nat × Nat × List Nat) :=
  [(0x0, 0x7F, []), (0x80, 0x7FF, [64]), (0x800, 0xD7FF, [64, 4096]),
    (0xE000, 0xFFFF, [64, 4096]), (0x10000, 0x10FFFF, [64, 4096, 262144])]

/-- The runs that spell the characters of a range, in ascending order. -/
def runs (range : Nat × Nat) : List Run :=
  lengths.flatMap fun (first, last, sizes) =>
    let a := max range.1 first
    let b := min range.2 last
    if a ≤ b then (cut sizes a b).map fun (a, b) => (encode a).zip (encode b) else []

end Multitouch.Utf8

/-- The runs of byte ranges that spell the characters of a set, in ascending order. -/
def Multitouch.Charset.runs (s : Multitouch.Charset) : List Multitouch.Utf8.Run :=
  s.ranges.flatMap Multitouch.Utf8.runs
