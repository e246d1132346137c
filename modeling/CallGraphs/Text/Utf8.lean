import CallGraphs.Text.Ranges

/-!
# Classes of characters as ranges of bytes

In UTF-8 a character is a leading byte and up to three continuation bytes of
six bits.  A range of characters is a list of sequences of byte ranges: a text
of bytes is in the range when it is in one of the sequences, byte by byte.
-/

namespace CallGraphs

namespace Utf8

/-- Ranges of bytes, one for each byte of a character. -/
abbrev ByteRanges := List (Nat × Nat)

/-- Characters of one length: the first and the last, the mark of their leading byte and the
number of continuation bytes.  The code points kept for surrogate pairs are no characters. -/
structure Length where
  first : Nat
  last : Nat
  mark : Nat
  continuations : Nat
deriving DecidableEq, Repr

/-- The lengths that characters have. -/
def lengths : List Length :=
  [⟨0x00, 0x7F, 0x00, 0⟩, ⟨0x80, 0x7FF, 0xC0, 1⟩, ⟨0x800, 0xD7FF, 0xE0, 2⟩,
   ⟨0xE000, 0xFFFF, 0xE0, 2⟩, ⟨0x10000, 0x10FFFF, 0xF0, 3⟩]

/--
The sequences of a range of numbers, in ascending order, whose digits are a
leading byte with a mark and so many continuation bytes.
-/
def sequencesOf (mark : Nat) : (continuations low high : Nat) → List ByteRanges
  | 0, low, high => [[(mark + low, mark + high)]]
  | n + 1, low, high =>
    let unit := 1 <<< (6 * (n + 1))
    let digit (a b : Nat) : Nat × Nat := (mark + a, mark + b)
    let under (a : Nat) (low high : Nat) : List ByteRanges :=
      (sequencesOf 0x80 n low high).map (digit a a :: ·)
    let first := low / unit
    let last := high / unit
    if first = last then under first (low % unit) (high % unit)
    else
      let opening := if low % unit = 0 then [] else under first (low % unit) (unit - 1)
      let closing := if high % unit = unit - 1 then [] else under last 0 (high % unit)
      let start := if opening.isEmpty then first else first + 1
      let stop := if closing.isEmpty then last + 1 else last
      let middle :=
        if start < stop then (sequencesOf 0x80 n 0 (unit - 1)).map (digit start (stop - 1) :: ·)
        else []
      opening ++ middle ++ closing

/-- The sequences of a class of characters, in ascending order. -/
def sequences (ranges : CodeRanges) : List ByteRanges :=
  ranges.flatMap fun (low, high) =>
    lengths.flatMap fun length =>
      let low := max low length.first
      let high := min high length.last
      if low ≤ high then sequencesOf length.mark length.continuations low high else []

/-- How many byte ranges two sequences have in common at their start. -/
def common : ByteRanges → ByteRanges → Nat
  | a :: as, b :: bs => if a = b then common as bs + 1 else 0
  | _, _ => 0

end Utf8

end CallGraphs
