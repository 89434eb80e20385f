import Entailment.Text.Extending
import Entailment.Text.Unprintable

/-!
# Quoted text

Text between quotation marks, as diagnostics show it. A backslash stands before the mark itself and
before a backslash; the usual control characters have letters, and any other character that a
reader would not see by itself is written as its code point in hexadecimal. Those are the
unprintable characters, the marks that extend the character before them, and letters that only fill
a place.
-/

namespace Entailment

/-- The letters without a shape, which fill a place in a Hangul syllable: general category `L` with
the property `Default_Ignorable_Code_Point`. -/
def fillerRanges : List (Nat × Nat) :=
  [(0x115F, 0x1160), (0x3164, 0x3164), (0xFFA0, 0xFFA0)]

/-- Whether `n` lies in one of the ranges, both ends included. -/
def inRanges (ranges : List (Nat × Nat)) (n : Nat) : Bool :=
  ranges.any fun r => r.1 ≤ n && n ≤ r.2

/-- Whether a reader sees the character by itself. -/
def isVisible (c : Char) : Bool :=
  if c.toNat < 0x7F then 0x20 ≤ c.toNat
  else !(inRanges unprintableRanges c.toNat || inRanges extendingRanges c.toNat ||
    inRanges fillerRanges c.toNat)

/-- The written form of `c` between two marks `mark`. -/
def escape (mark c : Char) : List Char :=
  if c = '\x00' then ['\\', '0']
  else if c = '\t' then ['\\', 't']
  else if c = '\r' then ['\\', 'r']
  else if c = '\n' then ['\\', 'n']
  else if c = '\\' || c = mark then ['\\', c]
  else if isVisible c then [c]
  else ['\\', 'u', '\x7b'] ++ Nat.toDigits 16 c.toNat ++ ['\x7d']

/-- The characters `cs` between two marks `mark`. -/
def quote (mark : Char) (cs : List Char) : String :=
  String.ofList (mark :: (cs.flatMap (escape mark) ++ [mark]))

/-- A text between double quotation marks. -/
def quoteText (s : String) : String := quote '"' s.toList

/-- A character between single quotation marks. -/
def quoteChar (c : Char) : String := quote '\'' [c]

end Entailment
