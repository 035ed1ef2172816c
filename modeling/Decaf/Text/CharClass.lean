import Decaf.Text.Hidden
import Decaf.Text.Extending
import Decaf.Text.Breadth
import Decaf.Text.Alphanumeric

namespace Decaf.CharClass

/-- Whether a code point lies in one of the ranges of a table, in which the starts of ranges
alternate with the first code points behind them, in increasing order. -/
def covers : List Nat → Nat → Bool
  | start :: stop :: rest, n => if n < stop then start ≤ n else covers rest n
  | _, _ => false

def isControl (c : Char) : Bool := c.toNat < 0x20 || (0x7f ≤ c.toNat && c.toNat < 0xa0)

def isSpace (c : Char) : Bool :=
  covers [0x9, 0xe, 0x20, 0x21, 0x85, 0x86, 0xa0, 0xa1, 0x1680, 0x1681, 0x2000, 0x200b,
    0x2028, 0x202a, 0x202f, 0x2030, 0x205f, 0x2060, 0x3000, 0x3001] c.toNat

def isLetter (c : Char) : Bool :=
  if c.toNat < 0x80 then c.isAlpha else covers letters c.toNat

def isLetterOrDigit (c : Char) : Bool :=
  if c.toNat < 0x80 then c.isAlphanum else covers letters c.toNat || covers digits c.toNat

/-- The voice marks of half width: they extend the character in front of them, but have a shape of
their own. -/
def isVoiceMark (c : Char) : Bool := c.toNat = 0xff9e || c.toNat = 0xff9f

def isPrintable (c : Char) : Bool :=
  if c.toNat < 0x7f then 0x20 ≤ c.toNat
  else !(covers hidden c.toNat || (covers extending c.toNat && !isVoiceMark c))

/-- Whether a character takes no column: marks, ignorable characters, the vowels and finals that
complete a syllable block, and signs that are drawn over or under the digits that follow. -/
def isFlat (c : Char) : Bool :=
  (covers extending c.toNat && !covers lateMarks c.toNat)
    || covers ignorable c.toNat
    || covers [0x605, 0x606, 0x70f, 0x710, 0x890, 0x892, 0x8e2, 0x8e3, 0x1160, 0x1200, 0xa8fa,
      0xa8fb, 0xd7b0, 0xd7c7, 0xd7cb, 0xd7fc] c.toNat

def width (c : Char) : Nat :=
  if isControl c then 0
  else if c.toNat < 0x7f then 1
  else
    match c.toNat with
    | 0x115f | 0x17a4 => 2
    | 0x17d8 => 3
    | 0x2d7f => 1
    | n => if isFlat c then 0 else if covers wide n then 2 else 1

end Decaf.CharClass
