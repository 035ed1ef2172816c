import Decaf.Pattern.Tree

namespace Decaf.Pattern

/-- Starts of ranges of code points alternate with the first code points behind them, in increasing
order. -/
abbrev CharSet := List Nat

namespace CharSet

def range (first last : Nat) : CharSet := [first, last + 1]

def all : CharSet := [0, 0xd800, 0xe000, 0x110000]

/-- The code points whose membership in two sets satisfies `keep`; the flags say whether the code
point in front of the first edge is in either set. -/
def combine (keep : Bool → Bool → Bool) (inA inB : Bool) : CharSet → CharSet → CharSet
  | [], [] => []
  | x :: a, [] =>
    let rest := combine keep (!inA) inB a []
    if keep inA inB = keep (!inA) inB then rest else x :: rest
  | [], y :: b =>
    let rest := combine keep inA (!inB) [] b
    if keep inA inB = keep inA (!inB) then rest else y :: rest
  | x :: a, y :: b =>
    if x < y then
      let rest := combine keep (!inA) inB a (y :: b)
      if keep inA inB = keep (!inA) inB then rest else x :: rest
    else if y < x then
      let rest := combine keep inA (!inB) (x :: a) b
      if keep inA inB = keep inA (!inB) then rest else y :: rest
    else
      let rest := combine keep (!inA) (!inB) a b
      if keep inA inB = keep (!inA) (!inB) then rest else x :: rest
termination_by a b => a.length + b.length

def union : CharSet → CharSet → CharSet := combine (· || ·) false false

def intersection : CharSet → CharSet → CharSet := combine (· && ·) false false

def difference : CharSet → CharSet → CharSet := combine (fun x y => x && !y) false false

def symmetricDifference : CharSet → CharSet → CharSet := combine (· != ·) false false

def complement (set : CharSet) : CharSet := difference all set

def bothCases (set : CharSet) : CharSet :=
  let upper := intersection set (range 'A'.toNat 'Z'.toNat)
  let lower := intersection set (range 'a'.toNat 'z'.toNat)
  union set (union (upper.map (· + 32)) (lower.map (· - 32)))

end CharSet

def SetOperator.apply : SetOperator → CharSet → CharSet → CharSet
  | .intersection => CharSet.intersection
  | .difference => CharSet.difference
  | .symmetricDifference => CharSet.symmetricDifference

def NamedClass.set : NamedClass → CharSet
  | .alnum => [0x30, 0x3a, 0x41, 0x5b, 0x61, 0x7b]
  | .alpha => [0x41, 0x5b, 0x61, 0x7b]
  | .ascii => [0, 0x80]
  | .blank => [0x9, 0xa, 0x20, 0x21]
  | .cntrl => [0, 0x20, 0x7f, 0x80]
  | .digit => [0x30, 0x3a]
  | .graph => [0x21, 0x7f]
  | .lower => [0x61, 0x7b]
  | .print => [0x20, 0x7f]
  | .punct => [0x21, 0x30, 0x3a, 0x41, 0x5b, 0x61, 0x7b, 0x7f]
  | .space => [0x9, 0xe, 0x20, 0x21]
  | .upper => [0x41, 0x5b]
  | .word => [0x30, 0x3a, 0x41, 0x5b, 0x5f, 0x60, 0x61, 0x7b]
  | .xdigit => [0x30, 0x3a, 0x41, 0x47, 0x61, 0x67]

def ShortClass.set : ShortClass → CharSet
  | .digit => NamedClass.digit.set
  | .space => NamedClass.space.set
  | .word => NamedClass.word.set

end Decaf.Pattern
