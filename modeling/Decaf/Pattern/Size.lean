import Decaf.Pattern.Expression

namespace Decaf.Pattern

def stateSize : Nat := 32

def forkSize (count : Nat) : Nat := stateSize + 4 * count

def rangesSize (count : Nat) : Nat := stateSize + 8 * count

/-- The blocks of code points whose encodings differ only within fixed ranges of bytes, with the
number of those bytes. -/
def encodingBlocks : List (Nat × Nat × Nat) :=
  [(0, 0x80, 1), (0x80, 0x800, 2), (0x800, 0x1000, 3), (0x1000, 0xd000, 3), (0xd000, 0xd800, 3),
    (0xe000, 0x10000, 3), (0x10000, 0x40000, 4), (0x40000, 0x100000, 4), (0x100000, 0x110000, 4)]

def CharSet.encodings : CharSet → List Nat
  | start :: stop :: rest =>
    (encodingBlocks.filter fun (low, high, _) => max start low < min stop high).map (·.2.2)
      ++ CharSet.encodings rest
  | _ => []

def CharSet.isAscii (set : CharSet) : Bool := List.all set (· ≤ 0x80)

def CharSet.size (backward : Bool) (set : CharSet) : Nat :=
  let encodings := set.encodings
  let single : Bool := match set with
    | [start, stop] => stop = start + 1
    | _ => false
  if set.isEmpty then stateSize
  else if single then stateSize * encodings.foldl (· + ·) 0
  else if set.isAscii then stateSize + rangesSize (set.length / 2)
  else if backward then
    forkSize encodings.length + stateSize + stateSize * encodings.foldl (· + ·) 0
  else stateSize + rangesSize encodings.length + 7 * rangesSize 1

namespace Expression

def repetitionSize (least : Nat) (most : Option Nat) (solid : Bool) (size : Nat) : Nat :=
  let written := if least = 0 then stateSize else least * size
  match least, most with
  | 0, none => if solid then forkSize 2 + size else size + 2 * forkSize 2 + stateSize
  | least, none => least * size + forkSize 2
  | 0, some 1 => forkSize 2 + size + stateSize
  | least, some most =>
    if least = most then written else written + stateSize + (most - least) * (forkSize 2 + size)

/-- The room of an expression, alone and as one of several branches. -/
def sizes (backward : Bool) : Expression → Nat × Nat
  | .empty | .assertion _ => (stateSize, stateSize + 4)
  | .one set => (set.size backward, set.size backward + 4)
  | .sequence first second =>
    let size := (first.sizes backward).1 + (second.sizes backward).1
    (size, size + 4)
  | .either first second =>
    let branches := (first.sizes backward).2 + (second.sizes backward).2
    (branches + 2 * stateSize, branches)
  | .repetition least most body =>
    let size := repetitionSize least most body.isSolid (body.sizes backward).1
    (size, size + 4)
  | .group body =>
    let size := (body.sizes backward).1 + if backward then 0 else 2 * stateSize
    (size, size + 4)

/-- The room of the whole machine: it may start anywhere, and it notes the end of a match. -/
def machineSize (backward : Bool) (e : Expression) : Nat :=
  let start := forkSize 2 + stateSize + rangesSize 1
  let marks := if backward then 0 else 2 * stateSize
  start + (e.sizes backward).1 + marks + stateSize

def largestMachine : Nat := 10485760

def isTooLarge (backward : Bool) (e : Expression) : Bool :=
  largestMachine < e.machineSize backward

end Expression

end Decaf.Pattern
