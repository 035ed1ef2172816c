namespace Decaf

/-- A half-open byte range and the 1-based line on which it starts. -/
structure Span where
  start : Nat
  stop : Nat
  line : Nat
deriving DecidableEq

namespace Span

def zero : Span := ⟨0, 0, 0⟩

/-- The smallest range that covers both spans, on the line of the one that starts first; on a tie
the left one decides. -/
def merge (a b : Span) : Span where
  start := min a.start b.start
  stop := max a.stop b.stop
  line := if a.start ≤ b.start then a.line else b.line

def onLine (a : Span) (line : Nat) : Span := { a with line }

def runningMerge (first : Span) : List Span → List Span
  | [] => [first]
  | s :: rest => first :: runningMerge (first.merge s) rest

end Span

end Decaf
