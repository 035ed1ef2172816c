namespace Decaf

def byteLength : List Char → Nat
  | [] => 0
  | c :: cs => c.utf8Size + byteLength cs

theorem byteLength_append (a b : List Char) :
    byteLength (a ++ b) = byteLength a + byteLength b := by
  induction a with
  | nil => simp [byteLength]
  | cons c cs ih => simp [byteLength, ih, Nat.add_assoc]

/-- The offsets in bytes at which lines start, in increasing order: 0 and behind line feeds. -/
structure LineIndex where
  starts : Array Nat

namespace LineIndex

def startsAfterFeeds (offset : Nat) : List Char → List Nat
  | [] => []
  | c :: cs =>
    let next := offset + c.utf8Size
    if c = '\n' then next :: startsAfterFeeds next cs else startsAfterFeeds next cs

def ofChars (text : List Char) : LineIndex :=
  ⟨(0 :: startsAfterFeeds 0 text).toArray⟩

def ofText (text : String) : LineIndex := ofChars text.toList

def search (starts : Array Nat) (offset : Nat) (lo hi : Nat) (bound : hi ≤ starts.size) : Nat :=
  if h : lo < hi then
    let mid := lo + (hi - lo) / 2
    have : mid < starts.size := by omega
    if starts[mid] ≤ offset then
      search starts offset (mid + 1) hi bound
    else
      search starts offset lo mid (by omega)
  else
    lo
termination_by hi - lo

/-- The 1-based line that holds `offset`: the number of lines that start at or before it. -/
def lineOf (index : LineIndex) (offset : Nat) : Nat :=
  search index.starts offset 0 index.starts.size (Nat.le_refl _)

end LineIndex

end Decaf
