namespace Decaf.Similarity

/-- Marks the first character of a word that is `c`, is not marked yet and stands from `low` up to
`high`; the word starts at place `j`. -/
def mark (c : Char) (low high : Nat) : Nat → List (Char × Bool) → Option (List (Char × Bool))
  | _, [] => none
  | j, (d, marked) :: rest =>
    if low ≤ j && j < high && c = d && !marked then some ((d, true) :: rest)
    else (mark c low high (j + 1) rest).map ((d, marked) :: ·)

/-- The characters of the first word, from place `i` on, that have a partner in the second word at
most `reach` places away, and the second word with all partners marked. -/
def shared (reach : Nat) : Nat → List Char → List (Char × Bool) → List Char × List (Char × Bool)
  | _, [], other => ([], other)
  | i, c :: cs, other =>
    match mark c (i - reach) (i + reach + 1) 0 other with
    | some other =>
      let (found, other) := shared reach (i + 1) cs other
      (c :: found, other)
    | none => shared reach (i + 1) cs other

def differences : List Char → List Char → Nat
  | c :: cs, d :: ds => (if c = d then 0 else 1) + differences cs ds
  | _, _ => 0

def score (a b : List Char) : Float :=
  let reach := max a.length b.length / 2 - 1
  let (found, other) := shared reach 0 a (b.map fun c => (c, false))
  let partners := (other.filter Prod.snd).map Prod.fst
  let count := found.length
  let swaps := differences found partners / 2
  if count = 0 then (if a.isEmpty && b.isEmpty then 1.0 else 0.0)
  else
    (count.toFloat / a.length.toFloat + count.toFloat / b.length.toFloat
      + (count - swaps).toFloat / count.toFloat) / 3.0

def isClose (score : Float) : Bool := 0.7 < score

def closest? (word : List Char) (spell : α → List Char) : List α → Option α :=
  let better (best : Option (α × Float)) (candidate : α) : Option (α × Float) :=
    let score := score word (spell candidate)
    match best with
    | some (other, high) => if score < high then some (other, high) else some (candidate, score)
    | none => if isClose score then some (candidate, score) else none
  fun candidates => (candidates.foldl better none).map Prod.fst

end Decaf.Similarity
