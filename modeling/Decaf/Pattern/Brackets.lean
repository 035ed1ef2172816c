import Decaf.Pattern.Escape

namespace Decaf.Pattern

open Reading

/-- A bracket that is not closed yet: the part that opened it, what an operator waits for on its
right, and what has been read since then, last first. -/
structure Bracket where
  opening : Extent
  negated : Bool
  pending : Option (SetOperator × ClassSet)
  items : List ClassSet
  extent : Extent

namespace Bracket

def push (bracket : Bracket) (item : ClassSet) : Bracket :=
  let start := if bracket.items.isEmpty then item.extent.start else bracket.extent.start
  { bracket with items := item :: bracket.items, extent := ⟨start, item.extent.stop⟩ }

def operand (bracket : Bracket) : ClassSet :=
  match bracket.items with
  | [] => .empty bracket.extent
  | [item] => item
  | items => .union bracket.extent items.reverse

def body (bracket : Bracket) : ClassSet :=
  let right := bracket.operand
  match bracket.pending with
  | some (operator, left) =>
    .combined ⟨left.extent.start, right.extent.stop⟩ operator left right
  | none => right

def expect (bracket : Bracket) (operator : SetOperator) (place : Place) : Bracket :=
  { bracket with pending := some (operator, bracket.body), items := [], extent := .point place }

end Bracket

def readDashes (start : Place) : Nat → Bracket → Reading Bracket
  | 0, bracket => return bracket
  | fuel + 1, bracket => do
    if (← current?) = some '-' then
      let bracket := bracket.push (.literal ⟨← charExtent '-', '-', false⟩)
      unless ← bumpOn do fail .classUnclosed (.point start)
      readDashes start fuel bracket
    else return bracket

def openBracket : Reading Bracket := do
  let start ← here
  unless ← bumpOn do fail .classUnclosed (← since start)
  let negated := (← current?) = some '^'
  if negated then
    unless ← bumpOn do fail .classUnclosed (← since start)
  let bracket : Bracket := ⟨.point start, negated, none, [], .point (← here)⟩
  let bracket ← readDashes start (← get).rest.length bracket
  if bracket.items.isEmpty && (← current?) = some ']' then
    let bracket := bracket.push (.literal ⟨← charExtent ']', ']', false⟩)
    unless ← bumpOn do fail .classUnclosed (← since start)
    return { bracket with opening := ← since start }
  else return { bracket with opening := ← since start }

def readNamed? : Reading (Option ClassSet) := do
  let before ← get
  match before.rest with
  | '[' :: ':' :: inner =>
    let (negated, inner) := match inner with
      | '^' :: inner => (true, inner)
      | inner => (false, inner)
    let name := inner.takeWhile (· ≠ ':')
    match NamedClass.ofName? (String.ofList name), (inner.drop name.length).take 2 with
    | some named, [':', ']'] =>
      let size := name.length + (if negated then 5 else 4)
      let _ ← bumpIf (before.rest.take size)
      return some (.named (← since before.place) negated named)
    | _, _ => return none
  | _ => return none

def readItem : Reading Node := do
  match ← current? with
  | some '\\' => readEscape
  | some c =>
    let extent ← charExtent c
    let _ ← bump
    return .literal ⟨extent, c, false⟩
  | none => fail .classUnclosed (.point (← here))

def toItem : Node → Reading ClassSet
  | .literal character => return .literal character
  | .property sort => return .property sort
  | .short extent negated name => return .short extent negated name
  | node => fail .classEscapeInvalid node.extent

def toBound : Node → Reading Literal
  | .literal character => return character
  | node => fail .classRangeLiteral node.extent

/-- An item, or two with a dash between them. `opening` is the innermost open bracket. -/
def readRange (opening : Extent) : Reading ClassSet := do
  let first ← readItem
  skipBlanks
  let second? := (← get).second?
  match ← current? with
  | none => fail .classUnclosed opening
  | some '-' =>
    if second? = some ']' || second? = some '-' then toItem first
    else
      unless ← bumpOn do fail .classUnclosed opening
      let last ← readItem
      let low ← toBound first
      let high ← toBound last
      let extent : Extent := ⟨first.extent.start, last.extent.stop⟩
      if high.char < low.char then fail .classRangeInvalid extent
      return .range extent low high
  | some _ => toItem first

def operatorAt? : List Char → Option SetOperator
  | '&' :: '&' :: _ => some .intersection
  | '-' :: '-' :: _ => some .difference
  | '~' :: '~' :: _ => some .symmetricDifference
  | _ => none

/-- Reads on in a bracket up to the end of the outermost one. Every step goes over a character, so
the length of the text bounds their number. -/
def readBrackets : Nat → Bracket → List Bracket → Reading Node
  | 0, bracket, _ => fail .classUnclosed bracket.opening
  | fuel + 1, bracket, outer => do
    skipBlanks
    let rest := (← get).rest
    match rest with
    | [] => fail .classUnclosed bracket.opening
    | '[' :: _ =>
      match ← readNamed? with
      | some item => readBrackets fuel (bracket.push item) outer
      | none =>
        let inner ← openBracket
        readBrackets fuel inner (bracket :: outer)
    | ']' :: _ =>
      let _ ← bump
      let extent ← since bracket.opening.start
      match outer with
      | [] => return .brackets extent bracket.negated bracket.body
      | parent :: outer =>
        readBrackets fuel (parent.push (.bracketed extent bracket.negated bracket.body)) outer
    | _ =>
      match operatorAt? rest with
      | some operator =>
        let _ ← bumpIf (rest.take 2)
        readBrackets fuel (bracket.expect operator (← here)) outer
      | none =>
        let item ← readRange bracket.opening
        readBrackets fuel (bracket.push item) outer

def readClass : Reading Node := do
  let size := (← get).rest.length
  let bracket ← openBracket
  readBrackets size bracket []

end Decaf.Pattern
