import Decaf.Pattern.Brackets
import Decaf.Pattern.Group

namespace Decaf.Pattern

open Reading

/-- A group that is not closed yet, or the whole pattern: what opened it and the spacing around it,
the branches that are complete, and the parts of the current branch, both last first. -/
structure Level where
  opening : Option (Extent × Bool × List Switch)
  free : Bool
  start : Place
  branches : List Node
  branchStart : Place
  parts : List Node

namespace Level

def outermost (place : Place) : Level := ⟨none, false, place, [], place, []⟩

def push (level : Level) (node : Node) : Level := { level with parts := node :: level.parts }

def branch (level : Level) (stop : Place) : Node :=
  .ofParts ⟨level.branchStart, stop⟩ level.parts.reverse

def next (level : Level) (stop start : Place) : Level :=
  { level with branches := level.branch stop :: level.branches, branchStart := start, parts := [] }

def node (level : Level) (stop : Place) : Node :=
  match level.branches with
  | [] => level.branch stop
  | branches => .alternation ⟨level.start, stop⟩ (level.branch stop :: branches).reverse

def takeLast (level : Level) : Reading (Node × Level) := do
  match level.parts with
  | part :: parts =>
    unless part.isRepeatable do fail .repetitionMissing (.point (← here))
    return (part, { level with parts })
  | [] => fail .repetitionMissing (.point (← here))

end Level

def readSign (level : Level) (least : Nat) (most : Option Nat) : Reading Level := do
  let (part, level) ← level.takeLast
  if ← bump then
    let _ ← bumpIf ['?']
  return level.push (.repetition (← since part.extent.start) least most part)

def readLimits (start : Place) : Reading (Nat × Option Nat) := do
  let unclosed : Reading Unit := do fail .repetitionCountUnclosed (← since start)
  unless ← bumpOn do unclosed
  let least ← readCount
  if ← atEnd then unclosed
  let limits ←
    if (← current?) = some ',' then do
      unless ← bumpOn do unclosed
      if (← current?) = some '\x7d' then pure (← liftExcept least, none)
      else
        let least ← liftExcept least
        let most ← readCount
        pure (least, some (← liftExcept most))
    else do
      let count ← liftExcept least
      pure (count, some count)
  unless (← current?) = some '\x7d' do unclosed
  return limits

def readCounts (level : Level) : Reading Level := do
  let start ← here
  let (part, level) ← level.takeLast
  let (least, most) ← readLimits start
  if ← bumpOn then
    let _ ← bumpIf ['?']
  if most.any (· < least) then fail .repetitionCountInvalid (← since start)
  return level.push (.repetition (← since part.extent.start) least most part)

def readPrimitive (c : Char) : Reading Node := do
  let extent ← charExtent c
  match c with
  | '\\' => readEscape
  | '.' =>
    let _ ← bump
    return .dot extent
  | '^' =>
    let _ ← bump
    return .anchor extent .lineStart
  | '$' =>
    let _ ← bump
    return .anchor extent .lineEnd
  | _ =>
    let _ ← bump
    return .literal ⟨extent, c, false⟩

def setFree (free : Bool) : Reading Unit := modify fun cursor => { cursor with free }

def closeGroup (level : Level) (outer : List Level) : Reading (Level × List Level) := do
  let stop ← here
  match level.opening, outer with
  | some (parenthesis, capturing, switches), parent :: outer =>
    setFree level.free
    let _ ← bump
    let extent ← since parenthesis.start
    return (parent.push (.group extent capturing switches (level.node stop)), outer)
  | _, _ => fail .groupUnopened (← charExtent ')')

def openGroup (level : Level) (outer : List Level) : Reading (Level × List Level) := do
  match ← readOpening with
  | .switches extent switches =>
    (stateOf? .freeSpacing switches).forM setFree
    return (level.push (.switches extent switches), outer)
  | .group parenthesis capturing switches =>
    let free := (← get).free
    (stateOf? .freeSpacing switches).forM setFree
    let place ← here
    return (⟨some (parenthesis, capturing, switches), free, place, [], place, []⟩, level :: outer)

def finish (level : Level) : Reading Node := do
  match level.opening with
  | some (parenthesis, _, _) => fail .groupUnclosed parenthesis
  | none => return level.node (← here)

/-- Reads on at a level. Every step goes over a character, so the length of the text bounds their
number. -/
def readParts : Nat → Level → List Level → Reading Node
  | 0, level, _ => finish level
  | fuel + 1, level, outer => do
    skipBlanks
    match ← current? with
    | none => finish level
    | some '(' =>
      let (level, outer) ← openGroup level outer
      readParts fuel level outer
    | some ')' =>
      let (level, outer) ← closeGroup level outer
      readParts fuel level outer
    | some '|' =>
      let stop ← here
      let _ ← bump
      readParts fuel (level.next stop (← here)) outer
    | some '[' => readParts fuel (level.push (← readClass)) outer
    | some '?' => readParts fuel (← readSign level 0 (some 1)) outer
    | some '*' => readParts fuel (← readSign level 0 none) outer
    | some '+' => readParts fuel (← readSign level 1 none) outer
    | some '\x7b' => readParts fuel (← readCounts level) outer
    | some c => readParts fuel (level.push (← readPrimitive c)) outer

def parse (text : String) : Except Fault Node := do
  let cursor := Cursor.ofText text
  let (node, _) ← (readParts cursor.rest.length (.outermost cursor.place) []).run cursor
  node.checkDepth 0
  return node

end Decaf.Pattern
