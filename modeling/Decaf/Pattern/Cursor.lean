import Decaf.Pattern.Tree
import Decaf.Text.CharClass

namespace Decaf.Pattern

/-- The text of a pattern from some place on, whether it is freely spaced, and the names of the
groups in front of that place. -/
structure Cursor where
  rest : List Char
  place : Place
  free : Bool
  names : List (List Char × Extent)

namespace Cursor

def ofText (text : String) : Cursor := ⟨text.toList, ⟨1, 1⟩, false, []⟩

def advance (cursor : Cursor) : Cursor :=
  match cursor.rest with
  | [] => cursor
  | c :: cs => { cursor with rest := cs, place := cursor.place.after c }

def dropBlanks : Bool → List Char → Place → List Char × Place
  | _, [], place => ([], place)
  | true, c :: cs, place => dropBlanks (c ≠ '\n') cs (place.after c)
  | false, c :: cs, place =>
    if CharClass.isSpace c then dropBlanks false cs (place.after c)
    else if c = '#' then dropBlanks true cs (place.after c)
    else (c :: cs, place)

def skipBlanks (cursor : Cursor) : Cursor :=
  if cursor.free then
    let (rest, place) := dropBlanks false cursor.rest cursor.place
    { cursor with rest, place }
  else cursor

def dropSpaces : List Char → Place → List Char × Place
  | [], place => ([], place)
  | c :: cs, place =>
    if CharClass.isSpace c then dropSpaces cs (place.after c) else (c :: cs, place)

def skipSpaces (cursor : Cursor) : Cursor :=
  let (rest, place) := dropSpaces cursor.rest cursor.place
  { cursor with rest, place }

/-- The first character that is neither a blank nor the first number sign. -/
def firstSolid? : Bool → List Char → Option Char
  | _, [] => none
  | sign, c :: cs =>
    if CharClass.isSpace c then firstSolid? sign cs
    else if c = '#' && !sign then firstSolid? true cs
    else some c

def second? (cursor : Cursor) : Option Char :=
  match cursor.rest with
  | [] => none
  | _ :: cs => if cursor.free then (firstSolid? false cs).or cs.head? else cs.head?

end Cursor

abbrev Reading := StateT Cursor (Except Fault)

namespace Reading

def current? : Reading (Option Char) := return (← get).rest.head?

def here : Reading Place := return (← get).place

def atEnd : Reading Bool := return (← get).rest.isEmpty

def fail (cause : Cause) (extent : Extent) : Reading α := throw ⟨cause, extent, none⟩

def since (start : Place) : Reading Extent := return ⟨start, ← here⟩

def charExtent (c : Char) : Reading Extent := do
  let place ← here
  return ⟨place, place.after c⟩

def bump : Reading Bool := do
  modify Cursor.advance
  return !(← atEnd)

def skipBlanks : Reading Unit := modify Cursor.skipBlanks

def bumpOn : Reading Bool := do
  if ← bump then
    skipBlanks
    return !(← atEnd)
  else return false

def bumpIf (text : List Char) : Reading Bool := do
  if text.isPrefixOf (← get).rest then
    modify fun cursor => text.foldl (fun cursor _ => cursor.advance) cursor
    return true
  else return false

/-- The characters from here on that a test accepts, at most `fuel` many, without the blanks
between them. -/
def takeOn (accepts : Char → Bool) : Nat → Reading (List Char)
  | 0 => return []
  | fuel + 1 => do
    match ← current? with
    | some c =>
      if accepts c then
        let _ ← bumpOn
        return c :: (← takeOn accepts fuel)
      else return []
    | none => return []

def takeAllOn (accepts : Char → Bool) : Reading (List Char) := do
  takeOn accepts (← get).rest.length

end Reading

end Decaf.Pattern
