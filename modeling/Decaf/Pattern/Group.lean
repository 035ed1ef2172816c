import Decaf.Pattern.Escape

namespace Decaf.Pattern

open Reading

def Mode.ofLetter? : Char → Option Mode
  | 'i' => some .anyCase
  | 'm' => some .multiLine
  | 's' => some .dotMatchesNewline
  | 'U' => some .swapGreed
  | 'u' => some .unicode
  | 'R' => some .carriageReturns
  | 'x' => some .freeSpacing
  | _ => none

def stateOf? (mode : Mode) (switches : List Switch) : Option Bool := switches.lookup mode

/-- Switches by their letters, up to a colon or a closing parenthesis. Those behind a dash switch
off. A part without a mode is the dash. -/
def readSwitches : Nat → List (Option Mode × Extent) → Reading (List Switch)
  | 0, _ => do fail .flagUnfinished (.point (← here))
  | fuel + 1, seen => do
    let finish : Reading (List Switch) :=
      match seen with
      | (none, extent) :: _ => fail .flagDanglingNegation extent
      | _ =>
        let modes := (seen.map Prod.fst).reverse
        let on := (modes.takeWhile Option.isSome).filterMap id
        let off := (modes.dropWhile Option.isSome).filterMap id
        return on.map (·, true) ++ off.map (·, false)
    match ← current? with
    | some ':' | some ')' => finish
    | some c =>
      let extent ← charExtent c
      let mode ← match c, Mode.ofLetter? c with
        | '-', _ => pure none
        | _, some mode => pure (some mode)
        | _, none => fail .flagUnrecognized extent
      match seen.lookup mode with
      | some earlier =>
        let cause := if mode.isSome then Cause.flagDuplicate else .flagRepeatedNegation
        throw ⟨cause, extent, some earlier⟩
      | none =>
        unless ← bump do fail .flagUnfinished (.point (← here))
        readSwitches fuel ((mode, extent) :: seen)
    | none => fail .flagUnfinished (.point (← here))

/-- Letters, digits and a few signs make the name of a group; it starts with a letter or an
underscore. -/
def isNamePart (first : Bool) (c : Char) : Bool :=
  if first then c = '_' || CharClass.isLetter c
  else c = '_' || c = '.' || c = '[' || c = ']' || CharClass.isLetterOrDigit c

def readNameParts : Nat → Bool → Reading (List Char)
  | 0, _ => return []
  | fuel + 1, first => do
    match ← current? with
    | none | some '>' => return []
    | some c =>
      unless isNamePart first c do fail .groupNameInvalid (← charExtent c)
      let _ ← bump
      return c :: (← readNameParts fuel false)

def readName : Reading Unit := do
  let start ← here
  let name ← readNameParts (← get).rest.length true
  let extent ← since start
  if ← atEnd then fail .groupNameUnfinished (.point (← here))
  let _ ← bump
  if name.isEmpty then fail .groupNameEmpty (.point start)
  match (← get).names.lookup name with
  | some earlier => throw ⟨.groupNameDuplicate, extent, some earlier⟩
  | none => modify fun cursor => { cursor with names := (name, extent) :: cursor.names }

inductive Opening where
  | switches (extent : Extent) (switches : List Switch)
  | group (parenthesis : Extent) (capturing : Bool) (switches : List Switch)

def readOpening : Reading Opening := do
  let parenthesis ← charExtent '('
  let _ ← bump
  skipBlanks
  if ← [['?', '='], ['?', '!'], ['?', '<', '='], ['?', '<', '!']].anyM bumpIf then
    fail .lookAround (← since parenthesis.start)
  let inner ← here
  if ← [['?', 'P', '<'], ['?', '<']].anyM bumpIf then
    readName
    return .group parenthesis true []
  else if ← bumpIf ['?'] then
    if ← atEnd then fail .groupUnclosed parenthesis
    let switches ← readSwitches (← get).rest.length []
    let closed := (← current?) = some ')'
    let _ ← bump
    if closed then
      if switches.isEmpty then fail .repetitionMissing (.point inner)
      return .switches (← since parenthesis.start) switches
    else return .group parenthesis false switches
  else return .group parenthesis true []

end Decaf.Pattern
