import Decaf.Pattern.Expression

namespace Decaf.Pattern

structure Modes where
  anyCase : Bool
  multiLine : Bool
  dotMatchesNewline : Bool
  unicode : Bool
  carriageReturns : Bool

namespace Modes

def standard : Modes := ⟨false, false, false, true, false⟩

def set (modes : Modes) : Switch → Modes
  | (.anyCase, on) => { modes with anyCase := on }
  | (.multiLine, on) => { modes with multiLine := on }
  | (.dotMatchesNewline, on) => { modes with dotMatchesNewline := on }
  | (.unicode, on) => { modes with unicode := on }
  | (.carriageReturns, on) => { modes with carriageReturns := on }
  | (.swapGreed, _) | (.freeSpacing, _) => modes

def setAll (modes : Modes) (switches : List Switch) : Modes := switches.foldl set modes

end Modes

def refuse (cause : Cause) (extent : Extent) : Except Fault α := .error ⟨cause, extent, none⟩

def foldCase (modes : Modes) (extent : Extent) (set : CharSet) : Except Fault CharSet :=
  if !modes.anyCase then .ok set
  else if !modes.unicode then .ok set.bothCases
  else if set.isEmpty then .ok set
  else refuse .caseNotAvailable extent

def signed (modes : Modes) (extent : Extent) (negated : Bool) (set : CharSet) :
    Except Fault CharSet :=
  if !negated then .ok set
  else if modes.unicode then .ok set.complement
  else refuse .invalidEncoding extent

def plainName (name : List Char) : List Char :=
  let name := name.map Char.toLower
  let name := if ['i', 's'].isPrefixOf name then name.drop 2 else name
  name.filter fun c => c ≠ ' ' && c ≠ '_' && c ≠ '-' && c.toNat < 0x80

def propertySet (modes : Modes) (property : Property) : Except Fault CharSet :=
  if !modes.unicode then refuse .characterNotAllowed property.extent
  else
    match property.value, plainName property.name with
    | none, ['c', 'f'] | none, ['s', 'c'] | none, ['l', 'c'] =>
      refuse .propertyValueNotFound property.extent
    | _, _ => refuse .propertyNotFound property.extent

def shortSet (modes : Modes) (extent : Extent) (negated : Bool) (name : ShortClass) :
    Except Fault CharSet :=
  if modes.unicode then refuse .classNotAvailable extent
  else signed modes extent negated name.set

/-- The code point of a character. As a byte it must be one of ASCII. -/
def codePoint (modes : Modes) (literal : Literal) : Except Fault Nat :=
  if !modes.unicode && literal.asByte && 0x80 ≤ literal.char.toNat then
    refuse .invalidEncoding literal.extent
  else .ok literal.char.toNat

def memberCode (modes : Modes) (literal : Literal) : Except Fault Nat := do
  let n ← codePoint modes literal
  if !modes.unicode && 0x80 ≤ n then refuse .characterNotAllowed literal.extent else .ok n

mutual

def ClassSet.chars (modes : Modes) : ClassSet → Except Fault CharSet
  | .empty _ => .ok []
  | .literal character => do
    let n ← memberCode modes character
    return .range n n
  | .range _ first last => do
    let low ← memberCode modes first
    let high ← memberCode modes last
    return .range low high
  | .named extent negated name => do
    signed modes extent negated (← foldCase modes extent name.set)
  | .property sort => propertySet modes sort
  | .short extent negated name => shortSet modes extent negated name
  | .bracketed extent negated body => do
    signed modes extent negated (← foldCase modes extent (← body.chars modes))
  | .union _ parts => ClassSet.allChars modes parts
  | .combined _ operator left right => do
    let a ← left.chars modes
    let b ← right.chars modes
    let b ← foldCase modes right.extent b
    let a ← foldCase modes left.extent a
    return operator.apply a b

def ClassSet.allChars (modes : Modes) : List ClassSet → Except Fault CharSet
  | [] => .ok []
  | part :: parts => do
    let first ← part.chars modes
    let rest ← ClassSet.allChars modes parts
    return first.union rest

end

def literalMeaning (modes : Modes) (literal : Literal) : Except Fault Expression := do
  let n ← codePoint modes literal
  return .one (← foldCase modes literal.extent (.range n n))

def dotMeaning (modes : Modes) (extent : Extent) : Except Fault Expression :=
  if !modes.unicode then refuse .invalidEncoding extent
  else if modes.dotMatchesNewline then .ok (.one .all)
  else if modes.carriageReturns then .ok (.one (CharSet.complement [0xa, 0xb, 0xd, 0xe]))
  else .ok (.one (CharSet.complement [0xa, 0xb]))

def anchorMeaning (modes : Modes) : Anchor → Assertion
  | .textStart => .textStart
  | .textEnd => .textEnd
  | .lineStart => if modes.multiLine then .lineStart modes.carriageReturns else .textStart
  | .lineEnd => if modes.multiLine then .lineEnd modes.carriageReturns else .textEnd
  | anchor => .word anchor modes.unicode

mutual

/-- The expression that a part of a pattern stands for, and the modes behind it. Properties of
characters outside of ASCII are not known, so what depends on them is refused. -/
def Node.meaning (modes : Modes) : Node → Except Fault (Expression × Modes)
  | .empty _ => .ok (.empty, modes)
  | .switches _ changes => .ok (.empty, modes.setAll changes)
  | .literal character => return (← literalMeaning modes character, modes)
  | .dot extent => return (← dotMeaning modes extent, modes)
  | .anchor _ a => .ok (.assertion (anchorMeaning modes a), modes)
  | .property sort => return (.one (← propertySet modes sort), modes)
  | .short extent negated name => return (.one (← shortSet modes extent negated name), modes)
  | .brackets extent negated body => do
    let set ← foldCase modes extent (← body.chars modes)
    return (.one (← signed modes extent negated set), modes)
  | .repetition _ least most body => do
    let (e, modes) ← body.meaning modes
    return (e.repeated least most, modes)
  | .group _ capturing changes body => do
    let (e, _) ← body.meaning (modes.setAll changes)
    return (if capturing then .group e else e, modes)
  | .alternation _ branches => do
    let (branches, modes) ← Node.meanings modes branches
    return (.oneOf branches, modes)
  | .sequence _ parts => do
    let (parts, modes) ← Node.meanings modes parts
    return (.inRow parts, modes)

def Node.meanings (modes : Modes) : List Node → Except Fault (List Expression × Modes)
  | [] => .ok ([], modes)
  | part :: parts => do
    let (first, modes) ← part.meaning modes
    let (rest, modes) ← Node.meanings modes parts
    return (first :: rest, modes)

end

end Decaf.Pattern
