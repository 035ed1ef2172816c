import Decaf.Pattern.Fault

namespace Decaf.Pattern

inductive Anchor where
  | lineStart
  | lineEnd
  | textStart
  | textEnd
  | boundary
  | notBoundary
  | wordStart
  | wordEnd
  | wordStartHalf
  | wordEndHalf
deriving DecidableEq

inductive ShortClass where
  | digit
  | space
  | word
deriving DecidableEq

inductive NamedClass where
  | alnum
  | alpha
  | ascii
  | blank
  | cntrl
  | digit
  | graph
  | lower
  | print
  | punct
  | space
  | upper
  | word
  | xdigit
deriving DecidableEq

def NamedClass.ofName? : String → Option NamedClass
  | "alnum" => some .alnum
  | "alpha" => some .alpha
  | "ascii" => some .ascii
  | "blank" => some .blank
  | "cntrl" => some .cntrl
  | "digit" => some .digit
  | "graph" => some .graph
  | "lower" => some .lower
  | "print" => some .print
  | "punct" => some .punct
  | "space" => some .space
  | "upper" => some .upper
  | "word" => some .word
  | "xdigit" => some .xdigit
  | _ => none

/-- A character that stands for itself, and whether it was written as a byte in hexadecimal. -/
structure Literal where
  extent : Extent
  char : Char
  asByte : Bool

/-- A class by a property of characters; `value` is given for properties that have values. -/
structure Property where
  extent : Extent
  negated : Bool
  name : List Char
  value : Option (List Char)

inductive SetOperator where
  | intersection
  | difference
  | symmetricDifference
deriving DecidableEq

inductive ClassSet where
  | empty (extent : Extent)
  | literal (literal : Literal)
  | range (extent : Extent) (first last : Literal)
  | named (extent : Extent) (negated : Bool) (name : NamedClass)
  | property (property : Property)
  | short (extent : Extent) (negated : Bool) (name : ShortClass)
  | bracketed (extent : Extent) (negated : Bool) (body : ClassSet)
  | union (extent : Extent) (parts : List ClassSet)
  | combined (extent : Extent) (operator : SetOperator) (left right : ClassSet)

def ClassSet.extent : ClassSet → Extent
  | .empty extent => extent
  | .literal character => character.extent
  | .range extent _ _ => extent
  | .named extent _ _ => extent
  | .property sort => sort.extent
  | .short extent _ _ => extent
  | .bracketed extent _ _ => extent
  | .union extent _ => extent
  | .combined extent _ _ _ => extent

inductive Mode where
  | anyCase
  | multiLine
  | dotMatchesNewline
  | swapGreed
  | unicode
  | carriageReturns
  | freeSpacing
deriving DecidableEq

abbrev Switch := Mode × Bool

/-- A pattern. A repetition without a largest count has no upper limit. -/
inductive Node where
  | empty (extent : Extent)
  | switches (extent : Extent) (switches : List Switch)
  | literal (literal : Literal)
  | dot (extent : Extent)
  | anchor (extent : Extent) (anchor : Anchor)
  | property (property : Property)
  | short (extent : Extent) (negated : Bool) (name : ShortClass)
  | brackets (extent : Extent) (negated : Bool) (body : ClassSet)
  | repetition (extent : Extent) (least : Nat) (most : Option Nat) (body : Node)
  | group (extent : Extent) (capturing : Bool) (switches : List Switch) (body : Node)
  | alternation (extent : Extent) (branches : List Node)
  | sequence (extent : Extent) (parts : List Node)

def Node.extent : Node → Extent
  | .empty extent => extent
  | .switches extent _ => extent
  | .literal character => character.extent
  | .dot extent => extent
  | .anchor extent _ => extent
  | .property sort => sort.extent
  | .short extent _ _ => extent
  | .brackets extent _ _ => extent
  | .repetition extent _ _ _ => extent
  | .group extent _ _ _ => extent
  | .alternation extent _ => extent
  | .sequence extent _ => extent

def Node.ofParts (extent : Extent) : List Node → Node
  | [] => .empty extent
  | [part] => part
  | parts => .sequence extent parts

def Node.isRepeatable : Node → Bool
  | .empty _ | .switches _ _ => false
  | _ => true

mutual

def ClassSet.checkDepth (depth : Nat) : ClassSet → Except Fault Unit
  | .bracketed extent _ body =>
    if deepest ≤ depth then .error ⟨.tooDeep, extent, none⟩ else body.checkDepth (depth + 1)
  | .union extent parts =>
    if deepest ≤ depth then .error ⟨.tooDeep, extent, none⟩ else checkDepths (depth + 1) parts
  | .combined extent _ left right =>
    if deepest ≤ depth then .error ⟨.tooDeep, extent, none⟩
    else do
      left.checkDepth (depth + 1)
      right.checkDepth (depth + 1)
  | _ => .ok ()

def ClassSet.checkDepths (depth : Nat) : List ClassSet → Except Fault Unit
  | [] => .ok ()
  | part :: parts => do
    part.checkDepth depth
    ClassSet.checkDepths depth parts

end

mutual

def Node.checkDepth (depth : Nat) : Node → Except Fault Unit
  | .brackets extent _ body =>
    if deepest ≤ depth then .error ⟨.tooDeep, extent, none⟩ else body.checkDepth (depth + 1)
  | .repetition extent _ _ body =>
    if deepest ≤ depth then .error ⟨.tooDeep, extent, none⟩ else body.checkDepth (depth + 1)
  | .group extent _ _ body =>
    if deepest ≤ depth then .error ⟨.tooDeep, extent, none⟩ else body.checkDepth (depth + 1)
  | .alternation extent branches =>
    if deepest ≤ depth then .error ⟨.tooDeep, extent, none⟩
    else Node.checkDepths (depth + 1) branches
  | .sequence extent parts =>
    if deepest ≤ depth then .error ⟨.tooDeep, extent, none⟩
    else Node.checkDepths (depth + 1) parts
  | _ => .ok ()

def Node.checkDepths (depth : Nat) : List Node → Except Fault Unit
  | [] => .ok ()
  | part :: parts => do
    part.checkDepth depth
    Node.checkDepths depth parts

end

end Decaf.Pattern
