import Decaf.Pattern.CharSet
import Decaf.Text.CharClass

namespace Decaf.Pattern

inductive Assertion where
  | textStart
  | textEnd
  | lineStart (carriageReturns : Bool)
  | lineEnd (carriageReturns : Bool)
  | word (anchor : Anchor) (allScripts : Bool)
deriving DecidableEq

def isWordChar (c : Char) : Bool := c.isAlphanum || c = '_'

namespace Assertion

/-- Whether the condition holds between two characters, at the ends of a text beside one. With
carriage returns a line ends also at one of those, but not between it and a line feed. -/
def holds (before after : Option Char) : Assertion → Bool
  | .textStart => before.isNone
  | .textEnd => after.isNone
  | .lineStart false => before.isNone || before = some '\n'
  | .lineStart true =>
    before.isNone || before = some '\n' || (before = some '\r' && after ≠ some '\n')
  | .lineEnd false => after.isNone || after = some '\n'
  | .lineEnd true =>
    after.isNone || after = some '\r' || (after = some '\n' && before ≠ some '\r')
  | .word anchor _ =>
    let left := before.any isWordChar
    let right := after.any isWordChar
    match anchor with
    | .notBoundary => left = right
    | .wordStart => !left && right
    | .wordEnd => left && !right
    | .wordStartHalf => !left
    | .wordEndHalf => !right
    | _ => left ≠ right

end Assertion

/-- A regular expression. Groups do not change what occurs, only how much room an expression
takes. -/
inductive Expression where
  | empty
  | one (set : CharSet)
  | assertion (assertion : Assertion)
  | sequence (first second : Expression)
  | either (first second : Expression)
  | repetition (least : Nat) (most : Option Nat) (body : Expression)
  | group (body : Expression)

namespace Expression

def isVoid : Expression → Bool
  | .empty | .assertion _ => true
  | .one _ => false
  | .sequence first second | .either first second => first.isVoid && second.isVoid
  | .repetition _ _ body | .group body => body.isVoid

def isSolid : Expression → Bool
  | .empty | .assertion _ => false
  | .one set => !set.isEmpty
  | .sequence first second => first.isSolid || second.isSolid
  | .either first second => first.isSolid && second.isSolid
  | .repetition least _ body => 0 < least && body.isSolid
  | .group body => body.isSolid

def inRow : List Expression → Expression
  | [] => .empty
  | .empty :: rest => inRow rest
  | first :: rest =>
    match inRow rest with
    | .empty => first
    | second => .sequence first second

def oneOf : List Expression → Expression
  | [] => .one []
  | [last] => last
  | first :: rest =>
    match first, oneOf rest with
    | .one a, .one b => .one (CharSet.union a b)
    | first, second => .either first second

def repeated (least : Nat) (most : Option Nat) (body : Expression) : Expression :=
  let (least, most) :=
    if body.isVoid then (min least 1, some (min (most.getD 1) 1)) else (least, most)
  if least = 0 && most = some 0 then .empty
  else if least = 1 && most = some 1 then body
  else .repetition least most body

def testsAllScripts : Expression → Bool
  | .assertion (.word _ allScripts) => allScripts
  | .empty | .one _ | .assertion _ => false
  | .sequence first second | .either first second =>
    first.testsAllScripts || second.testsAllScripts
  | .repetition _ _ body | .group body => body.testsAllScripts

def places (holds : Option Char → Option Char → Bool) (before : Option Char) : List Char → Nat
  | [] => (holds before none).toNat
  | c :: cs => (holds before (some c)).toNat + 2 * places holds (some c) cs

def settle (step : Nat → Nat) : Nat → Nat → Nat
  | 0, x => x
  | count + 1, x =>
    let y := step x
    if y = x then x else settle step count y

/-- The places in a text where an expression may end if it starts at one of some places. A set of
places is a number whose bits are the places. -/
def ends (text : List Char) : Expression → Nat → Nat
  | .empty, starts => starts
  | .one set, starts =>
    2 * (starts &&& places (fun _ next => next.any fun c => CharClass.covers set c.toNat) none text)
  | .assertion condition, starts =>
    starts &&& places (fun before after => condition.holds before after) none text
  | .sequence first second, starts => second.ends text (first.ends text starts)
  | .either first second, starts => first.ends text starts ||| second.ends text starts
  | .repetition least most body, starts =>
    let further := match most with
      | some most => most - least
      | none => text.length + 1
    settle (fun places => places ||| body.ends text places) further
      (settle (body.ends text) least starts)
  | .group body, starts => body.ends text starts

def occursIn (e : Expression) (text : String) : Bool :=
  e.ends text.toList (places (fun _ _ => true) none text.toList) ≠ 0

end Expression

end Decaf.Pattern
