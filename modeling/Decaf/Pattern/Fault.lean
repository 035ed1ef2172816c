import Decaf.Text.Lines

namespace Decaf.Pattern

/-- A place in the text of a pattern. Lines and columns count from 1. -/
structure Place where
  line : Nat
  column : Nat
deriving DecidableEq

namespace Place

def after (place : Place) (c : Char) : Place :=
  if c = '\n' then ⟨place.line + 1, 1⟩ else ⟨place.line, place.column + 1⟩

def precedes (a b : Place) : Bool :=
  a.line < b.line || (a.line = b.line && a.column < b.column)

end Place

structure Extent where
  start : Place
  stop : Place
deriving DecidableEq

namespace Extent

def point (place : Place) : Extent := ⟨place, place⟩

def isOneLine (extent : Extent) : Bool := extent.start.line = extent.stop.line

def precedes (a b : Extent) : Bool :=
  a.start.precedes b.start || (a.start = b.start && a.stop.precedes b.stop)

end Extent

inductive Cause where
  | classEscapeInvalid
  | classRangeInvalid
  | classRangeLiteral
  | classUnclosed
  | decimalInvalid
  | hexEmpty
  | hexInvalid
  | hexInvalidDigit
  | escapeUnfinished
  | escapeUnrecognized
  | flagDanglingNegation
  | flagDuplicate
  | flagRepeatedNegation
  | flagUnfinished
  | flagUnrecognized
  | groupNameDuplicate
  | groupNameEmpty
  | groupNameInvalid
  | groupNameUnfinished
  | groupUnclosed
  | groupUnopened
  | tooDeep
  | repetitionCountInvalid
  | repetitionCountEmpty
  | repetitionCountUnclosed
  | repetitionMissing
  | boundaryUnclosed
  | boundaryUnrecognized
  | boundaryUnfinished
  | propertyInvalid
  | backreference
  | lookAround
  | characterNotAllowed
  | invalidEncoding
  | propertyNotFound
  | propertyValueNotFound
  | classNotAvailable
  | caseNotAvailable
deriving DecidableEq

def deepest : Nat := 250

def Cause.message : Cause → String
  | .classEscapeInvalid => "invalid escape sequence found in character class"
  | .classRangeInvalid => "invalid character class range, the start must be <= the end"
  | .classRangeLiteral => "invalid range boundary, must be a literal"
  | .classUnclosed => "unclosed character class"
  | .decimalInvalid => "decimal literal invalid"
  | .hexEmpty => "hexadecimal literal empty"
  | .hexInvalid => "hexadecimal literal is not a Unicode scalar value"
  | .hexInvalidDigit => "invalid hexadecimal digit"
  | .escapeUnfinished => "incomplete escape sequence, reached end of pattern prematurely"
  | .escapeUnrecognized => "unrecognized escape sequence"
  | .flagDanglingNegation => "dangling flag negation operator"
  | .flagDuplicate => "duplicate flag"
  | .flagRepeatedNegation => "flag negation operator repeated"
  | .flagUnfinished => "expected flag but got end of regex"
  | .flagUnrecognized => "unrecognized flag"
  | .groupNameDuplicate => "duplicate capture group name"
  | .groupNameEmpty => "empty capture group name"
  | .groupNameInvalid => "invalid capture group character"
  | .groupNameUnfinished => "unclosed capture group name"
  | .groupUnclosed => "unclosed group"
  | .groupUnopened => "unopened group"
  | .tooDeep =>
    "exceed the maximum number of nested parentheses/brackets (" ++ toString deepest ++ ")"
  | .repetitionCountInvalid =>
    "invalid repetition count range, the start must be <= the end"
  | .repetitionCountEmpty => "repetition quantifier expects a valid decimal"
  | .repetitionCountUnclosed => "unclosed counted repetition"
  | .repetitionMissing => "repetition operator missing expression"
  | .boundaryUnclosed =>
    "special word boundary assertion is either unclosed or contains an invalid character"
  | .boundaryUnrecognized =>
    "unrecognized special word boundary assertion, valid choices are: start, end, start-half "
      ++ "or end-half"
  | .boundaryUnfinished =>
    "found either the beginning of a special word boundary or a bounded repetition on a \\b with "
      ++ "an opening brace, but no closing brace"
  | .propertyInvalid => "invalid Unicode character class"
  | .backreference => "backreferences are not supported"
  | .lookAround => "look-around, including look-ahead and look-behind, is not supported"
  | .characterNotAllowed => "Unicode not allowed here"
  | .invalidEncoding => "pattern can match invalid UTF-8"
  | .propertyNotFound => "Unicode property not found"
  | .propertyValueNotFound => "Unicode property value not found"
  | .classNotAvailable =>
    "Unicode-aware Perl class not found (make sure the unicode-perl feature is enabled)"
  | .caseNotAvailable =>
    "Unicode-aware case insensitivity matching is not available (make sure the unicode-case "
      ++ "feature is enabled)"

/-- What is wrong with a pattern and where; some causes concern an earlier part as well. -/
structure Fault where
  cause : Cause
  extent : Extent
  earlier : Option Extent
deriving DecidableEq

namespace Fault

def extents (fault : Fault) : List Extent :=
  match fault.earlier with
  | none => [fault.extent]
  | some other =>
    if other.precedes fault.extent then [other, fault.extent] else [fault.extent, other]

def blanks (count : Nat) : String := String.ofList (List.replicate count ' ')

/-- Carets under the parts of one line, at least one for each; `column` columns are written. -/
def carets : Nat → List Extent → String
  | _, [] => ""
  | column, extent :: extents =>
    let gap := extent.start.column - 1 - column
    let width := max 1 (extent.stop.column - extent.start.column)
    blanks gap ++ String.ofList (List.replicate width '^') ++ carets (column + gap + width) extents

def notedLine (label line : String) (extents : List Extent) : String :=
  label ++ line ++ "\n"
    ++ (if extents.isEmpty then "" else blanks label.length ++ carets 0 extents ++ "\n")

def rightAligned (width : Nat) (text : String) : String := blanks (width - text.length) ++ text

def noted (fault : Fault) (pattern : String) : String :=
  let lines := Lines.paragraph pattern.toList
  let count := lines.length + if pattern.toList.getLast? = some '\n' then 1 else 0
  let label (number : Nat) : String :=
    if count ≤ 1 then blanks 4
    else rightAligned (toString count).length (toString number) ++ ": "
  let onLine (number : Nat) : List Extent :=
    fault.extents.filter fun extent => extent.isOneLine && extent.start.line = number
  String.join (lines.zipIdx.map fun (line, i) =>
    notedLine (label (i + 1)) (String.ofList line) (onLine (i + 1)))

def located (extent : Extent) : String :=
  "on line " ++ toString extent.start.line ++ " (column " ++ toString extent.start.column
    ++ ") through line " ++ toString extent.stop.line ++ " (column "
    ++ toString (extent.stop.column - 1) ++ ")\n"

def report (fault : Fault) (pattern : String) : String :=
  let body :=
    if pattern.toList.contains '\n' then
      let divider := String.ofList (List.replicate 79 '~') ++ "\n"
      let long := fault.extents.filter fun extent => !extent.isOneLine
      divider ++ fault.noted pattern ++ divider ++ String.join (long.map located)
    else fault.noted pattern
  "regex parse error:\n" ++ body ++ "error: " ++ fault.cause.message

end Fault

end Decaf.Pattern
