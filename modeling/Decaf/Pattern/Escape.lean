import Decaf.Pattern.Cursor

namespace Decaf.Pattern

open Reading

def largestCount : Nat := 4294967295

def digitsValue (base : Nat) (digits : List Char) : Nat :=
  let value (c : Char) : Nat :=
    if c.isDigit then c.toNat - '0'.toNat else c.toLower.toNat - 'a'.toNat + 10
  digits.foldl (fun n c => base * n + value c) 0

def isHexDigit (c : Char) : Bool :=
  c.isDigit || ('a' ≤ c && c ≤ 'f') || ('A' ≤ c && c ≤ 'F')

/-- A count in decimal with blanks around it, or what is wrong with it. -/
def readCount : Reading (Except Fault Nat) := do
  modify Cursor.skipSpaces
  let start ← here
  let digits ← takeAllOn Char.isDigit
  let extent ← since start
  let _ ← takeAllOn CharClass.isSpace
  let count := digitsValue 10 digits
  if digits.isEmpty then return .error ⟨.repetitionCountEmpty, extent, none⟩
  else if largestCount < count then return .error ⟨.decimalInvalid, extent, none⟩
  else return .ok count

def ofHex? (digits : List Char) : Option Char :=
  let n := digitsValue 16 digits
  if n.isValidChar then some (Char.ofNat n) else none

def readHexDigits : Nat → Reading (List Char)
  | 0 => return []
  | count + 1 => do
    match ← current? with
    | none => fail .escapeUnfinished (.point (← here))
    | some c =>
      unless isHexDigit c do fail .hexInvalidDigit (← charExtent c)
      let _ ← bumpOn
      return c :: (← readHexDigits count)

def readHex (start : Place) (digitCount : Nat) : Reading Node := do
  unless ← bumpOn do fail .escapeUnfinished (.point (← here))
  let brace ← here
  if (← current?) = some '\x7b' then
    let _ ← bumpOn
    let digits ← takeAllOn isHexDigit
    let stop ← here
    match ← current? with
    | none => fail .escapeUnfinished ⟨brace, stop⟩
    | some c => unless c = '\x7d' do fail .hexInvalidDigit (← charExtent c)
    let _ ← bumpOn
    if digits.isEmpty then fail .hexEmpty (← since brace)
    match ofHex? digits with
    | some c => return .literal ⟨← since start, c, false⟩
    | none => fail .hexInvalid ⟨brace.after '\x7b', stop⟩
  else
    let digits ← readHexDigits digitCount
    match ofHex? digits with
    | some c => return .literal ⟨← since start, c, digitCount = 2⟩
    | none => fail .hexInvalid (← since brace)

def cutAt? (separator : List Char) : List Char → Option (List Char × List Char)
  | [] => none
  | c :: cs =>
    if separator.isPrefixOf (c :: cs) then some ([], (c :: cs).drop separator.length)
    else (cutAt? separator cs).map fun (front, back) => (c :: front, back)

def splitProperty (text : List Char) : List Char × Option (List Char) :=
  match ((cutAt? ['!', '='] text).or (cutAt? [':'] text)).or (cutAt? ['='] text) with
  | some (name, value) => (name, some value)
  | none => (text, none)

def readProperty (start : Place) (negated : Bool) : Reading Node := do
  unless ← bumpOn do fail .escapeUnfinished (.point (← here))
  match ← current? with
  | some '\x7b' =>
    let _ ← bumpOn
    let text ← takeAllOn (· ≠ '\x7d')
    if ← atEnd then fail .escapeUnfinished (.point (← here))
    let _ ← bump
    let (name, value) := splitProperty text
    return .property ⟨← since start, negated, name, value⟩
  | some '\\' => fail .propertyInvalid (← charExtent '\\')
  | some c =>
    let _ ← bumpOn
    return .property ⟨← since start, negated, [c], none⟩
  | none => fail .escapeUnfinished (.point (← here))

/-- The name in braces behind a word boundary. A count in braces is left for a repetition. -/
def readBoundary? (start : Place) : Reading (Option Anchor) := do
  let before ← get
  let isNamePart (c : Char) : Bool := c.isAlpha || c = '-'
  unless ← bumpOn do fail .boundaryUnfinished (← since start)
  let inner ← here
  match ← current? with
  | some c =>
    if isNamePart c then
      let name ← takeAllOn isNamePart
      unless (← current?) = some '\x7d' do fail .boundaryUnclosed (← since before.place)
      let extent ← since inner
      let _ ← bump
      match String.ofList name with
      | "start" => return some .wordStart
      | "end" => return some .wordEnd
      | "start-half" => return some .wordStartHalf
      | "end-half" => return some .wordEndHalf
      | _ => fail .boundaryUnrecognized extent
    else
      set before
      return none
  | none => fail .boundaryUnfinished (← since start)

def isEscapable (c : Char) : Bool :=
  c.toNat < 0x80 && !c.isAlphanum && c ≠ '<' && c ≠ '>'

def readLetter (start : Place) (c : Char) : Reading Node := do
  let _ ← bump
  let extent ← since start
  let special (c : Char) : Reading Node := return .literal ⟨extent, c, false⟩
  let anchor (a : Anchor) : Reading Node := return .anchor extent a
  if isEscapable c then special c
  else
    match c with
    | 'a' => special '\x07'
    | 'f' => special '\x0c'
    | 't' => special '\t'
    | 'n' => special '\n'
    | 'r' => special '\r'
    | 'v' => special '\x0b'
    | 'A' => anchor .textStart
    | 'z' => anchor .textEnd
    | 'B' => anchor .notBoundary
    | '<' => anchor .wordStart
    | '>' => anchor .wordEnd
    | 'b' =>
      if (← current?) = some '\x7b' then
        match ← readBoundary? start with
        | some a => return .anchor (← since start) a
        | none => anchor .boundary
      else anchor .boundary
    | _ => fail .escapeUnrecognized extent

def readEscape : Reading Node := do
  let start ← here
  unless ← bump do fail .escapeUnfinished (← since start)
  let short (negated : Bool) (name : ShortClass) : Reading Node := do
    let _ ← bump
    return .short (← since start) negated name
  match ← current? with
  | none => fail .escapeUnfinished (← since start)
  | some c =>
    if c.isDigit then fail .backreference ⟨start, (← here).after c⟩
    match c with
    | 'x' => readHex start 2
    | 'u' => readHex start 4
    | 'U' => readHex start 8
    | 'p' => readProperty start false
    | 'P' => readProperty start true
    | 'd' => short false .digit
    | 'D' => short true .digit
    | 's' => short false .space
    | 'S' => short true .space
    | 'w' => short false .word
    | 'W' => short true .word
    | _ => readLetter start c

end Decaf.Pattern
