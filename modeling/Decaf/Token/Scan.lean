import Decaf.Token

namespace Decaf

def isBlank (c : Char) : Bool :=
  c = ' ' || c = '\t' || c = '\n' || c = '\r' || c = '\x0c'

def isIdentStart (c : Char) : Bool := c.isAlpha || c = '_'

def isIdentPart (c : Char) : Bool := c.isAlphanum || c = '_'

def isHexDigit (c : Char) : Bool :=
  c.isDigit || ('a' ≤ c && c ≤ 'f') || ('A' ≤ c && c ≤ 'F')

def isEscape (c : Char) : Bool :=
  c = 'n' || c = 't' || c = '\'' || c = '"' || c = '\\'

def isCharBody (c : Char) : Bool := c ≠ '\'' && c ≠ '\\' && c ≠ '\n' && c ≠ '"'

def isStringBody (c : Char) : Bool := c ≠ '"' && c ≠ '\\' && c ≠ '\n'

mutual

def triviaLength : List Char → Nat
  | [] => 0
  | c :: cs =>
    if isBlank c then triviaLength cs + 1
    else match c, cs with
      | '/', '/' :: rest => commentLength rest + 2
      | _, _ => 0

/-- Number of characters up to the end of the line, and of the trivia that follows it. -/
def commentLength : List Char → Nat
  | [] => 0
  | c :: cs => if c = '\n' then triviaLength cs + 1 else commentLength cs + 1

end

def stringBodyLength : List Char → Nat
  | [] => 0
  | c :: cs =>
    if isStringBody c then stringBodyLength cs + 1
    else match c, cs with
      | '\\', e :: rest => if isEscape e then stringBodyLength rest + 2 else 0
      | _, _ => 0

/-- What stands at the front of a text that starts with neither a blank nor a comment. The number
counts the characters after the first. -/
inductive Scan where
  | token (kind : TokenKind) (more : Nat)
  | invalid (more : Nat)

def textOf (first : Char) (others : List Char) (more : Nat) : String :=
  String.ofList (first :: others.take more)

def wordKind (word : String) : TokenKind :=
  match Keyword.ofText? word with
  | some keyword => .keyword keyword
  | none => .identifier word

def scanWord (c : Char) (cs : List Char) : Scan :=
  let more := (cs.takeWhile isIdentPart).length
  .token (wordKind (textOf c cs more)) more

/-- A hexadecimal literal needs a digit after its mark; otherwise the zero stands alone. -/
def scanNumber (c : Char) (cs : List Char) : Scan :=
  let decimal : Scan :=
    let more := (cs.takeWhile Char.isDigit).length
    .token (.intLiteral (textOf c cs more)) more
  match c, cs with
  | '0', 'x' :: hex =>
    match (hex.takeWhile isHexDigit).length with
    | 0 => decimal
    | digits + 1 =>
      let more := digits + 2
      .token (.hexLiteral (textOf c cs more)) more
  | _, _ => decimal

def scanChar (cs : List Char) : Scan :=
  match cs with
  | '\\' :: e :: '\'' :: _ =>
    if isEscape e then .token (.charLiteral (textOf '\'' cs 3)) 3 else .invalid 0
  | c :: '\'' :: _ =>
    if isCharBody c then .token (.charLiteral (textOf '\'' cs 2)) 2 else .invalid 0
  | _ => .invalid 0

/-- A string literal without its closing quote is skipped as far as its body is legal. -/
def scanString (cs : List Char) : Scan :=
  let body := stringBodyLength cs
  match cs.drop body with
  | '"' :: _ => .token (.stringLiteral (textOf '"' cs (body + 1))) (body + 1)
  | _ => .invalid body

def twoCharPunct? : Char → Char → Option Punct
  | '<', '=' => some .ltEq
  | '>', '=' => some .gtEq
  | '=', '=' => some .eqEq
  | '!', '=' => some .notEq
  | '&', '&' => some .ampAmp
  | '|', '|' => some .pipePipe
  | '+', '=' => some .plusEq
  | '-', '=' => some .minusEq
  | _, _ => none

def oneCharPunct? : Char → Option Punct
  | '+' => some .plus
  | '-' => some .minus
  | '*' => some .star
  | '/' => some .slash
  | '%' => some .percent
  | '<' => some .lt
  | '>' => some .gt
  | '!' => some .bang
  | '=' => some .eq
  | '(' => some .lparen
  | ')' => some .rparen
  | '[' => some .lbracket
  | ']' => some .rbracket
  | '\x7b' => some .lbrace
  | '\x7d' => some .rbrace
  | ';' => some .semi
  | ',' => some .comma
  | _ => none

def scanPunct (c : Char) (cs : List Char) : Scan :=
  match cs.head?.bind (twoCharPunct? c) with
  | some mark => .token (.punct mark) 1
  | none =>
    match oneCharPunct? c with
    | some mark => .token (.punct mark) 0
    | none => .invalid 0

def scan (c : Char) (cs : List Char) : Scan :=
  if isIdentStart c then scanWord c cs
  else if c.isDigit then scanNumber c cs
  else if c = '\'' then scanChar cs
  else if c = '"' then scanString cs
  else scanPunct c cs

end Decaf
