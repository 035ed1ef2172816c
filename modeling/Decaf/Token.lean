import Decaf.Span

namespace Decaf

inductive Keyword where
  | boolean
  | breakStmt
  | callout
  | classDecl
  | continueStmt
  | elseBranch
  | falseLit
  | forStmt
  | ifStmt
  | int
  | returnStmt
  | trueLit
  | void
deriving DecidableEq

namespace Keyword

def all : List Keyword :=
  [.boolean, .breakStmt, .callout, .classDecl, .continueStmt, .elseBranch, .falseLit, .forStmt,
    .ifStmt, .int, .returnStmt, .trueLit, .void]

def text : Keyword → String
  | .boolean => "boolean"
  | .breakStmt => "break"
  | .callout => "callout"
  | .classDecl => "class"
  | .continueStmt => "continue"
  | .elseBranch => "else"
  | .falseLit => "false"
  | .forStmt => "for"
  | .ifStmt => "if"
  | .int => "int"
  | .returnStmt => "return"
  | .trueLit => "true"
  | .void => "void"

def ofText? (word : String) : Option Keyword := all.find? fun k => k.text == word

def label : Keyword → String
  | .boolean => "Boolean"
  | .breakStmt => "Break"
  | .callout => "Callout"
  | .classDecl => "Class"
  | .continueStmt => "Continue"
  | .elseBranch => "Else"
  | .falseLit => "False"
  | .forStmt => "For"
  | .ifStmt => "If"
  | .int => "Int"
  | .returnStmt => "Return"
  | .trueLit => "True"
  | .void => "Void"

end Keyword

inductive Punct where
  | plus
  | minus
  | star
  | slash
  | percent
  | lt
  | gt
  | ltEq
  | gtEq
  | eqEq
  | notEq
  | ampAmp
  | pipePipe
  | bang
  | eq
  | plusEq
  | minusEq
  | lparen
  | rparen
  | lbracket
  | rbracket
  | lbrace
  | rbrace
  | semi
  | comma
deriving DecidableEq

namespace Punct

def text : Punct → String
  | .plus => "+"
  | .minus => "-"
  | .star => "*"
  | .slash => "/"
  | .percent => "%"
  | .lt => "<"
  | .gt => ">"
  | .ltEq => "<="
  | .gtEq => ">="
  | .eqEq => "=="
  | .notEq => "!="
  | .ampAmp => "&&"
  | .pipePipe => "||"
  | .bang => "!"
  | .eq => "="
  | .plusEq => "+="
  | .minusEq => "-="
  | .lparen => "("
  | .rparen => ")"
  | .lbracket => "["
  | .rbracket => "]"
  | .lbrace => "\x7b"
  | .rbrace => "\x7d"
  | .semi => ";"
  | .comma => ","

def label : Punct → String
  | .plus => "Plus"
  | .minus => "Minus"
  | .star => "Star"
  | .slash => "Slash"
  | .percent => "Percent"
  | .lt => "Lt"
  | .gt => "Gt"
  | .ltEq => "LtEq"
  | .gtEq => "GtEq"
  | .eqEq => "EqEq"
  | .notEq => "NotEq"
  | .ampAmp => "AmpAmp"
  | .pipePipe => "PipePipe"
  | .bang => "Bang"
  | .eq => "Eq"
  | .plusEq => "PlusEq"
  | .minusEq => "MinusEq"
  | .lparen => "LParen"
  | .rparen => "RParen"
  | .lbracket => "LBracket"
  | .rbracket => "RBracket"
  | .lbrace => "LBrace"
  | .rbrace => "RBrace"
  | .semi => "Semi"
  | .comma => "Comma"

end Punct

/-- What a token is. The text of an identifier or literal is its slice of the source. -/
inductive TokenKind where
  | keyword (word : Keyword)
  | punct (mark : Punct)
  | identifier (text : String)
  | hexLiteral (text : String)
  | intLiteral (text : String)
  | charLiteral (text : String)
  | stringLiteral (text : String)
  | eof
deriving DecidableEq

namespace TokenKind

def text? : TokenKind → Option String
  | .identifier text | .hexLiteral text | .intLiteral text | .charLiteral text
  | .stringLiteral text => some text
  | .keyword _ | .punct _ | .eof => none

/-- The token as it is written; the end of the file has no characters. -/
def spelling : TokenKind → String
  | .keyword word => word.text
  | .punct mark => mark.text
  | .identifier text | .hexLiteral text | .intLiteral text | .charLiteral text
  | .stringLiteral text => text
  | .eof => ""

def label : TokenKind → String
  | .keyword word => word.label
  | .punct mark => mark.label
  | .identifier _ => "Identifier"
  | .hexLiteral _ => "HexLiteral"
  | .intLiteral _ => "IntLiteral"
  | .charLiteral _ => "CharLiteral"
  | .stringLiteral _ => "StringLiteral"
  | .eof => "Eof"

def describe : TokenKind → String
  | .keyword word => "'" ++ word.text ++ "'"
  | .punct mark => "'" ++ mark.text ++ "'"
  | .identifier text => "identifier '" ++ text ++ "'"
  | .hexLiteral text | .intLiteral text => "integer '" ++ text ++ "'"
  | .charLiteral text => "character " ++ text
  | .stringLiteral text => "string " ++ text
  | .eof => "end of file"

def isType : TokenKind → Bool
  | .keyword .int | .keyword .boolean => true
  | _ => false

def identifier? : TokenKind → Option String
  | .identifier text => some text
  | _ => none

def integer? : TokenKind → Option String
  | .intLiteral text | .hexLiteral text => some text
  | _ => none

def char? : TokenKind → Option String
  | .charLiteral text => some text
  | _ => none

def string? : TokenKind → Option String
  | .stringLiteral text => some text
  | _ => none

end TokenKind

structure Token where
  kind : TokenKind
  span : Span
deriving DecidableEq

end Decaf
