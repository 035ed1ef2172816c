import Decaf.Token

namespace Decaf

structure LexicalError where
  text : String
  span : Span
deriving DecidableEq

def LexicalError.message (e : LexicalError) : String :=
  "unexpected character '" ++ e.text ++ "'"

/-- What the grammar allows at a place where something else was found. -/
inductive Expectation where
  | token (kind : TokenKind)
  | identifier
  | typeName
  | arraySize
  | assignmentOperator
  | statement
  | expression
  | calloutName
  | endOfFile
deriving DecidableEq

/-- How the message of a grammar error opens, up to the token that was found. -/
def Expectation.opening : Expectation → String
  | .token kind => "expected " ++ kind.describe ++ ", found "
  | .identifier => "expected identifier, found "
  | .typeName => "expected type, found "
  | .arraySize => "expected array size, found "
  | .assignmentOperator => "expected assignment operator, found "
  | .statement => "expected statement, found "
  | .expression => "unexpected token in expression: "
  | .calloutName => "expected callout name string, found "
  | .endOfFile => "expected end of file, found "

inductive GrammarFault where
  | unexpected (wanted : Expectation) (found : TokenKind)
  | voidField (name : String)
  | fieldAfterMethod
deriving DecidableEq

def GrammarFault.message : GrammarFault → String
  | .unexpected wanted found => wanted.opening ++ found.describe
  | .voidField name => "field '" ++ name ++ "' cannot have type void"
  | .fieldAfterMethod => "field declarations must precede method declarations"

inductive ParseError where
  | lexical (error : LexicalError)
  | grammar (fault : GrammarFault) (span : Span)
deriving DecidableEq

def ParseError.span : ParseError → Span
  | .lexical error => error.span
  | .grammar _ span => span

def ParseError.message : ParseError → String
  | .lexical error => error.message
  | .grammar fault _ => fault.message

inductive Failure where
  | lexer (message : String) (span : Span)
  | parser (message : String) (span : Span)
  | io (message : String)
deriving DecidableEq

namespace Failure

def ofParseError : ParseError → Failure
  | .lexical error => .lexer error.message error.span
  | .grammar fault span => .parser fault.message span

def span? : Failure → Option Span
  | .lexer _ span | .parser _ span => some span
  | .io _ => none

def text : Failure → String
  | .lexer message span => "Lexer error at line " ++ toString span.line ++ ": " ++ message
  | .parser message span => "Parser error at line " ++ toString span.line ++ ": " ++ message
  | .io message => "IO error: " ++ message

end Failure

end Decaf
