import Decaf.Tree.Expr

namespace Decaf

inductive ScalarType where
  | int
  | boolean
deriving DecidableEq

namespace ScalarType

def text : ScalarType → String
  | .int => "int"
  | .boolean => "boolean"

def ofKind? : TokenKind → Option ScalarType
  | .keyword .int => some .int
  | .keyword .boolean => some .boolean
  | _ => none

end ScalarType

inductive AssignOp where
  | assign
  | addAssign
  | subAssign
deriving DecidableEq

namespace AssignOp

def mark : AssignOp → Punct
  | .assign => .eq
  | .addAssign => .plusEq
  | .subAssign => .minusEq

def text (op : AssignOp) : String := op.mark.text

def ofKind? : TokenKind → Option AssignOp
  | .punct .eq => some .assign
  | .punct .plusEq => some .addAssign
  | .punct .minusEq => some .subAssign
  | _ => none

end AssignOp

/-- A name with the span of the token that introduces it. -/
structure Name where
  text : String
  span : Span
deriving DecidableEq

structure VarDecl where
  type : ScalarType
  names : List Name
  span : Span
deriving DecidableEq

mutual

inductive Stmt where
  | assign (target : Location) (op : AssignOp) (value : Expr) (span : Span)
  | call (call : Call) (span : Span)
  | ifThen (condition : Expr) (thenBlock : Block) (span : Span)
  | ifElse (condition : Expr) (thenBlock elseBlock : Block) (span : Span)
  | forLoop (var : Name) (first last : Expr) (body : Block) (span : Span)
  | returnFrom (value : Option Expr) (span : Span)
  | breakLoop (span : Span)
  | continueLoop (span : Span)
  | block (block : Block) (span : Span)

inductive Block where
  | mk (locals : List VarDecl) (statements : List Stmt) (span : Span)

end

namespace Block

def locals : Block → List VarDecl
  | .mk locals _ _ => locals

def statements : Block → List Stmt
  | .mk _ statements _ => statements

def span : Block → Span
  | .mk _ _ span => span

end Block

def Stmt.span : Stmt → Span
  | .assign _ _ _ span | .call _ span | .ifThen _ _ span | .ifElse _ _ _ span
  | .forLoop _ _ _ _ span | .returnFrom _ span | .breakLoop span | .continueLoop span
  | .block _ span => span

/-- One name of a field declaration. An array keeps the text of its size. -/
structure FieldName where
  name : String
  arraySize : Option String
  span : Span
deriving DecidableEq

structure FieldDecl where
  type : ScalarType
  names : List FieldName
  span : Span
deriving DecidableEq

structure Param where
  name : String
  type : ScalarType
  span : Span
deriving DecidableEq

/-- A method; one without a return type is void. -/
structure MethodDecl where
  name : String
  returnType : Option ScalarType
  params : List Param
  body : Block
  span : Span

/-- A class with its fields and methods. `endLine` is the line of its closing brace. -/
structure Program where
  name : String
  fields : List FieldDecl
  methods : List MethodDecl
  span : Span
  endLine : Nat

end Decaf
