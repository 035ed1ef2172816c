import Decaf.Token

namespace Decaf

inductive UnaryOp where
  | neg
  | not
deriving DecidableEq

namespace UnaryOp

def mark : UnaryOp → Punct
  | .neg => .minus
  | .not => .bang

def text (op : UnaryOp) : String := op.mark.text

def ofKind? : TokenKind → Option UnaryOp
  | .punct .minus => some .neg
  | .punct .bang => some .not
  | _ => none

end UnaryOp

inductive BinaryOp where
  | mul
  | div
  | mod
  | add
  | sub
  | lt
  | le
  | gt
  | ge
  | eq
  | ne
  | and
  | or
deriving DecidableEq

/-- Families of binary operators with a typing rule of their own. -/
inductive OpCategory where
  | strongArith
  | weakArith
  | relational
  | conditional
  | equality
deriving DecidableEq

namespace BinaryOp

def mark : BinaryOp → Punct
  | .mul => .star
  | .div => .slash
  | .mod => .percent
  | .add => .plus
  | .sub => .minus
  | .lt => .lt
  | .le => .ltEq
  | .gt => .gt
  | .ge => .gtEq
  | .eq => .eqEq
  | .ne => .notEq
  | .and => .ampAmp
  | .or => .pipePipe

def text (op : BinaryOp) : String := op.mark.text

def category : BinaryOp → OpCategory
  | .mul | .div | .mod => .strongArith
  | .add | .sub => .weakArith
  | .lt | .le | .gt | .ge => .relational
  | .and | .or => .conditional
  | .eq | .ne => .equality

/-- How loosely an operator binds: 1 for multiplication up to 6 for disjunction. -/
def level : BinaryOp → Nat
  | .mul | .div | .mod => 1
  | .add | .sub => 2
  | .lt | .le | .gt | .ge => 3
  | .eq | .ne => 4
  | .and => 5
  | .or => 6

def loosest : Nat := 6

def ofKind? : TokenKind → Option BinaryOp
  | .punct .star => some .mul
  | .punct .slash => some .div
  | .punct .percent => some .mod
  | .punct .plus => some .add
  | .punct .minus => some .sub
  | .punct .lt => some .lt
  | .punct .ltEq => some .le
  | .punct .gt => some .gt
  | .punct .gtEq => some .ge
  | .punct .eqEq => some .eq
  | .punct .notEq => some .ne
  | .punct .ampAmp => some .and
  | .punct .pipePipe => some .or
  | _ => none

def atLevel? (level : Nat) (kind : TokenKind) : Option BinaryOp :=
  (ofKind? kind).filter fun op => op.level = level

end BinaryOp

mutual

inductive Expr where
  | location (place : Location) (span : Span)
  | call (call : Call) (span : Span)
  | int (text : String) (span : Span)
  | char (text : String) (span : Span)
  | bool (value : Bool) (span : Span)
  | unary (op : UnaryOp) (operand : Expr) (span : Span)
  | binary (op : BinaryOp) (left right : Expr) (span : Span)
  | paren (inner : Expr) (span : Span)

inductive Location where
  | scalar (name : String) (span : Span)
  | indexed (name : String) (index : Expr) (span : Span)

inductive Call where
  | method (name : String) (args : List Expr) (span : Span)
  | callout (name : String) (args : List CalloutArg) (span : Span)

/-- External functions also take string literals. -/
inductive CalloutArg where
  | expr (value : Expr)
  | string (text : String)

end

namespace Location

def name : Location → String
  | .scalar name _ | .indexed name _ _ => name

def span : Location → Span
  | .scalar _ span | .indexed _ _ span => span

end Location

def Call.span : Call → Span
  | .method _ _ span | .callout _ _ span => span

def Expr.span : Expr → Span
  | .location _ span | .call _ span | .int _ span | .char _ span | .bool _ span
  | .unary _ _ span | .binary _ _ _ span | .paren _ span => span

mutual

/-- The tokens of an expression, written without blanks. -/
def Expr.text : Expr → String
  | .location place _ => place.text
  | .call call _ => call.text
  | .int text _ => text
  | .char text _ => text
  | .bool value _ => if value then "true" else "false"
  | .unary op operand _ => op.text ++ operand.text
  | .binary op left right _ => left.text ++ op.text ++ right.text
  | .paren inner _ => "(" ++ inner.text ++ ")"

def Location.text : Location → String
  | .scalar name _ => name
  | .indexed name index _ => name ++ "[" ++ index.text ++ "]"

def Call.text : Call → String
  | .method name [] _ => name ++ "()"
  | .method name (first :: others) _ => name ++ "(" ++ first.text ++ Expr.tailText others ++ ")"
  | .callout name args _ => "callout(" ++ name ++ CalloutArg.tailText args ++ ")"

def Expr.tailText : List Expr → String
  | [] => ""
  | arg :: others => "," ++ arg.text ++ Expr.tailText others

def CalloutArg.tailText : List CalloutArg → String
  | [] => ""
  | .expr arg :: others => "," ++ arg.text ++ CalloutArg.tailText others
  | .string text :: others => "," ++ text ++ CalloutArg.tailText others

end

end Decaf
