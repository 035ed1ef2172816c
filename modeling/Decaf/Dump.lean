import Decaf.Text.Outline
import Decaf.Token.Lexer
import Decaf.Tree.Program

namespace Decaf

open Outline (record tuple list string number option atom)

def Span.outline (s : Span) : Outline :=
  record "Span" [("start", number s.start), ("end", number s.stop), ("line", number s.line)]

namespace Token

def kindOutline (kind : TokenKind) : Outline :=
  match kind.text? with
  | some text => tuple kind.label [string text]
  | none => atom kind.label

def outline (t : Token) : Outline :=
  record "Token" [("kind", kindOutline t.kind), ("span", t.span.outline)]

end Token

def tokenListing (tokens : List Token) : String :=
  String.join (tokens.map fun t => t.outline.inline ++ "\n")

def dumpTokens (text : String) : Except LexicalError String :=
  (tokenize text).map tokenListing

def ScalarType.outline : ScalarType → Outline
  | .int => atom "Int"
  | .boolean => atom "Boolean"

def UnaryOp.outline : UnaryOp → Outline
  | .neg => atom "Neg"
  | .not => atom "Not"

def BinaryOp.outline : BinaryOp → Outline
  | .mul => atom "Mul"
  | .div => atom "Div"
  | .mod => atom "Mod"
  | .add => atom "Add"
  | .sub => atom "Sub"
  | .lt => atom "Lt"
  | .le => atom "Le"
  | .gt => atom "Gt"
  | .ge => atom "Ge"
  | .eq => atom "Eq"
  | .ne => atom "Ne"
  | .and => atom "And"
  | .or => atom "Or"

def AssignOp.outline : AssignOp → Outline
  | .assign => atom "Assign"
  | .addAssign => atom "AddAssign"
  | .subAssign => atom "SubAssign"

def nodeOutline (type : String) (kind : Outline) (span : Span) : Outline :=
  record type [("kind", kind), ("span", span.outline)]

mutual

def Expr.outline : Expr → Outline
  | .location place span => nodeOutline "Expr" (tuple "Location" [place.outline]) span
  | .call call span => nodeOutline "Expr" (tuple "MethodCall" [call.outline]) span
  | .int text span =>
    nodeOutline "Expr" (tuple "Literal" [tuple "Int" [string text]]) span
  | .char text span =>
    nodeOutline "Expr" (tuple "Literal" [tuple "Char" [string text]]) span
  | .bool value span =>
    nodeOutline "Expr" (tuple "Literal" [tuple "Bool" [atom (if value then "true" else "false")]])
      span
  | .unary op operand span =>
    nodeOutline "Expr" (record "Unary" [("op", op.outline), ("operand", operand.outline)]) span
  | .binary op left right span =>
    nodeOutline "Expr"
      (record "Binary" [("op", op.outline), ("left", left.outline), ("right", right.outline)]) span
  | .paren inner span => nodeOutline "Expr" (tuple "Paren" [inner.outline]) span

def Location.outline : Location → Outline
  | .scalar name span =>
    record "Location" [("name", string name), ("index", option none), ("span", span.outline)]
  | .indexed name index span =>
    record "Location"
      [("name", string name), ("index", option (some index.outline)), ("span", span.outline)]

def Call.outline : Call → Outline
  | .method name args span =>
    nodeOutline "MethodCall"
      (record "Method" [("name", string name), ("args", list (Expr.outlines args))]) span
  | .callout name args span =>
    nodeOutline "MethodCall"
      (record "Callout" [("name", string name), ("args", list (CalloutArg.outlines args))]) span

def Expr.outlines : List Expr → List Outline
  | [] => []
  | e :: es => e.outline :: Expr.outlines es

def CalloutArg.outlines : List CalloutArg → List Outline
  | [] => []
  | .expr value :: args => tuple "Expr" [value.outline] :: CalloutArg.outlines args
  | .string text :: args => tuple "String" [string text] :: CalloutArg.outlines args

end

def VarDecl.outline (d : VarDecl) : Outline :=
  record "VarDecl"
    [("ty", d.type.outline),
      ("names", list (d.names.map fun n => tuple "" [string n.text, n.span.outline])),
      ("span", d.span.outline)]

mutual

def Stmt.outline : Stmt → Outline
  | .assign target op value span =>
    nodeOutline "Stmt"
      (record "Assign"
        [("target", target.outline), ("op", op.outline), ("value", value.outline)]) span
  | .call call span => nodeOutline "Stmt" (tuple "MethodCall" [call.outline]) span
  | .ifThen condition thenBlock span =>
    nodeOutline "Stmt"
      (record "If"
        [("condition", condition.outline), ("then_block", thenBlock.outline),
          ("else_block", option none)]) span
  | .ifElse condition thenBlock elseBlock span =>
    nodeOutline "Stmt"
      (record "If"
        [("condition", condition.outline), ("then_block", thenBlock.outline),
          ("else_block", option (some elseBlock.outline))]) span
  | .forLoop var first last body span =>
    nodeOutline "Stmt"
      (record "For"
        [("var", string var.text), ("var_span", var.span.outline), ("start", first.outline),
          ("end", last.outline), ("body", body.outline)]) span
  | .returnFrom value span =>
    nodeOutline "Stmt" (tuple "Return" [option (value.map Expr.outline)]) span
  | .breakLoop span => nodeOutline "Stmt" (atom "Break") span
  | .continueLoop span => nodeOutline "Stmt" (atom "Continue") span
  | .block block span => nodeOutline "Stmt" (tuple "Block" [block.outline]) span

def Block.outline : Block → Outline
  | .mk locals statements span =>
    record "Block"
      [("var_decls", list (locals.map VarDecl.outline)),
        ("statements", list (Stmt.outlines statements)), ("span", span.outline)]

def Stmt.outlines : List Stmt → List Outline
  | [] => []
  | s :: ss => s.outline :: Stmt.outlines ss

end

def FieldName.outline (f : FieldName) : Outline :=
  record "FieldName"
    [("name", string f.name), ("array_size", option (f.arraySize.map string)),
      ("span", f.span.outline)]

def FieldDecl.outline (d : FieldDecl) : Outline :=
  record "FieldDecl"
    [("ty", d.type.outline), ("names", list (d.names.map FieldName.outline)),
      ("span", d.span.outline)]

def Param.outline (p : Param) : Outline :=
  record "Param" [("name", string p.name), ("ty", p.type.outline), ("span", p.span.outline)]

def MethodDecl.outline (m : MethodDecl) : Outline :=
  record "MethodDecl"
    [("name", string m.name), ("return_type", option (m.returnType.map ScalarType.outline)),
      ("params", list (m.params.map Param.outline)), ("body", m.body.outline),
      ("span", m.span.outline)]

def Program.outline (p : Program) : Outline :=
  record "Program"
    [("name", string p.name), ("fields", list (p.fields.map FieldDecl.outline)),
      ("methods", list (p.methods.map MethodDecl.outline)), ("span", p.span.outline),
      ("end_line", number p.endLine)]

def Program.dump (p : Program) : String := p.outline.spread 0

end Decaf
