import Decaf.Tree.Program

namespace Decaf

/-- How loosely the outermost operator of an expression binds. Unary and primary expressions have
level 0. -/
def Expr.level : Expr → Nat
  | .binary op _ _ _ => op.level
  | _ => 0

def ScalarType.kind : ScalarType → TokenKind
  | .int => .keyword .int
  | .boolean => .keyword .boolean

def resultKind : Option ScalarType → TokenKind
  | none => .keyword .void
  | some type => type.kind

def boolWord (value : Bool) : Keyword := if value then .trueLit else .falseLit

namespace Grammar

section Lists

variable {α : Type} (R : List Token → α → Prop)

inductive Each : List Token → List α → Prop
  | nil : Each [] []
  | cons {ts us x xs} : R ts x → Each us xs → Each (ts ++ us) (x :: xs)

/-- An item behind a comma. -/
inductive AfterComma : List Token → α → Prop
  | mk {ts x} (a : Span) : R ts x → AfterComma (⟨.punct .comma, a⟩ :: ts) x

/-- Any number of items with commas between them. -/
inductive Separated : List Token → List α → Prop
  | none : Separated [] []
  | some {ts us x xs} : R ts x → Each (AfterComma R) us xs → Separated (ts ++ us) (x :: xs)

end Lists

mutual

/-- An operand on the left binds at least as tightly as its operator, one on the right strictly
more tightly. -/
inductive ExprSpelled : List Token → Expr → Prop
  | location {ts place} : PlaceSpelled ts place → ExprSpelled ts (.location place place.span)
  | call {ts called} : CallSpelled ts called → ExprSpelled ts (.call called called.span)
  | int {kind text} (a : Span) : kind.integer? = some text → ExprSpelled [⟨kind, a⟩] (.int text a)
  | char (text : String) (a : Span) : ExprSpelled [⟨.charLiteral text, a⟩] (.char text a)
  | bool (value : Bool) (a : Span) :
      ExprSpelled [⟨.keyword (boolWord value), a⟩] (.bool value a)
  | unary {ts operand} (op : UnaryOp) (a : Span) : ExprSpelled ts operand → operand.level = 0 →
      ExprSpelled (⟨.punct op.mark, a⟩ :: ts) (.unary op operand (a.merge operand.span))
  | binary {ts us left right} (op : BinaryOp) (a : Span) :
      ExprSpelled ts left → left.level ≤ op.level →
      ExprSpelled us right → right.level < op.level →
      ExprSpelled (ts ++ ⟨.punct op.mark, a⟩ :: us)
        (.binary op left right (left.span.merge right.span))
  | paren {ts inner} (a b : Span) : ExprSpelled ts inner →
      ExprSpelled (⟨.punct .lparen, a⟩ :: (ts ++ [⟨.punct .rparen, b⟩]))
        (.paren inner (a.merge b))

inductive PlaceSpelled : List Token → Location → Prop
  | scalar (name : String) (a : Span) : PlaceSpelled [⟨.identifier name, a⟩] (.scalar name a)
  | indexed {ts index} (name : String) (a b c : Span) : ExprSpelled ts index →
      PlaceSpelled
        (⟨.identifier name, a⟩ :: ⟨.punct .lbracket, b⟩ :: (ts ++ [⟨.punct .rbracket, c⟩]))
        (.indexed name index (a.merge c))

inductive CallSpelled : List Token → Call → Prop
  | method {ts args} (name : String) (a b c : Span) : Separated ExprSpelled ts args →
      CallSpelled
        (⟨.identifier name, a⟩ :: ⟨.punct .lparen, b⟩ :: (ts ++ [⟨.punct .rparen, c⟩]))
        (.method name args (a.merge c))
  | callout {ts args} (name : String) (a b c d : Span) :
      Each (AfterComma CalloutArgSpelled) ts args →
      CallSpelled
        (⟨.keyword .callout, a⟩ :: ⟨.punct .lparen, b⟩ :: ⟨.stringLiteral name, c⟩ ::
          (ts ++ [⟨.punct .rparen, d⟩]))
        (.callout name args (a.merge d))

inductive CalloutArgSpelled : List Token → CalloutArg → Prop
  | expr {ts value} : ExprSpelled ts value → CalloutArgSpelled ts (.expr value)
  | string (text : String) (a : Span) :
      CalloutArgSpelled [⟨.stringLiteral text, a⟩] (.string text)

end

inductive NameSpelled : List Token → Name → Prop
  | mk (name : Name) : NameSpelled [⟨.identifier name.text, name.span⟩] name

inductive VarDeclSpelled : List Token → VarDecl → Prop
  | mk {ts others} (type : ScalarType) (first : Name) (a b : Span) :
      Each (AfterComma NameSpelled) ts others →
      VarDeclSpelled
        (⟨type.kind, a⟩ :: ⟨.identifier first.text, first.span⟩ :: (ts ++ [⟨.punct .semi, b⟩]))
        ⟨type, first :: others, a.merge b⟩

mutual

inductive StmtSpelled : List Token → Stmt → Prop
  | assign {t ts us target value} (op : AssignOp) (a b : Span) :
      PlaceSpelled (t :: ts) target → ExprSpelled us value →
      StmtSpelled (t :: (ts ++ ⟨.punct op.mark, a⟩ :: (us ++ [⟨.punct .semi, b⟩])))
        (.assign target op value (t.span.merge b))
  | call {t ts called} (a : Span) : CallSpelled (t :: ts) called →
      StmtSpelled (t :: (ts ++ [⟨.punct .semi, a⟩])) (.call called (t.span.merge a))
  | ifThen {ts us condition body} (a b c : Span) :
      ExprSpelled ts condition → BlockSpelled us body →
      StmtSpelled
        (⟨.keyword .ifStmt, a⟩ :: ⟨.punct .lparen, b⟩ :: (ts ++ ⟨.punct .rparen, c⟩ :: us))
        (.ifThen condition body (a.merge body.span))
  | ifElse {ts us vs condition body other} (a b c d : Span) :
      ExprSpelled ts condition → BlockSpelled us body → BlockSpelled vs other →
      StmtSpelled
        (⟨.keyword .ifStmt, a⟩ :: ⟨.punct .lparen, b⟩ ::
          (ts ++ ⟨.punct .rparen, c⟩ :: (us ++ ⟨.keyword .elseBranch, d⟩ :: vs)))
        (.ifElse condition body other (a.merge other.span))
  | forLoop {ts us vs first last body} (var : Name) (a b c : Span) :
      ExprSpelled ts first → ExprSpelled us last → BlockSpelled vs body →
      StmtSpelled
        (⟨.keyword .forStmt, a⟩ :: ⟨.identifier var.text, var.span⟩ :: ⟨.punct .eq, b⟩ ::
          (ts ++ ⟨.punct .comma, c⟩ :: (us ++ vs)))
        (.forLoop var first last body (a.merge body.span))
  | returnNothing (a b : Span) :
      StmtSpelled [⟨.keyword .returnStmt, a⟩, ⟨.punct .semi, b⟩] (.returnFrom none (a.merge b))
  | returnValue {ts value} (a b : Span) : ExprSpelled ts value →
      StmtSpelled (⟨.keyword .returnStmt, a⟩ :: (ts ++ [⟨.punct .semi, b⟩]))
        (.returnFrom (some value) (a.merge b))
  | breakLoop (a b : Span) :
      StmtSpelled [⟨.keyword .breakStmt, a⟩, ⟨.punct .semi, b⟩] (.breakLoop (a.merge b))
  | continueLoop (a b : Span) :
      StmtSpelled [⟨.keyword .continueStmt, a⟩, ⟨.punct .semi, b⟩] (.continueLoop (a.merge b))
  | block {ts inner} : BlockSpelled ts inner → StmtSpelled ts (.block inner inner.span)

inductive BlockSpelled : List Token → Block → Prop
  | mk {ts us locals body} (a b : Span) : Each VarDeclSpelled ts locals → Each StmtSpelled us body →
      BlockSpelled (⟨.punct .lbrace, a⟩ :: (ts ++ (us ++ [⟨.punct .rbrace, b⟩])))
        (.mk locals body (a.merge b))

end

inductive FieldNameSpelled : List Token → FieldName → Prop
  | scalar (name : String) (a : Span) :
      FieldNameSpelled [⟨.identifier name, a⟩] ⟨name, none, a⟩
  | array {kind size} (name : String) (a b c d : Span) : kind.integer? = some size →
      FieldNameSpelled
        [⟨.identifier name, a⟩, ⟨.punct .lbracket, b⟩, ⟨kind, c⟩, ⟨.punct .rbracket, d⟩]
        ⟨name, some size, a.merge d⟩

inductive FieldSpelled : List Token → FieldDecl → Prop
  | mk {ts us first others} (type : ScalarType) (a b : Span) :
      FieldNameSpelled ts first → Each (AfterComma FieldNameSpelled) us others →
      FieldSpelled (⟨type.kind, a⟩ :: (ts ++ (us ++ [⟨.punct .semi, b⟩])))
        ⟨type, first :: others, a.merge b⟩

inductive ParamSpelled : List Token → Param → Prop
  | mk (name : String) (type : ScalarType) (a b : Span) :
      ParamSpelled [⟨type.kind, a⟩, ⟨.identifier name, b⟩] ⟨name, type, a.merge b⟩

inductive MethodSpelled : List Token → MethodDecl → Prop
  | mk {ts us params body} (name : String) (result : Option ScalarType) (a b c d : Span) :
      Separated ParamSpelled ts params → BlockSpelled us body →
      MethodSpelled
        (⟨resultKind result, a⟩ :: ⟨.identifier name, b⟩ :: ⟨.punct .lparen, c⟩ ::
          (ts ++ ⟨.punct .rparen, d⟩ :: us))
        ⟨name, result, params, body, a.merge body.span⟩

/-- A class: all its fields stand in front of its methods. -/
inductive ProgramSpelled : List Token → Program → Prop
  | mk {ts us fields methods} (name : String) (a b c d : Span) :
      Each FieldSpelled ts fields → Each MethodSpelled us methods →
      ProgramSpelled
        (⟨.keyword .classDecl, a⟩ :: ⟨.identifier name, b⟩ :: ⟨.punct .lbrace, c⟩ ::
          (ts ++ (us ++ [⟨.punct .rbrace, d⟩])))
        ⟨name, fields, methods, a.merge d, d.line⟩

end Grammar

end Decaf
