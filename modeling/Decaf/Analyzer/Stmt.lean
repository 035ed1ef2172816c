import Decaf.Analyzer.Expr

namespace Decaf.Analyzer

def checkCondition (condition : Expr) : Walk Unit := do
  let type ← typeOf condition
  require (type.isBoolean || type.isUnknown)
    (.typeMismatch .condition type.text Ty.boolean.text) condition.span

def checkLoopVariable (var : Name) : Walk Unit := do
  match ← resolveVariable var.text false var.span with
  | none => return ()
  | some symbol =>
    require symbol.type.isInt (.typeMismatch .loopVariable var.text symbol.type.text) var.span

def checkLoopBound (bound : Expr) : Walk Unit := do
  let type ← typeOf bound
  require (type.isInt || type.isUnknown) (.typeMismatch .loopBound bound.text type.text) bound.span

def typeOfReturn : Option Expr → Walk Ty
  | none => return .void
  | some value => typeOf value

def checkReturn (value : Option Expr) (span : Span) : Walk Unit := do
  let found ← typeOfReturn value
  match (← get).method with
  | none => return ()
  | some method =>
    require (found == method.returnType || found.isUnknown)
      (.returnMismatch method.name method.returnType found) span

def checkAssignment (target : Location) (op : AssignOp) (value : Expr) (span : Span) :
    Walk Unit := do
  let targetType ← typeOfLocation target span.line true
  let valueType ← typeOf value
  require ((← get).rules.assignmentOk op targetType valueType)
    (.typeMismatch .assignment targetType.text valueType.text) span

def checkJump (keyword : String) (span : Span) : Walk Unit := do
  require ((← get).loopDepth != 0) (.invalidControlFlow keyword) span

def declareLocals (decl : VarDecl) : Walk Unit :=
  decl.names.forM fun name =>
    declare ⟨name.text, .localVar, .ofScalar decl.type, name.span⟩ decl.span.line

mutual

def visitStmt : Stmt → Walk Unit
  | .assign target op value span => checkAssignment target op value span
  | .call call _ => discard (typeOfCall call)
  | .ifThen condition thenBlock _ => do
    checkCondition condition
    inScope (visitBlock thenBlock)
  | .ifElse condition thenBlock elseBlock _ => do
    checkCondition condition
    inScope (visitBlock thenBlock)
    inScope (visitBlock elseBlock)
  | .forLoop var first last body _ => do
    checkLoopVariable var
    checkLoopBound first
    checkLoopBound last
    inLoop (inScope (visitBlock body))
  | .returnFrom value span => checkReturn value span
  | .breakLoop span => checkJump "break" span
  | .continueLoop span => checkJump "continue" span
  | .block block _ => inScope (visitBlock block)

/-- The declarations and statements of a block, in the scope that is current. -/
def visitBlock : Block → Walk Unit
  | .mk locals statements _ => do
    locals.forM declareLocals
    visitStmts statements

def visitStmts : List Stmt → Walk Unit
  | [] => return ()
  | stmt :: stmts => do
    visitStmt stmt
    visitStmts stmts

end

end Decaf.Analyzer
