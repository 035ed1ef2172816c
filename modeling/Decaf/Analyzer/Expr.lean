import Decaf.Analyzer.State

namespace Decaf.Analyzer

/-- Reports each argument whose known type is not that of its parameter. Positions count
from 1. -/
def checkArguments (method : String) (position : Nat) :
    List ScalarType → List (Expr × Ty) → Walk Unit
  | param :: params, (arg, found) :: args => do
    let expected := Ty.ofScalar param
    require (found == expected || found.isUnknown)
      (.argumentType method position expected found) arg.span
    checkArguments method (position + 1) params args
  | _, _ => pure ()

def checkCall (name : String) (args : List Expr) (found : List Ty) (span : Span) : Walk Ty := do
  match ← resolve name with
  | none =>
    report (.undeclaredMethod name) span
    return .unknown
  | some symbol =>
    match symbol.kind with
    | .method params =>
      if params.length = found.length then
        checkArguments name 1 params (args.zip found)
      else
        report (.argumentCount name params.length found.length) span
      return symbol.type
    | _ =>
      report (.notCallable name) span
      return .unknown

def resolveVariable (name : String) (target : Bool) (span : Span) : Walk (Option Symbol) := do
  match ← resolve name with
  | none =>
    report (.undeclaredVariable name target) span
    return none
  | some symbol =>
    if symbol.isMethod then
      report (.notAVariable name) span
      return none
    else
      return some symbol

mutual

def typeOf : Expr → Walk Ty
  | .location place span => typeOfLocation place span.line false
  | .call call _ => typeOfCall call
  | .int _ _ => return .int
  | .char _ _ => return (← get).rules.charType
  | .bool _ _ => return .boolean
  | .unary op operand _ => do
    discard (typeOf operand)
    return op.resultType
  | .binary op left right span => do
    let leftType ← typeOf left
    let rightType ← typeOf right
    require ((← get).rules.operandsOk op.category leftType rightType)
      (.typeMismatch (.operator op.category) left.text right.text) span
    return op.category.resultType
  | .paren inner _ => typeOf inner

/-- The type of a location whose own defects are reported on `line`. -/
def typeOfLocation : Location → (line : Nat) → (target : Bool) → Walk Ty
  | .scalar name span, line, target => do
    match ← resolveVariable name target (span.onLine line) with
    | none => return .unknown
    | some symbol => return symbol.type
  | .indexed name index span, line, target => do
    let indexType ← typeOf index
    match ← resolveVariable name target (span.onLine line) with
    | none => return .unknown
    | some symbol =>
      match symbol.type.element? with
      | none =>
        report (.notAnArray name) (span.onLine line)
        return .unknown
      | some element =>
        require (indexType.isInt || indexType.isUnknown)
          (.typeMismatch .arrayIndex index.text indexType.text) index.span
        return element

def typeOfCall : Call → Walk Ty
  | .method name args span => do
    let found ← typesOf args
    checkCall name args found span
  | .callout _ args _ => do
    visitArguments args
    return .int

def typesOf : List Expr → Walk (List Ty)
  | [] => return []
  | arg :: args => do
    let first ← typeOf arg
    let others ← typesOf args
    return first :: others

def visitArguments : List CalloutArg → Walk Unit
  | [] => return ()
  | .expr value :: args => do
    discard (typeOf value)
    visitArguments args
  | .string _ :: args => visitArguments args

end

end Decaf.Analyzer
