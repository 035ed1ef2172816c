import Decaf.Analyzer.Stmt
import Decaf.ArraySize

namespace Decaf

namespace Analyzer

/-- The type of a field. An array whose size is no legal one is reported and gets length 0. -/
def fieldType (decl : FieldDecl) (name : FieldName) : Walk Ty :=
  match name.arraySize with
  | none => return .ofScalar decl.type
  | some size => do
    let length := ArraySize.read? size
    require length.isSome (.invalidArraySize name.name size) (name.span.onLine decl.span.line)
    return .array decl.type (length.getD 0)

def visitField (decl : FieldDecl) : Walk Unit :=
  decl.names.forM fun name => do
    let type ← fieldType decl name
    declare ⟨name.name, .field, type, name.span⟩ decl.span.line

def methodSymbol (method : MethodDecl) : Symbol where
  name := method.name
  kind := .method (method.params.map Param.type)
  type := .ofReturn method.returnType
  span := method.span

def declareParam (param : Param) : Walk Unit :=
  declare ⟨param.name, .parameter, .ofScalar param.type, param.span⟩ param.span.line

/-- Parameters and the outermost local variables of a method share a scope. -/
def visitMethod (method : MethodDecl) : Walk Unit := do
  declare (methodSymbol method) method.span.line
  if method.name = "main" then
    modify fun a => { a with foundMain := true }
  inScope do
    method.params.forM declareParam
    inMethod ⟨method.name, .ofReturn method.returnType⟩ (visitBlock method.body)

def visitProgram (program : Program) : Walk Unit := do
  program.fields.forM visitField
  program.methods.forM visitMethod
  if !(← get).foundMain then
    modify (record (.reported (.ofLine .missingMainMethod program.endLine)))

def analyze (program : Program) : Walk (List Diagnostic) := do
  modify fun a => new a.rules
  visitProgram program
  return (← get).diagnostics

end Analyzer

def analyze (rules : RuleSet) (program : Program) : List Diagnostic :=
  ((Analyzer.analyze program).run (.new rules)).1

end Decaf
