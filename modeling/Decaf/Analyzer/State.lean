import Decaf.Analyzer.Rules
import Decaf.Diagnostic
import Decaf.Scope

namespace Decaf

/-- What happens during a walk, in the order in which it happens. -/
inductive Event where
  | entered (depth : Nat)
  | exited (depth : Nat)
  | reported (diagnostic : Diagnostic)
deriving DecidableEq

def Event.diagnostic? : Event → Option Diagnostic
  | .reported diagnostic => some diagnostic
  | .entered _ | .exited _ => none

structure MethodContext where
  name : String
  returnType : Ty
deriving DecidableEq

structure Analyzer where
  rules : RuleSet
  scopes : ScopeTable
  events : List Event
  foundMain : Bool
  loopDepth : Nat
  method : Option MethodContext
deriving DecidableEq

namespace Analyzer

def new (rules : RuleSet) : Analyzer := ⟨rules, .root, [], false, 0, none⟩

def diagnostics (a : Analyzer) : List Diagnostic := a.events.filterMap Event.diagnostic?

def record (event : Event) (a : Analyzer) : Analyzer := { a with events := a.events ++ [event] }

abbrev Walk := StateM Analyzer

def report (defect : Defect) (span : Span) : Walk Unit :=
  modify (record (.reported (.ofSpan defect span)))

def require (condition : Bool) (defect : Defect) (span : Span) : Walk Unit :=
  if condition then pure () else report defect span

def resolve (name : String) : Walk (Option Symbol) := return (← get).scopes.resolve name

/-- Adds a name to the innermost scope. A name that is taken there is reported on `line`. -/
def declare (symbol : Symbol) (line : Nat) : Walk Unit := do
  match (← get).scopes.declare symbol with
  | .ok scopes => modify fun a => { a with scopes }
  | .error e =>
    report (.duplicateDeclaration e.rejected.name e.rejected.type) (e.rejected.span.onLine line)

def enterScope : Walk Unit :=
  modify fun a =>
    let scopes := a.scopes.enter
    record (.entered scopes.depth) { a with scopes }

def exitScope : Walk Unit :=
  modify fun a =>
    match a.scopes.exit? with
    | some scopes => record (.exited scopes.depth) { a with scopes }
    | none => a

def inScope (body : Walk Unit) : Walk Unit := do
  enterScope
  body
  exitScope

def inLoop (body : Walk Unit) : Walk Unit := do
  modify fun a => { a with loopDepth := a.loopDepth + 1 }
  body
  modify fun a => { a with loopDepth := a.loopDepth - 1 }

def inMethod (method : MethodContext) (body : Walk Unit) : Walk Unit := do
  modify fun a => { a with method := some method }
  body
  modify fun a => { a with method := none }

end Analyzer

end Decaf
