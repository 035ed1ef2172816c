import Decaf.Ty

namespace Decaf

inductive SymbolKind where
  | field
  | localVar
  | parameter
  | method (params : List ScalarType)
deriving DecidableEq

/-- A declared name. The type of a method is what it returns. -/
structure Symbol where
  name : String
  kind : SymbolKind
  type : Ty
  span : Span
deriving DecidableEq

def Symbol.isMethod (s : Symbol) : Bool :=
  match s.kind with
  | .method _ => true
  | _ => false

abbrev Frame := List Symbol

def Frame.find (frame : Frame) (name : String) : Option Symbol :=
  frame.find? fun s => s.name == name

/-- The innermost scope, the scopes around it from the inside out, and how many there are. -/
structure ScopeTable where
  innermost : Frame
  outer : List Frame
  depth : Nat
deriving DecidableEq

structure DuplicateError where
  rejected : Symbol
deriving DecidableEq

def DuplicateError.message (e : DuplicateError) : String :=
  "symbol '" ++ e.rejected.name ++ "' already defined in this scope"

namespace ScopeTable

def root : ScopeTable := ⟨[], [], 1⟩

def enter (t : ScopeTable) : ScopeTable := ⟨[], t.innermost :: t.outer, t.depth + 1⟩

/-- Drops the innermost scope; the root scope stays. -/
def exit? (t : ScopeTable) : Option ScopeTable :=
  match t.outer with
  | [] => none
  | frame :: outer => some ⟨frame, outer, t.depth - 1⟩

def declare (t : ScopeTable) (symbol : Symbol) : Except DuplicateError ScopeTable :=
  match t.innermost.find symbol.name with
  | some _ => .error ⟨symbol⟩
  | none => .ok { t with innermost := t.innermost ++ [symbol] }

def resolveLocal (t : ScopeTable) (name : String) : Option Symbol := t.innermost.find name

def resolve (t : ScopeTable) (name : String) : Option Symbol :=
  (t.innermost :: t.outer).findSome? fun frame => frame.find name

end ScopeTable

end Decaf
