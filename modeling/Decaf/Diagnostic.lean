import Decaf.Ty

namespace Decaf

inductive TypeRule where
  | assignment
  | operator (category : OpCategory)
  | arrayIndex
  | condition
  | loopVariable
  | loopBound
deriving DecidableEq

def OpCategory.label : OpCategory → String
  | .strongArith => "StrongArith"
  | .weakArith => "WeakArith"
  | .relational => "Relational"
  | .conditional => "Conditional"
  | .equality => "Equality"

def TypeRule.label : TypeRule → String
  | .assignment => "Assignment"
  | .operator category => category.label
  | .arrayIndex => "ArrayIndex"
  | .condition => "Condition"
  | .loopVariable => "LoopVariable"
  | .loopBound => "LoopBound"

/-- Everything that can be wrong with a program that has the right form. The sides of a mismatch
are the texts of operands, or the names of types. -/
inductive Defect where
  | duplicateDeclaration (name : String) (type : Ty)
  | invalidArraySize (name size : String)
  | undeclaredVariable (name : String) (target : Bool)
  | undeclaredMethod (name : String)
  | typeMismatch (rule : TypeRule) (left right : String)
  | missingMainMethod
  | notAnArray (name : String)
  | notCallable (name : String)
  | notAVariable (name : String)
  | argumentCount (method : String) (expected found : Nat)
  | argumentType (method : String) (position : Nat) (expected found : Ty)
  | returnMismatch (method : String) (expected found : Ty)
  | invalidControlFlow (keyword : String)
deriving DecidableEq

namespace Defect

def label : Defect → String
  | .duplicateDeclaration .. => "DuplicateDeclaration"
  | .invalidArraySize .. => "InvalidArraySize"
  | .undeclaredVariable .. => "UndeclaredVariable"
  | .undeclaredMethod .. => "UndeclaredMethod"
  | .typeMismatch .. => "TypeMismatch"
  | .missingMainMethod => "MissingMainMethod"
  | .notAnArray .. => "NotAnArray"
  | .notCallable .. => "NotCallable"
  | .notAVariable .. => "NotAVariable"
  | .argumentCount .. => "ArgumentCount"
  | .argumentType .. => "ArgumentType"
  | .returnMismatch .. => "ReturnMismatch"
  | .invalidControlFlow .. => "InvalidControlFlow"

def message : Defect → String
  | .duplicateDeclaration name type => "Already exists: " ++ name ++ ", " ++ type.text
  | .invalidArraySize name _ => "Invalid array size on array named: " ++ name
  | .undeclaredVariable _ true => "Variable not declared"
  | .undeclaredVariable name false => "Variable not declared: " ++ name
  | .undeclaredMethod name => "Method not declared: " ++ name
  | .typeMismatch .arrayIndex left right =>
    "Array index " ++ left ++ " must be int, found " ++ right
  | .typeMismatch .condition left _ => "Condition must be boolean, found " ++ left
  | .typeMismatch .loopVariable left right =>
    "Loop variable " ++ left ++ " must be int, found " ++ right
  | .typeMismatch .loopBound left right => "Loop bound " ++ left ++ " must be int, found " ++ right
  | .typeMismatch _ left right =>
    "Type mismatch, cannot perform operation on types " ++ left ++ " and " ++ right
  | .missingMainMethod => "No Main Method"
  | .notAnArray name => "'" ++ name ++ "' is not an array"
  | .notCallable name => "'" ++ name ++ "' is not a method"
  | .notAVariable name => "'" ++ name ++ "' is a method, not a variable"
  | .argumentCount method expected found =>
    "Method " ++ method ++ " expects " ++ toString expected ++ " arguments, found "
      ++ toString found
  | .argumentType method position expected found =>
    "Argument " ++ toString position ++ " of " ++ method ++ " must be " ++ expected.text
      ++ ", found " ++ found.text
  | .returnMismatch method expected found =>
    "Method " ++ method ++ " must return " ++ expected.text ++ ", found " ++ found.text
  | .invalidControlFlow keyword => keyword ++ " statement outside of a loop"

end Defect

/-- A defect, the line it is reported on and the place it is shown at. -/
structure Diagnostic where
  defect : Defect
  line : Nat
  span : Span
deriving DecidableEq

namespace Diagnostic

def ofSpan (defect : Defect) (span : Span) : Diagnostic := ⟨defect, span.line, span⟩

def ofLine (defect : Defect) (line : Nat) : Diagnostic := ⟨defect, line, ⟨0, 0, line⟩⟩

def message (d : Diagnostic) : String := d.defect.message

def text (d : Diagnostic) : String := "Error line " ++ toString d.line ++ ": " ++ d.message

end Diagnostic

end Decaf
