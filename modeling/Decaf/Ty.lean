import Decaf.Tree.Program

namespace Decaf

/-- A type. `unknown` stands for what could not be resolved. -/
inductive Ty where
  | int
  | boolean
  | array (element : ScalarType) (length : Nat)
  | void
  | unknown
deriving DecidableEq

namespace Ty

def ofScalar : ScalarType → Ty
  | .int => .int
  | .boolean => .boolean

def ofReturn : Option ScalarType → Ty
  | some type => ofScalar type
  | none => .void

def isInt : Ty → Bool
  | .int => true
  | _ => false

def isBoolean : Ty → Bool
  | .boolean => true
  | _ => false

def isUnknown : Ty → Bool
  | .unknown => true
  | _ => false

def isScalar : Ty → Bool
  | .int | .boolean => true
  | _ => false

def element? : Ty → Option Ty
  | .array element _ => some (ofScalar element)
  | _ => none

def text : Ty → String
  | .int => "int"
  | .boolean => "boolean"
  | .array element length => element.text ++ "[" ++ toString length ++ "]"
  | .void => "void"
  | .unknown => "unknown"

end Ty

end Decaf
