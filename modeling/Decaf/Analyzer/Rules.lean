import Decaf.Ty

namespace Decaf

/-- The legacy rules reverse the tests of all binary operators except `*`, `/` and `%`, allow
assignments between integers only and take characters for booleans. -/
inductive RuleSet where
  | standard
  | legacy
deriving DecidableEq

namespace RuleSet

def label : RuleSet → String
  | .standard => "Standard"
  | .legacy => "Legacy"

def charType : RuleSet → Ty
  | .standard => .int
  | .legacy => .boolean

def operandsOk (rules : RuleSet) (category : OpCategory) (left right : Ty) : Bool :=
  match rules with
  | .legacy =>
    match category with
    | .strongArith => left.isInt && right.isInt
    | .weakArith | .relational => !(left.isInt && right.isInt)
    | .conditional => !(left.isBoolean && right.isBoolean)
    | .equality => left != right
  | .standard =>
    left.isUnknown || right.isUnknown ||
    match category with
    | .strongArith | .weakArith | .relational => left.isInt && right.isInt
    | .conditional => left.isBoolean && right.isBoolean
    | .equality => left.isScalar && left == right

/-- Whether a value of one type may be assigned to a target of another. An unresolved target
accepts everything, as it has been reported already. -/
def assignmentOk (rules : RuleSet) (op : AssignOp) (target value : Ty) : Bool :=
  target.isUnknown ||
  match rules with
  | .legacy => target.isInt && value.isInt
  | .standard =>
    value.isUnknown ||
    match op with
    | .assign => target.isScalar && target == value
    | .addAssign | .subAssign => target.isInt && value.isInt

end RuleSet

def OpCategory.resultType : OpCategory → Ty
  | .strongArith | .weakArith => .int
  | .relational | .conditional | .equality => .boolean

def UnaryOp.resultType : UnaryOp → Ty
  | .neg => .int
  | .not => .boolean

end Decaf
