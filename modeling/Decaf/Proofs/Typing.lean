import Decaf.Proofs.Numeral
import Decaf.Tree.Program

namespace Decaf.Typing

inductive Meaning where
  | scalar (type : ScalarType)
  | array (element : ScalarType)
  | method (params : List ScalarType) (result : Option ScalarType)

abbrev Scope := List (String × Meaning)

/-- The innermost scope comes first. -/
abbrev Env := List Scope

/-- The meaning of a name in the innermost scope that has it. -/
def Env.meaning? (env : Env) (name : String) : Option Meaning :=
  env.findSome? fun scope => scope.lookup name

/-- What an expression delivers. A method without result delivers nothing. -/
inductive ExprType where
  | scalar (type : ScalarType)
  | array (element : ScalarType)
  | nothing

def ExprType.ofResult : Option ScalarType → ExprType
  | some type => .scalar type
  | none => .nothing

/-- The operators with the type of both operands and the type of the result. -/
inductive Signature : BinaryOp → ScalarType → ScalarType → Prop
  | mul : Signature .mul .int .int
  | div : Signature .div .int .int
  | mod : Signature .mod .int .int
  | add : Signature .add .int .int
  | sub : Signature .sub .int .int
  | lt : Signature .lt .int .boolean
  | le : Signature .le .int .boolean
  | gt : Signature .gt .int .boolean
  | ge : Signature .ge .int .boolean
  | and : Signature .and .boolean .boolean
  | or : Signature .or .boolean .boolean
  | eq (type : ScalarType) : Signature .eq type .boolean
  | ne (type : ScalarType) : Signature .ne type .boolean

mutual

inductive HasType (env : Env) : Expr → ExprType → Prop
  | location {place : Location} {span : Span} {type : ExprType} :
      PlaceHasType env place type → HasType env (.location place span) type
  | call {called : Call} {span : Span} {type : ExprType} :
      CallHasType env called type → HasType env (.call called span) type
  | int {text : String} {span : Span} : HasType env (.int text span) (.scalar .int)
  | char {text : String} {span : Span} : HasType env (.char text span) (.scalar .int)
  | bool {value : Bool} {span : Span} : HasType env (.bool value span) (.scalar .boolean)
  -- The operand of a unary operator may have any type: the result alone is fixed.
  | neg {operand : Expr} {span : Span} {type : ExprType} :
      HasType env operand type → HasType env (.unary .neg operand span) (.scalar .int)
  | not {operand : Expr} {span : Span} {type : ExprType} :
      HasType env operand type → HasType env (.unary .not operand span) (.scalar .boolean)
  | binary {op : BinaryOp} {left right : Expr} {span : Span} {operand result : ScalarType} :
      Signature op operand result →
      HasType env left (.scalar operand) → HasType env right (.scalar operand) →
      HasType env (.binary op left right span) (.scalar result)
  | paren {inner : Expr} {span : Span} {type : ExprType} :
      HasType env inner type → HasType env (.paren inner span) type

inductive PlaceHasType (env : Env) : Location → ExprType → Prop
  | scalar {name : String} {span : Span} {type : ScalarType} :
      env.meaning? name = some (.scalar type) →
      PlaceHasType env (.scalar name span) (.scalar type)
  | array {name : String} {span : Span} {element : ScalarType} :
      env.meaning? name = some (.array element) →
      PlaceHasType env (.scalar name span) (.array element)
  | element {name : String} {index : Expr} {span : Span} {element : ScalarType} :
      env.meaning? name = some (.array element) → HasType env index (.scalar .int) →
      PlaceHasType env (.indexed name index span) (.scalar element)

inductive CallHasType (env : Env) : Call → ExprType → Prop
  | method {name : String} {args : List Expr} {span : Span} {params : List ScalarType}
      {result : Option ScalarType} :
      env.meaning? name = some (.method params result) → ArgsFit env args params →
      CallHasType env (.method name args span) (.ofResult result)
  | callout {name : String} {args : List CalloutArg} {span : Span} :
      ArgsTyped env args → CallHasType env (.callout name args span) (.scalar .int)

/-- Arguments of the types of the parameters, and as many. -/
inductive ArgsFit (env : Env) : List Expr → List ScalarType → Prop
  | nil : ArgsFit env [] []
  | cons {arg : Expr} {args : List Expr} {param : ScalarType} {params : List ScalarType} :
      HasType env arg (.scalar param) → ArgsFit env args params →
      ArgsFit env (arg :: args) (param :: params)

/-- Arguments of an external function: strings, and expressions of any kind. -/
inductive ArgsTyped (env : Env) : List CalloutArg → Prop
  | nil : ArgsTyped env []
  | expr {value : Expr} {args : List CalloutArg} {type : ExprType} :
      HasType env value type → ArgsTyped env args → ArgsTyped env (.expr value :: args)
  | string {text : String} {args : List CalloutArg} :
      ArgsTyped env args → ArgsTyped env (.string text :: args)

end

/-- The local variables of a block, all of one scope. -/
def localScope (locals : List VarDecl) : Scope :=
  locals.flatMap fun decl => decl.names.map fun name => (name.text, .scalar decl.type)

def Scope.Distinct (scope : Scope) : Prop := (scope.map Prod.fst).Nodup

/-- Two readings of the rules. In the strict one, which is that of the language, a method without
result returns no value. In the lax one it may return what another one without result delivers. -/
inductive Reading where
  | strict
  | lax

mutual

/-- The statements that may stand in a method with the given result, inside a loop or not. -/
inductive StmtTyped (reading : Reading) (result : Option ScalarType) :
    Env → (inLoop : Bool) → Stmt → Prop
  | assign {env : Env} {inLoop : Bool} {target : Location} {value : Expr} {span : Span}
      {type : ScalarType} :
      PlaceHasType env target (.scalar type) → HasType env value (.scalar type) →
      StmtTyped reading result env inLoop (.assign target .assign value span)
  | addAssign {env : Env} {inLoop : Bool} {target : Location} {value : Expr} {span : Span} :
      PlaceHasType env target (.scalar .int) → HasType env value (.scalar .int) →
      StmtTyped reading result env inLoop (.assign target .addAssign value span)
  | subAssign {env : Env} {inLoop : Bool} {target : Location} {value : Expr} {span : Span} :
      PlaceHasType env target (.scalar .int) → HasType env value (.scalar .int) →
      StmtTyped reading result env inLoop (.assign target .subAssign value span)
  | call {env : Env} {inLoop : Bool} {called : Call} {span : Span} {type : ExprType} :
      CallHasType env called type → StmtTyped reading result env inLoop (.call called span)
  | ifThen {env : Env} {inLoop : Bool} {condition : Expr} {thenBlock : Block} {span : Span} :
      HasType env condition (.scalar .boolean) → BlockTyped reading result env inLoop thenBlock →
      StmtTyped reading result env inLoop (.ifThen condition thenBlock span)
  | ifElse {env : Env} {inLoop : Bool} {condition : Expr} {thenBlock elseBlock : Block}
      {span : Span} :
      HasType env condition (.scalar .boolean) → BlockTyped reading result env inLoop thenBlock →
      BlockTyped reading result env inLoop elseBlock →
      StmtTyped reading result env inLoop (.ifElse condition thenBlock elseBlock span)
  | forLoop {env : Env} {inLoop : Bool} {var : Name} {first last : Expr} {body : Block}
      {span : Span} :
      env.meaning? var.text = some (.scalar .int) →
      HasType env first (.scalar .int) → HasType env last (.scalar .int) →
      BlockTyped reading result env true body →
      StmtTyped reading result env inLoop (.forLoop var first last body span)
  | returnNothing {env : Env} {inLoop : Bool} {span : Span} :
      result = none → StmtTyped reading result env inLoop (.returnFrom none span)
  | returnValue {env : Env} {inLoop : Bool} {value : Expr} {span : Span} {type : ScalarType} :
      result = some type → HasType env value (.scalar type) →
      StmtTyped reading result env inLoop (.returnFrom (some value) span)
  | returnVoid {env : Env} {inLoop : Bool} {value : Expr} {span : Span} :
      reading = .lax → result = none → HasType env value .nothing →
      StmtTyped reading result env inLoop (.returnFrom (some value) span)
  | breakLoop {env : Env} {span : Span} : StmtTyped reading result env true (.breakLoop span)
  | continueLoop {env : Env} {span : Span} : StmtTyped reading result env true (.continueLoop span)
  | block {env : Env} {inLoop : Bool} {inner : Block} {span : Span} :
      BlockTyped reading result env inLoop inner →
      StmtTyped reading result env inLoop (.block inner span)

inductive BlockTyped (reading : Reading) (result : Option ScalarType) :
    Env → (inLoop : Bool) → Block → Prop
  | mk {env : Env} {inLoop : Bool} {locals : List VarDecl} {statements : List Stmt} {span : Span} :
      (localScope locals).Distinct →
      StmtsTyped reading result (localScope locals :: env) inLoop statements →
      BlockTyped reading result env inLoop (.mk locals statements span)

inductive StmtsTyped (reading : Reading) (result : Option ScalarType) :
    Env → (inLoop : Bool) → List Stmt → Prop
  | nil {env : Env} {inLoop : Bool} : StmtsTyped reading result env inLoop []
  | cons {env : Env} {inLoop : Bool} {stmt : Stmt} {stmts : List Stmt} :
      StmtTyped reading result env inLoop stmt → StmtsTyped reading result env inLoop stmts →
      StmtsTyped reading result env inLoop (stmt :: stmts)

end

section

variable {reading : Reading} {result : Option ScalarType} {env : Env} {inLoop : Bool} {span : Span}

theorem StmtTyped.call_iff {called : Call} :
    StmtTyped reading result env inLoop (.call called span) ↔
      ∃ type, CallHasType env called type := by
  refine ⟨fun h => ?_, fun ⟨_, h⟩ => .call h⟩
  cases h with
  | call h => exact ⟨_, h⟩

theorem StmtTyped.ifThen_iff {condition : Expr} {thenBlock : Block} :
    StmtTyped reading result env inLoop (.ifThen condition thenBlock span) ↔
      HasType env condition (.scalar .boolean) ∧
        BlockTyped reading result env inLoop thenBlock := by
  refine ⟨fun h => ?_, fun ⟨hc, ht⟩ => .ifThen hc ht⟩
  cases h with
  | ifThen hc ht => exact ⟨hc, ht⟩

theorem StmtTyped.ifElse_iff {condition : Expr} {thenBlock elseBlock : Block} :
    StmtTyped reading result env inLoop (.ifElse condition thenBlock elseBlock span) ↔
      (HasType env condition (.scalar .boolean) ∧ BlockTyped reading result env inLoop thenBlock) ∧
        BlockTyped reading result env inLoop elseBlock := by
  refine ⟨fun h => ?_, fun ⟨⟨hc, ht⟩, he⟩ => .ifElse hc ht he⟩
  cases h with
  | ifElse hc ht he => exact ⟨⟨hc, ht⟩, he⟩

theorem StmtTyped.forLoop_iff {var : Name} {first last : Expr} {body : Block} :
    StmtTyped reading result env inLoop (.forLoop var first last body span) ↔
      ((env.meaning? var.text = some (.scalar .int) ∧ HasType env first (.scalar .int)) ∧
        HasType env last (.scalar .int)) ∧ BlockTyped reading result env true body := by
  refine ⟨fun h => ?_, fun ⟨⟨⟨hv, hf⟩, hl⟩, hb⟩ => .forLoop hv hf hl hb⟩
  cases h with
  | forLoop hv hf hl hb => exact ⟨⟨⟨hv, hf⟩, hl⟩, hb⟩

theorem StmtTyped.returnNothing_iff :
    StmtTyped reading result env inLoop (.returnFrom none span) ↔ result = none := by
  refine ⟨fun h => ?_, .returnNothing⟩
  cases h with
  | returnNothing h => exact h

theorem StmtTyped.breakLoop_iff :
    StmtTyped reading result env inLoop (.breakLoop span) ↔ inLoop = true := by
  refine ⟨fun h => ?_, fun h => h ▸ .breakLoop⟩
  cases h with
  | breakLoop => rfl

theorem StmtTyped.continueLoop_iff :
    StmtTyped reading result env inLoop (.continueLoop span) ↔ inLoop = true := by
  refine ⟨fun h => ?_, fun h => h ▸ .continueLoop⟩
  cases h with
  | continueLoop => rfl

theorem StmtTyped.block_iff {inner : Block} :
    StmtTyped reading result env inLoop (.block inner span) ↔
      BlockTyped reading result env inLoop inner := by
  refine ⟨fun h => ?_, .block⟩
  cases h with
  | block h => exact h

theorem BlockTyped.mk_iff {locals : List VarDecl} {statements : List Stmt} :
    BlockTyped reading result env inLoop (.mk locals statements span) ↔
      (localScope locals).Distinct ∧
        StmtsTyped reading result (localScope locals :: env) inLoop statements := by
  refine ⟨fun h => ?_, fun ⟨hd, hs⟩ => .mk hd hs⟩
  cases h with
  | mk hd hs => exact ⟨hd, hs⟩

theorem StmtsTyped.cons_iff {stmt : Stmt} {stmts : List Stmt} :
    StmtsTyped reading result env inLoop (stmt :: stmts) ↔
      StmtTyped reading result env inLoop stmt ∧ StmtsTyped reading result env inLoop stmts := by
  refine ⟨fun h => ?_, fun ⟨hs, hss⟩ => .cons hs hss⟩
  cases h with
  | cons hs hss => exact ⟨hs, hss⟩

end

def methodScope (method : MethodDecl) : Scope :=
  method.params.map (fun param => (param.name, .scalar param.type)) ++
    localScope method.body.locals

inductive MethodTyped (reading : Reading) (env : Env) : MethodDecl → Prop
  | mk {method : MethodDecl} :
      (methodScope method).Distinct →
      StmtsTyped reading method.returnType (methodScope method :: env) false
        method.body.statements →
      MethodTyped reading env method

def fieldMeaning (type : ScalarType) (name : FieldName) : Meaning :=
  match name.arraySize with
  | none => .scalar type
  | some _ => .array type

def fieldScope (fields : List FieldDecl) : Scope :=
  fields.flatMap fun decl => decl.names.map fun name => (name.name, fieldMeaning decl.type name)

def methodsScope (methods : List MethodDecl) : Scope :=
  methods.map fun method => (method.name, .method (method.params.map Param.type) method.returnType)

/-- A well-typed program: the names of the class differ, its arrays have legal sizes, there is a
main method, and every method is well typed where it sees all fields, the methods in front of it
and itself. -/
inductive ProgramTyped (reading : Reading) : Program → Prop
  | mk {p : Program} :
      (fieldScope p.fields ++ methodsScope p.methods).Distinct →
      (∀ decl ∈ p.fields, ∀ name ∈ decl.names, ∀ size, name.arraySize = some size →
        ∃ n : Int, ArraySize.Denotes size.toList n ∧ 1 ≤ n ∧ n ≤ 2 ^ 31 - 1) →
      (∃ method ∈ p.methods, method.name = "main") →
      (∀ earlier method later, p.methods = earlier ++ method :: later →
        MethodTyped reading [fieldScope p.fields ++ methodsScope (earlier ++ [method])] method) →
      ProgramTyped reading p

end Decaf.Typing
