import Decaf.Proofs.Walk

namespace Decaf

open Analyzer

def Stmt.isLoop : Stmt → Bool
  | .forLoop _ _ _ _ _ => true
  | _ => false

namespace MethodDecl

/-- The parameters of a method and the outermost variables of its body, all of one scope. -/
def locals (method : MethodDecl) : List Declaration :=
  method.params.map Param.declaration ++ method.body.declarations

def context (method : MethodDecl) : MethodContext := ⟨method.name, .ofReturn method.returnType⟩

end MethodDecl

/-- Where a statement stands: the statements around it from the inside out, each with that one of
its blocks that leads to the place, the method, and what the class has declared so far. -/
structure Place where
  around : List (Stmt × Block)
  method : MethodDecl
  members : List Declaration

namespace Place

def inside (place : Place) (s : Stmt) (b : Block) : Place :=
  { place with around := (s, b) :: place.around }

/-- The scopes around a place from the inside out, with everything that is declared in them. -/
def scopes (place : Place) : List (List Declaration) :=
  place.around.map (fun level => level.2.declarations) ++ [place.method.locals, place.members]

/-- The first declaration of a name in the innermost scope that has one. -/
def lookup (place : Place) (name : String) : Option Symbol :=
  place.scopes.findSome? fun ds => Frame.find (ds.map Declaration.symbol) name

/-- How many loops have the place in their body. -/
def loops (place : Place) : Nat := place.around.countP fun level => level.1.isLoop

end Place

structure Site where
  stmt : Stmt
  place : Place

/-- The steps of a walk. Typing an expression is no step: it has steps of its own, and what is
found for the parts of a node is handed to the step that ends it. -/
inductive Step : Type → Type
  | charType : Step Ty
  | operation (op : BinaryOp) (left right : Expr) (leftType rightType : Ty) (span : Span) : Step Ty
  | scalar (name : String) (target : Bool) (span : Span) : Step Ty
  | element (name : String) (index : Expr) (indexType : Ty) (target : Bool) (span : Span) : Step Ty
  | call (name : String) (args : List Expr) (found : List Ty) (span : Span) : Step Ty
  | condition (type : Ty) (span : Span) : Step Unit
  | loopVariable (var : Name) : Step Unit
  | loopBound (bound : Expr) (type : Ty) : Step Unit
  | returned (found : Ty) (span : Span) : Step Unit
  | assignment (op : AssignOp) (target value : Ty) (span : Span) : Step Unit
  | jump (keyword : String) (span : Span) : Step Unit
  | locals (decls : List VarDecl) : Step Unit
  | params (decls : List Param) : Step Unit
  | fields (decls : List FieldDecl) : Step Unit
  | announce (method : MethodDecl) : Step Unit
  | enterScope : Step Unit
  | exitScope : Step Unit
  | enterMethod (method : MethodDecl) : Step Unit
  | leaveMethod : Step Unit
  | demandMain (program : Program) : Step Unit

def Step.walk : {α : Type} → Step α → Walk α
  | _, .charType => return (← get).rules.charType
  | _, .operation op left right leftType rightType span => do
    require ((← get).rules.operandsOk op.category leftType rightType)
      (.typeMismatch (.operator op.category) left.text right.text) span
    return op.category.resultType
  | _, .scalar name target span => do
    match ← resolveVariable name target span with
    | none => return .unknown
    | some symbol => return symbol.type
  | _, .element name index indexType target span => do
    match ← resolveVariable name target span with
    | none => return .unknown
    | some symbol =>
      match symbol.type.element? with
      | none =>
        report (.notAnArray name) span
        return .unknown
      | some type =>
        require (indexType.isInt || indexType.isUnknown)
          (.typeMismatch .arrayIndex index.text indexType.text) index.span
        return type
  | _, .call name args found span => checkCall name args found span
  | _, .condition type span =>
    require (type.isBoolean || type.isUnknown)
      (.typeMismatch .condition type.text Ty.boolean.text) span
  | _, .loopVariable var => checkLoopVariable var
  | _, .loopBound bound type =>
    require (type.isInt || type.isUnknown) (.typeMismatch .loopBound bound.text type.text)
      bound.span
  | _, .returned found span => do
    match (← get).method with
    | none => return ()
    | some method =>
      require (found == method.returnType || found.isUnknown)
        (.returnMismatch method.name method.returnType found) span
  | _, .assignment op target value span => do
    require ((← get).rules.assignmentOk op target value)
      (.typeMismatch .assignment target.text value.text) span
  | _, .jump keyword span => checkJump keyword span
  | _, .locals decls => decls.forM declareLocals
  | _, .params decls => decls.forM declareParam
  | _, .fields decls => decls.forM visitField
  | _, .announce method => do
    declare (methodSymbol method) method.span.line
    if method.name = "main" then
      modify fun a => { a with foundMain := true }
  | _, .enterScope => Analyzer.enterScope
  | _, .exitScope => Analyzer.exitScope
  | _, .enterMethod method => modify fun a => { a with method := some method.context }
  | _, .leaveMethod => modify fun a => { a with method := none }
  | _, .demandMain program => do
    if !(← get).foundMain then
      modify (record (.reported (.ofLine .missingMainMethod program.endLine)))

/-- What a walk comes by before it goes into it. -/
inductive Mark where
  | expr (e : Expr)
  | stmt (site : Site)

/-- The way of a walk: its steps, what it comes by, and the loops it goes through. -/
inductive Course : Type → Type 1
  | done {α : Type} (value : α) : Course α
  | step {α β : Type} (s : Step β) (next : β → Course α) : Course α
  | mark {α : Type} (m : Mark) (next : Course α) : Course α
  | looping {α : Type} (body : Course Unit) (next : Course α) : Course α

namespace Course

variable {α β γ : Type}

def bind : Course α → (α → Course β) → Course β
  | done value, f => f value
  | step s next, f => step s fun value => (next value).bind f
  | mark m next, f => mark m (next.bind f)
  | looping body next, f => looping body (next.bind f)

instance : Monad Course where
  pure := done
  bind := bind

def perform (s : Step α) : Course α := step s done

def pass (m : Mark) : Course Unit := mark m (done ())

def inScope (body : Course Unit) : Course Unit := do
  perform .enterScope
  body
  perform .exitScope

def inLoop (body : Course Unit) : Course Unit := looping body (done ())

def inMethod (method : MethodDecl) (body : Course Unit) : Course Unit := do
  perform (.enterMethod method)
  body
  perform .leaveMethod

def walk : {α : Type} → Course α → Walk α
  | _, done value => pure value
  | _, step s next => s.walk >>= fun value => (next value).walk
  | _, mark _ next => next.walk
  | _, looping body next => Analyzer.inLoop body.walk >>= fun _ => next.walk

/-- What is noted down along a course, where `notice` says what is worth it in which state. -/
def trace (notice : Mark → Analyzer → Option γ) : {α : Type} → Course α → Analyzer → List γ
  | _, done _, _ => []
  | _, step s next, a => (next (s.walk.run a).1).trace notice (s.walk.run a).2
  | _, mark m next, a => (notice m a).toList ++ next.trace notice a
  | _, looping body next, a =>
    body.trace notice { a with loopDepth := a.loopDepth + 1 } ++
      next.trace notice ((Analyzer.inLoop body.walk).run a).2

end Course

open Course

mutual

def Expr.course (e : Expr) : Course Ty := do
  pass (.expr e)
  match e with
  | .location place span => place.course span.line false
  | .call called _ => called.course
  | .int _ _ => return .int
  | .char _ _ => perform .charType
  | .bool _ _ => return .boolean
  | .unary op operand _ => do
    discard operand.course
    return op.resultType
  | .binary op left right span => do
    let leftType ← left.course
    let rightType ← right.course
    perform (.operation op left right leftType rightType span)
  | .paren inner _ => inner.course

def Location.course : Location → (line : Nat) → (target : Bool) → Course Ty
  | .scalar name span, line, target => perform (.scalar name target (span.onLine line))
  | .indexed name index span, line, target => do
    let indexType ← index.course
    perform (.element name index indexType target (span.onLine line))

def Call.course : Call → Course Ty
  | .method name args span => do
    let found ← Expr.listCourse args
    perform (.call name args found span)
  | .callout _ args _ => do
    CalloutArg.listCourse args
    return .int

def Expr.listCourse : List Expr → Course (List Ty)
  | [] => return []
  | arg :: args => do
    let first ← arg.course
    let others ← Expr.listCourse args
    return first :: others

def CalloutArg.listCourse : List CalloutArg → Course Unit
  | [] => return ()
  | .expr value :: args => do
    discard value.course
    CalloutArg.listCourse args
  | .string _ :: args => CalloutArg.listCourse args

end

namespace Course

def condition (e : Expr) : Course Unit := do
  let type ← e.course
  perform (.condition type e.span)

def loopBound (e : Expr) : Course Unit := do
  let type ← e.course
  perform (.loopBound e type)

def returned (value : Option Expr) (span : Span) : Course Unit := do
  let found ← match value with
    | none => pure .void
    | some e => e.course
  perform (.returned found span)

def assignment (target : Location) (op : AssignOp) (value : Expr) (span : Span) : Course Unit := do
  let targetType ← target.course span.line true
  let valueType ← value.course
  perform (.assignment op targetType valueType span)

end Course

mutual

def Stmt.course (place : Place) (s : Stmt) : Course Unit := do
  pass (.stmt ⟨s, place⟩)
  match s with
  | .assign target op value span => assignment target op value span
  | .call called _ => discard called.course
  | .ifThen e body _ => do
    condition e
    inScope (body.course (place.inside s body))
  | .ifElse e body other _ => do
    condition e
    inScope (body.course (place.inside s body))
    inScope (other.course (place.inside s other))
  | .forLoop var first last body _ => do
    perform (.loopVariable var)
    loopBound first
    loopBound last
    inLoop (inScope (body.course (place.inside s body)))
  | .returnFrom value span => returned value span
  | .breakLoop span => perform (.jump "break" span)
  | .continueLoop span => perform (.jump "continue" span)
  | .block inner _ => inScope (inner.course (place.inside s inner))

def Block.course (place : Place) : Block → Course Unit
  | .mk locals statements _ => do
    perform (.locals locals)
    Stmt.listCourse place statements

def Stmt.listCourse (place : Place) : List Stmt → Course Unit
  | [] => return ()
  | s :: stmts => do
    s.course place
    Stmt.listCourse place stmts

end

def MethodDecl.course (members : List Declaration) (method : MethodDecl) : Course Unit := do
  perform (.announce method)
  inScope do
    perform (.params method.params)
    inMethod method (method.body.course ⟨[], method, members ++ [method.declaration]⟩)

def MethodDecl.listCourse (members : List Declaration) : List MethodDecl → Course Unit
  | [] => return ()
  | method :: methods => do
    method.course members
    listCourse (members ++ [method.declaration]) methods

def Program.course (p : Program) : Course Unit := do
  perform (.fields p.fields)
  MethodDecl.listCourse p.fieldDeclarations p.methods
  perform (.demandMain p)

namespace Course

variable {α β γ : Type}

@[simp]
theorem walk_pure (value : α) : (pure value : Course α).walk = pure value := rfl

@[simp]
theorem walk_bind (c : Course α) (f : α → Course β) :
    (c >>= f).walk = c.walk >>= fun value => (f value).walk := by
  induction c with
  | done value => rfl
  | step s next ih => exact congrArg (s.walk >>= ·) (funext fun value => ih value f)
  | mark m next ih => exact ih f
  | looping body next _ ih => exact congrArg (Analyzer.inLoop body.walk >>= fun _ => ·) (ih f)

@[simp]
theorem walk_perform (s : Step α) : (perform s).walk = s.walk := rfl

@[simp]
theorem walk_pass (m : Mark) : (pass m).walk = pure () := rfl

@[simp]
theorem walk_discard (c : Course α) : (discard c).walk = discard c.walk := walk_bind c _

@[simp]
theorem walk_inScope (body : Course Unit) : (inScope body).walk = Analyzer.inScope body.walk := by
  simp only [inScope, walk_bind, walk_perform]
  rfl

@[simp]
theorem walk_inLoop (body : Course Unit) : (inLoop body).walk = Analyzer.inLoop body.walk := rfl

@[simp]
theorem walk_inMethod (method : MethodDecl) (body : Course Unit) :
    (inMethod method body).walk = Analyzer.inMethod method.context body.walk := by
  simp only [inMethod, walk_bind, walk_perform]
  rfl

theorem trace_bind (notice : Mark → Analyzer → Option γ) (c : Course α) (f : α → Course β)
    (a : Analyzer) :
    (c >>= f).trace notice a =
      c.trace notice a ++ (f (c.walk.run a).1).trace notice (c.walk.run a).2 := by
  induction c generalizing a with
  | done value => rfl
  | step s next ih => exact ih _ f _
  | mark m next ih =>
    exact (congrArg ((notice m a).toList ++ ·) (ih f a)).trans (List.append_assoc _ _ _).symm
  | looping body next _ ih =>
    exact (congrArg (body.trace notice _ ++ ·) (ih f _)).trans (List.append_assoc _ _ _).symm

end Course

mutual

theorem Expr.walk_course (e : Expr) : e.course.walk = typeOf e := by
  cases e with
  | location place span => exact place.walk_course span.line false
  | call called span => exact called.walk_course
  | int text span | bool value span | char text span => rfl
  | unary op operand span => simp [Expr.course, typeOf, operand.walk_course]
  | binary op left right span =>
    simp [Expr.course, typeOf, left.walk_course, right.walk_course, Step.walk]
  | paren inner span => exact inner.walk_course

theorem Location.walk_course (place : Location) (line : Nat) (target : Bool) :
    (place.course line target).walk = typeOfLocation place line target := by
  cases place with
  | scalar name span => rw [typeOfLocation]; rfl
  | indexed name index span =>
    rw [Location.course, typeOfLocation, walk_bind, index.walk_course]
    rfl

theorem Call.walk_course (called : Call) : called.course.walk = typeOfCall called := by
  cases called with
  | method name args span =>
    rw [Call.course, typeOfCall, walk_bind, Expr.walk_listCourse args]
    rfl
  | callout name args span =>
    rw [Call.course, typeOfCall, walk_bind, CalloutArg.walk_listCourse args]
    rfl

theorem Expr.walk_listCourse (args : List Expr) : (Expr.listCourse args).walk = typesOf args := by
  cases args with
  | nil => rfl
  | cons arg args =>
    simp [Expr.listCourse, typesOf, arg.walk_course, Expr.walk_listCourse args]

theorem CalloutArg.walk_listCourse (args : List CalloutArg) :
    (CalloutArg.listCourse args).walk = visitArguments args := by
  match args with
  | [] => rfl
  | .expr value :: args =>
    simp [CalloutArg.listCourse, visitArguments, value.walk_course,
      CalloutArg.walk_listCourse args]
  | .string text :: args => exact CalloutArg.walk_listCourse args

end

namespace Course

theorem walk_condition (e : Expr) : (condition e).walk = checkCondition e := by
  rw [condition, walk_bind, e.walk_course]
  rfl

theorem walk_loopBound (e : Expr) : (loopBound e).walk = checkLoopBound e := by
  rw [loopBound, walk_bind, e.walk_course]
  rfl

theorem walk_returned (value : Option Expr) (span : Span) :
    (returned value span).walk = checkReturn value span := by
  cases value with
  | none => rfl
  | some e =>
    rw [returned, walk_bind, e.walk_course]
    rfl

theorem walk_assignment (target : Location) (op : AssignOp) (value : Expr) (span : Span) :
    (assignment target op value span).walk = checkAssignment target op value span := by
  simp only [assignment, walk_bind, target.walk_course, value.walk_course]
  rfl

end Course

mutual

theorem Stmt.walk_course (place : Place) (s : Stmt) : (s.course place).walk = visitStmt s := by
  cases s with
  | assign target op value span => exact walk_assignment target op value span
  | call called span => exact (walk_discard _).trans (by rw [called.walk_course, visitStmt])
  | ifThen e body span =>
    simp [Stmt.course, visitStmt, walk_condition, body.walk_course]
  | ifElse e body other span =>
    simp [Stmt.course, visitStmt, walk_condition, body.walk_course, other.walk_course]
  | forLoop var first last body span =>
    simp [Stmt.course, visitStmt, walk_loopBound, body.walk_course, Step.walk]
  | returnFrom value span => exact walk_returned value span
  | breakLoop span | continueLoop span => rfl
  | block inner span => simp [Stmt.course, visitStmt, inner.walk_course]

theorem Block.walk_course (place : Place) (b : Block) : (b.course place).walk = visitBlock b := by
  cases b with
  | mk locals statements span =>
    rw [Block.course, visitBlock, walk_bind, Stmt.walk_listCourse place statements]
    rfl

theorem Stmt.walk_listCourse (place : Place) (stmts : List Stmt) :
    (Stmt.listCourse place stmts).walk = visitStmts stmts := by
  cases stmts with
  | nil => rfl
  | cons s stmts =>
    rw [Stmt.listCourse, visitStmts, walk_bind, s.walk_course, Stmt.walk_listCourse place stmts]

end

theorem MethodDecl.walk_course (members : List Declaration) (method : MethodDecl) :
    (method.course members).walk = visitMethod method := by
  simp only [MethodDecl.course, visitMethod, walk_bind, walk_inScope, walk_inMethod, walk_perform,
    Block.walk_course, Step.walk]
  split
  · rfl
  · rfl

theorem MethodDecl.walk_listCourse (members : List Declaration) (methods : List MethodDecl) :
    (MethodDecl.listCourse members methods).walk = methods.forM visitMethod := by
  induction methods generalizing members with
  | nil => rfl
  | cons method methods ih =>
    rw [listCourse, walk_bind, method.walk_course, ih]
    rfl

theorem Program.walk_course (p : Program) : p.course.walk = visitProgram p := by
  simp only [Program.course, visitProgram, walk_bind, MethodDecl.walk_listCourse]
  rfl

end Decaf
