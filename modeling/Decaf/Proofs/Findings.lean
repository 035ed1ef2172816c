import Decaf.Analyzer.Program

namespace Decaf

open Analyzer

/-- What a walk can see from a place in a program. What is wrong there depends on this alone. -/
structure View where
  rules : RuleSet
  scopes : ScopeTable
  inLoop : Bool
  method : Option MethodContext

def Analyzer.view (a : Analyzer) : View := ⟨a.rules, a.scopes, a.loopDepth != 0, a.method⟩

def breach (condition : Bool) (defect : Defect) (span : Span) : List Diagnostic :=
  if condition then [] else [.ofSpan defect span]

theorem mem_breach_iff {condition : Bool} {defect : Defect} {span : Span} {d : Diagnostic} :
    d ∈ breach condition defect span ↔ condition = false ∧ d = .ofSpan defect span := by
  cases condition <;> simp [breach]

namespace View

def variableNamed? (v : View) (name : String) : Option Symbol :=
  (v.scopes.resolve name).filter fun s => !s.isMethod

def nameFindings (v : View) (name : String) (target : Bool) (span : Span) : List Diagnostic :=
  match v.scopes.resolve name with
  | none => [.ofSpan (.undeclaredVariable name target) span]
  | some symbol => breach (!symbol.isMethod) (.notAVariable name) span

/-- What is wrong with arguments, counted from `position`. -/
def argumentFindings (method : String) (position : Nat) :
    List ScalarType → List (Expr × Ty) → List Diagnostic
  | param :: params, (arg, found) :: args =>
    breach (found == .ofScalar param || found.isUnknown)
      (.argumentType method position (.ofScalar param) found) arg.span ++
    argumentFindings method (position + 1) params args
  | _, _ => []

def callFindings (v : View) (name : String) (args : List Expr) (found : List Ty) (span : Span) :
    List Diagnostic :=
  match v.scopes.resolve name with
  | none => [.ofSpan (.undeclaredMethod name) span]
  | some symbol =>
    match symbol.kind with
    | .method params =>
      if params.length = found.length then argumentFindings name 1 params (args.zip found)
      else [.ofSpan (.argumentCount name params.length found.length) span]
    | _ => [.ofSpan (.notCallable name) span]

def resultOf (v : View) (name : String) : Ty :=
  match v.scopes.resolve name with
  | none => .unknown
  | some symbol => if symbol.isMethod then symbol.type else .unknown

variable {v : View} {name : String} {span : Span} {d : Diagnostic}

theorem variableNamed?_eq_some {s : Symbol} (h : v.variableNamed? name = some s) :
    v.scopes.resolve name = some s ∧ s.isMethod = false := by
  obtain ⟨hs, hmethod⟩ := Option.filter_eq_some_iff.1 h
  exact ⟨hs, by simpa using hmethod⟩

theorem mem_nameFindings {target : Bool} (h : d ∈ v.nameFindings name target span) :
    (v.scopes.resolve name = none ∧ d = .ofSpan (.undeclaredVariable name target) span) ∨
    ∃ s, v.scopes.resolve name = some s ∧ s.isMethod = true ∧
      d = .ofSpan (.notAVariable name) span := by
  unfold nameFindings at h
  split at h
  · next hs => exact .inl ⟨hs, List.mem_singleton.1 h⟩
  · next s hs =>
    obtain ⟨hmethod, rfl⟩ := mem_breach_iff.1 h
    exact .inr ⟨s, hs, by simpa using hmethod, rfl⟩

theorem mem_argumentFindings {method : String} {position : Nat} {params : List ScalarType}
    {args : List (Expr × Ty)} (h : d ∈ argumentFindings method position params args) :
    ∃ arg ∈ args, ∃ place param, arg.2.isUnknown = false ∧
      d = .ofSpan (.argumentType method place (.ofScalar param) arg.2) arg.1.span := by
  induction params generalizing position args with
  | nil => cases h
  | cons param params ih =>
    cases args with
    | nil => cases h
    | cons arg args =>
      rcases List.mem_append.1 h with hhere | hrest
      · obtain ⟨hok, rfl⟩ := mem_breach_iff.1 hhere
        exact ⟨arg, .head _, position, param, (Bool.or_eq_false_iff.1 hok).2, rfl⟩
      · obtain ⟨other, hother, hd⟩ := ih hrest
        exact ⟨other, .tail _ hother, hd⟩

theorem mem_callFindings {args : List Expr} {found : List Ty}
    (h : d ∈ v.callFindings name args found span) :
    (v.scopes.resolve name = none ∧ d = .ofSpan (.undeclaredMethod name) span) ∨
    ∃ s, v.scopes.resolve name = some s ∧
      ((s.isMethod = false ∧ d = .ofSpan (.notCallable name) span) ∨
        (∃ expected, d = .ofSpan (.argumentCount name expected found.length) span) ∨
        ∃ arg ∈ args.zip found, ∃ place param, arg.2.isUnknown = false ∧
          d = .ofSpan (.argumentType name place (.ofScalar param) arg.2) arg.1.span) := by
  cases hs : v.scopes.resolve name with
  | none =>
    simp only [callFindings, hs] at h
    exact .inl ⟨rfl, List.mem_singleton.1 h⟩
  | some s =>
    refine .inr ⟨s, rfl, ?_⟩
    cases hk : s.kind with
    | method params =>
      simp only [callFindings, hs, hk] at h
      split at h
      · exact .inr (.inr (mem_argumentFindings h))
      · exact .inr (.inl ⟨params.length, List.mem_singleton.1 h⟩)
    | field | localVar | parameter =>
      simp only [callFindings, hs, hk] at h
      exact .inl ⟨by rw [Symbol.isMethod, hk], List.mem_singleton.1 h⟩

end View

def Location.typeIn (v : View) : Location → Ty
  | .scalar name _ => ((v.variableNamed? name).map Symbol.type).getD .unknown
  | .indexed name _ _ => ((v.variableNamed? name).bind fun s => s.type.element?).getD .unknown

def Call.typeIn (v : View) : Call → Ty
  | .method name _ _ => v.resultOf name
  | .callout _ _ _ => .int

/-- The type of an expression, whatever is wrong with its parts. -/
def Expr.typeIn (v : View) : Expr → Ty
  | .location place _ => place.typeIn v
  | .call called _ => called.typeIn v
  | .int _ _ => .int
  | .char _ _ => v.rules.charType
  | .bool _ _ => .boolean
  | .unary op _ _ => op.resultType
  | .binary op _ _ _ => op.category.resultType
  | .paren inner _ => inner.typeIn v

mutual

def Expr.findings (v : View) : Expr → List Diagnostic
  | .location place span => place.findings v span.line false
  | .call called _ => called.findings v
  | .int _ _ | .char _ _ | .bool _ _ => []
  | .unary _ operand _ => operand.findings v
  | .binary op left right span =>
    left.findings v ++ right.findings v ++
      breach (v.rules.operandsOk op.category (left.typeIn v) (right.typeIn v))
        (.typeMismatch (.operator op.category) left.text right.text) span
  | .paren inner _ => inner.findings v

def Location.findings (v : View) : Location → (line : Nat) → (target : Bool) → List Diagnostic
  | .scalar name span, line, target => v.nameFindings name target (span.onLine line)
  | .indexed name index span, line, target =>
    index.findings v ++ v.nameFindings name target (span.onLine line) ++
      match v.variableNamed? name with
      | none => []
      | some symbol =>
        if symbol.type.element?.isSome then
          breach ((index.typeIn v).isInt || (index.typeIn v).isUnknown)
            (.typeMismatch .arrayIndex index.text (index.typeIn v).text) index.span
        else [.ofSpan (.notAnArray name) (span.onLine line)]

def Call.findings (v : View) : Call → List Diagnostic
  | .method name args span =>
    Expr.listFindings v args ++ v.callFindings name args (args.map (Expr.typeIn v)) span
  | .callout _ args _ => CalloutArg.listFindings v args

def Expr.listFindings (v : View) : List Expr → List Diagnostic
  | [] => []
  | arg :: args => arg.findings v ++ Expr.listFindings v args

def CalloutArg.listFindings (v : View) : List CalloutArg → List Diagnostic
  | [] => []
  | .expr value :: args => value.findings v ++ CalloutArg.listFindings v args
  | .string _ :: args => CalloutArg.listFindings v args

end

/-- A name on its way into a scope: the line on which a clash is reported, and what is wrong with
the declaration in itself. -/
structure Declaration where
  symbol : Symbol
  line : Nat
  flaws : List Diagnostic

namespace Frame

/-- The first declaration of a name stays. -/
def add (frame : Frame) (symbol : Symbol) : Frame :=
  if (frame.find symbol.name).isNone then frame ++ [symbol] else frame

def addAll (frame : Frame) (ds : List Declaration) : Frame :=
  ds.foldl (fun f d => f.add d.symbol) frame

def findings (frame : Frame) : List Declaration → List Diagnostic
  | [] => []
  | d :: ds =>
    d.flaws ++
    breach (frame.find d.symbol.name).isNone
      (.duplicateDeclaration d.symbol.name d.symbol.type) (d.symbol.span.onLine d.line) ++
    (frame.add d.symbol).findings ds

theorem findings_append (frame : Frame) (xs ys : List Declaration) :
    frame.findings (xs ++ ys) = frame.findings xs ++ (frame.addAll xs).findings ys := by
  induction xs generalizing frame with
  | nil => rfl
  | cons x xs ih => simp [findings, addAll, ih]

theorem addAll_append (frame : Frame) (xs ys : List Declaration) :
    frame.addAll (xs ++ ys) = (frame.addAll xs).addAll ys := List.foldl_append

theorem find_append (frame others : Frame) (name : String) :
    Frame.find (frame ++ others) name = (frame.find name).or (others.find name) := List.find?_append

theorem find_add (frame : Frame) (symbol : Symbol) (name : String) :
    (frame.add symbol).find name = (frame.find name).or (Frame.find [symbol] name) := by
  unfold add
  split
  · exact find_append frame [symbol] name
  · next htaken =>
    have hne : frame.find symbol.name ≠ none := mt Option.isNone_iff_eq_none.mpr htaken
    obtain ⟨first, hfirst⟩ := Option.ne_none_iff_exists'.mp hne
    by_cases hname : symbol.name = name
    · rw [← hname, hfirst, Option.some_or]
    · simp [find, hname]

/-- A scope keeps the first declaration of every name. -/
theorem find_addAll (frame : Frame) (ds : List Declaration) (name : String) :
    (frame.addAll ds).find name =
      (frame.find name).or (Frame.find (ds.map Declaration.symbol) name) := by
  induction ds generalizing frame with
  | nil => simp [addAll, find]
  | cons d ds ih =>
    change ((frame.add d.symbol).addAll ds).find name = _
    rw [ih, find_add, Option.or_assoc, ← find_append, List.map_cons, List.singleton_append]

end Frame

def VarDecl.declarations (decl : VarDecl) : List Declaration :=
  decl.names.map fun name =>
    ⟨⟨name.text, .localVar, .ofScalar decl.type, name.span⟩, decl.span.line, []⟩

theorem locals_flaws (locals : List VarDecl) :
    ∀ d ∈ locals.flatMap VarDecl.declarations, d.flaws = [] := by
  intro d hd
  simp only [List.mem_flatMap, VarDecl.declarations, List.mem_map] at hd
  obtain ⟨decl, -, name, -, rfl⟩ := hd
  rfl

def Block.declarations (block : Block) : List Declaration :=
  block.locals.flatMap VarDecl.declarations

namespace View

def declaring (v : View) (ds : List Declaration) : View :=
  { v with scopes := { v.scopes with innermost := v.scopes.innermost.addAll ds } }

def entering (v : View) : View := { v with scopes := v.scopes.enter }

def looping (v : View) : View := { v with inLoop := true }

/-- The names of a fresh scope hide those around it. -/
theorem resolve_declaring_entering (v : View) (ds : List Declaration) (name : String) :
    (v.entering.declaring ds).scopes.resolve name =
      ((Frame.addAll [] ds).find name).or (v.scopes.resolve name) := by
  have hcons : (v.entering.declaring ds).scopes.resolve name =
      (Frame.addAll [] ds :: v.scopes.innermost :: v.scopes.outer).findSome?
        fun frame => frame.find name := rfl
  rw [hcons, List.findSome?_cons, ScopeTable.resolve]
  cases (Frame.addAll [] ds).find name <;> rfl

def wantedFindings (v : View) (e : Expr) (ok : Ty → Bool) (defect : Ty → Defect) :
    List Diagnostic :=
  e.findings v ++
    breach (ok (e.typeIn v) || (e.typeIn v).isUnknown) (defect (e.typeIn v)) e.span

def conditionFindings (v : View) (condition : Expr) : List Diagnostic :=
  v.wantedFindings condition Ty.isBoolean fun type =>
    .typeMismatch .condition type.text Ty.boolean.text

def boundFindings (v : View) (bound : Expr) : List Diagnostic :=
  v.wantedFindings bound Ty.isInt fun type => .typeMismatch .loopBound bound.text type.text

def loopVariableFindings (v : View) (var : Name) : List Diagnostic :=
  v.nameFindings var.text false var.span ++
    match v.variableNamed? var.text with
    | none => []
    | some symbol =>
      breach symbol.type.isInt (.typeMismatch .loopVariable var.text symbol.type.text) var.span

def returnType (v : View) (value : Option Expr) : Ty := (value.map (Expr.typeIn v)).getD .void

def returnFindings (v : View) (value : Option Expr) (span : Span) : List Diagnostic :=
  (value.map (Expr.findings v)).getD [] ++
    match v.method with
    | none => []
    | some method =>
      breach (v.returnType value == method.returnType || (v.returnType value).isUnknown)
        (.returnMismatch method.name method.returnType (v.returnType value)) span

end View

mutual

def Stmt.findings (v : View) : Stmt → List Diagnostic
  | .assign target op value span =>
    target.findings v span.line true ++ value.findings v ++
      breach (v.rules.assignmentOk op (target.typeIn v) (value.typeIn v))
        (.typeMismatch .assignment (target.typeIn v).text (value.typeIn v).text) span
  | .call called _ => called.findings v
  | .ifThen condition thenBlock _ =>
    v.conditionFindings condition ++ thenBlock.findings v.entering
  | .ifElse condition thenBlock elseBlock _ =>
    v.conditionFindings condition ++ thenBlock.findings v.entering ++ elseBlock.findings v.entering
  | .forLoop var first last body _ =>
    v.loopVariableFindings var ++ v.boundFindings first ++ v.boundFindings last ++
      body.findings v.looping.entering
  | .returnFrom value span => v.returnFindings value span
  | .breakLoop span => breach v.inLoop (.invalidControlFlow "break") span
  | .continueLoop span => breach v.inLoop (.invalidControlFlow "continue") span
  | .block block _ => block.findings v.entering

def Block.findings (v : View) : Block → List Diagnostic
  | .mk locals statements span =>
    v.scopes.innermost.findings (Block.mk locals statements span).declarations ++
      Stmt.listFindings (v.declaring (Block.mk locals statements span).declarations) statements

def Stmt.listFindings (v : View) : List Stmt → List Diagnostic
  | [] => []
  | stmt :: stmts => stmt.findings v ++ Stmt.listFindings v stmts

end

/-- The type a field is declared with. An array whose size is no legal one has length 0. -/
def FieldDecl.typeOf (decl : FieldDecl) (name : FieldName) : Ty :=
  match name.arraySize with
  | none => .ofScalar decl.type
  | some size => .array decl.type ((ArraySize.read? size).getD 0)

def FieldDecl.sizeFindings (decl : FieldDecl) (name : FieldName) : List Diagnostic :=
  match name.arraySize with
  | none => []
  | some size =>
    breach (ArraySize.read? size).isSome (.invalidArraySize name.name size)
      (name.span.onLine decl.span.line)

def FieldDecl.declarations (decl : FieldDecl) : List Declaration :=
  decl.names.map fun name =>
    ⟨⟨name.name, .field, decl.typeOf name, name.span⟩, decl.span.line, decl.sizeFindings name⟩

def MethodDecl.declaration (method : MethodDecl) : Declaration :=
  ⟨methodSymbol method, method.span.line, []⟩

def Param.declaration (param : Param) : Declaration :=
  ⟨⟨param.name, .parameter, .ofScalar param.type, param.span⟩, param.span.line, []⟩

theorem params_flaws (params : List Param) :
    ∀ d ∈ params.map Param.declaration, d.flaws = [] := by
  intro d hd
  obtain ⟨param, -, rfl⟩ := List.mem_map.mp hd
  rfl

namespace MethodDecl

/-- What can be seen from the body of a method in front of its local variables. -/
def bodyView (v : View) (method : MethodDecl) : View :=
  { (v.declaring [method.declaration]).entering.declaring (method.params.map Param.declaration) with
    method := some ⟨method.name, .ofReturn method.returnType⟩ }

def findings (v : View) (method : MethodDecl) : List Diagnostic :=
  v.scopes.innermost.findings [method.declaration] ++
    Frame.findings [] (method.params.map Param.declaration) ++
    method.body.findings (method.bodyView v)

def listFindings (v : View) : List MethodDecl → List Diagnostic
  | [] => []
  | method :: methods =>
    method.findings v ++ listFindings (v.declaring [method.declaration]) methods

end MethodDecl

namespace Program

def fieldDeclarations (p : Program) : List Declaration := p.fields.flatMap FieldDecl.declarations

def mainFindings (p : Program) : List Diagnostic :=
  if p.methods.any fun m => m.name = "main" then []
  else [.ofLine .missingMainMethod p.endLine]

def findings (rules : RuleSet) (p : Program) : List Diagnostic :=
  Frame.findings [] p.fieldDeclarations ++
    MethodDecl.listFindings
      ((View.mk rules .root false none).declaring p.fieldDeclarations) p.methods ++
    p.mainFindings

end Program

end Decaf
