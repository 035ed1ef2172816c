import Decaf.Proofs.Acceptance

namespace Decaf

open Typing

inductive Use where
  | variable (target : Bool)
  | element (target : Bool)
  | loopVariable
  | method
deriving DecidableEq

/-- A use of a name, the scopes around it from the inside out, and the place it is reported at. -/
structure Reference where
  env : Env
  use : Use
  name : String
  span : Span

namespace Reference

/-- What is wrong with the way the name is bound. -/
def defect? (r : Reference) : Option Defect :=
  match r.env.meaning? r.name with
  | none =>
    match r.use with
    | .variable target | .element target => some (.undeclaredVariable r.name target)
    | .loopVariable => some (.undeclaredVariable r.name false)
    | .method => some (.undeclaredMethod r.name)
  | some (.method _ _) =>
    match r.use with
    | .variable _ | .element _ | .loopVariable => some (.notAVariable r.name)
    | .method => none
  | some (.scalar _) =>
    match r.use with
    | .variable _ | .loopVariable => none
    | .element _ => some (.notAnArray r.name)
    | .method => some (.notCallable r.name)
  | some (.array _) =>
    match r.use with
    | .variable _ | .element _ | .loopVariable => none
    | .method => some (.notCallable r.name)

def diagnostic? (r : Reference) : Option Diagnostic :=
  r.defect?.map fun defect => .ofSpan defect r.span

end Reference

mutual

/-- The uses of names in an expression, those in its parts before its own. -/
def Expr.references (env : Env) : Expr → List Reference
  | .location place span => place.references env span.line false
  | .call called _ => called.references env
  | .int _ _ | .char _ _ | .bool _ _ => []
  | .unary _ operand _ => operand.references env
  | .binary _ left right _ => left.references env ++ right.references env
  | .paren inner _ => inner.references env

def Location.references (env : Env) : Location → (line : Nat) → (target : Bool) → List Reference
  | .scalar name span, line, target => [⟨env, .variable target, name, span.onLine line⟩]
  | .indexed name index span, line, target =>
    index.references env ++ [⟨env, .element target, name, span.onLine line⟩]

def Call.references (env : Env) : Call → List Reference
  | .method name args span => Expr.listReferences env args ++ [⟨env, .method, name, span⟩]
  | .callout _ args _ => CalloutArg.listReferences env args

def Expr.listReferences (env : Env) : List Expr → List Reference
  | [] => []
  | arg :: args => arg.references env ++ Expr.listReferences env args

def CalloutArg.listReferences (env : Env) : List CalloutArg → List Reference
  | [] => []
  | .expr value :: args => value.references env ++ CalloutArg.listReferences env args
  | .string _ :: args => CalloutArg.listReferences env args

end

mutual

def Stmt.references (env : Env) : Stmt → List Reference
  | .assign target _ value span => target.references env span.line true ++ value.references env
  | .call called _ => called.references env
  | .ifThen condition thenBlock _ => condition.references env ++ thenBlock.references env
  | .ifElse condition thenBlock elseBlock _ =>
    condition.references env ++ thenBlock.references env ++ elseBlock.references env
  | .forLoop var first last body _ =>
    [⟨env, .loopVariable, var.text, var.span⟩] ++ first.references env ++ last.references env ++
      body.references env
  | .returnFrom none _ => []
  | .returnFrom (some value) _ => value.references env
  | .breakLoop _ | .continueLoop _ => []
  | .block inner _ => inner.references env

/-- A block has a scope of its own around its statements. -/
def Block.references (env : Env) : Block → List Reference
  | .mk locals statements _ => Stmt.listReferences (localScope locals :: env) statements

def Stmt.listReferences (env : Env) : List Stmt → List Reference
  | [] => []
  | stmt :: stmts => stmt.references env ++ Stmt.listReferences env stmts

end

def MethodDecl.references (env : Env) (method : MethodDecl) : List Reference :=
  Stmt.listReferences (methodScope method :: env) method.body.statements

/-- A method sees the names of the class that come before it, and its own. -/
def MethodDecl.listReferences (before : Scope) : List MethodDecl → List Reference
  | [] => []
  | method :: methods =>
    method.references [before ++ methodsScope [method]] ++
      listReferences (before ++ methodsScope [method]) methods

def Program.references (p : Program) : List Reference :=
  MethodDecl.listReferences (fieldScope p.fields) p.methods

/-- Defects in the way a name is bound. -/
def Defect.isNaming : Defect → Bool
  | .undeclaredVariable _ _ | .undeclaredMethod _ | .notAVariable _ | .notCallable _
  | .notAnArray _ => true
  | _ => false

def naming (found : List Diagnostic) : List Diagnostic := found.filter fun d => d.defect.isNaming

@[simp]
theorem naming_nil : naming [] = [] := rfl

@[simp]
theorem naming_append (xs ys : List Diagnostic) : naming (xs ++ ys) = naming xs ++ naming ys :=
  List.filter_append xs ys

theorem naming_breach {condition : Bool} {defect : Defect} {span : Span}
    (h : defect.isNaming = false) : naming (breach condition defect span) = [] := by
  cases condition
  · simp [breach, naming, Diagnostic.ofSpan, h]
  · rfl

/-- The names that can be seen have the meanings that the scopes around them give. -/
def View.Knows (v : View) (env : Env) : Prop :=
  ∀ name, Option.Rel Stands (v.scopes.resolve name) (env.meaning? name)

theorem knows_fresh {ds : List Declaration} {scope : Scope}
    (h : Mirrors (ds.map Declaration.symbol) scope) (name : String) :
    Option.Rel Stands ((Frame.addAll [] ds).find name) (scope.lookup name) := by
  have hfind : (Frame.addAll [] ds).find name = Frame.find (ds.map Declaration.symbol) name := by
    rw [Frame.find_addAll, Frame.find, List.find?_nil, Option.none_or]
  rw [hfind]
  exact h.find name

theorem View.Knows.declaring_entering {v : View} {env : Env} {ds : List Declaration}
    {scope : Scope} (h : v.Knows env) (hscope : Mirrors (ds.map Declaration.symbol) scope) :
    (v.entering.declaring ds).Knows (scope :: env) := by
  intro name
  have hmeaning : Env.meaning? (scope :: env) name =
      (scope.lookup name).or (env.meaning? name) := by
    rw [Env.meaning?, List.findSome?_cons]
    cases scope.lookup name <;> rfl
  have hfresh := knows_fresh hscope name
  rw [View.resolve_declaring_entering, hmeaning]
  generalize (Frame.addAll [] ds).find name = found at hfresh
  generalize scope.lookup name = meaning at hfresh
  cases hfresh with
  | none => exact h name
  | some hs => exact .some hs

section

variable {v : View} {env : Env}

/-- What a name is bound to, in the view and in the scopes. -/
inductive Bound (v : View) (env : Env) (name : String) : Prop
  | toNothing : v.scopes.resolve name = none → env.meaning? name = none → Bound v env name
  | toScalar {s : Symbol} {type : ScalarType} : v.scopes.resolve name = some s →
      s.isMethod = false → s.type = .ofScalar type →
      env.meaning? name = some (.scalar type) → Bound v env name
  | toArray {s : Symbol} {element : ScalarType} {length : Nat} : v.scopes.resolve name = some s →
      s.isMethod = false → s.type = .array element length →
      env.meaning? name = some (.array element) → Bound v env name
  | toMethod {s : Symbol} {params : List ScalarType} {result : Option ScalarType} :
      v.scopes.resolve name = some s → s.isMethod = true → s.kind = .method params →
      env.meaning? name = some (.method params result) → Bound v env name

theorem View.Knows.bound (h : v.Knows env) (name : String) : Bound v env name := by
  have hname := h name
  cases hs : v.scopes.resolve name with
  | none =>
    rw [hs] at hname
    cases hm : env.meaning? name with
    | none => exact .toNothing hs hm
    | some meaning =>
      rw [hm] at hname
      cases hname
  | some s =>
    rw [hs] at hname
    cases hm : env.meaning? name with
    | none =>
      rw [hm] at hname
      cases hname
    | some meaning =>
      rw [hm] at hname
      cases hname with
      | some hstands =>
        cases hstands with
        | scalar hvar ht => exact .toScalar hs hvar ht hm
        | array hvar ht => exact .toArray hs hvar ht hm
        | method hk ht => exact .toMethod hs (by rw [Symbol.isMethod, hk]) hk hm

theorem naming_argumentFindings (method : String) (position : Nat) (params : List ScalarType)
    (args : List (Expr × Ty)) :
    naming (View.argumentFindings method position params args) = [] := by
  induction params generalizing position args with
  | nil => rfl
  | cons param params ih =>
    cases args with
    | nil => rfl
    | cons arg args =>
      rw [View.argumentFindings, naming_append, ih, naming_breach rfl, List.append_nil]

theorem naming_callFindings (h : v.Knows env) (name : String) (args : List Expr) (found : List Ty)
    (span : Span) :
    naming (v.callFindings name args found span) =
      [(⟨env, .method, name, span⟩ : Reference)].filterMap Reference.diagnostic? := by
  cases h.bound name with
  | toNothing hs hm =>
    simp [View.callFindings, Reference.diagnostic?, Reference.defect?, hs, hm, naming,
      Diagnostic.ofSpan, Defect.isNaming]
  | @toScalar s _ hs hvar _ hm | @toArray s _ _ hs hvar _ hm =>
    have hcall : v.callFindings name args found span = [.ofSpan (.notCallable name) span] := by
      cases hk : s.kind with
      | method params => simp [Symbol.isMethod, hk] at hvar
      | field | localVar | parameter => simp [View.callFindings, hs, hk]
    simp [hcall, Reference.diagnostic?, Reference.defect?, hm, naming, Diagnostic.ofSpan,
      Defect.isNaming]
  | toMethod hs _ hk hm =>
    simp only [View.callFindings, hs, hk, Reference.diagnostic?, Reference.defect?, hm,
      List.filterMap_cons, List.filterMap_nil, Option.map_none]
    split
    · exact naming_argumentFindings name 1 _ _
    · rfl

theorem naming_nameFindings (h : v.Knows env) (name : String) (target : Bool) (span : Span) :
    naming (v.nameFindings name target span) =
      [(⟨env, .variable target, name, span⟩ : Reference)].filterMap Reference.diagnostic? := by
  cases h.bound name with
  | toNothing hs hm =>
    simp [View.nameFindings, Reference.diagnostic?, Reference.defect?, hs, hm, naming,
      Diagnostic.ofSpan, Defect.isNaming]
  | toScalar hs hvar _ hm | toArray hs hvar _ hm | toMethod hs hvar _ hm =>
    simp [View.nameFindings, Reference.diagnostic?, Reference.defect?, hs, hm, hvar, naming,
      breach, Diagnostic.ofSpan, Defect.isNaming]

theorem naming_loopVariable (h : v.Knows env) (var : Name) :
    naming (v.loopVariableFindings var) =
      [(⟨env, .loopVariable, var.text, var.span⟩ : Reference)].filterMap
        Reference.diagnostic? := by
  have hname : naming (v.loopVariableFindings var) =
      naming (v.nameFindings var.text false var.span) := by
    rw [View.loopVariableFindings, naming_append]
    cases v.variableNamed? var.text with
    | none => exact List.append_nil _
    | some symbol => rw [naming_breach rfl, List.append_nil]
  rw [hname, naming_nameFindings h]
  -- For the binding it does not matter whether a loop or an expression uses the variable.
  cases hm : env.meaning? var.text with
  | none => simp [Reference.diagnostic?, Reference.defect?, hm]
  | some meaning => cases meaning <;> simp [Reference.diagnostic?, Reference.defect?, hm]

theorem naming_element (h : v.Knows env) (name : String) (index : Expr) (span : Span) (line : Nat)
    (target : Bool) :
    naming ((Location.indexed name index span).findings v line target) =
      naming (index.findings v) ++
        [(⟨env, .element target, name, span.onLine line⟩ : Reference)].filterMap
          Reference.diagnostic? := by
  simp only [Location.findings, naming_append, List.append_assoc,
    naming_nameFindings h name target (span.onLine line), List.append_cancel_left_eq]
  cases h.bound name with
  | toNothing hs hm =>
    have hvar : v.variableNamed? name = none := by simp [View.variableNamed?, hs]
    simp [Reference.diagnostic?, Reference.defect?, hm, hvar]
  | toMethod hs hmethod _ hm =>
    have hvar : v.variableNamed? name = none := by simp [View.variableNamed?, hs, hmethod]
    simp [Reference.diagnostic?, Reference.defect?, hm, hvar]
  | @toScalar s type hs hmethod ht hm =>
    have hvar : v.variableNamed? name = some s := by simp [View.variableNamed?, hs, hmethod]
    have helement : s.type.element? = none := by cases type <;> simp [ht, Ty.ofScalar, Ty.element?]
    simp [Reference.diagnostic?, Reference.defect?, hm, hvar, helement, naming, Diagnostic.ofSpan,
      Defect.isNaming]
  | @toArray s _ _ hs hmethod ht hm =>
    have hvar : v.variableNamed? name = some s := by simp [View.variableNamed?, hs, hmethod]
    have helement : s.type.element?.isSome = true := by simp [ht, Ty.element?]
    simp only [hvar, helement, if_true]
    rw [naming_breach rfl]
    simp [Reference.diagnostic?, Reference.defect?, hm]

mutual

theorem Expr.naming_findings (h : v.Knows env) : (e : Expr) →
    naming (e.findings v) = (e.references env).filterMap Reference.diagnostic?
  | .location place span => place.naming_findings h span.line false
  | .call called _ => called.naming_findings h
  | .int _ _ | .char _ _ | .bool _ _ => rfl
  | .unary _ operand _ => operand.naming_findings h
  | .binary op left right span => by
    rw [Expr.findings, naming_append, naming_append, naming_breach rfl, List.append_nil,
      left.naming_findings h, right.naming_findings h, Expr.references, List.filterMap_append]
  | .paren inner _ => inner.naming_findings h

theorem Location.naming_findings (h : v.Knows env) : (place : Location) → (line : Nat) →
    (target : Bool) → naming (place.findings v line target) =
      (place.references env line target).filterMap Reference.diagnostic?
  | .scalar name span, line, target => naming_nameFindings h name target (span.onLine line)
  | .indexed name index span, line, target => by
    rw [naming_element h, index.naming_findings h, Location.references, List.filterMap_append]

theorem Call.naming_findings (h : v.Knows env) : (called : Call) →
    naming (called.findings v) = (called.references env).filterMap Reference.diagnostic?
  | .method name args span => by
    rw [Call.findings, naming_append, Expr.naming_listFindings h args, naming_callFindings h,
      Call.references, List.filterMap_append]
  | .callout _ args _ => CalloutArg.naming_listFindings h args

theorem Expr.naming_listFindings (h : v.Knows env) : (args : List Expr) →
    naming (Expr.listFindings v args) =
      (Expr.listReferences env args).filterMap Reference.diagnostic?
  | [] => rfl
  | arg :: args => by
    rw [Expr.listFindings, naming_append, arg.naming_findings h, Expr.naming_listFindings h args,
      Expr.listReferences, List.filterMap_append]

theorem CalloutArg.naming_listFindings (h : v.Knows env) : (args : List CalloutArg) →
    naming (CalloutArg.listFindings v args) =
      (CalloutArg.listReferences env args).filterMap Reference.diagnostic?
  | [] => rfl
  | .expr value :: args => by
    rw [CalloutArg.listFindings, naming_append, value.naming_findings h,
      CalloutArg.naming_listFindings h args, CalloutArg.listReferences, List.filterMap_append]
  | .string _ :: args => CalloutArg.naming_listFindings h args

end

theorem naming_wantedFindings (h : v.Knows env) (e : Expr) {ok : Ty → Bool} {defect : Ty → Defect}
    (hdefect : ∀ type, (defect type).isNaming = false) :
    naming (v.wantedFindings e ok defect) =
      (e.references env).filterMap Reference.diagnostic? := by
  rw [View.wantedFindings, naming_append, naming_breach (hdefect _), List.append_nil,
    e.naming_findings h]

theorem naming_returnFindings (h : v.Knows env) (value : Option Expr) (span : Span) :
    naming (v.returnFindings value span) =
      ((Stmt.returnFrom value span).references env).filterMap Reference.diagnostic? := by
  have hvalue : naming (v.returnFindings value span) =
      naming ((value.map (Expr.findings v)).getD []) := by
    rw [View.returnFindings, naming_append]
    cases v.method with
    | none => exact List.append_nil _
    | some method => rw [naming_breach rfl, List.append_nil]
  rw [hvalue]
  cases value with
  | none => rfl
  | some value => exact value.naming_findings h

end

theorem naming_frameFindings (frame : Frame) {ds : List Declaration}
    (h : ∀ d ∈ ds, naming d.flaws = []) : naming (frame.findings ds) = [] := by
  induction ds generalizing frame with
  | nil => rfl
  | cons d ds ih =>
    rw [Frame.findings, naming_append, naming_append, naming_breach rfl, h d (by simp),
      ih _ fun e he => h e (by simp [he])]
    rfl

theorem naming_locals (frame : Frame) (locals : List VarDecl) :
    naming (frame.findings (locals.flatMap VarDecl.declarations)) = [] :=
  naming_frameFindings frame fun d hd => by rw [locals_flaws locals d hd, naming_nil]

mutual

theorem Stmt.naming_findings {v : View} {env : Env} (h : v.Knows env) : (s : Stmt) →
    naming (s.findings v) = (s.references env).filterMap Reference.diagnostic?
  | .assign target op value span => by
    rw [Stmt.findings, naming_append, naming_append, naming_breach rfl, List.append_nil,
      target.naming_findings h, value.naming_findings h, Stmt.references, List.filterMap_append]
  | .call called _ => called.naming_findings h
  | .ifThen condition thenBlock _ => by
    rw [Stmt.findings, naming_append, View.conditionFindings,
      naming_wantedFindings h condition fun _ => rfl, thenBlock.naming_findings h,
      Stmt.references, List.filterMap_append]
  | .ifElse condition thenBlock elseBlock _ => by
    rw [Stmt.findings, naming_append, naming_append, View.conditionFindings,
      naming_wantedFindings h condition fun _ => rfl, thenBlock.naming_findings h,
      elseBlock.naming_findings h, Stmt.references, List.filterMap_append, List.filterMap_append]
  | .forLoop var first last body _ => by
    have hlooping : v.looping.Knows env := h
    rw [Stmt.findings, naming_append, naming_append, naming_append, naming_loopVariable h,
      View.boundFindings, View.boundFindings, naming_wantedFindings h first fun _ => rfl,
      naming_wantedFindings h last fun _ => rfl, body.naming_findings hlooping, Stmt.references,
      List.filterMap_append, List.filterMap_append, List.filterMap_append]
  | .returnFrom value span => naming_returnFindings h value span
  | .breakLoop _ | .continueLoop _ => naming_breach rfl
  | .block inner _ => inner.naming_findings h

theorem Block.naming_findings {v : View} {env : Env} (h : v.Knows env) : (b : Block) →
    naming (b.findings v.entering) = (b.references env).filterMap Reference.diagnostic?
  | .mk locals statements _ => by
    have hinner := h.declaring_entering (locals_mirror locals)
    rw [Block.findings, naming_append, Block.declarations, Block.locals, naming_locals,
      List.nil_append, Stmt.naming_listFindings hinner statements, Block.references]

theorem Stmt.naming_listFindings {v : View} {env : Env} (h : v.Knows env) :
    (stmts : List Stmt) → naming (Stmt.listFindings v stmts) =
      (Stmt.listReferences env stmts).filterMap Reference.diagnostic?
  | [] => rfl
  | s :: stmts => by
    rw [Stmt.listFindings, naming_append, s.naming_findings h, Stmt.naming_listFindings h stmts,
      Stmt.listReferences, List.filterMap_append]

end

theorem MethodDecl.naming_findings {v : View} {env : Env} (method : MethodDecl)
    (h : (v.declaring [method.declaration]).Knows env) :
    naming (method.findings v) = (method.references env).filterMap Reference.diagnostic? := by
  obtain ⟨name, returnType, params, ⟨locals, statements, bodySpan⟩, span⟩ := method
  let method : MethodDecl := ⟨name, returnType, params, .mk locals statements bodySpan, span⟩
  let ds : List Declaration :=
    params.map Param.declaration ++ locals.flatMap VarDecl.declarations
  have hmirror : Mirrors (ds.map Declaration.symbol) (methodScope method) := by
    rw [List.map_append]
    exact (params_mirror params).append (locals_mirror locals)
  have hscopes :
      ((method.bodyView v).declaring (locals.flatMap VarDecl.declarations)).scopes =
        ((v.declaring [method.declaration]).entering.declaring ds).scopes := by
    rw [View.declaring, View.declaring, Frame.addAll_append]
    rfl
  have hinner : ((method.bodyView v).declaring (locals.flatMap VarDecl.declarations)).Knows
      (methodScope method :: env) := by
    intro name
    rw [hscopes]
    exact h.declaring_entering hmirror name
  rw [MethodDecl.findings, naming_append, naming_append, Block.findings, naming_append,
    naming_frameFindings _ (by simp [MethodDecl.declaration]),
    naming_frameFindings _ fun d hd => by rw [params_flaws params d hd, naming_nil],
    Block.declarations, Block.locals, naming_locals, List.nil_append, List.nil_append,
    List.nil_append, Stmt.naming_listFindings hinner statements]
  rfl

theorem knows_class (rules : RuleSet) {ds : List Declaration} {scope : Scope}
    (h : Mirrors (ds.map Declaration.symbol) scope) :
    ((View.mk rules .root false none).declaring ds).Knows [scope] := by
  intro name
  have hresolve : ((View.mk rules .root false none).declaring ds).scopes.resolve name =
      (Frame.addAll [] ds).find name := by
    change [Frame.addAll [] ds].findSome? (fun frame => frame.find name) = _
    rw [List.findSome?_singleton]
  have hmeaning : Env.meaning? [scope] name = scope.lookup name := List.findSome?_singleton
  rw [hresolve, hmeaning]
  exact knows_fresh h name

/-- Each method adds its name to those in front of it before it is walked. -/
theorem MethodDecl.naming_listFindings (rules : RuleSet) (methods : List MethodDecl)
    {ds : List Declaration} {scope : Scope} (h : Mirrors (ds.map Declaration.symbol) scope) :
    naming (MethodDecl.listFindings ((View.mk rules .root false none).declaring ds) methods) =
      (MethodDecl.listReferences scope methods).filterMap Reference.diagnostic? := by
  induction methods generalizing ds scope with
  | nil => rfl
  | cons method methods ih =>
    have hnext : Mirrors ((ds ++ [method.declaration]).map Declaration.symbol)
        (scope ++ methodsScope [method]) := by
      rw [List.map_append]
      exact h.append (methods_mirror [method])
    have hview : ((View.mk rules .root false none).declaring ds).declaring [method.declaration] =
        (View.mk rules .root false none).declaring (ds ++ [method.declaration]) := by
      rw [View.declaring, View.declaring, View.declaring, Frame.addAll_append]
    have hmethod := method.naming_findings (hview ▸ knows_class rules hnext)
    rw [MethodDecl.listFindings, naming_append, hmethod, hview, ih hnext,
      MethodDecl.listReferences, List.filterMap_append]

theorem naming_fields (p : Program) : naming (Frame.findings [] p.fieldDeclarations) = [] := by
  refine naming_frameFindings [] fun d hd => ?_
  obtain ⟨decl, -, hd⟩ := List.mem_flatMap.mp hd
  obtain ⟨name, -, rfl⟩ := List.mem_map.mp hd
  change naming (decl.sizeFindings name) = []
  unfold FieldDecl.sizeFindings
  cases name.arraySize with
  | none => rfl
  | some size => exact naming_breach rfl

/-- The complaints about names are those about the uses whose name is bound to nothing or to the
wrong kind of thing, one for each, in the order of the walk. -/
theorem naming_analyze_eq_references (rules : RuleSet) (p : Program) :
    naming (analyze rules p) = p.references.filterMap Reference.diagnostic? := by
  have hmain : naming p.mainFindings = [] := by
    unfold Program.mainFindings
    split <;> rfl
  rw [analyze_eq_findings, Program.findings, naming_append, naming_append, naming_fields, hmain,
    List.append_nil, List.nil_append, Program.references]
  exact MethodDecl.naming_listFindings rules p.methods (fields_mirror p.fields)

end Decaf
