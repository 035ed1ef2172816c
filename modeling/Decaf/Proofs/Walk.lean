import Decaf.Proofs.Findings

namespace Decaf

open Analyzer

namespace Analyzer

def reporting (a : Analyzer) (found : List Diagnostic) : Analyzer :=
  { a with events := a.events ++ found.map Event.reported }

@[simp]
theorem reporting_nil (a : Analyzer) : a.reporting [] = a := by simp [reporting]

@[simp]
theorem reporting_reporting (a : Analyzer) (xs ys : List Diagnostic) :
    (a.reporting xs).reporting ys = a.reporting (xs ++ ys) := by
  simp [reporting]

@[simp]
theorem view_reporting (a : Analyzer) (xs : List Diagnostic) : (a.reporting xs).view = a.view := rfl

@[simp]
theorem scopes_reporting (a : Analyzer) (xs : List Diagnostic) :
    (a.reporting xs).scopes = a.view.scopes := rfl

@[simp]
theorem rules_reporting (a : Analyzer) (xs : List Diagnostic) :
    (a.reporting xs).rules = a.view.rules := rfl

@[simp high]
theorem run_bind {α β : Type} (x : Walk α) (f : α → Walk β) (a : Analyzer) :
    (x >>= f).run a = (f (x.run a).1).run (x.run a).2 := rfl

@[simp high]
theorem run_map {α β : Type} (f : α → β) (x : Walk α) (a : Analyzer) :
    (f <$> x).run a = (f (x.run a).1, (x.run a).2) := rfl

@[simp high]
theorem run_pure {α : Type} (x : α) (a : Analyzer) : (pure x : Walk α).run a = (x, a) := rfl

@[simp high]
theorem run_get (a : Analyzer) : (get : Walk Analyzer).run a = (a, a) := rfl

@[simp high]
theorem run_modify (f : Analyzer → Analyzer) (a : Analyzer) :
    (modify f : Walk Unit).run a = ((), f a) := rfl

@[simp]
theorem run_discard {α : Type} (x : Walk α) (a : Analyzer) :
    (discard x).run a = ((), (x.run a).2) := rfl

@[simp]
theorem run_report (defect : Defect) (span : Span) (a : Analyzer) :
    (report defect span).run a = ((), a.reporting [.ofSpan defect span]) := rfl

@[simp]
theorem run_require (condition : Bool) (defect : Defect) (span : Span) (a : Analyzer) :
    (require condition defect span).run a = ((), a.reporting (breach condition defect span)) := by
  cases condition <;> simp [require, breach]

@[simp]
theorem run_resolve (name : String) (a : Analyzer) :
    (resolve name).run a = (a.view.scopes.resolve name, a) := rfl

theorem run_resolveVariable (name : String) (target : Bool) (span : Span) (a : Analyzer) :
    (resolveVariable name target span).run a =
      (a.view.variableNamed? name, a.reporting (a.view.nameFindings name target span)) := by
  cases h : a.view.scopes.resolve name with
  | none => simp [resolveVariable, View.variableNamed?, View.nameFindings, h]
  | some symbol =>
    cases hm : symbol.isMethod <;>
      simp [resolveVariable, View.variableNamed?, View.nameFindings, breach, h, hm, Option.filter]

theorem run_checkArguments (method : String) (position : Nat) (params : List ScalarType)
    (args : List (Expr × Ty)) (a : Analyzer) :
    (checkArguments method position params args).run a =
      ((), a.reporting (View.argumentFindings method position params args)) := by
  induction params generalizing position args a with
  | nil => simp [checkArguments, View.argumentFindings]
  | cons param params ih =>
    cases args with
    | nil => simp [checkArguments, View.argumentFindings]
    | cons arg args => simp [checkArguments, View.argumentFindings, ih]

theorem run_checkCall (name : String) (args : List Expr) (found : List Ty) (span : Span)
    (a : Analyzer) :
    (checkCall name args found span).run a =
      (a.view.resultOf name, a.reporting (a.view.callFindings name args found span)) := by
  cases h : a.view.scopes.resolve name with
  | none => simp [checkCall, View.resultOf, View.callFindings, h]
  | some symbol =>
    cases hk : symbol.kind with
    | method params =>
      by_cases hl : params.length = found.length <;>
        simp [checkCall, View.resultOf, View.callFindings, Symbol.isMethod, h, hk, hl,
          run_checkArguments]
    | field | localVar | parameter =>
      simp [checkCall, View.resultOf, View.callFindings, Symbol.isMethod, h, hk]

mutual

/-- Typing an expression gives its type and reports its findings, and does nothing else. -/
theorem typeOf_run (e : Expr) (a : Analyzer) :
    (typeOf e).run a = (e.typeIn a.view, a.reporting (e.findings a.view)) := by
  cases e with
  | location place span =>
    rw [typeOf, typeOfLocation_run]
    rfl
  | call call span =>
    rw [typeOf, typeOfCall_run]
    rfl
  | int text span | bool value span => simp [typeOf, Expr.typeIn, Expr.findings]
  | char text span =>
    simp [typeOf, Expr.typeIn, Expr.findings, view]
  | unary op operand span =>
    simp [typeOf, typeOf_run operand, Expr.typeIn, Expr.findings]
  | binary op left right span =>
    simp [typeOf, typeOf_run left, typeOf_run right, Expr.typeIn, Expr.findings]
  | paren inner span =>
    rw [typeOf, typeOf_run inner]
    rfl

theorem typeOfLocation_run (place : Location) (line : Nat) (target : Bool) (a : Analyzer) :
    (typeOfLocation place line target).run a =
      (place.typeIn a.view, a.reporting (place.findings a.view line target)) := by
  cases place with
  | scalar name span =>
    cases h : a.view.variableNamed? name <;>
      simp [typeOfLocation, run_resolveVariable, Location.typeIn, Location.findings, h]
  | indexed name index span =>
    cases h : a.view.variableNamed? name with
    | none =>
      simp [typeOfLocation, typeOf_run index, run_resolveVariable, Location.typeIn,
        Location.findings, h]
    | some symbol =>
      cases he : symbol.type.element? <;>
        simp [typeOfLocation, typeOf_run index, run_resolveVariable, Location.typeIn,
          Location.findings, h, he]

theorem typeOfCall_run (call : Call) (a : Analyzer) :
    (typeOfCall call).run a = (call.typeIn a.view, a.reporting (call.findings a.view)) := by
  cases call with
  | method name args span =>
    simp [typeOfCall, typesOf_run args, run_checkCall, Call.typeIn, Call.findings]
  | callout name args span =>
    simp [typeOfCall, visitArguments_run args, Call.typeIn, Call.findings]

theorem typesOf_run (args : List Expr) (a : Analyzer) :
    (typesOf args).run a =
      (args.map (Expr.typeIn a.view), a.reporting (Expr.listFindings a.view args)) := by
  cases args with
  | nil => simp [typesOf, Expr.listFindings]
  | cons arg args => simp [typesOf, typeOf_run arg, typesOf_run args, Expr.listFindings]

theorem visitArguments_run (args : List CalloutArg) (a : Analyzer) :
    (visitArguments args).run a = ((), a.reporting (CalloutArg.listFindings a.view args)) := by
  match args with
  | [] => simp [visitArguments, CalloutArg.listFindings]
  | .expr value :: args =>
    simp [visitArguments, typeOf_run value, visitArguments_run args, CalloutArg.listFindings]
  | .string text :: args =>
    simp [visitArguments, visitArguments_run args, CalloutArg.listFindings]

end

/-- The state after some events, with other names in the innermost scope. -/
def settle (a : Analyzer) (frame : Frame) (events : List Event) : Analyzer :=
  { a with
    scopes := { a.scopes with innermost := frame }
    events := a.events ++ events }

/-- A step of the walk that reports `found`, leaves `frame` as the innermost scope and changes
nothing else. Scopes may be opened on the way, but are closed again. -/
def Leaves (x : Walk Unit) (a : Analyzer) (frame : Frame) (found : List Diagnostic) : Prop :=
  ∃ events, x.run a = ((), a.settle frame events) ∧ events.filterMap Event.diagnostic? = found

theorem filterMap_reported (found : List Diagnostic) :
    (found.map Event.reported).filterMap Event.diagnostic? = found := by
  induction found with
  | nil => rfl
  | cons d found ih =>
    rw [List.map_cons, List.filterMap_cons, ih]
    rfl

theorem leaves_of_run {x : Walk Unit} {a : Analyzer} {found : List Diagnostic}
    (h : x.run a = ((), a.reporting found)) : Leaves x a a.scopes.innermost found :=
  ⟨found.map Event.reported, h, filterMap_reported found⟩

theorem Leaves.seq {x y : Walk Unit} {a : Analyzer} {f g : Frame} {xs ys : List Diagnostic}
    (hx : Leaves x a f xs) (hy : ∀ events, Leaves y (a.settle f events) g ys) :
    Leaves (x >>= fun _ => y) a g (xs ++ ys) := by
  obtain ⟨es, hxs, rfl⟩ := hx
  obtain ⟨fs, hys, rfl⟩ := hy es
  refine ⟨es ++ fs, ?_, List.filterMap_append⟩
  rw [run_bind, hxs, hys]
  simp only [settle, List.append_assoc]

def entered (a : Analyzer) : Analyzer :=
  record (.entered a.scopes.enter.depth) { a with scopes := a.scopes.enter }

theorem run_exitScope (a : Analyzer) :
    exitScope.run a = ((), match a.scopes.exit? with
      | some scopes => record (.exited scopes.depth) { a with scopes }
      | none => a) := rfl

theorem Leaves.inScope {body : Walk Unit} {a : Analyzer} {f : Frame} {found : List Diagnostic}
    (h : Leaves body a.entered f found) :
    Leaves (inScope body) a a.scopes.innermost found := by
  obtain ⟨es, hrun, rfl⟩ := h
  refine ⟨.entered a.scopes.enter.depth :: (es ++ [.exited a.scopes.depth]), ?_, ?_⟩
  · have hexit : (Analyzer.inScope body).run a = exitScope.run (body.run a.entered).2 := rfl
    rw [hexit, hrun, run_exitScope]
    simp [settle, entered, ScopeTable.enter, ScopeTable.exit?, record]
  · rw [List.filterMap_cons, List.filterMap_append]
    simp [Event.diagnostic?]

theorem Leaves.inLoop {body : Walk Unit} {a : Analyzer} {f : Frame} {found : List Diagnostic}
    (h : Leaves body { a with loopDepth := a.loopDepth + 1 } f found) :
    Leaves (inLoop body) a f found := by
  obtain ⟨es, hrun, rfl⟩ := h
  refine ⟨es, ?_, rfl⟩
  have hafter : (Analyzer.inLoop body).run a = ((), { (body.run
      { a with loopDepth := a.loopDepth + 1 }).2 with
        loopDepth := (body.run { a with loopDepth := a.loopDepth + 1 }).2.loopDepth - 1 }) := rfl
  rw [hafter, hrun]
  rfl

theorem Leaves.inMethod {method : MethodContext} {body : Walk Unit} {a : Analyzer} {f : Frame}
    {found : List Diagnostic} (hnone : a.method = none)
    (h : Leaves body { a with method := some method } f found) :
    Leaves (inMethod method body) a f found := by
  obtain ⟨es, hrun, rfl⟩ := h
  refine ⟨es, ?_, rfl⟩
  have hafter : (Analyzer.inMethod method body).run a =
      ((), { (body.run { a with method := some method }).2 with method := none }) := rfl
  rw [hafter, hrun]
  simp only [settle, hnone]

theorem declare_leaves (d : Declaration) (hd : d.flaws = []) (a : Analyzer) :
    Leaves (declare d.symbol d.line) a (a.scopes.innermost.add d.symbol)
      (a.scopes.innermost.findings [d]) := by
  cases h : a.scopes.innermost.find d.symbol.name with
  | none =>
    refine ⟨[], ?_, by simp [Frame.findings, breach, h, hd]⟩
    simp [declare, ScopeTable.declare, h, settle, Frame.add]
  | some symbol =>
    refine ⟨[.reported (.ofSpan (.duplicateDeclaration d.symbol.name d.symbol.type)
      (d.symbol.span.onLine d.line))], ?_, ?_⟩
    · simp [declare, ScopeTable.declare, h, settle, Frame.add, reporting]
    · simp [Frame.findings, breach, h, hd, Event.diagnostic?]

theorem forM_declare_leaves (ds : List Declaration) (hds : ∀ d ∈ ds, d.flaws = [])
    (a : Analyzer) :
    Leaves (ds.forM fun d => declare d.symbol d.line) a (a.scopes.innermost.addAll ds)
      (a.scopes.innermost.findings ds) := by
  induction ds generalizing a with
  | nil => exact leaves_of_run (by simp [Frame.findings])
  | cons d ds ih =>
    have hd : d.flaws = [] := hds d (by simp)
    have hrest : ∀ e ∈ ds, e.flaws = [] := fun e he => hds e (by simp [he])
    have hfind : a.scopes.innermost.findings (d :: ds) =
        a.scopes.innermost.findings [d] ++ (a.scopes.innermost.add d.symbol).findings ds := by
      simp [Frame.findings]
    rw [List.forM, hfind]
    exact (declare_leaves d hd a).seq fun events => ih hrest _

theorem declareLocals_eq (decl : VarDecl) :
    declareLocals decl = decl.declarations.forM fun d => declare d.symbol d.line := by
  simp [declareLocals, VarDecl.declarations, List.forM_map]

theorem forM_declareLocals_eq (locals : List VarDecl) :
    locals.forM declareLocals =
      (locals.flatMap VarDecl.declarations).forM fun d => declare d.symbol d.line := by
  induction locals with
  | nil => rfl
  | cons decl locals ih =>
    simp only [List.forM_eq_forM, List.forM_cons, List.flatMap_cons, List.forM_append,
      declareLocals_eq] at ih ⊢
    rw [ih]

theorem run_typeOfReturn (value : Option Expr) (a : Analyzer) :
    (typeOfReturn value).run a =
      (a.view.returnType value, a.reporting ((value.map (Expr.findings a.view)).getD [])) := by
  cases value with
  | none => simp [typeOfReturn, View.returnType]
  | some value => simp [typeOfReturn, typeOf_run, View.returnType]

theorem run_checkReturn (value : Option Expr) (span : Span) (a : Analyzer) :
    (checkReturn value span).run a = ((), a.reporting (a.view.returnFindings value span)) := by
  have hm : ∀ found, (a.reporting found).method = a.view.method := fun _ => rfl
  cases h : a.view.method <;> simp [checkReturn, run_typeOfReturn, View.returnFindings, hm, h]

theorem run_checkLoopVariable (var : Name) (a : Analyzer) :
    (checkLoopVariable var).run a = ((), a.reporting (a.view.loopVariableFindings var)) := by
  cases h : a.view.variableNamed? var.text <;>
    simp [checkLoopVariable, run_resolveVariable, View.loopVariableFindings, h]

theorem run_checkCondition (condition : Expr) (a : Analyzer) :
    (checkCondition condition).run a =
      ((), a.reporting (a.view.conditionFindings condition)) := by
  simp [checkCondition, typeOf_run, View.conditionFindings, View.wantedFindings]

theorem run_checkLoopBound (bound : Expr) (a : Analyzer) :
    (checkLoopBound bound).run a = ((), a.reporting (a.view.boundFindings bound)) := by
  simp [checkLoopBound, typeOf_run, View.boundFindings, View.wantedFindings]

theorem run_checkAssignment (target : Location) (op : AssignOp) (value : Expr) (span : Span)
    (a : Analyzer) :
    (checkAssignment target op value span).run a =
      ((), a.reporting ((Stmt.assign target op value span).findings a.view)) := by
  simp [checkAssignment, typeOf_run, typeOfLocation_run, Stmt.findings]

theorem run_checkJump (keyword : String) (span : Span) (a : Analyzer) :
    (checkJump keyword span).run a =
      ((), a.reporting (breach a.view.inLoop (.invalidControlFlow keyword) span)) := by
  simp [checkJump, view]

mutual

/-- A statement reports its findings and leaves everything else as it was. -/
theorem visitStmt_leaves (s : Stmt) (a : Analyzer) :
    Leaves (visitStmt s) a a.scopes.innermost (s.findings a.view) := by
  cases s with
  | assign target op value span => exact leaves_of_run (run_checkAssignment target op value span a)
  | call called span =>
    refine leaves_of_run ?_
    rw [visitStmt, run_discard, typeOfCall_run]
    rfl
  | ifThen condition thenBlock span =>
    rw [visitStmt, Stmt.findings]
    refine (leaves_of_run (run_checkCondition condition a)).seq fun events => ?_
    exact (visitBlock_leaves thenBlock _).inScope
  | ifElse condition thenBlock elseBlock span =>
    rw [visitStmt, Stmt.findings, List.append_assoc]
    refine (leaves_of_run (run_checkCondition condition a)).seq fun events => ?_
    refine (visitBlock_leaves thenBlock _).inScope.seq fun events => ?_
    exact (visitBlock_leaves elseBlock _).inScope
  | forLoop var first last body span =>
    rw [visitStmt, Stmt.findings, List.append_assoc, List.append_assoc]
    refine (leaves_of_run (run_checkLoopVariable var a)).seq fun events => ?_
    refine (leaves_of_run (run_checkLoopBound first _)).seq fun events => ?_
    refine (leaves_of_run (run_checkLoopBound last _)).seq fun events => ?_
    exact (visitBlock_leaves body _).inScope.inLoop
  | returnFrom value span => exact leaves_of_run (run_checkReturn value span a)
  | breakLoop span => exact leaves_of_run (run_checkJump "break" span a)
  | continueLoop span => exact leaves_of_run (run_checkJump "continue" span a)
  | block block span =>
    rw [visitStmt, Stmt.findings]
    exact (visitBlock_leaves block _).inScope

/-- The names of a block stay in the scope that is current. -/
theorem visitBlock_leaves (b : Block) (a : Analyzer) :
    Leaves (visitBlock b) a (a.scopes.innermost.addAll b.declarations) (b.findings a.view) := by
  cases b with
  | mk locals statements span =>
    rw [visitBlock, Block.findings, forM_declareLocals_eq]
    refine (forM_declare_leaves _ (locals_flaws locals) a).seq fun events => ?_
    exact visitStmts_leaves statements _

theorem visitStmts_leaves (ss : List Stmt) (a : Analyzer) :
    Leaves (visitStmts ss) a a.scopes.innermost (Stmt.listFindings a.view ss) := by
  cases ss with
  | nil => exact leaves_of_run (by simp [visitStmts, Stmt.listFindings])
  | cons s ss =>
    rw [visitStmts, Stmt.listFindings]
    exact (visitStmt_leaves s a).seq fun events => visitStmts_leaves ss _

end

theorem run_fieldType (decl : FieldDecl) (name : FieldName) (a : Analyzer) :
    (fieldType decl name).run a =
      (decl.typeOf name, a.reporting (decl.sizeFindings name)) := by
  cases h : name.arraySize <;>
    simp [fieldType, FieldDecl.typeOf, FieldDecl.sizeFindings, h]

theorem visitField_leaves (decl : FieldDecl) (a : Analyzer) :
    Leaves (visitField decl) a (a.scopes.innermost.addAll decl.declarations)
      (a.scopes.innermost.findings decl.declarations) := by
  unfold visitField FieldDecl.declarations
  induction decl.names generalizing a with
  | nil => exact leaves_of_run (by simp [Frame.findings])
  | cons name names ih =>
    -- The size is checked in front of the name, so the declaration itself counts as flawless.
    let d : Declaration := ⟨⟨name.name, .field, decl.typeOf name, name.span⟩, decl.span.line, []⟩
    have hone : Leaves (do
        let type ← fieldType decl name
        declare ⟨name.name, .field, type, name.span⟩ decl.span.line) a
        (a.scopes.innermost.add d.symbol)
        (decl.sizeFindings name ++ a.scopes.innermost.findings [d]) := by
      obtain ⟨es, hrun, hes⟩ := declare_leaves d rfl (a.reporting (decl.sizeFindings name))
      refine ⟨(decl.sizeFindings name).map .reported ++ es, ?_, ?_⟩
      · rw [run_bind, run_fieldType]
        exact hrun.trans (by simp [settle, reporting])
      · rw [List.filterMap_append, filterMap_reported, hes]
        rfl
    have hfind : a.scopes.innermost.findings ((name :: names).map fun name =>
          ⟨⟨name.name, .field, decl.typeOf name, name.span⟩, decl.span.line,
            decl.sizeFindings name⟩) =
        (decl.sizeFindings name ++ a.scopes.innermost.findings [d]) ++
          (a.scopes.innermost.add d.symbol).findings (names.map fun name =>
            ⟨⟨name.name, .field, decl.typeOf name, name.span⟩, decl.span.line,
              decl.sizeFindings name⟩) := by
      simp [Frame.findings, d]
    rw [List.forM, hfind]
    exact hone.seq fun events => ih _

theorem forM_visitField_leaves (fields : List FieldDecl) (a : Analyzer) :
    Leaves (fields.forM visitField) a
      (a.scopes.innermost.addAll (fields.flatMap FieldDecl.declarations))
      (a.scopes.innermost.findings (fields.flatMap FieldDecl.declarations)) := by
  induction fields generalizing a with
  | nil => exact leaves_of_run (by simp [Frame.findings])
  | cons decl fields ih =>
    rw [List.forM, List.flatMap_cons, Frame.findings_append, Frame.addAll_append]
    exact (visitField_leaves decl a).seq fun events => ih _

theorem forM_declareParam_eq (params : List Param) :
    params.forM declareParam =
      (params.map Param.declaration).forM fun d => declare d.symbol d.line := by
  simp only [List.forM_eq_forM, List.forM_map]
  rfl

/-- The scope of a method: its parameters, then its body. -/
theorem methodScope_leaves (m : MethodDecl) (a : Analyzer) (hnone : a.method = none) :
    Leaves (inScope do
        m.params.forM declareParam
        inMethod ⟨m.name, .ofReturn m.returnType⟩ (visitBlock m.body)) a a.scopes.innermost
      (Frame.findings [] (m.params.map Param.declaration) ++
        m.body.findings { a.view.entering.declaring (m.params.map Param.declaration) with
          method := some ⟨m.name, .ofReturn m.returnType⟩ }) := by
  rw [forM_declareParam_eq]
  let frame : Frame := Frame.addAll [] (m.params.map Param.declaration)
  have hparams := forM_declare_leaves _ (params_flaws m.params) a.entered
  have hbody : ∀ events, Leaves (visitBlock m.body)
      { a.entered.settle frame events with method := some ⟨m.name, .ofReturn m.returnType⟩ }
      (frame.addAll m.body.declarations)
      (m.body.findings { a.view.entering.declaring (m.params.map Param.declaration) with
        method := some ⟨m.name, .ofReturn m.returnType⟩ }) :=
    fun events => visitBlock_leaves m.body _
  exact (hparams.seq fun events => (hbody events).inMethod hnone).inScope

theorem visitMethod_run (m : MethodDecl) (a : Analyzer) (hnone : a.method = none) :
    ∃ events, (visitMethod m).run a =
        ((), { a.settle (a.scopes.innermost.addAll [m.declaration]) events with
          foundMain := a.foundMain || decide (m.name = "main") }) ∧
      events.filterMap Event.diagnostic? = m.findings a.view := by
  obtain ⟨es, hdecl, hes⟩ := declare_leaves m.declaration rfl a
  let b : Analyzer := { a.settle (a.scopes.innermost.addAll [m.declaration]) es with
    foundMain := a.foundMain || decide (m.name = "main") }
  have hb : (visitMethod m).run a = (inScope do
      m.params.forM declareParam
      inMethod ⟨m.name, .ofReturn m.returnType⟩ (visitBlock m.body)).run b := by
    have hd : (declare (methodSymbol m) m.span.line).run a =
        ((), a.settle (a.scopes.innermost.addAll [m.declaration]) es) := hdecl
    rw [visitMethod, run_bind, hd]
    by_cases hmain : m.name = "main"
    · simp only [hmain, ↓reduceIte, b, decide_true, Bool.or_true]
      rfl
    · simp only [hmain, ↓reduceIte, b, decide_false, Bool.or_false]
      rfl
  obtain ⟨fs, hrun, hfs⟩ := methodScope_leaves m b hnone
  refine ⟨es ++ fs, ?_, ?_⟩
  · rw [hb, hrun]
    simp [settle, b]
  · rw [List.filterMap_append, hes, hfs, MethodDecl.findings, List.append_assoc]
    rfl

theorem forM_visitMethod_run (ms : List MethodDecl) (a : Analyzer) (hnone : a.method = none) :
    ∃ events, (ms.forM visitMethod).run a =
        ((), { a.settle (a.scopes.innermost.addAll (ms.map MethodDecl.declaration)) events with
          foundMain := a.foundMain || ms.any fun m => m.name = "main" }) ∧
      events.filterMap Event.diagnostic? = MethodDecl.listFindings a.view ms := by
  induction ms generalizing a with
  | nil => exact ⟨[], by simp [settle, Frame.addAll], rfl⟩
  | cons m ms ih =>
    obtain ⟨es, hm, hes⟩ := visitMethod_run m a hnone
    obtain ⟨fs, hms, hfs⟩ := ih { a.settle (a.scopes.innermost.addAll [m.declaration]) es with
      foundMain := a.foundMain || decide (m.name = "main") } hnone
    refine ⟨es ++ fs, ?_, ?_⟩
    · rw [List.forM, run_bind, hm]
      refine hms.trans ?_
      simp [settle, Frame.addAll, Bool.or_assoc]
    · rw [List.filterMap_append, hes, hfs]
      rfl

theorem visitProgram_run (p : Program) (rules : RuleSet) :
    ((visitProgram p).run (.new rules)).2.diagnostics = p.findings rules := by
  obtain ⟨es, hfields, hes⟩ := forM_visitField_leaves p.fields (.new rules)
  obtain ⟨fs, hmethods, hfs⟩ := forM_visitMethod_run p.methods
    ((Analyzer.new rules).settle (Frame.addAll [] p.fieldDeclarations) es) rfl
  have hfields : (p.fields.forM visitField).run (.new rules) =
      ((), (Analyzer.new rules).settle (Frame.addAll [] p.fieldDeclarations) es) := hfields
  rw [visitProgram, run_bind, hfields, run_bind, hmethods, run_bind, run_get]
  have hdiag : (es ++ fs).filterMap Event.diagnostic? =
      Frame.findings [] p.fieldDeclarations ++ MethodDecl.listFindings
        ((View.mk rules .root false none).declaring p.fieldDeclarations) p.methods := by
    rw [List.filterMap_append, hes, hfs]
    rfl
  rw [Program.findings, Program.mainFindings, ← hdiag]
  by_cases hmain : p.methods.any fun m => m.name = "main"
  · simp [settle, new, hmain, diagnostics]
  · simp [settle, new, hmain, diagnostics, record, Event.diagnostic?]

end Analyzer

/-- The diagnostics of a program are what is wrong with its tree, in the order of the walk. -/
theorem analyze_eq_findings (rules : RuleSet) (p : Program) : analyze rules p = p.findings rules :=
  visitProgram_run p rules

end Decaf
