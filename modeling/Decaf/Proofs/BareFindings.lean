import Decaf.Proofs.ExprText
import Decaf.Proofs.Walk

namespace Decaf

/-- The diagnostic without its place. -/
def Diagnostic.bare (d : Diagnostic) : Diagnostic := ⟨d.defect, 0, .zero⟩

def Symbol.bare (s : Symbol) : Symbol := { s with span := .zero }

def Frame.bare (frame : Frame) : Frame := frame.map Symbol.bare

def ScopeTable.bare (t : ScopeTable) : ScopeTable :=
  ⟨t.innermost.bare, t.outer.map Frame.bare, t.depth⟩

def View.bare (v : View) : View := { v with scopes := v.scopes.bare }

def Declaration.bare (d : Declaration) : Declaration :=
  ⟨d.symbol.bare, 0, d.flaws.map Diagnostic.bare⟩

theorem map_bare_breach (condition : Bool) (defect : Defect) (a : Span) :
    (breach condition defect a).map Diagnostic.bare = breach condition defect .zero := by
  cases condition <;> rfl

theorem Frame.find_bare (frame : Frame) (name : String) :
    frame.bare.find name = (frame.find name).map Symbol.bare := List.find?_map

theorem Frame.isNone_find_bare (frame : Frame) (name : String) :
    (frame.bare.find name).isNone = (frame.find name).isNone := by
  rw [find_bare, Option.isNone_map]

theorem Frame.bare_add (frame : Frame) (s : Symbol) :
    (frame.add s).bare = frame.bare.add s.bare := by
  have hname : s.bare.name = s.name := rfl
  rw [add, add, hname, isNone_find_bare]
  split
  · exact List.map_append
  · rfl

theorem Frame.bare_addAll (frame : Frame) (ds : List Declaration) :
    (frame.addAll ds).bare = frame.bare.addAll (ds.map Declaration.bare) := by
  induction ds generalizing frame with
  | nil => rfl
  | cons d ds ih =>
    change ((frame.add d.symbol).addAll ds).bare = _
    rw [ih, bare_add]
    rfl

theorem Frame.findings_bare (frame : Frame) (ds : List Declaration) :
    (frame.findings ds).map Diagnostic.bare =
      frame.bare.findings (ds.map Declaration.bare) := by
  induction ds generalizing frame with
  | nil => rfl
  | cons d ds ih =>
    have hname : d.bare.symbol.name = d.symbol.name := rfl
    rw [findings, List.map_append, List.map_append, map_bare_breach, ih, bare_add, List.map_cons,
      findings, hname, isNone_find_bare]
    rfl

theorem ScopeTable.resolve_bare (t : ScopeTable) (name : String) :
    t.bare.resolve name = (t.resolve name).map Symbol.bare := by
  have hframes : ∀ frames : List Frame,
      (frames.map Frame.bare).findSome? (fun frame => frame.find name) =
        (frames.findSome? fun frame => frame.find name).map Symbol.bare := by
    intro frames
    induction frames with
    | nil => rfl
    | cons frame frames ih =>
      rw [List.map_cons, List.findSome?_cons, List.findSome?_cons, ih, Frame.find_bare]
      cases frame.find name <;> rfl
  exact hframes (t.innermost :: t.outer)

namespace View

variable (v : View)

theorem resolve_bare (name : String) :
    v.bare.scopes.resolve name = (v.scopes.resolve name).map Symbol.bare :=
  v.scopes.resolve_bare name

theorem variableNamed?_bare (name : String) :
    v.bare.variableNamed? name = (v.variableNamed? name).map Symbol.bare := by
  rw [variableNamed?, resolve_bare, Option.filter_map]
  rfl

theorem bare_declaring (ds : List Declaration) :
    (v.declaring ds).bare = v.bare.declaring (ds.map Declaration.bare) := by
  have hframe : (v.declaring ds).scopes.bare.innermost =
      v.scopes.innermost.bare.addAll (ds.map Declaration.bare) :=
    v.scopes.innermost.bare_addAll ds
  simp only [bare, declaring, ScopeTable.bare] at hframe ⊢
  rw [hframe]

theorem bare_entering : v.entering.bare = v.bare.entering := rfl

theorem nameFindings_bare (name : String) (target : Bool) (a : Span) :
    (v.nameFindings name target a).map Diagnostic.bare = v.bare.nameFindings name target .zero := by
  rw [nameFindings, nameFindings, resolve_bare]
  cases v.scopes.resolve name with
  | none => rfl
  | some symbol => exact map_bare_breach (!symbol.isMethod) (.notAVariable name) a

theorem resultOf_bare (name : String) : v.bare.resultOf name = v.resultOf name := by
  rw [resultOf, resultOf, resolve_bare]
  cases v.scopes.resolve name <;> rfl

end View

theorem Expr.span_bare (e : Expr) : e.bare.span = .zero := by
  cases e <;> rfl

theorem View.argumentFindings_bare (method : String) (position : Nat) (params : List ScalarType)
    (args : List Expr) (found : List Ty) :
    (argumentFindings method position params (args.zip found)).map Diagnostic.bare =
      argumentFindings method position params ((args.map Expr.bare).zip found) := by
  induction params generalizing position args found with
  | nil => rfl
  | cons param params ih =>
    cases args with
    | nil => rfl
    | cons arg args =>
      cases found with
      | nil => rfl
      | cons type found =>
        rw [List.zip_cons_cons, argumentFindings, List.map_append, map_bare_breach, ih,
          List.map_cons, List.zip_cons_cons, argumentFindings, Expr.span_bare]

theorem View.callFindings_bare (v : View) (name : String) (args : List Expr) (found : List Ty)
    (a : Span) : (v.callFindings name args found a).map Diagnostic.bare =
      v.bare.callFindings name (args.map Expr.bare) found .zero := by
  rw [callFindings, callFindings, resolve_bare]
  cases v.scopes.resolve name with
  | none => rfl
  | some symbol =>
    obtain ⟨_, kind, _, _⟩ := symbol
    cases kind with
    | method params =>
      by_cases hlength : params.length = found.length
      · simp only [Option.map_some, Symbol.bare, if_pos hlength, argumentFindings_bare]
      · simp only [Option.map_some, Symbol.bare, if_neg hlength]
        rfl
    | field | localVar | parameter => rfl

theorem Location.typeIn_bare (v : View) (place : Location) :
    place.bare.typeIn v.bare = place.typeIn v := by
  cases place with
  | scalar name _ =>
    rw [Location.bare, typeIn, typeIn, v.variableNamed?_bare, Option.map_map]
    rfl
  | indexed name index _ =>
    rw [Location.bare, typeIn, typeIn, v.variableNamed?_bare, Option.bind_map]
    rfl

theorem Call.typeIn_bare (v : View) (called : Call) :
    called.bare.typeIn v.bare = called.typeIn v := by
  cases called with
  | method name args _ => exact v.resultOf_bare name
  | callout name args _ => rfl

theorem Expr.typeIn_bare (v : View) : (e : Expr) → e.bare.typeIn v.bare = e.typeIn v
  | .paren inner _ => inner.typeIn_bare v
  | .location place _ => place.typeIn_bare v
  | .call called _ => called.typeIn_bare v
  | .int _ _ | .char _ _ | .bool _ _ | .unary _ _ _ | .binary _ _ _ _ => rfl

theorem Expr.types_bare (v : View) (args : List Expr) :
    (args.map Expr.bare).map (Expr.typeIn v.bare) = args.map (Expr.typeIn v) := by
  rw [List.map_map]
  exact List.map_congr_left fun e _ => e.typeIn_bare v

mutual

theorem Expr.findings_bare (v : View) : (e : Expr) →
    (e.findings v).map Diagnostic.bare = e.bare.findings v.bare
  | .location place span => place.findings_bare v span.line false
  | .call called _ => called.findings_bare v
  | .int _ _ | .char _ _ | .bool _ _ => rfl
  | .unary _ operand _ => operand.findings_bare v
  | .binary op left right _ => by
    have hrules : v.bare.rules = v.rules := rfl
    rw [Expr.findings, List.map_append, List.map_append, left.findings_bare v,
      right.findings_bare v, map_bare_breach, Expr.bare, Expr.findings, left.typeIn_bare,
      right.typeIn_bare, left.text_bare, right.text_bare, hrules]
  | .paren inner _ => inner.findings_bare v

theorem Location.findings_bare (v : View) : (place : Location) → (line : Nat) → (target : Bool) →
    (place.findings v line target).map Diagnostic.bare = place.bare.findings v.bare 0 target
  | .scalar name span, line, target => v.nameFindings_bare name target (span.onLine line)
  | .indexed name index span, line, target => by
    rw [Location.findings, List.map_append, List.map_append, index.findings_bare v,
      v.nameFindings_bare, Location.bare, Location.findings, index.typeIn_bare, index.text_bare,
      index.span_bare, v.variableNamed?_bare]
    apply (List.append_right_inj _).2
    cases v.variableNamed? name with
    | none => rfl
    | some symbol =>
      simp only [Option.map_some, Symbol.bare]
      split
      · exact map_bare_breach _ _ _
      · rfl

theorem Call.findings_bare (v : View) : (called : Call) →
    (called.findings v).map Diagnostic.bare = called.bare.findings v.bare
  | .method name args _ => by
    rw [Call.findings, List.map_append, Expr.listFindings_bare v args, v.callFindings_bare,
      Call.bare, Call.findings, Expr.bareList_eq, Expr.types_bare]
  | .callout _ args _ => CalloutArg.listFindings_bare v args

theorem Expr.listFindings_bare (v : View) : (args : List Expr) →
    (Expr.listFindings v args).map Diagnostic.bare =
      Expr.listFindings v.bare (Expr.bareList args)
  | [] => rfl
  | arg :: args => by
    rw [Expr.listFindings, List.map_append, arg.findings_bare v, Expr.listFindings_bare v args,
      Expr.bareList, Expr.listFindings]

theorem CalloutArg.listFindings_bare (v : View) : (args : List CalloutArg) →
    (CalloutArg.listFindings v args).map Diagnostic.bare =
      CalloutArg.listFindings v.bare (CalloutArg.bareList args)
  | [] => rfl
  | .expr value :: args => by
    rw [CalloutArg.listFindings, List.map_append, value.findings_bare v,
      CalloutArg.listFindings_bare v args, CalloutArg.bareList, CalloutArg.bare,
      CalloutArg.listFindings]
  | .string _ :: args => CalloutArg.listFindings_bare v args

end

namespace View

variable (v : View)

theorem wantedFindings_bare (e : Expr) (ok : Ty → Bool) (defect : Ty → Defect) :
    (v.wantedFindings e ok defect).map Diagnostic.bare =
      v.bare.wantedFindings e.bare ok defect := by
  rw [wantedFindings, List.map_append, e.findings_bare, map_bare_breach, wantedFindings,
    e.typeIn_bare, e.span_bare]

theorem conditionFindings_bare (condition : Expr) :
    (v.conditionFindings condition).map Diagnostic.bare =
      v.bare.conditionFindings condition.bare := v.wantedFindings_bare condition _ _

theorem boundFindings_bare (bound : Expr) :
    (v.boundFindings bound).map Diagnostic.bare = v.bare.boundFindings bound.bare := by
  rw [boundFindings, wantedFindings_bare, boundFindings, bound.text_bare]

theorem loopVariableFindings_bare (var : Name) :
    (v.loopVariableFindings var).map Diagnostic.bare = v.bare.loopVariableFindings var.bare := by
  rw [loopVariableFindings, List.map_append, nameFindings_bare, loopVariableFindings, Name.bare,
    variableNamed?_bare]
  apply (List.append_right_inj _).2
  cases v.variableNamed? var.text with
  | none => rfl
  | some symbol => exact map_bare_breach _ _ _

theorem returnType_bare (value : Option Expr) :
    v.bare.returnType (value.map Expr.bare) = v.returnType value := by
  cases value with
  | none => rfl
  | some e => exact e.typeIn_bare v

theorem returnFindings_bare (value : Option Expr) (a : Span) :
    (v.returnFindings value a).map Diagnostic.bare =
      v.bare.returnFindings (value.map Expr.bare) .zero := by
  have hvalue : ((value.map (Expr.findings v)).getD []).map Diagnostic.bare =
      ((value.map Expr.bare).map (Expr.findings v.bare)).getD [] := by
    cases value with
    | none => rfl
    | some e => exact e.findings_bare v
  have hmethod : v.bare.method = v.method := rfl
  rw [returnFindings, List.map_append, hvalue, returnFindings, returnType_bare, hmethod]
  apply (List.append_right_inj _).2
  cases v.method with
  | none => rfl
  | some method => exact map_bare_breach _ _ _

end View

theorem VarDecl.declarations_bare (decl : VarDecl) :
    decl.declarations.map Declaration.bare = decl.bare.declarations := by
  rw [declarations, declarations, VarDecl.bare, List.map_map, List.map_map]
  rfl

theorem Block.declarations_bare (b : Block) :
    b.declarations.map Declaration.bare = b.bare.declarations := by
  cases b with
  | mk locals body _ =>
    rw [declarations, declarations, Block.bare, Block.locals, Block.locals, List.map_flatMap,
      List.flatMap_map]
    exact congrArg (fun f => locals.flatMap f) (funext VarDecl.declarations_bare)

mutual

theorem Stmt.findings_bare (v : View) : (s : Stmt) →
    (s.findings v).map Diagnostic.bare = s.bare.findings v.bare
  | .assign target op value span => by
    have hrules : v.bare.rules = v.rules := rfl
    rw [Stmt.findings, List.map_append, List.map_append, target.findings_bare v,
      value.findings_bare v, map_bare_breach, Stmt.bare, Stmt.findings, target.typeIn_bare,
      value.typeIn_bare, hrules]
    rfl
  | .call called _ => called.findings_bare v
  | .ifThen condition body _ => by
    rw [Stmt.findings, List.map_append, v.conditionFindings_bare, body.findings_bare v.entering,
      v.bare_entering, Stmt.bare, Stmt.findings]
  | .ifElse condition body other _ => by
    rw [Stmt.findings, List.map_append, List.map_append, v.conditionFindings_bare,
      body.findings_bare v.entering, other.findings_bare v.entering, v.bare_entering, Stmt.bare,
      Stmt.findings]
  | .forLoop var first last body _ => by
    have hview : v.looping.entering.bare = v.bare.looping.entering := rfl
    rw [Stmt.findings, List.map_append, List.map_append, List.map_append,
      v.loopVariableFindings_bare, v.boundFindings_bare, v.boundFindings_bare,
      body.findings_bare v.looping.entering, hview, Stmt.bare, Stmt.findings]
  | .returnFrom none span => v.returnFindings_bare none span
  | .returnFrom (some value) span => v.returnFindings_bare (some value) span
  | .breakLoop span => map_bare_breach v.inLoop _ span
  | .continueLoop span => map_bare_breach v.inLoop _ span
  | .block inner _ => inner.findings_bare v.entering

theorem Block.findings_bare (v : View) : (b : Block) →
    (b.findings v).map Diagnostic.bare = b.bare.findings v.bare
  | .mk locals body span => by
    rw [Block.findings, List.map_append, Frame.findings_bare, Stmt.listFindings_bare _ body,
      v.bare_declaring, Block.declarations_bare, Block.bare, Block.findings]
    rfl

theorem Stmt.listFindings_bare (v : View) : (stmts : List Stmt) →
    (Stmt.listFindings v stmts).map Diagnostic.bare =
      Stmt.listFindings v.bare (Stmt.bareList stmts)
  | [] => rfl
  | stmt :: others => by
    rw [Stmt.listFindings, List.map_append, stmt.findings_bare v,
      Stmt.listFindings_bare v others, Stmt.bareList, Stmt.listFindings]

end

theorem FieldDecl.sizeFindings_bare (decl : FieldDecl) (field : FieldName) :
    (decl.sizeFindings field).map Diagnostic.bare = decl.bare.sizeFindings field.bare := by
  obtain ⟨name, _ | size, a⟩ := field
  · rfl
  · exact map_bare_breach _ _ _

theorem FieldDecl.declarations_bare (decl : FieldDecl) :
    decl.declarations.map Declaration.bare = decl.bare.declarations := by
  have hnames : decl.bare.names = decl.names.map FieldName.bare := rfl
  rw [declarations, declarations, hnames, List.map_map, List.map_map]
  refine List.map_congr_left fun field _ => ?_
  have hflaws := decl.sizeFindings_bare field
  simp only [Function.comp_apply, Declaration.bare, hflaws]
  rfl

theorem Param.declarations_bare (params : List Param) :
    (params.map Param.declaration).map Declaration.bare =
      (params.map Param.bare).map Param.declaration := by
  rw [List.map_map, List.map_map]
  rfl

namespace MethodDecl

theorem declaration_bare (method : MethodDecl) :
    method.declaration.bare = method.bare.declaration := by
  have htypes : (method.params.map Param.bare).map Param.type = method.params.map Param.type := by
    rw [List.map_map]
    rfl
  simp only [declaration, Declaration.bare, Analyzer.methodSymbol, Symbol.bare, MethodDecl.bare,
    htypes]
  rfl

theorem bodyView_bare (v : View) (method : MethodDecl) :
    (method.bodyView v).bare = method.bare.bodyView v.bare := by
  have hview : ((v.declaring [method.declaration]).entering.declaring
      (method.params.map Param.declaration)).bare =
        (v.bare.declaring [method.bare.declaration]).entering.declaring
          (method.bare.params.map Param.declaration) := by
    rw [View.bare_declaring, View.bare_entering, View.bare_declaring, Param.declarations_bare,
      List.map_singleton, declaration_bare]
    rfl
  rw [bodyView, bodyView, ← hview]
  rfl

theorem findings_bare (v : View) (method : MethodDecl) :
    (method.findings v).map Diagnostic.bare = method.bare.findings v.bare := by
  rw [findings, List.map_append, List.map_append, Frame.findings_bare, Frame.findings_bare,
    Block.findings_bare, bodyView_bare, Param.declarations_bare, List.map_singleton,
    declaration_bare, findings]
  rfl

theorem listFindings_bare (v : View) (methods : List MethodDecl) :
    (listFindings v methods).map Diagnostic.bare =
      listFindings v.bare (methods.map MethodDecl.bare) := by
  induction methods generalizing v with
  | nil => rfl
  | cons method methods ih =>
    rw [listFindings, List.map_append, findings_bare, ih, View.bare_declaring, List.map_singleton,
      declaration_bare, List.map_cons, listFindings]

end MethodDecl

namespace Program

theorem fieldDeclarations_bare (p : Program) :
    p.fieldDeclarations.map Declaration.bare = p.bare.fieldDeclarations := by
  have hfields : p.bare.fields = p.fields.map FieldDecl.bare := rfl
  rw [fieldDeclarations, fieldDeclarations, hfields, List.map_flatMap, List.flatMap_map]
  exact congrArg (fun f => p.fields.flatMap f) (funext FieldDecl.declarations_bare)

theorem mainFindings_bare (p : Program) :
    p.mainFindings.map Diagnostic.bare = p.bare.mainFindings := by
  have hany : (p.bare.methods.any fun m => m.name = "main") =
      p.methods.any fun m => m.name = "main" := List.any_map
  rw [mainFindings, mainFindings, hany]
  split <;> rfl

theorem findings_bare (rules : RuleSet) (p : Program) :
    (p.findings rules).map Diagnostic.bare = p.bare.findings rules := by
  rw [findings, List.map_append, List.map_append, Frame.findings_bare,
    MethodDecl.listFindings_bare, View.bare_declaring, fieldDeclarations_bare, mainFindings_bare,
    findings]
  rfl

/-- Programs that differ in their spans only have the same defects in the same order. -/
theorem map_defect_analyze_congr {p q : Program} (h : p.bare = q.bare) (rules : RuleSet) :
    (analyze rules p).map Diagnostic.defect = (analyze rules q).map Diagnostic.defect := by
  have hdefect : Diagnostic.defect = Diagnostic.defect ∘ Diagnostic.bare := rfl
  rw [analyze_eq_findings, analyze_eq_findings, hdefect, ← List.map_map, ← List.map_map,
    findings_bare, findings_bare, h]

end Program

end Decaf
