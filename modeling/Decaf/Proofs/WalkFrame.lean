import Decaf.Proofs.Course

namespace Decaf

open Analyzer

namespace View

variable {v w : View}

/-- Two views that differ at most in how their names are stacked. -/
structure Alike (v w : View) : Prop where
  rules : v.rules = w.rules
  binding : ∀ name, v.scopes.resolve name = w.scopes.resolve name
  inLoop : v.inLoop = w.inLoop
  method : v.method = w.method

theorem Alike.variableNamed? (h : Alike v w) (name : String) :
    v.variableNamed? name = w.variableNamed? name := by
  rw [View.variableNamed?, h.binding, View.variableNamed?]

theorem Alike.nameFindings (h : Alike v w) (name : String) (target : Bool) (span : Span) :
    v.nameFindings name target span = w.nameFindings name target span := by
  rw [View.nameFindings, h.binding, View.nameFindings]

theorem Alike.callFindings (h : Alike v w) (name : String) (args : List Expr) (found : List Ty)
    (span : Span) : v.callFindings name args found span = w.callFindings name args found span := by
  rw [View.callFindings, h.binding, View.callFindings]

theorem Alike.resultOf (h : Alike v w) (name : String) : v.resultOf name = w.resultOf name := by
  rw [View.resultOf, h.binding, View.resultOf]

/-- A fresh scope hides how the scopes around it are stacked. -/
theorem Alike.declaring_entering (h : Alike v w) (ds : List Declaration) :
    Alike (v.entering.declaring ds) (w.entering.declaring ds) where
  rules := h.rules
  binding name := by
    rw [resolve_declaring_entering, resolve_declaring_entering, h.binding]
  inLoop := h.inLoop
  method := h.method

theorem Alike.looping (h : Alike v w) : Alike v.looping w.looping :=
  ⟨h.rules, h.binding, rfl, h.method⟩

end View

section Dependence

variable {v w : View}

theorem Location.typeIn_congr (h : View.Alike v w) (place : Location) :
    place.typeIn v = place.typeIn w := by
  cases place with
  | scalar name span => rw [Location.typeIn, h.variableNamed?, Location.typeIn]
  | indexed name index span => rw [Location.typeIn, h.variableNamed?, Location.typeIn]

theorem Call.typeIn_congr (h : View.Alike v w) (called : Call) :
    called.typeIn v = called.typeIn w := by
  cases called with
  | method name args span => exact h.resultOf name
  | callout name args span => rfl

theorem Expr.typeIn_congr (h : View.Alike v w) : (e : Expr) → e.typeIn v = e.typeIn w
  | .location place _ => place.typeIn_congr h
  | .call called _ => called.typeIn_congr h
  | .char _ _ => congrArg RuleSet.charType h.rules
  | .int _ _ | .bool _ _ | .unary _ _ _ | .binary _ _ _ _ => rfl
  | .paren inner _ => inner.typeIn_congr h

mutual

theorem Expr.findings_congr (h : View.Alike v w) : (e : Expr) → e.findings v = e.findings w
  | .location place span => place.findings_congr h span.line false
  | .call called _ => called.findings_congr h
  | .int _ _ | .char _ _ | .bool _ _ => rfl
  | .unary _ operand _ => operand.findings_congr h
  | .binary op left right span => by
    rw [Expr.findings, Expr.findings, left.findings_congr h, right.findings_congr h, h.rules,
      left.typeIn_congr h, right.typeIn_congr h]
  | .paren inner _ => inner.findings_congr h

theorem Location.findings_congr (h : View.Alike v w) : (place : Location) → (line : Nat) →
    (target : Bool) → place.findings v line target = place.findings w line target
  | .scalar name _, _, target => h.nameFindings name target _
  | .indexed name index _, _, target => by
    rw [Location.findings, Location.findings, index.findings_congr h, index.typeIn_congr h,
      h.nameFindings, h.variableNamed?]

theorem Call.findings_congr (h : View.Alike v w) : (called : Call) →
    called.findings v = called.findings w
  | .method name args span => by
    have htypes : args.map (Expr.typeIn v) = args.map (Expr.typeIn w) :=
      List.map_congr_left fun e _ => e.typeIn_congr h
    rw [Call.findings, Call.findings, Expr.listFindings_congr h args, htypes, h.callFindings]
  | .callout _ args _ => CalloutArg.listFindings_congr h args

theorem Expr.listFindings_congr (h : View.Alike v w) : (args : List Expr) →
    Expr.listFindings v args = Expr.listFindings w args
  | [] => rfl
  | arg :: args => by
    rw [Expr.listFindings, Expr.listFindings, arg.findings_congr h, Expr.listFindings_congr h args]

theorem CalloutArg.listFindings_congr (h : View.Alike v w) : (args : List CalloutArg) →
    CalloutArg.listFindings v args = CalloutArg.listFindings w args
  | [] => rfl
  | .expr value :: args => by
    rw [CalloutArg.listFindings, CalloutArg.listFindings, value.findings_congr h,
      CalloutArg.listFindings_congr h args]
  | .string _ :: args => CalloutArg.listFindings_congr h args

end

theorem View.Alike.wantedFindings (h : View.Alike v w) (e : Expr) (ok : Ty → Bool)
    (defect : Ty → Defect) : v.wantedFindings e ok defect = w.wantedFindings e ok defect := by
  rw [View.wantedFindings, e.findings_congr h, e.typeIn_congr h, View.wantedFindings]

theorem View.Alike.loopVariableFindings (h : View.Alike v w) (var : Name) :
    v.loopVariableFindings var = w.loopVariableFindings var := by
  rw [View.loopVariableFindings, h.nameFindings, h.variableNamed?, View.loopVariableFindings]

theorem View.Alike.returnFindings (h : View.Alike v w) (value : Option Expr) (span : Span) :
    v.returnFindings value span = w.returnFindings value span := by
  have hfound : value.map (Expr.findings v) = value.map (Expr.findings w) :=
    Option.map_congr fun e _ => e.findings_congr h
  have htype : value.map (Expr.typeIn v) = value.map (Expr.typeIn w) :=
    Option.map_congr fun e _ => e.typeIn_congr h
  rw [View.returnFindings, View.returnFindings, View.returnType, View.returnType, hfound, htype,
    h.method]

mutual

theorem Stmt.findings_congr {v w : View} (h : View.Alike v w) :
    (s : Stmt) → s.findings v = s.findings w
  | .assign target op value span => by
    rw [Stmt.findings, Stmt.findings, target.findings_congr h, target.typeIn_congr h,
      value.findings_congr h, value.typeIn_congr h, h.rules]
  | .call called _ => called.findings_congr h
  | .ifThen condition thenBlock _ => by
    rw [Stmt.findings, Stmt.findings, View.conditionFindings, h.wantedFindings,
      thenBlock.findings_congr h, View.conditionFindings]
  | .ifElse condition thenBlock elseBlock _ => by
    rw [Stmt.findings, Stmt.findings, View.conditionFindings, h.wantedFindings,
      thenBlock.findings_congr h, elseBlock.findings_congr h, View.conditionFindings]
  | .forLoop var first last body _ => by
    rw [Stmt.findings, Stmt.findings, View.boundFindings, View.boundFindings, h.wantedFindings,
      h.wantedFindings, h.loopVariableFindings, body.findings_congr h.looping,
      View.boundFindings, View.boundFindings]
  | .returnFrom value span => h.returnFindings value span
  | .breakLoop span | .continueLoop span => by rw [Stmt.findings, h.inLoop, Stmt.findings]
  | .block inner _ => inner.findings_congr h

/-- A block in a scope of its own. In the scope that is current it would see the names of that
scope for duplicates. -/
theorem Block.findings_congr {v w : View} (h : View.Alike v w) :
    (b : Block) → b.findings v.entering = b.findings w.entering
  | .mk locals statements span => by
    rw [Block.findings, Block.findings,
      Stmt.listFindings_congr (h.declaring_entering _) statements]
    rfl

theorem Stmt.listFindings_congr {v w : View} (h : View.Alike v w) :
    (stmts : List Stmt) → Stmt.listFindings v stmts = Stmt.listFindings w stmts
  | [] => rfl
  | s :: stmts => by
    rw [Stmt.listFindings, Stmt.listFindings, s.findings_congr h, Stmt.listFindings_congr h stmts]

end

end Dependence

theorem Stmt.listFindings_append (v : View) (xs ys : List Stmt) :
    listFindings v (xs ++ ys) = listFindings v xs ++ listFindings v ys := by
  induction xs with
  | nil => rfl
  | cons s xs ih => rw [List.cons_append, listFindings, ih, listFindings, List.append_assoc]

namespace Analyzer

def appended {α : Type} (x : Walk α) (a : Analyzer) : List Diagnostic :=
  (x.run a).2.diagnostics.drop a.diagnostics.length

/-- A step that keeps all of a state but adds to what has happened. -/
structure Framed {α : Type} (x : Walk α) (a : Analyzer) : Prop where
  rules : (x.run a).2.rules = a.rules
  scopes : (x.run a).2.scopes = a.scopes
  loopDepth : (x.run a).2.loopDepth = a.loopDepth
  method : (x.run a).2.method = a.method
  foundMain : (x.run a).2.foundMain = a.foundMain
  diagnostics : (x.run a).2.diagnostics = a.diagnostics ++ appended x a

theorem framed_of_run {α : Type} {x : Walk α} {a : Analyzer} {value : α} {events : List Event}
    (h : x.run a = (value, a.settle a.scopes.innermost events)) :
    Framed x a ∧ appended x a = events.filterMap Event.diagnostic? := by
  have hafter : (x.run a).2.diagnostics =
      a.diagnostics ++ events.filterMap Event.diagnostic? := by
    rw [h, diagnostics, diagnostics, ← List.filterMap_append]
    rfl
  have happended : appended x a = events.filterMap Event.diagnostic? := by
    rw [appended, hafter, List.drop_left]
  refine ⟨⟨?_, ?_, ?_, ?_, ?_, by rw [hafter, happended]⟩, happended⟩ <;> rw [h] <;> rfl

theorem typeOf_framed (e : Expr) (a : Analyzer) :
    Framed (typeOf e) a ∧ appended (typeOf e) a = e.findings a.view := by
  obtain ⟨hframed, happended⟩ := framed_of_run (typeOf_run e a)
  exact ⟨hframed, by rw [happended, filterMap_reported]⟩

theorem Leaves.framed {x : Walk Unit} {a : Analyzer} {found : List Diagnostic}
    (h : Leaves x a a.scopes.innermost found) : Framed x a ∧ appended x a = found := by
  obtain ⟨events, hrun, rfl⟩ := h
  exact framed_of_run hrun

/-- Two states that look the same to the walk over a statement. -/
structure Alike (a b : Analyzer) : Prop where
  rules : a.rules = b.rules
  binding : ∀ name, a.scopes.resolve name = b.scopes.resolve name
  inLoop : a.loopDepth = 0 ↔ b.loopDepth = 0
  method : a.method = b.method

theorem Alike.view {a b : Analyzer} (h : Alike a b) : View.Alike a.view b.view where
  rules := h.rules
  binding := h.binding
  inLoop := by
    change (a.loopDepth != 0) = (b.loopDepth != 0)
    by_cases hzero : a.loopDepth = 0
    · rw [hzero, h.inLoop.mp hzero]
    · rw [bne_iff_ne.mpr hzero, bne_iff_ne.mpr fun hb => hzero (h.inLoop.mpr hb)]
  method := h.method

end Analyzer

theorem Analyzer.Leaves.loopDepth {x : Walk Unit} {a : Analyzer} {frame : Frame}
    {found : List Diagnostic} (h : Leaves x a frame found) :
    (x.run a).2.loopDepth = a.loopDepth := by
  obtain ⟨events, hrun, -⟩ := h
  rw [hrun]
  rfl

theorem Step.loopDepth_walk {α : Type} (s : Step α) (a : Analyzer) :
    (s.walk.run a).2.loopDepth = a.loopDepth := by
  cases s with
  | charType | enterScope | enterMethod | leaveMethod => rfl
  | operation | condition | loopBound | assignment => simp only [walk, run_bind, run_require]; rfl
  | scalar | element =>
    simp only [walk, run_bind, run_resolveVariable]
    repeat' split
    all_goals first | rfl | (simp only [run_bind, run_require]; rfl)
  | call name args found span => rw [walk, run_checkCall]; rfl
  | loopVariable var => exact (leaves_of_run (run_checkLoopVariable var a)).loopDepth
  | jump keyword span => exact (leaves_of_run (run_checkJump keyword span a)).loopDepth
  | returned found span =>
    simp only [walk, run_bind, run_get]
    split
    · rfl
    · rw [run_require]
      rfl
  | locals decls =>
    rw [walk, forM_declareLocals_eq]
    exact (forM_declare_leaves _ (locals_flaws decls) a).loopDepth
  | params decls =>
    rw [walk, forM_declareParam_eq]
    exact (forM_declare_leaves _ (params_flaws decls) a).loopDepth
  | fields decls => exact (forM_visitField_leaves decls a).loopDepth
  | announce method =>
    have hname := (declare_leaves method.declaration rfl a).loopDepth
    simp only [walk, run_bind]
    split
    · exact hname
    · exact hname
  | exitScope =>
    rw [walk, run_exitScope]
    split
    · rfl
    · rfl
  | demandMain program =>
    obtain ⟨rules, scopes, events, foundMain, loopDepth, method⟩ := a
    cases foundMain <;> rfl

theorem Course.loopDepth_walk {α : Type} (c : Course α) (a : Analyzer) :
    (c.walk.run a).2.loopDepth = a.loopDepth := by
  induction c generalizing a with
  | done value => rfl
  | step s next ih => exact (ih _ _).trans (s.loopDepth_walk a)
  | mark m next ih => exact ih a
  | looping body next ihbody ih =>
    have hbody := ihbody { a with loopDepth := a.loopDepth + 1 }
    have hloop : ((Analyzer.inLoop body.walk).run a).2.loopDepth = a.loopDepth :=
      congrArg (· - 1) hbody
    exact (ih _).trans hloop

/-- The place of a statement that has nothing around it. -/
def Place.alone (s : Stmt) : Place := ⟨[], ⟨"", none, [], .mk [] [s] s.span, s.span⟩, []⟩

namespace Analyzer

/-- A walk that stops where the loop depth would fall below zero. -/
abbrev CheckedWalk := StateT Analyzer Option

namespace CheckedWalk

def ofWalk {α : Type} (x : Walk α) : CheckedWalk α := fun a => some (x.run a)

def leaveLoop : CheckedWalk Unit := fun a =>
  if a.loopDepth = 0 then none else some ((), { a with loopDepth := a.loopDepth - 1 })

def inLoop (body : CheckedWalk Unit) : CheckedWalk Unit := do
  modify fun a => { a with loopDepth := a.loopDepth + 1 }
  body
  leaveLoop

def along : {α : Type} → Course α → CheckedWalk α
  | _, .done value => pure value
  | _, .step s next => ofWalk s.walk >>= fun value => along (next value)
  | _, .mark _ next => along next
  | _, .looping body next => inLoop (along body) >>= fun _ => along next

def visitStmt (s : Stmt) : CheckedWalk Unit := along (s.course (.alone s))

/-- The depth that a loop gives back is there if its body keeps it. -/
theorem inLoop_eq {body : Walk Unit} (hkeeps : ∀ a, (body.run a).2.loopDepth = a.loopDepth) :
    inLoop (ofWalk body) = ofWalk (Analyzer.inLoop body) := by
  funext a
  let b : Analyzer := { a with loopDepth := a.loopDepth + 1 }
  have hdepth : (body.run b).2.loopDepth ≠ 0 := by
    rw [hkeeps]
    exact Nat.succ_ne_zero _
  have hrun : inLoop (ofWalk body) a = leaveLoop (body.run b).2 := rfl
  rw [hrun, leaveLoop, if_neg hdepth]
  rfl

theorem along_eq {α : Type} (c : Course α) : along c = ofWalk c.walk := by
  induction c with
  | done value => rfl
  | step s next ih => exact congrArg (ofWalk s.walk >>= ·) (funext ih)
  | mark m next ih => exact ih
  | looping body next ihbody ih =>
    rw [along, ihbody, ih, inLoop_eq body.loopDepth_walk]
    rfl

theorem visitStmt_eq (s : Stmt) : visitStmt s = ofWalk (Analyzer.visitStmt s) := by
  rw [visitStmt, along_eq, s.walk_course]

end CheckedWalk

/-- Only the scope of the class is left after a walk. -/
theorem visitProgram_scopes (p : Program) (rules : RuleSet) :
    ∃ frame, ((visitProgram p).run (.new rules)).2.scopes = ⟨frame, [], 1⟩ := by
  obtain ⟨es, hfields, -⟩ := forM_visitField_leaves p.fields (.new rules)
  obtain ⟨fs, hmethods, -⟩ := forM_visitMethod_run p.methods
    ((Analyzer.new rules).settle _ es) rfl
  rw [visitProgram, run_bind, hfields, run_bind, hmethods, run_bind, run_get]
  split
  · exact ⟨_, rfl⟩
  · exact ⟨_, rfl⟩

/-- Expressions and statements change nothing in a state but what has been reported, and never take
more loops back than they open. What they report, and the type of an expression, depends only on
the rules, the visible names, whether a loop is open and the method. So a row of statements
reports what its parts report, and a walk over a program ends in the scope it began in. -/
theorem walk_framed :
    (∀ e a, Framed (typeOf e) a) ∧
    (∀ s a, Framed (visitStmt s) a ∧ CheckedWalk.visitStmt s a = some ((visitStmt s).run a)) ∧
    (∀ e a b, Alike a b → ((typeOf e).run a).1 = ((typeOf e).run b).1 ∧
      appended (typeOf e) a = appended (typeOf e) b) ∧
    (∀ s a b, Alike a b → appended (visitStmt s) a = appended (visitStmt s) b) ∧
    (∀ xs ys a, appended (visitStmts (xs ++ ys)) a =
      appended (visitStmts xs) a ++ appended (visitStmts ys) a) ∧
    ∀ p a, ((Analyzer.analyze p).run a).2.scopes.depth = 1 ∧
      ((Analyzer.analyze p).run a).2.scopes.outer = [] := by
  refine ⟨fun e a => (typeOf_framed e a).1, ?_, ?_, ?_, ?_, ?_⟩
  · intro s a
    exact ⟨(visitStmt_leaves s a).framed.1, by rw [CheckedWalk.visitStmt_eq]; rfl⟩
  · intro e a b h
    rw [(typeOf_framed e a).2, (typeOf_framed e b).2, typeOf_run, typeOf_run]
    exact ⟨e.typeIn_congr h.view, e.findings_congr h.view⟩
  · intro s a b h
    rw [(visitStmt_leaves s a).framed.2, (visitStmt_leaves s b).framed.2]
    exact s.findings_congr h.view
  · intro xs ys a
    rw [(visitStmts_leaves (xs ++ ys) a).framed.2, (visitStmts_leaves xs a).framed.2,
      (visitStmts_leaves ys a).framed.2, Stmt.listFindings_append]
  · intro p a
    obtain ⟨frame, hscopes⟩ := visitProgram_scopes p a.rules
    have hrun : ((Analyzer.analyze p).run a).2.scopes =
        ((visitProgram p).run (.new a.rules)).2.scopes := rfl
    rw [hrun, hscopes]
    exact ⟨rfl, rfl⟩

theorem walk_framed_deeper :
    Alike ⟨.standard, .root, [], false, 1, none⟩
      ⟨.standard, ScopeTable.root.enter, [.entered 2], true, 3, none⟩ ∧
    appended (visitStmt (.assign (.scalar "x" .zero) .assign (.int "1" .zero) .zero))
      ⟨.standard, .root, [], false, 1, none⟩ ≠ [] ∧
    appended (visitStmt (.assign (.scalar "x" .zero) .assign (.int "1" .zero) .zero))
        ⟨.standard, .root, [], false, 1, none⟩ =
      appended (visitStmt (.assign (.scalar "x" .zero) .assign (.int "1" .zero) .zero))
        ⟨.standard, ScopeTable.root.enter, [.entered 2], true, 3, none⟩ := by
  have halike : Alike ⟨.standard, .root, [], false, 1, none⟩
      ⟨.standard, ScopeTable.root.enter, [.entered 2], true, 3, none⟩ :=
    ⟨rfl, fun _ => rfl, by decide, rfl⟩
  refine ⟨halike, by decide, ?_⟩
  exact walk_framed.2.2.2.1 _ _ _ halike

end Analyzer

end Decaf
