import Decaf.Proofs.Visits

namespace Decaf

open Analyzer

/-- A statement and the state in which the walk comes to it. -/
structure Stop where
  site : Site
  state : Analyzer

def Mark.stop? : Mark → Analyzer → Option Stop
  | .stmt site, a => some ⟨site, a⟩
  | .expr _, _ => none

def Course.stops {α : Type} (c : Course α) (a : Analyzer) : List Stop := c.trace Mark.stop? a

/-- All statements of a program with the states in which its analysis comes to them. -/
def Program.stops (rules : RuleSet) (p : Program) : List Stop := p.course.stops (.new rules)

/-- The state fits the place: names stand for what is declared first in the scopes around it, and
the loop depth and the method are those of the place. -/
structure Place.Reached (rules : RuleSet) (place : Place) (a : Analyzer) : Prop where
  rules : a.rules = rules
  lookup : ∀ name, a.scopes.resolve name = place.lookup name
  loopDepth : a.loopDepth = place.loops
  method : a.method = some place.method.context

namespace Place

variable {rules : RuleSet} {place : Place} {a : Analyzer}

theorem Reached.alike (h : place.Reached rules a) : View.Alike a.view (place.view rules) where
  rules := h.rules
  binding name := by rw [resolve_view, ← h.lookup]; rfl
  inLoop := by
    change (a.loopDepth != 0) = (place.loops != 0)
    rw [h.loopDepth]
  method := h.method

theorem Reached.keep {α : Type} {x : Walk α} (h : place.Reached rules a) (hx : Framed x a) :
    place.Reached rules (x.run a).2 where
  rules := hx.rules.trans h.rules
  lookup name := by rw [hx.scopes, h.lookup]
  loopDepth := hx.loopDepth.trans h.loopDepth
  method := hx.method.trans h.method

theorem run_declareLocals (a : Analyzer) (b : Block) :
    ∃ events, (b.locals.forM declareLocals).run (enterScope.run a).2 =
      ((), (enterScope.run a).2.settle (Frame.addAll [] b.declarations) events) := by
  obtain ⟨events, hrun, -⟩ := forM_declare_leaves b.declarations (locals_flaws b.locals)
    (enterScope.run a).2
  exact ⟨events, by rw [forM_declareLocals_eq]; exact hrun⟩

theorem Reached.entering (h : place.Reached rules a) {s : Stmt} {b : Block} {depth : Nat}
    (hdepth : depth = (place.inside s b).loops) :
    (place.inside s b).Reached rules
      ((b.locals.forM declareLocals).run
        (enterScope.run { a with loopDepth := depth }).2).2 := by
  obtain ⟨events, hrun⟩ := run_declareLocals { a with loopDepth := depth } b
  rw [hrun]
  refine ⟨h.rules, ?_, hdepth, h.method⟩
  intro name
  have hresolve := View.resolve_declaring_entering a.view b.declarations name
  rw [Frame.find_addAll_nil] at hresolve
  rw [lookup_inside, ← h.lookup]
  exact hresolve

/-- A block opens a scope for its names and changes nothing else. -/
theorem Reached.inside (h : place.Reached rules a) (s : Stmt) (hs : s.isLoop = false) (b : Block) :
    (place.inside s b).Reached rules
      ((b.locals.forM declareLocals).run (enterScope.run a).2).2 :=
  h.entering (h.loopDepth.trans (place.loops_inside hs b).symm)

theorem Reached.insideLoop (h : place.Reached rules a) (s : Stmt) (hs : s.isLoop = true)
    (b : Block) :
    (place.inside s b).Reached rules
      ((b.locals.forM declareLocals).run
        (enterScope.run { a with loopDepth := a.loopDepth + 1 }).2).2 :=
  h.entering (by rw [h.loopDepth, place.loops_inside_loop hs])

end Place

namespace Course

variable {α β : Type} {c : Course α} {f : α → Course β} {rules : RuleSet} {a : Analyzer}

theorem stops_bind (c : Course α) (f : α → Course β) (a : Analyzer) :
    (c >>= f).stops a = c.stops a ++ (f (c.walk.run a).1).stops (c.walk.run a).2 :=
  trace_bind _ c f a

theorem stops_inScope (body : Course Unit) (a : Analyzer) :
    (inScope body).stops a = body.stops (Analyzer.enterScope.run a).2 := by
  rw [inScope, stops_bind, stops_bind]
  exact List.append_nil _

theorem stops_inLoop (body : Course Unit) (a : Analyzer) :
    (inLoop body).stops a = body.stops { a with loopDepth := a.loopDepth + 1 } :=
  List.append_nil _

def Silent (c : Course α) : Prop := ∀ a, c.stops a = []

theorem silent_pure (value : α) : Silent (pure value) := fun _ => rfl

theorem silent_perform (s : Step α) : Silent (perform s) := fun _ => rfl

theorem Silent.bind (hc : Silent c) (hf : ∀ value, Silent (f value)) : Silent (c >>= f) := by
  intro a
  rw [stops_bind, hc, hf]
  rfl

theorem Silent.expr (hc : Silent c) (e : Expr) : Silent (pass (.expr e) >>= fun _ => c) := hc

theorem Silent.discard (hc : Silent c) : Silent (discard c) := hc.bind fun _ => silent_pure ()

/-- The walk along the course from a state stops at the sites, each time in a state that fits. -/
structure ComesTo (rules : RuleSet) (c : Course α) (a : Analyzer) (sites : List Site) : Prop where
  sites_eq : (c.stops a).map Stop.site = sites
  reached : ∀ stop ∈ c.stops a, stop.site.place.Reached rules stop.state

theorem ComesTo.inScope {body : Course Unit} {sites : List Site}
    (h : ComesTo rules body (Analyzer.enterScope.run a).2 sites) :
    ComesTo rules (inScope body) a sites where
  sites_eq := by rw [stops_inScope, h.sites_eq]
  reached := by rw [stops_inScope]; exact h.reached

theorem ComesTo.inLoop {body : Course Unit} {sites : List Site}
    (h : ComesTo rules body { a with loopDepth := a.loopDepth + 1 } sites) :
    ComesTo rules (inLoop body) a sites where
  sites_eq := by rw [stops_inLoop, h.sites_eq]
  reached := by rw [stops_inLoop]; exact h.reached

theorem Silent.comesTo (hc : Silent c) (a : Analyzer) : ComesTo rules c a [] where
  sites_eq := by rw [hc]; rfl
  reached := by rw [hc]; exact List.forall_mem_nil _

theorem ComesTo.bind {xs ys : List Site} (hc : ComesTo rules c a xs)
    (hf : ComesTo rules (f (c.walk.run a).1) (c.walk.run a).2 ys) :
    ComesTo rules (c >>= f) a (xs ++ ys) where
  sites_eq := by rw [stops_bind, List.map_append, hc.sites_eq, hf.sites_eq]
  reached := by
    rw [stops_bind]
    exact List.forall_mem_append.2 ⟨hc.reached, hf.reached⟩

theorem Silent.andThen {sites : List Site} (hc : Silent c)
    (hf : ComesTo rules (f (c.walk.run a).1) (c.walk.run a).2 sites) :
    ComesTo rules (c >>= f) a sites :=
  (hc.comesTo a).bind hf

theorem ComesTo.andThen {sites : List Site} (hc : ComesTo rules c a sites)
    (hf : ∀ value, Silent (f value)) : ComesTo rules (c >>= f) a sites :=
  List.append_nil sites ▸ hc.bind ((hf _).comesTo _)

theorem ComesTo.stmt {site : Site} {sites : List Site} (hsite : site.place.Reached rules a)
    (h : ComesTo rules c a sites) :
    ComesTo rules (pass (.stmt site) >>= fun _ => c) a (site :: sites) where
  sites_eq := congrArg (site :: ·) h.sites_eq
  reached := List.forall_mem_cons.2 ⟨hsite, h.reached⟩

end Course

open Course

mutual

theorem Expr.silent_course (e : Expr) : Silent e.course := by
  cases e with
  | location place span => exact (place.silent_course span.line false).expr _
  | call called span => exact called.silent_course.expr _
  | int text span | bool value span => exact (silent_pure _).expr _
  | char text span => exact (silent_perform _).expr _
  | unary op operand span =>
    exact (operand.silent_course.discard.bind fun _ => silent_pure _).expr _
  | binary op left right span =>
    exact (left.silent_course.bind fun _ => right.silent_course.bind fun _ =>
      silent_perform _).expr _
  | paren inner span => exact inner.silent_course.expr _

theorem Location.silent_course (place : Location) (line : Nat) (target : Bool) :
    Silent (place.course line target) := by
  cases place with
  | scalar name span => exact silent_perform _
  | indexed name index span => exact index.silent_course.bind fun _ => silent_perform _

theorem Call.silent_course (called : Call) : Silent called.course := by
  cases called with
  | method name args span => exact (Expr.silent_listCourse args).bind fun _ => silent_perform _
  | callout name args span => exact (CalloutArg.silent_listCourse args).bind fun _ => silent_pure _

theorem Expr.silent_listCourse (args : List Expr) : Silent (Expr.listCourse args) := by
  cases args with
  | nil => exact silent_pure _
  | cons arg args =>
    exact arg.silent_course.bind fun _ => (Expr.silent_listCourse args).bind fun _ => silent_pure _

theorem CalloutArg.silent_listCourse (args : List CalloutArg) :
    Silent (CalloutArg.listCourse args) := by
  match args with
  | [] => exact silent_pure _
  | .expr value :: args =>
    exact value.silent_course.discard.bind fun _ => CalloutArg.silent_listCourse args
  | .string text :: args => exact CalloutArg.silent_listCourse args

end

namespace Course

theorem silent_condition (e : Expr) : Silent (condition e) :=
  e.silent_course.bind fun _ => silent_perform _

theorem silent_loopBound (e : Expr) : Silent (loopBound e) :=
  e.silent_course.bind fun _ => silent_perform _

theorem silent_returned (value : Option Expr) (span : Span) : Silent (returned value span) := by
  cases value with
  | none => exact (silent_pure _).bind fun _ => silent_perform _
  | some e => exact e.silent_course.bind fun _ => silent_perform _

theorem silent_assignment (target : Location) (op : AssignOp) (value : Expr) (span : Span) :
    Silent (assignment target op value span) :=
  (target.silent_course span.line true).bind fun _ => value.silent_course.bind fun _ =>
    silent_perform _

end Course

section Statements

variable {rules : RuleSet}

mutual

theorem Stmt.comesTo_course {place : Place} {a : Analyzer} (h : place.Reached rules a) (s : Stmt) :
    ComesTo rules (s.course place) a ((s.visits place).filterMap Visit.site?) := by
  cases s with
  | assign target op value span =>
    exact .stmt h ((silent_assignment target op value span).comesTo a)
  | call called span => exact .stmt h (called.silent_course.discard.comesTo a)
  | ifThen e body span =>
    have htested := h.keep (leaves_of_run (run_checkCondition e a)).framed.1
    rw [← walk_condition] at htested
    refine .stmt h ((silent_condition e).andThen ?_)
    exact (body.comesTo_course (htested.inside (.ifThen e body span) rfl body)).inScope
  | ifElse e body other span =>
    let s := Stmt.ifElse e body other span
    have htested := h.keep (leaves_of_run (run_checkCondition e a)).framed.1
    -- The other block is entered in the state that the first one leaves.
    have hbetween := htested.keep (visitBlock_leaves body _).inScope.framed.1
    rw [← body.walk_course (place.inside s body), ← walk_inScope, ← walk_condition] at hbetween
    rw [← walk_condition] at htested
    have hbody := (body.comesTo_course (htested.inside s rfl body)).inScope
    have hblocks := hbody.bind
      (f := fun _ => Course.inScope (other.course (place.inside s other)))
      (other.comesTo_course (hbetween.inside s rfl other)).inScope
    rw [← List.filterMap_append] at hblocks
    exact .stmt h ((silent_condition e).andThen hblocks)
  | forLoop var first last body span =>
    have hnamed := h.keep (leaves_of_run (run_checkLoopVariable var a)).framed.1
    have hfirst := hnamed.keep (leaves_of_run (run_checkLoopBound first _)).framed.1
    rw [← walk_loopBound] at hfirst
    have hlast := hfirst.keep (leaves_of_run (run_checkLoopBound last _)).framed.1
    rw [← walk_loopBound] at hlast
    refine .stmt h ((silent_perform (.loopVariable var)).andThen ?_)
    refine (silent_loopBound first).andThen ((silent_loopBound last).andThen ?_)
    have hbody := hlast.insideLoop (.forLoop var first last body span) rfl body
    exact (body.comesTo_course hbody).inScope.inLoop
  | returnFrom value span => exact .stmt h ((silent_returned value span).comesTo a)
  | breakLoop span | continueLoop span => exact .stmt h ((silent_perform _).comesTo a)
  | block inner span =>
    exact .stmt h (inner.comesTo_course (h.inside (.block inner span) rfl inner)).inScope

theorem Block.comesTo_course {place : Place} {a : Analyzer} (b : Block)
    (h : place.Reached rules ((b.locals.forM declareLocals).run a).2) :
    ComesTo rules (b.course place) a ((b.visits place).filterMap Visit.site?) := by
  cases b with
  | mk locals statements span =>
    rw [Block.visits, List.filterMap_append, Visit.site?_ofScope, List.nil_append]
    exact (silent_perform (.locals locals)).andThen (Stmt.comesTo_listCourse h statements)

theorem Stmt.comesTo_listCourse {place : Place} {a : Analyzer} (h : place.Reached rules a)
    (stmts : List Stmt) :
    ComesTo rules (Stmt.listCourse place stmts) a
      ((Stmt.listVisits place stmts).filterMap Visit.site?) := by
  cases stmts with
  | nil => exact (silent_pure ()).comesTo a
  | cons s stmts =>
    have hnext := h.keep (visitStmt_leaves s a).framed.1
    rw [← s.walk_course place] at hnext
    rw [Stmt.listVisits, List.filterMap_append]
    exact (s.comesTo_course h).bind (Stmt.comesTo_listCourse hnext stmts)

end

end Statements

section Classes

variable {rules : RuleSet}

theorem Analyzer.Leaves.view {x : Walk Unit} {a : Analyzer} {ds : List Declaration}
    {found : List Diagnostic} (h : Leaves x a (a.scopes.innermost.addAll ds) found) :
    (x.run a).2.view = a.view.declaring ds := by
  obtain ⟨events, hrun, -⟩ := h
  rw [hrun]
  rfl

theorem MethodDecl.view_announce (method : MethodDecl) (a : Analyzer) :
    ((Step.announce method).walk.run a).2.view = a.view.declaring [method.declaration] := by
  have hname : ((declare (methodSymbol method) method.span.line).run a).2.view =
      a.view.declaring [method.declaration] := (declare_leaves method.declaration rfl a).view
  rw [Step.walk, run_bind]
  by_cases hmain : method.name = "main"
  · rw [if_pos hmain]
    exact hname
  · rw [if_neg hmain]
    exact hname

/-- The part of the walk over a method that comes before its body. -/
def MethodDecl.enter (method : MethodDecl) : Walk Unit := do
  (Step.announce method).walk
  enterScope
  method.params.forM declareParam
  modify fun a => { a with method := some method.context }

theorem MethodDecl.view_enter (method : MethodDecl) (a : Analyzer) :
    (method.enter.run a).2.view = method.bodyView a.view := by
  let b : Analyzer := ((Step.announce method).walk.run a).2
  have hparams : ((method.params.forM declareParam).run (enterScope.run b).2).2.view =
      b.view.entering.declaring (method.params.map Param.declaration) := by
    rw [forM_declareParam_eq]
    exact (forM_declare_leaves _ (params_flaws method.params) (enterScope.run b).2).view
  have hbody : (method.enter.run a).2.view =
      { ((method.params.forM declareParam).run (enterScope.run b).2).2.view with
        method := some method.context } := rfl
  rw [hbody, hparams, view_announce]
  rfl

theorem MethodDecl.stops_course (members : List Declaration) (method : MethodDecl) (a : Analyzer) :
    (method.course members).stops a =
      (method.body.course ⟨[], method, members ++ [method.declaration]⟩).stops
        (method.enter.run a).2 := by
  rw [MethodDecl.course, stops_bind, stops_inScope, stops_bind, Course.inMethod,
    stops_bind, stops_bind]
  exact List.append_nil _

theorem MethodDecl.site?_visits (members : List Declaration) (method : MethodDecl) :
    (method.visits members).filterMap Visit.site? =
      (method.body.visits ⟨[], method, members ++ [method.declaration]⟩).filterMap Visit.site? := by
  obtain ⟨name, returnType, params, ⟨locals, statements, bodySpan⟩, span⟩ := method
  rw [MethodDecl.visits, List.filterMap_cons_none rfl, List.filterMap_append, Visit.site?_ofScope,
    Block.visits, List.filterMap_append, Visit.site?_ofScope]
  rfl

theorem MethodDecl.comesTo_course {members : List Declaration} {a : Analyzer}
    (h : a.view = .ofClass rules members) (method : MethodDecl) :
    ComesTo rules (method.course members) a ((method.visits members).filterMap Visit.site?) := by
  let place : Place := ⟨[], method, members ++ [method.declaration]⟩
  let b : Analyzer := ((method.body.locals.forM declareLocals).run (method.enter.run a).2).2
  have hview : b.view =
      (method.bodyView (.ofClass rules members)).declaring method.body.declarations := by
    rw [← h, ← method.view_enter a]
    change ((method.body.locals.forM declareLocals).run _).2.view = _
    rw [forM_declareLocals_eq]
    exact (forM_declare_leaves _ (locals_flaws method.body.locals) _).view
  have hplace := View.alike_body rules members method
  rw [← hview] at hplace
  have hloop : (b.loopDepth != 0) = false := hplace.inLoop
  have hreached : place.Reached rules b := by
    refine ⟨hplace.rules, ?_, bne_eq_false_iff_eq.1 hloop, hplace.method⟩
    intro name
    rw [← Place.resolve_view rules]
    exact hplace.binding name
  have hbody := method.body.comesTo_course hreached
  rw [method.site?_visits]
  constructor
  · rw [method.stops_course, hbody.sites_eq]
  · rw [method.stops_course]
    exact hbody.reached

theorem MethodDecl.comesTo_listCourse {members : List Declaration} {a : Analyzer}
    (h : a.view = .ofClass rules members) (methods : List MethodDecl) :
    ComesTo rules (MethodDecl.listCourse members methods) a
      ((MethodDecl.listVisits members methods).filterMap Visit.site?) := by
  induction methods generalizing members a with
  | nil => exact (silent_pure ()).comesTo a
  | cons method methods ih =>
    have hnone : a.method = none := congrArg View.method h
    have hnext : (((method.course members).walk).run a).2.view =
        .ofClass rules (members ++ [method.declaration]) := by
      obtain ⟨events, hrun, -⟩ := visitMethod_run method a hnone
      rw [method.walk_course, hrun, ← View.ofClass_declaring, ← h]
      rfl
    rw [listVisits, List.filterMap_append]
    exact (method.comesTo_course h).bind (ih hnext)

theorem Program.comesTo_course (p : Program) : ComesTo rules p.course (.new rules) p.sites := by
  have hfields : (((Step.fields p.fields).walk).run (.new rules)).2.view =
      .ofClass rules p.fieldDeclarations := (forM_visitField_leaves p.fields (.new rules)).view
  rw [sites, visits, List.filterMap_append, Visit.site?_ofScope]
  refine (silent_perform (.fields p.fields)).andThen ?_
  exact (MethodDecl.comesTo_listCourse hfields p.methods).andThen fun _ => silent_perform _

/-- The analysis comes to every statement of the program once, in the order of the source. -/
theorem Program.map_site_stops (rules : RuleSet) (p : Program) :
    (p.stops rules).map Stop.site = p.sites :=
  p.comesTo_course.sites_eq

theorem Program.stops_reached (p : Program) :
    ∀ stop ∈ p.stops rules, stop.site.place.Reached rules stop.state :=
  p.comesTo_course.reached

end Classes

def Visit.clash? : Visit → Option Diagnostic
  | declaration d earlier =>
    if earlier.any fun e => e.symbol.name == d.symbol.name then some d.clash else none
  | statement _ => none

theorem Visit.filter_isDuplicate_verdict (rules : RuleSet) (visit : Visit) :
    (visit.verdict rules).filter (fun d => d.defect.isDuplicate) = visit.clash?.toList := by
  cases visit with
  | declaration d earlier =>
    rw [verdict, clash?]
    split <;> rfl
  | statement site =>
    obtain ⟨s, place⟩ := site
    cases s with
    | returnFrom value span => exact filter_breach_of_false rfl
    | breakLoop span | continueLoop span => exact filter_breach_of_false rfl
    | _ => rfl

/-- A declaration is reported if and only if its name stands in front of it in its scope, with its
own name and type; names that are declared further out do not matter. The analysis comes to every
statement, and whatever it looks up there, it finds the first declaration in the innermost scope
that has the name. -/
theorem duplicates_analyze (rules : RuleSet) (p : Program) :
    (analyze rules p).filter (fun d => d.defect.isDuplicate) = p.visits.filterMap Visit.clash? ∧
    (p.stops rules).map Stop.site = p.sites ∧
    ∀ stop ∈ p.stops rules, ∀ name,
      stop.state.scopes.resolve name = stop.site.place.lookup name := by
  refine ⟨?_, p.map_site_stops rules, fun stop hstop => (p.stops_reached stop hstop).lookup⟩
  exact filter_analyze_eq (fun defect h => by simp [Defect.isStructural, h])
    (Visit.filter_isDuplicate_verdict rules) p

def Stmt.jump? : Stmt → Option String
  | .breakLoop _ => some "break"
  | .continueLoop _ => some "continue"
  | _ => none

/-- The complaint about a jump that stands in the body of no loop of its method. -/
def Site.strayJump? (site : Site) : Option Diagnostic :=
  if site.place.around.any fun level => level.1.isLoop then none
  else site.stmt.jump?.map fun keyword => .ofSpan (.invalidControlFlow keyword) site.stmt.span

theorem Place.loops_bne_zero (place : Place) :
    (place.loops != 0) = place.around.any fun level => level.1.isLoop := by
  rw [Bool.eq_iff_iff, bne_iff_ne, ← Nat.pos_iff_ne_zero, loops, List.countP_pos_iff,
    List.any_eq_true]

theorem Site.strayJump?_eq_none {site : Site} (h : site.stmt.jump? = none) :
    site.strayJump? = none := by
  rw [strayJump?, h, Option.map_none, ite_self]

theorem breach_eq_strayJump? {site : Site} {keyword : String}
    (h : site.stmt.jump? = some keyword) :
    breach (site.place.loops != 0) (.invalidControlFlow keyword) site.stmt.span =
      site.strayJump?.toList := by
  rw [Place.loops_bne_zero, breach, Site.strayJump?, h]
  cases site.place.around.any fun level => level.1.isLoop <;> rfl

theorem Site.filter_isControlFlow_verdict (rules : RuleSet) (site : Site) :
    (site.verdict rules).filter (fun d => d.defect.isControlFlow) = site.strayJump?.toList := by
  obtain ⟨s, place⟩ := site
  cases s with
  | returnFrom value span =>
    rw [strayJump?_eq_none rfl]
    exact filter_breach_of_false rfl
  | breakLoop span | continueLoop span =>
    exact (filter_breach rfl).trans (breach_eq_strayJump? rfl)
  | _ =>
    rw [strayJump?_eq_none rfl]
    rfl

/-- A jump is reported if and only if it stands in the body of no loop of its method, in the order
of the source. The loop depth of the analysis at a statement is the number of loops around it:
conditions and blocks do not count, and what comes behind a statement, be it a loop, is judged as if
the statement were not there. -/
theorem stray_jumps_analyze (rules : RuleSet) (p : Program) :
    (analyze rules p).filter (fun d => d.defect.isControlFlow) =
      p.sites.filterMap Site.strayJump? ∧
    (p.stops rules).map Stop.site = p.sites ∧
    (∀ stop ∈ p.stops rules, stop.state.loopDepth = stop.site.place.loops) ∧
    ∀ s stmts a,
      appended (visitStmts (s :: stmts)) a =
        appended (visitStmt s) a ++ appended (visitStmts stmts) a := by
  refine ⟨?_, p.map_site_stops rules, fun stop hstop => (p.stops_reached stop hstop).loopDepth, ?_⟩
  · exact filter_analyze_sites (fun defect h => by simp [Defect.isStructural, h]) (fun _ _ => rfl)
      (Site.filter_isControlFlow_verdict rules) p
  · intro s stmts a
    rw [(visitStmts_leaves (s :: stmts) a).framed.2, (visitStmt_leaves s a).framed.2,
      (visitStmts_leaves stmts a).framed.2, Stmt.listFindings]

end Decaf
