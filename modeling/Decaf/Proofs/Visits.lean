import Decaf.Proofs.Operations
import Mathlib.Data.List.Basic

namespace Decaf

open Analyzer

/-- What a walk comes by: a declaration, with those in front of it in its scope, or a statement. -/
inductive Visit where
  | declaration (d : Declaration) (earlier : List Declaration)
  | statement (site : Site)

namespace Visit

def site? : Visit → Option Site
  | declaration _ _ => none
  | statement site => some site

def ofScope (earlier : List Declaration) : List Declaration → List Visit
  | [] => []
  | d :: ds => .declaration d earlier :: ofScope (earlier ++ [d]) ds

theorem site?_ofScope (earlier ds : List Declaration) :
    (ofScope earlier ds).filterMap site? = [] := by
  induction ds generalizing earlier with
  | nil => rfl
  | cons d ds ih => exact ih _

end Visit

mutual

def Stmt.visits (place : Place) : Stmt → List Visit
  | .assign target op value span => [.statement ⟨.assign target op value span, place⟩]
  | .call called span => [.statement ⟨.call called span, place⟩]
  | .ifThen condition body span =>
    let s := Stmt.ifThen condition body span
    .statement ⟨s, place⟩ :: body.visits (place.inside s body)
  | .ifElse condition body other span =>
    let s := Stmt.ifElse condition body other span
    .statement ⟨s, place⟩ ::
      (body.visits (place.inside s body) ++ other.visits (place.inside s other))
  | .forLoop var first last body span =>
    let s := Stmt.forLoop var first last body span
    .statement ⟨s, place⟩ :: body.visits (place.inside s body)
  | .returnFrom value span => [.statement ⟨.returnFrom value span, place⟩]
  | .breakLoop span => [.statement ⟨.breakLoop span, place⟩]
  | .continueLoop span => [.statement ⟨.continueLoop span, place⟩]
  | .block inner span =>
    let s := Stmt.block inner span
    .statement ⟨s, place⟩ :: inner.visits (place.inside s inner)

def Block.visits (place : Place) : Block → List Visit
  | .mk locals statements span =>
    Visit.ofScope [] (Block.mk locals statements span).declarations ++
      Stmt.listVisits place statements

def Stmt.listVisits (place : Place) : List Stmt → List Visit
  | [] => []
  | s :: stmts => s.visits place ++ Stmt.listVisits place stmts

end

/-- A method declares its name before the walk goes into it. -/
def MethodDecl.visits (members : List Declaration) (method : MethodDecl) : List Visit :=
  .declaration method.declaration members ::
    (Visit.ofScope [] method.locals ++
      Stmt.listVisits ⟨[], method, members ++ [method.declaration]⟩ method.body.statements)

def MethodDecl.listVisits (members : List Declaration) : List MethodDecl → List Visit
  | [] => []
  | method :: methods =>
    method.visits members ++ listVisits (members ++ [method.declaration]) methods

namespace Program

def visits (p : Program) : List Visit :=
  Visit.ofScope [] p.fieldDeclarations ++ MethodDecl.listVisits p.fieldDeclarations p.methods

/-- The statements of a program in the order of the source, those in a statement behind it. -/
def sites (p : Program) : List Site := p.visits.filterMap Visit.site?

end Program

namespace ScopeTable

def ofFrames : List Frame → ScopeTable
  | [] => .root
  | frame :: frames => ⟨frame, frames, frames.length + 1⟩

theorem resolve_ofFrames (frames : List Frame) (name : String) :
    (ofFrames frames).resolve name = frames.findSome? fun frame => frame.find name := by
  cases frames <;> rfl

end ScopeTable

namespace Place

def view (rules : RuleSet) (place : Place) : View where
  rules := rules
  scopes := .ofFrames (place.scopes.map fun ds => ds.map Declaration.symbol)
  inLoop := place.loops != 0
  method := some place.method.context

theorem resolve_view (rules : RuleSet) (place : Place) (name : String) :
    (place.view rules).scopes.resolve name = place.lookup name := by
  rw [view, ScopeTable.resolve_ofFrames, List.findSome?_map]
  rfl

theorem lookup_inside (place : Place) (s : Stmt) (b : Block) (name : String) :
    (place.inside s b).lookup name =
      (Frame.find (b.declarations.map Declaration.symbol) name).or (place.lookup name) := by
  have hcons : (place.inside s b).scopes = b.declarations :: place.scopes := rfl
  rw [lookup, hcons, List.findSome?_cons]
  cases Frame.find (b.declarations.map Declaration.symbol) name <;> rfl

theorem loops_inside_loop (place : Place) {s : Stmt} (h : s.isLoop = true) (b : Block) :
    (place.inside s b).loops = place.loops + 1 :=
  List.countP_cons_of_pos h

theorem loops_inside (place : Place) {s : Stmt} (h : s.isLoop = false) (b : Block) :
    (place.inside s b).loops = place.loops :=
  List.countP_cons_of_neg (by simp [h])

end Place

theorem Frame.find_addAll_nil (ds : List Declaration) (name : String) :
    (Frame.addAll [] ds).find name = Frame.find (ds.map Declaration.symbol) name := by
  rw [Frame.find_addAll, Frame.find, List.find?_nil, Option.none_or]

namespace View

variable {v : View} {rules : RuleSet} {place : Place}

theorem Alike.resolve_inside (h : Alike v (place.view rules)) (s : Stmt) (b : Block)
    (name : String) :
    (v.entering.declaring b.declarations).scopes.resolve name = (place.inside s b).lookup name := by
  rw [resolve_declaring_entering, Frame.find_addAll_nil, h.binding, Place.resolve_view,
    Place.lookup_inside]

theorem Alike.inside (h : Alike v (place.view rules)) (s : Stmt) (hs : s.isLoop = false)
    (b : Block) :
    Alike (v.entering.declaring b.declarations) ((place.inside s b).view rules) where
  rules := h.rules
  binding name := by rw [h.resolve_inside s, Place.resolve_view]
  inLoop := by
    rw [Place.view, place.loops_inside hs]
    exact h.inLoop
  method := h.method

theorem Alike.insideLoop (h : Alike v (place.view rules)) (s : Stmt) (hs : s.isLoop = true)
    (b : Block) :
    Alike (v.looping.entering.declaring b.declarations) ((place.inside s b).view rules) where
  rules := h.rules
  binding name := by rw [Place.resolve_view, ← h.resolve_inside s]; rfl
  inLoop := by
    rw [Place.view, place.loops_inside_loop hs]
    rfl
  method := h.method

end View

namespace Defect

def isDuplicate : Defect → Bool
  | .duplicateDeclaration _ _ => true
  | _ => false

def isReturn : Defect → Bool
  | .returnMismatch _ _ _ => true
  | _ => false

def isControlFlow : Defect → Bool
  | .invalidControlFlow _ => true
  | _ => false

/-- Defects that belong to a declaration or a statement and not to an expression in it. -/
def isStructural (defect : Defect) : Bool :=
  defect.isDuplicate || defect.isReturn || defect.isControlFlow

end Defect

def structural (found : List Diagnostic) : List Diagnostic :=
  found.filter fun d => d.defect.isStructural

@[simp]
theorem structural_nil : structural [] = [] := rfl

@[simp]
theorem structural_append (xs ys : List Diagnostic) :
    structural (xs ++ ys) = structural xs ++ structural ys :=
  List.filter_append xs ys

section Breach

variable {condition : Bool} {defect : Defect} {span : Span}

theorem structural_breach (h : defect.isStructural = true) :
    structural (breach condition defect span) = breach condition defect span :=
  filter_breach h

theorem structural_breach_of_false (h : defect.isStructural = false) :
    structural (breach condition defect span) = [] :=
  filter_breach_of_false h

end Breach

section Expressions

variable (v : View)

theorem structural_sparesReferences : SparesReferences Defect.isStructural := by
  intro defect h
  cases defect with
  | duplicateDeclaration | returnMismatch | invalidControlFlow => cases h
  | _ => rfl

theorem structural_operations (ops : List Operation) :
    (ops.flatMap fun o => structural (o.findings v)) = [] :=
  List.flatMap_eq_nil_iff.2 fun _ _ => structural_breach_of_false rfl

theorem Expr.structural_findings (e : Expr) : structural (e.findings v) = [] :=
  (e.filter_findings v structural_sparesReferences).trans (structural_operations v _)

theorem Location.structural_findings (place : Location) (line : Nat) (target : Bool) :
    structural (place.findings v line target) = [] :=
  (place.filter_findings v structural_sparesReferences line target).trans
    (structural_operations v _)

theorem Call.structural_findings (called : Call) : structural (called.findings v) = [] :=
  (called.filter_findings v structural_sparesReferences).trans (structural_operations v _)

theorem structural_wantedFindings (e : Expr) {ok : Ty → Bool} {defect : Ty → Defect}
    (h : ∀ type, (defect type).isStructural = false) :
    structural (v.wantedFindings e ok defect) = [] := by
  rw [View.wantedFindings, structural_append, e.structural_findings,
    structural_breach_of_false (h _), List.append_nil]

theorem structural_loopVariable (var : Name) : structural (v.loopVariableFindings var) = [] := by
  have hname : structural (v.nameFindings var.text false var.span) = [] :=
    filter_references structural_sparesReferences fun _ => isReference_nameFindings
  rw [View.loopVariableFindings, structural_append, hname, List.nil_append]
  split
  · rfl
  · exact structural_breach_of_false rfl

end Expressions

/-- A declaration that comes behind another one of the same name in its scope. -/
def Declaration.clash (d : Declaration) : Diagnostic :=
  .ofSpan (.duplicateDeclaration d.symbol.name d.symbol.type) (d.symbol.span.onLine d.line)

/-- What is wrong with a statement apart from the expressions in it. -/
def Site.verdict (rules : RuleSet) (site : Site) : List Diagnostic :=
  match site.stmt with
  | .returnFrom value span =>
    let found := (site.place.view rules).returnType value
    let promised := site.place.method.context
    breach (found == promised.returnType || found.isUnknown)
      (.returnMismatch promised.name promised.returnType found) span
  | .breakLoop span => breach (site.place.loops != 0) (.invalidControlFlow "break") span
  | .continueLoop span => breach (site.place.loops != 0) (.invalidControlFlow "continue") span
  | _ => []

def Visit.verdict (rules : RuleSet) : Visit → List Diagnostic
  | declaration d earlier =>
    if earlier.any fun e => e.symbol.name == d.symbol.name then [d.clash] else []
  | statement site => site.verdict rules

section Verdicts

variable {v : View} {rules : RuleSet} {place : Place}

theorem find_isNone_addAll (earlier : List Declaration) (name : String) :
    ((Frame.addAll [] earlier).find name).isNone =
      !earlier.any fun e => e.symbol.name == name := by
  rw [Frame.find_addAll_nil, Frame.find, List.find?_map, Option.isNone_map, Bool.eq_iff_iff,
    Option.isNone_iff_eq_none, List.find?_eq_none]
  simp

/-- A declaration clashes with what its scope has taken up so far exactly if its name stands
somewhere in front of it. -/
theorem structural_frameFindings (earlier : List Declaration) {ds : List Declaration}
    (h : ∀ d ∈ ds, structural d.flaws = []) :
    structural ((Frame.addAll [] earlier).findings ds) =
      (Visit.ofScope earlier ds).flatMap (Visit.verdict rules) := by
  induction ds generalizing earlier with
  | nil => rfl
  | cons d ds ih =>
    obtain ⟨hd, hds⟩ := List.forall_mem_cons.1 h
    have hnext : (Frame.addAll [] earlier).add d.symbol = Frame.addAll [] (earlier ++ [d]) := by
      rw [Frame.addAll_append]
      rfl
    have hclash : breach ((Frame.addAll [] earlier).find d.symbol.name).isNone
        (.duplicateDeclaration d.symbol.name d.symbol.type) (d.symbol.span.onLine d.line) =
          (Visit.declaration d earlier).verdict rules := by
      rw [find_isNone_addAll, breach, Visit.verdict]
      cases earlier.any fun e => e.symbol.name == d.symbol.name <;> rfl
    rw [Frame.findings, structural_append, structural_append, hd, structural_breach rfl, hclash,
      hnext, ih _ hds, Visit.ofScope, List.flatMap_cons, List.nil_append]

theorem structural_locals (locals : List VarDecl) :
    ∀ d ∈ locals.flatMap VarDecl.declarations, structural d.flaws = [] := by
  intro d hd
  rw [locals_flaws locals d hd, structural_nil]

theorem structural_returnFindings (h : View.Alike v (place.view rules)) (value : Option Expr)
    (span : Span) :
    structural (v.returnFindings value span) =
      (Site.mk (.returnFrom value span) place).verdict rules := by
  have hvalue : structural ((value.map (Expr.findings (place.view rules))).getD []) = [] := by
    cases value with
    | none => rfl
    | some e => exact e.structural_findings _
  rw [h.returnFindings, View.returnFindings, structural_append, hvalue, List.nil_append]
  exact structural_breach rfl

end Verdicts

mutual

/-- What is structurally wrong with a statement is what is wrong with the statements and
declarations in it, one after the other. -/
theorem Stmt.structural_findings {v : View} {rules : RuleSet} {place : Place}
    (h : View.Alike v (place.view rules)) : (s : Stmt) →
    structural (s.findings v) = (s.visits place).flatMap (Visit.verdict rules)
  | .assign target op value span => by
    rw [Stmt.findings, structural_append, structural_append, target.structural_findings,
      value.structural_findings, structural_breach_of_false rfl]
    rfl
  | .call called _ => called.structural_findings v
  | .ifThen condition body span => by
    have hbody := body.structural_findings (h.inside (.ifThen condition body span) rfl body)
    rw [Stmt.findings, structural_append, View.conditionFindings,
      structural_wantedFindings v condition fun _ => rfl, hbody]
    rfl
  | .ifElse condition body other span => by
    have hbody := body.structural_findings (h.inside (.ifElse condition body other span) rfl body)
    have hother := other.structural_findings
      (h.inside (.ifElse condition body other span) rfl other)
    rw [Stmt.findings, structural_append, structural_append, View.conditionFindings,
      structural_wantedFindings v condition fun _ => rfl, hbody, hother, Stmt.visits,
      List.flatMap_cons, List.flatMap_append]
    rfl
  | .forLoop var first last body span => by
    have hbody := body.structural_findings
      (h.insideLoop (.forLoop var first last body span) rfl body)
    rw [Stmt.findings, structural_append, structural_append, structural_append,
      structural_loopVariable, View.boundFindings, View.boundFindings,
      structural_wantedFindings v first fun _ => rfl, structural_wantedFindings v last fun _ => rfl,
      hbody]
    rfl
  | .returnFrom value span => by
    rw [Stmt.findings, structural_returnFindings h, Stmt.visits, List.flatMap_singleton]
    rfl
  | .breakLoop span | .continueLoop span => by
    rw [Stmt.findings, structural_breach rfl, h.inLoop, Stmt.visits, List.flatMap_singleton]
    rfl
  | .block inner span => by
    rw [Stmt.findings, inner.structural_findings (h.inside (.block inner span) rfl inner)]
    rfl

theorem Block.structural_findings {v : View} {rules : RuleSet} {place : Place} : (b : Block) →
    View.Alike (v.entering.declaring b.declarations) (place.view rules) →
    structural (b.findings v.entering) = (b.visits place).flatMap (Visit.verdict rules)
  | .mk locals statements span, h => by
    rw [Block.findings, structural_append, Stmt.structural_listFindings h statements, Block.visits,
      List.flatMap_append]
    exact congrArg (· ++ _) (structural_frameFindings [] (structural_locals locals))

theorem Stmt.structural_listFindings {v : View} {rules : RuleSet} {place : Place}
    (h : View.Alike v (place.view rules)) : (stmts : List Stmt) →
    structural (Stmt.listFindings v stmts) =
      (Stmt.listVisits place stmts).flatMap (Visit.verdict rules)
  | [] => rfl
  | s :: stmts => by
    rw [Stmt.listFindings, structural_append, s.structural_findings h,
      Stmt.structural_listFindings h stmts, Stmt.listVisits, List.flatMap_append]

end

section Classes

variable (rules : RuleSet)

def View.ofClass (members : List Declaration) : View :=
  (View.mk rules .root false none).declaring members

theorem View.ofClass_declaring (xs ys : List Declaration) :
    (ofClass rules xs).declaring ys = ofClass rules (xs ++ ys) := by
  rw [ofClass, ofClass, declaring, declaring, declaring, Frame.addAll_append]

theorem View.resolve_ofClass (members : List Declaration) (name : String) :
    (ofClass rules members).scopes.resolve name =
      Frame.find (members.map Declaration.symbol) name := by
  rw [← Frame.find_addAll_nil]
  exact List.findSome?_singleton

theorem View.alike_body (members : List Declaration) (method : MethodDecl) :
    Alike ((method.bodyView (ofClass rules members)).declaring method.body.declarations)
      (Place.view rules ⟨[], method, members ++ [method.declaration]⟩) where
  rules := rfl
  binding name := by
    let outer : View := ofClass rules (members ++ [method.declaration])
    -- Parameters and outermost variables fill the same scope one after the other.
    have hscopes : ((method.bodyView (ofClass rules members)).declaring
        method.body.declarations).scopes = (outer.entering.declaring method.locals).scopes := by
      rw [MethodDecl.bodyView, ofClass_declaring, declaring, declaring, declaring,
        MethodDecl.locals, Frame.addAll_append]
    have hlookup : Place.lookup ⟨[], method, members ++ [method.declaration]⟩ name =
        (Frame.find (method.locals.map Declaration.symbol) name).or
          (Frame.find ((members ++ [method.declaration]).map Declaration.symbol) name) := by
      simp only [Place.lookup, Place.scopes, List.map_nil, List.nil_append, List.findSome?_cons,
        List.findSome?_nil]
      cases Frame.find (method.locals.map Declaration.symbol) name <;>
        cases Frame.find ((members ++ [method.declaration]).map Declaration.symbol) name <;> rfl
    rw [hscopes, resolve_declaring_entering, Frame.find_addAll_nil, resolve_ofClass,
      Place.resolve_view, hlookup]
  inLoop := rfl
  method := rfl

theorem MethodDecl.findings_eq (v : View) (method : MethodDecl) :
    method.findings v =
      v.scopes.innermost.findings [method.declaration] ++ Frame.findings [] method.locals ++
        Stmt.listFindings ((method.bodyView v).declaring method.body.declarations)
          method.body.statements := by
  obtain ⟨name, returnType, params, ⟨locals, statements, bodySpan⟩, span⟩ := method
  rw [findings, MethodDecl.locals, Frame.findings_append, Block.findings]
  simp only [List.append_assoc]
  rfl

theorem MethodDecl.structural_findings (members : List Declaration) (method : MethodDecl) :
    structural (method.findings (.ofClass rules members)) =
      (method.visits members).flatMap (Visit.verdict rules) := by
  have hflaws : ∀ d ∈ method.locals, structural d.flaws = [] := by
    refine List.forall_mem_append.2 ⟨?_, structural_locals method.body.locals⟩
    intro d hd
    rw [params_flaws method.params d hd, structural_nil]
  have hname : structural ((Frame.addAll [] members).findings [method.declaration]) =
      (Visit.ofScope members [method.declaration]).flatMap (Visit.verdict rules) :=
    structural_frameFindings members (List.forall_mem_singleton.2 rfl)
  have hlocals : structural (Frame.findings [] method.locals) =
      (Visit.ofScope [] method.locals).flatMap (Visit.verdict rules) :=
    structural_frameFindings [] hflaws
  have hbody := Stmt.structural_listFindings (View.alike_body rules members method)
    method.body.statements
  rw [findings_eq, structural_append, structural_append, hlocals, hbody, visits, List.flatMap_cons,
    List.flatMap_append, ← List.append_assoc]
  exact congrArg (· ++ _ ++ _) (hname.trans (List.flatMap_singleton _ _))

theorem MethodDecl.structural_listFindings (members : List Declaration)
    (methods : List MethodDecl) :
    structural (MethodDecl.listFindings (.ofClass rules members) methods) =
      (MethodDecl.listVisits members methods).flatMap (Visit.verdict rules) := by
  induction methods generalizing members with
  | nil => rfl
  | cons method methods ih =>
    rw [listFindings, structural_append, method.structural_findings rules, View.ofClass_declaring,
      ih, listVisits, List.flatMap_append]

end Classes

theorem structural_fields (p : Program) : ∀ d ∈ p.fieldDeclarations, structural d.flaws = [] := by
  intro d hd
  obtain ⟨decl, -, hd⟩ := List.mem_flatMap.1 hd
  obtain ⟨name, -, rfl⟩ := List.mem_map.1 hd
  change structural (decl.sizeFindings name) = []
  unfold FieldDecl.sizeFindings
  split
  · rfl
  · exact structural_breach_of_false rfl

/-- Clashes of declarations, wrong returns and stray jumps are reported where the walk comes by
them. -/
theorem structural_analyze (rules : RuleSet) (p : Program) :
    structural (analyze rules p) = p.visits.flatMap (Visit.verdict rules) := by
  have hmain : structural p.mainFindings = [] := by
    unfold Program.mainFindings
    split <;> rfl
  have hfields : structural (Frame.findings [] p.fieldDeclarations) =
      (Visit.ofScope [] p.fieldDeclarations).flatMap (Visit.verdict rules) :=
    structural_frameFindings [] (structural_fields p)
  have hmethods := MethodDecl.structural_listFindings rules p.fieldDeclarations p.methods
  rw [analyze_eq_findings, Program.findings, structural_append, structural_append, hfields, hmain,
    List.append_nil, Program.visits, List.flatMap_append]
  exact congrArg (_ ++ ·) hmethods

section Kinds

variable {kind : Defect → Bool}
  (hkind : ∀ defect, kind defect = true → defect.isStructural = true) {rules : RuleSet}
include hkind

/-- The diagnostics of one of these kinds are read off the list if each member of it is. -/
theorem filter_analyze_eq {complaint? : Visit → Option Diagnostic}
    (h : ∀ visit : Visit,
      (visit.verdict rules).filter (fun d => kind d.defect) = (complaint? visit).toList)
    (p : Program) :
    (analyze rules p).filter (fun d => kind d.defect) = p.visits.filterMap complaint? := by
  have hfilter : (analyze rules p).filter (fun d => kind d.defect) =
      (structural (analyze rules p)).filter fun d => kind d.defect := by
    rw [structural, List.filter_filter]
    refine List.filter_congr fun d _ => ?_
    cases hk : kind d.defect with
    | false => rfl
    | true => exact (hkind d.defect hk).symm
  rw [hfilter, structural_analyze, List.filter_flatMap, List.filterMap_eq_flatMap_toList]
  exact congrArg (p.visits.flatMap ·) (funext h)

theorem filter_analyze_sites (hclash : ∀ name type, kind (.duplicateDeclaration name type) = false)
    {complaint? : Site → Option Diagnostic}
    (h : ∀ site : Site,
      (site.verdict rules).filter (fun d => kind d.defect) = (complaint? site).toList)
    (p : Program) :
    (analyze rules p).filter (fun d => kind d.defect) = p.sites.filterMap complaint? := by
  rw [Program.sites, List.filterMap_filterMap]
  refine filter_analyze_eq hkind (fun visit => ?_) p
  cases visit with
  | declaration d earlier =>
    have hspared : kind d.clash.defect = false := hclash _ _
    rw [Visit.verdict]
    split
    · rw [List.filter_singleton, hspared]
      rfl
    · rfl
  | statement site => exact h site

end Kinds

end Decaf
