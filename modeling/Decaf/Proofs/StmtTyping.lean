import Mathlib.Data.List.Forall2
import Mathlib.Data.List.Nodup
import Decaf.Proofs.ExprTyping

namespace Decaf.Typing

/-- The names of a frame are those of a scope, in the same order. -/
def Mirrors (frame : Frame) (scope : Scope) : Prop :=
  List.Forall₂ (fun s entry => s.name = entry.1 ∧ Stands s entry.2) frame scope

theorem Mirrors.find {frame : Frame} {scope : Scope} (h : Mirrors frame scope) (name : String) :
    Option.Rel Stands (frame.find name) (scope.lookup name) := by
  induction h with
  | nil => exact .none
  | @cons s entry frame scope hs _ ih =>
    obtain ⟨hname, hstands⟩ := hs
    by_cases heq : s.name = name
    · have hentry : (name == entry.1) = true := by simp [← hname, heq]
      have hfound : Frame.find (s :: frame) name = some s := by simp [Frame.find, heq]
      rw [hfound, List.lookup_cons, hentry]
      exact .some hstands
    · have hentry : (name == entry.1) = false := by
        simp only [beq_eq_false_iff_ne, ← hname]
        exact Ne.symm heq
      have hfound : Frame.find (s :: frame) name = Frame.find frame name := by
        simp [Frame.find, heq]
      rw [hfound, List.lookup_cons, hentry]
      exact ih

theorem findSome_rel {frames : List Frame} {env : Env} (h : List.Forall₂ Mirrors frames env)
    (name : String) :
    Option.Rel Stands (frames.findSome? fun frame => frame.find name) (env.meaning? name) := by
  induction h with
  | nil => exact .none
  | @cons frame scope frames env hm _ ih =>
    have hfind := hm.find name
    simp only [List.findSome?_cons, Env.meaning?] at ih ⊢
    generalize frame.find name = found at hfind
    generalize scope.lookup name = meaning at hfind
    cases hfind with
    | none => exact ih
    | some hs => exact .some hs

/-- What is visible inside a method with the given result: the scopes of the environment, and
whether a loop is open. -/
structure Inside (result : Option ScalarType) (env : Env) (inLoop : Bool) (v : View) : Prop where
  standard : v.rules = .standard
  frames : List.Forall₂ Mirrors (v.scopes.innermost :: v.scopes.outer) env
  loop : v.inLoop = inLoop
  method : ∃ name, v.method = some ⟨name, .ofReturn result⟩

theorem Inside.sees {result : Option ScalarType} {env : Env} {inLoop : Bool} {v : View}
    (h : Inside result env inLoop v) : Sees v env :=
  ⟨h.standard, findSome_rel h.frames⟩

def names (ds : List Declaration) : List String := ds.map fun d => d.symbol.name

theorem find_eq_none_iff {frame : Frame} {name : String} :
    frame.find name = none ↔ name ∉ frame.map Symbol.name := by
  simp [Frame.find]

/-- Declarations have nothing wrong with them exactly if none has a flaw of its own and their names
are new and differ from each other. -/
theorem frameFindings_eq_nil_iff {frame : Frame} {ds : List Declaration}
    (hframe : (frame.map Symbol.name).Nodup) :
    frame.findings ds = [] ↔
      (∀ d ∈ ds, d.flaws = []) ∧ (frame.map Symbol.name ++ names ds).Nodup := by
  induction ds generalizing frame with
  | nil => simp [Frame.findings, names, hframe]
  | cons d ds ih =>
    simp only [Frame.findings, List.append_eq_nil_iff, breach_eq_nil_iff, Option.isNone_iff_eq_none,
      List.forall_mem_cons, and_assoc]
    refine and_congr_right fun _ => ?_
    by_cases hnew : frame.find d.symbol.name = none
    · have hadd : frame.add d.symbol = frame ++ [d.symbol] := by simp [Frame.add, hnew]
      have hnot := find_eq_none_iff.mp hnew
      have hnodup : ((frame ++ [d.symbol]).map Symbol.name).Nodup := by
        rw [List.map_append, List.nodup_append]
        refine ⟨hframe, by simp, ?_⟩
        rintro a ha b hb rfl
        rw [List.map_singleton, List.mem_singleton] at hb
        exact hnot (hb ▸ ha)
      rw [hadd, ih hnodup]
      simp [hnew, names]
    · refine iff_of_false (fun h => hnew h.1) ?_
      rintro ⟨-, hnodup⟩
      have hmem : d.symbol.name ∈ frame.map Symbol.name := by
        rw [find_eq_none_iff] at hnew
        exact not_not.mp hnew
      exact (List.nodup_append.mp hnodup).2.2 _ hmem _ (by simp [names]) rfl

theorem addAll_eq_append {frame : Frame} {ds : List Declaration}
    (h : (frame.map Symbol.name ++ names ds).Nodup) :
    frame.addAll ds = frame ++ ds.map Declaration.symbol := by
  induction ds generalizing frame with
  | nil => simp [Frame.addAll]
  | cons d ds ih =>
    have hnew : frame.find d.symbol.name = none := by
      rw [find_eq_none_iff]
      intro hmem
      exact (List.nodup_append.mp h).2.2 _ hmem _ (by simp [names]) rfl
    have hadd : frame.add d.symbol = frame ++ [d.symbol] := by simp [Frame.add, hnew]
    have hrest : ((frame ++ [d.symbol]).map Symbol.name ++ names ds).Nodup := by
      simpa [names] using h
    change (frame.add d.symbol).addAll ds = _
    rw [hadd, ih hrest]
    simp

theorem Mirrors.map_name {frame : Frame} {scope : Scope} (h : Mirrors frame scope) :
    frame.map Symbol.name = scope.map Prod.fst := by
  induction h with
  | nil => rfl
  | cons hs _ ih => simp [hs.1, ih]

theorem Mirrors.names_eq {ds : List Declaration} {scope : Scope}
    (h : Mirrors (ds.map Declaration.symbol) scope) : names ds = scope.map Prod.fst := by
  rw [← h.map_name, List.map_map]
  rfl

theorem Mirrors.append {f g : Frame} {r s : Scope} (hf : Mirrors f r) (hg : Mirrors g s) :
    Mirrors (f ++ g) (r ++ s) :=
  List.rel_append hf hg

/-- Declarations that mirror a scope: they are clean exactly if its names differ, and leave a frame
that mirrors it. -/
theorem Mirrors.findings_iff {ds : List Declaration} {scope : Scope}
    (h : Mirrors (ds.map Declaration.symbol) scope) :
    Frame.findings [] ds = [] ↔ (∀ d ∈ ds, d.flaws = []) ∧ scope.Distinct := by
  rw [frameFindings_eq_nil_iff (by simp), List.map_nil, List.nil_append, h.names_eq]
  rfl

theorem Mirrors.addAll {ds : List Declaration} {scope : Scope}
    (h : Mirrors (ds.map Declaration.symbol) scope) (hd : scope.Distinct) :
    Mirrors (Frame.addAll [] ds) scope := by
  rw [addAll_eq_append (by rw [List.map_nil, List.nil_append, h.names_eq]; exact hd)]
  exact h

theorem locals_mirror (locals : List VarDecl) :
    Mirrors ((locals.flatMap VarDecl.declarations).map Declaration.symbol) (localScope locals) := by
  induction locals with
  | nil => exact .nil
  | cons decl locals ih =>
    have hone : Mirrors (decl.declarations.map Declaration.symbol)
        (decl.names.map fun name => (name.text, .scalar decl.type)) := by
      unfold VarDecl.declarations
      induction decl.names with
      | nil => exact .nil
      | cons name names ih => exact .cons ⟨rfl, .scalar rfl rfl⟩ ih
    simpa [localScope] using hone.append ih

/-- The test of an assignment accepts known types exactly by its rule. -/
theorem assignmentOk_iff {op : AssignOp} {target value : Ty} {l r : ExprType}
    (hl : known? target = some l) (hr : known? value = some r) :
    RuleSet.standard.assignmentOk op target value = true ↔
      match op with
      | .assign => ∃ type, l = .scalar type ∧ r = .scalar type
      | .addAssign | .subAssign => l = .scalar .int ∧ r = .scalar .int := by
  cases op <;> cases target <;> cases hl <;> cases value <;> cases hr <;>
    simp [RuleSet.assignmentOk, Ty.isUnknown, Ty.isScalar, Ty.isInt]

section

variable {result : Option ScalarType} {env : Env} {inLoop : Bool} {v : View}

theorem assign_iff (h : Sees v env) (target : Location) (op : AssignOp) (value : Expr)
    (span : Span) :
    (Stmt.assign target op value span).findings v = [] ↔
      StmtTyped .lax result env inLoop (.assign target op value span) := by
  have ht := place_agrees h target span.line true
  have hv := expr_agrees h value
  simp only [Stmt.findings, List.append_eq_nil_iff, breach_eq_nil_iff, h.standard]
  constructor
  · rintro ⟨⟨hct, hcv⟩, hok⟩
    obtain ⟨l, hl⟩ := ht.known hct
    obtain ⟨r, hr⟩ := hv.known hcv
    have htyped := (ht.iff l).mpr ⟨hct, hl⟩
    have hvtyped := (hv.iff r).mpr ⟨hcv, hr⟩
    have hrule := (assignmentOk_iff hl hr).mp hok
    cases op with
    | assign =>
      obtain ⟨type, rfl, rfl⟩ := hrule
      exact .assign htyped hvtyped
    | addAssign =>
      obtain ⟨rfl, rfl⟩ := hrule
      exact .addAssign htyped hvtyped
    | subAssign =>
      obtain ⟨rfl, rfl⟩ := hrule
      exact .subAssign htyped hvtyped
  · intro hs
    cases hs with
    | assign htt hvt | addAssign htt hvt | subAssign htt hvt =>
      obtain ⟨hct, hl⟩ := (ht.iff _).mp htt
      obtain ⟨hcv, hr⟩ := (hv.iff _).mp hvt
      refine ⟨⟨hct, hcv⟩, (assignmentOk_iff hl hr).mpr ?_⟩
      simp

theorem wanted_eq_nil_iff (h : Sees v env) {e : Expr} {ok : Ty → Bool} {want : ScalarType}
    {defect : Ty → Defect} (hok : ∀ t, ok t = true ↔ t = .ofScalar want) :
    v.wantedFindings e ok defect = [] ↔ HasType env e (.scalar want) := by
  rw [View.wantedFindings, List.append_eq_nil_iff, breach_eq_nil_iff]
  exact (expr_agrees h e).wanted_iff hok

theorem loopVariable_eq_nil_iff (h : Sees v env) (var : Name) :
    v.loopVariableFindings var = [] ↔ env.meaning? var.text = some (.scalar .int) := by
  rw [View.loopVariableFindings, List.append_eq_nil_iff, nameFindings_eq_nil_iff]
  rcases h.variable_cases var.text with
    ⟨hv, hs, -⟩ | ⟨s, t, hv, hm, ht⟩ | ⟨s, e, n, hv, hm, ht⟩
  · simp [hv, hs]
  · cases t <;> simp [hv, hm, ht, breach_eq_nil_iff, Ty.isInt, Ty.ofScalar]
  · simp [hv, hm, ht, breach_eq_nil_iff, Ty.isInt]

theorem return_iff (h : Inside result env inLoop v) (value : Option Expr) (span : Span) :
    v.returnFindings value span = [] ↔
      StmtTyped .lax result env inLoop (.returnFrom value span) := by
  obtain ⟨name, hm⟩ := h.method
  cases value with
  | none =>
    rw [StmtTyped.returnNothing_iff]
    cases result with
    | none => simp [View.returnFindings, View.returnType, hm, breach, Ty.ofReturn]
    | some type =>
      cases type <;>
        simp [View.returnFindings, View.returnType, hm, breach, Ty.ofReturn, Ty.ofScalar,
          Ty.isUnknown]
  | some value =>
    have hv := expr_agrees h.sees value
    have hrule : StmtTyped .lax result env inLoop (.returnFrom (some value) span) ↔
        HasType env value (.ofResult result) := by
      constructor
      · intro hs
        cases hs with
        | returnValue hresult hvalue | returnVoid _ hresult hvalue => exact hresult ▸ hvalue
      · intro hvalue
        cases result with
        | none => exact .returnVoid rfl rfl hvalue
        | some type => exact .returnValue rfl hvalue
    rw [hrule, hv.iff]
    simp only [View.returnFindings, View.returnType, hm, Option.map_some, Option.getD_some,
      List.append_eq_nil_iff, breach_eq_nil_iff, Bool.or_eq_true, beq_iff_eq]
    -- A clean value has a known type, so the check is not suppressed.
    refine and_congr_right fun hclean => ?_
    obtain ⟨t, ht⟩ := hv.known hclean
    rw [isUnknown_eq_false ht, known?_eq_ofResult_iff]
    simp

theorem Inside.entering (h : Inside result env inLoop v) (locals : List VarDecl)
    (hd : (localScope locals).Distinct) :
    Inside result (localScope locals :: env) inLoop
      (v.entering.declaring (locals.flatMap VarDecl.declarations)) where
  standard := h.standard
  frames := .cons ((locals_mirror locals).addAll hd) h.frames
  loop := h.loop
  method := h.method

theorem Inside.looping (h : Inside result env inLoop v) : Inside result env true v.looping where
  standard := h.standard
  frames := h.frames
  loop := rfl
  method := h.method

end

mutual

theorem stmt_iff {result : Option ScalarType} {env : Env} {inLoop : Bool} {v : View}
    (h : Inside result env inLoop v) (s : Stmt) :
    s.findings v = [] ↔ StmtTyped .lax result env inLoop s := by
  cases s with
  | assign target op value span => exact assign_iff h.sees target op value span
  | call called span =>
    rw [Stmt.findings, (call_agrees h.sees called).eq_nil_iff, StmtTyped.call_iff]
  | ifThen condition thenBlock span =>
    rw [Stmt.findings, List.append_eq_nil_iff, View.conditionFindings,
      wanted_eq_nil_iff h.sees isBoolean_iff, block_iff h thenBlock, StmtTyped.ifThen_iff]
  | ifElse condition thenBlock elseBlock span =>
    rw [Stmt.findings, List.append_eq_nil_iff, List.append_eq_nil_iff, View.conditionFindings,
      wanted_eq_nil_iff h.sees isBoolean_iff, block_iff h thenBlock, block_iff h elseBlock,
      StmtTyped.ifElse_iff]
  | forLoop var first last body span =>
    rw [Stmt.findings, List.append_eq_nil_iff, List.append_eq_nil_iff, List.append_eq_nil_iff,
      loopVariable_eq_nil_iff h.sees, View.boundFindings, wanted_eq_nil_iff h.sees isInt_iff,
      View.boundFindings, wanted_eq_nil_iff h.sees isInt_iff, block_iff h.looping body,
      StmtTyped.forLoop_iff]
  | returnFrom value span => exact return_iff h value span
  | breakLoop span =>
    rw [Stmt.findings, breach_eq_nil_iff, h.loop, StmtTyped.breakLoop_iff]
  | continueLoop span =>
    rw [Stmt.findings, breach_eq_nil_iff, h.loop, StmtTyped.continueLoop_iff]
  | block inner span =>
    rw [Stmt.findings, block_iff h inner, StmtTyped.block_iff]

theorem block_iff {result : Option ScalarType} {env : Env} {inLoop : Bool} {v : View}
    (h : Inside result env inLoop v) (b : Block) :
    b.findings v.entering = [] ↔ BlockTyped .lax result env inLoop b := by
  cases b with
  | mk locals statements span =>
    have hnames : Frame.findings [] (locals.flatMap VarDecl.declarations) = [] ↔
        (localScope locals).Distinct := by
      rw [(locals_mirror locals).findings_iff]
      exact and_iff_right (locals_flaws locals)
    have hlist : (Block.mk locals statements span).findings v.entering = [] ↔
        (localScope locals).Distinct ∧
          Stmt.listFindings (v.entering.declaring (locals.flatMap VarDecl.declarations))
            statements = [] := by
      rw [← hnames, Block.findings, List.append_eq_nil_iff]
      rfl
    rw [hlist, BlockTyped.mk_iff]
    exact and_congr_right fun hd => stmts_iff (h.entering locals hd) statements

theorem stmts_iff {result : Option ScalarType} {env : Env} {inLoop : Bool} {v : View}
    (h : Inside result env inLoop v) (ss : List Stmt) :
    Stmt.listFindings v ss = [] ↔ StmtsTyped .lax result env inLoop ss := by
  cases ss with
  | nil => exact ⟨fun _ => .nil, fun _ => rfl⟩
  | cons s ss =>
    rw [Stmt.listFindings, List.append_eq_nil_iff, stmt_iff h s, stmts_iff h ss,
      StmtsTyped.cons_iff]

end

end Decaf.Typing
