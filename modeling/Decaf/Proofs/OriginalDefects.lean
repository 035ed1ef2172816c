import Decaf.Proofs.OperandTexts
import Decaf.Proofs.Unresolved

namespace Decaf

open Analyzer

theorem Ty.ne_unknown_of_isUnknown {type : Ty} (h : type.isUnknown = false) :
    type ≠ .unknown := by
  rintro rfl
  exact nomatch h

theorem Ty.eq_unknown_of_text_eq {type : Ty} (h : type.text = Ty.unknown.text) :
    type = .unknown := by
  cases type with
  | unknown => rfl
  | array element length =>
    -- The text starts with that of the element type.
    have hhead := congrArg (fun s => s.toList.head?) h
    cases element <;> simp [text, ScalarType.text] at hhead
  | int | boolean | void => exact absurd h (by decide)

/-- A check that lets unknown types pass has failed. -/
theorem Ty.ne_unknown_of_test {ok : Bool} {type : Ty} (h : (ok || type.isUnknown) = false) :
    type ≠ .unknown :=
  ne_unknown_of_isUnknown (Bool.or_eq_false_iff.1 h).2

namespace RuleSet

variable {op : AssignOp} {category : OpCategory} {left right : Ty}

theorem known_of_operandsOk (h : standard.operandsOk category left right = false) :
    left ≠ .unknown ∧ right ≠ .unknown := by
  obtain ⟨hunknown, -⟩ := Bool.or_eq_false_iff.1 h
  obtain ⟨hleft, -⟩ := Bool.or_eq_false_iff.1 hunknown
  exact ⟨Ty.ne_unknown_of_isUnknown hleft, Ty.ne_unknown_of_test hunknown⟩

theorem known_of_assignmentOk (h : standard.assignmentOk op left right = false) :
    left ≠ .unknown ∧ right ≠ .unknown := by
  obtain ⟨hleft, hrest⟩ := Bool.or_eq_false_iff.1 h
  obtain ⟨hright, -⟩ := Bool.or_eq_false_iff.1 hrest
  exact ⟨Ty.ne_unknown_of_isUnknown hleft, Ty.ne_unknown_of_isUnknown hright⟩

end RuleSet

namespace Defect

/-- The defect names the type as one that has been found or is asked for. -/
def Shows (type : Ty) : Defect → Prop
  | .typeMismatch .assignment left right | .typeMismatch .condition left right =>
    left = type.text ∨ right = type.text
  | .typeMismatch .arrayIndex _ right | .typeMismatch .loopVariable _ right
  | .typeMismatch .loopBound _ right => right = type.text
  | .argumentType _ _ expected found | .returnMismatch _ expected found =>
    expected = type ∨ found = type
  | _ => False

/-- The defect is not about an operator and shows no unknown type. -/
def Original (defect : Defect) : Prop := defect.isOperator = false ∧ ¬ defect.Shows .unknown

end Defect

namespace Analyzer

/-- All declared types are known. -/
structure Known (a : Analyzer) : Prop where
  names : ∀ frame ∈ a.scopes.innermost :: a.scopes.outer, ∀ s ∈ frame, s.type ≠ .unknown
  method : ∀ m, a.method = some m → m.returnType ≠ .unknown

theorem known_new (rules : RuleSet) : (new rules).Known where
  names := by
    intro frame hframe s hs
    rw [List.mem_singleton.1 hframe] at hs
    cases hs
  method := nofun

theorem Known.resolved {a : Analyzer} (h : a.Known) : a.view.Resolved := by
  intro name s hs
  obtain ⟨frame, hframe, hfind⟩ := List.exists_of_findSome?_eq_some hs
  exact h.names frame hframe s (List.mem_of_find?_eq_some hfind)

theorem diagnostics_reporting (a : Analyzer) (found : List Diagnostic) :
    (a.reporting found).diagnostics = a.diagnostics ++ found := by
  rw [diagnostics, reporting, List.filterMap_append, filterMap_reported, diagnostics]

theorem diagnostics_record {event : Event} (h : event.diagnostic? = none) (a : Analyzer) :
    (record event a).diagnostics = a.diagnostics := by
  rw [diagnostics, record, List.filterMap_append, diagnostics]
  simp [h]

/-- A step that keeps all declared types known and, under the standard rules, reports nothing about
operators or because of unknown types. -/
structure Tame {α : Type} (x : Walk α) (a : Analyzer) : Prop where
  rules : (x.run a).2.rules = a.rules
  known : a.Known → (x.run a).2.Known
  original : a.Known → a.rules = .standard → ∀ d ∈ (x.run a).2.diagnostics,
    d ∈ a.diagnostics ∨ d.defect.Original

section Tame

variable {α β : Type} {a : Analyzer}

theorem tame_of_run {x : Walk α} {value : α} {found : List Diagnostic}
    (hrun : x.run a = (value, a.reporting found))
    (hfound : a.Known → a.rules = .standard → ∀ d ∈ found, d.defect.Original) : Tame x a where
  rules := by rw [hrun]; rfl
  known h := by rw [hrun]; exact ⟨h.names, h.method⟩
  original h hrules d hd := by
    rw [hrun, diagnostics_reporting] at hd
    exact (List.mem_append.1 hd).imp_right (hfound h hrules d)

theorem tame_modify {f : Analyzer → Analyzer} (hrules : (f a).rules = a.rules)
    (hknown : a.Known → (f a).Known) (hdiagnostics : (f a).diagnostics ⊆ a.diagnostics) :
    Tame (modify f) a :=
  ⟨hrules, hknown, fun _ _ _ hd => .inl (hdiagnostics hd)⟩

theorem tame_pure (value : α) (a : Analyzer) : Tame (pure value) a :=
  ⟨rfl, id, fun _ _ _ => .inl⟩

theorem Tame.bind {x : Walk α} {f : α → Walk β} (hx : Tame x a)
    (hf : Tame (f (x.run a).1) (x.run a).2) : Tame (x >>= f) a where
  rules := hf.rules.trans hx.rules
  known h := hf.known (hx.known h)
  original h hrules d hd := by
    rcases hf.original (hx.known h) (hx.rules.trans hrules) d hd with hd | hd
    · exact hx.original h hrules d hd
    · exact .inr hd

theorem tame_require {condition : Bool} {defect : Defect}
    (h : condition = false → defect.Original) (span : Span) (a : Analyzer) :
    Tame (require condition defect span) a := by
  refine tame_of_run (run_require condition defect span a) ?_
  intro _ _ d hd
  obtain ⟨hcondition, rfl⟩ := mem_breach_iff.1 hd
  exact h hcondition

end Tame

theorem Leaves.tame {x : Walk Unit} {a : Analyzer} {frame : Frame} {found : List Diagnostic}
    (h : Leaves x a frame found)
    (hframe : (∀ s ∈ a.scopes.innermost, s.type ≠ .unknown) → ∀ s ∈ frame, s.type ≠ .unknown)
    (hfound : ∀ d ∈ found, d.defect.Original) : Tame x a := by
  obtain ⟨events, hrun, rfl⟩ := h
  refine ⟨by rw [hrun]; rfl, ?_, ?_⟩
  · intro hknown
    obtain ⟨hinner, houter⟩ := List.forall_mem_cons.1 hknown.names
    rw [hrun]
    exact ⟨List.forall_mem_cons.2 ⟨hframe hinner, houter⟩, hknown.method⟩
  · intro _ _ d hd
    have hafter : (x.run a).2.diagnostics =
        a.diagnostics ++ events.filterMap Event.diagnostic? := by
      rw [hrun, diagnostics, diagnostics, ← List.filterMap_append]
      rfl
    rw [hafter] at hd
    exact (List.mem_append.1 hd).imp_right (hfound d)

end Analyzer

section Declarations

variable {frame : Frame} {ds : List Declaration}

theorem Frame.known_add {symbol : Symbol} (h : symbol.type ≠ .unknown)
    (hframe : ∀ s ∈ frame, s.type ≠ .unknown) : ∀ s ∈ frame.add symbol, s.type ≠ .unknown := by
  unfold add
  split
  · exact List.forall_mem_append.2 ⟨hframe, List.forall_mem_singleton.2 h⟩
  · exact hframe

theorem Frame.known_addAll (hds : ∀ d ∈ ds, d.symbol.type ≠ .unknown)
    (hframe : ∀ s ∈ frame, s.type ≠ .unknown) : ∀ s ∈ frame.addAll ds, s.type ≠ .unknown := by
  induction ds generalizing frame with
  | nil => exact hframe
  | cons d ds ih =>
    obtain ⟨hd, hds⟩ := List.forall_mem_cons.1 hds
    exact ih hds (known_add hd hframe)

theorem Frame.original_findings (hds : ∀ d ∈ ds, ∀ flaw ∈ d.flaws, flaw.defect.Original) :
    ∀ d ∈ frame.findings ds, d.defect.Original := by
  induction ds generalizing frame with
  | nil => exact nofun
  | cons d ds ih =>
    obtain ⟨hd, hds⟩ := List.forall_mem_cons.1 hds
    refine List.forall_mem_append.2 ⟨List.forall_mem_append.2 ⟨hd, ?_⟩, ih hds⟩
    intro clash hclash
    obtain ⟨-, rfl⟩ := mem_breach_iff.1 hclash
    exact ⟨rfl, id⟩

theorem FieldDecl.typeOf_ne_unknown (decl : FieldDecl) (name : FieldName) :
    decl.typeOf name ≠ .unknown := by
  unfold FieldDecl.typeOf
  split
  · exact Ty.ofScalar_ne_unknown _
  · exact nofun

theorem original_sizeFindings (decl : FieldDecl) (name : FieldName) :
    ∀ d ∈ decl.sizeFindings name, d.defect.Original := by
  unfold FieldDecl.sizeFindings
  split
  · exact nofun
  · intro d hd
    obtain ⟨-, rfl⟩ := mem_breach_iff.1 hd
    exact ⟨rfl, id⟩

end Declarations

namespace Analyzer

section Names

variable (a : Analyzer)

theorem tame_declarations {ds : List Declaration} (hflaws : ∀ d ∈ ds, d.flaws = [])
    (htypes : ∀ d ∈ ds, d.symbol.type ≠ .unknown) :
    Tame (ds.forM fun d => declare d.symbol d.line) a := by
  refine (forM_declare_leaves ds hflaws a).tame (Frame.known_addAll htypes)
    (Frame.original_findings ?_)
  intro d hd flaw hflaw
  rw [hflaws d hd] at hflaw
  cases hflaw

theorem tame_locals (locals : List VarDecl) : Tame (locals.forM declareLocals) a := by
  rw [forM_declareLocals_eq]
  refine tame_declarations a (locals_flaws locals) ?_
  intro d hd
  obtain ⟨decl, -, hd⟩ := List.mem_flatMap.1 hd
  obtain ⟨name, -, rfl⟩ := List.mem_map.1 hd
  exact Ty.ofScalar_ne_unknown decl.type

theorem tame_params (params : List Param) : Tame (params.forM declareParam) a := by
  rw [forM_declareParam_eq]
  refine tame_declarations a (params_flaws params) ?_
  intro d hd
  obtain ⟨param, -, rfl⟩ := List.mem_map.1 hd
  exact Ty.ofScalar_ne_unknown param.type

theorem tame_fields (fields : List FieldDecl) : Tame (fields.forM visitField) a := by
  refine (forM_visitField_leaves fields a).tame (Frame.known_addAll ?_)
    (Frame.original_findings ?_)
  · intro d hd
    obtain ⟨decl, -, hd⟩ := List.mem_flatMap.1 hd
    obtain ⟨name, -, rfl⟩ := List.mem_map.1 hd
    exact decl.typeOf_ne_unknown name
  · intro d hd
    obtain ⟨decl, -, hd⟩ := List.mem_flatMap.1 hd
    obtain ⟨name, -, rfl⟩ := List.mem_map.1 hd
    exact original_sizeFindings decl name

theorem tame_announce (m : MethodDecl) : Tame (Step.announce m).walk a := by
  have hname := tame_declarations a (List.forall_mem_singleton.2 rfl)
    (List.forall_mem_singleton.2 (Ty.ofReturn_ne_unknown m.returnType) :
      ∀ d ∈ [m.declaration], d.symbol.type ≠ .unknown)
  refine Tame.bind hname ?_
  split
  · exact tame_modify rfl (fun h => ⟨h.names, h.method⟩) (List.Subset.refl _)
  · exact tame_pure () _

theorem tame_enterScope : Tame enterScope a := by
  refine tame_modify rfl ?_ ?_
  · intro h
    exact ⟨List.forall_mem_cons.2 ⟨nofun, h.names⟩, h.method⟩
  · rw [diagnostics_record rfl]
    exact List.Subset.refl _

theorem tame_exitScope : Tame exitScope a := by
  cases houter : a.scopes.outer with
  | nil =>
    have hexit : exitScope.run a = ((), a.reporting []) := by
      rw [run_exitScope, ScopeTable.exit?, houter, reporting_nil]
    exact tame_of_run hexit fun _ _ => List.forall_mem_nil _
  | cons frame outer =>
    have hexit : a.scopes.exit? = some ⟨frame, outer, a.scopes.depth - 1⟩ := by
      rw [ScopeTable.exit?, houter]
    refine tame_modify ?_ ?_ ?_ <;> simp only [hexit]
    · rfl
    · intro h
      obtain ⟨-, hnames⟩ := List.forall_mem_cons.1 h.names
      rw [houter] at hnames
      exact ⟨hnames, h.method⟩
    · rw [diagnostics_record rfl]
      exact List.Subset.refl _

theorem tame_enterMethod (m : MethodDecl) : Tame (Step.enterMethod m).walk a := by
  refine tame_modify rfl ?_ (List.Subset.refl _)
  intro h
  refine ⟨h.names, ?_⟩
  rintro context ⟨rfl⟩
  exact Ty.ofReturn_ne_unknown m.returnType

theorem tame_leaveMethod : Tame Step.leaveMethod.walk a :=
  tame_modify rfl (fun h => ⟨h.names, nofun⟩) (List.Subset.refl _)

end Names

section Checks

variable (a : Analyzer)

theorem original_nameFindings {v : View} {name : String} {target : Bool} {span : Span} :
    ∀ d ∈ v.nameFindings name target span, d.defect.Original := by
  intro d hd
  rcases View.mem_nameFindings hd with ⟨-, rfl⟩ | ⟨_, -, -, rfl⟩ <;> exact ⟨rfl, id⟩

theorem tame_resolveVariable (name : String) (target : Bool) (span : Span) :
    Tame (resolveVariable name target span) a :=
  tame_of_run (run_resolveVariable name target span a) fun _ _ => original_nameFindings

theorem tame_scalar (name : String) (target : Bool) (span : Span) :
    Tame (Step.scalar name target span).walk a := by
  refine Tame.bind (tame_resolveVariable a name target span) ?_
  split
  · exact tame_pure _ _
  · exact tame_pure _ _

theorem tame_element (name : String) (index : Expr) (indexType : Ty) (target : Bool)
    (span : Span) : Tame (Step.element name index indexType target span).walk a := by
  refine Tame.bind (tame_resolveVariable a name target span) ?_
  split
  · exact tame_pure _ _
  · split
    · refine Tame.bind ?_ (tame_pure _ _)
      exact tame_of_run (run_report _ _ _) fun _ _ => List.forall_mem_singleton.2 ⟨rfl, id⟩
    · refine (tame_require ?_ _ _).bind (tame_pure _ _)
      intro hok
      exact ⟨rfl, mt Ty.eq_unknown_of_text_eq (Ty.ne_unknown_of_test hok)⟩

theorem tame_checkCall (name : String) (args : List Expr) (found : List Ty) (span : Span) :
    Tame (checkCall name args found span) a := by
  refine tame_of_run (run_checkCall name args found span a) ?_
  intro _ _ d hd
  rcases View.mem_callFindings hd with ⟨-, rfl⟩ |
    ⟨_, -, ⟨-, rfl⟩ | ⟨_, rfl⟩ | ⟨arg, -, _, param, hfound, rfl⟩⟩
  · exact ⟨rfl, id⟩
  · exact ⟨rfl, id⟩
  · exact ⟨rfl, id⟩
  · refine ⟨rfl, ?_⟩
    rintro (hparam | harg)
    · exact Ty.ofScalar_ne_unknown param hparam
    · exact Ty.ne_unknown_of_isUnknown hfound harg

theorem tame_condition (type : Ty) (span : Span) : Tame (Step.condition type span).walk a := by
  refine tame_require ?_ _ a
  intro hok
  refine ⟨rfl, ?_⟩
  rintro (hleft | hright)
  · exact Ty.ne_unknown_of_test hok (Ty.eq_unknown_of_text_eq hleft)
  · exact nomatch Ty.eq_unknown_of_text_eq hright

theorem tame_loopBound (bound : Expr) (type : Ty) : Tame (Step.loopBound bound type).walk a := by
  refine tame_require ?_ _ a
  intro hok
  exact ⟨rfl, mt Ty.eq_unknown_of_text_eq (Ty.ne_unknown_of_test hok)⟩

theorem tame_checkLoopVariable (var : Name) : Tame (checkLoopVariable var) a := by
  refine tame_of_run (run_checkLoopVariable var a) ?_
  intro hknown _
  refine List.forall_mem_append.2 ⟨original_nameFindings, ?_⟩
  split
  · exact List.forall_mem_nil _
  · next s hs =>
    intro d hd
    obtain ⟨-, rfl⟩ := mem_breach_iff.1 hd
    have htype := hknown.resolved _ s (View.variableNamed?_eq_some hs).1
    exact ⟨rfl, mt Ty.eq_unknown_of_text_eq htype⟩

theorem tame_returned (found : Ty) (span : Span) : Tame (Step.returned found span).walk a := by
  cases hmethod : a.method with
  | none =>
    have hrun : (Step.returned found span).walk.run a = ((), a.reporting []) := by
      simp [Step.walk, hmethod]
    exact tame_of_run hrun fun _ _ => List.forall_mem_nil _
  | some m =>
    have hrun : (Step.returned found span).walk.run a =
        ((), a.reporting (breach (found == m.returnType || found.isUnknown)
          (.returnMismatch m.name m.returnType found) span)) := by
      simp [Step.walk, hmethod]
    refine tame_of_run hrun ?_
    intro hknown _ d hd
    obtain ⟨hok, rfl⟩ := mem_breach_iff.1 hd
    refine ⟨rfl, ?_⟩
    rintro (hpromised | hfound)
    · exact hknown.method m hmethod hpromised
    · exact Ty.ne_unknown_of_test hok hfound

theorem tame_assignment (op : AssignOp) (target value : Ty) (span : Span) :
    Tame (Step.assignment op target value span).walk a := by
  have hrun : (Step.assignment op target value span).walk.run a =
      ((), a.reporting (breach (a.rules.assignmentOk op target value)
        (.typeMismatch .assignment target.text value.text) span)) := by
    simp [Step.walk]
  refine tame_of_run hrun ?_
  intro _ hrules d hd
  obtain ⟨hok, rfl⟩ := mem_breach_iff.1 hd
  rw [hrules] at hok
  obtain ⟨htarget, hvalue⟩ := RuleSet.known_of_assignmentOk hok
  refine ⟨rfl, ?_⟩
  rintro (hleft | hright)
  · exact htarget (Ty.eq_unknown_of_text_eq hleft)
  · exact hvalue (Ty.eq_unknown_of_text_eq hright)

theorem tame_checkJump (keyword : String) (span : Span) : Tame (checkJump keyword span) a := by
  refine tame_of_run (run_checkJump keyword span a) ?_
  intro _ _ d hd
  obtain ⟨-, rfl⟩ := mem_breach_iff.1 hd
  exact ⟨rfl, id⟩

theorem tame_demandMain (p : Program) : Tame (Step.demandMain p).walk a := by
  have hrun : (Step.demandMain p).walk.run a = ((), a.reporting
      (if a.foundMain then [] else [.ofLine .missingMainMethod p.endLine])) := by
    cases hmain : a.foundMain with
    | true => simp [Step.walk, hmain]
    | false => simp [Step.walk, hmain, record, reporting]
  refine tame_of_run hrun fun _ _ => ?_
  split
  · exact List.forall_mem_nil _
  · exact List.forall_mem_singleton.2 ⟨rfl, id⟩

end Checks

end Analyzer

def Step.isOperation : {α : Type} → Step α → Bool
  | _, .operation _ _ _ _ _ _ => true
  | _, _ => false

/-- No step but the check of an operator complains about an operator or an unknown type. -/
theorem Step.tame {α : Type} (s : Step α) (h : s.isOperation = false) (a : Analyzer) :
    Tame s.walk a := by
  cases s with
  | operation => cases h
  | charType => exact ⟨rfl, id, fun _ _ _ => .inl⟩
  | scalar name target span => exact tame_scalar a name target span
  | element name index indexType target span =>
    exact tame_element a name index indexType target span
  | call name args found span => exact tame_checkCall a name args found span
  | condition type span => exact tame_condition a type span
  | loopVariable var => exact tame_checkLoopVariable a var
  | loopBound bound type => exact tame_loopBound a bound type
  | returned found span => exact tame_returned a found span
  | assignment op target value span => exact tame_assignment a op target value span
  | jump keyword span => exact tame_checkJump a keyword span
  | locals decls => exact tame_locals a decls
  | params decls => exact tame_params a decls
  | fields decls => exact tame_fields a decls
  | announce method => exact tame_announce a method
  | enterScope => exact tame_enterScope a
  | exitScope => exact tame_exitScope a
  | enterMethod method => exact tame_enterMethod a method
  | leaveMethod => exact tame_leaveMethod a
  | demandMain program => exact tame_demandMain a program

end Decaf
