import Decaf.Proofs.NodeSpans
import Decaf.Proofs.Walk
import Mathlib.Data.List.Forall2
import Mathlib.Logic.Equiv.Basic

namespace Decaf

open List (Forall₂)

mutual

def Expr.rename (r : String → String) : Expr → Expr
  | .location place span => .location (place.rename r) span
  | .call called span => .call (called.rename r) span
  | .int text span => .int text span
  | .char text span => .char text span
  | .bool value span => .bool value span
  | .unary op operand span => .unary op (operand.rename r) span
  | .binary op left right span => .binary op (left.rename r) (right.rename r) span
  | .paren inner span => .paren (inner.rename r) span

def Location.rename (r : String → String) : Location → Location
  | .scalar name span => .scalar (r name) span
  | .indexed name index span => .indexed (r name) (index.rename r) span

/-- External functions keep their names. -/
def Call.rename (r : String → String) : Call → Call
  | .method name args span => .method (r name) (Expr.renameList r args) span
  | .callout name args span => .callout name (CalloutArg.renameList r args) span

def Expr.renameList (r : String → String) : List Expr → List Expr
  | [] => []
  | arg :: others => arg.rename r :: Expr.renameList r others

def CalloutArg.renameList (r : String → String) : List CalloutArg → List CalloutArg
  | [] => []
  | .expr value :: others => .expr (value.rename r) :: CalloutArg.renameList r others
  | .string text :: others => .string text :: CalloutArg.renameList r others

end

section Trees

variable (r : String → String)

theorem Expr.renameList_eq (args : List Expr) : renameList r args = args.map (rename r) := by
  induction args with
  | nil => rfl
  | cons arg others ih => rw [renameList, ih, List.map_cons]

theorem Expr.span_rename (e : Expr) : (e.rename r).span = e.span := by
  cases e <;> rfl

def Name.rename (name : Name) : Name := ⟨r name.text, name.span⟩

def VarDecl.rename (decl : VarDecl) : VarDecl :=
  ⟨decl.type, decl.names.map (Name.rename r), decl.span⟩

mutual

def Stmt.rename (r : String → String) : Stmt → Stmt
  | .assign target op value span => .assign (target.rename r) op (value.rename r) span
  | .call called span => .call (called.rename r) span
  | .ifThen condition body span => .ifThen (condition.rename r) (body.rename r) span
  | .ifElse condition body other span =>
    .ifElse (condition.rename r) (body.rename r) (other.rename r) span
  | .forLoop var first last body span =>
    .forLoop (var.rename r) (first.rename r) (last.rename r) (body.rename r) span
  | .returnFrom value span => .returnFrom (value.map (Expr.rename r)) span
  | .breakLoop span => .breakLoop span
  | .continueLoop span => .continueLoop span
  | .block inner span => .block (inner.rename r) span

def Block.rename (r : String → String) : Block → Block
  | .mk locals body span => .mk (locals.map (VarDecl.rename r)) (Stmt.renameList r body) span

def Stmt.renameList (r : String → String) : List Stmt → List Stmt
  | [] => []
  | stmt :: others => stmt.rename r :: Stmt.renameList r others

end

def FieldName.rename (field : FieldName) : FieldName := ⟨r field.name, field.arraySize, field.span⟩

def FieldDecl.rename (decl : FieldDecl) : FieldDecl :=
  ⟨decl.type, decl.names.map (FieldName.rename r), decl.span⟩

def Param.rename (param : Param) : Param := ⟨r param.name, param.type, param.span⟩

def MethodDecl.rename (method : MethodDecl) : MethodDecl :=
  ⟨r method.name, method.returnType, method.params.map (Param.rename r), method.body.rename r,
    method.span⟩

/-- The class keeps its name. -/
def Program.rename (p : Program) : Program :=
  ⟨p.name, p.fields.map (FieldDecl.rename r), p.methods.map (MethodDecl.rename r), p.span,
    p.endLine⟩

end Trees

/-- A defect at a place, with expressions and types instead of their texts. -/
inductive Complaint where
  | duplicateDeclaration (name : String) (type : Ty)
  | invalidArraySize (name size : String)
  | undeclaredVariable (name : String) (target : Bool)
  | undeclaredMethod (name : String)
  | assignment (target value : Ty)
  | operands (category : OpCategory) (left right : Expr)
  | arrayIndex (index : Expr) (found : Ty)
  | condition (found : Ty)
  | loopVariable (name : String) (found : Ty)
  | loopBound (bound : Expr) (found : Ty)
  | notAnArray (name : String)
  | notCallable (name : String)
  | notAVariable (name : String)
  | argumentCount (method : String) (expected found : Nat)
  | argumentType (method : String) (position : Nat) (expected found : Ty)
  | returnMismatch (method : String) (expected found : Ty)
  | strayBreak
  | strayContinue

namespace Complaint

def defect : Complaint → Defect
  | duplicateDeclaration name type => .duplicateDeclaration name type
  | invalidArraySize name size => .invalidArraySize name size
  | undeclaredVariable name target => .undeclaredVariable name target
  | undeclaredMethod name => .undeclaredMethod name
  | assignment target value => .typeMismatch .assignment target.text value.text
  | operands category left right => .typeMismatch (.operator category) left.text right.text
  | arrayIndex index found => .typeMismatch .arrayIndex index.text found.text
  | condition found => .typeMismatch .condition found.text Ty.boolean.text
  | loopVariable name found => .typeMismatch .loopVariable name found.text
  | loopBound bound found => .typeMismatch .loopBound bound.text found.text
  | notAnArray name => .notAnArray name
  | notCallable name => .notCallable name
  | notAVariable name => .notAVariable name
  | argumentCount method expected found => .argumentCount method expected found
  | argumentType method position expected found => .argumentType method position expected found
  | returnMismatch method expected found => .returnMismatch method expected found
  | strayBreak => .invalidControlFlow "break"
  | strayContinue => .invalidControlFlow "continue"

def rename (r : String → String) : Complaint → Complaint
  | duplicateDeclaration name type => duplicateDeclaration (r name) type
  | invalidArraySize name size => invalidArraySize (r name) size
  | undeclaredVariable name target => undeclaredVariable (r name) target
  | undeclaredMethod name => undeclaredMethod (r name)
  | assignment target value => assignment target value
  | operands category left right => operands category (left.rename r) (right.rename r)
  | arrayIndex index found => arrayIndex (index.rename r) found
  | condition found => condition found
  | loopVariable name found => loopVariable (r name) found
  | loopBound bound found => loopBound (bound.rename r) found
  | notAnArray name => notAnArray (r name)
  | notCallable name => notCallable (r name)
  | notAVariable name => notAVariable (r name)
  | argumentCount method expected found => argumentCount (r method) expected found
  | argumentType method position expected found => argumentType (r method) position expected found
  | returnMismatch method expected found => returnMismatch (r method) expected found
  | strayBreak => strayBreak
  | strayContinue => strayContinue

/-- The names that a complaint shows outside of expressions. -/
def names : Complaint → List String
  | duplicateDeclaration name _ | invalidArraySize name _ | undeclaredVariable name _
  | undeclaredMethod name | loopVariable name _ | notAnArray name | notCallable name
  | notAVariable name | argumentCount name _ _ | argumentType name _ _ _
  | returnMismatch name _ _ => [name]
  | _ => []

end Complaint

/-- Some node of the tree is written with the name. -/
def Node.Names (root : Node) (name : String) : Prop :=
  ∃ n, root.Within n ∧ .identifier name ∈ n.kinds

/-- What a complaint at a place shows is taken from the tree: names from anywhere, expressions from
the place. -/
def Complaint.From (root : Node) (span : Span) : Complaint → Prop
  | .operands category left right =>
    ∃ op, op.category = category ∧ root.Within (.expr (.binary op left right span))
  | .arrayIndex index _ =>
    span = index.span ∧ ∃ name a, root.Within (.location (.indexed name index a))
  | .loopBound bound _ =>
    span = bound.span ∧ ∃ var first last body a,
      root.Within (.stmt (.forLoop var first last body a)) ∧ (bound = first ∨ bound = last)
  | c => ∀ name ∈ c.names, root.Names name

/-- A diagnostic of the tree and the one that takes its place under other names. Only that the main
method is missing has no place. -/
inductive Echoes (r : String → String) (root : Node) : Diagnostic → Diagnostic → Prop
  | complaint {c : Complaint} {span : Span} : c.From root span →
      Echoes r root (.ofSpan c.defect span) (.ofSpan (c.rename r).defect span)
  | noMain (line : Nat) :
      Echoes r root (.ofLine .missingMainMethod line) (.ofLine .missingMainMethod line)

def Symbol.rename (r : String → String) (s : Symbol) : Symbol := { s with name := r s.name }

def Frame.rename (r : String → String) (frame : Frame) : Frame := frame.map (Symbol.rename r)

def ScopeTable.rename (r : String → String) (t : ScopeTable) : ScopeTable :=
  ⟨t.innermost.rename r, t.outer.map (Frame.rename r), t.depth⟩

def View.rename (r : String → String) (v : View) : View :=
  { v with
    scopes := v.scopes.rename r
    method := v.method.map fun m => { m with name := r m.name } }

structure Declaration.Echoes (r : String → String) (root : Node) (d d' : Declaration) : Prop where
  symbol : d'.symbol = d.symbol.rename r
  line : d'.line = d.line
  flaws : Forall₂ (Decaf.Echoes r root) d.flaws d'.flaws
  named : root.Names d.symbol.name

section Echoes

variable {r : String → String} {root : Node} {span : Span} {name : String}

theorem Node.Names.all (h : root.Names name) : ∀ n ∈ [name], root.Names n :=
  List.forall_mem_singleton.2 h

theorem echo_one {c : Complaint} (h : c.From root span) :
    Forall₂ (Echoes r root) [.ofSpan c.defect span] [.ofSpan (c.rename r).defect span] :=
  .cons (.complaint h) .nil

theorem echo_breach (condition : Bool) {c : Complaint} (h : c.From root span) :
    Forall₂ (Echoes r root) (breach condition c.defect span)
      (breach condition (c.rename r).defect span) := by
  cases condition with
  | true => exact .nil
  | false => exact echo_one h

theorem forall₂_map_map {α β γ : Type} {R : β → γ → Prop} {f : α → β} {g : α → γ} {xs : List α}
    (h : ∀ x ∈ xs, R (f x) (g x)) : Forall₂ R (xs.map f) (xs.map g) :=
  List.forall₂_map_left_iff.2 (List.forall₂_map_right_iff.2 (List.forall₂_same.2 h))

theorem forall₂_flatMap {α β γ : Type} {R : β → γ → Prop} {f : α → List β} {g : α → List γ}
    {xs : List α} (h : ∀ x ∈ xs, Forall₂ R (f x) (g x)) :
    Forall₂ R (xs.flatMap f) (xs.flatMap g) := by
  induction xs with
  | nil => exact .nil
  | cons x xs ih =>
    obtain ⟨hx, hxs⟩ := List.forall_mem_cons.1 h
    exact List.rel_append hx (ih hxs)

theorem VarDecl.declarations_echo {decl : VarDecl} (h : root.Within (.varDecl decl)) :
    Forall₂ (Declaration.Echoes r root) decl.declarations (decl.rename r).declarations := by
  rw [declarations, declarations, VarDecl.rename, List.map_map]
  refine forall₂_map_map fun name hname => ?_
  exact ⟨rfl, rfl, .nil, ⟨_, .child h (List.mem_map_of_mem hname), .head _⟩⟩

theorem Block.declarations_echo {b : Block} (h : root.Within (.block b)) :
    Forall₂ (Declaration.Echoes r root) b.declarations (b.rename r).declarations := by
  cases b with
  | mk locals body _ =>
    rw [declarations, declarations, Block.rename, Block.locals, Block.locals, List.flatMap_map]
    exact forall₂_flatMap fun decl hdecl => VarDecl.declarations_echo
      (.child h (List.mem_append_left _ (List.mem_map_of_mem hdecl)))

theorem FieldDecl.declarations_echo {decl : FieldDecl} (h : root.Within (.field decl)) :
    Forall₂ (Declaration.Echoes r root) decl.declarations (decl.rename r).declarations := by
  rw [declarations, declarations, FieldDecl.rename, List.map_map]
  refine forall₂_map_map fun field hfield => ?_
  have hnamed : root.Names field.name := by
    refine ⟨_, .child h (List.mem_map_of_mem hfield), ?_⟩
    obtain ⟨name, _ | size, a⟩ := field <;> exact .head _
  refine ⟨rfl, rfl, ?_, hnamed⟩
  obtain ⟨name, _ | size, a⟩ := field
  · exact .nil
  · exact echo_breach _ (c := .invalidArraySize name size) hnamed.all

theorem Param.declarations_echo {params : List Param} (h : ∀ p ∈ params, root.Within (.param p)) :
    Forall₂ (Declaration.Echoes r root) (params.map Param.declaration)
      ((params.map (Param.rename r)).map Param.declaration) := by
  rw [List.map_map]
  exact forall₂_map_map fun p hp => ⟨rfl, rfl, .nil, ⟨_, h p hp, .tail _ (.head _)⟩⟩

theorem MethodDecl.declaration_echo {method : MethodDecl} (hname : root.Names method.name) :
    Forall₂ (Declaration.Echoes r root) [method.declaration] [(method.rename r).declaration] := by
  have hsymbol : Analyzer.methodSymbol (method.rename r) =
      (Analyzer.methodSymbol method).rename r := by
    have htypes : (method.params.map (Param.rename r)).map Param.type =
        method.params.map Param.type := List.map_map
    rw [Analyzer.methodSymbol, MethodDecl.rename, htypes]
    rfl
  exact .cons ⟨hsymbol, rfl, .nil, hname⟩ .nil

theorem View.argumentFindings_echo (hname : root.Names name) (position : Nat)
    (params : List ScalarType) (args : List Expr) (found : List Ty) :
    Forall₂ (Echoes r root) (argumentFindings name position params (args.zip found))
      (argumentFindings (r name) position params ((args.map (Expr.rename r)).zip found)) := by
  induction params generalizing position args found with
  | nil => exact .nil
  | cons param params ih =>
    cases args with
    | nil => exact .nil
    | cons arg args =>
      cases found with
      | nil => exact .nil
      | cons type found =>
        rw [List.map_cons, List.zip_cons_cons, List.zip_cons_cons, argumentFindings,
          argumentFindings, arg.span_rename]
        exact List.rel_append
          (echo_breach _ (c := .argumentType name position (.ofScalar param) type) hname.all)
          (ih _ args found)

end Echoes

section Renamed

variable {r : String → String} (hr : Function.Injective r) {root : Node} {name : String}
  {ds ds' : List Declaration}

include hr

theorem beq_renamed (a b : String) : (r a == r b) = (a == b) := by
  rw [Bool.eq_iff_iff, beq_iff_eq, beq_iff_eq, hr.eq_iff]

theorem Frame.find_rename (frame : Frame) (name : String) :
    (frame.rename r).find (r name) = (frame.find name).map (Symbol.rename r) := by
  rw [find, rename, List.find?_map]
  have hsame : ((fun s : Symbol => s.name == r name) ∘ Symbol.rename r) =
      fun s => s.name == name := funext fun s => beq_renamed hr s.name name
  rw [hsame, find]

theorem Frame.isNone_find_rename (frame : Frame) (name : String) :
    ((frame.rename r).find (r name)).isNone = (frame.find name).isNone := by
  rw [find_rename hr, Option.isNone_map]

theorem Frame.rename_add (frame : Frame) (s : Symbol) :
    (frame.add s).rename r = (frame.rename r).add (s.rename r) := by
  have hname : (s.rename r).name = r s.name := rfl
  rw [add, add, hname, isNone_find_rename hr]
  split
  · exact List.map_append
  · rfl

theorem Frame.rename_addAll (frame : Frame) (h : Forall₂ (Declaration.Echoes r root) ds ds') :
    (frame.addAll ds).rename r = (frame.rename r).addAll ds' := by
  induction h generalizing frame with
  | nil => rfl
  | @cons d d' _ _ hd _ ih =>
    change ((frame.add d.symbol).addAll _).rename r = ((frame.rename r).add d'.symbol).addAll _
    rw [ih, rename_add hr, hd.symbol]

theorem Frame.findings_echo (frame : Frame) (h : Forall₂ (Declaration.Echoes r root) ds ds') :
    Forall₂ (Echoes r root) (frame.findings ds) ((frame.rename r).findings ds') := by
  induction h generalizing frame with
  | nil => exact .nil
  | @cons d d' _ _ hd _ ih =>
    have hname : d'.symbol.name = r d.symbol.name := by rw [hd.symbol, Symbol.rename]
    have htype : d'.symbol.type = d.symbol.type := by rw [hd.symbol, Symbol.rename]
    have hspan : d'.symbol.span = d.symbol.span := by rw [hd.symbol, Symbol.rename]
    rw [findings, findings, hname, htype, hspan, hd.line, isNone_find_rename hr, hd.symbol,
      ← rename_add hr]
    exact List.rel_append
      (List.rel_append hd.flaws
        (echo_breach _ (c := .duplicateDeclaration d.symbol.name d.symbol.type) hd.named.all))
      (ih _)

theorem ScopeTable.resolve_rename (t : ScopeTable) (name : String) :
    (t.rename r).resolve (r name) = (t.resolve name).map (Symbol.rename r) := by
  have hframes : ∀ frames : List Frame,
      (frames.map (Frame.rename r)).findSome? (fun frame => frame.find (r name)) =
        (frames.findSome? fun frame => frame.find name).map (Symbol.rename r) := by
    intro frames
    induction frames with
    | nil => rfl
    | cons frame frames ih =>
      rw [List.map_cons, List.findSome?_cons, List.findSome?_cons, ih, Frame.find_rename hr]
      cases frame.find name <;> rfl
  exact hframes (t.innermost :: t.outer)

namespace View

variable (v : View)

theorem resolve_rename (name : String) :
    (v.rename r).scopes.resolve (r name) = (v.scopes.resolve name).map (Symbol.rename r) :=
  v.scopes.resolve_rename hr name

theorem variableNamed?_rename (name : String) :
    (v.rename r).variableNamed? (r name) = (v.variableNamed? name).map (Symbol.rename r) := by
  rw [variableNamed?, resolve_rename hr, Option.filter_map]
  rfl

theorem resultOf_rename (name : String) :
    (v.rename r).resultOf (r name) = v.resultOf name := by
  rw [resultOf, resultOf, resolve_rename hr]
  cases v.scopes.resolve name <;> rfl

theorem rename_declaring (h : Forall₂ (Declaration.Echoes r root) ds ds') :
    (v.declaring ds).rename r = (v.rename r).declaring ds' := by
  have hframe : (v.declaring ds).scopes.rename r =
      { v.scopes.rename r with innermost := (v.scopes.innermost.rename r).addAll ds' } := by
    rw [← Frame.rename_addAll hr _ h]
    rfl
  rw [rename, hframe]
  rfl

theorem nameFindings_echo (hname : root.Names name) (target : Bool) (span : Span) :
    Forall₂ (Echoes r root) (v.nameFindings name target span)
      ((v.rename r).nameFindings (r name) target span) := by
  rw [nameFindings, nameFindings, resolve_rename hr]
  cases v.scopes.resolve name with
  | none => exact echo_one (c := .undeclaredVariable name target) hname.all
  | some symbol => exact echo_breach _ (c := .notAVariable name) hname.all

theorem callFindings_echo (hname : root.Names name) (args : List Expr) (found : List Ty)
    (span : Span) :
    Forall₂ (Echoes r root) (v.callFindings name args found span)
      ((v.rename r).callFindings (r name) (args.map (Expr.rename r)) found span) := by
  rw [callFindings, callFindings, resolve_rename hr]
  cases v.scopes.resolve name with
  | none => exact echo_one (c := .undeclaredMethod name) hname.all
  | some symbol =>
    obtain ⟨_, kind, _, _⟩ := symbol
    cases kind with
    | method params =>
      by_cases hlength : params.length = found.length
      · simp only [Option.map_some, Symbol.rename, if_pos hlength]
        exact argumentFindings_echo hname 1 params args found
      · simp only [Option.map_some, Symbol.rename, if_neg hlength]
        exact echo_one (c := .argumentCount name params.length found.length) hname.all
    | field | localVar | parameter => exact echo_one (c := .notCallable name) hname.all

end View

theorem Location.typeIn_rename (v : View) (place : Location) :
    (place.rename r).typeIn (v.rename r) = place.typeIn v := by
  cases place with
  | scalar name _ =>
    rw [Location.rename, typeIn, typeIn, v.variableNamed?_rename hr, Option.map_map]
    rfl
  | indexed name index _ =>
    rw [Location.rename, typeIn, typeIn, v.variableNamed?_rename hr, Option.bind_map]
    rfl

theorem Call.typeIn_rename (v : View) (called : Call) :
    (called.rename r).typeIn (v.rename r) = called.typeIn v := by
  cases called with
  | method name args _ => exact v.resultOf_rename hr name
  | callout name args _ => rfl

theorem Expr.typeIn_rename (v : View) : (e : Expr) →
    (e.rename r).typeIn (v.rename r) = e.typeIn v
  | .paren inner _ => inner.typeIn_rename v
  | .location place _ => place.typeIn_rename hr v
  | .call called _ => called.typeIn_rename hr v
  | .int _ _ | .char _ _ | .bool _ _ | .unary _ _ _ | .binary _ _ _ _ => rfl

theorem Expr.types_rename (v : View) (args : List Expr) :
    (args.map (Expr.rename r)).map (Expr.typeIn (v.rename r)) = args.map (Expr.typeIn v) := by
  rw [List.map_map]
  exact List.map_congr_left fun e _ => e.typeIn_rename hr v

end Renamed

mutual

theorem Expr.findings_echo {r : String → String} (hr : Function.Injective r) {root : Node}
    (v : View) : (e : Expr) → root.Within (.expr e) →
    Forall₂ (Echoes r root) (e.findings v) ((e.rename r).findings (v.rename r))
  | .location place span, h => place.findings_echo hr v span.line false (.child h (.head _))
  | .call called _, h => called.findings_echo hr v (.child h (.head _))
  | .int _ _, _ | .char _ _, _ | .bool _ _, _ => .nil
  | .unary _ operand _, h => operand.findings_echo hr v (.child h (.head _))
  | .binary op left right span, h => by
    have hrules : (v.rename r).rules = v.rules := rfl
    rw [Expr.findings, Expr.rename, Expr.findings, left.typeIn_rename hr, right.typeIn_rename hr,
      hrules]
    have hoperands := echo_breach (r := r)
      (v.rules.operandsOk op.category (left.typeIn v) (right.typeIn v))
      (c := .operands op.category left right) ⟨op, rfl, h⟩
    exact List.rel_append (List.rel_append (left.findings_echo hr v (.child h (.head _)))
      (right.findings_echo hr v (.child h (.tail _ (.head _))))) hoperands
  | .paren inner _, h => inner.findings_echo hr v (.child h (.head _))

theorem Location.findings_echo {r : String → String} (hr : Function.Injective r) {root : Node}
    (v : View) : (place : Location) → (line : Nat) →
    (target : Bool) → root.Within (.location place) →
    Forall₂ (Echoes r root) (place.findings v line target)
      ((place.rename r).findings (v.rename r) line target)
  | .scalar name span, line, target, h => v.nameFindings_echo hr ⟨_, h, .head _⟩ target _
  | .indexed name index span, line, target, h => by
    have hname : root.Names name := ⟨_, h, .head _⟩
    rw [Location.findings, Location.rename, Location.findings, index.typeIn_rename hr,
      index.span_rename, v.variableNamed?_rename hr]
    apply List.rel_append (List.rel_append (index.findings_echo hr v (.child h (.head _)))
      (v.nameFindings_echo hr hname target _))
    cases v.variableNamed? name with
    | none => exact .nil
    | some symbol =>
      simp only [Option.map_some, Symbol.rename]
      split
      · exact echo_breach _ (c := .arrayIndex index (index.typeIn v)) ⟨rfl, name, span, h⟩
      · exact echo_one (c := .notAnArray name) hname.all

theorem Call.findings_echo {r : String → String} (hr : Function.Injective r) {root : Node}
    (v : View) : (called : Call) → root.Within (.call called) →
    Forall₂ (Echoes r root) (called.findings v) ((called.rename r).findings (v.rename r))
  | .method name args span, h => by
    have hname : root.Names name := by
      refine ⟨_, h, ?_⟩
      rw [Node.kinds, Call.kinds_method]
      exact .head _
    rw [Call.findings, Call.rename, Call.findings, Expr.renameList_eq, Expr.types_rename hr,
      ← Expr.renameList_eq]
    refine List.rel_append
      (Expr.listFindings_echo hr v args fun arg harg => .child h (List.mem_map_of_mem harg)) ?_
    rw [Expr.renameList_eq]
    exact v.callFindings_echo hr hname args _ span
  | .callout _ args _, h => CalloutArg.listFindings_echo hr v args fun value hvalue =>
      .child h (List.mem_flatMap.2 ⟨.expr value, hvalue, .head _⟩)

theorem Expr.listFindings_echo {r : String → String} (hr : Function.Injective r)
    {root : Node} (v : View) : (args : List Expr) →
    (∀ arg ∈ args, root.Within (.expr arg)) →
    Forall₂ (Echoes r root) (Expr.listFindings v args)
      (Expr.listFindings (v.rename r) (Expr.renameList r args))
  | [], _ => .nil
  | arg :: args, h => by
    obtain ⟨harg, hargs⟩ := List.forall_mem_cons.1 h
    exact List.rel_append (arg.findings_echo hr v harg) (Expr.listFindings_echo hr v args hargs)

theorem CalloutArg.listFindings_echo {r : String → String} (hr : Function.Injective r)
    {root : Node} (v : View) : (args : List CalloutArg) →
    (∀ value, .expr value ∈ args → root.Within (.expr value)) →
    Forall₂ (Echoes r root) (CalloutArg.listFindings v args)
      (CalloutArg.listFindings (v.rename r) (CalloutArg.renameList r args))
  | [], _ => .nil
  | .expr value :: args, h =>
    List.rel_append (value.findings_echo hr v (h value (.head _)))
      (CalloutArg.listFindings_echo hr v args fun value hvalue => h value (.tail _ hvalue))
  | .string _ :: args, h =>
    CalloutArg.listFindings_echo hr v args fun value hvalue => h value (.tail _ hvalue)

end

section Renamed

variable {r : String → String} (hr : Function.Injective r) {root : Node}

include hr

namespace View

variable (v : View)

theorem conditionFindings_echo {e : Expr} (h : root.Within (.expr e)) :
    Forall₂ (Echoes r root) (v.conditionFindings e)
      ((v.rename r).conditionFindings (e.rename r)) := by
  rw [conditionFindings, conditionFindings, wantedFindings, wantedFindings, e.typeIn_rename hr,
    e.span_rename]
  exact List.rel_append (e.findings_echo hr v h)
    (echo_breach _ (c := .condition (e.typeIn v)) (List.forall_mem_nil _))

theorem boundFindings_echo {var : Name} {first last bound : Expr} {body : Block} {a : Span}
    (h : root.Within (.stmt (.forLoop var first last body a)))
    (hbound : bound = first ∨ bound = last) :
    Forall₂ (Echoes r root) (v.boundFindings bound)
      ((v.rename r).boundFindings (bound.rename r)) := by
  have hwithin : root.Within (.expr bound) := by
    rcases hbound with rfl | rfl
    · exact .child h (.tail _ (.head _))
    · exact .child h (.tail _ (.tail _ (.head _)))
  rw [boundFindings, boundFindings, wantedFindings, wantedFindings, bound.typeIn_rename hr,
    bound.span_rename]
  exact List.rel_append (bound.findings_echo hr v hwithin)
    (echo_breach _ (c := .loopBound bound (bound.typeIn v)) ⟨rfl, _, _, _, _, _, h, hbound⟩)

theorem loopVariableFindings_echo {var : Name} (h : root.Within (.name var)) :
    Forall₂ (Echoes r root) (v.loopVariableFindings var)
      ((v.rename r).loopVariableFindings (var.rename r)) := by
  have hname : root.Names var.text := ⟨_, h, .head _⟩
  rw [loopVariableFindings, loopVariableFindings, Name.rename, variableNamed?_rename hr]
  apply List.rel_append (v.nameFindings_echo hr hname false _)
  cases v.variableNamed? var.text with
  | none => exact .nil
  | some symbol => exact echo_breach _ (c := .loopVariable var.text symbol.type) hname.all

theorem returnType_rename (value : Option Expr) :
    (v.rename r).returnType (value.map (Expr.rename r)) = v.returnType value := by
  cases value with
  | none => rfl
  | some e => exact e.typeIn_rename hr v

theorem returnFindings_echo {value : Option Expr}
    (hmethod : ∀ m, v.method = some m → root.Names m.name)
    (hvalue : ∀ e ∈ value, root.Within (.expr e)) (span : Span) :
    Forall₂ (Echoes r root) (v.returnFindings value span)
      ((v.rename r).returnFindings (value.map (Expr.rename r)) span) := by
  have hown : Forall₂ (Echoes r root) ((value.map (Expr.findings v)).getD [])
      (((value.map (Expr.rename r)).map (Expr.findings (v.rename r))).getD []) := by
    cases value with
    | none => exact .nil
    | some e => exact e.findings_echo hr v (hvalue e rfl)
  have hview : (v.rename r).method = v.method.map fun m => { m with name := r m.name } := rfl
  rw [returnFindings, returnFindings, returnType_rename hr, hview]
  apply List.rel_append hown
  cases hm : v.method with
  | none => exact .nil
  | some m =>
    exact echo_breach (r := r)
      (v.returnType value == m.returnType || (v.returnType value).isUnknown)
      (c := .returnMismatch m.name m.returnType (v.returnType value)) (hmethod m hm).all

end View

end Renamed

mutual

theorem Stmt.findings_echo {r : String → String} (hr : Function.Injective r) {root : Node}
    (v : View) (hmethod : ∀ m, v.method = some m → root.Names m.name) :
    (s : Stmt) → root.Within (.stmt s) →
    Forall₂ (Echoes r root) (s.findings v) ((s.rename r).findings (v.rename r))
  | .assign target op value span, h => by
    have hrules : (v.rename r).rules = v.rules := rfl
    rw [Stmt.findings, Stmt.rename, Stmt.findings, target.typeIn_rename hr,
      value.typeIn_rename hr, hrules]
    exact List.rel_append
      (List.rel_append (target.findings_echo hr v span.line true (.child h (.head _)))
        (value.findings_echo hr v (.child h (.tail _ (.head _)))))
      (echo_breach _ (c := .assignment (target.typeIn v) (value.typeIn v)) (List.forall_mem_nil _))
  | .call called _, h => called.findings_echo hr v (.child h (.head _))
  | .ifThen condition body _, h =>
    List.rel_append (v.conditionFindings_echo hr (.child h (.head _)))
      (body.findings_echo hr v.entering hmethod (.child h (.tail _ (.head _))))
  | .ifElse condition body other _, h =>
    List.rel_append
      (List.rel_append (v.conditionFindings_echo hr (.child h (.head _)))
        (body.findings_echo hr v.entering hmethod (.child h (.tail _ (.head _)))))
      (other.findings_echo hr v.entering hmethod (.child h (.tail _ (.tail _ (.head _)))))
  | .forLoop var first last body _, h =>
    List.rel_append
      (List.rel_append
        (List.rel_append (v.loopVariableFindings_echo hr (.child h (.head _)))
          (v.boundFindings_echo hr h (.inl rfl)))
        (v.boundFindings_echo hr h (.inr rfl)))
      (body.findings_echo hr v.looping.entering hmethod
        (.child h (.tail _ (.tail _ (.tail _ (.head _))))))
  | .returnFrom value span, h =>
    v.returnFindings_echo hr hmethod
      (fun _ he => .child h (List.mem_map_of_mem (Option.mem_toList.2 he))) span
  | .breakLoop _, _ => echo_breach v.inLoop (c := .strayBreak) (List.forall_mem_nil _)
  | .continueLoop _, _ => echo_breach v.inLoop (c := .strayContinue) (List.forall_mem_nil _)
  | .block inner _, h => inner.findings_echo hr v.entering hmethod (.child h (.head _))

theorem Block.findings_echo {r : String → String} (hr : Function.Injective r) {root : Node}
    (v : View) (hmethod : ∀ m, v.method = some m → root.Names m.name) :
    (b : Block) → root.Within (.block b) →
    Forall₂ (Echoes r root) (b.findings v) ((b.rename r).findings (v.rename r))
  | .mk locals body span, h => by
    have hlocals := Block.declarations_echo (r := r) h
    rw [Block.findings, Block.rename, Block.findings]
    apply List.rel_append (Frame.findings_echo hr _ hlocals)
    have hview := v.rename_declaring hr hlocals
    rw [Block.rename] at hview
    rw [← hview]
    exact Stmt.listFindings_echo hr (v.declaring _) hmethod body fun s hs =>
      .child h (List.mem_append_right _ (List.mem_map_of_mem hs))

theorem Stmt.listFindings_echo {r : String → String} (hr : Function.Injective r) {root : Node}
    (v : View) (hmethod : ∀ m, v.method = some m → root.Names m.name) :
    (stmts : List Stmt) → (∀ s ∈ stmts, root.Within (.stmt s)) →
    Forall₂ (Echoes r root) (Stmt.listFindings v stmts)
      (Stmt.listFindings (v.rename r) (Stmt.renameList r stmts))
  | [], _ => .nil
  | s :: stmts, h => by
    obtain ⟨hs, hstmts⟩ := List.forall_mem_cons.1 h
    exact List.rel_append (s.findings_echo hr v hmethod hs)
      (Stmt.listFindings_echo hr v hmethod stmts hstmts)

end

section Renamed

variable {r : String → String} (hr : Function.Injective r) {root : Node}

include hr

namespace MethodDecl

theorem findings_echo (v : View) {method : MethodDecl} (h : root.Within (.method method)) :
    Forall₂ (Echoes r root) (method.findings v) ((method.rename r).findings (v.rename r)) := by
  have hname : root.Names method.name := ⟨_, h, .tail _ (.head _)⟩
  have hown := declaration_echo (r := r) hname
  have hparams : Forall₂ (Declaration.Echoes r root) (method.params.map Param.declaration)
      ((method.rename r).params.map Param.declaration) :=
    Param.declarations_echo fun p hp => .child h (List.mem_append_left _ (List.mem_map_of_mem hp))
  have hview : (method.bodyView v).rename r = (method.rename r).bodyView (v.rename r) := by
    rw [bodyView, bodyView, ← v.rename_declaring hr hown]
    have hinner := (v.declaring [method.declaration]).entering.rename_declaring hr hparams
    have hentering : (v.declaring [method.declaration]).entering.rename r =
        ((v.declaring [method.declaration]).rename r).entering := rfl
    rw [← hentering, ← hinner]
    rfl
  have hbody := method.body.findings_echo hr (method.bodyView v)
    (fun _ hm => Option.some.inj hm ▸ hname) (.child h (List.mem_append_right _ (.head _)))
  rw [hview] at hbody
  exact List.rel_append
    (List.rel_append (Frame.findings_echo hr _ hown) (Frame.findings_echo hr [] hparams)) hbody

theorem listFindings_echo (v : View) {methods : List MethodDecl}
    (h : ∀ method ∈ methods, root.Within (.method method)) :
    Forall₂ (Echoes r root) (listFindings v methods)
      (listFindings (v.rename r) (methods.map (MethodDecl.rename r))) := by
  induction methods generalizing v with
  | nil => exact .nil
  | cons method methods ih =>
    obtain ⟨hmethod, hmethods⟩ := List.forall_mem_cons.1 h
    have hown := declaration_echo (r := r) ⟨_, hmethod, .tail _ (.head _)⟩
    rw [List.map_cons, listFindings, listFindings, ← v.rename_declaring hr hown]
    exact List.rel_append (findings_echo hr v hmethod) (ih _ hmethods)

end MethodDecl

namespace Program

theorem mainFindings_echo (hmain : r "main" = "main") (p : Program) :
    Forall₂ (Echoes r root) p.mainFindings (p.rename r).mainFindings := by
  have hany : ((p.rename r).methods.any fun m => m.name = "main") =
      p.methods.any fun m => m.name = "main" := by
    have hsame : ((fun m : MethodDecl => decide (m.name = "main")) ∘ MethodDecl.rename r) =
        fun m => decide (m.name = "main") := by
      funext m
      have hiff : r m.name = "main" ↔ m.name = "main" := by
        rw [← hr.eq_iff (a := m.name), hmain]
      exact decide_eq_decide.2 hiff
    rw [Program.rename, List.any_map, hsame]
  rw [mainFindings, mainFindings, hany]
  split
  · exact .nil
  · exact .cons (.noMain _) .nil

theorem findings_echo (hmain : r "main" = "main") (rules : RuleSet) (p : Program) :
    Forall₂ (Echoes r (.program p)) (p.findings rules) ((p.rename r).findings rules) := by
  have hfields : Forall₂ (Declaration.Echoes r (.program p)) p.fieldDeclarations
      (p.rename r).fieldDeclarations := by
    rw [fieldDeclarations, fieldDeclarations, Program.rename, List.flatMap_map]
    exact forall₂_flatMap fun decl hdecl => FieldDecl.declarations_echo
      (.child .root (List.mem_append_left _ (List.mem_map_of_mem hdecl)))
  have hview := (View.mk rules .root false none).rename_declaring hr hfields
  have hwithin : ∀ method ∈ p.methods, (Node.program p).Within (.method method) :=
    fun method hmethod => .child .root (List.mem_append_right _ (List.mem_map_of_mem hmethod))
  have hmethods := MethodDecl.listFindings_echo hr
    ((View.mk rules .root false none).declaring p.fieldDeclarations) hwithin
  rw [hview] at hmethods
  exact List.rel_append (List.rel_append (Frame.findings_echo hr [] hfields) hmethods)
    (mainFindings_echo hr hmain p)

end Program

end Renamed

theorem exists_echo_of_mem {r : String → String} {root : Node} {xs ys : List Diagnostic}
    {d : Diagnostic} (h : Forall₂ (Echoes r root) xs ys) (hd : d ∈ xs) :
    ∃ d', Echoes r root d d' := by
  induction h with
  | nil => cases hd
  | @cons _ d' _ _ hecho _ ih =>
    rcases List.mem_cons.1 hd with rfl | hrest
    · exact ⟨d', hecho⟩
    · exact ih hrest

theorem Program.complaint_of_mem_findings {rules : RuleSet} {p : Program} {d : Diagnostic}
    (h : d ∈ p.findings rules) :
    (∃ (c : Complaint) (span : Span), c.From (.program p) span ∧ d = .ofSpan c.defect span) ∨
      ∃ line, d = .ofLine .missingMainMethod line := by
  obtain ⟨d', hecho⟩ := exists_echo_of_mem (p.findings_echo Function.injective_id rfl rules) h
  cases hecho with
  | @complaint c span hfrom => exact .inl ⟨c, span, hfrom, rfl⟩
  | noMain line => exact .inr ⟨line, rfl⟩

/-- Under an injective renaming that keeps the name of the main method every diagnostic stays in its
place, of its kind, with its types and numbers; names are renamed, and texts of expressions become
those of the renamed expressions. -/
theorem analyze_rename {r : String → String} (hr : Function.Injective r)
    (hmain : r "main" = "main") (rules : RuleSet) (p : Program) :
    Forall₂ (Echoes r (.program p)) (analyze rules p) (analyze rules (p.rename r)) := by
  rw [analyze_eq_findings, analyze_eq_findings]
  exact p.findings_echo hr hmain rules

theorem analyze_rename_swap :
    Function.Injective (Equiv.swap "x" "y") ∧ Equiv.swap "x" "y" "main" = "main" ∧
      ∃ p : Program, Forall₂ (Echoes (Equiv.swap "x" "y") (.program p)) (analyze .standard p)
          (analyze .standard (p.rename (Equiv.swap "x" "y"))) ∧
        analyze .standard p = [.ofSpan (.undeclaredVariable "x" true) ⟨30, 31, 2⟩,
          .ofSpan (.typeMismatch (.operator .weakArith) "y" "true") ⟨34, 42, 2⟩] ∧
        analyze .standard (p.rename (Equiv.swap "x" "y")) =
          [.ofSpan (.undeclaredVariable "y" true) ⟨30, 31, 2⟩,
            .ofSpan (.typeMismatch (.operator .weakArith) "x" "true") ⟨34, 42, 2⟩] := by
  have hmain : Equiv.swap "x" "y" "main" = "main" :=
    Equiv.swap_apply_of_ne_of_ne (by decide) (by decide)
  refine ⟨(Equiv.swap "x" "y").injective, hmain,
    ⟨"P", [⟨.int, [⟨"y", none, ⟨14, 15, 1⟩⟩], ⟨10, 16, 1⟩⟩],
      [⟨"main", none, [], .mk [] [.assign (.scalar "x" ⟨30, 31, 2⟩) .assign
        (.binary .add (.location (.scalar "y" ⟨34, 35, 2⟩) ⟨34, 35, 2⟩) (.bool true ⟨38, 42, 2⟩)
          ⟨34, 42, 2⟩) ⟨30, 43, 2⟩] ⟨29, 44, 2⟩, ⟨17, 44, 2⟩⟩], ⟨0, 46, 1⟩, 3⟩,
    analyze_rename (Equiv.swap "x" "y").injective hmain .standard _, ?_, ?_⟩
  · cbv
  · cbv

end Decaf
