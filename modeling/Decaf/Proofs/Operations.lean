import Decaf.Proofs.WalkFrame

namespace Decaf

open Analyzer

structure Operation where
  op : BinaryOp
  left : Expr
  right : Expr
  span : Span

mutual

/-- All operations in an expression, an operation behind those in its operands. -/
def Expr.operations : Expr → List Operation
  | .location place _ => place.operations
  | .call called _ => called.operations
  | .int _ _ | .char _ _ | .bool _ _ => []
  | .unary _ operand _ => operand.operations
  | .binary op left right span => left.operations ++ right.operations ++ [⟨op, left, right, span⟩]
  | .paren inner _ => inner.operations

def Location.operations : Location → List Operation
  | .scalar _ _ => []
  | .indexed _ index _ => index.operations

def Call.operations : Call → List Operation
  | .method _ args _ => Expr.listOperations args
  | .callout _ args _ => CalloutArg.listOperations args

def Expr.listOperations : List Expr → List Operation
  | [] => []
  | arg :: args => arg.operations ++ Expr.listOperations args

def CalloutArg.listOperations : List CalloutArg → List Operation
  | [] => []
  | .expr value :: args => value.operations ++ CalloutArg.listOperations args
  | .string _ :: args => CalloutArg.listOperations args

end

namespace Operation

def expr (o : Operation) : Expr := .binary o.op o.left o.right o.span

/-- What is wrong with an operation apart from its operands. -/
def findings (v : View) (o : Operation) : List Diagnostic :=
  breach (v.rules.operandsOk o.op.category (o.left.typeIn v) (o.right.typeIn v))
    (.typeMismatch (.operator o.op.category) o.left.text o.right.text) o.span

theorem findings_expr (v : View) (o : Operation) :
    o.expr.findings v = o.left.findings v ++ o.right.findings v ++ o.findings v := rfl

end Operation

/-- The defects of names, array elements and calls in an expression. -/
def Defect.isReference : Defect → Bool
  | .undeclaredVariable _ _ | .undeclaredMethod _ | .notAVariable _ | .notCallable _
  | .notAnArray _ | .argumentCount _ _ _ | .argumentType _ _ _ _
  | .typeMismatch .arrayIndex _ _ => true
  | _ => false

section References

variable {v : View} {d : Diagnostic} {span : Span}

theorem isReference_nameFindings {name : String} {target : Bool}
    (h : d ∈ v.nameFindings name target span) : d.defect.isReference = true := by
  rcases View.mem_nameFindings h with ⟨-, rfl⟩ | ⟨_, -, -, rfl⟩ <;> rfl

theorem isReference_callFindings {name : String} {args : List Expr} {found : List Ty}
    (h : d ∈ v.callFindings name args found span) : d.defect.isReference = true := by
  rcases View.mem_callFindings h with ⟨-, rfl⟩ |
    ⟨_, -, ⟨-, rfl⟩ | ⟨_, rfl⟩ | ⟨_, -, _, _, -, rfl⟩⟩ <;> rfl

end References

section Filter

variable {kind : Defect → Bool}

theorem filter_breach {condition : Bool} {defect : Defect} {span : Span}
    (h : kind defect = true) :
    (breach condition defect span).filter (fun d => kind d.defect) =
      breach condition defect span := by
  cases condition
  · simp [breach, Diagnostic.ofSpan, h]
  · rfl

theorem filter_breach_of_false {condition : Bool} {defect : Defect} {span : Span}
    (h : kind defect = false) :
    (breach condition defect span).filter (fun d => kind d.defect) = [] := by
  cases condition
  · simp [breach, Diagnostic.ofSpan, h]
  · rfl

/-- References have no defects of this kind. -/
def SparesReferences (kind : Defect → Bool) : Prop :=
  ∀ defect : Defect, defect.isReference = true → kind defect = false

theorem filter_references (h : SparesReferences kind) {found : List Diagnostic}
    (hfound : ∀ d ∈ found, d.defect.isReference = true) :
    found.filter (fun d => kind d.defect) = [] := by
  refine List.filter_eq_nil_iff.2 fun d hd => ?_
  rw [h d.defect (hfound d hd)]
  exact Bool.false_ne_true

variable (v : View)

mutual

/-- Apart from references, what is wrong with an expression is what is wrong with its
operations. -/
theorem Expr.filter_findings (h : SparesReferences kind) : (e : Expr) →
    (e.findings v).filter (fun d => kind d.defect) =
      e.operations.flatMap fun o => (o.findings v).filter fun d => kind d.defect
  | .location place span => place.filter_findings h span.line false
  | .call called _ => called.filter_findings h
  | .int _ _ | .char _ _ | .bool _ _ => rfl
  | .unary _ operand _ => operand.filter_findings h
  | .binary op left right span => by
    rw [Expr.operations, List.flatMap_append, List.flatMap_append, List.flatMap_singleton,
      ← left.filter_findings h, ← right.filter_findings h, ← List.filter_append,
      ← List.filter_append]
    rfl
  | .paren inner _ => inner.filter_findings h

theorem Location.filter_findings (h : SparesReferences kind) : (place : Location) →
    (line : Nat) → (target : Bool) →
    (place.findings v line target).filter (fun d => kind d.defect) =
      place.operations.flatMap fun o => (o.findings v).filter fun d => kind d.defect
  | .scalar _ _, _, _ => filter_references h fun _ => isReference_nameFindings
  | .indexed name index span, line, target => by
    rw [Location.findings, List.append_assoc, List.filter_append, index.filter_findings h,
      filter_references h, List.append_nil, Location.operations]
    refine List.forall_mem_append.2 ⟨fun _ => isReference_nameFindings, ?_⟩
    intro d hd
    split at hd
    · cases hd
    · split at hd
      · rw [(mem_breach_iff.1 hd).2]
        rfl
      · rw [List.mem_singleton.1 hd]
        rfl

theorem Call.filter_findings (h : SparesReferences kind) : (called : Call) →
    (called.findings v).filter (fun d => kind d.defect) =
      called.operations.flatMap fun o => (o.findings v).filter fun d => kind d.defect
  | .method name args span => by
    rw [Call.findings, List.filter_append, Expr.filter_listFindings h args,
      filter_references h fun _ => isReference_callFindings, List.append_nil, Call.operations]
  | .callout _ args _ => CalloutArg.filter_listFindings h args

theorem Expr.filter_listFindings (h : SparesReferences kind) : (args : List Expr) →
    (Expr.listFindings v args).filter (fun d => kind d.defect) =
      (Expr.listOperations args).flatMap fun o => (o.findings v).filter fun d => kind d.defect
  | [] => rfl
  | arg :: args => by
    rw [Expr.listFindings, List.filter_append, arg.filter_findings h,
      Expr.filter_listFindings h args, Expr.listOperations, List.flatMap_append]

theorem CalloutArg.filter_listFindings (h : SparesReferences kind) : (args : List CalloutArg) →
    (CalloutArg.listFindings v args).filter (fun d => kind d.defect) =
      (CalloutArg.listOperations args).flatMap fun o =>
        (o.findings v).filter fun d => kind d.defect
  | [] => rfl
  | .expr value :: args => by
    rw [CalloutArg.listFindings, List.filter_append, value.filter_findings h,
      CalloutArg.filter_listFindings h args, CalloutArg.listOperations, List.flatMap_append]
  | .string _ :: args => CalloutArg.filter_listFindings h args

end

end Filter

end Decaf
