import Decaf.Proofs.Typing

namespace Decaf

mutual

def Stmt.returnsValue : Stmt → Bool
  | .ifThen _ thenBlock _ => thenBlock.returnsValue
  | .ifElse _ thenBlock elseBlock _ => thenBlock.returnsValue || elseBlock.returnsValue
  | .forLoop _ _ _ body _ => body.returnsValue
  | .returnFrom value _ => value.isSome
  | .block inner _ => inner.returnsValue
  | .assign .. | .call .. | .breakLoop _ | .continueLoop _ => false

def Block.returnsValue : Block → Bool
  | .mk _ statements _ => Stmt.anyReturnsValue statements

def Stmt.anyReturnsValue : List Stmt → Bool
  | [] => false
  | s :: ss => s.returnsValue || Stmt.anyReturnsValue ss

end

namespace Typing

/-- The two readings of the rules differ in the values that a method without result returns. -/
def Bare (result : Option ScalarType) (returnsValue : Bool) : Prop :=
  result = none → returnsValue = false

instance (result : Option ScalarType) (returnsValue : Bool) :
    Decidable (Bare result returnsValue) :=
  inferInstanceAs (Decidable (_ → _))

variable {result : Option ScalarType} {env : Env} {inLoop : Bool}

theorem bare_false : Bare result false := fun _ => rfl

theorem bare_or {x y : Bool} : Bare result (x || y) ↔ Bare result x ∧ Bare result y := by
  simp only [Bare, Bool.or_eq_false_iff, forall_and]

theorem StmtTyped.assign_of {r r' : Reading} {target : Location} {op : AssignOp} {value : Expr}
    {span : Span} (h : StmtTyped r result env inLoop (.assign target op value span)) :
    StmtTyped r' result env inLoop (.assign target op value span) := by
  cases h with
  | assign ht hv => exact .assign ht hv
  | addAssign ht hv => exact .addAssign ht hv
  | subAssign ht hv => exact .subAssign ht hv

theorem returnFrom_strict_iff (value : Option Expr) (span : Span) :
    StmtTyped .strict result env inLoop (.returnFrom value span) ↔
      StmtTyped .lax result env inLoop (.returnFrom value span) ∧ Bare result value.isSome := by
  constructor
  · intro h
    cases h with
    | returnNothing hresult => exact ⟨.returnNothing hresult, bare_false⟩
    | returnValue hresult hvalue =>
      refine ⟨.returnValue hresult hvalue, fun hnone => ?_⟩
      cases hresult.symm.trans hnone
    | returnVoid hlax => cases hlax
  · rintro ⟨h, hbare⟩
    cases h with
    | returnNothing hresult => exact .returnNothing hresult
    | returnValue hresult hvalue => exact .returnValue hresult hvalue
    | returnVoid _ hresult => cases hbare hresult

mutual

theorem stmt_strict_iff (env : Env) (inLoop : Bool) (s : Stmt) :
    StmtTyped .strict result env inLoop s ↔
      StmtTyped .lax result env inLoop s ∧ Bare result s.returnsValue := by
  cases s with
  | assign target op value span =>
    exact ⟨fun h => ⟨h.assign_of, bare_false⟩, fun h => h.1.assign_of⟩
  | call called span =>
    rw [StmtTyped.call_iff, StmtTyped.call_iff]
    exact (and_iff_left bare_false).symm
  | ifThen condition thenBlock span =>
    rw [StmtTyped.ifThen_iff, StmtTyped.ifThen_iff, block_strict_iff env inLoop thenBlock,
      ← and_assoc]
    rfl
  | ifElse condition thenBlock elseBlock span =>
    rw [StmtTyped.ifElse_iff, StmtTyped.ifElse_iff, block_strict_iff env inLoop thenBlock,
      ← and_assoc, block_strict_iff env inLoop elseBlock, and_and_and_comm, Stmt.returnsValue,
      bare_or]
  | forLoop var first last body span =>
    rw [StmtTyped.forLoop_iff, StmtTyped.forLoop_iff, block_strict_iff env true body, ← and_assoc]
    rfl
  | returnFrom value span => exact returnFrom_strict_iff value span
  | breakLoop span =>
    rw [StmtTyped.breakLoop_iff, StmtTyped.breakLoop_iff]
    exact (and_iff_left bare_false).symm
  | continueLoop span =>
    rw [StmtTyped.continueLoop_iff, StmtTyped.continueLoop_iff]
    exact (and_iff_left bare_false).symm
  | block inner span =>
    rw [StmtTyped.block_iff, StmtTyped.block_iff, block_strict_iff env inLoop inner]
    rfl

theorem block_strict_iff (env : Env) (inLoop : Bool) (b : Block) :
    BlockTyped .strict result env inLoop b ↔
      BlockTyped .lax result env inLoop b ∧ Bare result b.returnsValue := by
  cases b with
  | mk locals statements span =>
    rw [BlockTyped.mk_iff, BlockTyped.mk_iff, stmts_strict_iff _ inLoop statements, ← and_assoc]
    rfl

theorem stmts_strict_iff (env : Env) (inLoop : Bool) (ss : List Stmt) :
    StmtsTyped .strict result env inLoop ss ↔
      StmtsTyped .lax result env inLoop ss ∧ Bare result (Stmt.anyReturnsValue ss) := by
  cases ss with
  | nil => exact ⟨fun _ => ⟨.nil, bare_false⟩, fun _ => .nil⟩
  | cons s ss =>
    rw [StmtsTyped.cons_iff, StmtsTyped.cons_iff, stmt_strict_iff env inLoop s,
      stmts_strict_iff env inLoop ss, and_and_and_comm, Stmt.anyReturnsValue, bare_or]

end

theorem method_strict_iff (env : Env) (method : MethodDecl) :
    MethodTyped .strict env method ↔
      MethodTyped .lax env method ∧ Bare method.returnType method.body.returnsValue := by
  have hvalue : method.body.returnsValue = Stmt.anyReturnsValue method.body.statements := by
    cases method.body with
    | mk locals statements span => rfl
  rw [hvalue]
  constructor
  · rintro ⟨hd, hs⟩
    obtain ⟨hs, hbare⟩ := (stmts_strict_iff _ false _).mp hs
    exact ⟨.mk hd hs, hbare⟩
  · rintro ⟨⟨hd, hs⟩, hbare⟩
    exact .mk hd ((stmts_strict_iff _ false _).mpr ⟨hs, hbare⟩)

end Typing

/-- No method without result returns a value. -/
def Program.ReturnsBare (p : Program) : Prop :=
  ∀ method ∈ p.methods, Typing.Bare method.returnType method.body.returnsValue

instance (p : Program) : Decidable p.ReturnsBare :=
  inferInstanceAs (Decidable (∀ method ∈ p.methods, _))

namespace Typing

theorem program_strict_iff (p : Program) :
    ProgramTyped .strict p ↔ ProgramTyped .lax p ∧ p.ReturnsBare := by
  constructor
  · rintro ⟨hd, hsizes, hmain, hmethods⟩
    refine ⟨.mk hd hsizes hmain fun earlier method later heq => ?_, fun method hmem => ?_⟩
    · exact ((method_strict_iff _ _).mp (hmethods earlier method later heq)).1
    · obtain ⟨earlier, later, heq⟩ := List.append_of_mem hmem
      exact ((method_strict_iff _ _).mp (hmethods earlier method later heq)).2
  · rintro ⟨⟨hd, hsizes, hmain, hmethods⟩, hbare⟩
    refine .mk hd hsizes hmain fun earlier method later heq => ?_
    have hmem : method ∈ p.methods := by simp [heq]
    exact (method_strict_iff _ _).mpr ⟨hmethods earlier method later heq, hbare method hmem⟩

end Typing

/-- Two methods without a result, of which one returns a call of the other. -/
def returnedVoidCall : Program where
  name := "P"
  fields := []
  methods := [
    ⟨"f", none, [], .mk [] [] ⟨16, 18, 1⟩, ⟨8, 18, 1⟩⟩,
    ⟨"main", none, [],
      .mk [] [.returnFrom (some (.call (.method "f" [] ⟨37, 40, 1⟩) ⟨37, 40, 1⟩)) ⟨30, 41, 1⟩]
        ⟨29, 42, 1⟩,
      ⟨18, 42, 1⟩⟩]
  span := ⟨0, 43, 1⟩
  endLine := 1

end Decaf
