import Decaf.Proofs.OperandTexts
import Decaf.Proofs.Operations

namespace Decaf

open Analyzer

namespace OpCategory

/-- The types of operands for which operators of a category are made. -/
def Valid (category : OpCategory) (left right : Ty) : Prop :=
  match category with
  | .strongArith | .weakArith | .relational => left = .int ∧ right = .int
  | .conditional => left = .boolean ∧ right = .boolean
  | .equality => left = right ∧ (left = .int ∨ left = .boolean)

instance (category : OpCategory) (left right : Ty) : Decidable (category.Valid left right) :=
  match category with
  | .strongArith | .weakArith | .relational => inferInstanceAs (Decidable (_ ∧ _))
  | .conditional => inferInstanceAs (Decidable (_ ∧ _))
  | .equality => inferInstanceAs (Decidable (_ ∧ _))

/-- What the legacy rules are to refuse: operands for which the operator is made, or all others if
it is a product. -/
def Reversed (category : OpCategory) (left right : Ty) : Prop :=
  if category = .strongArith then ¬category.Valid left right else category.Valid left right

instance (category : OpCategory) (left right : Ty) : Decidable (category.Reversed left right) :=
  inferInstanceAs (Decidable (if category = .strongArith then _ else _))

/-- An equality of two values of one type, which is an array, void or unknown. -/
def EqualNonScalars (category : OpCategory) (left right : Ty) : Prop :=
  category = .equality ∧ left = right ∧ left.isScalar = false

instance (category : OpCategory) (left right : Ty) :
    Decidable (category.EqualNonScalars left right) :=
  inferInstanceAs (Decidable (_ ∧ _))

theorem EqualNonScalars.not_reversed {category : OpCategory} {left right : Ty}
    (h : category.EqualNonScalars left right) : ¬category.Reversed left right := by
  obtain ⟨rfl, -, hscalar⟩ := h
  rintro ⟨-, rfl | rfl⟩ <;> cases hscalar

end OpCategory

namespace Ty

theorem isInt_iff (type : Ty) : type.isInt = true ↔ type = .int := by
  cases type <;> simp [isInt]

theorem isBoolean_iff (type : Ty) : type.isBoolean = true ↔ type = .boolean := by
  cases type <;> simp [isBoolean]

theorem isScalar_iff (type : Ty) : type.isScalar = true ↔ type = .int ∨ type = .boolean := by
  cases type <;> simp [isScalar]

theorem isUnknown_iff (type : Ty) : type.isUnknown = true ↔ type = .unknown := by
  cases type <;> simp [isUnknown]

end Ty

namespace RuleSet

theorem standard_operandsOk_iff {category : OpCategory} {left right : Ty}
    (hleft : left ≠ .unknown) (hright : right ≠ .unknown) :
    standard.operandsOk category left right = true ↔ category.Valid left right := by
  cases category <;>
    simp [operandsOk, OpCategory.Valid, Ty.isUnknown_iff, Ty.isInt_iff, Ty.isBoolean_iff,
      Ty.isScalar_iff, hleft, hright, and_comm]

/-- The legacy table refuses what it is to refuse, and in its last row more than that. -/
theorem legacy_operandsOk_iff (category : OpCategory) (left right : Ty) :
    legacy.operandsOk category left right = false ↔
      category.Reversed left right ∨ category.EqualNonScalars left right := by
  cases category with
  | equality =>
    -- This row compares the types and does not ask whether they are scalars.
    have hequal : legacy.operandsOk .equality left right = false ↔ left = right :=
      bne_eq_false_iff_eq
    rw [hequal, OpCategory.EqualNonScalars, ← Bool.not_eq_true, Ty.isScalar_iff]
    change _ ↔ (left = right ∧ _) ∨ _
    rw [and_iff_right rfl, ← and_or_left, and_iff_left (Classical.em _)]
  | _ =>
    simp [operandsOk, OpCategory.Reversed, OpCategory.EqualNonScalars, OpCategory.Valid,
      ← Bool.not_eq_true, Ty.isInt_iff, Ty.isBoolean_iff]

end RuleSet

theorem isOperator_sparesReferences : SparesReferences Defect.isOperator := by
  intro defect h
  cases defect with
  | typeMismatch rule left right =>
    cases rule with
    | operator category => cases h
    | _ => rfl
  | _ => rfl

namespace Operation

variable (a : Analyzer) (o : Operation)

def leftType : Ty := ((typeOf o.left).run a).1

def rightType : Ty := ((typeOf o.right).run a).1

def mismatch : Diagnostic :=
  .ofSpan (.typeMismatch (.operator o.op.category) o.left.text o.right.text) o.span

def reported : List Diagnostic :=
  (appended (typeOf o.expr) a).drop
    (appended (typeOf o.left) a ++ appended (typeOf o.right) a).length

/-- What the legacy rules are to report about an operation. -/
def reversedReport : List Diagnostic :=
  if o.op.category.Reversed (o.leftType a) (o.rightType a) then [o.mismatch] else []

theorem reported_eq_findings : o.reported a = o.findings a.view := by
  rw [reported, (typeOf_framed o.expr a).2, (typeOf_framed o.left a).2, (typeOf_framed o.right a).2,
    o.findings_expr, List.drop_left]

theorem reported_legacy (h : a.rules = .legacy) :
    o.reported a =
      if o.op.category.EqualNonScalars (o.leftType a) (o.rightType a) then [o.mismatch]
      else o.reversedReport a := by
  have hreported : o.reported a =
      breach (RuleSet.legacy.operandsOk o.op.category (o.leftType a) (o.rightType a))
        (.typeMismatch (.operator o.op.category) o.left.text o.right.text) o.span := by
    rw [reported_eq_findings, leftType, rightType, typeOf_run, typeOf_run, ← h]
    rfl
  have hiff := RuleSet.legacy_operandsOk_iff o.op.category (o.leftType a) (o.rightType a)
  rw [hreported, reversedReport]
  cases hok : RuleSet.legacy.operandsOk o.op.category (o.leftType a) (o.rightType a) with
  | false =>
    by_cases hequal : o.op.category.EqualNonScalars (o.leftType a) (o.rightType a)
    · rw [if_pos hequal]
      rfl
    · rw [if_neg hequal, if_pos ((hiff.1 hok).resolve_right hequal)]
      rfl
  | true =>
    obtain ⟨hreversed, hequal⟩ := not_or.1 (mt hiff.2 (by simp [hok]))
    rw [if_neg hequal, if_neg hreversed]
    rfl

theorem reported_eq_reversedReport_iff (h : a.rules = .legacy) :
    o.reported a = o.reversedReport a ↔
      ¬o.op.category.EqualNonScalars (o.leftType a) (o.rightType a) := by
  rw [o.reported_legacy a h]
  by_cases hequal : o.op.category.EqualNonScalars (o.leftType a) (o.rightType a)
  · simp [hequal, reversedReport, hequal.not_reversed]
  · simp [hequal]

end Operation

/-- Under the legacy rules the operations in an expression are reported one behind the other: those
with operands for which the operator is made, or with others in the case of a product, and besides
them all comparisons of two values of one type that is no scalar. Operands with known types are what
an operator is made for exactly if the standard rules accept them. -/
theorem legacy_operators {a : Analyzer} (h : a.rules = .legacy) (e : Expr) :
    (appended (typeOf e) a).filter (fun d => d.defect.isOperator) =
      e.operations.flatMap (Operation.reported a) ∧
    ∀ o ∈ e.operations,
      (o.reported a =
        if o.op.category.EqualNonScalars (o.leftType a) (o.rightType a) then [o.mismatch]
        else o.reversedReport a) ∧
      (o.reported a = o.reversedReport a ↔
        ¬o.op.category.EqualNonScalars (o.leftType a) (o.rightType a)) ∧
      (o.leftType a ≠ .unknown → o.rightType a ≠ .unknown →
        (RuleSet.standard.operandsOk o.op.category (o.leftType a) (o.rightType a) = true ↔
          o.op.category.Valid (o.leftType a) (o.rightType a))) := by
  refine ⟨?_, fun o _ => ⟨o.reported_legacy a h, o.reported_eq_reversedReport_iff a h,
    RuleSet.standard_operandsOk_iff⟩⟩
  rw [(typeOf_framed e a).2, e.filter_findings a.view isOperator_sparesReferences]
  refine congrArg (e.operations.flatMap ·) (funext fun o => ?_)
  rw [o.reported_eq_findings]
  exact filter_breach rfl

theorem legacy_operators_sum :
    let product : Expr := .binary .mul (.int "2" .zero) (.bool true .zero) .zero
    let sum : Expr := .binary .add (.int "1" .zero) product .zero
    let a : Analyzer := .new .legacy
    a.rules = .legacy ∧
    (appended (typeOf sum) a).filter (fun d => d.defect.isOperator) =
      sum.operations.flatMap (Operation.reported a) ∧
    (sum.operations.flatMap (Operation.reported a)).map Diagnostic.defect =
      [.typeMismatch (.operator .strongArith) "2" "true",
        .typeMismatch (.operator .weakArith) "1" "2*true"] :=
  ⟨rfl, (legacy_operators rfl _).1, by decide⟩

def arrayEquality : Operation :=
  let array (start : Nat) : Expr :=
    .location (.scalar "a" ⟨start, start + 1, 1⟩) ⟨start, start + 1, 1⟩
  ⟨.eq, array 32, array 35, ⟨32, 36, 1⟩⟩

def arrayEqualityClass : Program where
  name := "P"
  fields := [⟨.int, [⟨"a", some "3", ⟨12, 16, 1⟩⟩], ⟨8, 17, 1⟩⟩]
  methods := [
    ⟨"main", none, [],
      .mk [] [.ifThen arrayEquality.expr (.mk [] [] ⟨37, 39, 1⟩) ⟨29, 39, 1⟩] ⟨28, 40, 1⟩,
      ⟨17, 40, 1⟩⟩]
  span := ⟨0, 41, 1⟩
  endLine := 1

/-- The standard rules refuse to compare arrays, and yet the legacy rules do so as well. -/
theorem arrayEquality_refused :
    let a : Analyzer := ((arrayEqualityClass.fields.forM visitField).run (.new .legacy)).2
    arrayEquality.leftType a = .array .int 3 ∧ arrayEquality.rightType a = .array .int 3 ∧
    arrayEquality.reversedReport a = [] ∧
    arrayEquality.reported a = [arrayEquality.mismatch] ∧
    analyze .standard arrayEqualityClass = [arrayEquality.mismatch] ∧
    analyze .legacy arrayEqualityClass = [arrayEquality.mismatch] := by
  decide

end Decaf
