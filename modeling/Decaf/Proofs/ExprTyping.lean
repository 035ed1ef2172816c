import Mathlib.Data.Option.Defs
import Decaf.Proofs.Findings
import Decaf.Proofs.Typing

namespace Decaf.Typing

def known? : Ty → Option ExprType
  | .int => some (.scalar .int)
  | .boolean => some (.scalar .boolean)
  | .array element _ => some (.array element)
  | .void => some .nothing
  | .unknown => none

@[simp]
theorem known?_ofScalar (type : ScalarType) : known? (.ofScalar type) = some (.scalar type) := by
  cases type <;> rfl

@[simp]
theorem known?_ofReturn (result : Option ScalarType) :
    known? (.ofReturn result) = some (.ofResult result) := by
  cases result with
  | none => rfl
  | some type => exact known?_ofScalar type

theorem known?_eq_scalar_iff {t : Ty} {type : ScalarType} :
    known? t = some (.scalar type) ↔ t = .ofScalar type := by
  cases t <;> cases type <;> simp [known?, Ty.ofScalar]

theorem known?_eq_ofResult_iff {t : Ty} {result : Option ScalarType} :
    known? t = some (.ofResult result) ↔ t = .ofReturn result := by
  cases result with
  | none => cases t <;> simp [known?, ExprType.ofResult, Ty.ofReturn]
  | some type => exact known?_eq_scalar_iff

theorem isUnknown_eq_false {t : Ty} {type : ExprType} (h : known? t = some type) :
    t.isUnknown = false := by
  cases t with
  | unknown => cases h
  | int | boolean | array element length | void => rfl

/-- A declared name and what it stands for. No declared name has the unknown type. -/
inductive Stands : Symbol → Meaning → Prop
  | scalar {s : Symbol} {type : ScalarType} :
      s.isMethod = false → s.type = .ofScalar type → Stands s (.scalar type)
  | array {s : Symbol} {element : ScalarType} {length : Nat} :
      s.isMethod = false → s.type = .array element length → Stands s (.array element)
  | method {s : Symbol} {params : List ScalarType} {result : Option ScalarType} :
      s.kind = .method params → s.type = .ofReturn result → Stands s (.method params result)

/-- The same names are visible with the same meanings, and the standard rules hold. -/
structure Sees (v : View) (env : Env) : Prop where
  standard : v.rules = .standard
  names : ∀ name, Option.Rel Stands (v.scopes.resolve name) (env.meaning? name)

theorem breach_eq_nil_iff {condition : Bool} {defect : Defect} {span : Span} :
    breach condition defect span = [] ↔ condition = true := by
  cases condition <;> simp [breach]

theorem signature_iff {op : BinaryOp} {operand result : ScalarType} :
    Signature op operand result ↔
      .ofScalar result = op.category.resultType ∧
      match op.category with
      | .strongArith | .weakArith | .relational => operand = .int
      | .conditional => operand = .boolean
      | .equality => True := by
  constructor
  · intro h
    cases h <;> exact ⟨rfl, by trivial⟩
  · rintro ⟨hr, ho⟩
    cases op <;> cases result <;> cases hr <;> cases ho <;> constructor

/-- The test of operand types accepts known types exactly by the signature of the operator. -/
theorem operandsOk_iff {op : BinaryOp} {left right : Ty} {l r : ExprType} {result : ScalarType}
    (hl : known? left = some l) (hr : known? right = some r)
    (hresult : op.category.resultType = .ofScalar result) :
    RuleSet.standard.operandsOk op.category left right = true ↔
      ∃ operand, Signature op operand result ∧ l = .scalar operand ∧ r = .scalar operand := by
  simp only [signature_iff, hresult, true_and]
  cases op.category <;> cases left <;> cases hl <;> cases right <;> cases hr <;>
    simp [RuleSet.operandsOk, Ty.isUnknown, Ty.isInt, Ty.isBoolean, Ty.isScalar]

theorem resultType_eq_ofScalar (op : BinaryOp) :
    ∃ result, op.category.resultType = .ofScalar result := by
  cases op.category with
  | strongArith | weakArith => exact ⟨.int, rfl⟩
  | relational | conditional | equality => exact ⟨.boolean, rfl⟩

/-- A part has nothing wrong with it exactly when it is well typed; its type is then known, and is
the one the rules give. -/
structure Agrees (typed : ExprType → Prop) (found : List Diagnostic) (type : Ty) : Prop where
  iff : ∀ t, typed t ↔ found = [] ∧ known? type = some t
  known : found = [] → ∃ t, known? type = some t

theorem Agrees.eq_nil_iff {typed : ExprType → Prop} {found : List Diagnostic} {type : Ty}
    (h : Agrees typed found type) : found = [] ↔ ∃ t, typed t := by
  constructor
  · intro hclean
    obtain ⟨t, ht⟩ := h.known hclean
    exact ⟨t, (h.iff t).mpr ⟨hclean, ht⟩⟩
  · rintro ⟨t, ht⟩
    exact ((h.iff t).mp ht).1

theorem Agrees.of_clean {typed : ExprType → Prop} {found : List Diagnostic} {type : Ty}
    {t : ExprType} (htype : known? type = some t) (htyped : ∀ u, typed u → u = t)
    (h : typed t ↔ found = []) : Agrees typed found type where
  iff u := by
    constructor
    · intro hu
      obtain rfl := htyped u hu
      exact ⟨h.mp hu, htype⟩
    · rintro ⟨hclean, hu⟩
      obtain rfl : t = u := Option.some.inj (htype.symm.trans hu)
      exact h.mpr hclean
  known _ := ⟨t, htype⟩

theorem Agrees.of_wrong {typed : ExprType → Prop} {found : List Diagnostic} {type : Ty}
    (htyped : ∀ t, ¬ typed t) (h : found ≠ []) : Agrees typed found type where
  iff t := ⟨fun ht => absurd ht (htyped t), fun ht => absurd ht.1 h⟩
  known hclean := absurd hclean h

theorem Agrees.wanted_iff {typed : ExprType → Prop} {found : List Diagnostic} {type : Ty}
    {ok : Ty → Bool} {want : ScalarType} (h : Agrees typed found type)
    (hok : ∀ t, ok t = true ↔ t = .ofScalar want) :
    (found = [] ∧ (ok type || type.isUnknown) = true) ↔ typed (.scalar want) := by
  rw [h.iff, known?_eq_scalar_iff]
  constructor
  · rintro ⟨hclean, htest⟩
    obtain ⟨t, ht⟩ := h.known hclean
    rw [isUnknown_eq_false ht, Bool.or_false] at htest
    exact ⟨hclean, (hok type).mp htest⟩
  · rintro ⟨hclean, htype⟩
    rw [(hok type).mpr htype]
    exact ⟨hclean, rfl⟩

theorem isInt_iff (t : Ty) : t.isInt = true ↔ t = .ofScalar .int := by
  cases t <;> simp [Ty.isInt, Ty.ofScalar]

theorem isBoolean_iff (t : Ty) : t.isBoolean = true ↔ t = .ofScalar .boolean := by
  cases t <;> simp [Ty.isBoolean, Ty.ofScalar]

section

variable {v : View} {env : Env}

theorem Sees.cases (h : Sees v env) (name : String) :
    (v.scopes.resolve name = none ∧ env.meaning? name = none) ∨
      ∃ s m, v.scopes.resolve name = some s ∧ env.meaning? name = some m ∧ Stands s m := by
  have hn := h.names name
  generalize v.scopes.resolve name = found at hn
  generalize env.meaning? name = meaning at hn
  cases hn with
  | none => exact .inl ⟨rfl, rfl⟩
  | some hs => exact .inr ⟨_, _, rfl, rfl, hs⟩

theorem nameFindings_eq_nil_iff {name : String} {target : Bool} {span : Span} :
    v.nameFindings name target span = [] ↔ (v.variableNamed? name).isSome := by
  unfold View.nameFindings View.variableNamed?
  cases v.scopes.resolve name with
  | none => simp
  | some s => cases hm : s.isMethod <;> simp [breach, hm, Option.filter]

/-- A name stands for a scalar variable, for an array, or for no variable at all. -/
theorem Sees.variable_cases (h : Sees v env) (name : String) :
    (v.variableNamed? name = none ∧ (∀ t, env.meaning? name ≠ some (.scalar t)) ∧
      ∀ e, env.meaning? name ≠ some (.array e)) ∨
    (∃ s t, v.variableNamed? name = some s ∧ env.meaning? name = some (.scalar t) ∧
      s.type = .ofScalar t) ∨
    (∃ s e n, v.variableNamed? name = some s ∧ env.meaning? name = some (.array e) ∧
      s.type = .array e n) := by
  rcases h.cases name with ⟨hs, hm⟩ | ⟨s, m, hs, hm, hst⟩
  · exact .inl ⟨by simp [View.variableNamed?, hs], by simp [hm], by simp [hm]⟩
  · cases hst with
    | scalar hv ht => exact .inr (.inl ⟨s, _, by simp [View.variableNamed?, hs, hv], hm, ht⟩)
    | array hv ht => exact .inr (.inr ⟨s, _, _, by simp [View.variableNamed?, hs, hv], hm, ht⟩)
    | method hk ht =>
      refine .inl ⟨?_, by simp [hm], by simp [hm]⟩
      simp [View.variableNamed?, hs, Symbol.isMethod, hk]

theorem placeHasType_scalar_iff {name : String} {span : Span} {t : ExprType} :
    PlaceHasType env (.scalar name span) t ↔
      (∃ type, env.meaning? name = some (.scalar type) ∧ t = .scalar type) ∨
      (∃ element, env.meaning? name = some (.array element) ∧ t = .array element) := by
  constructor
  · intro h
    cases h with
    | scalar hm => exact .inl ⟨_, hm, rfl⟩
    | array hm => exact .inr ⟨_, hm, rfl⟩
  · rintro (⟨type, hm, rfl⟩ | ⟨element, hm, rfl⟩)
    · exact .scalar hm
    · exact .array hm

theorem placeHasType_indexed_iff {name : String} {index : Expr} {span : Span} {t : ExprType} :
    PlaceHasType env (.indexed name index span) t ↔
      ∃ element, env.meaning? name = some (.array element) ∧
        HasType env index (.scalar .int) ∧ t = .scalar element := by
  constructor
  · intro h
    cases h with
    | element hm hi => exact ⟨_, hm, hi, rfl⟩
  · rintro ⟨element, hm, hi, rfl⟩
    exact .element hm hi

theorem callHasType_method_iff {name : String} {args : List Expr} {span : Span} {t : ExprType} :
    CallHasType env (.method name args span) t ↔
      ∃ params result, env.meaning? name = some (.method params result) ∧
        ArgsFit env args params ∧ t = .ofResult result := by
  constructor
  · intro h
    cases h with
    | method hm ha => exact ⟨_, _, hm, ha, rfl⟩
  · rintro ⟨params, result, hm, ha, rfl⟩
    exact .method hm ha

theorem scalar_agrees (h : Sees v env) (name : String) (span : Span) (line : Nat) (target : Bool) :
    Agrees (PlaceHasType env (.scalar name span))
      ((Location.scalar name span).findings v line target)
      ((Location.scalar name span).typeIn v) := by
  have hclean : (Location.scalar name span).findings v line target = [] ↔
      (v.variableNamed? name).isSome := nameFindings_eq_nil_iff
  rcases h.variable_cases name with ⟨hv, hs, ha⟩ | ⟨s, t, hv, hm, ht⟩ | ⟨s, e, n, hv, hm, ht⟩
  · refine Agrees.of_wrong ?_ (by simp [hclean, hv])
    intro t hty
    rcases placeHasType_scalar_iff.mp hty with ⟨type, hm, -⟩ | ⟨element, hm, -⟩
    · exact hs type hm
    · exact ha element hm
  · refine Agrees.of_clean (t := .scalar t) (by simp [Location.typeIn, hv, ht]) ?_ ?_
    · intro u hu
      simpa [placeHasType_scalar_iff, hm, eq_comm] using hu
    · exact ⟨fun _ => by simp [hclean, hv], fun _ => .scalar hm⟩
  · refine Agrees.of_clean (t := .array e) (by simp [Location.typeIn, hv, ht, known?]) ?_ ?_
    · intro u hu
      simpa [placeHasType_scalar_iff, hm, eq_comm] using hu
    · exact ⟨fun _ => by simp [hclean, hv], fun _ => .array hm⟩

theorem indexed_agrees (h : Sees v env) (name : String) (index : Expr) (span : Span) (line : Nat)
    (target : Bool) (hi : Agrees (HasType env index) (index.findings v) (index.typeIn v)) :
    Agrees (PlaceHasType env (.indexed name index span))
      ((Location.indexed name index span).findings v line target)
      ((Location.indexed name index span).typeIn v) := by
  rcases h.variable_cases name with ⟨hv, hs, ha⟩ | ⟨s, t, hv, hm, ht⟩ | ⟨s, e, n, hv, hm, ht⟩
  · refine Agrees.of_wrong ?_ ?_
    · intro t hty
      obtain ⟨element, hm, -⟩ := placeHasType_indexed_iff.mp hty
      exact ha element hm
    · simp [Location.findings, nameFindings_eq_nil_iff, hv]
  · refine Agrees.of_wrong ?_ ?_
    · intro u hty
      obtain ⟨element, hm', -⟩ := placeHasType_indexed_iff.mp hty
      rw [hm] at hm'
      cases hm'
    · cases t <;> simp [Location.findings, hv, ht, Ty.ofScalar, Ty.element?]
  · refine Agrees.of_clean (t := .scalar e) ?_ ?_ ?_
    · simp [Location.typeIn, hv, ht, Ty.element?]
    · intro u hu
      obtain ⟨element, hm', -, rfl⟩ := placeHasType_indexed_iff.mp hu
      rw [hm] at hm'
      cases hm'
      rfl
    · have hname : v.nameFindings name target (span.onLine line) = [] :=
        nameFindings_eq_nil_iff.mpr (by simp [hv])
      have hlist : (Location.indexed name index span).findings v line target = [] ↔
          index.findings v = [] ∧
            ((index.typeIn v).isInt || (index.typeIn v).isUnknown) = true := by
        simp only [Location.findings, hname, hv, ht, Ty.element?, Option.isSome_some, ↓reduceIte,
          List.append_nil, List.append_eq_nil_iff, breach_eq_nil_iff]
      rw [hlist, hi.wanted_iff isInt_iff, placeHasType_indexed_iff]
      constructor
      · rintro ⟨-, -, hint, -⟩
        exact hint
      · intro hint
        exact ⟨e, hm, hint, rfl⟩

structure ArgsAgree (v : View) (env : Env) (args : List Expr) : Prop where
  fit : ∀ params, ArgsFit env args params ↔
    Expr.listFindings v args = [] ∧ args.map (Expr.typeIn v) = params.map Ty.ofScalar
  known : Expr.listFindings v args = [] → Ty.unknown ∉ args.map (Expr.typeIn v)

/-- The test of arguments of known types accepts them exactly if they are those of the
parameters. -/
theorem argumentFindings_eq_nil_iff {method : String} {position : Nat} {params : List ScalarType}
    {args : List Expr} {found : List Ty} (hargs : args.length = found.length)
    (hparams : params.length = found.length) (hknown : Ty.unknown ∉ found) :
    View.argumentFindings method position params (args.zip found) = [] ↔
      found = params.map Ty.ofScalar := by
  induction params generalizing position args found with
  | nil =>
    obtain rfl : found = [] := List.length_eq_zero_iff.mp hparams.symm
    simp [View.argumentFindings]
  | cons param params ih =>
    cases found with
    | nil => simp at hparams
    | cons t found =>
      cases args with
      | nil => simp at hargs
      | cons arg args =>
        simp only [List.length_cons, Nat.add_right_cancel_iff] at hargs hparams
        simp only [List.mem_cons, not_or] at hknown
        have hu : t.isUnknown = false := by
          cases t <;> simp_all [Ty.isUnknown]
        simp only [List.zip_cons_cons, View.argumentFindings, List.append_eq_nil_iff,
          breach_eq_nil_iff, hu, Bool.or_false, beq_iff_eq, List.map_cons, List.cons.injEq,
          ih hargs hparams hknown.2]

theorem method_agrees (h : Sees v env) (name : String) (args : List Expr) (span : Span)
    (ha : ArgsAgree v env args) :
    Agrees (CallHasType env (.method name args span)) ((Call.method name args span).findings v)
      ((Call.method name args span).typeIn v) := by
  rcases h.cases name with ⟨hs, hm⟩ | ⟨s, m, hs, hm, hst⟩
  · refine Agrees.of_wrong ?_ (by simp [Call.findings, View.callFindings, hs])
    intro t hty
    obtain ⟨params, result, hm', -⟩ := callHasType_method_iff.mp hty
    rw [hm] at hm'
    cases hm'
  · cases hst with
    | scalar hv ht | array hv ht =>
      refine Agrees.of_wrong ?_ ?_
      · intro t hty
        obtain ⟨params, result, hm', -⟩ := callHasType_method_iff.mp hty
        rw [hm] at hm'
        cases hm'
      · cases hk : s.kind with
        | method params => simp [Symbol.isMethod, hk] at hv
        | field | localVar | parameter => simp [Call.findings, View.callFindings, hs, hk]
    | @method params result hk ht =>
      refine Agrees.of_clean (t := .ofResult result) ?_ ?_ ?_
      · simp [Call.typeIn, View.resultOf, hs, Symbol.isMethod, hk, ht]
      · intro u hu
        obtain ⟨params', result', hm', -, rfl⟩ := callHasType_method_iff.mp hu
        rw [hm] at hm'
        cases hm'
        rfl
      · have hfit : CallHasType env (.method name args span) (.ofResult result) ↔
            ArgsFit env args params := by
          rw [callHasType_method_iff]
          constructor
          · rintro ⟨params', result', hm', hargs, -⟩
            rw [hm] at hm'
            cases hm'
            exact hargs
          · intro hargs
            exact ⟨params, result, hm, hargs, rfl⟩
        rw [hfit, ha.fit]
        simp only [Call.findings, View.callFindings, hs, hk, List.append_eq_nil_iff]
        refine and_congr_right fun hclean => ?_
        by_cases hlen : params.length = (args.map (Expr.typeIn v)).length
        · rw [if_pos hlen, argumentFindings_eq_nil_iff (by simp) hlen (ha.known hclean)]
        · rw [if_neg hlen]
          refine iff_of_false (fun heq => hlen ?_) (by simp)
          simp [heq]

theorem unary_agrees (op : UnaryOp) (operand : Expr) (span : Span)
    (ho : Agrees (HasType env operand) (operand.findings v) (operand.typeIn v)) :
    Agrees (HasType env (.unary op operand span)) ((Expr.unary op operand span).findings v)
      ((Expr.unary op operand span).typeIn v) := by
  have hclean : (Expr.unary op operand span).findings v = [] ↔ ∃ t, HasType env operand t := by
    rw [Expr.findings, ho.eq_nil_iff]
  cases op with
  | neg =>
    refine Agrees.of_clean (t := .scalar .int) rfl (fun u hu => by cases hu; rfl) ?_
    rw [hclean]
    constructor
    · intro hty
      cases hty with
      | neg ht => exact ⟨_, ht⟩
    · rintro ⟨t, ht⟩
      exact .neg ht
  | not =>
    refine Agrees.of_clean (t := .scalar .boolean) rfl (fun u hu => by cases hu; rfl) ?_
    rw [hclean]
    constructor
    · intro hty
      cases hty with
      | not ht => exact ⟨_, ht⟩
    · rintro ⟨t, ht⟩
      exact .not ht

theorem binary_agrees (h : Sees v env) (op : BinaryOp) (left right : Expr) (span : Span)
    (hl : Agrees (HasType env left) (left.findings v) (left.typeIn v))
    (hr : Agrees (HasType env right) (right.findings v) (right.typeIn v)) :
    Agrees (HasType env (.binary op left right span))
      ((Expr.binary op left right span).findings v)
      ((Expr.binary op left right span).typeIn v) := by
  obtain ⟨result, hresult⟩ := resultType_eq_ofScalar op
  refine Agrees.of_clean (t := .scalar result) ?_ ?_ ?_
  · rw [Expr.typeIn, hresult, known?_ofScalar]
  · intro u hu
    cases hu with
    | binary hs =>
      have hsame := (signature_iff.mp hs).1.trans hresult
      rw [← known?_eq_scalar_iff, known?_ofScalar] at hsame
      exact Option.some.inj hsame
  · simp only [Expr.findings, List.append_eq_nil_iff, breach_eq_nil_iff, h.standard]
    constructor
    · intro hty
      cases hty with
      | binary hs htl htr =>
        obtain ⟨hcl, hkl⟩ := (hl.iff _).mp htl
        obtain ⟨hcr, hkr⟩ := (hr.iff _).mp htr
        exact ⟨⟨hcl, hcr⟩, (operandsOk_iff hkl hkr hresult).mpr ⟨_, hs, rfl, rfl⟩⟩
    · rintro ⟨⟨hcl, hcr⟩, hok⟩
      obtain ⟨l, hkl⟩ := hl.known hcl
      obtain ⟨r, hkr⟩ := hr.known hcr
      obtain ⟨operand, hs, rfl, rfl⟩ := (operandsOk_iff hkl hkr hresult).mp hok
      exact .binary hs ((hl.iff _).mpr ⟨hcl, hkl⟩) ((hr.iff _).mpr ⟨hcr, hkr⟩)

theorem Agrees.congr {p q : ExprType → Prop} {found : List Diagnostic} {type : Ty}
    (h : Agrees p found type) (hpq : ∀ t, q t ↔ p t) : Agrees q found type where
  iff t := (hpq t).trans (h.iff t)
  known := h.known

mutual

theorem expr_agrees (h : Sees v env) (e : Expr) :
    Agrees (HasType env e) (e.findings v) (e.typeIn v) := by
  cases e with
  | location place span =>
    refine (place_agrees h place span.line false).congr fun t => ⟨?_, .location⟩
    rintro ⟨⟩
    assumption
  | call called span =>
    refine (call_agrees h called).congr fun t => ⟨?_, .call⟩
    rintro ⟨⟩
    assumption
  | int text span =>
    exact Agrees.of_clean (t := .scalar .int) rfl (fun u hu => by cases hu; rfl)
      ⟨fun _ => rfl, fun _ => .int⟩
  | char text span =>
    refine Agrees.of_clean (t := .scalar .int) ?_ (fun u hu => by cases hu; rfl)
      ⟨fun _ => rfl, fun _ => .char⟩
    rw [Expr.typeIn, h.standard]
    rfl
  | bool value span =>
    exact Agrees.of_clean (t := .scalar .boolean) rfl (fun u hu => by cases hu; rfl)
      ⟨fun _ => rfl, fun _ => .bool⟩
  | unary op operand span => exact unary_agrees op operand span (expr_agrees h operand)
  | binary op left right span =>
    exact binary_agrees h op left right span (expr_agrees h left) (expr_agrees h right)
  | paren inner span =>
    refine (expr_agrees h inner).congr fun t => ⟨?_, .paren⟩
    rintro ⟨⟩
    assumption

theorem place_agrees (h : Sees v env) (place : Location) (line : Nat) (target : Bool) :
    Agrees (PlaceHasType env place) (place.findings v line target) (place.typeIn v) := by
  cases place with
  | scalar name span => exact scalar_agrees h name span line target
  | indexed name index span =>
    exact indexed_agrees h name index span line target (expr_agrees h index)

theorem call_agrees (h : Sees v env) (called : Call) :
    Agrees (CallHasType env called) (called.findings v) (called.typeIn v) := by
  cases called with
  | method name args span => exact method_agrees h name args span (args_agree h args)
  | callout name args span =>
    refine Agrees.of_clean (t := .scalar .int) rfl (fun u hu => by cases hu; rfl) ?_
    refine Iff.trans ⟨?_, .callout⟩ (argsTyped_iff h args)
    rintro ⟨⟩
    assumption

theorem args_agree (h : Sees v env) (args : List Expr) : ArgsAgree v env args := by
  cases args with
  | nil =>
    refine ⟨fun params => ⟨?_, ?_⟩, by simp⟩
    · rintro ⟨⟩
      exact ⟨rfl, rfl⟩
    · rintro ⟨-, hp⟩
      obtain rfl : params = [] := by simpa using hp.symm
      exact .nil
  | cons arg args =>
    have harg := expr_agrees h arg
    have hargs := args_agree h args
    refine ⟨fun params => ⟨?_, ?_⟩, ?_⟩
    · intro hall
      cases hall with
      | cons ht hfit =>
        obtain ⟨hc, hk⟩ := (harg.iff _).mp ht
        obtain ⟨hcs, hks⟩ := (hargs.fit _).mp hfit
        rw [known?_eq_scalar_iff] at hk
        simp [Expr.listFindings, hc, hcs, hk, hks]
    · rintro ⟨hc, hp⟩
      obtain ⟨hc, hcs⟩ := List.append_eq_nil_iff.mp hc
      cases params with
      | nil => simp at hp
      | cons param params =>
        simp only [List.map_cons, List.cons.injEq] at hp
        exact .cons ((harg.iff _).mpr ⟨hc, known?_eq_scalar_iff.mpr hp.1⟩)
          ((hargs.fit _).mpr ⟨hcs, hp.2⟩)
    · intro hc hmem
      obtain ⟨hc, hcs⟩ := List.append_eq_nil_iff.mp hc
      rcases List.mem_cons.mp hmem with hu | hmem
      · obtain ⟨t, ht⟩ := harg.known hc
        rw [← hu] at ht
        cases ht
      · exact hargs.known hcs hmem

theorem argsTyped_iff (h : Sees v env) (args : List CalloutArg) :
    ArgsTyped env args ↔ CalloutArg.listFindings v args = [] := by
  match args with
  | [] => exact ⟨fun _ => rfl, fun _ => .nil⟩
  | .expr value :: args =>
    have hvalue := expr_agrees h value
    rw [CalloutArg.listFindings, List.append_eq_nil_iff, hvalue.eq_nil_iff, ← argsTyped_iff h args]
    constructor
    · intro hall
      cases hall with
      | expr ht hrest => exact ⟨⟨_, ht⟩, hrest⟩
    · rintro ⟨⟨t, ht⟩, hrest⟩
      exact .expr ht hrest
  | .string text :: args =>
    rw [CalloutArg.listFindings, ← argsTyped_iff h args]
    refine ⟨?_, .string⟩
    rintro ⟨⟩
    assumption

end

end

end Decaf.Typing
