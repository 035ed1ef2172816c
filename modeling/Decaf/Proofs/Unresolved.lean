import Decaf.Proofs.WalkFrame

namespace Decaf

open Analyzer

theorem Ty.ofScalar_ne_unknown (type : ScalarType) : ofScalar type ≠ .unknown := by
  cases type <;> exact nofun

theorem Ty.ofReturn_ne_unknown (result : Option ScalarType) : ofReturn result ≠ .unknown := by
  cases result with
  | none => exact nofun
  | some type => exact ofScalar_ne_unknown type

theorem Ty.element?_ne_unknown (type : Ty) : type.element? ≠ some .unknown := by
  cases type with
  | array element length =>
    intro h
    exact ofScalar_ne_unknown element (Option.some.inj h)
  | _ => exact nofun

namespace Defect

/-- The defect is that the name does not stand for a variable of the wanted form. -/
def BlamesVariable (name : String) : Defect → Prop
  | .undeclaredVariable other _ | .notAVariable other | .notAnArray other => other = name
  | _ => False

/-- The defect is that the name does not stand for a method. -/
def BlamesMethod (name : String) : Defect → Prop
  | .undeclaredMethod other | .notCallable other => other = name
  | _ => False

/-- What the defect says about the way a name is bound is so. -/
def TrueOf (v : View) : Defect → Prop
  | .undeclaredVariable name _ | .undeclaredMethod name => v.scopes.resolve name = none
  | .notAVariable name => ∃ s, v.scopes.resolve name = some s ∧ s.isMethod = true
  | .notCallable name => ∃ s, v.scopes.resolve name = some s ∧ s.isMethod = false
  | .notAnArray name =>
    ∃ s, v.scopes.resolve name = some s ∧ s.isMethod = false ∧ s.type.element? = none
  | _ => True

end Defect

/-- The expression inside all parentheses around it. -/
def Expr.stripped : Expr → Expr
  | .paren inner _ => inner.stripped
  | e => e

/-- The diagnostics end with a complaint about the name that the expression is a use of. -/
def Expr.Blamed (e : Expr) (found : List Diagnostic) : Prop :=
  match e.stripped with
  | .location place _ => ∃ d, found.getLast? = some d ∧ d.defect.BlamesVariable place.name
  | .call (.method name _ _) _ => ∃ d, found.getLast? = some d ∧ d.defect.BlamesMethod name
  | _ => False

/-- No name that can be seen has the unknown type. -/
def View.Resolved (v : View) : Prop :=
  ∀ name s, v.scopes.resolve name = some s → s.type ≠ .unknown

section Truth

variable (v : View)

def AllTrue (found : List Diagnostic) : Prop := ∀ d ∈ found, d.defect.TrueOf v

variable {v} {xs ys : List Diagnostic}

theorem allTrue_nil : AllTrue v [] := nofun

theorem AllTrue.append (hx : AllTrue v xs) (hy : AllTrue v ys) : AllTrue v (xs ++ ys) :=
  List.forall_mem_append.2 ⟨hx, hy⟩

theorem allTrue_breach {condition : Bool} {defect : Defect} (h : defect.TrueOf v) (span : Span) :
    AllTrue v (breach condition defect span) := by
  intro d hd
  obtain ⟨-, rfl⟩ := mem_breach_iff.1 hd
  exact h

theorem allTrue_nameFindings (name : String) (target : Bool) (span : Span) :
    AllTrue v (v.nameFindings name target span) := by
  intro d hd
  rcases View.mem_nameFindings hd with ⟨hnone, rfl⟩ | ⟨s, hs, hmethod, rfl⟩
  · exact hnone
  · exact ⟨s, hs, hmethod⟩

theorem allTrue_callFindings (name : String) (args : List Expr) (found : List Ty) (span : Span) :
    AllTrue v (v.callFindings name args found span) := by
  intro d hd
  rcases View.mem_callFindings hd with ⟨hnone, rfl⟩ |
    ⟨s, hs, ⟨hmethod, rfl⟩ | ⟨_, rfl⟩ | ⟨_, _, _, _, _, rfl⟩⟩
  · exact hnone
  · exact ⟨s, hs, hmethod⟩
  · trivial
  · trivial

mutual

theorem Expr.allTrue_findings : (e : Expr) → AllTrue v (e.findings v)
  | .location place span => place.allTrue_findings span.line false
  | .call called _ => called.allTrue_findings
  | .int _ _ | .char _ _ | .bool _ _ => allTrue_nil
  | .unary _ operand _ => operand.allTrue_findings
  | .binary _ left right _ =>
    (left.allTrue_findings.append right.allTrue_findings).append
      (allTrue_breach (by trivial) _)
  | .paren inner _ => inner.allTrue_findings

theorem Location.allTrue_findings : (place : Location) → (line : Nat) → (target : Bool) →
    AllTrue v (place.findings v line target)
  | .scalar name _, _, target => allTrue_nameFindings name target _
  | .indexed name index _, _, target => by
    refine (index.allTrue_findings.append (allTrue_nameFindings name target _)).append ?_
    split
    · exact allTrue_nil
    · next s hs =>
      obtain ⟨hresolve, hmethod⟩ := View.variableNamed?_eq_some hs
      split
      · exact allTrue_breach (by trivial) _
      · next helement =>
        refine List.forall_mem_singleton.2 ?_
        exact ⟨s, hresolve, hmethod, Option.not_isSome_iff_eq_none.1 helement⟩

theorem Call.allTrue_findings : (called : Call) → AllTrue v (called.findings v)
  | .method name args span =>
    (Expr.allTrue_listFindings args).append (allTrue_callFindings name args _ span)
  | .callout _ args _ => CalloutArg.allTrue_listFindings args

theorem Expr.allTrue_listFindings : (args : List Expr) → AllTrue v (Expr.listFindings v args)
  | [] => allTrue_nil
  | arg :: args => arg.allTrue_findings.append (Expr.allTrue_listFindings args)

theorem CalloutArg.allTrue_listFindings : (args : List CalloutArg) →
    AllTrue v (CalloutArg.listFindings v args)
  | [] => allTrue_nil
  | .expr value :: args => value.allTrue_findings.append (CalloutArg.allTrue_listFindings args)
  | .string _ :: args => CalloutArg.allTrue_listFindings args

end

end Truth

section Blame

variable {v : View} {name : String}

theorem View.nameFindings_of_none (h : v.variableNamed? name = none) (target : Bool)
    (span : Span) :
    ∃ d, v.nameFindings name target span = [d] ∧ d.defect.BlamesVariable name := by
  cases hs : v.scopes.resolve name with
  | none => exact ⟨.ofSpan (.undeclaredVariable name target) span, by rw [nameFindings, hs], rfl⟩
  | some s =>
    have hmethod : s.isMethod = true := by simpa [variableNamed?, hs, Option.filter] using h
    refine ⟨.ofSpan (.notAVariable name) span, ?_, rfl⟩
    simp [nameFindings, hs, hmethod, breach]

theorem View.nameFindings_of_some {s : Symbol} (h : v.variableNamed? name = some s)
    (target : Bool) (span : Span) : v.nameFindings name target span = [] := by
  obtain ⟨hs, hmethod⟩ := variableNamed?_eq_some h
  simp [nameFindings, hs, hmethod, breach]

theorem Defect.TrueOf.not_blamesVariable {defect : Defect} (h : defect.TrueOf v) {s : Symbol}
    (hs : v.variableNamed? name = some s) (harray : s.type.element?.isSome) :
    ¬ defect.BlamesVariable name := by
  obtain ⟨hresolve, hmethod⟩ := View.variableNamed?_eq_some hs
  intro hblames
  cases defect with
  | undeclaredVariable other target =>
    cases hblames
    exact nomatch hresolve.symm.trans h
  | notAVariable other =>
    cases hblames
    obtain ⟨t, ht, htmethod⟩ := h
    cases hresolve.symm.trans ht
    exact nomatch hmethod.symm.trans htmethod
  | notAnArray other =>
    cases hblames
    obtain ⟨t, ht, -, hscalar⟩ := h
    cases hresolve.symm.trans ht
    rw [hscalar] at harray
    exact nomatch harray
  | _ => exact hblames

theorem Defect.TrueOf.not_blamesMethod {defect : Defect} (h : defect.TrueOf v) {s : Symbol}
    (hs : v.scopes.resolve name = some s) (hmethod : s.isMethod = true) :
    ¬ defect.BlamesMethod name := by
  intro hblames
  cases defect with
  | undeclaredMethod other =>
    cases hblames
    exact nomatch hs.symm.trans h
  | notCallable other =>
    cases hblames
    obtain ⟨t, ht, htmethod⟩ := h
    cases hs.symm.trans ht
    exact nomatch hmethod.symm.trans htmethod
  | _ => exact hblames

theorem getLast?_append_singleton_blames {xs : List Diagnostic} {d : Diagnostic}
    {blames : Defect → Prop} (h : blames d.defect) :
    ∃ e, (xs ++ [d]).getLast? = some e ∧ blames e.defect :=
  ⟨d, List.getLast?_concat, h⟩

theorem Location.typeIn_eq_unknown_iff (hv : v.Resolved) (place : Location) (line : Nat)
    (target : Bool) : place.typeIn v = .unknown ↔
      ∃ d, (place.findings v line target).getLast? = some d ∧
        d.defect.BlamesVariable place.name := by
  cases place with
  | scalar name span =>
    cases h : v.variableNamed? name with
    | none =>
      obtain ⟨d, hd, hblames⟩ := View.nameFindings_of_none h target (span.onLine line)
      refine iff_of_true (by rw [typeIn, h]; rfl) ⟨d, ?_, hblames⟩
      rw [findings, hd]
      rfl
    | some s =>
      have htype : s.type ≠ .unknown := hv name s (View.variableNamed?_eq_some h).1
      refine iff_of_false (by rw [typeIn, h]; exact htype) ?_
      rintro ⟨d, hd, -⟩
      rw [findings, View.nameFindings_of_some h] at hd
      cases hd
  | indexed name index span =>
    cases h : v.variableNamed? name with
    | none =>
      obtain ⟨d, hd, hblames⟩ := View.nameFindings_of_none h target (span.onLine line)
      refine iff_of_true (by rw [typeIn, h]; rfl) ?_
      simp only [findings, hd, h, List.append_nil]
      exact getLast?_append_singleton_blames hblames
    | some s =>
      cases helement : s.type.element? with
      | none =>
        refine iff_of_true (by simp [typeIn, h, helement]) ?_
        simp only [findings, h, helement]
        exact getLast?_append_singleton_blames rfl
      | some element =>
        have htype : element ≠ .unknown := by
          rintro rfl
          exact Ty.element?_ne_unknown _ helement
        refine iff_of_false (by simpa [typeIn, h, helement] using htype) ?_
        rintro ⟨d, hd, hblames⟩
        have htrue := allTrue_findings (.indexed name index span) line target d
          (List.mem_of_getLast? hd)
        exact htrue.not_blamesVariable h (by rw [helement]; rfl) hblames

theorem Call.typeIn_eq_unknown_iff (hv : v.Resolved) (name : String) (args : List Expr)
    (span : Span) : (Call.method name args span).typeIn v = .unknown ↔
      ∃ d, ((Call.method name args span).findings v).getLast? = some d ∧
        d.defect.BlamesMethod name := by
  cases hs : v.scopes.resolve name with
  | none =>
    refine iff_of_true (by rw [typeIn, View.resultOf, hs]) ?_
    rw [findings, View.callFindings, hs]
    exact getLast?_append_singleton_blames rfl
  | some s =>
    cases hmethod : s.isMethod with
    | true =>
      have htype : v.resultOf name = s.type := by simp [View.resultOf, hs, hmethod]
      refine iff_of_false (by rw [typeIn, htype]; exact hv name s hs) ?_
      rintro ⟨d, hd, hblames⟩
      have htrue := allTrue_findings (.method name args span) d (List.mem_of_getLast? hd)
      exact htrue.not_blamesMethod hs hmethod hblames
    | false =>
      refine iff_of_true (by simp [typeIn, View.resultOf, hs, hmethod]) ?_
      have hcall : v.callFindings name args (args.map (Expr.typeIn v)) span =
          [.ofSpan (.notCallable name) span] := by
        cases hk : s.kind with
        | method params => simp [Symbol.isMethod, hk] at hmethod
        | field | localVar | parameter => simp [View.callFindings, hs, hk]
      rw [findings, hcall]
      exact getLast?_append_singleton_blames rfl

/-- An expression has the unknown type exactly if the last thing said about it is that the name it
is a use of cannot be used so. -/
theorem Expr.typeIn_eq_unknown_iff (hv : v.Resolved) :
    (e : Expr) → (e.typeIn v = .unknown ↔ e.Blamed (e.findings v))
  | .location place span => place.typeIn_eq_unknown_iff hv span.line false
  | .call (.method name args span) _ => Call.typeIn_eq_unknown_iff hv name args span
  | .call (.callout _ _ _) _ | .int _ _ | .bool _ _ => iff_of_false nofun id
  | .char _ _ => iff_of_false (by cases h : v.rules <;> simp [typeIn, h, RuleSet.charType]) id
  | .unary op _ _ => iff_of_false (by cases op <;> exact nofun) id
  | .binary op _ _ _ =>
    iff_of_false (by cases h : op.category <;> simp [typeIn, h, OpCategory.resultType]) id
  | .paren inner _ => inner.typeIn_eq_unknown_iff hv

end Blame

end Decaf
