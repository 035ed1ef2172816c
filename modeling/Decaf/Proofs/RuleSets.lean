import Decaf.Proofs.OperandTexts

namespace Decaf

/-- The second list is the first one with further members put in, all of one kind. -/
inductive Enlarged {α : Type} (extra : α → Prop) : List α → List α → Prop
  | nil : Enlarged extra [] []
  | keep {xs ys : List α} (x : α) : Enlarged extra xs ys → Enlarged extra (x :: xs) (x :: ys)
  | more {xs ys : List α} {y : α} : extra y → Enlarged extra xs ys → Enlarged extra xs (y :: ys)

namespace Enlarged

variable {α : Type} {extra : α → Prop} {xs ys xs' ys' : List α}

theorem refl (xs : List α) : Enlarged extra xs xs := by
  induction xs with
  | nil => exact .nil
  | cons x xs ih => exact .keep x ih

theorem append (h : Enlarged extra xs ys) (h' : Enlarged extra xs' ys') :
    Enlarged extra (xs ++ xs') (ys ++ ys') := by
  induction h with
  | nil => exact h'
  | keep x _ ih => exact .keep x ih
  | more hy _ ih => exact .more hy ih

theorem sublist (h : Enlarged extra xs ys) : xs.Sublist ys := by
  induction h with
  | nil => exact .slnil
  | keep x _ ih => exact ih.cons_cons x
  | more _ _ ih => exact ih.cons _

/-- What is not of the kind that is put in is the same in both lists. -/
theorem filter_eq (h : Enlarged extra xs ys) {p : α → Bool} (hp : ∀ x, extra x → p x = false) :
    xs.filter p = ys.filter p := by
  induction h with
  | nil => rfl
  | keep x _ ih => rw [List.filter_cons, List.filter_cons, ih]
  | more hy _ ih => rw [ih, List.filter_cons, hp _ hy, if_neg Bool.false_ne_true]

end Enlarged

namespace Defect

/-- A mismatch at an operator whose test the legacy rules turn around. -/
def isReversed : Defect → Bool
  | .typeMismatch (.operator .strongArith) _ _ => false
  | .typeMismatch (.operator _) _ _ => true
  | _ => false

/-- A mismatch that the legacy rules see more often. -/
def isTightened : Defect → Bool
  | .typeMismatch .assignment _ _ | .typeMismatch (.operator .strongArith) _ _ => true
  | _ => false

end Defect

def upright (ds : List Diagnostic) : List Diagnostic := ds.filter fun d => !d.defect.isReversed

/-- The diagnostics that are about neither operators nor assignments. -/
def unaffected (ds : List Diagnostic) : List Diagnostic :=
  ds.filter fun d => !d.defect.isTightened && !d.defect.isReversed

/-- The second list has what the first one has, but for tests that are turned around and for what
the legacy rules are stricter about. -/
def Agree (xs ys : List Diagnostic) : Prop :=
  Enlarged (fun d => d.defect.isTightened = true) (upright xs) (upright ys)

section Agree

variable {xs ys xs' ys' : List Diagnostic}

theorem Agree.refl (xs : List Diagnostic) : Agree xs xs := Enlarged.refl _

theorem Agree.append (h : Agree xs ys) (h' : Agree xs' ys') : Agree (xs ++ xs') (ys ++ ys') := by
  unfold Agree upright
  rw [List.filter_append, List.filter_append]
  exact Enlarged.append h h'

theorem agree_reversed {defect : Defect} (h : defect.isReversed = true) (ok ok' : Bool)
    (span : Span) : Agree (breach ok defect span) (breach ok' defect span) := by
  have hnone : ∀ ok, upright (breach ok defect span) = [] := by
    intro ok
    cases ok <;> simp [upright, breach, Diagnostic.ofSpan, h]
  unfold Agree
  rw [hnone, hnone]
  exact .nil

theorem agree_tightened {defect : Defect} (htight : defect.isTightened = true)
    (hupright : defect.isReversed = false) {ok ok' : Bool} (h : ok' = true → ok = true)
    (span : Span) : Agree (breach ok defect span) (breach ok' defect span) := by
  cases hok : ok with
  | false =>
    have hok' : ok' = false := by
      rw [← Bool.not_eq_true]
      intro htrue
      rw [h htrue] at hok
      cases hok
    rw [hok']
    exact .refl _
  | true =>
    cases ok' with
    | true => exact .refl _
    | false =>
      have hone : upright (breach false defect span) = [.ofSpan defect span] := by
        simp [upright, breach, Diagnostic.ofSpan, hupright]
      unfold Agree
      rw [hone]
      exact .more htight .nil

end Agree

/-- No character literal stands anywhere in the tree. -/
def Node.CharFree (n : Node) : Prop := ∀ text span, ¬n.Within (.expr (.char text span))

theorem Node.CharFree.child {n c : Node} (h : n.CharFree) (hc : c ∈ n.children) : c.CharFree :=
  fun text span hwithin => h text span (Node.Within.trans (.child .root hc) hwithin)

theorem Node.charFree_of_children {n : Node} (hn : ∀ text span, n ≠ .expr (.char text span))
    (h : ∀ c ∈ n.children, c.CharFree) : n.CharFree := by
  intro text span hwithin
  rcases hwithin.eq_or_child with heq | ⟨c, hc, hc'⟩
  · exact hn text span heq
  · exact h c hc text span hc'

def View.under (v : View) (rules : RuleSet) : View := { v with rules }

theorem Expr.typeIn_under (v : View) (rules : RuleSet) : (e : Expr) → (Node.expr e).CharFree →
    e.typeIn (v.under rules) = e.typeIn v
  | .char text span, h => absurd .root (h text span)
  | .paren inner _, h => inner.typeIn_under v rules (h.child (.head _))
  | .location (.scalar _ _) _, _ | .location (.indexed _ _ _) _, _ => rfl
  | .call (.method _ _ _) _, _ | .call (.callout _ _ _) _, _ => rfl
  | .int _ _, _ | .bool _ _, _ | .unary _ _ _, _ | .binary _ _ _ _, _ => rfl

theorem Location.typeIn_under (v : View) (rules : RuleSet) (place : Location) :
    place.typeIn (v.under rules) = place.typeIn v := by
  cases place <;> rfl

/-- Products take integers only under both sets of rules, but the legacy ones do not let unknown
operands pass. -/
theorem agree_operands (op : BinaryOp) (left right : Ty) (l r : String) (span : Span) :
    Agree
      (breach (RuleSet.standard.operandsOk op.category left right)
        (.typeMismatch (.operator op.category) l r) span)
      (breach (RuleSet.legacy.operandsOk op.category left right)
        (.typeMismatch (.operator op.category) l r) span) := by
  cases op.category with
  | strongArith =>
    refine agree_tightened rfl rfl ?_ span
    intro hints
    have hints : (left.isInt && right.isInt) = true := hints
    simp [RuleSet.operandsOk, hints]
  | weakArith | relational | conditional | equality => exact agree_reversed rfl _ _ span

theorem agree_assignment (op : AssignOp) (target value : Ty) (l r : String) (span : Span) :
    Agree
      (breach (RuleSet.standard.assignmentOk op target value) (.typeMismatch .assignment l r) span)
      (breach (RuleSet.legacy.assignmentOk op target value) (.typeMismatch .assignment l r)
        span) := by
  refine agree_tightened rfl rfl ?_ span
  intro hlegacy
  have hcases : target = .unknown ∨ target = .int ∧ value = .int := by
    cases target <;> cases value <;>
      simp [RuleSet.assignmentOk, Ty.isUnknown, Ty.isInt] at hlegacy ⊢
  rcases hcases with rfl | ⟨rfl, rfl⟩
  · rfl
  · cases op <;> rfl

section Trees

variable (v : View)

mutual

theorem Expr.findings_agree : (e : Expr) → (Node.expr e).CharFree →
    Agree (e.findings (v.under .standard)) (e.findings (v.under .legacy))
  | .location place span, h => place.findings_agree (h.child (.head _)) span.line false
  | .call called _, h => called.findings_agree (h.child (.head _))
  | .int _ _, _ | .char _ _, _ | .bool _ _, _ => .refl []
  | .unary _ operand _, h => operand.findings_agree (h.child (.head _))
  | .binary op left right span, h => by
    have hleft := h.child (c := .expr left) (.head _)
    have hright := h.child (c := .expr right) (.tail _ (.head _))
    rw [Expr.findings, Expr.findings, left.typeIn_under v _ hleft, right.typeIn_under v _ hright,
      left.typeIn_under v _ hleft, right.typeIn_under v _ hright]
    exact ((left.findings_agree hleft).append (right.findings_agree hright)).append
      (agree_operands op _ _ _ _ span)
  | .paren inner _, h => inner.findings_agree (h.child (.head _))

theorem Location.findings_agree : (place : Location) → (Node.location place).CharFree →
    (line : Nat) → (target : Bool) →
    Agree (place.findings (v.under .standard) line target)
      (place.findings (v.under .legacy) line target)
  | .scalar _ _, _, _, _ => .refl _
  | .indexed name index span, h, line, target => by
    have hindex := h.child (c := .expr index) (.head _)
    rw [Location.findings, Location.findings, index.typeIn_under v _ hindex,
      index.typeIn_under v _ hindex]
    exact ((index.findings_agree hindex).append (.refl _)).append (.refl _)

theorem Call.findings_agree : (called : Call) → (Node.call called).CharFree →
    Agree (called.findings (v.under .standard)) (called.findings (v.under .legacy))
  | .method name args span, h => by
    have hargs : ∀ arg ∈ args, (Node.expr arg).CharFree :=
      fun arg harg => h.child (List.mem_map_of_mem harg)
    have htypes : ∀ rules, args.map (Expr.typeIn (v.under rules)) = args.map (Expr.typeIn v) :=
      fun rules => List.map_congr_left fun arg harg => arg.typeIn_under v rules (hargs arg harg)
    rw [Call.findings, Call.findings, htypes, htypes]
    exact (Expr.listFindings_agree args hargs).append (.refl _)
  | .callout name args span, h =>
    CalloutArg.listFindings_agree args fun value hvalue =>
      h.child (List.mem_flatMap.2 ⟨.expr value, hvalue, .head _⟩)

theorem Expr.listFindings_agree : (args : List Expr) →
    (∀ arg ∈ args, (Node.expr arg).CharFree) →
    Agree (Expr.listFindings (v.under .standard) args) (Expr.listFindings (v.under .legacy) args)
  | [], _ => .refl []
  | arg :: args, h => by
    obtain ⟨harg, hargs⟩ := List.forall_mem_cons.1 h
    exact (arg.findings_agree harg).append (Expr.listFindings_agree args hargs)

theorem CalloutArg.listFindings_agree : (args : List CalloutArg) →
    (∀ value, .expr value ∈ args → (Node.expr value).CharFree) →
    Agree (CalloutArg.listFindings (v.under .standard) args)
      (CalloutArg.listFindings (v.under .legacy) args)
  | [], _ => .refl []
  | .expr value :: args, h =>
    (value.findings_agree (h value (.head _))).append
      (CalloutArg.listFindings_agree args fun value hvalue => h value (.tail _ hvalue))
  | .string _ :: args, h =>
    CalloutArg.listFindings_agree args fun value hvalue => h value (.tail _ hvalue)

end

theorem View.wantedFindings_agree {e : Expr} (h : (Node.expr e).CharFree) (ok : Ty → Bool)
    (defect : Ty → Defect) :
    Agree ((v.under .standard).wantedFindings e ok defect)
      ((v.under .legacy).wantedFindings e ok defect) := by
  rw [View.wantedFindings, View.wantedFindings, e.typeIn_under v _ h, e.typeIn_under v _ h]
  exact (e.findings_agree v h).append (.refl _)

theorem View.returnFindings_agree {value : Option Expr}
    (h : ∀ e ∈ value, (Node.expr e).CharFree) (span : Span) :
    Agree ((v.under .standard).returnFindings value span)
      ((v.under .legacy).returnFindings value span) := by
  cases value with
  | none => exact .refl _
  | some e =>
    have he := h e rfl
    have htype : ∀ rules, (v.under rules).returnType (some e) = e.typeIn v :=
      fun rules => e.typeIn_under v rules he
    rw [View.returnFindings, View.returnFindings, htype, htype]
    exact (e.findings_agree v he).append (.refl _)

end Trees

mutual

theorem Stmt.findings_agree (v : View) : (s : Stmt) → (Node.stmt s).CharFree →
    Agree (s.findings (v.under .standard)) (s.findings (v.under .legacy))
  | .assign target op value span, h => by
    have htarget := h.child (c := .location target) (.head _)
    have hvalue := h.child (c := .expr value) (.tail _ (.head _))
    rw [Stmt.findings, Stmt.findings, target.typeIn_under, target.typeIn_under,
      value.typeIn_under v _ hvalue, value.typeIn_under v _ hvalue]
    exact ((target.findings_agree v htarget span.line true).append
      (value.findings_agree v hvalue)).append (agree_assignment op _ _ _ _ span)
  | .call called _, h => called.findings_agree v (h.child (.head _))
  | .ifThen _ body _, h =>
    (v.wantedFindings_agree (h.child (.head _)) _ _).append
      (body.findings_agree v.entering (h.child (.tail _ (.head _))))
  | .ifElse _ body other _, h =>
    ((v.wantedFindings_agree (h.child (.head _)) _ _).append
      (body.findings_agree v.entering (h.child (.tail _ (.head _))))).append
        (other.findings_agree v.entering (h.child (.tail _ (.tail _ (.head _)))))
  | .forLoop _ _ _ body _, h =>
    (((Agree.refl _).append
      (v.wantedFindings_agree (h.child (.tail _ (.head _))) _ _)).append
        (v.wantedFindings_agree (h.child (.tail _ (.tail _ (.head _)))) _ _)).append
          (body.findings_agree v.looping.entering
            (h.child (.tail _ (.tail _ (.tail _ (.head _))))))
  | .returnFrom _ span, h =>
    v.returnFindings_agree
      (fun _ he => h.child (List.mem_map_of_mem (Option.mem_toList.2 he))) span
  | .breakLoop _, _ | .continueLoop _, _ => .refl _
  | .block inner _, h => inner.findings_agree v.entering (h.child (.head _))

theorem Block.findings_agree (v : View) : (b : Block) → (Node.block b).CharFree →
    Agree (b.findings (v.under .standard)) (b.findings (v.under .legacy))
  | .mk locals body _, h =>
    (Agree.refl _).append
      (Stmt.listFindings_agree (v.declaring (locals.flatMap VarDecl.declarations)) body fun _ hs =>
        h.child (List.mem_append_right _ (List.mem_map_of_mem hs)))

theorem Stmt.listFindings_agree (v : View) : (stmts : List Stmt) →
    (∀ s ∈ stmts, (Node.stmt s).CharFree) →
    Agree (Stmt.listFindings (v.under .standard) stmts)
      (Stmt.listFindings (v.under .legacy) stmts)
  | [], _ => .refl []
  | s :: stmts, h => by
    obtain ⟨hs, hstmts⟩ := List.forall_mem_cons.1 h
    exact (s.findings_agree v hs).append (Stmt.listFindings_agree v stmts hstmts)

end

theorem MethodDecl.findings_agree (v : View) {method : MethodDecl}
    (h : (Node.method method).CharFree) :
    Agree (method.findings (v.under .standard)) (method.findings (v.under .legacy)) :=
  (Agree.refl _).append (method.body.findings_agree (method.bodyView v)
    (h.child (List.mem_append_right _ (.head _))))

theorem MethodDecl.listFindings_agree (v : View) {methods : List MethodDecl}
    (h : ∀ method ∈ methods, (Node.method method).CharFree) :
    Agree (listFindings (v.under .standard) methods) (listFindings (v.under .legacy) methods) := by
  induction methods generalizing v with
  | nil => exact .refl []
  | cons method methods ih =>
    obtain ⟨hmethod, hmethods⟩ := List.forall_mem_cons.1 h
    exact (MethodDecl.findings_agree v hmethod).append (ih (v.declaring [method.declaration])
      hmethods)

theorem Program.findings_agree {p : Program} (h : (Node.program p).CharFree) :
    Agree (p.findings .standard) (p.findings .legacy) := by
  have hmethods := MethodDecl.listFindings_agree
    ((View.mk .standard .root false none).declaring p.fieldDeclarations)
    fun method hmethod => h.child (List.mem_append_right _ (List.mem_map_of_mem hmethod))
  exact ((Agree.refl _).append hmethods).append (.refl _)

/-- Without character literals the legacy rules report what the standard rules report, in the same
order, and further mismatches at assignments and products, if the operators are left out whose
tests they turn around. So both sets report the same on everything else. -/
theorem legacy_enlarges_standard {p : Program} (h : (Node.program p).CharFree) :
    Enlarged (fun d => d.defect.isTightened = true) (upright (analyze .standard p))
      (upright (analyze .legacy p)) ∧
    (upright (analyze .standard p)).Sublist (upright (analyze .legacy p)) ∧
    unaffected (analyze .standard p) = unaffected (analyze .legacy p) := by
  have hagree : Agree (analyze .standard p) (analyze .legacy p) := by
    rw [analyze_eq_findings, analyze_eq_findings]
    exact Program.findings_agree h
  refine ⟨hagree, Enlarged.sublist hagree, ?_⟩
  have hsplit : ∀ ds, unaffected ds = (upright ds).filter fun d => !d.defect.isTightened := by
    intro ds
    rw [upright, List.filter_filter, unaffected]
  rw [hsplit, hsplit]
  refine Enlarged.filter_eq hagree ?_
  intro d hd
  rw [hd, Bool.not_true]

theorem legacy_enlarges_standard_flag :
    let body : List Stmt :=
      [.assign (.scalar "b" .zero) .assign (.bool true .zero) .zero,
        .returnFrom (some (.bool true .zero)) .zero]
    let p : Program :=
      ⟨"P", [⟨.boolean, [⟨"b", none, .zero⟩], .zero⟩],
        [⟨"main", none, [], .mk [] body .zero, .zero⟩], .zero, 1⟩
    (Node.program p).CharFree ∧
    Enlarged (fun d => d.defect.isTightened = true) (upright (analyze .standard p))
      (upright (analyze .legacy p)) ∧
    (analyze .standard p).map Diagnostic.defect = [.returnMismatch "main" .void .boolean] ∧
    (analyze .legacy p).map Diagnostic.defect =
      [.typeMismatch .assignment "boolean" "boolean", .returnMismatch "main" .void .boolean] := by
  intro body p
  have hflag : (Node.expr (.bool true .zero)).CharFree := Node.charFree_of_children nofun nofun
  have hplace : (Node.location (.scalar "b" .zero)).CharFree :=
    Node.charFree_of_children nofun nofun
  have hbody : ∀ s ∈ body.map Node.stmt, s.CharFree := by
    refine List.forall_mem_cons.2 ⟨?_, List.forall_mem_singleton.2 ?_⟩
    · exact Node.charFree_of_children nofun
        (List.forall_mem_cons.2 ⟨hplace, List.forall_mem_singleton.2 hflag⟩)
    · exact Node.charFree_of_children nofun (List.forall_mem_singleton.2 hflag)
  have hmethod : (Node.method ⟨"main", none, [], .mk [] body .zero, .zero⟩).CharFree :=
    Node.charFree_of_children nofun
      (List.forall_mem_singleton.2 (Node.charFree_of_children nofun hbody))
  have hfield : (Node.field ⟨.boolean, [⟨"b", none, .zero⟩], .zero⟩).CharFree :=
    Node.charFree_of_children nofun
      (List.forall_mem_singleton.2 (Node.charFree_of_children nofun nofun))
  have hp : (Node.program p).CharFree :=
    Node.charFree_of_children nofun
      (List.forall_mem_cons.2 ⟨hfield, List.forall_mem_singleton.2 hmethod⟩)
  exact ⟨hp, (legacy_enlarges_standard hp).1, by decide, by decide⟩

end Decaf
