import Decaf.Proofs.OriginalDefects
import Decaf.Proofs.RecordedWalk

namespace Decaf

open Analyzer

def Node.Exprless (n : Node) : Prop := ∀ e, ¬ n.Within (.expr e)

theorem Node.exprless_of_children {n : Node} (hn : ∀ e, n ≠ .expr e)
    (h : ∀ c ∈ n.children, c.Exprless) : n.Exprless := by
  intro e he
  rcases he.eq_or_child with heq | ⟨c, hc, hwithin⟩
  · exact hn e heq
  · exact h c hc e hwithin

theorem Node.exprless_name (name : Name) : (Node.name name).Exprless :=
  exprless_of_children nofun nofun

theorem Node.exprless_varDecl (decl : VarDecl) : (Node.varDecl decl).Exprless := by
  refine exprless_of_children nofun ?_
  intro c hc
  obtain ⟨name, -, rfl⟩ := List.mem_map.1 hc
  exact exprless_name name

theorem Node.exprless_param (param : Param) : (Node.param param).Exprless :=
  exprless_of_children nofun nofun

theorem Node.exprless_field (decl : FieldDecl) : (Node.field decl).Exprless := by
  refine exprless_of_children nofun ?_
  intro c hc
  obtain ⟨name, -, rfl⟩ := List.mem_map.1 hc
  exact exprless_of_children nofun nofun

/-- The diagnostic is about an operation that has been typed, as have its operands, one after the
other. Both operands have a known type. -/
def Explained (typings : List Typing) (d : Diagnostic) : Prop :=
  ∃ left ∈ typings, ∃ right ∈ typings, ∃ op span,
    ⟨.binary op left.expr right.expr span, left.before⟩ ∈ typings ∧ right.before = left.after ∧
    left.type ≠ .unknown ∧ right.type ≠ .unknown ∧
    d = .ofSpan (.typeMismatch (.operator op.category) left.expr.text right.expr.text) span

/-- All expressions in the tree below a node have been typed. -/
def Node.TypedIn (n : Node) (typings : List Typing) : Prop :=
  ∀ e, n.Within (.expr e) → ∃ t ∈ typings, t.expr = e

/-- All types declared on the way to a state were known, and under the standard rules nothing has
been reported because of an unknown type. -/
structure Sound (rules : RuleSet) (typings : List Typing) (a : Analyzer) : Prop where
  rules_eq : a.rules = rules
  known : a.Known
  before : ∀ t ∈ typings, t.before.Known
  shows : rules = .standard → ∀ d ∈ a.diagnostics, ¬ d.defect.Shows .unknown
  explained : rules = .standard → ∀ d ∈ a.diagnostics, d.defect.isOperator = true →
    Explained typings d

section Sound

variable {rules : RuleSet} {ts : List Typing} {a : Analyzer}

theorem sound_new (rules : RuleSet) : Sound rules [] (.new rules) where
  rules_eq := rfl
  known := known_new rules
  before := List.forall_mem_nil _
  shows _ := List.forall_mem_nil _
  explained _ := List.forall_mem_nil _

theorem Node.TypedIn.mono {us : List Typing} {n : Node} (h : n.TypedIn ts) (hgrows : ts ⊆ us) :
    n.TypedIn us := by
  intro e he
  obtain ⟨t, ht, rfl⟩ := h e he
  exact ⟨t, hgrows ht, rfl⟩

theorem Node.typedIn_of_children {n : Node} (hn : ∀ e, n = .expr e → ∃ t ∈ ts, t.expr = e)
    (h : ∀ c ∈ n.children, c.TypedIn ts) : n.TypedIn ts := by
  intro e he
  rcases he.eq_or_child with heq | ⟨c, hc, hwithin⟩
  · exact hn e heq
  · exact h c hc e hwithin

theorem Node.typedIn_expr {e : Expr} (h : ∀ c ∈ (Node.expr e).children, c.TypedIn ts)
    (a : Analyzer) : (Node.expr e).TypedIn (⟨e, a⟩ :: ts) := by
  refine typedIn_of_children ?_ fun c hc => (h c hc).mono (List.subset_cons_self _ _)
  intro other heq
  cases heq
  exact ⟨_, .head _, rfl⟩

theorem Sound.note (h : Sound rules ts a) (e : Expr) : Sound rules (ts ++ [⟨e, a⟩]) a where
  rules_eq := h.rules_eq
  known := h.known
  before := List.forall_mem_append.2 ⟨h.before, List.forall_mem_singleton.2 h.known⟩
  shows := h.shows
  explained hrules d hd hop := by
    obtain ⟨left, hleft, right, hright, op, span, hbinary, hrest⟩ := h.explained hrules d hd hop
    have hgrows : ts ⊆ ts ++ [⟨e, a⟩] := List.subset_append_left _ _
    exact ⟨left, hgrows hleft, right, hgrows hright, op, span, hgrows hbinary, hrest⟩

theorem Sound.tame {α : Type} {x : Walk α} (h : Sound rules ts a) (hx : Tame x a) :
    Sound rules ts (x.run a).2 where
  rules_eq := hx.rules.trans h.rules_eq
  known := hx.known h.known
  before := h.before
  shows hrules d hd := by
    rcases hx.original h.known (h.rules_eq.trans hrules) d hd with hold | hnew
    · exact h.shows hrules d hold
    · exact hnew.2
  explained hrules d hd hop := by
    rcases hx.original h.known (h.rules_eq.trans hrules) d hd with hold | hnew
    · exact h.explained hrules d hold hop
    · exact nomatch hop.symm.trans hnew.1

theorem Sound.operation {op : BinaryOp} {span : Span} (h : Sound rules ts a) (left right : Typing)
    (hleft : left ∈ ts) (hright : right ∈ ts)
    (hbinary : ⟨.binary op left.expr right.expr span, left.before⟩ ∈ ts)
    (hnext : right.before = left.after) :
    Sound rules ts
      ((Step.operation op left.expr right.expr left.type right.type span).walk.run a).2 := by
  have hrun :
      ((Step.operation op left.expr right.expr left.type right.type span).walk.run a).2 =
        a.reporting (breach (a.rules.operandsOk op.category left.type right.type)
          (.typeMismatch (.operator op.category) left.expr.text right.expr.text) span) := by
    simp [Step.walk]
  rw [hrun]
  refine ⟨h.rules_eq, ⟨h.known.names, h.known.method⟩, h.before, ?_, ?_⟩
  · intro hrules d hd
    rw [diagnostics_reporting] at hd
    rcases List.mem_append.1 hd with hold | hnew
    · exact h.shows hrules d hold
    · obtain ⟨-, rfl⟩ := mem_breach_iff.1 hnew
      exact id
  · intro hrules d hd hop
    rw [diagnostics_reporting] at hd
    rcases List.mem_append.1 hd with hold | hnew
    · exact h.explained hrules d hold hop
    · obtain ⟨hok, rfl⟩ := mem_breach_iff.1 hnew
      rw [h.rules_eq, hrules] at hok
      obtain ⟨hl, hr⟩ := RuleSet.known_of_operandsOk hok
      exact ⟨left, hleft, right, hright, op, span, hbinary, hnext, hl, hr, rfl⟩

theorem Sound.atDepth (h : Sound rules ts a) (depth : Nat) :
    Sound rules ts { a with loopDepth := depth } :=
  ⟨h.rules_eq, ⟨h.known.names, h.known.method⟩, h.before, h.shows, h.explained⟩

end Sound

namespace Course

/-- Along the course all expressions below the nodes `ns` get typed, and nothing is reported because
of an unknown type. -/
structure Vouched {α : Type} (c : Course α) (ns : List Node) : Prop where
  covers : ∀ a, ∀ n ∈ ns, n.TypedIn (c.typings a)
  sound : ∀ {rules ts a}, Sound rules ts a →
    Sound rules (ts ++ c.typings a) (c.walk.run a).2

section Vouched

variable {α β : Type} {c : Course α} {f : α → Course β} {ns ms : List Node}

theorem typings_bind (c : Course α) (f : α → Course β) (a : Analyzer) :
    (c >>= f).typings a = c.typings a ++ (f (c.walk.run a).1).typings (c.walk.run a).2 :=
  trace_bind _ c f a

/-- A course that types no expression passes only nodes without expressions. -/
theorem vouched_of_typings (htypings : ∀ a, c.typings a = [])
    (htame : ∀ a, Tame c.walk a) (hns : ∀ n ∈ ns, n.Exprless) : Vouched c ns where
  covers a n hn e he := absurd he (hns n hn e)
  sound h := by
    rw [htypings, List.append_nil]
    exact h.tame (htame _)

theorem vouched_pure (value : α) : Vouched (pure value) [] :=
  vouched_of_typings (fun _ => rfl) (tame_pure value) (List.forall_mem_nil _)

theorem vouched_perform (s : Step α) (hs : s.isOperation = false) (hns : ∀ n ∈ ns, n.Exprless) :
    Vouched (perform s) ns :=
  vouched_of_typings (fun _ => rfl) (s.tame hs) hns

theorem vouched_step (s : Step α) (hs : s.isOperation = false) : Vouched (perform s) [] :=
  vouched_perform s hs (List.forall_mem_nil _)

theorem Vouched.bind (hc : Vouched c ns) (hf : ∀ value, Vouched (f value) ms) :
    Vouched (c >>= f) (ns ++ ms) where
  covers a := by
    rw [typings_bind]
    refine List.forall_mem_append.2 ⟨?_, ?_⟩
    · exact fun n hn => (hc.covers a n hn).mono (List.subset_append_left _ _)
    · exact fun n hn => ((hf _).covers _ n hn).mono (List.subset_append_right _ _)
  sound h := by
    rw [typings_bind, walk_bind, ← List.append_assoc]
    exact (hf _).sound (hc.sound h)

theorem Vouched.andThen (hc : Vouched c ns) (hf : ∀ value, Vouched (f value) []) :
    Vouched (c >>= f) ns :=
  List.append_nil ns ▸ hc.bind hf

theorem Vouched.discard (h : Vouched c ns) : Vouched (discard c) ns :=
  h.andThen fun _ => vouched_pure ()

theorem Vouched.node {n : Node} (hn : ∀ e, n ≠ .expr e) (h : Vouched c n.children) :
    Vouched c [n] where
  covers a := List.forall_mem_singleton.2
    (Node.typedIn_of_children (fun e he => absurd he (hn e)) (h.covers a))
  sound := h.sound

theorem typings_expr (e : Expr) (c : Course α) (a : Analyzer) :
    (pass (.expr e) >>= fun _ => c).typings a = ⟨e, a⟩ :: c.typings a := rfl

theorem Vouched.expr {e : Expr} (h : Vouched c (Node.expr e).children) :
    Vouched (pass (.expr e) >>= fun _ => c) [.expr e] where
  covers a := List.forall_mem_singleton.2 (Node.typedIn_expr (h.covers a) a)
  sound hs := by
    rw [typings_expr, List.append_cons]
    exact h.sound (hs.note e)

theorem Vouched.stmt {site : Site} (h : Vouched c ns) :
    Vouched (pass (.stmt site) >>= fun _ => c) ns :=
  ⟨h.covers, h.sound⟩

variable {body : Course Unit}

theorem Vouched.inScope (h : Vouched body ns) : Vouched (inScope body) ns :=
  (vouched_step .enterScope rfl).bind fun _ => h.andThen fun _ => vouched_step .exitScope rfl

theorem Vouched.inMethod (h : Vouched body ns) (method : MethodDecl) :
    Vouched (inMethod method body) ns :=
  (vouched_step (.enterMethod method) rfl).bind fun _ =>
    h.andThen fun _ => vouched_step .leaveMethod rfl

theorem Vouched.inLoop (h : Vouched body ns) : Vouched (inLoop body) ns := by
  have htypings : ∀ a : Analyzer, (Course.inLoop body).typings a =
      body.typings { a with loopDepth := a.loopDepth + 1 } := fun _ => List.append_nil _
  refine ⟨fun a => ?_, fun hs => ?_⟩
  · rw [htypings]
    exact h.covers _
  · rw [htypings]
    exact (h.sound (hs.atDepth _)).atDepth _

end Vouched

theorem mem_typings_course (e : Expr) (a : Analyzer) : ⟨e, a⟩ ∈ e.course.typings a := by
  cases e <;> exact .head _

theorem vouched_binary {op : BinaryOp} {left right : Expr} {span : Span}
    (hleft : Vouched left.course [.expr left]) (hright : Vouched right.course [.expr right]) :
    Vouched (Expr.binary op left right span).course [.expr (.binary op left right span)] := by
  let e : Expr := .binary op left right span
  have htypings : ∀ a, e.course.typings a =
      ⟨e, a⟩ :: (left.course.typings a ++ right.course.typings (left.course.walk.run a).2) := by
    intro a
    rw [Expr.course, typings_expr, typings_bind, typings_bind]
    exact congrArg (⟨e, a⟩ :: left.course.typings a ++ ·) (List.append_nil _)
  refine ⟨fun a => ?_, fun {rules ts a} hs => ?_⟩
  · rw [htypings]
    refine List.forall_mem_singleton.2 (Node.typedIn_expr ?_ a)
    refine List.forall_mem_cons.2 ⟨?_, List.forall_mem_singleton.2 ?_⟩
    · exact (hleft.covers a _ (.head _)).mono (List.subset_append_left _ _)
    · exact (hright.covers _ _ (.head _)).mono (List.subset_append_right _ _)
  · let b : Analyzer := (left.course.walk.run a).2
    have hafter : b = (Typing.mk left a).after := by
      rw [Typing.after, ← left.walk_course]
    have hwalk : (e.course.walk.run a).2 =
        ((Step.operation op left right (Typing.mk left a).type (Typing.mk right b).type
          span).walk.run (right.course.walk.run b).2).2 := by
      rw [e.walk_course, right.walk_course, hafter, typeOf]
      rfl
    rw [htypings, hwalk, List.append_cons, ← List.append_assoc]
    exact (hright.sound (hleft.sound (hs.note e))).operation ⟨left, a⟩ ⟨right, b⟩
      (List.mem_append_left _ (List.mem_append_right _ (mem_typings_course left a)))
      (List.mem_append_right _ (mem_typings_course right b))
      (List.mem_append_left _ (List.mem_append_left _ (List.mem_append_right _ (.head _)))) hafter

end Course

open Course

mutual

theorem Expr.vouched_course (e : Expr) : Vouched e.course [.expr e] := by
  cases e with
  | location place span => exact (place.vouched_course span.line false).expr
  | call called span => exact called.vouched_course.expr
  | int text span | bool value span => exact (vouched_pure _).expr
  | char text span => exact (vouched_step .charType rfl).expr
  | unary op operand span =>
    exact (operand.vouched_course.discard.andThen fun _ => vouched_pure _).expr
  | binary op left right span => exact vouched_binary left.vouched_course right.vouched_course
  | paren inner span => exact inner.vouched_course.expr

theorem Location.vouched_course (place : Location) (line : Nat) (target : Bool) :
    Vouched (place.course line target) [.location place] := by
  refine Vouched.node nofun ?_
  cases place with
  | scalar name span => exact vouched_step (.scalar name target _) rfl
  | indexed name index span =>
    exact index.vouched_course.andThen fun _ => vouched_step (.element name index _ target _) rfl

theorem Call.vouched_course (called : Call) : Vouched called.course [.call called] := by
  refine Vouched.node nofun ?_
  cases called with
  | method name args span =>
    exact (Expr.vouched_listCourse args).andThen fun _ => vouched_step (.call name args _ span) rfl
  | callout name args span =>
    exact (CalloutArg.vouched_listCourse args).andThen fun _ => vouched_pure _

theorem Expr.vouched_listCourse (args : List Expr) :
    Vouched (Expr.listCourse args) (args.map .expr) := by
  cases args with
  | nil => exact vouched_pure _
  | cons arg args =>
    exact arg.vouched_course.bind fun _ =>
      (Expr.vouched_listCourse args).andThen fun _ => vouched_pure _

theorem CalloutArg.vouched_listCourse (args : List CalloutArg) :
    Vouched (CalloutArg.listCourse args) (args.flatMap Node.ofCalloutArg) := by
  match args with
  | [] => exact vouched_pure _
  | .expr value :: args =>
    exact value.vouched_course.discard.bind fun _ => CalloutArg.vouched_listCourse args
  | .string text :: args => exact CalloutArg.vouched_listCourse args

end

namespace Course

theorem vouched_condition (e : Expr) : Vouched (condition e) [.expr e] :=
  e.vouched_course.andThen fun _ => vouched_step (.condition _ e.span) rfl

theorem vouched_loopBound (e : Expr) : Vouched (loopBound e) [.expr e] :=
  e.vouched_course.andThen fun _ => vouched_step (.loopBound e _) rfl

theorem vouched_returned (value : Option Expr) (span : Span) :
    Vouched (returned value span) (value.toList.map .expr) := by
  cases value with
  | none => exact (vouched_pure _).andThen fun _ => vouched_step (.returned _ span) rfl
  | some e => exact e.vouched_course.andThen fun _ => vouched_step (.returned _ span) rfl

theorem vouched_assignment (target : Location) (op : AssignOp) (value : Expr) (span : Span) :
    Vouched (assignment target op value span) [.location target, .expr value] :=
  (target.vouched_course span.line true).bind fun _ =>
    value.vouched_course.andThen fun _ => vouched_step (.assignment op _ _ span) rfl

end Course

mutual

theorem Stmt.vouched_course (place : Place) (s : Stmt) : Vouched (s.course place) [.stmt s] := by
  refine Vouched.node nofun ?_
  cases s with
  | assign target op value span => exact (vouched_assignment target op value span).stmt
  | call called span => exact called.vouched_course.discard.stmt
  | ifThen e body span =>
    exact ((vouched_condition e).bind fun _ => (body.vouched_course _).inScope).stmt
  | ifElse e body other span =>
    exact ((vouched_condition e).bind fun _ => (body.vouched_course _).inScope.bind fun _ =>
      (other.vouched_course _).inScope).stmt
  | forLoop var first last body span =>
    have hvar : Vouched (perform (.loopVariable var)) [.name var] :=
      vouched_perform _ rfl (List.forall_mem_singleton.2 (Node.exprless_name var))
    exact (hvar.bind fun _ => (vouched_loopBound first).bind fun _ =>
      (vouched_loopBound last).bind fun _ => (body.vouched_course _).inScope.inLoop).stmt
  | returnFrom value span => exact (vouched_returned value span).stmt
  | breakLoop span => exact (vouched_step (.jump "break" span) rfl).stmt
  | continueLoop span => exact (vouched_step (.jump "continue" span) rfl).stmt
  | block inner span => exact (inner.vouched_course _).inScope.stmt

theorem Block.vouched_course (place : Place) (b : Block) : Vouched (b.course place) [.block b] := by
  refine Vouched.node nofun ?_
  cases b with
  | mk locals statements span =>
    have hlocals : Vouched (perform (.locals locals)) (locals.map .varDecl) :=
      vouched_perform _ rfl (List.forall_mem_map.2 fun decl _ => Node.exprless_varDecl decl)
    exact hlocals.bind fun _ => Stmt.vouched_listCourse place statements

theorem Stmt.vouched_listCourse (place : Place) (stmts : List Stmt) :
    Vouched (Stmt.listCourse place stmts) (stmts.map .stmt) := by
  cases stmts with
  | nil => exact vouched_pure _
  | cons s stmts =>
    exact (s.vouched_course place).bind fun _ => Stmt.vouched_listCourse place stmts

end

theorem MethodDecl.vouched_course (members : List Declaration) (m : MethodDecl) :
    Vouched (m.course members) [.method m] := by
  refine Vouched.node nofun ?_
  have hparams : Vouched (perform (.params m.params)) (m.params.map .param) :=
    vouched_perform _ rfl (List.forall_mem_map.2 fun param _ => Node.exprless_param param)
  refine (vouched_step (.announce m) rfl).bind fun _ => Vouched.inScope ?_
  exact hparams.bind fun _ => (m.body.vouched_course _).inMethod m

theorem MethodDecl.vouched_listCourse (members : List Declaration) (ms : List MethodDecl) :
    Vouched (MethodDecl.listCourse members ms) (ms.map .method) := by
  induction ms generalizing members with
  | nil => exact vouched_pure _
  | cons m ms ih => exact (m.vouched_course members).bind fun _ => ih _

theorem Program.vouched_course (p : Program) : Vouched p.course [.program p] := by
  refine Vouched.node nofun ?_
  have hfields : Vouched (perform (.fields p.fields)) (p.fields.map .field) :=
    vouched_perform _ rfl (List.forall_mem_map.2 fun decl _ => Node.exprless_field decl)
  exact hfields.bind fun _ => (MethodDecl.vouched_listCourse _ p.methods).andThen fun _ =>
    vouched_step (.demandMain p) rfl

theorem Typing.type_eq_unknown_iff {t : Typing} (h : t.before.Known) :
    t.type = .unknown ↔ t.expr.Blamed t.reported := by
  rw [type, typeOf_run, reported, (typeOf_framed t.expr t.before).2]
  exact t.expr.typeIn_eq_unknown_iff h.resolved

/-- Recording changes nothing, and all expressions of a program are typed. One of them has the
unknown type exactly if the last thing said about it is that the name it is a use of is not declared
or stands for something else. Under the standard rules such a type is never reported, nor is an
operator with an operand of such a type. -/
theorem unknown_never_cascades (p : Program) :
    (∀ rules,
      (RecordedWalk.analyze p).run ⟨.new rules, []⟩ =
        (analyze rules p, ⟨((Analyzer.analyze p).run (.new rules)).2, p.typings rules⟩) ∧
      (∀ e, (Node.program p).Within (.expr e) → ∃ t ∈ p.typings rules, t.expr = e) ∧
      ∀ t ∈ p.typings rules, (t.type = .unknown ↔ t.expr.Blamed t.reported)) ∧
    ∀ d ∈ analyze .standard p, ¬ d.defect.Shows .unknown ∧
      (d.defect.isOperator = true → Explained (p.typings .standard) d) := by
  have htypings : ∀ rules, p.typings rules = p.course.typings (.new rules) := by
    intro rules
    rw [Program.typings, p.run_recorded]
  have hsound : ∀ rules,
      Sound rules (p.typings rules) ((Analyzer.visitProgram p).run (.new rules)).2 := by
    intro rules
    rw [htypings, ← p.walk_course]
    exact p.vouched_course.sound (sound_new rules)
  refine ⟨fun rules => ⟨?_, ?_, ?_⟩, fun d hd => ?_⟩
  · rw [p.run_recorded, htypings]
  · rw [htypings]
    exact p.vouched_course.covers _ _ (.head _)
  · exact fun t ht => Typing.type_eq_unknown_iff ((hsound rules).before t ht)
  · exact ⟨(hsound .standard).shows rfl d hd, (hsound .standard).explained rfl d hd⟩

theorem unknown_never_cascades_ghost :
    let ghost : Expr := .location (.scalar "ghost" .zero) .zero
    let product : Expr := .binary .mul ghost (.int "2" .zero) .zero
    let test : Expr := .binary .gt product (.bool true .zero) .zero
    let value : Expr := .binary .and ghost (.paren test .zero) .zero
    let p : Program :=
      ⟨"P", [⟨.boolean, [⟨"b", none, .zero⟩], .zero⟩],
        [⟨"main", none, [],
          .mk [] [.assign (.scalar "b" .zero) .assign value .zero] .zero, .zero⟩], .zero, 1⟩
    let clash : Diagnostic :=
      .ofSpan (.typeMismatch (.operator .relational) product.text "true") .zero
    analyze .standard p =
      [.ofSpan (.undeclaredVariable "ghost" false) .zero,
        .ofSpan (.undeclaredVariable "ghost" false) .zero, clash] ∧
    (p.typings .standard).map Typing.type =
      [.boolean, .unknown, .boolean, .boolean, .int, .unknown, .int, .boolean] ∧
    (∃ t ∈ p.typings .standard, t.type = .unknown ∧ t.expr.Blamed t.reported) ∧
    Explained (p.typings .standard) clash := by
  intro ghost product test value p clash
  have hfound : analyze .standard p =
      [.ofSpan (.undeclaredVariable "ghost" false) .zero,
        .ofSpan (.undeclaredVariable "ghost" false) .zero, clash] := by decide
  have htypes : (p.typings .standard).map Typing.type =
      [.boolean, .unknown, .boolean, .boolean, .int, .unknown, .int, .boolean] := by decide +kernel
  obtain ⟨hall, hoperators⟩ := unknown_never_cascades p
  refine ⟨hfound, htypes, ?_, ?_⟩
  · have hunknown : .unknown ∈ (p.typings .standard).map Typing.type := by
      rw [htypes]
      exact .tail _ (.head _)
    obtain ⟨t, ht, htype⟩ := List.mem_map.1 hunknown
    exact ⟨t, ht, htype, ((hall .standard).2.2 t ht).1 htype⟩
  · have hclash : clash ∈ analyze .standard p := by
      rw [hfound]
      exact .tail _ (.tail _ (.head _))
    exact (hoperators clash hclash).2 rfl

end Decaf
