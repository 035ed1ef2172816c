import Decaf.Proofs.Predictive

namespace Decaf.Parser

open TokenStream Grammar

variable {late : LateFaults} {size : Nat}

section Tokens

theorem expect_predictive {kind : TokenKind} (hlive : kind ≠ .eof) :
    Predictive late size (fun s => s.expect kind) fun ts a => ts = [⟨kind, a⟩] := by
  refine .token (if_neg hlive.symm) ⟨kind, (), if_pos rfl⟩ ?_
  intro found a v hfound
  split at hfound
  · next heq => rw [heq]
  · cases hfound

theorem keyword_predictive (word : Keyword) :
    Predictive late size (fun s => s.keyword word) fun ts a => ts = [⟨.keyword word, a⟩] :=
  expect_predictive nofun

theorem punct_predictive (mark : Punct) :
    Predictive late size (fun s => s.punct mark) fun ts a => ts = [⟨.punct mark, a⟩] :=
  expect_predictive nofun

theorem identifier_predictive : Predictive late size TokenStream.identifier NameSpelled := by
  refine .token rfl ⟨.identifier "x", "x", rfl⟩ ?_
  intro kind a text hk
  cases kind <;> cases hk
  exact .mk ⟨text, a⟩

theorem typeName_predictive :
    Predictive late size TokenStream.typeName fun ts type => ∃ a, ts = [⟨type.kind, a⟩] := by
  refine .token rfl ⟨.keyword .int, .int, rfl⟩ ?_
  intro kind a type hk
  exact ⟨a, by rw [ScalarType.ofKind?_eq_some_iff.1 hk]⟩

theorem arraySize_predictive :
    Predictive late size TokenStream.arraySize fun ts text =>
      ∃ kind a, ts = [⟨kind, a⟩] ∧ kind.integer? = some text :=
  .token rfl ⟨.intLiteral "1", "1", rfl⟩ fun kind a _ hk => ⟨kind, a, rfl, hk⟩

theorem calloutName_predictive :
    Predictive late size TokenStream.calloutName fun ts name =>
      ∃ a, ts = [⟨.stringLiteral name, a⟩] := by
  refine .token rfl ⟨.stringLiteral "", "", rfl⟩ ?_
  intro kind a name hk
  cases kind <;> cases hk
  exact ⟨a, rfl⟩

theorem assignOp_predictive :
    Predictive late size TokenStream.assignOp fun ts op => ∃ a, ts = [⟨.punct op.mark, a⟩] := by
  refine .token rfl ⟨.punct .eq, .assign, rfl⟩ ?_
  intro kind a op hk
  exact ⟨a, by rw [AssignOp.ofKind?_eq_some_iff.1 hk]⟩

end Tokens

section Lists

variable {α : Type} {R : List Token → α → Prop} {item : (s : TokenStream) → Reply α s.size}

theorem afterComma_predictive (h : Predictive noFaults size item R) :
    Predictive noFaults size (afterComma item) (AfterComma R) := by
  refine (punct_predictive .comma).andThen ?_
  rintro a _ rfl
  exact h.lax.mono fun ts v hv => .mk a hv

theorem eachAfterComma_predictive {many : (s : TokenStream) → Reply (List α) (s.size + 1)}
    (hmany : ∀ s, many s =
      if s.kind = .punct .comma then
        .lax <| (s.punct .comma).andThen fun _ s₁ _ =>
        (item s₁).lax.andThen fun first s₂ _ =>
        (many s₂).andThen fun others s₃ _ =>
        .done (first :: others) s₃
      else
        .done [] s)
    (h : Predictive noFaults size item R) :
    Predictive noFaults size many (Each (AfterComma R)) := by
  refine .each (· = .punct .comma) ?_ (afterComma_predictive h)
  intro s
  rw [hmany]
  simp only [afterComma, Reply.andThen_assoc]

end Lists

/-- Expressions whose outermost operator binds at least as tightly as the level says. -/
def UpTo (level : Nat) (ts : List Token) (e : Expr) : Prop := ExprSpelled ts e ∧ e.level ≤ level

section Expressions

section Parts

variable (h : Predictive noFaults size expression ExprSpelled)
include h

theorem moreArguments_predictive :
    Predictive noFaults size moreArguments (Each (AfterComma ExprSpelled)) :=
  eachAfterComma_predictive moreArguments.eq_def h

theorem arguments_predictive : Predictive noFaults size arguments (Separated ExprSpelled) := by
  refine .of_eq arguments.eq_def (.ite (· = .punct .rparen) (.done .none) (.lax ?_))
  refine h.andThen fun first ts hfirst => ?_
  exact (moreArguments_predictive h).andThenDone fun us others hothers => .some hfirst hothers

theorem call_predictive (name : Name) :
    Predictive noFaults size (call name) fun ts called =>
      CallSpelled (⟨.identifier name.text, name.span⟩ :: ts) called := by
  refine .of_eq (call.eq_def name) ((punct_predictive .lparen).andThen ?_)
  rintro a _ rfl
  refine (arguments_predictive h).andThen fun args ts hargs => ?_
  refine (punct_predictive .rparen).lax.andThen ?_
  rintro b _ rfl
  exact .done (.method name.text name.span a b hargs)

theorem location_predictive (name : Name) :
    Predictive noFaults size (location name) fun ts place =>
      PlaceSpelled (⟨.identifier name.text, name.span⟩ :: ts) place := by
  refine .of_eq (location.eq_def name) (.ite (· = .punct .lbracket) (.lax ?_)
    (.done (.scalar name.text name.span)))
  refine (punct_predictive .lbracket).andThen ?_
  rintro a _ rfl
  refine h.lax.andThen fun index ts hindex => ?_
  refine (punct_predictive .rbracket).lax.andThen ?_
  rintro b _ rfl
  exact .done (.indexed name.text name.span a b hindex)

theorem calloutArgument_predictive :
    Predictive noFaults size calloutArgument CalloutArgSpelled := by
  have hexpr : Predictive noFaults size (fun s => (expression s).map .expr) CalloutArgSpelled :=
    h.map fun ts e he => .expr he
  have hstring : Predictive noFaults size (fun s =>
      (s.pick TokenKind.string? .expression).map fun t => .string t.1) CalloutArgSpelled := by
    refine .token rfl ⟨.stringLiteral "", "", rfl⟩ ?_
    intro kind a text hk
    cases kind <;> cases hk
    exact .string text a
  apply Predictive.byKind
  intro kind
  cases kind with
  | stringLiteral text => exact ⟨_, fun s hs => by rw [calloutArgument, hs], hstring⟩
  | _ => exact ⟨_, fun s hs => by rw [calloutArgument, hs], hexpr⟩

theorem calloutArguments_predictive :
    Predictive noFaults size calloutArguments (Each (AfterComma CalloutArgSpelled)) :=
  eachAfterComma_predictive calloutArguments.eq_def (calloutArgument_predictive h)

theorem callout_predictive : Predictive noFaults (size + 1) callout CallSpelled := by
  refine .of_eq callout.eq_def ((keyword_predictive .callout).andThenLess ?_)
  rintro a _ rfl
  refine (punct_predictive .lparen).lax.andThen ?_
  rintro b _ rfl
  refine calloutName_predictive.lax.andThen ?_
  rintro name _ ⟨c, rfl⟩
  refine (calloutArguments_predictive h).andThen fun args ts hargs => ?_
  refine (punct_predictive .rparen).lax.andThen ?_
  rintro d _ rfl
  exact .done (.callout name a b c d hargs)

theorem namedExpr_predictive :
    Predictive noFaults (size + 1) (fun s =>
      s.identifier.andThen fun name s₁ _ =>
      if s₁.kind = .punct .lparen then
        ((call name s₁).map fun called => .call called called.span).lax
      else
        (location name s₁).map fun place => .location place place.span) (UpTo 0) := by
  refine identifier_predictive.andThenLess ?_
  rintro name _ ⟨⟩
  refine .ite (· = .punct .lparen) (.lax ?_) ?_
  · exact (call_predictive h name).map fun ts called hc => ⟨.call hc, Nat.le_refl 0⟩
  · exact (location_predictive h name).map fun ts place hp => ⟨.location hp, Nat.le_refl 0⟩

theorem parenExpr_predictive :
    Predictive noFaults (size + 1) (fun s =>
      (s.punct .lparen).andThen fun start s₁ _ =>
      (expression s₁).lax.andThen fun inner s₂ _ =>
      (s₂.punct .rparen).lax.andThen fun stop s₃ _ =>
      .done (.paren inner (start.merge stop)) s₃) (UpTo 0) := by
  refine (punct_predictive .lparen).andThenLess ?_
  rintro a _ rfl
  refine h.lax.andThen fun inner ts hinner => ?_
  refine (punct_predictive .rparen).lax.andThen ?_
  rintro b _ rfl
  exact .done ⟨.paren a b hinner, Nat.le_refl 0⟩

theorem primary_predictive : Predictive noFaults (size + 1) primary (UpTo 0) := by
  have hpossible : Completable (UpTo 0) [] :=
    ⟨_, _, .location (.scalar "x" .zero), Nat.le_refl 0⟩
  have hint : Predictive noFaults (size + 1) (fun s =>
      (s.pick TokenKind.integer? .expression).map fun t => .int t.1 t.2) (UpTo 0) :=
    .token rfl ⟨.intLiteral "1", "1", rfl⟩ fun kind a text hk => ⟨.int a hk, Nat.le_refl 0⟩
  have hchar : Predictive noFaults (size + 1) (fun s =>
      (s.pick TokenKind.char? .expression).map fun t => .char t.1 t.2) (UpTo 0) := by
    refine .token rfl ⟨.charLiteral "", "", rfl⟩ ?_
    intro kind a text hk
    cases kind <;> cases hk
    exact ⟨.char text a, Nat.le_refl 0⟩
  have hbool : ∀ value, Predictive noFaults (size + 1) (fun s =>
      (s.keyword (boolWord value)).map (.bool value)) (UpTo 0) := by
    intro value
    refine (keyword_predictive (boolWord value)).map ?_
    rintro _ a rfl
    exact ⟨.bool value a, Nat.le_refl 0⟩
  have hcallout : Predictive noFaults (size + 1) (fun s =>
      (callout s).map fun called => .call called called.span) (UpTo 0) :=
    (callout_predictive h).map fun ts called hc => ⟨.call hc, Nat.le_refl 0⟩
  apply Predictive.byKind
  intro kind
  cases kind with
  | intLiteral text => exact ⟨_, fun s hs => by rw [primary, hs], hint⟩
  | hexLiteral text => exact ⟨_, fun s hs => by rw [primary, hs], hint⟩
  | charLiteral text => exact ⟨_, fun s hs => by rw [primary, hs], hchar⟩
  | identifier text => exact ⟨_, fun s hs => by rw [primary, hs], namedExpr_predictive h⟩
  | keyword word =>
    cases word with
    | trueLit => exact ⟨_, fun s hs => by rw [primary, hs]; rfl, hbool true⟩
    | falseLit => exact ⟨_, fun s hs => by rw [primary, hs]; rfl, hbool false⟩
    | callout => exact ⟨_, fun s hs => by rw [primary, hs], hcallout⟩
    | _ => exact ⟨_, fun s hs => by rw [primary, hs], .reject .expression hpossible⟩
  | punct mark =>
    cases mark with
    | lparen => exact ⟨_, fun s hs => by rw [primary, hs], parenExpr_predictive h⟩
    | _ => exact ⟨_, fun s hs => by rw [primary, hs], .reject .expression hpossible⟩
  | _ => exact ⟨_, fun s hs => by rw [primary, hs], .reject .expression hpossible⟩

end Parts

theorem unary_predictive (h : Predictive noFaults size primary (UpTo 0)) :
    Predictive noFaults size unary (UpTo 0) := by
  induction size with
  | zero => exact .zero h.possible
  | succ size ih =>
    have hless := ih (h.weaken (Nat.le_succ size))
    apply Predictive.byKind
    intro kind
    cases hk : UnaryOp.ofKind? kind with
    | none => exact ⟨_, fun s hs => by rw [unary, hs, hk], h⟩
    | some op =>
      refine ⟨fun s => (s.punct op.mark).andThen fun start s₁ _ =>
        (unary s₁).lax.andThen fun operand s₂ _ =>
        .done (.unary op operand (start.merge operand.span)) s₂,
        fun s hs => by rw [unary, hs, hk], (punct_predictive op.mark).andThenLess ?_⟩
      rintro a _ rfl
      refine hless.lax.andThenDone fun ts operand hoperand => ?_
      exact ⟨.unary op a hoperand.1 (Nat.le_zero.1 hoperand.2), Nat.le_refl 0⟩

theorem operators_predictive {below : Nat}
    (h : Predictive noFaults size (binary below) (UpTo below)) {left : Expr} {ts : List Token}
    (hleft : UpTo (below + 1) ts left) :
    Predictive noFaults size (operators below left) fun us e => UpTo (below + 1) (ts ++ us) e := by
  have hdone : UpTo (below + 1) (ts ++ []) left := by rwa [List.append_nil]
  induction size generalizing left ts with
  | zero => exact .zero ⟨[], left, hdone⟩
  | succ size ih =>
    apply Predictive.byKind
    intro kind
    cases hk : BinaryOp.atLevel? (below + 1) kind with
    | none => exact ⟨_, fun s hs => by rw [operators, hs, hk], .done hdone⟩
    | some op =>
      obtain ⟨-, hlevel⟩ := BinaryOp.atLevel?_eq_some_iff.1 hk
      refine ⟨fun s => .lax <| (s.punct op.mark).andThen fun _ s₁ _ =>
        (binary below s₁).lax.andThen fun right s₂ _ =>
        operators below (.binary op left right (left.span.merge right.span)) s₂,
        fun s hs => by rw [operators, hs, hk], .lax ((punct_predictive op.mark).andThenLess ?_)⟩
      rintro a _ rfl
      refine (h.weaken (Nat.le_succ size)).lax.andThen fun right us hright => ?_
      have hnode : UpTo (below + 1) (ts ++ ⟨.punct op.mark, a⟩ :: us)
          (.binary op left right (left.span.merge right.span)) :=
        ⟨.binary op a hleft.1 (hlevel ▸ hleft.2) hright.1 (by have := hright.2; omega),
          Nat.le_of_eq hlevel⟩
      refine (ih (h.weaken (Nat.le_succ size)) hnode (by rwa [List.append_nil])).mono ?_
      intro vs e he
      simpa using he

theorem binary_predictive (h : Predictive noFaults size primary (UpTo 0)) (level : Nat) :
    Predictive noFaults size (binary level) (UpTo level) := by
  induction level with
  | zero => exact .of_eq (binary.eq_def 0) (unary_predictive h)
  | succ below ih =>
    refine .of_eq (binary.eq_def (below + 1)) (ih.andThen fun left ts hleft => ?_)
    exact operators_predictive ih ⟨hleft.1, Nat.le_succ_of_le hleft.2⟩

/-- Behind its first token an expression has less to read. -/
theorem expression_predictive : Predictive noFaults size expression ExprSpelled := by
  induction size with
  | zero => exact .zero ⟨_, _, .location (.scalar "x" .zero)⟩
  | succ size ih =>
    refine .of_eq expression.eq_def ?_
    exact (binary_predictive (primary_predictive ih) BinaryOp.loosest).mono fun ts e he => he.1

end Expressions

section Statements

theorem moreNames_predictive :
    Predictive noFaults size moreNames (Each (AfterComma NameSpelled)) :=
  eachAfterComma_predictive moreNames.eq_def identifier_predictive

theorem varDecl_predictive : Predictive noFaults size varDecl VarDeclSpelled := by
  refine typeName_predictive.andThenSpan (g := fun a type s₁ =>
    s₁.identifier.lax.andThen fun first s₂ _ =>
    (moreNames s₂).andThen fun others s₃ _ =>
    (s₃.punct .semi).lax.andThen fun stop s₄ _ =>
    Reply.done (VarDecl.mk type (first :: others) (a.merge stop)) s₄) ?_
  rintro a type _ ⟨_, rfl⟩ hstart
  obtain rfl := hstart _ rfl
  refine identifier_predictive.lax.andThen ?_
  rintro first _ ⟨⟩
  refine moreNames_predictive.andThen fun others ts hothers => ?_
  refine (punct_predictive .semi).lax.andThen ?_
  rintro b _ rfl
  exact .done (.mk type first a b hothers)

theorem varDecls_predictive : Predictive noFaults size varDecls (Each VarDeclSpelled) :=
  .each (fun kind => kind.isType = true) varDecls.eq_def varDecl_predictive

theorem nameStmt_predictive : Predictive noFaults size nameStmt StmtSpelled := by
  refine identifier_predictive.andThenSpan (g := fun a name s₁ =>
    if s₁.kind = .punct .lparen then
      (call name s₁).lax.andThen fun called s₂ _ =>
      (s₂.punct .semi).lax.andThen fun stop s₃ _ =>
      .done (Stmt.call called (a.merge stop)) s₃
    else
      (location name s₁).andThen fun target s₂ _ =>
      s₂.assignOp.lax.andThen fun op s₃ _ =>
      (expression s₃).lax.andThen fun value s₄ _ =>
      (s₄.punct .semi).lax.andThen fun stop s₅ _ =>
      .done (Stmt.assign target op value (a.merge stop)) s₅) ?_
  rintro a name _ ⟨⟩ hstart
  obtain rfl := hstart _ rfl
  refine .ite (· = .punct .lparen) ?_ ?_
  · refine (call_predictive expression_predictive name).lax.andThen fun called ts hcalled => ?_
    refine (punct_predictive .semi).lax.andThen ?_
    rintro b _ rfl
    exact .done (.call b hcalled)
  · refine (location_predictive expression_predictive name).andThen fun target ts htarget => ?_
    refine assignOp_predictive.lax.andThen ?_
    rintro op _ ⟨a, rfl⟩
    refine expression_predictive.lax.andThen fun value us hvalue => ?_
    refine (punct_predictive .semi).lax.andThen ?_
    rintro b _ rfl
    exact .done (.assign op a b htarget hvalue)

def ReturnSpelled (ts : List Token) : Option Expr → Prop
  | none => ts = []
  | some e => ExprSpelled ts e

theorem returnValue_predictive : Predictive noFaults size returnValue ReturnSpelled := by
  refine .ite (· = .punct .semi) (.done rfl) (.lax ?_)
  exact expression_predictive.map fun ts e he => he

theorem jump_predictive (word : Keyword) (make : Span → Stmt)
    (hmake : ∀ a b, StmtSpelled [⟨.keyword word, a⟩, ⟨.punct .semi, b⟩] (make (a.merge b))) :
    Predictive noFaults size (jump word make) StmtSpelled := by
  refine (keyword_predictive word).andThen ?_
  rintro a _ rfl
  refine (punct_predictive .semi).lax.andThen ?_
  rintro b _ rfl
  exact .done (hmake a b)

theorem returnStmt_predictive :
    Predictive noFaults size (fun s =>
      (s.keyword .returnStmt).andThen fun start s₁ _ =>
      (returnValue s₁).andThen fun value s₂ _ =>
      (s₂.punct .semi).lax.andThen fun stop s₃ _ =>
      .done (.returnFrom value (start.merge stop)) s₃) StmtSpelled := by
  refine (keyword_predictive .returnStmt).andThen ?_
  rintro a _ rfl
  refine returnValue_predictive.andThen fun value ts hvalue => ?_
  refine (punct_predictive .semi).lax.andThen ?_
  rintro b _ rfl
  cases value with
  | none =>
    obtain rfl : ts = [] := hvalue
    exact .done (.returnNothing a b)
  | some e => exact .done (.returnValue a b hvalue)

theorem calloutStmt_predictive :
    Predictive noFaults size (fun s =>
      (callout s).andThen fun called s₁ _ =>
      (s₁.punct .semi).lax.andThen fun stop s₂ _ =>
      .done (.call called (s.span.merge stop)) s₂) StmtSpelled := by
  have hcallout : Predictive noFaults size callout CallSpelled :=
    (callout_predictive expression_predictive).weaken (Nat.le_succ size)
  refine hcallout.andThenSpan (g := fun a called s₁ =>
    (s₁.punct .semi).lax.andThen fun stop s₂ _ =>
    .done (Stmt.call called (a.merge stop)) s₂) ?_
  intro a called ts hcalled hstart
  refine (punct_predictive .semi).lax.andThen ?_
  rintro b _ rfl
  cases ts with
  | nil => cases hcalled
  | cons t ts =>
    obtain rfl := hstart t rfl
    exact .done (.call b hcalled)

section Nested

variable (h : Predictive noFaults size block BlockSpelled)
include h

theorem ifStmt_predictive :
    Predictive noFaults size (fun s =>
      (s.keyword .ifStmt).andThen fun start s₁ _ =>
      (s₁.punct .lparen).lax.andThen fun _ s₂ _ =>
      (expression s₂).lax.andThen fun condition s₃ _ =>
      (s₃.punct .rparen).lax.andThen fun _ s₄ _ =>
      (block s₄).lax.andThen fun thenBlock s₅ _ =>
      if s₅.kind = .keyword .elseBranch then
        (s₅.keyword .elseBranch).lax.andThen fun _ s₆ _ =>
        (block s₆).lax.andThen fun elseBlock s₇ _ =>
        .done (.ifElse condition thenBlock elseBlock (start.merge elseBlock.span)) s₇
      else
        .done (.ifThen condition thenBlock (start.merge thenBlock.span)) s₅) StmtSpelled := by
  refine (keyword_predictive .ifStmt).andThen ?_
  rintro a _ rfl
  refine (punct_predictive .lparen).lax.andThen ?_
  rintro b _ rfl
  refine expression_predictive.lax.andThen fun condition ts hcondition => ?_
  refine (punct_predictive .rparen).lax.andThen ?_
  rintro c _ rfl
  refine h.lax.andThen fun body us hbody => ?_
  refine .ite (· = .keyword .elseBranch) ?_ (.done ?_)
  · refine (keyword_predictive .elseBranch).lax.andThen ?_
    rintro d _ rfl
    exact h.lax.andThenDone fun vs other hother => .ifElse a b c d hcondition hbody hother
  · rw [List.append_nil]
    exact .ifThen a b c hcondition hbody

theorem forStmt_predictive :
    Predictive noFaults size (fun s =>
      (s.keyword .forStmt).andThen fun start s₁ _ =>
      s₁.identifier.lax.andThen fun var s₂ _ =>
      (s₂.punct .eq).lax.andThen fun _ s₃ _ =>
      (expression s₃).lax.andThen fun first s₄ _ =>
      (s₄.punct .comma).lax.andThen fun _ s₅ _ =>
      (expression s₅).lax.andThen fun last s₆ _ =>
      (block s₆).lax.andThen fun body s₇ _ =>
      .done (.forLoop var first last body (start.merge body.span)) s₇) StmtSpelled := by
  refine (keyword_predictive .forStmt).andThen ?_
  rintro a _ rfl
  refine identifier_predictive.lax.andThen ?_
  rintro var _ ⟨⟩
  refine (punct_predictive .eq).lax.andThen ?_
  rintro b _ rfl
  refine expression_predictive.lax.andThen fun first ts hfirst => ?_
  refine (punct_predictive .comma).lax.andThen ?_
  rintro c _ rfl
  refine expression_predictive.lax.andThen fun last us hlast => ?_
  refine h.lax.andThenDone fun vs body hbody => ?_
  have hloop := StmtSpelled.forLoop var a b c hfirst hlast hbody
  exact hloop

theorem statement_predictive : Predictive noFaults size statement StmtSpelled := by
  have hblock : Predictive noFaults size (fun s =>
      (block s).map fun inner => .block inner inner.span) StmtSpelled :=
    h.map fun ts inner hinner => .block hinner
  have hbreak : Predictive noFaults size (jump .breakStmt .breakLoop) StmtSpelled :=
    jump_predictive .breakStmt .breakLoop .breakLoop
  have hcontinue : Predictive noFaults size (jump .continueStmt .continueLoop) StmtSpelled :=
    jump_predictive .continueStmt .continueLoop .continueLoop
  have hpossible := hbreak.possible
  apply Predictive.byKind
  intro kind
  cases kind with
  | keyword word =>
    cases word with
    | ifStmt => exact ⟨_, fun s hs => by rw [statement, hs], ifStmt_predictive h⟩
    | forStmt => exact ⟨_, fun s hs => by rw [statement, hs], forStmt_predictive h⟩
    | returnStmt => exact ⟨_, fun s hs => by rw [statement, hs], returnStmt_predictive⟩
    | breakStmt => exact ⟨_, fun s hs => by rw [statement, hs], hbreak⟩
    | continueStmt => exact ⟨_, fun s hs => by rw [statement, hs], hcontinue⟩
    | callout => exact ⟨_, fun s hs => by rw [statement, hs], calloutStmt_predictive⟩
    | _ => exact ⟨_, fun s hs => by rw [statement, hs], .reject .statement hpossible⟩
  | punct mark =>
    cases mark with
    | lbrace => exact ⟨_, fun s hs => by rw [statement, hs], hblock⟩
    | _ => exact ⟨_, fun s hs => by rw [statement, hs], .reject .statement hpossible⟩
  | identifier text => exact ⟨_, fun s hs => by rw [statement, hs], nameStmt_predictive⟩
  | _ => exact ⟨_, fun s hs => by rw [statement, hs], .reject .statement hpossible⟩

end Nested

theorem statements_predictive (h : Predictive noFaults size statement StmtSpelled) :
    Predictive noFaults size statements (Each StmtSpelled) := by
  refine .each (fun kind => ¬ (kind = .punct .rbrace ∨ kind = .eof)) ?_ h
  intro s
  rw [statements, ite_not]

/-- Behind its first token a block has less to read. -/
theorem block_predictive : Predictive noFaults size block BlockSpelled := by
  induction size with
  | zero => exact .zero ⟨_, _, .mk .zero .zero .nil .nil⟩
  | succ size ih =>
    refine .of_eq block.eq_def ((punct_predictive .lbrace).andThenLess ?_)
    rintro a _ rfl
    refine varDecls_predictive.andThen fun locals ts hlocals => ?_
    refine (statements_predictive (statement_predictive ih)).andThen fun body us hbody => ?_
    refine (punct_predictive .rbrace).lax.andThen ?_
    rintro b _ rfl
    exact .done (.mk a b hlocals hbody)

end Statements

section Members

theorem fieldName_predictive (name : Name) :
    Predictive noFaults size (fieldName name) fun ts field =>
      FieldNameSpelled (⟨.identifier name.text, name.span⟩ :: ts) field := by
  refine .ite (· = .punct .lbracket) (.lax ?_) (.done (.scalar name.text name.span))
  refine (punct_predictive .lbracket).andThen ?_
  rintro a _ rfl
  refine arraySize_predictive.lax.andThen ?_
  rintro text _ ⟨kind, b, rfl, hk⟩
  refine (punct_predictive .rbracket).lax.andThen ?_
  rintro c _ rfl
  exact .done (.array name.text name.span a b c hk)

theorem fieldItem_predictive : Predictive noFaults size fieldItem FieldNameSpelled := by
  refine identifier_predictive.andThen ?_
  rintro name _ ⟨⟩
  exact fieldName_predictive name

theorem moreFieldNames_predictive :
    Predictive noFaults size moreFieldNames (Each (AfterComma FieldNameSpelled)) := by
  refine eachAfterComma_predictive ?_ fieldItem_predictive
  intro s
  rw [moreFieldNames]
  simp only [fieldItem, Reply.lax_andThen, Reply.andThen_assoc]

theorem fieldRest_predictive (a : Span) (type : ScalarType) (name : Name) :
    Predictive noFaults size (fieldRest a type name) fun ts decl =>
      FieldSpelled (⟨type.kind, a⟩ :: ⟨.identifier name.text, name.span⟩ :: ts) decl := by
  refine (fieldName_predictive name).andThenRead fun first ts hfirst => ?_
  refine moreFieldNames_predictive.andThenRead fun others us hothers => ?_
  refine (punct_predictive .semi).map ?_
  rintro _ b rfl
  exact .mk type a b hfirst hothers

theorem param_predictive : Predictive noFaults size param ParamSpelled := by
  refine typeName_predictive.andThenSpan (g := fun a type s₁ =>
    s₁.identifier.lax.andThen fun name s₂ _ =>
    Reply.done (Param.mk name.text type (a.merge name.span)) s₂) ?_
  rintro a type _ ⟨_, rfl⟩ hstart
  obtain rfl := hstart _ rfl
  refine identifier_predictive.lax.andThenDone ?_
  rintro _ name ⟨⟩
  exact .mk name.text type a name.span

theorem moreParams_predictive :
    Predictive noFaults size moreParams (Each (AfterComma ParamSpelled)) :=
  eachAfterComma_predictive moreParams.eq_def param_predictive

theorem params_predictive : Predictive noFaults size params (Separated ParamSpelled) := by
  refine .ite (· = .punct .rparen) (.done .none) (.lax ?_)
  refine param_predictive.andThen fun first ts hfirst => ?_
  exact moreParams_predictive.andThenDone fun us others hothers => .some hfirst hothers

theorem methodRest_predictive (a : Span) (result : Option ScalarType) (name : Name) :
    Predictive noFaults size (methodRest a result name) fun ts decl =>
      MethodSpelled (⟨resultKind result, a⟩ :: ⟨.identifier name.text, name.span⟩ :: ts)
        decl := by
  refine (punct_predictive .lparen).andThen ?_
  rintro b _ rfl
  refine params_predictive.andThen fun ps ts hparams => ?_
  refine (punct_predictive .rparen).lax.andThen ?_
  rintro c _ rfl
  exact block_predictive.lax.andThenDone fun us body hbody =>
    .mk name.text result a name.span b c hparams hbody

theorem memberType_predictive :
    Predictive late size memberType fun ts result => ∃ a, ts = [⟨resultKind result, a⟩] := by
  refine .ite (· = .keyword .void) ?_ ?_
  · exact (keyword_predictive .void).map fun ts a hts => ⟨a, hts⟩
  · exact typeName_predictive.map fun ts type hts => hts

/-- Members one behind the other, as the rule `members` finds them. -/
inductive MembersSpelled : Bool → List Token → Members → Prop
  | nil (after : Bool) : MembersSpelled after [] ⟨[], []⟩
  | method {ts us decl found} (after : Bool) : MethodSpelled ts decl →
      MembersSpelled true us found →
      MembersSpelled after (ts ++ us) ⟨found.fields, decl :: found.methods⟩
  | field {ts us decl found} : FieldSpelled ts decl → MembersSpelled false us found →
      MembersSpelled false (ts ++ us) ⟨decl :: found.fields, found.methods⟩

theorem MembersSpelled.split {after : Bool} {ts : List Token} {found : Members}
    (h : MembersSpelled after ts found) :
    ∃ us vs, ts = us ++ vs ∧ Each FieldSpelled us found.fields ∧
      Each MethodSpelled vs found.methods ∧ (after = true → found.fields = []) := by
  induction h with
  | nil after => exact ⟨[], [], rfl, .nil, .nil, fun _ => rfl⟩
  | @method ts us decl found after hdecl _ ih =>
    obtain ⟨fs, ms, rfl, hf, hm, hnone⟩ := ih
    have hfields : found.fields = [] := hnone rfl
    rw [hfields] at hf ⊢
    rw [each_nil hf, List.nil_append]
    exact ⟨[], ts ++ ms, rfl, .nil, .cons hdecl hm, fun _ => rfl⟩
  | @field ts us decl found hdecl _ ih =>
    obtain ⟨fs, ms, rfl, hf, hm, -⟩ := ih
    exact ⟨ts ++ fs, ms, (List.append_assoc _ _ _).symm, .cons hdecl hf, hm, nofun⟩

/-- A field without a type, or behind a method. The fault is found behind the name of the field and
reported at the first token of the field, which stands behind whole members. -/
inductive MemberFault (after : Bool) : LateFaults
  | voidField {before found} (name : String) (a b : Span) : MembersSpelled after before found →
      MemberFault after (before ++ [⟨.keyword .void, a⟩, ⟨.identifier name, b⟩]) (.voidField name) a
  | fieldAfterMethod {before found} (type : ScalarType) (name : String) (a b : Span) :
      MembersSpelled after before found → (after = true ∨ found.methods ≠ []) →
      MemberFault after (before ++ [⟨type.kind, a⟩, ⟨.identifier name, b⟩]) .fieldAfterMethod a

theorem MemberFault.behindMethod {ts front : List Token} {decl : MethodDecl} {fault : GrammarFault}
    {a : Span} (after : Bool) (hdecl : MethodSpelled ts decl)
    (h : MemberFault true front fault a) : MemberFault after (ts ++ front) fault a := by
  cases h with
  | voidField name a b hbefore =>
    rw [← List.append_assoc]
    exact .voidField name a b (.method after hdecl hbefore)
  | fieldAfterMethod type name a b hbefore _ =>
    rw [← List.append_assoc]
    exact .fieldAfterMethod type name a b (.method after hdecl hbefore)
      (.inr (List.cons_ne_nil _ _))

theorem MemberFault.behindField {ts front : List Token} {decl : FieldDecl} {fault : GrammarFault}
    {a : Span} (hdecl : FieldSpelled ts decl) (h : MemberFault false front fault a) :
    MemberFault false (ts ++ front) fault a := by
  cases h with
  | voidField name a b hbefore =>
    rw [← List.append_assoc]
    exact .voidField name a b (.field hdecl hbefore)
  | fieldAfterMethod type name a b hbefore hmethods =>
    rw [← List.append_assoc]
    exact .fieldAfterMethod type name a b (.field hdecl hbefore) hmethods

/-- The members from the one on whose type and name have been read. -/
def memberRest (after : Bool) (start : Span) (type : Option ScalarType) (name : Name)
    (s : TokenStream) : Reply Members (s.size + 1) :=
  if s.kind = .punct .lparen then
    (methodRest start type name s).lax.andThen fun decl s₁ _ =>
    (members true s₁).andThen fun others s₂ _ =>
    .done ⟨others.fields, decl :: others.methods⟩ s₂
  else
    match type with
    | none => .fail (.grammar (.voidField name.text) start) s
    | some type =>
      if after then .fail (.grammar .fieldAfterMethod start) s
      else
        (fieldRest start type name s).lax.andThen fun decl s₁ _ =>
        (members false s₁).andThen fun others s₂ _ =>
        .done ⟨decl :: others.fields, others.methods⟩ s₂

abbrev memberStart (type : Option ScalarType) (a : Span) (name : Name) : List Token :=
  [⟨resultKind type, a⟩, ⟨.identifier name.text, name.span⟩]

theorem memberRest_predictive
    (h : ∀ after, Predictive (MemberFault after) size (members after) (MembersSpelled after))
    (after : Bool) (a : Span) (type : Option ScalarType) (name : Name) :
    Predictive ((MemberFault after).behind (memberStart type a name)) size
      (memberRest after a type name)
      fun ts found => MembersSpelled after (memberStart type a name ++ ts) found := by
  have hmethod : Predictive ((MemberFault after).behind (memberStart type a name)) size
      (fun s => (methodRest a type name s).lax.andThen fun decl s₁ _ =>
        (members true s₁).andThen fun others s₂ _ =>
        .done ⟨others.fields, decl :: others.methods⟩ s₂)
      fun ts found => MembersSpelled after (memberStart type a name ++ ts) found := by
    refine (methodRest_predictive a type name).ofNoFaults.lax.andThen fun decl ts hdecl => ?_
    refine Predictive.andThenDone ((h true).withFaults ?_) ?_
    · intro front fault b hfault
      have hbehind := hfault.behindMethod after hdecl
      exact hbehind
    · intro us others hothers
      have hspelled := MembersSpelled.method after hdecl hothers
      exact hspelled
  refine .ite (· = .punct .lparen) hmethod ?_
  have hnothing := MembersSpelled.nil after
  cases type with
  | none => exact .fault (.voidField name.text a name.span hnothing) hmethod.possible
  | some type =>
    cases after with
    | true =>
      exact .fault (.fieldAfterMethod type name.text a name.span hnothing (.inl rfl))
        hmethod.possible
    | false =>
      refine (fieldRest_predictive a type name).ofNoFaults.lax.andThen fun decl ts hdecl => ?_
      refine Predictive.andThenDone ((h false).withFaults ?_) ?_
      · intro front fault b hfault
        have hbehind := hfault.behindField hdecl
        exact hbehind
      · intro us others hothers
        have hspelled := MembersSpelled.field hdecl hothers
        exact hspelled

theorem members_predictive (after : Bool) :
    Predictive (MemberFault after) size (members after) (MembersSpelled after) := by
  induction size generalizing after with
  | zero => exact .zero ⟨[], _, .nil after⟩
  | succ size ih =>
    refine .of_eq (members.eq_def after)
      (.ite (fun kind => kind = .punct .rbrace ∨ kind = .eof) (.done (.nil after)) (.lax ?_))
    refine memberType_predictive.andThenFrom (g := fun a type s₁ =>
      s₁.identifier.lax.andThen fun name s₂ _ => memberRest after a type name s₂)
      (fun _ _ _ _ hlt _ hgives => Nat.lt_of_lt_of_le hgives.shorter (Nat.le_of_lt_succ hlt)) ?_
    rintro a type _ ⟨_, rfl⟩ hstart
    obtain rfl := hstart _ rfl
    refine identifier_predictive.lax.andThen ?_
    rintro name _ ⟨⟩
    exact memberRest_predictive ih after a type name

/-- The faults of a class that are found behind a name, as `MemberFault` says: the class could have
ended in front of the field. -/
inductive ProgramFault : LateFaults
  | voidField {before p} (name : String) (a b c : Span) :
      ProgramSpelled (before ++ [⟨.punct .rbrace, c⟩]) p →
      ProgramFault (before ++ [⟨.keyword .void, a⟩, ⟨.identifier name, b⟩]) (.voidField name) a
  | fieldAfterMethod {before p} (type : ScalarType) (name : String) (a b c : Span) :
      ProgramSpelled (before ++ [⟨.punct .rbrace, c⟩]) p → p.methods ≠ [] →
      ProgramFault (before ++ [⟨type.kind, a⟩, ⟨.identifier name, b⟩]) .fieldAfterMethod a

theorem MembersSpelled.program {ts : List Token} {found : Members}
    (h : MembersSpelled false ts found) (name : String) (a b c d : Span) :
    ProgramSpelled (⟨.keyword .classDecl, a⟩ :: ⟨.identifier name, b⟩ :: ⟨.punct .lbrace, c⟩ ::
        (ts ++ [⟨.punct .rbrace, d⟩]))
      ⟨name, found.fields, found.methods, a.merge d, d.line⟩ := by
  obtain ⟨us, vs, rfl, hf, hm, -⟩ := h.split
  rw [List.append_assoc]
  exact .mk name a b c d hf hm

theorem MemberFault.program {front : List Token} {fault : GrammarFault} {at_ : Span}
    (h : MemberFault false front fault at_) (name : String) (a b c : Span) :
    ProgramFault (⟨.keyword .classDecl, a⟩ :: ⟨.identifier name, b⟩ :: ⟨.punct .lbrace, c⟩ :: front)
      fault at_ := by
  cases h with
  | @voidField before found field x y hbefore =>
    have hclass := hbefore.program name a b c .zero
    simp only [← List.cons_append] at hclass ⊢
    exact .voidField field at_ y .zero hclass
  | @fieldAfterMethod before found type field x y hbefore hmethods =>
    have hclass := hbefore.program name a b c .zero
    simp only [← List.cons_append] at hclass ⊢
    exact .fieldAfterMethod type field at_ y .zero hclass (hmethods.resolve_left nofun)

theorem program_predictive : Predictive ProgramFault size program ProgramSpelled := by
  refine (keyword_predictive .classDecl).andThen ?_
  rintro a _ rfl
  refine identifier_predictive.lax.andThen ?_
  rintro name _ ⟨⟩
  refine (punct_predictive .lbrace).lax.andThen ?_
  rintro b _ rfl
  refine ((members_predictive false).withFaults ?_).andThen fun found ts hfound => ?_
  · intro front fault c hfault
    exact hfault.program name.text a name.span b
  · refine (punct_predictive .rbrace).lax.andThen ?_
    rintro c _ rfl
    have hclass := hfound.program name.text a name.span b c
    exact .ite (· = .eof) (.done hclass) (.reject .endOfFile ⟨[], _, hclass⟩)

end Members

end Decaf.Parser
