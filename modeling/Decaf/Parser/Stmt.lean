import Decaf.Parser.Expr

namespace Decaf.Parser

def moreNames (s : TokenStream) : Reply (List Name) (s.size + 1) :=
  if s.kind = .punct .comma then
    .lax <| (s.punct .comma).andThen fun _ s₁ _ =>
    s₁.identifier.lax.andThen fun first s₂ _ =>
    (moreNames s₂).andThen fun others s₃ _ =>
    .done (first :: others) s₃
  else
    .done [] s
termination_by s.size

def varDecl (s : TokenStream) : Reply VarDecl s.size :=
  s.typeName.andThen fun type s₁ _ =>
  s₁.identifier.lax.andThen fun first s₂ _ =>
  (moreNames s₂).andThen fun others s₃ _ =>
  (s₃.punct .semi).lax.andThen fun stop s₄ _ =>
  .done ⟨type, first :: others, s.span.merge stop⟩ s₄

def varDecls (s : TokenStream) : Reply (List VarDecl) (s.size + 1) :=
  if s.kind.isType then
    .lax <| (varDecl s).andThen fun first s₁ _ =>
    (varDecls s₁).andThen fun others s₂ _ =>
    .done (first :: others) s₂
  else
    .done [] s
termination_by s.size

/-- A statement that starts with a name: a call or an assignment. -/
def nameStmt (s : TokenStream) : Reply Stmt s.size :=
  s.identifier.andThen fun name s₁ _ =>
  if s₁.kind = .punct .lparen then
    (call name s₁).lax.andThen fun called s₂ _ =>
    (s₂.punct .semi).lax.andThen fun stop s₃ _ =>
    .done (.call called (s.span.merge stop)) s₃
  else
    (location name s₁).andThen fun target s₂ _ =>
    s₂.assignOp.lax.andThen fun op s₃ _ =>
    (expression s₃).lax.andThen fun value s₄ _ =>
    (s₄.punct .semi).lax.andThen fun stop s₅ _ =>
    .done (.assign target op value (s.span.merge stop)) s₅

def returnValue (s : TokenStream) : Reply (Option Expr) (s.size + 1) :=
  if s.kind = .punct .semi then .done none s
  else ((expression s).map some).lax

def jump (word : Keyword) (make : Span → Stmt) (s : TokenStream) : Reply Stmt s.size :=
  (s.keyword word).andThen fun start s₁ _ =>
  (s₁.punct .semi).lax.andThen fun stop s₂ _ =>
  .done (make (start.merge stop)) s₂

mutual

def block (s : TokenStream) : Reply Block s.size :=
  (s.punct .lbrace).andThen fun start s₁ _ =>
  (varDecls s₁).andThen fun locals s₂ _ =>
  (statements s₂).andThen fun body s₃ _ =>
  (s₃.punct .rbrace).lax.andThen fun stop s₄ _ =>
  .done (.mk locals body (start.merge stop)) s₄
termination_by 3 * s.size

def statements (s : TokenStream) : Reply (List Stmt) (s.size + 1) :=
  if s.kind = .punct .rbrace ∨ s.kind = .eof then .done [] s
  else
    .lax <| (statement s).andThen fun first s₁ _ =>
    (statements s₁).andThen fun others s₂ _ =>
    .done (first :: others) s₂
termination_by 3 * s.size + 2

def statement (s : TokenStream) : Reply Stmt s.size :=
  match s.kind with
  | .keyword .ifStmt =>
    (s.keyword .ifStmt).andThen fun start s₁ _ =>
    (s₁.punct .lparen).lax.andThen fun _ s₂ _ =>
    (expression s₂).lax.andThen fun condition s₃ _ =>
    (s₃.punct .rparen).lax.andThen fun _ s₄ _ =>
    (block s₄).lax.andThen fun thenBlock s₅ _ =>
    if s₅.kind = .keyword .elseBranch then
      (s₅.keyword .elseBranch).lax.andThen fun _ s₆ _ =>
      (block s₆).lax.andThen fun elseBlock s₇ _ =>
      .done (.ifElse condition thenBlock elseBlock (start.merge elseBlock.span)) s₇
    else
      .done (.ifThen condition thenBlock (start.merge thenBlock.span)) s₅
  | .keyword .forStmt =>
    (s.keyword .forStmt).andThen fun start s₁ _ =>
    s₁.identifier.lax.andThen fun var s₂ _ =>
    (s₂.punct .eq).lax.andThen fun _ s₃ _ =>
    (expression s₃).lax.andThen fun first s₄ _ =>
    (s₄.punct .comma).lax.andThen fun _ s₅ _ =>
    (expression s₅).lax.andThen fun last s₆ _ =>
    (block s₆).lax.andThen fun body s₇ _ =>
    .done (.forLoop var first last body (start.merge body.span)) s₇
  | .keyword .returnStmt =>
    (s.keyword .returnStmt).andThen fun start s₁ _ =>
    (returnValue s₁).andThen fun value s₂ _ =>
    (s₂.punct .semi).lax.andThen fun stop s₃ _ =>
    .done (.returnFrom value (start.merge stop)) s₃
  | .keyword .breakStmt => jump .breakStmt .breakLoop s
  | .keyword .continueStmt => jump .continueStmt .continueLoop s
  | .punct .lbrace => (block s).map fun inner => .block inner inner.span
  | .keyword .callout =>
    (callout s).andThen fun called s₁ _ =>
    (s₁.punct .semi).lax.andThen fun stop s₂ _ =>
    .done (.call called (s.span.merge stop)) s₂
  | .identifier _ => nameStmt s
  | _ => s.reject .statement
termination_by 3 * s.size + 1

end

end Decaf.Parser
