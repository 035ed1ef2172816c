import Decaf.Parser.Stream

namespace Decaf.Parser

-- Each call reads a shorter input, or the same input by a rule further down. A token weighs more in
-- the measure than all the rules together.
mutual

def expression (s : TokenStream) : Reply Expr s.size := binary BinaryOp.loosest s
termination_by 16 * s.size + 10
decreasing_by simp [BinaryOp.loosest]

/-- Expressions whose binary operators have at most the given level. -/
def binary (level : Nat) (s : TokenStream) : Reply Expr s.size :=
  match level with
  | 0 => unary s
  | below + 1 => (binary below s).andThen fun left s₁ _ => operators below left s₁
termination_by 16 * s.size + level + 3

/-- The operators of level `below + 1` behind a left operand, each with its right operand. -/
def operators (below : Nat) (left : Expr) (s : TokenStream) : Reply Expr (s.size + 1) :=
  match BinaryOp.atLevel? (below + 1) s.kind with
  | none => .done left s
  | some op =>
    .lax <| (s.punct op.mark).andThen fun _ s₁ _ =>
    (binary below s₁).lax.andThen fun right s₂ _ =>
    operators below (.binary op left right (left.span.merge right.span)) s₂
termination_by 16 * s.size + below + 4

def unary (s : TokenStream) : Reply Expr s.size :=
  match UnaryOp.ofKind? s.kind with
  | none => primary s
  | some op =>
    (s.punct op.mark).andThen fun start s₁ _ =>
    (unary s₁).lax.andThen fun operand s₂ _ =>
    .done (.unary op operand (start.merge operand.span)) s₂
termination_by 16 * s.size + 2

def primary (s : TokenStream) : Reply Expr s.size :=
  match s.kind with
  | .intLiteral _ | .hexLiteral _ =>
    (s.pick TokenKind.integer? .expression).map fun t => .int t.1 t.2
  | .charLiteral _ => (s.pick TokenKind.char? .expression).map fun t => .char t.1 t.2
  | .keyword .trueLit => (s.keyword .trueLit).map (.bool true)
  | .keyword .falseLit => (s.keyword .falseLit).map (.bool false)
  | .keyword .callout => (callout s).map fun called => .call called called.span
  | .identifier _ =>
    s.identifier.andThen fun name s₁ _ =>
    if s₁.kind = .punct .lparen then
      ((call name s₁).map fun called => .call called called.span).lax
    else
      (location name s₁).map fun place => .location place place.span
  | .punct .lparen =>
    (s.punct .lparen).andThen fun start s₁ _ =>
    (expression s₁).lax.andThen fun inner s₂ _ =>
    (s₂.punct .rparen).lax.andThen fun stop s₃ _ =>
    .done (.paren inner (start.merge stop)) s₃
  | _ => s.reject .expression
termination_by 16 * s.size + 1

def location (name : Name) (s : TokenStream) : Reply Location (s.size + 1) :=
  if s.kind = .punct .lbracket then
    .lax <| (s.punct .lbracket).andThen fun _ s₁ _ =>
    (expression s₁).lax.andThen fun index s₂ _ =>
    (s₂.punct .rbracket).lax.andThen fun stop s₃ _ =>
    .done (.indexed name.text index (name.span.merge stop)) s₃
  else
    .done (.scalar name.text name.span) s
termination_by 16 * s.size

def call (name : Name) (s : TokenStream) : Reply Call s.size :=
  (s.punct .lparen).andThen fun _ s₁ _ =>
  (arguments s₁).andThen fun args s₂ _ =>
  (s₂.punct .rparen).lax.andThen fun stop s₃ _ =>
  .done (.method name.text args (name.span.merge stop)) s₃
termination_by 16 * s.size

def arguments (s : TokenStream) : Reply (List Expr) (s.size + 1) :=
  if s.kind = .punct .rparen then .done [] s
  else
    .lax <| (expression s).andThen fun first s₁ _ =>
    (moreArguments s₁).andThen fun others s₂ _ =>
    .done (first :: others) s₂
termination_by 16 * s.size + 11

def moreArguments (s : TokenStream) : Reply (List Expr) (s.size + 1) :=
  if s.kind = .punct .comma then
    .lax <| (s.punct .comma).andThen fun _ s₁ _ =>
    (expression s₁).lax.andThen fun first s₂ _ =>
    (moreArguments s₂).andThen fun others s₃ _ =>
    .done (first :: others) s₃
  else
    .done [] s
termination_by 16 * s.size

def callout (s : TokenStream) : Reply Call s.size :=
  (s.keyword .callout).andThen fun start s₁ _ =>
  (s₁.punct .lparen).lax.andThen fun _ s₂ _ =>
  s₂.calloutName.lax.andThen fun name s₃ _ =>
  (calloutArguments s₃).andThen fun args s₄ _ =>
  (s₄.punct .rparen).lax.andThen fun stop s₅ _ =>
  .done (.callout name args (start.merge stop)) s₅
termination_by 16 * s.size

def calloutArguments (s : TokenStream) : Reply (List CalloutArg) (s.size + 1) :=
  if s.kind = .punct .comma then
    .lax <| (s.punct .comma).andThen fun _ s₁ _ =>
    (calloutArgument s₁).lax.andThen fun first s₂ _ =>
    (calloutArguments s₂).andThen fun others s₃ _ =>
    .done (first :: others) s₃
  else
    .done [] s
termination_by 16 * s.size

def calloutArgument (s : TokenStream) : Reply CalloutArg s.size :=
  match s.kind with
  | .stringLiteral _ => (s.pick TokenKind.string? .expression).map fun t => .string t.1
  | _ => (expression s).map .expr
termination_by 16 * s.size + 11

end

end Decaf.Parser
