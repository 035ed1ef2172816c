import Decaf.Proofs.Reading

namespace Decaf

inductive Ending (α : Type) where
  | ok (value : α) (next : TokenStream)
  | fail (error : ParseError) (next : TokenStream)

namespace Ending

variable {α β γ : Type}

def andThen : Ending α → (α → TokenStream → Ending β) → Ending β
  | ok value next, f => f value next
  | fail error next, _ => fail error next

def result : Ending α → Except ParseError α
  | ok value _ => .ok value
  | fail error _ => .error error

@[simp]
theorem ok_andThen (value : α) (s : TokenStream) (f : α → TokenStream → Ending β) :
    (ok value s).andThen f = f value s := rfl

@[simp]
theorem fail_andThen (error : ParseError) (s : TokenStream) (f : α → TokenStream → Ending β) :
    (fail error s).andThen f = fail error s := rfl

theorem andThen_assoc (e : Ending α) (f : α → TokenStream → Ending β)
    (g : β → TokenStream → Ending γ) :
    (e.andThen f).andThen g = e.andThen fun value s => (f value s).andThen g := by
  cases e <;> rfl

theorem andThen_ok (e : Ending α) : e.andThen ok = e := by cases e <;> rfl

end Ending

namespace Reply

variable {α β : Type} {n : Nat}

def ending : Reply α n → Ending α
  | .ok value next _ => .ok value next
  | .fail error next => .fail error next

theorem gives_of_ending {r : Reply α n} {value : α} {next : TokenStream}
    (h : r.ending = .ok value next) : r.Gives value next := by
  cases r with
  | fail error s => cases h
  | ok u s shorter =>
    cases h
    exact ⟨shorter, rfl⟩

@[simp]
theorem ending_done (value : α) (s : TokenStream) : (done value s).ending = .ok value s := rfl

@[simp]
theorem ending_fail (error : ParseError) (s : TokenStream) :
    (fail error s : Reply α n).ending = .fail error s := rfl

@[simp]
theorem ending_reject (s : TokenStream) (wanted : Expectation) :
    (s.reject wanted : Reply α n).ending =
      .fail (.grammar (.unexpected wanted s.kind) s.span) s := rfl

@[simp]
theorem ending_ite (c : Prop) [Decidable c] (p q : Reply α n) :
    (if c then p else q).ending = if c then p.ending else q.ending :=
  apply_ite ending c p q

@[simp]
theorem ending_lax (r : Reply α n) : r.lax.ending = r.ending := by cases r <;> rfl

@[simp]
theorem ending_map (f : α → β) (r : Reply α n) :
    (r.map f).ending = r.ending.andThen fun value s => .ok (f value) s := by
  cases r <;> rfl

@[simp]
theorem ending_andThen (r : Reply α n) (f : α → (s : TokenStream) → Reply β (s.size + 1)) :
    (r.andThen fun value s _ => f value s).ending =
      r.ending.andThen fun value s => (f value s).ending := by
  cases r with
  | fail error s => rfl
  | ok value s shorter =>
    rw [ending, Ending.ok_andThen, andThen]
    cases f value s <;> rfl

@[simp]
theorem ending_andThenRead (r : Reply α (n + 1)) (f : α → (s : TokenStream) → Reply β s.size) :
    (r.andThenRead fun value s _ => f value s).ending =
      r.ending.andThen fun value s => (f value s).ending := by
  cases r with
  | fail error s => rfl
  | ok value s shorter =>
    rw [ending, Ending.ok_andThen, andThenRead]
    cases f value s <;> rfl

end Reply

namespace Descent

/-- The rules of the grammar, by what they read. -/
inductive Rule : Type → Type
  | expression : Rule Expr
  | binary (level : Nat) : Rule Expr
  | operators (below : Nat) (left : Expr) : Rule Expr
  | unary : Rule Expr
  | primary : Rule Expr
  | location (name : Name) : Rule Location
  | call (name : Name) : Rule Call
  | arguments : Rule (List Expr)
  | moreArguments : Rule (List Expr)
  | callout : Rule Call
  | calloutArguments : Rule (List CalloutArg)
  | calloutArgument : Rule CalloutArg
  | moreNames : Rule (List Name)
  | varDecl : Rule VarDecl
  | varDecls : Rule (List VarDecl)
  | nameStmt : Rule Stmt
  | returnValue : Rule (Option Expr)
  | jump (word : Keyword) (make : Span → Stmt) : Rule Stmt
  | block : Rule Block
  | statements : Rule (List Stmt)
  | statement : Rule Stmt
  | fieldName (name : Name) : Rule FieldName
  | moreFieldNames : Rule (List FieldName)
  | fieldRest (start : Span) (type : ScalarType) (name : Name) : Rule FieldDecl
  | param : Rule Param
  | moreParams : Rule (List Param)
  | params : Rule (List Param)
  | methodRest (start : Span) (returnType : Option ScalarType) (name : Name) : Rule MethodDecl
  | memberType : Rule (Option ScalarType)
  | members (afterMethod : Bool) : Rule Parser.Members
  | program : Rule Program

/-- What a rule does, one step after the other. -/
inductive Script (α : Type) : Type 1
  | done (value : α)
  | fail (fault : GrammarFault) (span : Span)
  | looking (next : Token → Script α)
  | taking (next : Token → Script α)
  | following {β : Type} (rule : Rule β) (next : β → Script α)

namespace Script

variable {α β : Type}

def bind : Script α → (α → Script β) → Script β
  | done value, f => f value
  | fail fault span, _ => fail fault span
  | looking next, f => looking fun token => (next token).bind f
  | taking next, f => taking fun token => (next token).bind f
  | following rule next, f => following rule fun value => (next value).bind f

instance : Monad Script where
  pure := done
  bind := bind

def kind : Script TokenKind := looking fun token => done token.kind

def span : Script Span := looking fun token => done token.span

def take : Script Token := taking done

def follow (rule : Rule α) : Script α := following rule done

def reject (wanted : Expectation) : Script α := do
  let found ← kind
  fail (.unexpected wanted found) (← span)

def pick (choose : TokenKind → Option α) (wanted : Expectation) : Script (α × Span) := do
  match choose (← kind) with
  | some value =>
    let token ← take
    return (value, token.span)
  | none => reject wanted

def expect (wanted : TokenKind) : Script Span := do
  let found ← pick (fun kind => if kind = wanted then some () else none) (.token wanted)
  return found.2

def keyword (word : Keyword) : Script Span := expect (.keyword word)

def punct (mark : Punct) : Script Span := expect (.punct mark)

def identifier : Script Name := do
  let found ← pick TokenKind.identifier? .identifier
  return ⟨found.1, found.2⟩

def typeName : Script ScalarType := do
  let found ← pick ScalarType.ofKind? .typeName
  return found.1

def arraySize : Script String := do
  let found ← pick TokenKind.integer? .arraySize
  return found.1

def calloutName : Script String := do
  let found ← pick TokenKind.string? .calloutName
  return found.1

def assignOp : Script AssignOp := do
  let found ← pick AssignOp.ofKind? .assignmentOperator
  return found.1

def eachBehindComma (item : Script α) (others : Rule (List α)) : Script (List α) := do
  if (← kind) = .punct .comma then
    let _ ← punct .comma
    let first ← item
    let others ← follow others
    return first :: others
  else
    return []

/-- The members from a field on; one needs a type and may not follow a method. -/
def fieldMember (afterMethod : Bool) (start : Span) (type : Option ScalarType) (name : Name) :
    Script Parser.Members :=
  match type with
  | none => fail (.voidField name.text) start
  | some type =>
    if afterMethod then fail .fieldAfterMethod start
    else do
      let decl ← follow (.fieldRest start type name)
      let others ← follow (.members false)
      return ⟨decl :: others.fields, others.methods⟩

end Script

open Script in
def Rule.script : {α : Type} → Rule α → Script α
  | _, .expression => follow (.binary BinaryOp.loosest)
  | _, .binary 0 => follow .unary
  | _, .binary (below + 1) => do
    let left ← follow (.binary below)
    follow (.operators below left)
  | _, .operators below left => do
    match BinaryOp.atLevel? (below + 1) (← kind) with
    | none => return left
    | some op =>
      let _ ← punct op.mark
      let right ← follow (.binary below)
      follow (.operators below (.binary op left right (left.span.merge right.span)))
  | _, .unary => do
    match UnaryOp.ofKind? (← kind) with
    | none => follow .primary
    | some op =>
      let start ← punct op.mark
      let operand ← follow .unary
      return .unary op operand (start.merge operand.span)
  | _, .primary => do
    match ← kind with
    | .intLiteral _ | .hexLiteral _ =>
      let (text, span) ← pick TokenKind.integer? .expression
      return .int text span
    | .charLiteral _ =>
      let (text, span) ← pick TokenKind.char? .expression
      return .char text span
    | .keyword .trueLit => return .bool true (← keyword .trueLit)
    | .keyword .falseLit => return .bool false (← keyword .falseLit)
    | .keyword .callout =>
      let called ← follow .callout
      return .call called called.span
    | .identifier _ =>
      let name ← identifier
      if (← kind) = .punct .lparen then
        let called ← follow (.call name)
        return .call called called.span
      else
        let place ← follow (.location name)
        return .location place place.span
    | .punct .lparen =>
      let start ← punct .lparen
      let inner ← follow .expression
      let stop ← punct .rparen
      return .paren inner (start.merge stop)
    | _ => reject .expression
  | _, .location name => do
    if (← kind) = .punct .lbracket then
      let _ ← punct .lbracket
      let index ← follow .expression
      let stop ← punct .rbracket
      return .indexed name.text index (name.span.merge stop)
    else
      return .scalar name.text name.span
  | _, .call name => do
    let _ ← punct .lparen
    let args ← follow .arguments
    let stop ← punct .rparen
    return .method name.text args (name.span.merge stop)
  | _, .arguments => do
    if (← kind) = .punct .rparen then return []
    else
      let first ← follow .expression
      let others ← follow .moreArguments
      return first :: others
  | _, .moreArguments => eachBehindComma (follow .expression) .moreArguments
  | _, .callout => do
    let start ← keyword .callout
    let _ ← punct .lparen
    let name ← calloutName
    let args ← follow .calloutArguments
    let stop ← punct .rparen
    return .callout name args (start.merge stop)
  | _, .calloutArguments => eachBehindComma (follow .calloutArgument) .calloutArguments
  | _, .calloutArgument => do
    match ← kind with
    | .stringLiteral _ =>
      let found ← pick TokenKind.string? .expression
      return .string found.1
    | _ => return .expr (← follow .expression)
  | _, .moreNames => eachBehindComma identifier .moreNames
  | _, .varDecl => do
    let start ← span
    let type ← typeName
    let first ← identifier
    let others ← follow .moreNames
    let stop ← punct .semi
    return ⟨type, first :: others, start.merge stop⟩
  | _, .varDecls => do
    if (← kind).isType then
      let first ← follow .varDecl
      let others ← follow .varDecls
      return first :: others
    else
      return []
  | _, .nameStmt => do
    let start ← span
    let name ← identifier
    if (← kind) = .punct .lparen then
      let called ← follow (.call name)
      let stop ← punct .semi
      return .call called (start.merge stop)
    else
      let target ← follow (.location name)
      let op ← assignOp
      let value ← follow .expression
      let stop ← punct .semi
      return .assign target op value (start.merge stop)
  | _, .returnValue => do
    if (← kind) = .punct .semi then return none
    else return some (← follow .expression)
  | _, .jump word make => do
    let start ← keyword word
    let stop ← punct .semi
    return make (start.merge stop)
  | _, .block => do
    let start ← punct .lbrace
    let locals ← follow .varDecls
    let body ← follow .statements
    let stop ← punct .rbrace
    return .mk locals body (start.merge stop)
  | _, .statements => do
    let found ← kind
    if found = .punct .rbrace ∨ found = .eof then return []
    else
      let first ← follow .statement
      let others ← follow .statements
      return first :: others
  | _, .statement => do
    match ← kind with
    | .keyword .ifStmt =>
      let start ← keyword .ifStmt
      let _ ← punct .lparen
      let condition ← follow .expression
      let _ ← punct .rparen
      let thenBlock ← follow .block
      if (← kind) = .keyword .elseBranch then
        let _ ← keyword .elseBranch
        let elseBlock ← follow .block
        return .ifElse condition thenBlock elseBlock (start.merge elseBlock.span)
      else
        return .ifThen condition thenBlock (start.merge thenBlock.span)
    | .keyword .forStmt =>
      let start ← keyword .forStmt
      let var ← identifier
      let _ ← punct .eq
      let first ← follow .expression
      let _ ← punct .comma
      let last ← follow .expression
      let body ← follow .block
      return .forLoop var first last body (start.merge body.span)
    | .keyword .returnStmt =>
      let start ← keyword .returnStmt
      let value ← follow .returnValue
      let stop ← punct .semi
      return .returnFrom value (start.merge stop)
    | .keyword .breakStmt => follow (.jump .breakStmt .breakLoop)
    | .keyword .continueStmt => follow (.jump .continueStmt .continueLoop)
    | .punct .lbrace =>
      let inner ← follow .block
      return .block inner inner.span
    | .keyword .callout =>
      let start ← span
      let called ← follow .callout
      let stop ← punct .semi
      return .call called (start.merge stop)
    | .identifier _ => follow .nameStmt
    | _ => reject .statement
  | _, .fieldName name => do
    if (← kind) = .punct .lbracket then
      let _ ← punct .lbracket
      let size ← arraySize
      let stop ← punct .rbracket
      return ⟨name.text, some size, name.span.merge stop⟩
    else
      return ⟨name.text, none, name.span⟩
  | _, .moreFieldNames =>
    eachBehindComma (do follow (.fieldName (← identifier))) .moreFieldNames
  | _, .fieldRest start type name => do
    let first ← follow (.fieldName name)
    let others ← follow .moreFieldNames
    let stop ← punct .semi
    return ⟨type, first :: others, start.merge stop⟩
  | _, .param => do
    let start ← span
    let type ← typeName
    let name ← identifier
    return ⟨name.text, type, start.merge name.span⟩
  | _, .moreParams => eachBehindComma (follow .param) .moreParams
  | _, .params => do
    if (← kind) = .punct .rparen then return []
    else
      let first ← follow .param
      let others ← follow .moreParams
      return first :: others
  | _, .methodRest start returnType name => do
    let _ ← punct .lparen
    let params ← follow .params
    let _ ← punct .rparen
    let body ← follow .block
    return ⟨name.text, returnType, params, body, start.merge body.span⟩
  | _, .memberType => do
    if (← kind) = .keyword .void then
      let _ ← keyword .void
      return none
    else
      return some (← typeName)
  | _, .members afterMethod => do
    let found ← kind
    if found = .punct .rbrace ∨ found = .eof then return ⟨[], []⟩
    else
      let start ← span
      let type ← follow .memberType
      let name ← identifier
      if (← kind) = .punct .lparen then
        let decl ← follow (.methodRest start type name)
        let others ← follow (.members true)
        return ⟨others.fields, decl :: others.methods⟩
      else
        fieldMember afterMethod start type name
  | _, .program => do
    let start ← keyword .classDecl
    let name ← identifier
    let _ ← punct .lbrace
    let found ← follow (.members false)
    let stop ← punct .rbrace
    if (← kind) = .eof then
      return ⟨name.text, found.fields, found.methods, start.merge stop, stop.line⟩
    else
      reject .endOfFile

namespace Rule

/-- The rules that read something whenever they succeed. The others may be content with nothing. -/
def reads : {α : Type} → Rule α → Bool
  | _, .operators _ _ | _, .location _ | _, .arguments | _, .moreArguments | _, .calloutArguments
  | _, .moreNames | _, .varDecls | _, .returnValue | _, .statements | _, .fieldName _
  | _, .moreFieldNames | _, .moreParams | _, .params | _, .members _ => false
  | _, _ => true

def answer : {α : Type} → Rule α → TokenStream → Ending α
  | _, .expression, s => (Parser.expression s).ending
  | _, .binary level, s => (Parser.binary level s).ending
  | _, .operators below left, s => (Parser.operators below left s).ending
  | _, .unary, s => (Parser.unary s).ending
  | _, .primary, s => (Parser.primary s).ending
  | _, .location name, s => (Parser.location name s).ending
  | _, .call name, s => (Parser.call name s).ending
  | _, .arguments, s => (Parser.arguments s).ending
  | _, .moreArguments, s => (Parser.moreArguments s).ending
  | _, .callout, s => (Parser.callout s).ending
  | _, .calloutArguments, s => (Parser.calloutArguments s).ending
  | _, .calloutArgument, s => (Parser.calloutArgument s).ending
  | _, .moreNames, s => (Parser.moreNames s).ending
  | _, .varDecl, s => (Parser.varDecl s).ending
  | _, .varDecls, s => (Parser.varDecls s).ending
  | _, .nameStmt, s => (Parser.nameStmt s).ending
  | _, .returnValue, s => (Parser.returnValue s).ending
  | _, .jump word make, s => (Parser.jump word make s).ending
  | _, .block, s => (Parser.block s).ending
  | _, .statements, s => (Parser.statements s).ending
  | _, .statement, s => (Parser.statement s).ending
  | _, .fieldName name, s => (Parser.fieldName name s).ending
  | _, .moreFieldNames, s => (Parser.moreFieldNames s).ending
  | _, .fieldRest start type name, s => (Parser.fieldRest start type name s).ending
  | _, .param, s => (Parser.param s).ending
  | _, .moreParams, s => (Parser.moreParams s).ending
  | _, .params, s => (Parser.params s).ending
  | _, .methodRest start returnType name, s => (Parser.methodRest start returnType name s).ending
  | _, .memberType, s => (Parser.memberType s).ending
  | _, .members afterMethod, s => (Parser.members afterMethod s).ending
  | _, .program, s => (Parser.program s).ending

end Rule

end Descent

/-- Moves past the current token, be it the end of the text or not. -/
def TokenStream.pass (s : TokenStream) : Ending Token :=
  match s.rest with
  | [] => .ok s.current { s with current := ⟨.eof, s.textEnd⟩ }
  | .ok token :: rest => .ok s.current { s with current := token, rest }
  | .error e :: rest => .fail (.lexical e) { s with rest }

theorem TokenStream.ending_advance (s : TokenStream) (live : s.kind ≠ .eof) :
    (s.advance live).ending = s.pass.andThen fun token next => .ok token.span next := by
  obtain ⟨current, rest, textEnd⟩ := s
  cases rest with
  | nil => rfl
  | cons lexeme rest => cases lexeme <;> rfl

namespace Descent

namespace Script

variable {α β : Type}

/-- The outcome of a script if the rules it follows answer as they should. -/
def eval : Script α → TokenStream → Ending α
  | done value, s => .ok value s
  | fail fault span, s => .fail (.grammar fault span) s
  | looking next, s => (next s.current).eval s
  | taking next, s => s.pass.andThen fun token t => (next token).eval t
  | following rule next, s => (rule.answer s).andThen fun value t => (next value).eval t

section Steps

variable (s : TokenStream)

@[simp]
theorem eval_pure (value : α) : (pure value : Script α).eval s = .ok value s := rfl

@[simp]
theorem eval_fail (fault : GrammarFault) (span : Span) :
    (fail fault span : Script α).eval s = .fail (.grammar fault span) s := rfl

@[simp]
theorem eval_bind (p : Script α) (f : α → Script β) :
    (p >>= f).eval s = (p.eval s).andThen fun value t => (f value).eval t := by
  change (p.bind f).eval s = _
  induction p generalizing s with
  | done value => rfl
  | fail fault span => rfl
  | looking next ih => exact ih s.current s
  | taking next ih =>
    rw [bind, eval, eval, Ending.andThen_assoc]
    simp only [ih]
  | following rule next ih =>
    rw [bind, eval, eval, Ending.andThen_assoc]
    simp only [ih]

@[simp]
theorem eval_kind : kind.eval s = .ok s.kind s := rfl

@[simp]
theorem eval_span : span.eval s = .ok s.span s := rfl

@[simp]
theorem eval_take : take.eval s = s.pass := s.pass.andThen_ok

@[simp]
theorem eval_follow (rule : Rule α) : (follow rule).eval s = rule.answer s :=
  (rule.answer s).andThen_ok

@[simp]
theorem eval_reject (wanted : Expectation) :
    (reject wanted : Script α).eval s = .fail (.grammar (.unexpected wanted s.kind) s.span) s := rfl

theorem eval_pick {choose : TokenKind → Option α} (h : choose .eof = none)
    (wanted : Expectation) : (pick choose wanted).eval s = (s.pick choose wanted).ending := by
  rw [pick, eval_bind, eval_kind, Ending.ok_andThen, TokenStream.pick]
  by_cases hlive : s.kind ≠ .eof
  · rw [dif_pos hlive]
    cases choose s.kind with
    | none => rfl
    | some value =>
      simp only [eval_bind, eval_take, eval_pure, Reply.ending_map, s.ending_advance,
        Ending.andThen_assoc, Ending.ok_andThen]
  · rw [dif_neg hlive, Decidable.not_not.1 hlive, h]
    rfl

theorem eval_expect {wanted : TokenKind} (h : wanted ≠ .eof) :
    (expect wanted).eval s = (s.expect wanted).ending := by
  rw [expect, eval_bind, eval_pick s (if_neg h.symm), TokenStream.expect, Reply.ending_map]
  rfl

@[simp]
theorem eval_keyword (word : Keyword) : (keyword word).eval s = (s.keyword word).ending :=
  eval_expect s nofun

@[simp]
theorem eval_punct (mark : Punct) : (punct mark).eval s = (s.punct mark).ending :=
  eval_expect s nofun

@[simp]
theorem eval_identifier : identifier.eval s = s.identifier.ending := by
  rw [identifier, eval_bind, eval_pick s rfl, TokenStream.identifier, Reply.ending_map]
  rfl

@[simp]
theorem eval_typeName : typeName.eval s = s.typeName.ending := by
  rw [typeName, eval_bind, eval_pick s rfl, TokenStream.typeName, Reply.ending_map]
  rfl

@[simp]
theorem eval_arraySize : arraySize.eval s = s.arraySize.ending := by
  rw [arraySize, eval_bind, eval_pick s rfl, TokenStream.arraySize, Reply.ending_map]
  rfl

@[simp]
theorem eval_calloutName : calloutName.eval s = s.calloutName.ending := by
  rw [calloutName, eval_bind, eval_pick s rfl, TokenStream.calloutName, Reply.ending_map]
  rfl

@[simp]
theorem eval_assignOp : assignOp.eval s = s.assignOp.ending := by
  rw [assignOp, eval_bind, eval_pick s rfl, TokenStream.assignOp, Reply.ending_map]
  rfl

@[simp]
theorem eval_ite (c : Prop) [Decidable c] (p q : Script α) :
    (if c then p else q).eval s = if c then p.eval s else q.eval s :=
  apply_ite (fun p => p.eval s) c p q

end Steps

end Script

open Script in
theorem Rule.eval_script {α : Type} (rule : Rule α) (s : TokenStream) :
    rule.script.eval s = rule.answer s := by
  cases rule with
  | expression =>
    rw [answer, Parser.expression]
    exact eval_follow s _
  | binary level =>
    rw [answer]
    cases level with
    | zero =>
      rw [Parser.binary]
      exact eval_follow s _
    | succ below =>
      rw [Parser.binary]
      simp [script, answer]
  | operators below left =>
    rw [answer, Parser.operators]
    simp only [script, eval_bind, eval_kind, Ending.ok_andThen]
    cases BinaryOp.atLevel? (below + 1) s.kind with
    | none => rfl
    | some op => simp [answer]
  | unary =>
    rw [answer, Parser.unary]
    simp only [script, eval_bind, eval_kind, Ending.ok_andThen]
    cases UnaryOp.ofKind? s.kind with
    | none => exact eval_follow s _
    | some op => simp [answer]
  | primary =>
    rw [answer, Parser.primary]
    simp only [script, eval_bind, eval_kind, Ending.ok_andThen]
    generalize s.kind = found
    cases found with
    | keyword word =>
      cases word with
      | trueLit | falseLit | callout => simp [answer]
      | _ => exact eval_reject s _
    | punct mark =>
      cases mark with
      | lparen => simp [answer]
      | _ => exact eval_reject s _
    | intLiteral text | hexLiteral text | charLiteral text =>
      rw [eval_bind, eval_pick s rfl, Reply.ending_map]
      rfl
    | identifier text => simp [answer]
    | _ => exact eval_reject s _
  | location name =>
    rw [answer, Parser.location]
    simp [script, answer]
  | call name =>
    rw [answer, Parser.call]
    simp [script, answer]
  | arguments =>
    rw [answer, Parser.arguments]
    simp [script, answer]
  | moreArguments =>
    rw [answer, Parser.moreArguments]
    simp [script, answer, eachBehindComma]
  | callout =>
    rw [answer, Parser.callout]
    simp [script, answer]
  | calloutArguments =>
    rw [answer, Parser.calloutArguments]
    simp [script, answer, eachBehindComma]
  | calloutArgument =>
    rw [answer, Parser.calloutArgument]
    simp only [script, eval_bind, eval_kind, Ending.ok_andThen]
    generalize s.kind = found
    cases found with
    | stringLiteral text =>
      rw [eval_bind, eval_pick s rfl, Reply.ending_map]
      rfl
    | _ => simp [answer]
  | moreNames =>
    rw [answer, Parser.moreNames]
    simp [script, answer, eachBehindComma]
  | varDecl => simp [script, answer, Parser.varDecl]
  | varDecls =>
    rw [answer, Parser.varDecls]
    simp [script, answer]
  | nameStmt => simp [script, answer, Parser.nameStmt]
  | returnValue => simp [script, answer, Parser.returnValue]
  | jump word make => simp [script, answer, Parser.jump]
  | block =>
    rw [answer, Parser.block]
    simp [script, answer]
  | statements =>
    rw [answer, Parser.statements]
    simp [script, answer]
  | statement =>
    rw [answer, Parser.statement]
    simp only [script, eval_bind, eval_kind, Ending.ok_andThen]
    generalize s.kind = found
    cases found with
    | keyword word =>
      cases word with
      | ifStmt | forStmt | returnStmt | breakStmt | continueStmt | callout => simp [answer]
      | _ => exact eval_reject s _
    | punct mark =>
      cases mark with
      | lbrace => simp [answer]
      | _ => exact eval_reject s _
    | identifier text => simp [answer]
    | _ => exact eval_reject s _
  | fieldName name => simp [script, answer, Parser.fieldName]
  | moreFieldNames =>
    rw [answer, Parser.moreFieldNames]
    simp [script, answer, eachBehindComma, Ending.andThen_assoc]
  | fieldRest start type name => simp [script, answer, Parser.fieldRest]
  | param => simp [script, answer, Parser.param]
  | moreParams =>
    rw [answer, Parser.moreParams]
    simp [script, answer, eachBehindComma]
  | params => simp [script, answer, Parser.params]
  | methodRest start returnType name => simp [script, answer, Parser.methodRest]
  | memberType => simp [script, answer, Parser.memberType]
  | members afterMethod =>
    rw [answer, Parser.members]
    simp only [script, answer, eval_bind, eval_kind, eval_span, eval_follow, eval_identifier,
      eval_ite, eval_pure, Ending.ok_andThen, Reply.ending_ite, Reply.ending_lax,
      Reply.ending_andThen, Reply.ending_done]
    cases (Parser.memberType s).ending with
    | fail error t => rfl
    | ok type t =>
      simp only [Ending.ok_andThen]
      cases t.identifier.ending with
      | fail error u => rfl
      | ok name u => cases type <;> simp [fieldMember, answer]
  | program => simp [script, answer, Parser.program]

/-- The runs of scripts that come to an end. A rule that is followed runs its own script. -/
inductive Runs : {α : Type} → Script α → TokenStream → Ending α → Prop
  | done {α : Type} {value : α} {s : TokenStream} : Runs (.done value) s (.ok value s)
  | fail {α : Type} {fault : GrammarFault} {span : Span} {s : TokenStream} :
      Runs (.fail fault span : Script α) s (.fail (.grammar fault span) s)
  | looking {α : Type} {next : Token → Script α} {s : TokenStream} {ending : Ending α} :
      Runs (next s.current) s ending → Runs (.looking next) s ending
  | taking {α : Type} {next : Token → Script α} {s t : TokenStream} {token : Token}
      {ending : Ending α} : s.pass = .ok token t → Runs (next token) t ending →
      Runs (.taking next) s ending
  | unreadable {α : Type} {next : Token → Script α} {s t : TokenStream} {error : ParseError} :
      s.pass = .fail error t → Runs (.taking next) s (.fail error t)
  | following {α β : Type} {rule : Rule β} {next : β → Script α} {s t : TokenStream} {value : β}
      {ending : Ending α} : Runs rule.script s (.ok value t) → Runs (next value) t ending →
      Runs (.following rule next) s ending
  | failing {α β : Type} {rule : Rule β} {next : β → Script α} {s t : TokenStream}
      {error : ParseError} : Runs rule.script s (.fail error t) →
      Runs (.following rule next) s (.fail error t)

section Outcomes

variable {α : Type} {s : TokenStream} {ending : Ending α}

theorem Runs.eq_eval {p : Script α} (h : Runs p s ending) : ending = p.eval s := by
  induction h with
  | done | fail => rfl
  | looking _ ih => exact ih
  | taking hpass _ ih => rw [Script.eval, hpass, Ending.ok_andThen, ← ih]
  | unreadable hpass => rw [Script.eval, hpass, Ending.fail_andThen]
  | @following _ _ rule next s t value ending _ _ ihrule ih =>
    rw [Script.eval, ← rule.eval_script, ← ihrule, Ending.ok_andThen, ← ih]
  | @failing _ _ rule next s t error _ ihrule =>
    rw [Script.eval, ← rule.eval_script, ← ihrule, Ending.fail_andThen]

/-- A rule has no other run than the one to its answer. -/
theorem Runs.eq_answer {rule : Rule α} (h : Runs rule.script s ending) :
    ending = rule.answer s := by
  rw [← rule.eval_script, ← h.eq_eval]

end Outcomes

end Descent

end Decaf
