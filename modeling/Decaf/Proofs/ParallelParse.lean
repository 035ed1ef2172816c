import Decaf.Proofs.Termination
import Decaf.Proofs.Unparse
import Mathlib.Data.List.Forall2

namespace Decaf

/-- Tokens of one kind at corresponding places. -/
structure Token.Alike (ρ : Span → Span → Prop) (t u : Token) : Prop where
  kind : t.kind = u.kind
  span : ρ t.span u.span

inductive Lexeme.Alike (ρ : Span → Span → Prop) : Lexeme → Lexeme → Prop
  | token {t u : Token} : t.Alike ρ u → Alike ρ (.ok t) (.ok u)

/-- Streams without unreadable text that have the same kinds of tokens. -/
structure TokenStream.Alike (ρ : Span → Span → Prop) (s t : TokenStream) : Prop where
  current : s.current.Alike ρ t.current
  rest : List.Forall₂ (Lexeme.Alike ρ) s.rest t.rest
  textEnd : ρ s.textEnd t.textEnd

/-- Endings that agree on what `f` shows of their values, or on the fault. -/
inductive Ending.Alike (ρ : Span → Span → Prop) {α β : Type} (f : α → β) :
    Ending α → Ending α → Prop
  | ok {v w : α} {s t : TokenStream} : f v = f w → s.Alike ρ t → Alike ρ f (.ok v s) (.ok w t)
  | fail {fault : GrammarFault} {a b : Span} {s t : TokenStream} : ρ a b →
      Alike ρ f (.fail (.grammar fault a) s) (.fail (.grammar fault b) t)

theorem TokenStream.Alike.pass {ρ : Span → Span → Prop} {s t : TokenStream} (h : s.Alike ρ t) :
    ∃ token token' u v, s.pass = .ok token u ∧ t.pass = .ok token' v ∧ token.Alike ρ token' ∧
      u.Alike ρ v := by
  obtain ⟨current, rest, textEnd⟩ := s
  obtain ⟨current', rest', textEnd'⟩ := t
  obtain ⟨hcurrent, hrest, hend⟩ := h
  cases hrest with
  | nil => exact ⟨_, _, _, _, rfl, rfl, hcurrent, ⟨rfl, hend⟩, .nil, hend⟩
  | cons hfirst hothers =>
    cases hfirst with
    | token htoken => exact ⟨_, _, _, _, rfl, rfl, hcurrent, htoken, hothers, hend⟩

def Parser.Members.bare (found : Members) : Members :=
  ⟨found.fields.map FieldDecl.bare, found.methods.map MethodDecl.bare⟩

theorem Name.text_eq_of_bare {x y : Name} (h : x.bare = y.bare) : x.text = y.text := by
  have htext := congrArg Name.text h
  exact htext

theorem Stmt.bare_returnFrom (value : Option Expr) (a : Span) :
    (Stmt.returnFrom value a).bare = .returnFrom (value.map Expr.bare) .zero := by
  cases value <;> rfl

namespace Descent

/-- One rule, behind things that differ at most in spans, and what is compared of its values. -/
inductive Rule.Alike : {α : Type} → (α → α) → Rule α → Rule α → Prop
  | expression : Alike Expr.bare .expression .expression
  | binary {level : Nat} : Alike Expr.bare (.binary level) (.binary level)
  | operators {below : Nat} {left left' : Expr} : left.bare = left'.bare →
      Alike Expr.bare (.operators below left) (.operators below left')
  | unary : Alike Expr.bare .unary .unary
  | primary : Alike Expr.bare .primary .primary
  | location {name name' : Name} : name.bare = name'.bare →
      Alike Location.bare (.location name) (.location name')
  | call {name name' : Name} : name.bare = name'.bare →
      Alike Call.bare (.call name) (.call name')
  | arguments : Alike (List.map Expr.bare) .arguments .arguments
  | moreArguments : Alike (List.map Expr.bare) .moreArguments .moreArguments
  | callout : Alike Call.bare .callout .callout
  | calloutArguments : Alike (List.map CalloutArg.bare) .calloutArguments .calloutArguments
  | calloutArgument : Alike CalloutArg.bare .calloutArgument .calloutArgument
  | moreNames : Alike (List.map Name.bare) .moreNames .moreNames
  | varDecl : Alike VarDecl.bare .varDecl .varDecl
  | varDecls : Alike (List.map VarDecl.bare) .varDecls .varDecls
  | nameStmt : Alike Stmt.bare .nameStmt .nameStmt
  | returnValue : Alike (Option.map Expr.bare) .returnValue .returnValue
  | jump {word : Keyword} {make : Span → Stmt} : (∀ a b, (make a).bare = (make b).bare) →
      Alike Stmt.bare (.jump word make) (.jump word make)
  | block : Alike Block.bare .block .block
  | statements : Alike (List.map Stmt.bare) .statements .statements
  | statement : Alike Stmt.bare .statement .statement
  | fieldName {name name' : Name} : name.bare = name'.bare →
      Alike FieldName.bare (.fieldName name) (.fieldName name')
  | moreFieldNames : Alike (List.map FieldName.bare) .moreFieldNames .moreFieldNames
  | fieldRest {a b : Span} {type : ScalarType} {name name' : Name} : name.bare = name'.bare →
      Alike FieldDecl.bare (.fieldRest a type name) (.fieldRest b type name')
  | param : Alike Param.bare .param .param
  | moreParams : Alike (List.map Param.bare) .moreParams .moreParams
  | params : Alike (List.map Param.bare) .params .params
  | methodRest {a b : Span} {result : Option ScalarType} {name name' : Name} :
      name.bare = name'.bare →
      Alike MethodDecl.bare (.methodRest a result name) (.methodRest b result name')
  | memberType : Alike id .memberType .memberType
  | members {afterMethod : Bool} :
      Alike Parser.Members.bare (.members afterMethod) (.members afterMethod)
  | program : Alike Program.bare .program .program

/-- Scripts that go the same way at alike tokens, to values that agree on what `f` shows of them. -/
inductive Script.Alike (ρ : Span → Span → Prop) {α β : Type} (f : α → β) :
    Script α → Script α → Prop
  | done {v w : α} : f v = f w → Alike ρ f (.done v) (.done w)
  | fail {fault : GrammarFault} {a b : Span} : ρ a b → Alike ρ f (.fail fault a) (.fail fault b)
  | looking {p q : Token → Script α} :
      (∀ t u : Token, t.Alike ρ u → Alike ρ f (p t) (q u)) → Alike ρ f (.looking p) (.looking q)
  | taking {p q : Token → Script α} :
      (∀ t u : Token, t.Alike ρ u → Alike ρ f (p t) (q u)) → Alike ρ f (.taking p) (.taking q)
  | following {γ : Type} {g : γ → γ} {rule rule' : Rule γ} {p q : γ → Script α} :
      rule.Alike g rule' → (∀ v w, g v = g w → Alike ρ f (p v) (q w)) →
      Alike ρ f (.following rule p) (.following rule' q)

def unseen {α : Type} (_ : α) : Unit := ()

namespace Script.Alike

variable {α β γ δ : Type} {ρ : Span → Span → Prop} {f : α → β} {g : γ → δ}

theorem bind {p q : Script α} {k l : α → Script γ} (h : Script.Alike ρ f p q)
    (hkl : ∀ v w, f v = f w → Script.Alike ρ g (k v) (l w)) :
    Script.Alike ρ g (p >>= k) (q >>= l) := by
  induction h with
  | done hv => exact hkl _ _ hv
  | fail ha => exact .fail ha
  | looking _ ih => exact .looking ih
  | taking _ ih => exact .taking ih
  | following hrule _ ih => exact .following hrule ih

theorem bind_same {p q : Script α} {k l : α → Script γ} (h : Script.Alike ρ id p q)
    (hkl : ∀ v, Script.Alike ρ g (k v) (l v)) : Script.Alike ρ g (p >>= k) (q >>= l) := by
  apply h.bind
  rintro v w rfl
  exact hkl v

theorem kind : Script.Alike ρ id kind kind := .looking fun _ _ h => .done h.kind

theorem span_bind {k l : Span → Script α} (hkl : ∀ a b, ρ a b → Script.Alike ρ f (k a) (l b)) :
    Script.Alike ρ f (span >>= k) (span >>= l) := .looking fun _ _ h => hkl _ _ h.span

theorem reject (wanted : Expectation) : Script.Alike ρ f (reject wanted) (reject wanted) := by
  apply kind.bind_same
  intro found
  exact span_bind fun _ _ h => .fail h

theorem follow {f : α → α} {rule rule' : Rule α} (h : rule.Alike f rule') :
    Script.Alike ρ f (follow rule) (follow rule') :=
  .following h fun _ _ hv => .done hv

theorem pick (choose : TokenKind → Option α) (wanted : Expectation) :
    Script.Alike ρ Prod.fst (pick choose wanted) (pick choose wanted) := by
  apply kind.bind_same
  intro found
  cases choose found with
  | none => exact reject wanted
  | some value => exact .taking fun _ _ _ => .done rfl

theorem expect (wanted : TokenKind) : Script.Alike ρ unseen (expect wanted) (expect wanted) :=
  (pick _ _).bind fun _ _ _ => .done rfl

theorem keyword (word : Keyword) : Script.Alike ρ unseen (keyword word) (keyword word) :=
  expect _

theorem punct (mark : Punct) : Script.Alike ρ unseen (punct mark) (punct mark) :=
  expect _

theorem identifier : Script.Alike ρ Name.bare identifier identifier := by
  refine (pick _ _).bind fun v w hvw => .done ?_
  rw [Name.bare, Name.bare, hvw]

theorem picked (choose : TokenKind → Option α) (wanted : Expectation) :
    Script.Alike ρ id (do return (← Script.pick choose wanted).1)
      (do return (← Script.pick choose wanted).1) :=
  (pick choose wanted).bind fun _ _ h => .done h

theorem typeName : Script.Alike ρ id typeName typeName := picked _ _

theorem arraySize : Script.Alike ρ id arraySize arraySize := picked _ _

theorem calloutName : Script.Alike ρ id calloutName calloutName := picked _ _

theorem assignOp : Script.Alike ρ id assignOp assignOp := picked _ _

theorem ite {c : Prop} [Decidable c] {p q p' q' : Script α} (hp : Script.Alike ρ f p p')
    (hq : Script.Alike ρ f q q') :
    Script.Alike ρ f (if c then p else q) (if c then p' else q') := by
  split
  · exact hp
  · exact hq

theorem items {f : α → α} {item : Script α} {others : Rule (List α)}
    (hitem : Script.Alike ρ f item item) (hothers : others.Alike (List.map f) others) :
    Script.Alike ρ (List.map f) (do return (← item) :: (← Script.follow others))
      (do return (← item) :: (← Script.follow others)) := by
  refine hitem.bind fun v w hv => ?_
  refine (follow hothers).bind fun vs ws hvs => .done ?_
  rw [List.map_cons, List.map_cons, hv, hvs]

theorem eachBehindComma {f : α → α} {item : Script α} {others : Rule (List α)}
    (hitem : Script.Alike ρ f item item) (hothers : others.Alike (List.map f) others) :
    Script.Alike ρ (List.map f) (eachBehindComma item others) (eachBehindComma item others) := by
  refine kind.bind_same fun found => ite ?_ (.done rfl)
  exact (punct .comma).bind fun _ _ _ => items hitem hothers

theorem fieldMember (afterMethod : Bool) {a b : Span} (hab : ρ a b) (type : Option ScalarType)
    {name name' : Name} (hname : name.bare = name'.bare) :
    Script.Alike ρ Parser.Members.bare (fieldMember afterMethod a type name)
      (fieldMember afterMethod b type name') := by
  cases type with
  | none =>
    unfold Script.fieldMember
    rw [Name.text_eq_of_bare hname]
    exact .fail hab
  | some type =>
    refine ite (.fail hab) ?_
    refine (follow (.fieldRest hname)).bind fun decl decl' hdecl => ?_
    refine (follow .members).bind fun others others' hothers => .done ?_
    obtain ⟨hfields, hmethods⟩ := Parser.Members.mk.inj hothers
    rw [Parser.Members.bare, Parser.Members.bare, List.map_cons, List.map_cons, hdecl, hfields,
      hmethods]

theorem primary : Script.Alike ρ Expr.bare Rule.primary.script Rule.primary.script := by
  refine kind.bind_same fun found => ?_
  cases found with
  | intLiteral text | hexLiteral text | charLiteral text =>
    refine (pick _ _).bind fun v w hvw => .done ?_
    rw [Expr.bare, Expr.bare, hvw]
  | identifier text =>
    refine identifier.bind fun name name' hname => ?_
    refine kind.bind_same fun found => ite ?_ ?_
    · refine (follow (.call hname)).bind fun called called' hcalled => .done ?_
      rw [Expr.bare, Expr.bare, hcalled]
    · refine (follow (.location hname)).bind fun place place' hplace => .done ?_
      rw [Expr.bare, Expr.bare, hplace]
  | keyword word =>
    cases word with
    | trueLit | falseLit => exact (keyword _).bind fun _ _ _ => .done rfl
    | callout =>
      refine (follow .callout).bind fun called called' hcalled => .done ?_
      rw [Expr.bare, Expr.bare, hcalled]
    | _ => exact reject .expression
  | punct mark =>
    cases mark with
    | lparen =>
      refine (punct .lparen).bind fun _ _ _ => ?_
      refine (follow .expression).bind fun inner inner' hinner => ?_
      refine (punct .rparen).bind fun _ _ _ => .done ?_
      rw [Expr.bare, Expr.bare, hinner]
    | _ => exact reject .expression
  | _ => exact reject .expression

theorem statement : Script.Alike ρ Stmt.bare Rule.statement.script Rule.statement.script := by
  refine kind.bind_same fun found => ?_
  cases found with
  | keyword word =>
    cases word with
    | ifStmt =>
      refine (keyword .ifStmt).bind fun _ _ _ => ?_
      refine (punct .lparen).bind fun _ _ _ => ?_
      refine (follow .expression).bind fun condition condition' hcondition => ?_
      refine (punct .rparen).bind fun _ _ _ => ?_
      refine (follow .block).bind fun body body' hbody => ?_
      refine kind.bind_same fun found => ite ?_ (.done ?_)
      · refine (keyword .elseBranch).bind fun _ _ _ => ?_
        refine (follow .block).bind fun other other' hother => .done ?_
        rw [Stmt.bare, Stmt.bare, hcondition, hbody, hother]
      · rw [Stmt.bare, Stmt.bare, hcondition, hbody]
    | forStmt =>
      refine (keyword .forStmt).bind fun _ _ _ => ?_
      refine identifier.bind fun var var' hvar => ?_
      refine (punct .eq).bind fun _ _ _ => ?_
      refine (follow .expression).bind fun first first' hfirst => ?_
      refine (punct .comma).bind fun _ _ _ => ?_
      refine (follow .expression).bind fun last last' hlast => ?_
      refine (follow .block).bind fun body body' hbody => .done ?_
      rw [Stmt.bare, Stmt.bare, hvar, hfirst, hlast, hbody]
    | returnStmt =>
      refine (keyword .returnStmt).bind fun _ _ _ => ?_
      refine (follow .returnValue).bind fun value value' hvalue => ?_
      refine (punct .semi).bind fun _ _ _ => .done ?_
      rw [Stmt.bare_returnFrom, Stmt.bare_returnFrom, hvalue]
    | breakStmt | continueStmt => exact follow (.jump fun _ _ => rfl)
    | callout =>
      refine span_bind fun _ _ _ => ?_
      refine (follow .callout).bind fun called called' hcalled => ?_
      refine (punct .semi).bind fun _ _ _ => .done ?_
      rw [Stmt.bare, Stmt.bare, hcalled]
    | _ => exact reject .statement
  | punct mark =>
    cases mark with
    | lbrace =>
      refine (follow .block).bind fun inner inner' hinner => .done ?_
      rw [Stmt.bare, Stmt.bare, hinner]
    | _ => exact reject .statement
  | identifier text => exact follow .nameStmt
  | _ => exact reject .statement

end Script.Alike

open Script.Alike in
/-- Alike rules have alike scripts. -/
theorem Rule.Alike.script {ρ : Span → Span → Prop} {α : Type} {f : α → α} {rule rule' : Rule α}
    (h : rule.Alike f rule') : rule.script.Alike ρ f rule'.script := by
  cases h with
  | expression => exact follow .binary
  | @binary level =>
    cases level with
    | zero => exact follow .unary
    | succ below => exact (follow .binary).bind fun left left' hleft => follow (.operators hleft)
  | @operators below left left' hleft =>
    refine kind.bind_same fun found => ?_
    cases BinaryOp.atLevel? (below + 1) found with
    | none => exact .done hleft
    | some op =>
      refine (punct op.mark).bind fun _ _ _ => ?_
      refine (follow .binary).bind fun right right' hright => follow (.operators ?_)
      rw [Expr.bare, Expr.bare, hleft, hright]
  | unary =>
    refine kind.bind_same fun found => ?_
    cases UnaryOp.ofKind? found with
    | none => exact follow .primary
    | some op =>
      refine (punct op.mark).bind fun _ _ _ => ?_
      refine (follow .unary).bind fun operand operand' hoperand => .done ?_
      rw [Expr.bare, Expr.bare, hoperand]
  | primary => exact Script.Alike.primary
  | @location name name' hname =>
    refine kind.bind_same fun found => ite ?_ (.done ?_)
    · refine (punct .lbracket).bind fun _ _ _ => ?_
      refine (follow .expression).bind fun index index' hindex => ?_
      refine (punct .rbracket).bind fun _ _ _ => .done ?_
      rw [Location.bare, Location.bare, Name.text_eq_of_bare hname, hindex]
    · rw [Location.bare, Location.bare, Name.text_eq_of_bare hname]
  | @call name name' hname =>
    refine (punct .lparen).bind fun _ _ _ => ?_
    refine (follow .arguments).bind fun args args' hargs => ?_
    refine (punct .rparen).bind fun _ _ _ => .done ?_
    rw [Call.bare, Call.bare, Name.text_eq_of_bare hname, Expr.bareList_eq, Expr.bareList_eq, hargs]
  | arguments =>
    refine kind.bind_same fun found => ite (.done rfl) ?_
    exact items (follow .expression) .moreArguments
  | moreArguments => exact eachBehindComma (follow .expression) .moreArguments
  | callout =>
    refine (keyword .callout).bind fun _ _ _ => ?_
    refine (punct .lparen).bind fun _ _ _ => ?_
    refine calloutName.bind_same fun name => ?_
    refine (follow .calloutArguments).bind fun args args' hargs => ?_
    refine (punct .rparen).bind fun _ _ _ => .done ?_
    rw [Call.bare, Call.bare, CalloutArg.bareList_eq, CalloutArg.bareList_eq, hargs]
  | calloutArguments => exact eachBehindComma (follow .calloutArgument) .calloutArguments
  | calloutArgument =>
    have hexpr : Script.Alike ρ CalloutArg.bare
        (do return .expr (← Script.follow .expression))
        (do return .expr (← Script.follow .expression)) := by
      refine (follow .expression).bind fun value value' hvalue => .done ?_
      rw [CalloutArg.bare, CalloutArg.bare, hvalue]
    refine kind.bind_same fun found => ?_
    cases found with
    | stringLiteral text =>
      refine (pick _ _).bind fun v w hvw => .done ?_
      rw [hvw]
    | _ => exact hexpr
  | moreNames => exact eachBehindComma identifier .moreNames
  | varDecl =>
    refine span_bind fun _ _ _ => ?_
    refine typeName.bind_same fun type => ?_
    refine identifier.bind fun first first' hfirst => ?_
    refine (follow .moreNames).bind fun others others' hothers => ?_
    refine (punct .semi).bind fun _ _ _ => .done ?_
    rw [VarDecl.bare, VarDecl.bare, List.map_cons, List.map_cons, hfirst, hothers]
  | varDecls =>
    refine kind.bind_same fun found => ite ?_ (.done rfl)
    exact items (follow .varDecl) .varDecls
  | nameStmt =>
    refine span_bind fun _ _ _ => ?_
    refine identifier.bind fun name name' hname => ?_
    refine kind.bind_same fun found => ite ?_ ?_
    · refine (follow (.call hname)).bind fun called called' hcalled => ?_
      refine (punct .semi).bind fun _ _ _ => .done ?_
      rw [Stmt.bare, Stmt.bare, hcalled]
    · refine (follow (.location hname)).bind fun target target' htarget => ?_
      refine assignOp.bind_same fun op => ?_
      refine (follow .expression).bind fun value value' hvalue => ?_
      refine (punct .semi).bind fun _ _ _ => .done ?_
      rw [Stmt.bare, Stmt.bare, htarget, hvalue]
  | returnValue =>
    refine kind.bind_same fun found => ite (.done rfl) ?_
    refine (follow .expression).bind fun value value' hvalue => .done ?_
    rw [Option.map_some, Option.map_some, hvalue]
  | jump hmake =>
    refine (keyword _).bind fun _ _ _ => ?_
    exact (punct .semi).bind fun _ _ _ => .done (hmake _ _)
  | block =>
    refine (punct .lbrace).bind fun _ _ _ => ?_
    refine (follow .varDecls).bind fun locals locals' hlocals => ?_
    refine (follow .statements).bind fun body body' hbody => ?_
    refine (punct .rbrace).bind fun _ _ _ => .done ?_
    rw [Block.bare, Block.bare, Stmt.bareList_eq, Stmt.bareList_eq, hlocals, hbody]
  | statements =>
    refine kind.bind_same fun found => ite (.done rfl) ?_
    exact items (follow .statement) .statements
  | statement => exact Script.Alike.statement
  | @fieldName name name' hname =>
    refine kind.bind_same fun found => ite ?_ (.done ?_)
    · refine (punct .lbracket).bind fun _ _ _ => ?_
      refine arraySize.bind_same fun size => ?_
      refine (punct .rbracket).bind fun _ _ _ => .done ?_
      rw [FieldName.bare, FieldName.bare, Name.text_eq_of_bare hname]
    · rw [FieldName.bare, FieldName.bare, Name.text_eq_of_bare hname]
  | moreFieldNames =>
    exact eachBehindComma (identifier.bind fun _ _ hname => follow (.fieldName hname))
      .moreFieldNames
  | fieldRest hname =>
    refine (follow (.fieldName hname)).bind fun first first' hfirst => ?_
    refine (follow .moreFieldNames).bind fun others others' hothers => ?_
    refine (punct .semi).bind fun _ _ _ => .done ?_
    rw [FieldDecl.bare, FieldDecl.bare, List.map_cons, List.map_cons, hfirst, hothers]
  | param =>
    refine span_bind fun _ _ _ => ?_
    refine typeName.bind_same fun type => ?_
    refine identifier.bind fun name name' hname => .done ?_
    rw [Param.bare, Param.bare, Name.text_eq_of_bare hname]
  | moreParams => exact eachBehindComma (follow .param) .moreParams
  | params =>
    refine kind.bind_same fun found => ite (.done rfl) ?_
    exact items (follow .param) .moreParams
  | methodRest hname =>
    refine (punct .lparen).bind fun _ _ _ => ?_
    refine (follow .params).bind fun params params' hparams => ?_
    refine (punct .rparen).bind fun _ _ _ => ?_
    refine (follow .block).bind fun body body' hbody => .done ?_
    rw [MethodDecl.bare, MethodDecl.bare, Name.text_eq_of_bare hname, hparams, hbody]
  | memberType =>
    refine kind.bind_same fun found => ite ?_ ?_
    · exact (keyword .void).bind fun _ _ _ => .done rfl
    · exact typeName.bind_same fun type => .done rfl
  | @members afterMethod =>
    refine kind.bind_same fun found => ite (.done rfl) ?_
    refine span_bind fun a b hab => ?_
    refine (follow .memberType).bind_same fun type => ?_
    refine identifier.bind fun name name' hname => ?_
    refine kind.bind_same fun found => ite ?_ (fieldMember afterMethod hab type hname)
    refine (follow (.methodRest hname)).bind fun decl decl' hdecl => ?_
    refine (follow .members).bind fun others others' hothers => .done ?_
    obtain ⟨hfields, hmethods⟩ := Parser.Members.mk.inj hothers
    rw [Parser.Members.bare, Parser.Members.bare, List.map_cons, List.map_cons, hdecl, hfields,
      hmethods]
  | program =>
    refine (keyword .classDecl).bind fun _ _ _ => ?_
    refine identifier.bind fun name name' hname => ?_
    refine (punct .lbrace).bind fun _ _ _ => ?_
    refine (follow .members).bind fun found found' hfound => ?_
    refine (punct .rbrace).bind fun _ _ _ => ?_
    refine kind.bind_same fun kind => ite (.done ?_) (reject .endOfFile)
    obtain ⟨hfields, hmethods⟩ := Parser.Members.mk.inj hfound
    rw [Program.bare, Program.bare, Name.text_eq_of_bare hname, hfields, hmethods]

/-- What one script does on one stream, an alike script does on an alike stream. -/
theorem Runs.alike {ρ : Span → Span → Prop} {α β : Type} {f : α → β} {p q : Script α}
    {s t : TokenStream} {ending : Ending α} (hrun : Runs p s ending) (hpq : p.Alike ρ f q)
    (hst : s.Alike ρ t) : ∃ ending', Runs q t ending' ∧ ending.Alike ρ f ending' := by
  induction hrun generalizing β t with
  | done =>
    cases hpq with
    | done hv => exact ⟨_, .done, .ok hv hst⟩
  | fail =>
    cases hpq with
    | fail hab => exact ⟨_, .fail, .fail hab⟩
  | looking _ ih =>
    cases hpq with
    | looking hnext =>
      obtain ⟨ending', hrun', halike⟩ := ih (hnext _ _ hst.current) hst
      exact ⟨ending', .looking hrun', halike⟩
  | taking hpass _ ih =>
    cases hpq with
    | taking hnext =>
      obtain ⟨_, token', _, v, hu, hv, htoken, huv⟩ := hst.pass
      cases hpass.symm.trans hu
      obtain ⟨ending', hrun', halike⟩ := ih (hnext _ _ htoken) huv
      exact ⟨ending', .taking hv hrun', halike⟩
  | unreadable hpass =>
    obtain ⟨_, _, _, _, hu, -⟩ := hst.pass
    cases hpass.symm.trans hu
  | following _ _ ihrule ih =>
    cases hpq with
    | following hrule hnext =>
      obtain ⟨_, hrun', halike⟩ := ihrule hrule.script hst
      cases halike with
      | ok hv huv =>
        obtain ⟨ending', hrest, halike⟩ := ih (hnext _ _ hv) huv
        exact ⟨ending', .following hrun' hrest, halike⟩
  | failing _ ihrule =>
    cases hpq with
    | following hrule hnext =>
      obtain ⟨_, hrun', halike⟩ := ihrule hrule.script hst
      cases halike with
      | fail hab => exact ⟨_, .failing hrun', .fail hab⟩

theorem Rule.Alike.answer {ρ : Span → Span → Prop} {α : Type} {f : α → α} {rule rule' : Rule α}
    (h : rule.Alike f rule') {s t : TokenStream} (hst : s.Alike ρ t) :
    (rule.answer s).Alike ρ f (rule'.answer t) := by
  obtain ⟨ending, hrun, halike⟩ := (Rule.runs_script_iff.2 rfl : Runs rule.script s _).alike
    h.script hst
  rwa [← hrun.eq_answer]

end Descent

theorem TokenStream.Alike.parse {ρ : Span → Span → Prop} {s t : TokenStream} (h : s.Alike ρ t) :
    (∃ p q, s.parse.1 = .ok p ∧ t.parse.1 = .ok q ∧ p.bare = q.bare) ∨
      ∃ fault a b, s.parse.1 = .error (.grammar fault a) ∧
        t.parse.1 = .error (.grammar fault b) ∧ ρ a b := by
  rw [Descent.parse_eq_result, Descent.parse_eq_result]
  have halike := Descent.Rule.Alike.program.answer h
  generalize Descent.Rule.program.answer s = ending at halike ⊢
  generalize Descent.Rule.program.answer t = ending' at halike ⊢
  cases halike with
  | ok hbare _ => exact .inl ⟨_, _, rfl, rfl, hbare⟩
  | fail hab => exact .inr ⟨_, _, _, rfl, rfl, hab⟩

end Decaf
