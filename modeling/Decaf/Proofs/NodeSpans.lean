import Decaf.Proofs.ParsedText
import Decaf.Proofs.TokenSpans

namespace Decaf

open Grammar

/-- The nodes of a tree that carry a span. -/
inductive Node where
  | program (p : Program)
  | field (decl : FieldDecl)
  | fieldName (f : FieldName)
  | method (decl : MethodDecl)
  | param (p : Param)
  | block (b : Block)
  | varDecl (decl : VarDecl)
  | name (n : Name)
  | stmt (s : Stmt)
  | location (place : Location)
  | call (called : Call)
  | expr (e : Expr)

namespace Node

def span : Node → Span
  | program p => p.span
  | field decl => decl.span
  | fieldName f => f.span
  | method decl => decl.span
  | param p => p.span
  | block b => b.span
  | varDecl decl => decl.span
  | name n => n.span
  | stmt s => s.span
  | location place => place.span
  | call called => called.span
  | expr e => e.span

def kinds : Node → List TokenKind
  | program p => p.kinds
  | field decl => decl.kinds
  | fieldName f => f.kinds
  | method decl => decl.kinds
  | param p => p.kinds
  | block b => b.kinds
  | varDecl decl => decl.kinds
  | name n => n.kinds
  | stmt s => s.kinds
  | location place => place.kinds
  | call called => called.kinds
  | expr e => e.kinds

/-- String literals carry no span of their own. -/
def ofCalloutArg : CalloutArg → List Node
  | .expr value => [expr value]
  | .string _ => []

def children : Node → List Node
  | program p => p.fields.map field ++ p.methods.map method
  | field decl => decl.names.map fieldName
  | fieldName _ => []
  | method decl => decl.params.map param ++ [block decl.body]
  | param _ => []
  | block b => b.locals.map varDecl ++ b.statements.map stmt
  | varDecl decl => decl.names.map name
  | name _ => []
  | stmt (.assign target _ value _) => [location target, expr value]
  | stmt (.call called _) => [call called]
  | stmt (.ifThen condition body _) => [expr condition, block body]
  | stmt (.ifElse condition body other _) => [expr condition, block body, block other]
  | stmt (.forLoop var first last body _) => [name var, expr first, expr last, block body]
  | stmt (.returnFrom value _) => value.toList.map expr
  | stmt (.breakLoop _) | stmt (.continueLoop _) => []
  | stmt (.block inner _) => [block inner]
  | location (.scalar _ _) => []
  | location (.indexed _ index _) => [expr index]
  | call (.method _ args _) => args.map expr
  | call (.callout _ args _) => args.flatMap ofCalloutArg
  | expr (.location place _) => [location place]
  | expr (.call called _) => [call called]
  | expr (.int _ _) | expr (.char _ _) | expr (.bool _ _) => []
  | expr (.unary _ operand _) => [expr operand]
  | expr (.binary _ left right _) => [expr left, expr right]
  | expr (.paren inner _) => [expr inner]

/-- A node somewhere in the tree below `root`, or `root` itself. -/
inductive Within (root : Node) : Node → Prop
  | root : Within root root
  | child {n c : Node} : Within root n → c ∈ n.children → Within root c

def Spelled (ts : List Token) : Node → Prop
  | program p => ProgramSpelled ts p
  | field decl => FieldSpelled ts decl
  | fieldName f => FieldNameSpelled ts f
  | method decl => MethodSpelled ts decl
  | param p => ParamSpelled ts p
  | block b => BlockSpelled ts b
  | varDecl decl => VarDeclSpelled ts decl
  | name n => NameSpelled ts n
  | stmt s => StmtSpelled ts s
  | location place => PlaceSpelled ts place
  | call called => CallSpelled ts called
  | expr e => ExprSpelled ts e

theorem Spelled.normalKinds_eq {ts : List Token} {n : Node} (h : n.Spelled ts) :
    normalKinds ts = n.kinds := by
  cases n with
  | program p => exact (program_written p ts h).1
  | field decl => exact (field_written decl ts h).1
  | fieldName f => exact (fieldName_written f ts h).1
  | method decl => exact (method_written decl ts h).1
  | param p => exact (param_written p ts h).1
  | block b => exact (block_written b ts h).1
  | varDecl decl => exact (varDecl_written decl ts h).1
  | name n => exact (name_written n ts h).1
  | stmt s => exact (stmt_written s ts h).1
  | location place => exact (place_written place ts h).1
  | call called => exact (call_written called ts h).1
  | expr e => exact (expr_written e ts h).1

end Node

/-- The span reaches from the first token to the last, and counts to the line of the first. -/
def Covers (ts : List Token) (a : Span) : Prop :=
  ∃ first last, ts.head? = some first ∧ ts.getLast? = some last ∧
    a.start = first.span.start ∧ a.stop = last.span.stop ∧ a.line = first.span.line

namespace Covers

variable {ts us mid all : List Token} {a b : Span}

theorem one (t : Token) : Covers [t] t.span := ⟨t, t, rfl, rfl, rfl, rfl, rfl⟩

theorem merge (ha : Covers ts a) (hb : Covers us b) (mid : List Token)
    (hall : all = ts ++ (mid ++ us)) (h : InOrder all) : Covers all (a.merge b) := by
  obtain ⟨first, mid₁, hfirst, hmid₁, hstart, hstop, hline⟩ := ha
  obtain ⟨mid₂, last, hmid₂, hlast, hstart', hstop', hline'⟩ := hb
  subst hall
  have hhead : (ts ++ (mid ++ us)).head? = some first := by
    rw [List.head?_append, hfirst, Option.some_or]
  have hend : (ts ++ (mid ++ us)).getLast? = some last := by
    rw [List.getLast?_append, List.getLast?_append, hlast, Option.some_or, Option.some_or]
  have hmem₁ : mid₁ ∈ ts ++ (mid ++ us) :=
    List.mem_append_left _ (List.mem_of_getLast? hmid₁)
  have hmem₂ : mid₂ ∈ ts ++ (mid ++ us) :=
    List.mem_append_right _ (List.mem_append_right _ (List.mem_of_head? hmid₂))
  have hle : a.start ≤ b.start := by
    rw [hstart, hstart']
    exact h.head_le hhead hmem₂
  have hle' : a.stop ≤ b.stop := by
    rw [hstop, hstop']
    exact h.le_last hend hmem₁
  refine ⟨first, last, hhead, hend, ?_, ?_, ?_⟩
  · rw [Span.merge, Nat.min_eq_left hle, hstart]
  · rw [Span.merge, Nat.max_eq_right hle', hstop']
  · rw [Span.merge, if_pos hle, hline]

end Covers

theorem covers_ends (t u : Token) (mid : List Token) {all : List Token}
    (hall : all = t :: (mid ++ [u])) (h : InOrder all) : Covers all (t.span.merge u.span) :=
  (Covers.one t).merge (.one u) mid hall h

theorem placeSpelled_covers {ts : List Token} {place : Location} (h : PlaceSpelled ts place)
    (hts : InOrder ts) : Covers ts place.span := by
  cases h with
  | scalar name a => exact .one ⟨.identifier name, a⟩
  | indexed name a b c _ => exact covers_ends ⟨_, a⟩ ⟨_, c⟩ (⟨_, b⟩ :: _) rfl hts

theorem callSpelled_covers {ts : List Token} {called : Call} (h : CallSpelled ts called)
    (hts : InOrder ts) : Covers ts called.span := by
  cases h with
  | method name a b c _ => exact covers_ends ⟨_, a⟩ ⟨_, c⟩ (⟨_, b⟩ :: _) rfl hts
  | callout name a b c d _ => exact covers_ends ⟨_, a⟩ ⟨_, d⟩ (⟨_, b⟩ :: ⟨_, c⟩ :: _) rfl hts

theorem exprSpelled_covers : (e : Expr) → (ts : List Token) → ExprSpelled ts e → InOrder ts →
    Covers ts e.span
  | .location place _, ts, h, hts => by
    cases h with
    | location hp => exact placeSpelled_covers hp hts
  | .call called _, ts, h, hts => by
    cases h with
    | call hc => exact callSpelled_covers hc hts
  | .int text a, ts, h, hts => by
    cases h with
    | int _ hk => exact .one ⟨_, a⟩
  | .char text a, ts, h, hts => by
    cases h
    exact .one ⟨_, a⟩
  | .bool value a, ts, h, hts => by
    cases h
    exact .one ⟨_, a⟩
  | .unary op operand _, ts, h, hts => by
    cases h with
    | @unary us _ _ a ho _ =>
      have hall : InOrder ([⟨.punct op.mark, a⟩] ++ us) := hts
      exact (Covers.one ⟨.punct op.mark, a⟩).merge
        (exprSpelled_covers operand us ho hall.append_right) [] rfl hts
  | .binary op left right _, ts, h, hts => by
    cases h with
    | @binary us vs _ _ _ a hl _ hr _ =>
      have hright : InOrder ([⟨.punct op.mark, a⟩] ++ vs) := hts.append_right
      exact (exprSpelled_covers left us hl hts.append_left).merge
        (exprSpelled_covers right vs hr hright.append_right) [⟨.punct op.mark, a⟩] rfl hts
  | .paren _ _, ts, h, hts => by
    cases h with
    | paren a b _ => exact covers_ends ⟨_, a⟩ ⟨_, b⟩ _ rfl hts

theorem blockSpelled_covers {ts : List Token} {b : Block} (h : BlockSpelled ts b)
    (hts : InOrder ts) : Covers ts b.span := by
  cases h with
  | @mk us vs locals body a b _ _ =>
    exact covers_ends ⟨_, a⟩ ⟨_, b⟩ (us ++ vs) (by rw [List.append_assoc]) hts

theorem covers_throughBlock (t : Token) (mid : List Token) {us all : List Token} {b : Block}
    (hb : BlockSpelled us b) (hall : all = t :: (mid ++ us)) (h : InOrder all) :
    Covers all (t.span.merge b.span) := by
  have hsplit : InOrder ((t :: mid) ++ us) := by
    rw [hall] at h
    exact h
  exact (Covers.one t).merge (blockSpelled_covers hb hsplit.append_right) mid hall h

theorem stmtSpelled_covers {ts : List Token} {stmt : Stmt} (h : StmtSpelled ts stmt)
    (hts : InOrder ts) : Covers ts stmt.span := by
  cases h with
  | @assign t us vs target value op a b _ _ =>
    exact covers_ends t ⟨.punct .semi, b⟩ (us ++ ⟨.punct op.mark, a⟩ :: vs) (by simp) hts
  | @call t us called a _ => exact covers_ends t ⟨_, a⟩ us rfl hts
  | @ifThen us vs condition body a b c _ hb =>
    exact covers_throughBlock ⟨.keyword .ifStmt, a⟩
      (⟨.punct .lparen, b⟩ :: (us ++ [⟨.punct .rparen, c⟩])) hb (by simp) hts
  | @ifElse us vs ws condition body other a b c d _ _ hother =>
    exact covers_throughBlock ⟨.keyword .ifStmt, a⟩
      (⟨.punct .lparen, b⟩ :: (us ++ ⟨.punct .rparen, c⟩ ::
        (vs ++ [⟨.keyword .elseBranch, d⟩]))) hother (by simp) hts
  | @forLoop us vs ws first last body var a b c _ _ hb =>
    exact covers_throughBlock ⟨.keyword .forStmt, a⟩
      (⟨.identifier var.text, var.span⟩ :: ⟨.punct .eq, b⟩ ::
        (us ++ ⟨.punct .comma, c⟩ :: vs)) hb (by simp) hts
  | returnNothing a b => exact covers_ends ⟨_, a⟩ ⟨_, b⟩ [] rfl hts
  | returnValue a b _ => exact covers_ends ⟨_, a⟩ ⟨_, b⟩ _ rfl hts
  | breakLoop a b => exact covers_ends ⟨_, a⟩ ⟨_, b⟩ [] rfl hts
  | continueLoop a b => exact covers_ends ⟨_, a⟩ ⟨_, b⟩ [] rfl hts
  | block hb => exact blockSpelled_covers hb hts

theorem Node.Spelled.covers {ts : List Token} {n : Node} (h : n.Spelled ts) (hts : InOrder ts) :
    Covers ts n.span := by
  cases n with
  | program p =>
    cases h with
    | @mk us vs fields methods name a b c d _ _ =>
      exact covers_ends ⟨.keyword .classDecl, a⟩ ⟨.punct .rbrace, d⟩
        (⟨.identifier name, b⟩ :: ⟨.punct .lbrace, c⟩ :: (us ++ vs)) (by simp) hts
  | field decl =>
    cases h with
    | @mk us vs first others type a b _ _ =>
      exact covers_ends ⟨type.kind, a⟩ ⟨.punct .semi, b⟩ (us ++ vs) (by simp) hts
  | fieldName f =>
    cases h with
    | scalar name a => exact .one ⟨_, a⟩
    | array name a b c d _ => exact covers_ends ⟨_, a⟩ ⟨_, d⟩ [⟨_, b⟩, ⟨_, c⟩] rfl hts
  | method decl =>
    cases h with
    | @mk us vs params body name result a b c d _ hb =>
      exact covers_throughBlock ⟨resultKind result, a⟩
        (⟨.identifier name, b⟩ :: ⟨.punct .lparen, c⟩ :: (us ++ [⟨.punct .rparen, d⟩])) hb
        (by simp) hts
  | param p =>
    cases h with
    | mk name type a b => exact covers_ends ⟨_, a⟩ ⟨_, b⟩ [] rfl hts
  | block b => exact blockSpelled_covers h hts
  | varDecl decl =>
    cases h with
    | mk type first a b _ => exact covers_ends ⟨_, a⟩ ⟨_, b⟩ (⟨_, first.span⟩ :: _) rfl hts
  | name n =>
    cases h
    exact .one ⟨_, n.span⟩
  | stmt s => exact stmtSpelled_covers h hts
  | location place => exact placeSpelled_covers h hts
  | call called => exact callSpelled_covers h hts
  | expr e => exact exprSpelled_covers e ts h hts

/-- Tokens in which the nodes are spelled one behind the other. Further tokens may stand in front
of each of them and behind the last. -/
inductive Segmented : List Token → List Node → Prop
  | nil (ts : List Token) : Segmented ts []
  | cons {n : Node} {seg rest : List Token} {ns : List Node} (gap : List Token) :
      n.Spelled seg → Segmented rest ns → Segmented (gap ++ (seg ++ rest)) (n :: ns)

namespace Segmented

variable {ts us : List Token} {n : Node} {ns ms : List Node}

theorem behind (gap : List Token) (h : Segmented ts ns) : Segmented (gap ++ ts) ns := by
  cases h with
  | nil => exact .nil _
  | cons gap' hn hrest =>
    rw [← List.append_assoc]
    exact .cons _ hn hrest

theorem append (h : Segmented ts ns) (h' : Segmented us ms) :
    Segmented (ts ++ us) (ns ++ ms) := by
  induction h with
  | nil ts => exact h'.behind ts
  | cons gap hn _ ih =>
    rw [List.append_assoc, List.append_assoc]
    exact .cons gap hn ih

theorem one (h : n.Spelled ts) : Segmented ts [n] := by
  have h' := Segmented.cons [] h (.nil [])
  rwa [List.append_nil] at h'

theorem expr {e : Expr} (h : ExprSpelled ts e) : Segmented ts [.expr e] := one h

theorem block {b : Block} (h : BlockSpelled ts b) : Segmented ts [.block b] := one h

theorem before (h : Segmented ts ns) (us : List Token) : Segmented (ts ++ us) ns := by
  have h' := h.append (.nil us)
  rwa [List.append_nil] at h'

section Lists

variable {α : Type} {R : List Token → α → Prop} {f : α → List Node} {xs : List α}

theorem each (hR : ∀ us x, R us x → Segmented us (f x)) (h : Each R ts xs) :
    Segmented ts (xs.flatMap f) := by
  induction h with
  | nil => exact .nil []
  | cons hx _ ih => exact (hR _ _ hx).append ih

theorem afterComma (hR : ∀ us x, R us x → Segmented us (f x)) (us : List Token) (x : α)
    (h : AfterComma R us x) : Segmented us (f x) := by
  cases h with
  | mk a hx => exact (hR _ x hx).behind [⟨.punct .comma, a⟩]

theorem separated (hR : ∀ us x, R us x → Segmented us (f x)) (h : Separated R ts xs) :
    Segmented ts (xs.flatMap f) := by
  cases h with
  | none => exact .nil []
  | some hx hxs => exact (hR _ _ hx).append (each (afterComma hR) hxs)

end Lists

end Segmented

theorem calloutArg_segmented (us : List Token) (arg : CalloutArg) (h : CalloutArgSpelled us arg) :
    Segmented us (Node.ofCalloutArg arg) := by
  cases h with
  | expr hv => exact .one hv
  | string text a => exact .nil _

theorem exprSpelled_segmented {ts : List Token} {e : Expr} (h : ExprSpelled ts e) :
    Segmented ts (Node.expr e).children := by
  cases h with
  | location hp => exact .one hp
  | call hc => exact .one hc
  | int a hk => exact .nil _
  | char text a => exact .nil _
  | bool value a => exact .nil _
  | unary op a ho _ => exact (Segmented.expr ho).behind [⟨.punct op.mark, a⟩]
  | binary op a hl _ hr _ =>
    exact (Segmented.expr hl).append ((Segmented.expr hr).behind [⟨.punct op.mark, a⟩])
  | paren a b hi => exact ((Segmented.expr hi).before _).behind [⟨.punct .lparen, a⟩]

theorem callSpelled_segmented {ts : List Token} {called : Call} (h : CallSpelled ts called) :
    Segmented ts (Node.call called).children := by
  cases h with
  | method name a b c hargs =>
    have hinner := Segmented.separated (fun us e => Segmented.expr (e := e)) hargs
    rw [Node.children, List.map_eq_flatMap]
    exact (hinner.before _).behind [⟨.identifier name, a⟩, ⟨.punct .lparen, b⟩]
  | callout name a b c d hargs =>
    have hinner := Segmented.each (Segmented.afterComma calloutArg_segmented) hargs
    exact (hinner.before _).behind
      [⟨.keyword .callout, a⟩, ⟨.punct .lparen, b⟩, ⟨.stringLiteral name, c⟩]

theorem stmtSpelled_segmented {ts : List Token} {stmt : Stmt} (h : StmtSpelled ts stmt) :
    Segmented ts (Node.stmt stmt).children := by
  cases h with
  | assign op a b ht hv =>
    exact (Segmented.one (n := .location _) ht).append
      (((Segmented.expr hv).before _).behind [⟨.punct op.mark, a⟩])
  | call a hc => exact (Segmented.one (n := .call _) hc).before _
  | ifThen a b c hcond hbody =>
    exact ((Segmented.expr hcond).append
      ((Segmented.block hbody).behind [⟨.punct .rparen, c⟩])).behind
      [⟨.keyword .ifStmt, a⟩, ⟨.punct .lparen, b⟩]
  | ifElse a b c d hcond hbody hother =>
    exact ((Segmented.expr hcond).append
      (((Segmented.block hbody).append
        ((Segmented.block hother).behind [⟨.keyword .elseBranch, d⟩])).behind
          [⟨.punct .rparen, c⟩])).behind [⟨.keyword .ifStmt, a⟩, ⟨.punct .lparen, b⟩]
  | forLoop var a b c hfirst hlast hbody =>
    have hvar : Segmented [⟨.identifier var.text, var.span⟩] [.name var] := .one (.mk var)
    exact (hvar.append (((Segmented.expr hfirst).append
      (((Segmented.expr hlast).append
        (.block hbody)).behind [⟨.punct .comma, c⟩])).behind
          [⟨.punct .eq, b⟩])).behind [⟨.keyword .forStmt, a⟩]
  | returnNothing a b => exact .nil _
  | returnValue a b hv =>
    exact ((Segmented.expr hv).before _).behind [⟨.keyword .returnStmt, a⟩]
  | breakLoop a b => exact .nil _
  | continueLoop a b => exact .nil _
  | block hb => exact .one hb

/-- The children of a node are spelled one behind the other in the tokens that spell the node. -/
theorem Node.Spelled.segmented {ts : List Token} {n : Node} (h : n.Spelled ts) :
    Segmented ts n.children := by
  cases n with
  | program p =>
    cases h with
    | mk name a b c d hf hm =>
      have hfields := Segmented.each (fun us decl => Segmented.one (n := .field decl)) hf
      have hmethods := Segmented.each (fun us decl => Segmented.one (n := .method decl)) hm
      rw [children, List.map_eq_flatMap, List.map_eq_flatMap]
      exact (hfields.append (hmethods.before _)).behind
        [⟨.keyword .classDecl, a⟩, ⟨.identifier name, b⟩, ⟨.punct .lbrace, c⟩]
  | field decl =>
    cases h with
    | @mk _ _ first others type a b hfirst hothers =>
      have hrest := Segmented.each
        (Segmented.afterComma fun us f => Segmented.one (n := .fieldName f)) hothers
      rw [children, List.map_cons, List.map_eq_flatMap]
      exact ((Segmented.one (n := .fieldName first) hfirst).append (hrest.before _)).behind
        [⟨type.kind, a⟩]
  | fieldName f => exact .nil _
  | method decl =>
    cases h with
    | @mk _ _ params body name result a b c d hp hb =>
      have hparams := Segmented.separated (fun us p => Segmented.one (n := .param p)) hp
      rw [children, List.map_eq_flatMap]
      exact (hparams.append ((Segmented.block hb).behind
        [⟨.punct .rparen, d⟩])).behind
          [⟨resultKind result, a⟩, ⟨.identifier name, b⟩, ⟨.punct .lparen, c⟩]
  | param p => exact .nil _
  | block b =>
    cases h with
    | mk a b hl hb =>
      have hlocals := Segmented.each (fun us decl => Segmented.one (n := .varDecl decl)) hl
      have hbody := Segmented.each (fun us s => Segmented.one (n := .stmt s)) hb
      rw [children, List.map_eq_flatMap, List.map_eq_flatMap]
      exact (hlocals.append (hbody.before _)).behind [⟨.punct .lbrace, a⟩]
  | varDecl decl =>
    cases h with
    | @mk _ others type first a b hothers =>
      have hfirst : Segmented [⟨.identifier first.text, first.span⟩] [.name first] :=
        .one (.mk first)
      have hrest := Segmented.each
        (Segmented.afterComma fun us n => Segmented.one (n := .name n)) hothers
      rw [children, List.map_cons, List.map_eq_flatMap]
      exact (hfirst.append (hrest.before _)).behind [⟨type.kind, a⟩]
  | name n => exact .nil _
  | stmt s => exact stmtSpelled_segmented h
  | location place =>
    cases h with
    | scalar name a => exact .nil _
    | indexed name a b c hi =>
      exact ((Segmented.expr hi).before _).behind
        [⟨.identifier name, a⟩, ⟨.punct .lbracket, b⟩]
  | call called => exact callSpelled_segmented h
  | expr e => exact exprSpelled_segmented h

theorem Segmented.exists_segment {ts : List Token} {n : Node} {ns : List Node}
    (h : Segmented ts ns) (hn : n ∈ ns) :
    ∃ before seg after, ts = before ++ (seg ++ after) ∧ n.Spelled seg := by
  induction h with
  | nil => cases hn
  | @cons first seg rest ns gap hfirst _ ih =>
    rcases List.mem_cons.mp hn with rfl | hmem
    · exact ⟨gap, seg, rest, rfl, hfirst⟩
    · obtain ⟨before, seg', after, rfl, hspelled⟩ := ih hmem
      exact ⟨gap ++ (seg ++ before), seg', after, by simp, hspelled⟩

namespace Covers

variable {ts before seg after : List Token} {a b : Span}

theorem start_lt_stop (h : Covers ts a) (hts : InOrder ts) : a.start < a.stop := by
  obtain ⟨first, last, hfirst, hlast, hstart, hstop, -⟩ := h
  have hlt := hts.nonempty first (List.mem_of_head? hfirst)
  have hle := hts.le_last hlast (List.mem_of_head? hfirst)
  omega

theorem inside (ha : Covers (before ++ (seg ++ after)) a) (hb : Covers seg b)
    (hts : InOrder (before ++ (seg ++ after))) : a.start ≤ b.start ∧ b.stop ≤ a.stop := by
  obtain ⟨first, last, hfirst, hlast, hstart, hstop, -⟩ := ha
  obtain ⟨first', last', hfirst', hlast', hstart', hstop', -⟩ := hb
  have hseg : ∀ t ∈ seg, t ∈ before ++ (seg ++ after) := fun t ht =>
    List.mem_append_right _ (List.mem_append_left _ ht)
  have hle := hts.head_le hfirst (hseg first' (List.mem_of_head? hfirst'))
  have hle' := hts.le_last hlast (hseg last' (List.mem_of_getLast? hlast'))
  omega

theorem stop_le_start (ha : Covers ts a) (hb : Covers seg b)
    (hts : InOrder (ts ++ (before ++ (seg ++ after)))) : a.stop ≤ b.start := by
  obtain ⟨-, last, -, hlast, -, hstop, -⟩ := ha
  obtain ⟨first, -, hfirst, -, hstart, -, -⟩ := hb
  rw [hstop, hstart]
  exact hts.stop_le_start (List.mem_of_getLast? hlast)
    (List.mem_append_right _ (List.mem_append_left _ (List.mem_of_head? hfirst)))

end Covers

/-- Nodes that are spelled one behind the other lie apart, in this order. -/
theorem Segmented.pairwise_stop_le_start {ts : List Token} {ns : List Node}
    (h : Segmented ts ns) (hts : InOrder ts) :
    ns.Pairwise fun n m => n.span.stop ≤ m.span.start := by
  induction h with
  | nil => exact .nil
  | @cons n seg rest ns gap hn hrest ih =>
    have hseg : InOrder (seg ++ rest) := hts.append_right
    refine .cons ?_ (ih hseg.append_right)
    intro m hm
    obtain ⟨before, seg', after, rfl, hspelled⟩ := hrest.exists_segment hm
    have hcovers := hspelled.covers hseg.append_right.append_right.append_left
    exact (hn.covers hseg.append_left).stop_le_start hcovers hseg

theorem Node.Within.exists_segment {root n : Node} {ts : List Token} (hn : root.Within n)
    (h : root.Spelled ts) : ∃ before seg after, ts = before ++ (seg ++ after) ∧ n.Spelled seg := by
  induction hn with
  | root => exact ⟨[], ts, [], by simp, h⟩
  | child _ hc ih =>
    obtain ⟨before, seg, after, rfl, hspelled⟩ := ih
    obtain ⟨before', seg', after', rfl, hspelled'⟩ := hspelled.segmented.exists_segment hc
    exact ⟨before ++ before', seg', after' ++ after, by simp, hspelled'⟩

/-- The node lies in the text where some successive tokens `ts` of the text do that are those it is
written with; its children lie in it one behind the other. -/
structure Node.Placed (text : String) (ts : List Token) (n : Node) : Prop where
  segment : ∃ before seg after, ts = before ++ (seg ++ after) ∧
    seg.map Token.kind = n.kinds ∧ Covers seg n.span
  nonempty : n.span.start < n.span.stop
  line : n.span.line = 1 + feedsBefore text n.span.start
  inside : ∀ c ∈ n.children, n.span.start ≤ c.span.start ∧ c.span.stop ≤ n.span.stop
  apart : n.children.Pairwise fun a b => a.span.stop ≤ b.span.start

theorem Node.placed_of_spelled {text : String} {before seg after : List Token} {n : Node}
    (hts : (Lexer.ofText text).lexemes = (before ++ (seg ++ after)).map .ok)
    (h : n.Spelled seg) : n.Placed text (before ++ (seg ++ after)) := by
  obtain ⟨horder, hlines⟩ := inOrder_of_lexemes hts
  have hseg : InOrder seg := horder.append_right.append_left
  have hcovers := h.covers hseg
  constructor
  case segment =>
    have hkinds := map_kind_eq_normalKinds hts
    rw [List.map_append, List.map_append, normalKinds_append, normalKinds_append] at hkinds
    have hmid := (List.append_inj hkinds (by simp [normalKinds])).2
    have hkinds' := (List.append_inj hmid (by simp [normalKinds])).1
    exact ⟨before, seg, after, rfl, hkinds'.trans h.normalKinds_eq, hcovers⟩
  case nonempty => exact hcovers.start_lt_stop hseg
  case line =>
    obtain ⟨first, -, hfirst, -, hstart, -, hline⟩ := hcovers
    rw [hline, hstart]
    exact hlines first
      (List.mem_append_right _ (List.mem_append_left _ (List.mem_of_head? hfirst)))
  case inside =>
    intro c hc
    obtain ⟨before', seg', after', rfl, hspelled⟩ := h.segmented.exists_segment hc
    exact hcovers.inside (hspelled.covers hseg.append_right.append_left) hseg
  case apart => exact h.segmented.pairwise_stop_le_start hseg

/-- Every node of the tree of a text is where the text has its tokens, and the tree ends on the
line of the closing brace of the class. -/
theorem parseProgram_nodes_placed {text : String} {p : Program} (h : parseProgram text = .ok p) :
    ∃ ts : List Token, tokenize text = .ok (ts ++ [(Lexer.ofText text).eof]) ∧
      (∀ n, (Node.program p).Within n → n.Placed text ts) ∧
      ∃ before close, ts = before ++ [close] ∧ close.kind = .punct .rbrace ∧
        p.endLine = 1 + feedsBefore text close.span.start := by
  obtain ⟨ts, hts, hp⟩ := parseProgram_eq_ok_iff_spelled.1 h
  refine ⟨ts, tokenize_eq_ok_iff.2 ⟨ts, hts, rfl⟩, ?_, ?_⟩
  · intro n hn
    obtain ⟨before, seg, after, rfl, hspelled⟩ := hn.exists_segment hp
    exact Node.placed_of_spelled hts hspelled
  · obtain ⟨-, hlines⟩ := inOrder_of_lexemes hts
    cases hp with
    | @mk us vs fields methods name a b c d hf hm =>
      refine ⟨⟨.keyword .classDecl, a⟩ :: ⟨.identifier name, b⟩ :: ⟨.punct .lbrace, c⟩ ::
        (us ++ vs), ⟨.punct .rbrace, d⟩, by simp, rfl, ?_⟩
      exact hlines ⟨.punct .rbrace, d⟩ (by simp)

theorem parseProgram_nodes_placed_lines :
    ∃ p ts, parseProgram "class P\x7b//é\nvoid m()\x7b\nx=1\n -y;\x7d\n\x7d" = .ok p ∧
      tokenize "class P\x7b//é\nvoid m()\x7b\nx=1\n -y;\x7d\n\x7d" =
        .ok (ts ++ [⟨.eof, ⟨34, 34, 5⟩⟩]) ∧ p.endLine = 5 ∧
      (Node.expr (.binary .sub (.int "1" ⟨25, 26, 3⟩)
        (.location (.scalar "y" ⟨29, 30, 4⟩) ⟨29, 30, 4⟩) ⟨25, 30, 3⟩)).Placed
          "class P\x7b//é\nvoid m()\x7b\nx=1\n -y;\x7d\n\x7d" ts := by
  have h : parseProgram "class P\x7b//é\nvoid m()\x7b\nx=1\n -y;\x7d\n\x7d" = .ok
      ⟨"P", [], [⟨"m", none, [], .mk [] [.assign (.scalar "x" ⟨23, 24, 3⟩) .assign
          (.binary .sub (.int "1" ⟨25, 26, 3⟩)
            (.location (.scalar "y" ⟨29, 30, 4⟩) ⟨29, 30, 4⟩) ⟨25, 30, 3⟩) ⟨23, 31, 3⟩]
          ⟨21, 32, 2⟩, ⟨13, 32, 2⟩⟩], ⟨0, 34, 1⟩, 5⟩ := by
    cbv
  have heof : (Lexer.ofText "class P\x7b//é\nvoid m()\x7b\nx=1\n -y;\x7d\n\x7d").eof =
      ⟨.eof, ⟨34, 34, 5⟩⟩ := by
    cbv
  obtain ⟨ts, hts, hnodes, -⟩ := parseProgram_nodes_placed h
  refine ⟨_, ts, h, heof ▸ hts, rfl, hnodes _ ?_⟩
  -- From the class down: its method, the body, the assignment, its value.
  refine .child (.child (.child (.child .root (.head _)) (.head _)) (.head _)) ?_
  exact .tail _ (.head _)

end Decaf
