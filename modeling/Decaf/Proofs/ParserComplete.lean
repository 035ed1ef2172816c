import Decaf.Proofs.ParserSound

namespace Decaf

theorem BinaryOp.level_le_loosest (op : BinaryOp) : op.level ≤ loosest := by
  cases op <;> decide

/-- The tokens an expression can start with. -/
def TokenKind.opensExpr : TokenKind → Bool
  | .identifier _ | .intLiteral _ | .hexLiteral _ | .charLiteral _ => true
  | .keyword .trueLit | .keyword .falseLit | .keyword .callout => true
  | .punct .lparen | .punct .minus | .punct .bang => true
  | _ => false

def Punct.endsExpr : Punct → Bool
  | .rparen | .rbracket | .comma | .semi | .lbrace => true
  | _ => false

/-- The tokens a statement can start with. -/
def TokenKind.opensStmt : TokenKind → Bool
  | .identifier _ => true
  | .keyword .ifStmt | .keyword .forStmt | .keyword .returnStmt | .keyword .breakStmt
  | .keyword .continueStmt | .keyword .callout => true
  | .punct .lbrace => true
  | _ => false

namespace Parser

open TokenStream Grammar

section Lists

variable {α : Type} {R : List Token → α → Prop} {item : (s : TokenStream) → Reply α s.size}
  {many : (s : TokenStream) → Reply (List α) (s.size + 1)}

theorem Repeats.gives {going : TokenKind → Prop} (hmany : Repeats going item many)
    (starts follow : TokenKind → Prop)
    (hgoing : ∀ kind, starts kind → going kind) (hfollow : ∀ kind, starts kind → follow kind)
    {ts : List Token} {xs : List α} {s next : TokenStream}
    (hopen : ∀ x ∈ xs, ∀ us s₁ s₂, R us x → Reads s₁ us s₂ → starts s₁.kind)
    (hitem : ∀ x ∈ xs, ∀ us s₁ s₂, R us x → Reads s₁ us s₂ → follow s₂.kind →
      (item s₁).Gives x s₂)
    (heach : Each R ts xs) (hread : Reads s ts next)
    (hstop : ¬ going next.kind) (hlast : follow next.kind) :
    (many s).Gives xs next ∧ follow s.kind := by
  induction heach generalizing s with
  | nil =>
    obtain rfl := reads_nil.1 hread
    exact ⟨(hmany _ _ _).2 (.inl ⟨hstop, rfl, rfl⟩), hlast⟩
  | @cons us vs x xs hx _ ih =>
    obtain ⟨s₁, hus, hvs⟩ := reads_append.1 hread
    obtain ⟨hothers, hbehind⟩ := ih (fun y hy => hopen y (.tail x hy))
      (fun y hy => hitem y (.tail x hy)) hvs
    have hstart := hopen x (.head xs) us s s₁ hx hus
    have hgives := hitem x (.head xs) us s s₁ hx hus hbehind
    exact ⟨(hmany _ _ _).2 (.inr ⟨hgoing _ hstart, x, s₁, xs, hgives, hothers, rfl⟩),
      hfollow _ hstart⟩

theorem Repeats.gives_afterComma (hmany : Repeats (· = .punct .comma) (afterComma item) many)
    (follow : TokenKind → Prop) (hcomma : follow (.punct .comma)) {ts : List Token} {xs : List α}
    {s next : TokenStream}
    (hitem : ∀ x ∈ xs, ∀ us s₁ s₂, R us x → Reads s₁ us s₂ → follow s₂.kind →
      (item s₁).Gives x s₂)
    (heach : Each (AfterComma R) ts xs) (hread : Reads s ts next)
    (hstop : next.kind ≠ .punct .comma) (hlast : follow next.kind) :
    (many s).Gives xs next ∧ follow s.kind := by
  refine hmany.gives (· = .punct .comma) follow (fun _ h => h) (fun _ h => h ▸ hcomma)
    ?_ ?_ heach hread hstop hlast
  · rintro x - us s₁ s₂ ⟨a, -⟩ hus
    exact hus.head_kind
  · rintro x hx us s₁ s₂ ⟨a, hvs⟩ hus hbehind
    obtain ⟨s₃, hstep, hrest⟩ := reads_cons.1 hus
    exact afterComma_gives.2 ⟨a, s₃, hstep, hitem x hx _ s₃ s₂ hvs hrest hbehind⟩

end Lists

/-- Tokens that end an expression whose operators have at most the given level. -/
structure Ends (level : Nat) (kind : TokenKind) : Prop where
  noCall : kind ≠ .punct .lparen
  noIndex : kind ≠ .punct .lbracket
  noOperator : ∀ l ≤ level, BinaryOp.atLevel? l kind = none

theorem Ends.mono {below level : Nat} {kind : TokenKind} (h : Ends level kind)
    (hle : below ≤ level) : Ends below kind :=
  ⟨h.noCall, h.noIndex, fun l hl => h.noOperator l (Nat.le_trans hl hle)⟩

theorem ends_operator {level : Nat} {op : BinaryOp} (h : level < op.level) :
    Ends level (.punct op.mark) := by
  refine ⟨by cases op <;> simp [BinaryOp.mark], by cases op <;> simp [BinaryOp.mark], ?_⟩
  intro l hl
  have hop : BinaryOp.ofKind? (.punct op.mark) = some op := BinaryOp.ofKind?_eq_some_iff.2 rfl
  have hne : op.level ≠ l := by omega
  simp [BinaryOp.atLevel?, hop, hne]

theorem ends_punct {level : Nat} {mark : Punct} (h : mark.endsExpr = true) :
    Ends level (.punct mark) := by
  cases mark <;> simp [Punct.endsExpr] at h <;> exact ⟨by simp, by simp, fun _ _ => rfl⟩

theorem ends_of_kind {level : Nat} {mark : Punct} {kind : TokenKind} (hkind : kind = .punct mark)
    (h : mark.endsExpr = true) : Ends level kind := hkind ▸ ends_punct h

/-- An expression is read whole where it ends, and is handed on as the left operand of whatever
operators follow it. -/
structure Complete (e : Expr) : Prop where
  whole : ∀ ts s next level, ExprSpelled ts e → Reads s ts next → e.level ≤ level →
    Ends level next.kind → (binary level s).Gives e next
  continued : ∀ ts s mid below, ExprSpelled ts e → Reads s ts mid → e.level ≤ below + 1 →
    Ends below mid.kind → ∀ w last, (operators below e mid).Gives w last →
    (binary (below + 1) s).Gives w last

theorem operators_done {below : Nat} {e : Expr} {s : TokenStream}
    (h : Ends (below + 1) s.kind) : (operators below e s).Gives e s := by
  rw [operators, h.noOperator _ (Nat.le_refl _)]
  exact Reply.done_gives.2 ⟨rfl, rfl⟩

theorem binary_lift {low level : Nat} (hle : low ≤ level) {e : Expr} {s next : TokenStream}
    (h : (binary low s).Gives e next) (hends : Ends level next.kind) :
    (binary level s).Gives e next := by
  induction hle with
  | refl => exact h
  | @step level _ ih =>
    have hbelow := ih (hends.mono (Nat.le_succ level))
    rw [binary]
    exact Reply.andThen_gives.2 ⟨e, next, hbelow, operators_done hends⟩

theorem Complete.of_unary {e : Expr} (hlevel : e.level = 0)
    (h : ∀ ts s next, ExprSpelled ts e → Reads s ts next → Ends 0 next.kind →
      (unary s).Gives e next) : Complete e := by
  have hwhole : ∀ ts s next level, ExprSpelled ts e → Reads s ts next → e.level ≤ level →
      Ends level next.kind → (binary level s).Gives e next := by
    intro ts s next level he hread _ hends
    have hzero : (binary 0 s).Gives e next := by
      rw [binary]
      exact h ts s next he hread (hends.mono (Nat.zero_le level))
    exact binary_lift (Nat.zero_le level) hzero hends
  refine ⟨hwhole, ?_⟩
  intro ts s mid below he hread _ hends w last hmore
  rw [binary]
  exact Reply.andThen_gives.2
    ⟨e, mid, hwhole ts s mid below he hread (hlevel ▸ Nat.zero_le below) hends, hmore⟩

/-- The loop for the level of `op` takes `left` as far as the operator, then the operator and
`right`, and goes on with the node made of them. -/
theorem Complete.binary {op : BinaryOp} {left right : Expr} {span : Span} (hl : Complete left)
    (hr : Complete right) : Complete (.binary op left right span) := by
  obtain ⟨k, hk⟩ : ∃ k, op.level = k + 1 := by cases op <;> exact ⟨_, rfl⟩
  have hloop : ∀ ts s mid, ExprSpelled ts (.binary op left right span) → Reads s ts mid →
      Ends k mid.kind → ∀ w last, (operators k (.binary op left right span) mid).Gives w last →
      (Parser.binary (k + 1) s).Gives w last := by
    intro ts s mid he hread hends w last hmore
    cases he with
    | binary _ a hleft hle hright hlt =>
      obtain ⟨s₁, hts, hrest⟩ := reads_append.1 hread
      obtain ⟨s₂, hstep, hus⟩ := reads_cons.1 hrest
      have hop : s₁.kind = .punct op.mark := hstep.kind
      refine hl.continued _ s s₁ k hleft hts (hk ▸ hle) (hop ▸ ends_operator (by omega)) w last ?_
      rw [operators, BinaryOp.atLevel?_eq_some_iff.2 ⟨hop, hk⟩]
      simp only [Reply.lax_gives, Reply.andThen_gives, punct_gives]
      exact ⟨a, s₂, hstep, right, mid, hr.whole _ s₂ mid k hright hus (by omega) hends, hmore⟩
  have hwhole : ∀ ts s next level, ExprSpelled ts (.binary op left right span) →
      Reads s ts next → op.level ≤ level → Ends level next.kind →
      (Parser.binary level s).Gives (.binary op left right span) next := by
    intro ts s next level he hread hle hends
    have hown : Ends (k + 1) next.kind := hends.mono (hk ▸ hle)
    exact binary_lift (hk ▸ hle)
      (hloop ts s next he hread (hown.mono (Nat.le_succ k)) _ _ (operators_done hown)) hends
  refine ⟨hwhole, ?_⟩
  intro ts s mid below he hread hle hends w last hmore
  -- At its own level the loop goes on with the node; at a looser one the node is a whole operand.
  rcases Nat.lt_or_ge below op.level with hlt | hge
  · have hsame : below = k := by
      change op.level ≤ below + 1 at hle
      omega
    subst hsame
    exact hloop ts s mid he hread hends w last hmore
  · rw [Parser.binary]
    exact Reply.andThen_gives.2 ⟨_, mid, hwhole ts s mid below he hread hge hends, hmore⟩

def PlaceComplete (place : Location) : Prop :=
  ∀ ts s next, PlaceSpelled ts place → Reads s ts next → next.kind ≠ .punct .lparen →
    next.kind ≠ .punct .lbracket → ∃ name s₁, Step s ⟨.identifier name.text, name.span⟩ s₁ ∧
      s₁.kind ≠ .punct .lparen ∧ (location name s₁).Gives place next

def CallComplete (called : Call) : Prop :=
  ∀ ts s next, CallSpelled ts called → Reads s ts next →
    (∃ name s₁, Step s ⟨.identifier name.text, name.span⟩ s₁ ∧ s₁.kind = .punct .lparen ∧
      (call name s₁).Gives called next) ∨
    (s.kind = .keyword .callout ∧ (callout s).Gives called next)

theorem Complete.expression {e : Expr} (h : Complete e) {ts : List Token} {s next : TokenStream}
    (he : ExprSpelled ts e) (hread : Reads s ts next) (hends : Ends BinaryOp.loosest next.kind) :
    (expression s).Gives e next := by
  rw [Parser.expression]
  refine h.whole ts s next _ he hread ?_ hends
  cases e with
  | binary op => exact op.level_le_loosest
  | _ => exact Nat.zero_le _

theorem exprSpelled_opens : (e : Expr) → ∀ {ts : List Token} {s next : TokenStream},
    ExprSpelled ts e → Reads s ts next → s.kind.opensExpr = true
  | .binary op left right _, _, _, _, h, hread => by
    cases h with
    | binary _ a hleft =>
      obtain ⟨s₁, hts, -⟩ := reads_append.1 hread
      exact exprSpelled_opens left hleft hts
  | .location _ _, _, _, _, h, hread => by
    cases h with
    | location hp => cases hp <;> rw [hread.head_kind] <;> rfl
  | .call _ _, _, _, _, h, hread => by
    cases h with
    | call hc => cases hc <;> rw [hread.head_kind] <;> rfl
  | .int _ _, _, _, _, h, hread => by
    cases h with
    | @int kind _ a hk =>
      rw [hread.head_kind]
      cases kind <;> cases hk <;> rfl
  | .char _ _, _, _, _, h, hread => by
    cases h
    rw [hread.head_kind]
    rfl
  | .bool value _, _, _, _, h, hread => by
    cases h
    rw [hread.head_kind]
    cases value <;> rfl
  | .unary op _ _, _, _, _, h, hread => by
    cases h
    rw [hread.head_kind]
    cases op <;> rfl
  | .paren _ _, _, _, _, h, hread => by
    cases h
    rw [hread.head_kind]
    rfl

theorem arguments_gives {args : List Expr} (hargs : ∀ e ∈ args, Complete e) {ts : List Token}
    {s next : TokenStream} (h : Separated ExprSpelled ts args) (hread : Reads s ts next)
    (hclose : next.kind = .punct .rparen) : (arguments s).Gives args next := by
  rw [arguments]
  cases h with
  | none =>
    obtain rfl := reads_nil.1 hread
    rw [if_pos hclose]
    exact Reply.done_gives.2 ⟨rfl, rfl⟩
  | @some ts us first others hfirst hothers =>
    obtain ⟨s₁, hts, hus⟩ := reads_append.1 hread
    have hopen := exprSpelled_opens first hfirst hts
    have hne : s.kind ≠ .punct .rparen := fun h => by simp [h, TokenKind.opensExpr] at hopen
    obtain ⟨hmore, hbehind⟩ := moreArguments_repeats.gives_afterComma
      (Ends BinaryOp.loosest) (ends_punct rfl)
      (fun e he us s₁ s₂ hspelled hreads hends =>
        (hargs e (.tail first he)).expression hspelled hreads hends)
      hothers hus (by simp [hclose]) (ends_of_kind hclose rfl)
    rw [if_neg hne]
    simp only [Reply.lax_gives, Reply.andThen_gives, Reply.done_gives]
    exact ⟨first, s₁, (hargs first (.head others)).expression hfirst hts hbehind, others, next,
      hmore, rfl, rfl⟩

theorem calloutArgument_gives {arg : CalloutArg}
    (harg : ∀ value, arg = .expr value → Complete value) {ts : List Token}
    {s next : TokenStream} (h : CalloutArgSpelled ts arg) (hread : Reads s ts next)
    (hends : Ends BinaryOp.loosest next.kind) :
    (calloutArgument s).Gives arg next := by
  rw [calloutArgument]
  cases h with
  | @expr _ value hvalue =>
    have hopen := exprSpelled_opens value hvalue hread
    split
    · next text hstring => simp [hstring, TokenKind.opensExpr] at hopen
    · exact Reply.map_gives.2
        ⟨value, (harg value rfl).expression hvalue hread hends, rfl⟩
  | string text a =>
    have hstep := reads_singleton.1 hread
    rw [hstep.kind]
    exact pick_map_gives.2 ⟨_, a, text, hstep, rfl, rfl⟩

theorem placeComplete_scalar (name : String) (a : Span) : PlaceComplete (.scalar name a) := by
  intro ts s next h hread hcall hindex
  cases h
  have hstep := reads_singleton.1 hread
  refine ⟨⟨name, a⟩, _, hstep, hcall, ?_⟩
  rw [location, if_neg hindex]
  exact Reply.done_gives.2 ⟨rfl, rfl⟩

theorem placeComplete_indexed {index : Expr} (hindex : Complete index) (name : String) (a : Span) :
    PlaceComplete (.indexed name index a) := by
  intro ts s next h hread _ _
  cases h with
  | indexed _ a b c hi =>
    simp only [reads_cons, reads_append, reads_nil] at hread
    obtain ⟨s₁, hname, s₂, hopen, s₃, hts, s₄, hclose, rfl⟩ := hread
    refine ⟨⟨name, a⟩, s₁, hname, by simp [hopen.kind], ?_⟩
    have hends : Ends BinaryOp.loosest s₃.kind := ends_of_kind hclose.kind rfl
    rw [location, if_pos hopen.kind]
    simp only [Reply.lax_gives, Reply.andThen_gives, punct_gives, Reply.done_gives]
    exact ⟨b, s₂, hopen, index, s₃, hindex.expression hi hts hends, c, _, hclose, rfl, rfl⟩

theorem callComplete_method {args : List Expr} (hargs : ∀ e ∈ args, Complete e) (name : String)
    (a : Span) : CallComplete (.method name args a) := by
  intro ts s next h hread
  cases h with
  | method _ a b c hs =>
    simp only [reads_cons, reads_append, reads_nil] at hread
    obtain ⟨s₁, hname, s₂, hopen, s₃, hts, s₄, hclose, rfl⟩ := hread
    refine .inl ⟨⟨name, a⟩, s₁, hname, hopen.kind, ?_⟩
    rw [call]
    simp only [Reply.lax_gives, Reply.andThen_gives, punct_gives, Reply.done_gives]
    exact ⟨b, s₂, hopen, args, s₃, arguments_gives hargs hs hts hclose.kind, c, _, hclose, rfl,
      rfl⟩

theorem callComplete_callout {args : List CalloutArg}
    (hargs : ∀ value, .expr value ∈ args → Complete value) (name : String) (a : Span) :
    CallComplete (.callout name args a) := by
  intro ts s next h hread
  cases h with
  | callout _ a b c d hs =>
    simp only [reads_cons, reads_append, reads_nil] at hread
    obtain ⟨s₁, hword, s₂, hopen, s₃, hname, s₄, hts, s₅, hclose, rfl⟩ := hread
    obtain ⟨hmore, -⟩ := calloutArguments_repeats.gives_afterComma (Ends BinaryOp.loosest)
      (ends_punct rfl)
      (fun arg harg us s₁ s₂ => calloutArgument_gives fun value h => hargs value (h ▸ harg))
      hs hts (by simp [hclose.kind]) (ends_of_kind hclose.kind rfl)
    refine .inr ⟨hword.kind, ?_⟩
    rw [callout]
    simp only [Reply.lax_gives, Reply.andThen_gives, punct_gives, keyword_gives,
      calloutName_gives, Reply.done_gives]
    exact ⟨a, s₁, hword, b, s₂, hopen, name, s₃, ⟨c, hname⟩, args, s₄, hmore, d, _, hclose, rfl,
      rfl⟩

theorem Complete.of_primary {e : Expr} (hlevel : e.level = 0)
    (h : ∀ ts s next, ExprSpelled ts e → Reads s ts next → Ends 0 next.kind →
      UnaryOp.ofKind? s.kind = none ∧ (primary s).Gives e next) : Complete e := by
  refine .of_unary hlevel ?_
  intro ts s next he hread hends
  obtain ⟨hop, hprimary⟩ := h ts s next he hread hends
  rw [unary, hop]
  exact hprimary

theorem complete_location {place : Location} (hplace : PlaceComplete place) (a : Span) :
    Complete (.location place a) := by
  refine .of_primary rfl ?_
  intro ts s next h hread hends
  cases h with
  | location hp =>
    obtain ⟨name, s₁, hname, hcall, hlocation⟩ :=
      hplace ts s next hp hread hends.noCall hends.noIndex
    have hk : s.kind = .identifier name.text := hname.kind
    rw [primary, hk]
    refine ⟨rfl, Reply.andThen_gives.2 ⟨name, s₁, identifier_gives.2 hname, ?_⟩⟩
    rw [if_neg hcall]
    exact Reply.map_gives.2 ⟨place, hlocation, rfl⟩

theorem complete_call {called : Call} (hcalled : CallComplete called) (a : Span) :
    Complete (.call called a) := by
  refine .of_primary rfl ?_
  intro ts s next h hread _
  cases h with
  | call hc =>
    obtain ⟨name, s₁, hname, hopen, hcall⟩ | ⟨hk, hcallout⟩ := hcalled ts s next hc hread
    · have hk : s.kind = .identifier name.text := hname.kind
      rw [primary, hk]
      refine ⟨rfl, Reply.andThen_gives.2 ⟨name, s₁, identifier_gives.2 hname, ?_⟩⟩
      rw [if_pos hopen]
      exact Reply.lax_gives.2 (Reply.map_gives.2 ⟨called, hcall, rfl⟩)
    · rw [primary, hk]
      exact ⟨rfl, Reply.map_gives.2 ⟨called, hcallout, rfl⟩⟩

theorem complete_int (text : String) (a : Span) : Complete (.int text a) := by
  refine .of_primary rfl ?_
  intro ts s next h hread _
  cases h with
  | @int kind _ a hk =>
    have hstep := reads_singleton.1 hread
    have hgives : ((s.pick TokenKind.integer? .expression).map fun t => Expr.int t.1 t.2).Gives
        (.int text a) next := pick_map_gives.2 ⟨kind, a, text, hstep, hk, rfl⟩
    rw [primary, hstep.kind]
    cases kind <;> cases hk
    · exact ⟨rfl, hgives⟩
    · exact ⟨rfl, hgives⟩

theorem complete_char (text : String) (a : Span) : Complete (.char text a) := by
  refine .of_primary rfl ?_
  intro ts s next h hread _
  cases h
  have hstep := reads_singleton.1 hread
  rw [primary, hstep.kind]
  exact ⟨rfl, pick_map_gives.2 ⟨_, a, text, hstep, rfl, rfl⟩⟩

theorem complete_bool (value : Bool) (a : Span) : Complete (.bool value a) := by
  refine .of_primary rfl ?_
  intro ts s next h hread _
  cases h
  have hstep := reads_singleton.1 hread
  rw [primary, hstep.kind]
  cases value <;>
  · refine ⟨rfl, Reply.map_gives.2 ⟨a, keyword_gives.2 hstep, rfl⟩⟩

theorem complete_unary {operand : Expr} (hoperand : Complete operand) (op : UnaryOp) (a : Span) :
    Complete (.unary op operand a) := by
  refine .of_unary rfl ?_
  intro ts s next h hread hends
  cases h with
  | unary _ a ho hlevel =>
    obtain ⟨s₁, hstep, hrest⟩ := reads_cons.1 hread
    have hinner := hoperand.whole _ s₁ next 0 ho hrest (Nat.le_of_eq hlevel) hends
    rw [Parser.binary] at hinner
    rw [Parser.unary, hstep.kind, UnaryOp.ofKind?_eq_some_iff.2 rfl]
    simp only [Reply.lax_gives, Reply.andThen_gives, punct_gives, Reply.done_gives]
    exact ⟨a, s₁, hstep, operand, next, hinner, rfl, rfl⟩

theorem complete_paren {inner : Expr} (hinner : Complete inner) (a : Span) :
    Complete (.paren inner a) := by
  refine .of_primary rfl ?_
  intro ts s next h hread _
  cases h with
  | paren a b hi =>
    simp only [reads_cons, reads_append, reads_nil] at hread
    obtain ⟨s₁, hopen, s₂, hts, s₃, hclose, rfl⟩ := hread
    have hends : Ends BinaryOp.loosest s₂.kind := ends_of_kind hclose.kind rfl
    rw [primary, hopen.kind]
    simp only [Reply.lax_gives, Reply.andThen_gives, punct_gives, Reply.done_gives]
    exact ⟨rfl, a, s₁, hopen, inner, s₂, hinner.expression hi hts hends, b, _, hclose, rfl, rfl⟩

mutual

theorem expr_complete : (e : Expr) → Complete e
  | .location place a => complete_location (place_complete place) a
  | .call called a => complete_call (call_complete called) a
  | .int text a => complete_int text a
  | .char text a => complete_char text a
  | .bool value a => complete_bool value a
  | .unary op operand a => complete_unary (expr_complete operand) op a
  | .binary _ left right _ => (expr_complete left).binary (expr_complete right)
  | .paren inner a => complete_paren (expr_complete inner) a

theorem place_complete : (place : Location) → PlaceComplete place
  | .scalar name a => placeComplete_scalar name a
  | .indexed name index a => placeComplete_indexed (expr_complete index) name a

theorem call_complete : (called : Call) → CallComplete called
  | .method name args a => callComplete_method (args_complete args) name a
  | .callout name args a => callComplete_callout (calloutArgs_complete args) name a

theorem args_complete : (args : List Expr) → ∀ e ∈ args, Complete e
  | [], _, h => nomatch h
  | first :: others, e, h => by
    rcases List.mem_cons.1 h with h | h
    · exact h ▸ expr_complete first
    · exact args_complete others e h

theorem calloutArgs_complete : (args : List CalloutArg) →
    ∀ value, .expr value ∈ args → Complete value
  | [], _, h => nomatch h
  | .expr first :: others, value, h => by
    rcases List.mem_cons.1 h with h | h
    · cases h
      exact expr_complete first
    · exact calloutArgs_complete others value h
  | .string _ :: others, value, h => by
    rcases List.mem_cons.1 h with h | h
    · cases h
    · exact calloutArgs_complete others value h

end

theorem varDecl_gives {decl : VarDecl} {ts : List Token} {s next : TokenStream}
    (h : VarDeclSpelled ts decl) (hread : Reads s ts next) : (varDecl s).Gives decl next := by
  cases h with
  | @mk ts others type first a b hothers =>
    simp only [reads_cons, reads_append, reads_nil] at hread
    obtain ⟨s₁, htype, s₂, hfirst, s₃, hts, s₄, hsemi, rfl⟩ := hread
    obtain ⟨hmore, -⟩ := moreNames_repeats.gives_afterComma (fun _ => True) trivial
      (fun name _ us s₁ s₂ hname hread _ => by
        cases hname
        exact identifier_gives.2 (reads_singleton.1 hread))
      hothers hts (by simp [hsemi.kind]) trivial
    simp only [varDecl, Reply.lax_gives, Reply.andThen_gives, typeName_gives, identifier_gives,
      punct_gives, Reply.done_gives, htype.span]
    exact ⟨type, s₁, ⟨a, htype⟩, first, s₂, hfirst, others, s₃, hmore, b, _, hsemi, rfl, rfl⟩

theorem varDecls_gives {decls : List VarDecl} {ts : List Token} {s next : TokenStream}
    (h : Each VarDeclSpelled ts decls) (hread : Reads s ts next)
    (hother : next.kind.isType = false) : (varDecls s).Gives decls next := by
  refine (varDecls_repeats.gives (·.isType = true) (fun _ => True) (fun _ h => h)
    (fun _ _ => trivial) ?_ (fun _ _ _ _ _ hdecl hread _ => varDecl_gives hdecl hread) h hread
    (by simp [hother]) trivial).1
  rintro decl - us s₁ s₂ ⟨type, first, a, b, -⟩ hus
  rw [hus.head_kind]
  cases type <;> rfl

def StmtComplete (stmt : Stmt) : Prop :=
  ∀ ts s next, StmtSpelled ts stmt → Reads s ts next → next.kind ≠ .keyword .elseBranch →
    (statement s).Gives stmt next

def BlockComplete (b : Block) : Prop :=
  ∀ ts s next, BlockSpelled ts b → Reads s ts next → (block s).Gives b next

theorem stmtSpelled_opens {stmt : Stmt} {ts : List Token} {s next : TokenStream}
    (h : StmtSpelled ts stmt) (hread : Reads s ts next) : s.kind.opensStmt = true := by
  cases h with
  | assign _ _ _ hp => cases hp <;> rw [hread.head_kind] <;> rfl
  | call _ hc => cases hc <;> rw [hread.head_kind] <;> rfl
  | block hb =>
    cases hb
    rw [hread.head_kind]
    rfl
  | _ =>
    rw [hread.head_kind]
    rfl

theorem behind_of_opensStmt {kind : TokenKind} (h : kind.opensStmt = true) :
    kind ≠ .keyword .elseBranch ∧ kind.isType = false := by
  constructor
  · rintro rfl
    cases h
  · unfold TokenKind.isType
    split
    · cases h
    · cases h
    · rfl

theorem blockComplete_mk {body : List Stmt} (hbody : ∀ stmt ∈ body, StmtComplete stmt)
    (locals : List VarDecl) (a : Span) : BlockComplete (.mk locals body a) := by
  intro ts s next h hread
  cases h with
  | mk a b hl hb =>
    simp only [reads_cons, reads_append, reads_nil] at hread
    obtain ⟨s₁, hopen, s₂, hts, s₃, hus, s₄, hclose, rfl⟩ := hread
    have hstop : s₃.kind = .punct .rbrace := hclose.kind
    obtain ⟨hstmts, hnext⟩ := statements_repeats.gives
      (·.opensStmt = true) (fun kind => kind ≠ .keyword .elseBranch ∧ kind.isType = false)
      (by rintro kind hkind (rfl | rfl) <;> cases hkind)
      (fun kind => behind_of_opensStmt)
      (fun _ _ _ _ _ => stmtSpelled_opens)
      (fun stmt hstmt us s₁ s₂ hs hr hf => hbody stmt hstmt us s₁ s₂ hs hr hf.1)
      hb hus (by simp [hstop]) (by simp [hstop, TokenKind.isType])
    rw [block]
    simp only [Reply.lax_gives, Reply.andThen_gives, punct_gives, Reply.done_gives]
    exact ⟨a, s₁, hopen, locals, s₂, varDecls_gives hl hts hnext.2, body, s₃, hstmts, b, _, hclose,
      rfl, rfl⟩

theorem stmtComplete_assign (target : Location) (op : AssignOp) (value : Expr) (a : Span) :
    StmtComplete (.assign target op value a) := by
  intro ts s next h hread _
  cases h with
  | assign _ a b ht hv =>
    have hspan := hread.head_span
    rw [← List.cons_append] at hread
    obtain ⟨s₂, htarget, hrest⟩ := reads_append.1 hread
    simp only [reads_cons, reads_append, reads_nil] at hrest
    obtain ⟨s₃, hop, s₄, hvalue, s₅, hsemi, rfl⟩ := hrest
    have hkind : s₂.kind = .punct op.mark := hop.kind
    obtain ⟨name, s₁, hname, hcall, hlocation⟩ := place_complete target _ s s₂ ht htarget
      (by cases op <;> simp [hkind, AssignOp.mark]) (by cases op <;> simp [hkind, AssignOp.mark])
    have hident : s.kind = .identifier name.text := hname.kind
    rw [statement, hident]
    refine Reply.andThen_gives.2 ⟨name, s₁, identifier_gives.2 hname, ?_⟩
    rw [if_neg hcall, hspan]
    simp only [Reply.lax_gives, Reply.andThen_gives, assignOp_gives, punct_gives, Reply.done_gives]
    exact ⟨target, s₂, hlocation, op, s₃, ⟨a, hop⟩, value, s₄,
      (expr_complete value).expression hv hvalue (ends_of_kind hsemi.kind rfl), b, _, hsemi, rfl,
      rfl⟩

theorem stmtComplete_call (called : Call) (a : Span) : StmtComplete (.call called a) := by
  intro ts s next h hread _
  cases h with
  | call a hc =>
    have hspan := hread.head_span
    rw [← List.cons_append] at hread
    obtain ⟨s₂, hcalled, hrest⟩ := reads_append.1 hread
    simp only [reads_cons, reads_nil] at hrest
    obtain ⟨s₃, hsemi, rfl⟩ := hrest
    obtain ⟨name, s₁, hname, hopen, hcall⟩ | ⟨hk, hcallout⟩ :=
      call_complete called _ s s₂ hc hcalled
    · have hident : s.kind = .identifier name.text := hname.kind
      rw [statement, hident]
      refine Reply.andThen_gives.2 ⟨name, s₁, identifier_gives.2 hname, ?_⟩
      rw [if_pos hopen, hspan]
      simp only [Reply.lax_gives, Reply.andThen_gives, punct_gives, Reply.done_gives]
      exact ⟨called, s₂, hcall, a, _, hsemi, rfl, rfl⟩
    · rw [statement, hk]
      simp only [Reply.lax_gives, Reply.andThen_gives, punct_gives, Reply.done_gives, hspan]
      exact ⟨called, s₂, hcallout, a, _, hsemi, rfl, rfl⟩

theorem stmtComplete_ifThen {body : Block} (hbody : BlockComplete body) (condition : Expr)
    (a : Span) : StmtComplete (.ifThen condition body a) := by
  intro ts s next h hread helse
  cases h with
  | ifThen a b c hc hb =>
    simp only [reads_cons, reads_append] at hread
    obtain ⟨s₁, hword, s₂, hopen, s₃, hts, s₄, hclose, hus⟩ := hread
    rw [statement, hword.kind]
    simp only [Reply.lax_gives, Reply.andThen_gives, punct_gives, keyword_gives]
    refine ⟨a, s₁, hword, b, s₂, hopen, condition, s₃,
      (expr_complete condition).expression hc hts (ends_of_kind hclose.kind rfl), c, s₄, hclose,
      body, next, hbody _ s₄ next hb hus, ?_⟩
    rw [if_neg helse]
    exact Reply.done_gives.2 ⟨rfl, rfl⟩

theorem stmtComplete_ifElse {body other : Block} (hbody : BlockComplete body)
    (hother : BlockComplete other) (condition : Expr) (a : Span) :
    StmtComplete (.ifElse condition body other a) := by
  intro ts s next h hread _
  cases h with
  | ifElse a b c d hc hb ho =>
    simp only [reads_cons, reads_append] at hread
    obtain ⟨s₁, hword, s₂, hopen, s₃, hts, s₄, hclose, s₅, hus, s₆, helse, hvs⟩ := hread
    rw [statement, hword.kind]
    simp only [Reply.lax_gives, Reply.andThen_gives, punct_gives, keyword_gives]
    refine ⟨a, s₁, hword, b, s₂, hopen, condition, s₃,
      (expr_complete condition).expression hc hts (ends_of_kind hclose.kind rfl), c, s₄, hclose,
      body, s₅, hbody _ s₄ s₅ hb hus, ?_⟩
    rw [if_pos helse.kind]
    simp only [Reply.lax_gives, Reply.andThen_gives, keyword_gives, Reply.done_gives]
    exact ⟨d, s₆, helse, other, next, hother _ s₆ next ho hvs, rfl, rfl⟩

theorem stmtComplete_forLoop {body : Block} (hbody : BlockComplete body) (var : Name)
    (first last : Expr) (a : Span) : StmtComplete (.forLoop var first last body a) := by
  intro ts s next h hread _
  cases h with
  | forLoop _ a b c hf hl hb =>
    simp only [reads_cons, reads_append] at hread
    obtain ⟨s₁, hword, s₂, hvar, s₃, heq, s₄, hts, s₅, hcomma, s₆, hus, hvs⟩ := hread
    have hbrace : s₆.kind = .punct .lbrace := by
      cases hb
      exact hvs.head_kind
    rw [statement, hword.kind]
    simp only [Reply.lax_gives, Reply.andThen_gives, punct_gives, keyword_gives, identifier_gives,
      Reply.done_gives]
    exact ⟨a, s₁, hword, var, s₂, hvar, b, s₃, heq, first, s₄,
      (expr_complete first).expression hf hts (ends_of_kind hcomma.kind rfl), c, s₅, hcomma, last,
      s₆, (expr_complete last).expression hl hus (ends_of_kind hbrace rfl), body, next,
      hbody _ s₆ next hb hvs, rfl, rfl⟩

theorem stmtComplete_return (value : Option Expr) (a : Span) :
    StmtComplete (.returnFrom value a) := by
  intro ts s next h hread _
  cases h with
  | returnNothing a b =>
    simp only [reads_cons, reads_nil] at hread
    obtain ⟨s₁, hword, s₂, hsemi, rfl⟩ := hread
    rw [statement, hword.kind]
    simp only [Reply.lax_gives, Reply.andThen_gives, punct_gives, keyword_gives, Reply.done_gives]
    refine ⟨a, s₁, hword, none, s₁, ?_, b, _, hsemi, rfl, rfl⟩
    rw [returnValue, if_pos hsemi.kind]
    exact Reply.done_gives.2 ⟨rfl, rfl⟩
  | @returnValue _ value a b hv =>
    simp only [reads_cons, reads_append, reads_nil] at hread
    obtain ⟨s₁, hword, s₂, hts, s₃, hsemi, rfl⟩ := hread
    have hopens := exprSpelled_opens value hv hts
    have hne : s₁.kind ≠ .punct .semi := fun h => by simp [h, TokenKind.opensExpr] at hopens
    rw [statement, hword.kind]
    simp only [Reply.lax_gives, Reply.andThen_gives, punct_gives, keyword_gives, Reply.done_gives]
    refine ⟨a, s₁, hword, some value, s₂, ?_, b, _, hsemi, rfl, rfl⟩
    rw [returnValue, if_neg hne]
    simp only [Reply.lax_gives, Reply.map_gives]
    exact ⟨value, (expr_complete value).expression hv hts (ends_of_kind hsemi.kind rfl), rfl⟩

theorem jump_gives {word : Keyword} {make : Span → Stmt} {a b : Span} {s next : TokenStream}
    (hread : Reads s [⟨.keyword word, a⟩, ⟨.punct .semi, b⟩] next) :
    (jump word make s).Gives (make (a.merge b)) next := by
  simp only [reads_cons, reads_nil] at hread
  obtain ⟨s₁, hword, s₂, hsemi, rfl⟩ := hread
  simp only [jump, Reply.lax_gives, Reply.andThen_gives, punct_gives, keyword_gives,
    Reply.done_gives]
  exact ⟨a, s₁, hword, b, _, hsemi, rfl, rfl⟩

theorem stmtComplete_break (a : Span) : StmtComplete (.breakLoop a) := by
  intro ts s next h hread _
  cases h
  rw [statement, hread.head_kind]
  exact jump_gives hread

theorem stmtComplete_continue (a : Span) : StmtComplete (.continueLoop a) := by
  intro ts s next h hread _
  cases h
  rw [statement, hread.head_kind]
  exact jump_gives hread

theorem stmtComplete_block {inner : Block} (hinner : BlockComplete inner) (a : Span) :
    StmtComplete (.block inner a) := by
  intro ts s next h hread _
  cases h with
  | block hb =>
    have hgives := hinner ts s next hb hread
    have hbrace : s.kind = .punct .lbrace := by
      cases hb
      exact hread.head_kind
    rw [statement, hbrace]
    exact Reply.map_gives.2 ⟨inner, hgives, rfl⟩

mutual

theorem stmt_complete : (stmt : Stmt) → StmtComplete stmt
  | .assign target op value a => stmtComplete_assign target op value a
  | .call called a => stmtComplete_call called a
  | .ifThen condition body a => stmtComplete_ifThen (block_complete body) condition a
  | .ifElse condition body other a =>
    stmtComplete_ifElse (block_complete body) (block_complete other) condition a
  | .forLoop var first last body a => stmtComplete_forLoop (block_complete body) var first last a
  | .returnFrom value a => stmtComplete_return value a
  | .breakLoop a => stmtComplete_break a
  | .continueLoop a => stmtComplete_continue a
  | .block inner a => stmtComplete_block (block_complete inner) a

theorem block_complete : (b : Block) → BlockComplete b
  | .mk locals body a => blockComplete_mk (stmts_complete body) locals a

theorem stmts_complete : (stmts : List Stmt) → ∀ stmt ∈ stmts, StmtComplete stmt
  | [], _, h => nomatch h
  | first :: others, stmt, h => by
    rcases List.mem_cons.1 h with h | h
    · exact h ▸ stmt_complete first
    · exact stmts_complete others stmt h

end

theorem fieldName_gives {field : FieldName} {ts : List Token} {s next : TokenStream}
    (h : FieldNameSpelled ts field) (hread : Reads s ts next)
    (hbehind : next.kind = .punct .comma ∨ next.kind = .punct .semi) :
    ∃ name s₁, Step s ⟨.identifier name.text, name.span⟩ s₁ ∧ s₁.kind ≠ .punct .lparen ∧
      (fieldName name s₁).Gives field next := by
  cases h with
  | scalar name a =>
    simp only [reads_cons, reads_nil] at hread
    obtain ⟨s₁, hname, rfl⟩ := hread
    refine ⟨⟨name, a⟩, _, hname, by rcases hbehind with h | h <;> simp [h], ?_⟩
    rw [fieldName, if_neg (by rcases hbehind with h | h <;> simp [h])]
    exact Reply.done_gives.2 ⟨rfl, rfl⟩
  | @array kind size name a b c d hk =>
    simp only [reads_cons, reads_nil] at hread
    obtain ⟨s₁, hname, s₂, hopen, s₃, hsize, s₄, hclose, rfl⟩ := hread
    refine ⟨⟨name, a⟩, s₁, hname, by simp [hopen.kind], ?_⟩
    rw [fieldName, if_pos hopen.kind]
    simp only [Reply.lax_gives, Reply.andThen_gives, punct_gives, arraySize_gives,
      Reply.done_gives]
    exact ⟨b, s₂, hopen, size, s₃, ⟨kind, c, hsize, hk⟩, d, _, hclose, rfl, rfl⟩

/-- Behind the type and the first name of a field stands no parenthesis. -/
theorem field_gives {decl : FieldDecl} {ts : List Token} {s next : TokenStream}
    (h : FieldSpelled ts decl) (hread : Reads s ts next) :
    ∃ type a s₁ name s₂, Step s ⟨ScalarType.kind type, a⟩ s₁ ∧
      Step s₁ ⟨.identifier name.text, name.span⟩ s₂ ∧ s₂.kind ≠ .punct .lparen ∧
      (fieldRest a type name s₂).Gives decl next := by
  cases h with
  | @mk ts us first others type a b hf ho =>
    simp only [reads_cons, reads_append, reads_nil] at hread
    obtain ⟨s₁, htype, s₂, hts, s₃, hus, s₄, hsemi, rfl⟩ := hread
    obtain ⟨hmore, hbehind⟩ := moreFieldNames_repeats.gives_afterComma
      (fun kind => kind = .punct .comma ∨ kind = .punct .semi) (.inl rfl)
      (fun field _ us s₁ s₂ hfield hread hbehind => by
        obtain ⟨name, s₃, hname, -, hgives⟩ := fieldName_gives hfield hread hbehind
        exact fieldItem_gives.2 ⟨name, s₃, hname, hgives⟩)
      ho hus (by simp [hsemi.kind]) (.inr hsemi.kind)
    obtain ⟨name, s₅, hname, hcall, hfirst⟩ := fieldName_gives hf hts hbehind
    refine ⟨type, a, s₁, name, s₅, htype, hname, hcall, ?_⟩
    simp only [fieldRest, Reply.andThenRead_gives, Reply.map_gives, punct_gives]
    exact ⟨first, s₂, hfirst, others, s₃, hmore, b, hsemi, rfl⟩

theorem param_gives {p : Param} {ts : List Token} {s next : TokenStream} (h : ParamSpelled ts p)
    (hread : Reads s ts next) : (param s).Gives p next := by
  cases h with
  | mk name type a b =>
    simp only [reads_cons, reads_nil] at hread
    obtain ⟨s₁, htype, s₂, hname, rfl⟩ := hread
    simp only [param, Reply.lax_gives, Reply.andThen_gives, typeName_gives, identifier_gives,
      Reply.done_gives, htype.span]
    exact ⟨type, s₁, ⟨a, htype⟩, ⟨name, b⟩, _, hname, rfl, rfl⟩

theorem params_gives {ps : List Param} {ts : List Token} {s next : TokenStream}
    (h : Separated ParamSpelled ts ps) (hread : Reads s ts next)
    (hclose : next.kind = .punct .rparen) : (params s).Gives ps next := by
  unfold params
  cases h with
  | none =>
    obtain rfl := reads_nil.1 hread
    rw [if_pos hclose]
    exact Reply.done_gives.2 ⟨rfl, rfl⟩
  | @some ts us first others hfirst hothers =>
    obtain ⟨s₁, hts, hus⟩ := reads_append.1 hread
    have hne : s.kind ≠ .punct .rparen := by
      cases hfirst with
      | mk name type a b =>
        rw [hts.head_kind]
        cases type <;> simp [ScalarType.kind]
    obtain ⟨hmore, -⟩ := moreParams_repeats.gives_afterComma (fun _ => True) trivial
      (fun _ _ _ _ _ hp hread _ => param_gives hp hread) hothers hus (by simp [hclose]) trivial
    rw [if_neg hne]
    simp only [Reply.lax_gives, Reply.andThen_gives, Reply.done_gives]
    exact ⟨first, s₁, param_gives hfirst hts, others, next, hmore, rfl, rfl⟩

theorem method_gives {decl : MethodDecl} {ts : List Token} {s next : TokenStream}
    (h : MethodSpelled ts decl) (hread : Reads s ts next) :
    ∃ result a s₁ name s₂, Step s ⟨resultKind result, a⟩ s₁ ∧
      Step s₁ ⟨.identifier name.text, name.span⟩ s₂ ∧ s₂.kind = .punct .lparen ∧
      (methodRest a result name s₂).Gives decl next := by
  cases h with
  | @mk ts us ps body name result a b c d hp hb =>
    simp only [reads_cons, reads_append] at hread
    obtain ⟨s₁, htype, s₂, hname, s₃, hopen, s₄, hts, s₅, hclose, hus⟩ := hread
    refine ⟨result, a, s₁, ⟨name, b⟩, s₂, htype, hname, hopen.kind, ?_⟩
    simp only [methodRest, Reply.lax_gives, Reply.andThen_gives, punct_gives, Reply.done_gives]
    exact ⟨c, s₃, hopen, ps, s₄, params_gives hp hts hclose.kind, d, s₅, hclose, body, next,
      block_complete body us s₅ next hb hus, rfl, rfl⟩

theorem resultKind_opens (result : Option ScalarType) :
    ¬ (resultKind result = .punct .rbrace ∨ resultKind result = .eof) := by
  rcases result with _ | _ | _ <;> simp [resultKind, ScalarType.kind]

theorem members_methods {methods : List MethodDecl} {ts : List Token} {next : TokenStream}
    (h : Each MethodSpelled ts methods) (hstop : next.kind = .punct .rbrace) :
    ∀ after s, Reads s ts next → (members after s).Gives ⟨[], methods⟩ next := by
  induction h with
  | nil =>
    intro after s hread
    obtain rfl := reads_nil.1 hread
    rw [members, if_pos (.inl hstop)]
    exact Reply.done_gives.2 ⟨rfl, rfl⟩
  | @cons ts us decl methods hdecl _ ih =>
    intro after s hread
    obtain ⟨s₃, hts, hus⟩ := reads_append.1 hread
    obtain ⟨result, a, s₁, name, s₂, htype, hname, hopen, hrest⟩ := method_gives hdecl hts
    rw [members, if_neg (htype.kind ▸ resultKind_opens result)]
    simp only [Reply.lax_gives, Reply.andThen_gives, memberType_gives, identifier_gives]
    refine ⟨result, s₁, ⟨a, htype⟩, name, s₂, hname, ?_⟩
    rw [if_pos hopen, htype.span]
    simp only [Reply.lax_gives, Reply.andThen_gives, Reply.done_gives]
    exact ⟨decl, s₃, hrest, ⟨[], methods⟩, next, ih true s₃ hus, rfl, rfl⟩

theorem members_fields {fields : List FieldDecl} {methods : List MethodDecl} {ts : List Token}
    {mid next : TokenStream} (h : Each FieldSpelled ts fields)
    (hmethods : (members false mid).Gives ⟨[], methods⟩ next) :
    ∀ s, Reads s ts mid → (members false s).Gives ⟨fields, methods⟩ next := by
  induction h with
  | nil =>
    intro s hread
    obtain rfl := reads_nil.1 hread
    exact hmethods
  | @cons ts us decl fields hdecl _ ih =>
    intro s hread
    obtain ⟨s₃, hts, hus⟩ := reads_append.1 hread
    obtain ⟨type, a, s₁, name, s₂, htype, hname, hcall, hrest⟩ := field_gives hdecl hts
    rw [members, if_neg (htype.kind ▸ resultKind_opens (some type))]
    simp only [Reply.lax_gives, Reply.andThen_gives, memberType_gives, identifier_gives]
    refine ⟨some type, s₁, ⟨a, htype⟩, name, s₂, hname, ?_⟩
    rw [if_neg hcall, htype.span]
    simp only [Bool.false_eq_true, if_false, Reply.lax_gives, Reply.andThen_gives,
      Reply.done_gives]
    exact ⟨decl, s₃, hrest, ⟨fields, methods⟩, next, ih s₃ hus, rfl, rfl⟩

theorem program_gives {p : Program} {ts : List Token} {s next : TokenStream}
    (h : ProgramSpelled ts p) (hread : Reads s ts next) (hend : next.kind = .eof) :
    (program s).Gives p next := by
  cases h with
  | @mk ts us fields methods name a b c d hf hm =>
    simp only [reads_cons, reads_append, reads_nil] at hread
    obtain ⟨s₁, hword, s₂, hname, s₃, hopen, s₄, hts, s₅, hus, s₆, hclose, rfl⟩ := hread
    simp only [program, Reply.lax_gives, Reply.andThen_gives, keyword_gives, identifier_gives,
      punct_gives]
    refine ⟨a, s₁, hword, ⟨name, b⟩, s₂, hname, c, s₃, hopen, ⟨fields, methods⟩, s₅,
      members_fields hf (members_methods hm hclose.kind false s₄ hus) s₃ hts, d, _, hclose, ?_⟩
    rw [if_pos hend]
    exact Reply.done_gives.2 ⟨rfl, rfl⟩

end Parser

end Decaf
