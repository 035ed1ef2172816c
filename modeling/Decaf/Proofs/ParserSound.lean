import Decaf.Proofs.Reading

namespace Decaf.Parser

open TokenStream Grammar

section Lists

variable {α : Type} {R : List Token → α → Prop}

/-- The rule `many` reads items for as long as the next token says that there is one. -/
def Repeats (going : TokenKind → Prop) (item : (s : TokenStream) → Reply α s.size)
    (many : (s : TokenStream) → Reply (List α) (s.size + 1)) : Prop :=
  ∀ s xs next, (many s).Gives xs next ↔
    (¬ going s.kind ∧ xs = [] ∧ next = s) ∨
    (going s.kind ∧ ∃ x s₁ others,
      (item s).Gives x s₁ ∧ (many s₁).Gives others next ∧ xs = x :: others)

theorem Repeats.spelled {going : TokenKind → Prop} {item : (s : TokenStream) → Reply α s.size}
    {many : (s : TokenStream) → Reply (List α) (s.size + 1)} (hmany : Repeats going item many)
    {s next : TokenStream} {xs : List α}
    (hitem : ∀ s₁ x s₂, s₁.size ≤ s.size → (item s₁).Gives x s₂ → ∃ ts, Reads s₁ ts s₂ ∧ R ts x)
    (h : (many s).Gives xs next) :
    ∃ ts, Reads s ts next ∧ Each R ts xs ∧ ¬ going next.kind := by
  induction xs generalizing s with
  | nil =>
    obtain ⟨hstop, -, rfl⟩ | ⟨-, x, s₁, others, -, -, hxs⟩ := (hmany _ _ _).1 h
    · exact ⟨[], .nil _, .nil, hstop⟩
    · cases hxs
  | cons x xs ih =>
    obtain ⟨-, hxs, -⟩ | ⟨-, _, s₁, _, hx, hrest, hxs⟩ := (hmany _ _ _).1 h
    · cases hxs
    · cases hxs
      obtain ⟨ts, hread, hspelled⟩ := hitem s x s₁ (Nat.le_refl _) hx
      have hle : s₁.size ≤ s.size := Nat.le_of_lt hx.shorter
      obtain ⟨us, hread', heach, hstop⟩ :=
        ih (fun s₂ y s₃ hs => hitem s₂ y s₃ (Nat.le_trans hs hle)) hrest
      exact ⟨ts ++ us, hread.append hread', .cons hspelled heach, hstop⟩

/-- A comma and then the item. -/
def afterComma (item : (s : TokenStream) → Reply α s.size) (s : TokenStream) : Reply α s.size :=
  (s.punct .comma).andThen fun _ s₁ _ => (item s₁).lax

theorem afterComma_gives {item : (s : TokenStream) → Reply α s.size} {s next : TokenStream}
    {x : α} : (afterComma item s).Gives x next ↔
      ∃ a s₁, Step s ⟨.punct .comma, a⟩ s₁ ∧ (item s₁).Gives x next := by
  simp [afterComma]

theorem afterComma_spelled {item : (s : TokenStream) → Reply α s.size} {s next : TokenStream}
    {x : α} (hitem : ∀ s₁, s₁.size < s.size → (item s₁).Gives x next →
      ∃ ts, Reads s₁ ts next ∧ R ts x)
    (h : (afterComma item s).Gives x next) : ∃ ts, Reads s ts next ∧ AfterComma R ts x := by
  obtain ⟨a, s₁, hstep, hx⟩ := afterComma_gives.1 h
  obtain ⟨ts, hread, hspelled⟩ := hitem s₁ hstep.shorter hx
  exact ⟨_, .cons hstep hread, .mk a hspelled⟩

theorem repeats_afterComma {item : (s : TokenStream) → Reply α s.size}
    {many : (s : TokenStream) → Reply (List α) (s.size + 1)}
    (hmany : ∀ s, many s =
      if s.kind = .punct .comma then
        .lax <| (s.punct .comma).andThen fun _ s₁ _ =>
        (item s₁).lax.andThen fun first s₂ _ =>
        (many s₂).andThen fun others s₃ _ =>
        .done (first :: others) s₃
      else
        .done [] s) :
    Repeats (· = .punct .comma) (afterComma item) many := by
  intro s xs next
  rw [hmany]
  split
  · next hcomma =>
    simp only [Reply.lax_gives, Reply.andThen_gives, punct_gives, Reply.done_gives,
      afterComma_gives, hcomma, not_true_eq_false, false_and, false_or, true_and]
    constructor
    · rintro ⟨a, s₁, hstep, x, s₂, hx, others, s₃, hrest, rfl, rfl⟩
      exact ⟨x, s₂, others, ⟨a, s₁, hstep, hx⟩, hrest, rfl⟩
    · rintro ⟨x, s₂, others, ⟨a, s₁, hstep, hx⟩, hrest, rfl⟩
      exact ⟨a, s₁, hstep, x, s₂, hx, others, next, hrest, rfl, rfl⟩
  · next hother => simp [hother]

end Lists

theorem moreArguments_repeats :
    Repeats (· = .punct .comma) (afterComma expression) moreArguments :=
  repeats_afterComma fun s => by rw [moreArguments]

theorem calloutArguments_repeats :
    Repeats (· = .punct .comma) (afterComma calloutArgument) calloutArguments :=
  repeats_afterComma fun s => by rw [calloutArguments]

mutual

theorem expression_spelled {s next : TokenStream} {e : Expr} (h : (expression s).Gives e next) :
    ∃ ts, Reads s ts next ∧ ExprSpelled ts e := by
  rw [expression] at h
  obtain ⟨ts, hread, he, -⟩ := binary_spelled h
  exact ⟨ts, hread, he⟩
termination_by 16 * s.size + 10
decreasing_by simp [BinaryOp.loosest]

theorem binary_spelled {level : Nat} {s next : TokenStream} {e : Expr}
    (h : (binary level s).Gives e next) :
    ∃ ts, Reads s ts next ∧ ExprSpelled ts e ∧ e.level ≤ level := by
  cases level with
  | zero =>
    rw [binary] at h
    obtain ⟨ts, hread, he, hlevel⟩ := unary_spelled h
    exact ⟨ts, hread, he, Nat.le_of_eq hlevel⟩
  | succ below =>
    rw [binary] at h
    obtain ⟨left, s₁, hleft, hops⟩ := Reply.andThen_gives.1 h
    obtain ⟨ts, hread, hl, hlevel⟩ := binary_spelled hleft
    have := hleft.shorter
    obtain ⟨us, hread', he⟩ := operators_spelled hl (Nat.le_succ_of_le hlevel) hops
    exact ⟨ts ++ us, hread.append hread', he⟩
termination_by 16 * s.size + level + 3

/-- The left operand grows by one operator and its right operand at a time. -/
theorem operators_spelled {below : Nat} {left : Expr} {s next : TokenStream} {e : Expr}
    {ts : List Token} (hleft : ExprSpelled ts left) (hlevel : left.level ≤ below + 1)
    (h : (operators below left s).Gives e next) :
    ∃ us, Reads s us next ∧ ExprSpelled (ts ++ us) e ∧ e.level ≤ below + 1 := by
  rw [operators] at h
  split at h
  · obtain ⟨rfl, rfl⟩ := Reply.done_gives.1 h
    exact ⟨[], .nil _, by rwa [List.append_nil], hlevel⟩
  · next op hop =>
    obtain ⟨-, hbelow⟩ := BinaryOp.atLevel?_eq_some_iff.1 hop
    simp only [Reply.lax_gives, Reply.andThen_gives, punct_gives] at h
    obtain ⟨a, s₁, hstep, right, s₂, hright, hmore⟩ := h
    have := hstep.shorter
    have := hright.shorter
    obtain ⟨us, hread, hr, hlevel'⟩ := binary_spelled hright
    have hnode : ExprSpelled (ts ++ ⟨.punct op.mark, a⟩ :: us)
        (.binary op left right (left.span.merge right.span)) :=
      .binary op a hleft (hbelow ▸ hlevel) hr (by omega)
    obtain ⟨vs, hread', he⟩ := operators_spelled hnode (Nat.le_of_eq hbelow) hmore
    refine ⟨⟨.punct op.mark, a⟩ :: us ++ vs, .cons hstep (hread.append hread'), ?_⟩
    rwa [← List.append_assoc]
termination_by 16 * s.size + below + 4

theorem unary_spelled {s next : TokenStream} {e : Expr} (h : (unary s).Gives e next) :
    ∃ ts, Reads s ts next ∧ ExprSpelled ts e ∧ e.level = 0 := by
  rw [unary] at h
  split at h
  · exact primary_spelled h
  · next op _ =>
    simp only [Reply.lax_gives, Reply.andThen_gives, punct_gives, Reply.done_gives] at h
    obtain ⟨a, s₁, hstep, operand, s₂, hoperand, rfl, rfl⟩ := h
    have := hstep.shorter
    obtain ⟨ts, hread, ho, hlevel⟩ := unary_spelled hoperand
    exact ⟨_, .cons hstep hread, .unary op a ho hlevel, rfl⟩
termination_by 16 * s.size + 2

theorem primary_spelled {s next : TokenStream} {e : Expr} (h : (primary s).Gives e next) :
    ∃ ts, Reads s ts next ∧ ExprSpelled ts e ∧ e.level = 0 := by
  rw [primary] at h
  split at h
  · obtain ⟨kind, a, text, hstep, hk, rfl⟩ := pick_map_gives.1 h
    exact ⟨_, .one hstep, .int a hk, rfl⟩
  · obtain ⟨kind, a, text, hstep, hk, rfl⟩ := pick_map_gives.1 h
    exact ⟨_, .one hstep, .int a hk, rfl⟩
  · obtain ⟨kind, a, text, hstep, hk, rfl⟩ := pick_map_gives.1 h
    cases kind <;> cases hk
    exact ⟨_, .one hstep, .char text a, rfl⟩
  · simp only [Reply.map_gives, keyword_gives] at h
    obtain ⟨a, hstep, rfl⟩ := h
    exact ⟨_, .one hstep, .bool true a, rfl⟩
  · simp only [Reply.map_gives, keyword_gives] at h
    obtain ⟨a, hstep, rfl⟩ := h
    exact ⟨_, .one hstep, .bool false a, rfl⟩
  · obtain ⟨called, hcall, rfl⟩ := Reply.map_gives.1 h
    obtain ⟨ts, hread, hc⟩ := callout_spelled hcall
    exact ⟨ts, hread, .call hc, rfl⟩
  · obtain ⟨name, s₁, hname, hrest⟩ := Reply.andThen_gives.1 h
    have := hname.shorter
    rw [identifier_gives] at hname
    split at hrest
    · simp only [Reply.lax_gives, Reply.map_gives] at hrest
      obtain ⟨called, hcall, rfl⟩ := hrest
      obtain ⟨ts, hread, hc⟩ := call_spelled hcall
      exact ⟨_, .cons hname hread, .call hc, rfl⟩
    · obtain ⟨place, hplace, rfl⟩ := Reply.map_gives.1 hrest
      obtain ⟨ts, hread, hp⟩ := location_spelled hplace
      exact ⟨_, .cons hname hread, .location hp, rfl⟩
  · simp only [Reply.lax_gives, Reply.andThen_gives, punct_gives, Reply.done_gives] at h
    obtain ⟨a, s₁, hopen, inner, s₂, hinner, b, s₃, hclose, rfl, rfl⟩ := h
    have := hopen.shorter
    obtain ⟨ts, hread, hi⟩ := expression_spelled hinner
    exact ⟨_, .cons hopen (hread.append (.one hclose)), .paren a b hi, rfl⟩
  · exact absurd h reject_gives
termination_by 16 * s.size + 1

theorem location_spelled {name : Name} {s next : TokenStream} {place : Location}
    (h : (location name s).Gives place next) :
    ∃ ts, Reads s ts next ∧ PlaceSpelled (⟨.identifier name.text, name.span⟩ :: ts) place := by
  rw [location] at h
  split at h
  · simp only [Reply.lax_gives, Reply.andThen_gives, punct_gives, Reply.done_gives] at h
    obtain ⟨a, s₁, hopen, index, s₂, hindex, b, s₃, hclose, rfl, rfl⟩ := h
    have := hopen.shorter
    obtain ⟨ts, hread, hi⟩ := expression_spelled hindex
    exact ⟨_, .cons hopen (hread.append (.one hclose)), .indexed name.text name.span a b hi⟩
  · obtain ⟨rfl, rfl⟩ := Reply.done_gives.1 h
    exact ⟨[], .nil _, .scalar name.text name.span⟩
termination_by 16 * s.size

theorem call_spelled {name : Name} {s next : TokenStream} {called : Call}
    (h : (call name s).Gives called next) :
    ∃ ts, Reads s ts next ∧ CallSpelled (⟨.identifier name.text, name.span⟩ :: ts) called := by
  rw [call] at h
  simp only [Reply.lax_gives, Reply.andThen_gives, punct_gives, Reply.done_gives] at h
  obtain ⟨a, s₁, hopen, args, s₂, hargs, b, s₃, hclose, rfl, rfl⟩ := h
  have := hopen.shorter
  obtain ⟨ts, hread, hs⟩ := arguments_spelled hargs
  exact ⟨_, .cons hopen (hread.append (.one hclose)), .method name.text name.span a b hs⟩
termination_by 16 * s.size

theorem arguments_spelled {s next : TokenStream} {args : List Expr}
    (h : (arguments s).Gives args next) :
    ∃ ts, Reads s ts next ∧ Separated ExprSpelled ts args := by
  rw [arguments] at h
  split at h
  · obtain ⟨rfl, rfl⟩ := Reply.done_gives.1 h
    exact ⟨[], .nil _, .none⟩
  · simp only [Reply.lax_gives, Reply.andThen_gives, Reply.done_gives] at h
    obtain ⟨first, s₁, hfirst, others, s₂, hothers, rfl, rfl⟩ := h
    have := hfirst.shorter
    obtain ⟨ts, hread, hf⟩ := expression_spelled hfirst
    obtain ⟨us, hread', ho⟩ := moreArguments_spelled hothers
    exact ⟨_, hread.append hread', .some hf ho⟩
termination_by 16 * s.size + 11

theorem moreArguments_spelled {s next : TokenStream} {args : List Expr}
    (h : (moreArguments s).Gives args next) :
    ∃ ts, Reads s ts next ∧ Each (AfterComma ExprSpelled) ts args := by
  obtain ⟨ts, hread, heach, -⟩ := moreArguments_repeats.spelled
    (fun s₁ x s₂ hle => afterComma_spelled fun s₃ hlt hx => expression_spelled hx) h
  exact ⟨ts, hread, heach⟩
termination_by 16 * s.size

theorem callout_spelled {s next : TokenStream} {called : Call}
    (h : (callout s).Gives called next) :
    ∃ ts, Reads s ts next ∧ CallSpelled ts called := by
  rw [callout] at h
  simp only [Reply.lax_gives, Reply.andThen_gives, punct_gives, keyword_gives, calloutName_gives,
    Reply.done_gives] at h
  obtain ⟨a, s₁, hword, b, s₂, hopen, name, s₃, ⟨c, hname⟩, args, s₄, hargs, d, s₅, hclose, rfl,
    rfl⟩ := h
  have := hword.shorter
  have := hopen.shorter
  have := hname.shorter
  obtain ⟨ts, hread, hs⟩ := calloutArguments_spelled hargs
  exact ⟨_, .cons hword (.cons hopen (.cons hname (hread.append (.one hclose)))),
    .callout name a b c d hs⟩
termination_by 16 * s.size

theorem calloutArguments_spelled {s next : TokenStream} {args : List CalloutArg}
    (h : (calloutArguments s).Gives args next) :
    ∃ ts, Reads s ts next ∧ Each (AfterComma CalloutArgSpelled) ts args := by
  obtain ⟨ts, hread, heach, -⟩ := calloutArguments_repeats.spelled
    (fun s₁ x s₂ hle => afterComma_spelled fun s₃ hlt hx => calloutArgument_spelled hx) h
  exact ⟨ts, hread, heach⟩
termination_by 16 * s.size

theorem calloutArgument_spelled {s next : TokenStream} {arg : CalloutArg}
    (h : (calloutArgument s).Gives arg next) :
    ∃ ts, Reads s ts next ∧ CalloutArgSpelled ts arg := by
  rw [calloutArgument] at h
  split at h
  · obtain ⟨kind, a, text, hstep, hk, rfl⟩ := pick_map_gives.1 h
    cases kind <;> cases hk
    exact ⟨_, .one hstep, .string text a⟩
  · obtain ⟨value, hvalue, rfl⟩ := Reply.map_gives.1 h
    obtain ⟨ts, hread, hv⟩ := expression_spelled hvalue
    exact ⟨ts, hread, .expr hv⟩
termination_by 16 * s.size + 11

end

theorem moreNames_repeats :
    Repeats (· = .punct .comma) (afterComma TokenStream.identifier) moreNames :=
  repeats_afterComma fun s => by rw [moreNames]

theorem moreNames_spelled {s next : TokenStream} {names : List Name}
    (h : (moreNames s).Gives names next) :
    ∃ ts, Reads s ts next ∧ Each (AfterComma NameSpelled) ts names := by
  obtain ⟨ts, hread, heach, -⟩ := moreNames_repeats.spelled
    (fun _ _ _ _ => afterComma_spelled fun _ _ hx =>
      ⟨_, .one (identifier_gives.1 hx), NameSpelled.mk _⟩) h
  exact ⟨ts, hread, heach⟩

theorem varDecl_spelled {s next : TokenStream} {decl : VarDecl}
    (h : (varDecl s).Gives decl next) : ∃ ts, Reads s ts next ∧ VarDeclSpelled ts decl := by
  simp only [varDecl, Reply.lax_gives, Reply.andThen_gives, typeName_gives, identifier_gives,
    punct_gives, Reply.done_gives] at h
  obtain ⟨type, s₁, ⟨a, htype⟩, first, s₂, hfirst, others, s₃, hothers, b, s₄, hsemi, rfl,
    rfl⟩ := h
  obtain ⟨ts, hread, hs⟩ := moreNames_spelled hothers
  rw [htype.span]
  exact ⟨_, .cons htype (.cons hfirst (hread.append (.one hsemi))), .mk type first a b hs⟩

theorem varDecls_repeats : Repeats (fun kind => kind.isType = true) varDecl varDecls := by
  intro s decls next
  rw [varDecls]
  split
  · next htype =>
    simp only [Reply.lax_gives, Reply.andThen_gives, Reply.done_gives, htype, not_true_eq_false,
      false_and, false_or, true_and]
    constructor
    · rintro ⟨first, s₁, hfirst, others, s₂, hothers, rfl, rfl⟩
      exact ⟨first, s₁, others, hfirst, hothers, rfl⟩
    · rintro ⟨first, s₁, others, hfirst, hothers, rfl⟩
      exact ⟨first, s₁, hfirst, others, next, hothers, rfl, rfl⟩
  · next hother => simp [hother]

theorem varDecls_spelled {s next : TokenStream} {decls : List VarDecl}
    (h : (varDecls s).Gives decls next) :
    ∃ ts, Reads s ts next ∧ Each VarDeclSpelled ts decls := by
  obtain ⟨ts, hread, heach, -⟩ := varDecls_repeats.spelled (fun _ _ _ _ => varDecl_spelled) h
  exact ⟨ts, hread, heach⟩

theorem nameStmt_spelled {s next : TokenStream} {stmt : Stmt}
    (h : (nameStmt s).Gives stmt next) : ∃ ts, Reads s ts next ∧ StmtSpelled ts stmt := by
  obtain ⟨name, s₁, hname, hrest⟩ := Reply.andThen_gives.1 h
  rw [identifier_gives] at hname
  rw [hname.span] at hrest
  split at hrest
  · simp only [Reply.lax_gives, Reply.andThen_gives, punct_gives, Reply.done_gives] at hrest
    obtain ⟨called, s₂, hcall, a, s₃, hsemi, rfl, rfl⟩ := hrest
    obtain ⟨ts, hread, hc⟩ := call_spelled hcall
    exact ⟨_, .cons hname (hread.append (.one hsemi)), .call a hc⟩
  · simp only [Reply.lax_gives, Reply.andThen_gives, assignOp_gives, punct_gives,
      Reply.done_gives] at hrest
    obtain ⟨target, s₂, htarget, op, s₃, ⟨a, hop⟩, value, s₄, hvalue, b, s₅, hsemi, rfl,
      rfl⟩ := hrest
    obtain ⟨ts, hread, ht⟩ := location_spelled htarget
    obtain ⟨us, hread', hv⟩ := expression_spelled hvalue
    exact ⟨_, .cons hname (hread.append (.cons hop (hread'.append (.one hsemi)))),
      .assign op a b ht hv⟩

theorem statements_repeats :
    Repeats (fun kind => ¬ (kind = .punct .rbrace ∨ kind = .eof)) statement statements := by
  intro s stmts next
  rw [statements]
  split
  · next hstop => simp [hstop]
  · next hother =>
    simp only [Reply.lax_gives, Reply.andThen_gives, Reply.done_gives, hother, not_false_eq_true,
      not_true_eq_false, false_and, false_or, true_and]
    constructor
    · rintro ⟨first, s₁, hfirst, others, s₂, hothers, rfl, rfl⟩
      exact ⟨first, s₁, others, hfirst, hothers, rfl⟩
    · rintro ⟨first, s₁, others, hfirst, hothers, rfl⟩
      exact ⟨first, s₁, hfirst, others, next, hothers, rfl, rfl⟩

mutual

theorem block_spelled {s next : TokenStream} {b : Block} (h : (block s).Gives b next) :
    ∃ ts, Reads s ts next ∧ BlockSpelled ts b := by
  rw [block] at h
  simp only [Reply.lax_gives, Reply.andThen_gives, punct_gives, Reply.done_gives] at h
  obtain ⟨a, s₁, hopen, locals, s₂, hlocals, body, s₃, hbody, c, s₄, hclose, rfl, rfl⟩ := h
  have := hopen.shorter
  have := hlocals.shorter
  obtain ⟨ts, hread, hl⟩ := varDecls_spelled hlocals
  obtain ⟨us, hread', hb, -⟩ := statements_repeats.spelled
    (fun s₄ x s₅ hle hx => statement_spelled hx) hbody
  exact ⟨_, .cons hopen (hread.append (hread'.append (.one hclose))), .mk a c hl hb⟩
termination_by 3 * s.size

theorem statement_spelled {s next : TokenStream} {stmt : Stmt}
    (h : (statement s).Gives stmt next) : ∃ ts, Reads s ts next ∧ StmtSpelled ts stmt := by
  rw [statement] at h
  split at h
  · simp only [Reply.lax_gives, Reply.andThen_gives, punct_gives, keyword_gives] at h
    obtain ⟨a, s₁, hword, b, s₂, hopen, condition, s₃, hcondition, c, s₄, hclose, body, s₅, hbody,
      hrest⟩ := h
    have := hword.shorter
    have := hopen.shorter
    have := hcondition.shorter
    have := hclose.shorter
    have := hbody.shorter
    obtain ⟨ts, hread, hc⟩ := expression_spelled hcondition
    obtain ⟨us, hread', hb⟩ := block_spelled hbody
    split at hrest
    · simp only [Reply.lax_gives, Reply.andThen_gives, keyword_gives, Reply.done_gives] at hrest
      obtain ⟨d, s₆, helse, other, s₇, hother, rfl, rfl⟩ := hrest
      have := helse.shorter
      obtain ⟨vs, hread'', ho⟩ := block_spelled hother
      exact ⟨_, .cons hword (.cons hopen (hread.append (.cons hclose (hread'.append
        (.cons helse hread''))))), .ifElse a b c d hc hb ho⟩
    · obtain ⟨rfl, rfl⟩ := Reply.done_gives.1 hrest
      exact ⟨_, .cons hword (.cons hopen (hread.append (.cons hclose hread'))),
        .ifThen a b c hc hb⟩
  · simp only [Reply.lax_gives, Reply.andThen_gives, punct_gives, keyword_gives, identifier_gives,
      Reply.done_gives] at h
    obtain ⟨a, s₁, hword, var, s₂, hvar, b, s₃, heq, first, s₄, hfirst, c, s₅, hcomma, last, s₆,
      hlast, body, s₇, hbody, rfl, rfl⟩ := h
    have := hword.shorter
    have := hvar.shorter
    have := heq.shorter
    have := hfirst.shorter
    have := hcomma.shorter
    have := hlast.shorter
    obtain ⟨ts, hread, hf⟩ := expression_spelled hfirst
    obtain ⟨us, hread', hl⟩ := expression_spelled hlast
    obtain ⟨vs, hread'', hb⟩ := block_spelled hbody
    exact ⟨_, .cons hword (.cons hvar (.cons heq (hread.append (.cons hcomma
      (hread'.append hread''))))), .forLoop var a b c hf hl hb⟩
  · simp only [Reply.lax_gives, Reply.andThen_gives, punct_gives, keyword_gives,
      Reply.done_gives] at h
    obtain ⟨a, s₁, hword, value, s₂, hvalue, b, s₃, hsemi, rfl, rfl⟩ := h
    unfold returnValue at hvalue
    split at hvalue
    · obtain ⟨rfl, rfl⟩ := Reply.done_gives.1 hvalue
      exact ⟨_, .cons hword (.one hsemi), .returnNothing a b⟩
    · simp only [Reply.lax_gives, Reply.map_gives] at hvalue
      obtain ⟨value, hvalue, rfl⟩ := hvalue
      obtain ⟨ts, hread, hv⟩ := expression_spelled hvalue
      exact ⟨_, .cons hword (hread.append (.one hsemi)), .returnValue a b hv⟩
  · simp only [jump, Reply.lax_gives, Reply.andThen_gives, punct_gives, keyword_gives,
      Reply.done_gives] at h
    obtain ⟨a, s₁, hword, b, s₂, hsemi, rfl, rfl⟩ := h
    exact ⟨_, .cons hword (.one hsemi), .breakLoop a b⟩
  · simp only [jump, Reply.lax_gives, Reply.andThen_gives, punct_gives, keyword_gives,
      Reply.done_gives] at h
    obtain ⟨a, s₁, hword, b, s₂, hsemi, rfl, rfl⟩ := h
    exact ⟨_, .cons hword (.one hsemi), .continueLoop a b⟩
  · obtain ⟨inner, hinner, rfl⟩ := Reply.map_gives.1 h
    obtain ⟨ts, hread, hb⟩ := block_spelled hinner
    exact ⟨ts, hread, .block hb⟩
  · simp only [Reply.lax_gives, Reply.andThen_gives, punct_gives, Reply.done_gives] at h
    obtain ⟨called, s₁, hcall, a, s₂, hsemi, rfl, rfl⟩ := h
    obtain ⟨ts, hread, hc⟩ := callout_spelled hcall
    cases hread with
    | nil => cases hc
    | cons hstep hread =>
      rw [hstep.span]
      exact ⟨_, .cons hstep (hread.append (.one hsemi)), .call a hc⟩
  · exact nameStmt_spelled h
  · exact absurd h reject_gives
termination_by 3 * s.size + 1

end

theorem fieldName_spelled {name : Name} {s next : TokenStream} {field : FieldName}
    (h : (fieldName name s).Gives field next) :
    ∃ ts, Reads s ts next ∧
      FieldNameSpelled (⟨.identifier name.text, name.span⟩ :: ts) field := by
  unfold fieldName at h
  split at h
  · simp only [Reply.lax_gives, Reply.andThen_gives, punct_gives, arraySize_gives,
      Reply.done_gives] at h
    obtain ⟨a, s₁, hopen, size, s₂, ⟨kind, b, hsize, hk⟩, c, s₃, hclose, rfl, rfl⟩ := h
    exact ⟨_, .cons hopen (.cons hsize (.one hclose)), .array name.text name.span a b c hk⟩
  · obtain ⟨rfl, rfl⟩ := Reply.done_gives.1 h
    exact ⟨[], .nil _, .scalar name.text name.span⟩

def fieldItem (s : TokenStream) : Reply FieldName s.size :=
  s.identifier.andThen fun name s₁ _ => fieldName name s₁

theorem fieldItem_gives {s next : TokenStream} {field : FieldName} :
    (fieldItem s).Gives field next ↔ ∃ name s₁,
      Step s ⟨.identifier name.text, name.span⟩ s₁ ∧ (fieldName name s₁).Gives field next := by
  simp [fieldItem]

theorem moreFieldNames_repeats :
    Repeats (· = .punct .comma) (afterComma fieldItem) moreFieldNames := by
  intro s fields next
  rw [moreFieldNames]
  split
  · next hcomma =>
    simp only [Reply.lax_gives, Reply.andThen_gives, punct_gives, identifier_gives,
      Reply.done_gives, afterComma_gives, fieldItem_gives, hcomma, not_true_eq_false, false_and,
      false_or, true_and]
    constructor
    · rintro ⟨a, s₁, hstep, name, s₂, hname, first, s₃, hfirst, others, s₄, hothers, rfl, rfl⟩
      exact ⟨first, s₃, others, ⟨a, s₁, hstep, name, s₂, hname, hfirst⟩, hothers, rfl⟩
    · rintro ⟨first, s₃, others, ⟨a, s₁, hstep, name, s₂, hname, hfirst⟩, hothers, rfl⟩
      exact ⟨a, s₁, hstep, name, s₂, hname, first, s₃, hfirst, others, next, hothers, rfl, rfl⟩
  · next hother => simp [hother]

theorem fieldItem_spelled {s next : TokenStream} {field : FieldName}
    (h : (fieldItem s).Gives field next) : ∃ ts, Reads s ts next ∧ FieldNameSpelled ts field := by
  obtain ⟨name, s₁, hname, hfield⟩ := fieldItem_gives.1 h
  obtain ⟨ts, hread, hf⟩ := fieldName_spelled hfield
  exact ⟨_, .cons hname hread, hf⟩

theorem fieldRest_spelled {a : Span} {type : ScalarType} {name : Name} {s next : TokenStream}
    {decl : FieldDecl} (h : (fieldRest a type name s).Gives decl next) :
    ∃ ts, Reads s ts next ∧
      FieldSpelled (⟨type.kind, a⟩ :: ⟨.identifier name.text, name.span⟩ :: ts) decl := by
  simp only [fieldRest, Reply.andThenRead_gives, Reply.map_gives, punct_gives] at h
  obtain ⟨first, s₁, hfirst, others, s₂, hothers, b, hsemi, rfl⟩ := h
  obtain ⟨ts, hread, hf⟩ := fieldName_spelled hfirst
  obtain ⟨us, hread', ho, -⟩ := moreFieldNames_repeats.spelled
    (fun _ _ _ _ => afterComma_spelled fun _ _ => fieldItem_spelled) hothers
  exact ⟨_, hread.append (hread'.append (.one hsemi)), .mk type a b hf ho⟩

theorem param_spelled {s next : TokenStream} {p : Param} (h : (param s).Gives p next) :
    ∃ ts, Reads s ts next ∧ ParamSpelled ts p := by
  simp only [param, Reply.lax_gives, Reply.andThen_gives, typeName_gives, identifier_gives,
    Reply.done_gives] at h
  obtain ⟨type, s₁, ⟨a, htype⟩, name, s₂, hname, rfl, rfl⟩ := h
  rw [htype.span]
  exact ⟨_, .cons htype (.one hname), .mk name.text type a name.span⟩

theorem moreParams_repeats : Repeats (· = .punct .comma) (afterComma param) moreParams :=
  repeats_afterComma fun s => by rw [moreParams]

theorem params_spelled {s next : TokenStream} {ps : List Param} (h : (params s).Gives ps next) :
    ∃ ts, Reads s ts next ∧ Separated ParamSpelled ts ps := by
  unfold params at h
  split at h
  · obtain ⟨rfl, rfl⟩ := Reply.done_gives.1 h
    exact ⟨[], .nil _, .none⟩
  · simp only [Reply.lax_gives, Reply.andThen_gives, Reply.done_gives] at h
    obtain ⟨first, s₁, hfirst, others, s₂, hothers, rfl, rfl⟩ := h
    obtain ⟨ts, hread, hf⟩ := param_spelled hfirst
    obtain ⟨us, hread', ho, -⟩ := moreParams_repeats.spelled
      (fun _ _ _ _ => afterComma_spelled fun _ _ => param_spelled) hothers
    exact ⟨_, hread.append hread', .some hf ho⟩

theorem methodRest_spelled {a : Span} {result : Option ScalarType} {name : Name}
    {s next : TokenStream} {decl : MethodDecl} (h : (methodRest a result name s).Gives decl next) :
    ∃ ts, Reads s ts next ∧
      MethodSpelled (⟨resultKind result, a⟩ :: ⟨.identifier name.text, name.span⟩ :: ts)
        decl := by
  simp only [methodRest, Reply.lax_gives, Reply.andThen_gives, punct_gives, Reply.done_gives] at h
  obtain ⟨b, s₁, hopen, ps, s₂, hparams, c, s₃, hclose, body, s₄, hbody, rfl, rfl⟩ := h
  obtain ⟨ts, hread, hp⟩ := params_spelled hparams
  obtain ⟨us, hread', hb⟩ := block_spelled hbody
  exact ⟨_, .cons hopen (hread.append (.cons hclose hread')),
    .mk name.text result a name.span b c hp hb⟩

theorem memberType_gives {s next : TokenStream} {result : Option ScalarType} :
    (memberType s).Gives result next ↔ ∃ a, Step s ⟨resultKind result, a⟩ next := by
  unfold memberType
  split
  · next hvoid =>
    simp only [Reply.map_gives, keyword_gives]
    constructor
    · rintro ⟨a, hstep, rfl⟩
      exact ⟨a, hstep⟩
    · rintro ⟨a, hstep⟩
      have hk : TokenKind.keyword .void = resultKind result := hvoid.symm.trans hstep.kind
      rcases result with _ | _ | _
      · exact ⟨a, hstep, rfl⟩
      · cases hk
      · cases hk
  · next hother =>
    simp only [Reply.map_gives, typeName_gives]
    constructor
    · rintro ⟨type, ⟨a, hstep⟩, rfl⟩
      exact ⟨a, hstep⟩
    · rintro ⟨a, hstep⟩
      cases result with
      | none => exact absurd hstep.kind hother
      | some type => exact ⟨type, ⟨a, hstep⟩, rfl⟩

theorem each_nil {α : Type} {R : List Token → α → Prop} {ts : List Token} (h : Each R ts []) :
    ts = [] := by
  cases h
  rfl

/-- Behind a method there are no more fields. -/
theorem members_spelled {after : Bool} {s next : TokenStream} {found : Members}
    (h : (members after s).Gives found next) :
    ∃ ts us, Reads s (ts ++ us) next ∧ Each FieldSpelled ts found.fields ∧
      Each MethodSpelled us found.methods ∧ (after = true → found.fields = []) := by
  rw [members] at h
  split at h
  · obtain ⟨rfl, rfl⟩ := Reply.done_gives.1 h
    exact ⟨[], [], .nil _, .nil, .nil, fun _ => rfl⟩
  · simp only [Reply.lax_gives, Reply.andThen_gives, memberType_gives, identifier_gives] at h
    obtain ⟨result, s₁, ⟨a, htype⟩, name, s₂, hname, hrest⟩ := h
    have := htype.shorter
    have := hname.shorter
    rw [htype.span] at hrest
    split at hrest
    · simp only [Reply.lax_gives, Reply.andThen_gives, Reply.done_gives] at hrest
      obtain ⟨decl, s₃, hdecl, others, s₄, hothers, rfl, rfl⟩ := hrest
      have := hdecl.shorter
      obtain ⟨ts, hread, hd⟩ := methodRest_spelled hdecl
      obtain ⟨fs, ms, hread', hf, hm, hnone⟩ := members_spelled hothers
      -- The members behind a method are read with fields switched off.
      have hfields : others.fields = [] := hnone rfl
      rw [hfields] at hf
      rw [each_nil hf, List.nil_append] at hread'
      exact ⟨[], _, .cons htype (.cons hname (hread.append hread')), hfields ▸ .nil,
        .cons hd hm, fun _ => hfields⟩
    · split at hrest
      · exact absurd hrest Reply.fail_gives
      · split at hrest
        · exact absurd hrest Reply.fail_gives
        · next hafter =>
          simp only [Reply.lax_gives, Reply.andThen_gives, Reply.done_gives] at hrest
          obtain ⟨decl, s₃, hdecl, others, s₄, hothers, rfl, rfl⟩ := hrest
          have := hdecl.shorter
          obtain ⟨ts, hread, hd⟩ := fieldRest_spelled hdecl
          obtain ⟨fs, ms, hread', hf, hm, -⟩ := members_spelled hothers
          refine ⟨_, ms, ?_, .cons hd hf, hm, fun h => absurd h hafter⟩
          rw [List.append_assoc]
          exact .cons htype (.cons hname (hread.append hread'))
termination_by s.size

theorem program_spelled {s next : TokenStream} {p : Program} (h : (program s).Gives p next) :
    ∃ ts, Reads s ts next ∧ ProgramSpelled ts p ∧ next.kind = .eof := by
  simp only [program, Reply.lax_gives, Reply.andThen_gives, keyword_gives, identifier_gives,
    punct_gives] at h
  obtain ⟨a, s₁, hword, name, s₂, hname, b, s₃, hopen, found, s₄, hfound, c, s₅, hclose,
    hrest⟩ := h
  split at hrest
  · next hend =>
    obtain ⟨rfl, rfl⟩ := Reply.done_gives.1 hrest
    obtain ⟨ts, us, hread, hf, hm, -⟩ := members_spelled hfound
    refine ⟨_, .cons hword (.cons hname (.cons hopen (hread.append (.one hclose)))), ?_, hend⟩
    rw [List.append_assoc]
    exact .mk name.text a name.span b c hf hm
  · exact absurd hrest reject_gives

end Decaf.Parser
