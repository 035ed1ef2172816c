import Decaf.Proofs.Unparse

namespace Decaf.Grammar

/-- The kind a literal of this text is written with; every other kind is itself. -/
def normalKind (kind : TokenKind) : TokenKind := (kind.integer?.map integerKind).getD kind

theorem normalKind_integer {kind : TokenKind} {text : String} (h : kind.integer? = some text) :
    normalKind kind = integerKind text := by
  rw [normalKind, h]
  rfl

theorem integer?_integerKind (text : String) : (integerKind text).integer? = some text := by
  unfold integerKind
  split <;> rfl

def normalKinds (ts : List Token) : List TokenKind := ts.map fun t => normalKind t.kind

@[simp] theorem normalKinds_nil : normalKinds [] = [] := rfl

@[simp] theorem normalKinds_cons (t : Token) (ts : List Token) :
    normalKinds (t :: ts) = normalKind t.kind :: normalKinds ts := rfl

@[simp] theorem normalKinds_append (ts us : List Token) :
    normalKinds (ts ++ us) = normalKinds ts ++ normalKinds us := List.map_append

@[simp] theorem normalKind_punct (mark : Punct) : normalKind (.punct mark) = .punct mark := rfl

@[simp] theorem normalKind_keyword (word : Keyword) :
    normalKind (.keyword word) = .keyword word := rfl

@[simp] theorem normalKind_identifier (name : String) :
    normalKind (.identifier name) = .identifier name := rfl

@[simp] theorem normalKind_charLiteral (text : String) :
    normalKind (.charLiteral text) = .charLiteral text := rfl

@[simp] theorem normalKind_stringLiteral (text : String) :
    normalKind (.stringLiteral text) = .stringLiteral text := rfl

@[simp] theorem normalKind_scalarType (type : ScalarType) :
    normalKind type.kind = type.kind := by
  cases type <;> rfl

@[simp] theorem normalKind_resultKind (result : Option ScalarType) :
    normalKind (resultKind result) = resultKind result := by
  cases result with
  | none => rfl
  | some type => exact normalKind_scalarType type

/-- Tokens written with the kinds of one item spell an item that differs from it in spans only. -/
def Respelled {α : Type} (R : List Token → α → Prop) (kinds : α → List TokenKind) (bare : α → α)
    (x : α) : Prop :=
  ∀ ts : List Token, ts.map Token.kind = kinds x → ∃ y, R ts y ∧ bare y = bare x

theorem map_kind_eq_cons {ts : List Token} {kind : TokenKind} {kinds : List TokenKind}
    (h : ts.map Token.kind = kind :: kinds) :
    ∃ a us, ts = ⟨kind, a⟩ :: us ∧ us.map Token.kind = kinds := by
  obtain ⟨t, us, rfl, rfl, hus⟩ := List.map_eq_cons_iff.1 h
  exact ⟨t.span, us, rfl, hus⟩

theorem map_kind_eq_singleton {ts : List Token} {kind : TokenKind}
    (h : ts.map Token.kind = [kind]) : ∃ a, ts = [⟨kind, a⟩] := by
  obtain ⟨a, us, rfl, hus⟩ := map_kind_eq_cons h
  rw [List.map_eq_nil_iff.1 hus]
  exact ⟨a, rfl⟩

section Lists

variable {α : Type} {R : List Token → α → Prop} {kinds : α → List TokenKind} {bare : α → α}
  {canonical : α → Prop} {ts : List Token} {xs : List α}

theorem Each.written (h : Each R ts xs)
    (hx : ∀ x ∈ xs, ∀ us, R us x → normalKinds us = kinds x ∧ canonical x) :
    normalKinds ts = xs.flatMap kinds ∧ ∀ x ∈ xs, canonical x := by
  induction h with
  | nil => simp
  | @cons us vs x xs hspelled _ ih =>
    obtain ⟨hkinds, hcanonical⟩ := hx x (.head xs) us hspelled
    obtain ⟨hkinds', hcanonical'⟩ := ih fun y hy => hx y (.tail x hy)
    refine ⟨by rw [normalKinds_append, hkinds, hkinds', List.flatMap_cons], ?_⟩
    exact List.forall_mem_cons.2 ⟨hcanonical, hcanonical'⟩

theorem Each.written_afterComma (h : Each (AfterComma R) ts xs)
    (hx : ∀ x ∈ xs, ∀ us, R us x → normalKinds us = kinds x ∧ canonical x) :
    normalKinds ts = xs.flatMap (commaKinds kinds) ∧ ∀ x ∈ xs, canonical x := by
  refine h.written ?_
  rintro x hmem us ⟨a, hspelled⟩
  obtain ⟨hkinds, hcanonical⟩ := hx x hmem _ hspelled
  exact ⟨by rw [normalKinds_cons, hkinds]; rfl, hcanonical⟩

theorem Separated.written (h : Separated R ts xs)
    (hx : ∀ x ∈ xs, ∀ us, R us x → normalKinds us = kinds x ∧ canonical x) :
    normalKinds ts = separatedKinds kinds xs ∧ ∀ x ∈ xs, canonical x := by
  cases h with
  | none => exact ⟨rfl, fun x hx => nomatch hx⟩
  | @some us vs x xs hfirst hothers =>
    obtain ⟨hkinds, hcanonical⟩ := hx x (.head xs) us hfirst
    obtain ⟨hkinds', hcanonical'⟩ := hothers.written_afterComma fun y hy => hx y (.tail x hy)
    refine ⟨by rw [normalKinds_append, hkinds, hkinds']; rfl, ?_⟩
    exact List.forall_mem_cons.2 ⟨hcanonical, hcanonical'⟩

theorem each_respelled (hx : ∀ x ∈ xs, Respelled R kinds bare x)
    (h : ts.map Token.kind = xs.flatMap kinds) :
    ∃ ys, Each R ts ys ∧ ys.map bare = xs.map bare := by
  induction xs generalizing ts with
  | nil =>
    rw [List.map_eq_nil_iff.1 h]
    exact ⟨[], .nil, rfl⟩
  | cons x xs ih =>
    rw [List.flatMap_cons] at h
    obtain ⟨us, vs, rfl, hus, hvs⟩ := List.map_eq_append_iff.1 h
    obtain ⟨y, hy, hbare⟩ := hx x (.head xs) us hus
    obtain ⟨ys, hys, hbares⟩ := ih (fun z hz => hx z (.tail x hz)) hvs
    exact ⟨y :: ys, .cons hy hys, by rw [List.map_cons, List.map_cons, hbare, hbares]⟩

theorem afterComma_respelled {x : α} (h : Respelled R kinds bare x) :
    Respelled (AfterComma R) (commaKinds kinds) bare x := by
  intro ts hts
  obtain ⟨a, us, rfl, hus⟩ := map_kind_eq_cons hts
  obtain ⟨y, hy, hbare⟩ := h us hus
  exact ⟨y, .mk a hy, hbare⟩

theorem first_respelled {x : α} (hfirst : Respelled R kinds bare x)
    (hothers : ∀ y ∈ xs, Respelled R kinds bare y)
    (h : ts.map Token.kind = separatedKinds kinds (x :: xs)) :
    ∃ us vs y ys, ts = us ++ vs ∧ R us y ∧ Each (AfterComma R) vs ys ∧
      (y :: ys).map bare = (x :: xs).map bare := by
  obtain ⟨us, vs, rfl, hus, hvs⟩ := List.map_eq_append_iff.1 h
  obtain ⟨y, hy, hbare⟩ := hfirst us hus
  obtain ⟨ys, hys, hbares⟩ :=
    each_respelled (fun z hz => afterComma_respelled (hothers z hz)) hvs
  exact ⟨us, vs, y, ys, rfl, hy, hys, by rw [List.map_cons, List.map_cons, hbare, hbares]⟩

theorem separated_respelled (hx : ∀ x ∈ xs, Respelled R kinds bare x)
    (h : ts.map Token.kind = separatedKinds kinds xs) :
    ∃ ys, Separated R ts ys ∧ ys.map bare = xs.map bare := by
  cases xs with
  | nil =>
    rw [List.map_eq_nil_iff.1 h]
    exact ⟨[], .none, rfl⟩
  | cons x xs =>
    obtain ⟨us, vs, y, ys, rfl, hy, hys, hbare⟩ :=
      first_respelled (hx x (.head xs)) (fun z hz => hx z (.tail x hz)) h
    exact ⟨y :: ys, .some hy hys, hbare⟩

end Lists

mutual

theorem expr_written : (e : Expr) → ∀ ts, ExprSpelled ts e →
    normalKinds ts = e.kinds ∧ e.Canonical
  | .location place _, ts, h => by
    cases h with
    | location hp => exact place_written place ts hp
  | .call called _, ts, h => by
    cases h with
    | call hc => exact call_written called ts hc
  | .int text _, ts, h => by
    cases h with
    | int a hk => exact ⟨by simp [Expr.kinds, normalKind_integer hk], trivial⟩
  | .char _ _, ts, h => by
    cases h
    exact ⟨rfl, trivial⟩
  | .bool _ _, ts, h => by
    cases h
    exact ⟨rfl, trivial⟩
  | .unary op operand _, ts, h => by
    cases h with
    | unary _ a ho hlevel =>
      obtain ⟨hkinds, hcanonical⟩ := expr_written operand _ ho
      exact ⟨by simp [Expr.kinds, hkinds], hcanonical, hlevel⟩
  | .binary op left right _, ts, h => by
    cases h with
    | binary _ a hl hle hr hlt =>
      obtain ⟨hkinds, hcanonical⟩ := expr_written left _ hl
      obtain ⟨hkinds', hcanonical'⟩ := expr_written right _ hr
      exact ⟨by simp [Expr.kinds, hkinds, hkinds'], hcanonical, hle, hcanonical', hlt⟩
  | .paren inner _, ts, h => by
    cases h with
    | paren a b hi =>
      obtain ⟨hkinds, hcanonical⟩ := expr_written inner _ hi
      exact ⟨by simp [Expr.kinds, hkinds], hcanonical⟩

theorem place_written : (place : Location) → ∀ ts, PlaceSpelled ts place →
    normalKinds ts = place.kinds ∧ place.Canonical
  | .scalar _ _, ts, h => by
    cases h
    exact ⟨rfl, trivial⟩
  | .indexed _ index _, ts, h => by
    cases h with
    | indexed _ a b c hi =>
      obtain ⟨hkinds, hcanonical⟩ := expr_written index _ hi
      exact ⟨by simp [Location.kinds, hkinds], hcanonical⟩

theorem call_written : (called : Call) → ∀ ts, CallSpelled ts called →
    normalKinds ts = called.kinds ∧ called.Canonical
  | .method _ args _, ts, h => by
    cases h with
    | method _ a b c hs =>
      obtain ⟨hkinds, hcanonical⟩ := hs.written (args_written args)
      exact ⟨by simp [Call.kinds_method, hkinds], (Expr.allCanonical_iff args).2 hcanonical⟩
  | .callout _ args _, ts, h => by
    cases h with
    | callout _ a b c d hs =>
      obtain ⟨hkinds, hcanonical⟩ := hs.written_afterComma (calloutArgs_written args)
      exact ⟨by simp [Call.kinds, CalloutArg.tailKinds_eq, hkinds],
        (CalloutArg.allCanonical_iff args).2 hcanonical⟩

theorem args_written : (args : List Expr) → ∀ e ∈ args, ∀ ts, ExprSpelled ts e →
    normalKinds ts = e.kinds ∧ e.Canonical
  | [], _, h => nomatch h
  | first :: others, e, h => by
    rcases List.mem_cons.1 h with h | h
    · exact h ▸ expr_written first
    · exact args_written others e h

theorem calloutArg_written : (arg : CalloutArg) → ∀ ts, CalloutArgSpelled ts arg →
    normalKinds ts = arg.kinds ∧ arg.Canonical
  | .expr value, ts, h => by
    cases h with
    | expr hv => exact expr_written value ts hv
  | .string _, ts, h => by
    cases h
    exact ⟨rfl, trivial⟩

theorem calloutArgs_written : (args : List CalloutArg) → ∀ arg ∈ args, ∀ ts,
    CalloutArgSpelled ts arg → normalKinds ts = arg.kinds ∧ arg.Canonical
  | [], _, h => nomatch h
  | first :: others, arg, h => by
    rcases List.mem_cons.1 h with h | h
    · exact h ▸ calloutArg_written first
    · exact calloutArgs_written others arg h

end

theorem level_eq_of_bare {e e' : Expr} (h : e'.bare = e.bare) : e'.level = e.level := by
  rw [← e'.level_bare, h, e.level_bare]

mutual

theorem expr_respelled : (e : Expr) → e.Canonical →
    Respelled ExprSpelled Expr.kinds Expr.bare e
  | .location place _, hc, ts, h => by
    obtain ⟨place', hp, hbare⟩ := place_respelled place hc ts h
    exact ⟨_, .location hp, by rw [Expr.bare, hbare, Expr.bare]⟩
  | .call called _, hc, ts, h => by
    obtain ⟨called', hs, hbare⟩ := call_respelled called hc ts h
    exact ⟨_, .call hs, by rw [Expr.bare, hbare, Expr.bare]⟩
  | .int text _, _, ts, h => by
    obtain ⟨a, rfl⟩ := map_kind_eq_singleton h
    exact ⟨_, .int a (integer?_integerKind text), rfl⟩
  | .char text _, _, ts, h => by
    obtain ⟨a, rfl⟩ := map_kind_eq_singleton h
    exact ⟨_, .char text a, rfl⟩
  | .bool value _, _, ts, h => by
    obtain ⟨a, rfl⟩ := map_kind_eq_singleton h
    exact ⟨_, .bool value a, rfl⟩
  | .unary op operand _, ⟨hc, hlevel⟩, ts, h => by
    obtain ⟨a, us, rfl, hus⟩ := map_kind_eq_cons h
    obtain ⟨operand', ho, hbare⟩ := expr_respelled operand hc us hus
    exact ⟨_, .unary op a ho (by rw [level_eq_of_bare hbare, hlevel]),
      by rw [Expr.bare, hbare, Expr.bare]⟩
  | .binary op left right _, ⟨hl, hle, hr, hlt⟩, ts, h => by
    obtain ⟨us, ws, rfl, hus, hws⟩ := List.map_eq_append_iff.1 h
    obtain ⟨a, vs, rfl, hvs⟩ := map_kind_eq_cons hws
    obtain ⟨left', hleft, hbare⟩ := expr_respelled left hl us hus
    obtain ⟨right', hright, hbare'⟩ := expr_respelled right hr vs hvs
    exact ⟨_, .binary op a hleft (by rwa [level_eq_of_bare hbare]) hright
      (by rwa [level_eq_of_bare hbare']), by rw [Expr.bare, hbare, hbare', Expr.bare]⟩
  | .paren inner _, hc, ts, h => by
    obtain ⟨a, ws, rfl, hws⟩ := map_kind_eq_cons h
    obtain ⟨us, vs, rfl, hus, hvs⟩ := List.map_eq_append_iff.1 hws
    obtain ⟨b, rfl⟩ := map_kind_eq_singleton hvs
    obtain ⟨inner', hi, hbare⟩ := expr_respelled inner hc us hus
    exact ⟨_, .paren a b hi, by rw [Expr.bare, hbare, Expr.bare]⟩

theorem place_respelled : (place : Location) → place.Canonical →
    Respelled PlaceSpelled Location.kinds Location.bare place
  | .scalar name _, _, ts, h => by
    obtain ⟨a, rfl⟩ := map_kind_eq_singleton h
    exact ⟨_, .scalar name a, rfl⟩
  | .indexed name index _, hc, ts, h => by
    obtain ⟨a, ts₁, rfl, h₁⟩ := map_kind_eq_cons h
    obtain ⟨b, ts₂, rfl, h₂⟩ := map_kind_eq_cons h₁
    obtain ⟨us, vs, rfl, hus, hvs⟩ := List.map_eq_append_iff.1 h₂
    obtain ⟨c, rfl⟩ := map_kind_eq_singleton hvs
    obtain ⟨index', hi, hbare⟩ := expr_respelled index hc us hus
    exact ⟨_, .indexed name a b c hi, by rw [Location.bare, hbare, Location.bare]⟩

theorem call_respelled : (called : Call) → called.Canonical →
    Respelled CallSpelled Call.kinds Call.bare called
  | .method name args _, hc, ts, h => by
    rw [Call.kinds_method] at h
    obtain ⟨a, ts₁, rfl, h₁⟩ := map_kind_eq_cons h
    obtain ⟨b, ts₂, rfl, h₂⟩ := map_kind_eq_cons h₁
    obtain ⟨us, vs, rfl, hus, hvs⟩ := List.map_eq_append_iff.1 h₂
    obtain ⟨c, rfl⟩ := map_kind_eq_singleton hvs
    obtain ⟨args', hs, hbare⟩ := separated_respelled (args_respelled args hc) hus
    refine ⟨_, .method name a b c hs, ?_⟩
    rw [Call.bare, Call.bare, Expr.bareList_eq, Expr.bareList_eq, hbare]
  | .callout name args _, hc, ts, h => by
    obtain ⟨a, ts₁, rfl, h₁⟩ := map_kind_eq_cons h
    obtain ⟨b, ts₂, rfl, h₂⟩ := map_kind_eq_cons h₁
    obtain ⟨c, ts₃, rfl, h₃⟩ := map_kind_eq_cons h₂
    rw [CalloutArg.tailKinds_eq] at h₃
    obtain ⟨us, vs, rfl, hus, hvs⟩ := List.map_eq_append_iff.1 h₃
    obtain ⟨d, rfl⟩ := map_kind_eq_singleton hvs
    obtain ⟨args', hs, hbare⟩ := each_respelled
      (fun arg harg => afterComma_respelled (calloutArgs_respelled args hc arg harg)) hus
    refine ⟨_, .callout name a b c d hs, ?_⟩
    rw [Call.bare, Call.bare, CalloutArg.bareList_eq, CalloutArg.bareList_eq, hbare]

theorem args_respelled : (args : List Expr) → Expr.AllCanonical args →
    ∀ e ∈ args, Respelled ExprSpelled Expr.kinds Expr.bare e
  | [], _, _, h => nomatch h
  | first :: others, ⟨hc, hcs⟩, e, h => by
    rcases List.mem_cons.1 h with h | h
    · exact h ▸ expr_respelled first hc
    · exact args_respelled others hcs e h

theorem calloutArg_respelled : (arg : CalloutArg) → arg.Canonical →
    Respelled CalloutArgSpelled CalloutArg.kinds CalloutArg.bare arg
  | .expr value, hc, ts, h => by
    obtain ⟨value', hv, hbare⟩ := expr_respelled value hc ts h
    exact ⟨_, .expr hv, by rw [CalloutArg.bare, hbare, CalloutArg.bare]⟩
  | .string text, _, ts, h => by
    obtain ⟨a, rfl⟩ := map_kind_eq_singleton h
    exact ⟨_, .string text a, rfl⟩

theorem calloutArgs_respelled : (args : List CalloutArg) → CalloutArg.AllCanonical args →
    ∀ arg ∈ args, Respelled CalloutArgSpelled CalloutArg.kinds CalloutArg.bare arg
  | [], _, _, h => nomatch h
  | first :: others, ⟨hc, hcs⟩, arg, h => by
    rcases List.mem_cons.1 h with h | h
    · exact h ▸ calloutArg_respelled first hc
    · exact calloutArgs_respelled others hcs arg h

end

theorem name_respelled (name : Name) : Respelled NameSpelled Name.kinds Name.bare name := by
  intro ts h
  obtain ⟨a, rfl⟩ := map_kind_eq_singleton h
  exact ⟨⟨name.text, a⟩, .mk ⟨name.text, a⟩, rfl⟩

theorem name_written (name : Name) (ts : List Token) (h : NameSpelled ts name) :
    normalKinds ts = name.kinds ∧ True := by
  cases h
  exact ⟨rfl, trivial⟩

theorem varDecl_written (decl : VarDecl) (ts : List Token) (h : VarDeclSpelled ts decl) :
    normalKinds ts = decl.kinds ∧ decl.Canonical := by
  cases h with
  | @mk ts others type first a b hothers =>
    obtain ⟨hkinds, -⟩ := hothers.written_afterComma fun name _ => name_written name
    exact ⟨by simp [VarDecl.kinds, separatedKinds, Name.kinds, hkinds], List.cons_ne_nil _ _⟩

theorem varDecl_respelled (decl : VarDecl) (hc : decl.Canonical) :
    Respelled VarDeclSpelled VarDecl.kinds VarDecl.bare decl := by
  obtain ⟨type, names, span⟩ := decl
  intro ts h
  cases names with
  | nil => exact absurd rfl hc
  | cons first others =>
    obtain ⟨a, ws, rfl, hws⟩ := map_kind_eq_cons h
    obtain ⟨us, vs, rfl, hus, hvs⟩ := List.map_eq_append_iff.1 hws
    obtain ⟨b, rfl⟩ := map_kind_eq_singleton hvs
    obtain ⟨us, ws, y, ys, rfl, hy, hys, hbare⟩ :=
      first_respelled (name_respelled first) (fun name _ => name_respelled name) hus
    cases hy
    refine ⟨⟨type, y :: ys, a.merge b⟩, ?_, by rw [VarDecl.bare, hbare, VarDecl.bare]⟩
    exact .mk type y a b hys

mutual

theorem stmt_written : (stmt : Stmt) → ∀ ts, StmtSpelled ts stmt →
    normalKinds ts = stmt.kinds ∧ stmt.Canonical
  | .assign target op value _, ts, h => by
    cases h with
    | assign _ a b ht hv =>
      obtain ⟨hkinds, hcanonical⟩ := place_written target _ ht
      obtain ⟨hkinds', hcanonical'⟩ := expr_written value _ hv
      refine ⟨?_, hcanonical, hcanonical'⟩
      rw [← List.cons_append, normalKinds_append, hkinds]
      simp [Stmt.kinds, hkinds']
  | .call called _, ts, h => by
    cases h with
    | call a hc =>
      obtain ⟨hkinds, hcanonical⟩ := call_written called _ hc
      refine ⟨?_, hcanonical⟩
      rw [← List.cons_append, normalKinds_append, hkinds]
      rfl
  | .ifThen condition body _, ts, h => by
    cases h with
    | ifThen a b c hc hb =>
      obtain ⟨hkinds, hcanonical⟩ := expr_written condition _ hc
      obtain ⟨hkinds', hcanonical'⟩ := block_written body _ hb
      exact ⟨by simp [Stmt.kinds, hkinds, hkinds'], hcanonical, hcanonical'⟩
  | .ifElse condition body other _, ts, h => by
    cases h with
    | ifElse a b c d hc hb ho =>
      obtain ⟨hkinds, hcanonical⟩ := expr_written condition _ hc
      obtain ⟨hkinds', hcanonical'⟩ := block_written body _ hb
      obtain ⟨hkinds'', hcanonical''⟩ := block_written other _ ho
      exact ⟨by simp [Stmt.kinds, hkinds, hkinds', hkinds''], hcanonical, hcanonical',
        hcanonical''⟩
  | .forLoop var first last body _, ts, h => by
    cases h with
    | forLoop _ a b c hf hl hb =>
      obtain ⟨hkinds, hcanonical⟩ := expr_written first _ hf
      obtain ⟨hkinds', hcanonical'⟩ := expr_written last _ hl
      obtain ⟨hkinds'', hcanonical''⟩ := block_written body _ hb
      exact ⟨by simp [Stmt.kinds, hkinds, hkinds', hkinds''], hcanonical, hcanonical',
        hcanonical''⟩
  | .returnFrom none _, ts, h => by
    cases h
    exact ⟨rfl, trivial⟩
  | .returnFrom (some value) _, ts, h => by
    cases h with
    | returnValue a b hv =>
      obtain ⟨hkinds, hcanonical⟩ := expr_written value _ hv
      exact ⟨by simp [Stmt.kinds, hkinds], hcanonical⟩
  | .breakLoop _, ts, h => by
    cases h
    exact ⟨rfl, trivial⟩
  | .continueLoop _, ts, h => by
    cases h
    exact ⟨rfl, trivial⟩
  | .block inner _, ts, h => by
    cases h with
    | block hb => exact block_written inner ts hb

theorem block_written : (b : Block) → ∀ ts, BlockSpelled ts b →
    normalKinds ts = b.kinds ∧ b.Canonical
  | .mk locals body _, ts, h => by
    cases h with
    | mk a b hl hb =>
      obtain ⟨hkinds, hcanonical⟩ := hl.written fun decl _ => varDecl_written decl
      obtain ⟨hkinds', hcanonical'⟩ := hb.written (stmts_written body)
      exact ⟨by simp [Block.kinds, Stmt.listKinds_eq, hkinds, hkinds'], hcanonical,
        (Stmt.allCanonical_iff body).2 hcanonical'⟩

theorem stmts_written : (stmts : List Stmt) → ∀ stmt ∈ stmts, ∀ ts, StmtSpelled ts stmt →
    normalKinds ts = stmt.kinds ∧ stmt.Canonical
  | [], _, h => nomatch h
  | first :: others, stmt, h => by
    rcases List.mem_cons.1 h with h | h
    · exact h ▸ stmt_written first
    · exact stmts_written others stmt h

end

theorem placeSpelled_ne_nil {place : Location} : ¬ PlaceSpelled [] place := nofun

theorem callSpelled_ne_nil {called : Call} : ¬ CallSpelled [] called := nofun

mutual

theorem stmt_respelled : (stmt : Stmt) → stmt.Canonical →
    Respelled StmtSpelled Stmt.kinds Stmt.bare stmt
  | .assign target op value _, ⟨ht, hv⟩, ts, h => by
    obtain ⟨us, ts₁, rfl, hus, h₁⟩ := List.map_eq_append_iff.1 h
    obtain ⟨a, ts₂, rfl, h₂⟩ := map_kind_eq_cons h₁
    obtain ⟨vs, ts₃, rfl, hvs, h₃⟩ := List.map_eq_append_iff.1 h₂
    obtain ⟨b, rfl⟩ := map_kind_eq_singleton h₃
    obtain ⟨target', hplace, hbare⟩ := place_respelled target ht us hus
    obtain ⟨value', hvalue, hbare'⟩ := expr_respelled value hv vs hvs
    cases us with
    | nil => exact absurd hplace placeSpelled_ne_nil
    | cons t us =>
      exact ⟨_, .assign op a b hplace hvalue, by rw [Stmt.bare, hbare, hbare', Stmt.bare]⟩
  | .call called _, hc, ts, h => by
    obtain ⟨us, ts₁, rfl, hus, h₁⟩ := List.map_eq_append_iff.1 h
    obtain ⟨a, rfl⟩ := map_kind_eq_singleton h₁
    obtain ⟨called', hcall, hbare⟩ := call_respelled called hc us hus
    cases us with
    | nil => exact absurd hcall callSpelled_ne_nil
    | cons t us => exact ⟨_, .call a hcall, by rw [Stmt.bare, hbare, Stmt.bare]⟩
  | .ifThen condition body _, ⟨hc, hb⟩, ts, h => by
    obtain ⟨a, ts₁, rfl, h₁⟩ := map_kind_eq_cons h
    obtain ⟨b, ts₂, rfl, h₂⟩ := map_kind_eq_cons h₁
    obtain ⟨us, ts₃, rfl, hus, h₃⟩ := List.map_eq_append_iff.1 h₂
    obtain ⟨c, vs, rfl, hvs⟩ := map_kind_eq_cons h₃
    obtain ⟨condition', hcondition, hbare⟩ := expr_respelled condition hc us hus
    obtain ⟨body', hbody, hbare'⟩ := block_respelled body hb vs hvs
    exact ⟨_, .ifThen a b c hcondition hbody, by rw [Stmt.bare, hbare, hbare', Stmt.bare]⟩
  | .ifElse condition body other _, ⟨hc, hb, ho⟩, ts, h => by
    obtain ⟨a, ts₁, rfl, h₁⟩ := map_kind_eq_cons h
    obtain ⟨b, ts₂, rfl, h₂⟩ := map_kind_eq_cons h₁
    obtain ⟨us, ts₃, rfl, hus, h₃⟩ := List.map_eq_append_iff.1 h₂
    obtain ⟨c, ts₄, rfl, h₄⟩ := map_kind_eq_cons h₃
    obtain ⟨vs, ts₅, rfl, hvs, h₅⟩ := List.map_eq_append_iff.1 h₄
    obtain ⟨d, ws, rfl, hws⟩ := map_kind_eq_cons h₅
    obtain ⟨condition', hcondition, hbare⟩ := expr_respelled condition hc us hus
    obtain ⟨body', hbody, hbare'⟩ := block_respelled body hb vs hvs
    obtain ⟨other', hother, hbare''⟩ := block_respelled other ho ws hws
    exact ⟨_, .ifElse a b c d hcondition hbody hother,
      by rw [Stmt.bare, hbare, hbare', hbare'', Stmt.bare]⟩
  | .forLoop var first last body _, ⟨hf, hl, hb⟩, ts, h => by
    obtain ⟨a, ts₁, rfl, h₁⟩ := map_kind_eq_cons h
    obtain ⟨v, ts₂, rfl, h₂⟩ := map_kind_eq_cons h₁
    obtain ⟨b, ts₃, rfl, h₃⟩ := map_kind_eq_cons h₂
    obtain ⟨us, ts₄, rfl, hus, h₄⟩ := List.map_eq_append_iff.1 h₃
    obtain ⟨c, ts₅, rfl, h₅⟩ := map_kind_eq_cons h₄
    obtain ⟨vs, ws, rfl, hvs, hws⟩ := List.map_eq_append_iff.1 h₅
    obtain ⟨first', hfirst, hbare⟩ := expr_respelled first hf us hus
    obtain ⟨last', hlast, hbare'⟩ := expr_respelled last hl vs hvs
    obtain ⟨body', hbody, hbare''⟩ := block_respelled body hb ws hws
    exact ⟨_, .forLoop ⟨var.text, v⟩ a b c hfirst hlast hbody,
      by rw [Stmt.bare, hbare, hbare', hbare'', Stmt.bare, Name.bare, Name.bare]⟩
  | .returnFrom none _, _, ts, h => by
    obtain ⟨a, ts₁, rfl, h₁⟩ := map_kind_eq_cons h
    obtain ⟨b, rfl⟩ := map_kind_eq_singleton h₁
    exact ⟨_, .returnNothing a b, rfl⟩
  | .returnFrom (some value) _, hc, ts, h => by
    obtain ⟨a, ts₁, rfl, h₁⟩ := map_kind_eq_cons h
    obtain ⟨us, ts₂, rfl, hus, h₂⟩ := List.map_eq_append_iff.1 h₁
    obtain ⟨b, rfl⟩ := map_kind_eq_singleton h₂
    obtain ⟨value', hvalue, hbare⟩ := expr_respelled value hc us hus
    exact ⟨_, .returnValue a b hvalue, by rw [Stmt.bare, hbare, Stmt.bare]⟩
  | .breakLoop _, _, ts, h => by
    obtain ⟨a, ts₁, rfl, h₁⟩ := map_kind_eq_cons h
    obtain ⟨b, rfl⟩ := map_kind_eq_singleton h₁
    exact ⟨_, .breakLoop a b, rfl⟩
  | .continueLoop _, _, ts, h => by
    obtain ⟨a, ts₁, rfl, h₁⟩ := map_kind_eq_cons h
    obtain ⟨b, rfl⟩ := map_kind_eq_singleton h₁
    exact ⟨_, .continueLoop a b, rfl⟩
  | .block inner _, hc, ts, h => by
    obtain ⟨inner', hinner, hbare⟩ := block_respelled inner hc ts h
    exact ⟨_, .block hinner, by rw [Stmt.bare, hbare, Stmt.bare]⟩

theorem block_respelled : (b : Block) → b.Canonical →
    Respelled BlockSpelled Block.kinds Block.bare b
  | .mk locals body _, ⟨hl, hb⟩, ts, h => by
    rw [Block.kinds, Stmt.listKinds_eq] at h
    obtain ⟨a, ts₁, rfl, h₁⟩ := map_kind_eq_cons h
    obtain ⟨us, ts₂, rfl, hus, h₂⟩ := List.map_eq_append_iff.1 h₁
    obtain ⟨vs, ts₃, rfl, hvs, h₃⟩ := List.map_eq_append_iff.1 h₂
    obtain ⟨b, rfl⟩ := map_kind_eq_singleton h₃
    obtain ⟨locals', hlocals, hbare⟩ :=
      each_respelled (fun decl hdecl => varDecl_respelled decl (hl decl hdecl)) hus
    obtain ⟨body', hbody, hbare'⟩ := each_respelled (stmts_respelled body hb) hvs
    refine ⟨_, .mk a b hlocals hbody, ?_⟩
    rw [Block.bare, Block.bare, Stmt.bareList_eq, Stmt.bareList_eq, hbare, hbare']

theorem stmts_respelled : (stmts : List Stmt) → Stmt.AllCanonical stmts →
    ∀ stmt ∈ stmts, Respelled StmtSpelled Stmt.kinds Stmt.bare stmt
  | [], _, _, h => nomatch h
  | first :: others, ⟨hc, hcs⟩, stmt, h => by
    rcases List.mem_cons.1 h with h | h
    · exact h ▸ stmt_respelled first hc
    · exact stmts_respelled others hcs stmt h

end

theorem fieldName_written (field : FieldName) (ts : List Token) (h : FieldNameSpelled ts field) :
    normalKinds ts = field.kinds ∧ True := by
  cases h with
  | scalar name a => exact ⟨rfl, trivial⟩
  | array name a b c d hk => exact ⟨by simp [FieldName.kinds, normalKind_integer hk], trivial⟩

theorem fieldName_respelled (field : FieldName) :
    Respelled FieldNameSpelled FieldName.kinds FieldName.bare field := by
  intro ts h
  obtain ⟨name, _ | size, span⟩ := field
  · obtain ⟨a, rfl⟩ := map_kind_eq_singleton h
    exact ⟨_, .scalar name a, rfl⟩
  · obtain ⟨a, ts₁, rfl, h₁⟩ := map_kind_eq_cons h
    obtain ⟨b, ts₂, rfl, h₂⟩ := map_kind_eq_cons h₁
    obtain ⟨c, ts₃, rfl, h₃⟩ := map_kind_eq_cons h₂
    obtain ⟨d, rfl⟩ := map_kind_eq_singleton h₃
    exact ⟨_, .array name a b c d (integer?_integerKind size), rfl⟩

theorem field_written (decl : FieldDecl) (ts : List Token) (h : FieldSpelled ts decl) :
    normalKinds ts = decl.kinds ∧ decl.Canonical := by
  cases h with
  | @mk us vs first others type a b hfirst hothers =>
    obtain ⟨hkinds, -⟩ := fieldName_written first us hfirst
    obtain ⟨hkinds', -⟩ := hothers.written_afterComma fun field _ => fieldName_written field
    exact ⟨by simp [FieldDecl.kinds, separatedKinds, hkinds, hkinds'], List.cons_ne_nil _ _⟩

theorem field_respelled (decl : FieldDecl) (hc : decl.Canonical) :
    Respelled FieldSpelled FieldDecl.kinds FieldDecl.bare decl := by
  obtain ⟨type, names, span⟩ := decl
  intro ts h
  cases names with
  | nil => exact absurd rfl hc
  | cons first others =>
    obtain ⟨a, ts₁, rfl, h₁⟩ := map_kind_eq_cons h
    obtain ⟨us, ts₂, rfl, hus, h₂⟩ := List.map_eq_append_iff.1 h₁
    obtain ⟨b, rfl⟩ := map_kind_eq_singleton h₂
    obtain ⟨vs, ws, y, ys, rfl, hy, hys, hbare⟩ :=
      first_respelled (fieldName_respelled first) (fun field _ => fieldName_respelled field) hus
    refine ⟨⟨type, y :: ys, a.merge b⟩, ?_, by rw [FieldDecl.bare, hbare, FieldDecl.bare]⟩
    rw [List.append_assoc]
    exact .mk type a b hy hys

theorem param_written (param : Param) (ts : List Token) (h : ParamSpelled ts param) :
    normalKinds ts = param.kinds ∧ True := by
  cases h
  exact ⟨by simp [Param.kinds], trivial⟩

theorem param_respelled (param : Param) :
    Respelled ParamSpelled Param.kinds Param.bare param := by
  intro ts h
  obtain ⟨a, ts₁, rfl, h₁⟩ := map_kind_eq_cons h
  obtain ⟨b, rfl⟩ := map_kind_eq_singleton h₁
  exact ⟨_, .mk param.name param.type a b, rfl⟩

theorem method_written (decl : MethodDecl) (ts : List Token) (h : MethodSpelled ts decl) :
    normalKinds ts = decl.kinds ∧ decl.body.Canonical := by
  cases h with
  | @mk us vs params body name result a b c d hp hb =>
    obtain ⟨hkinds, -⟩ := hp.written fun param _ => param_written param
    obtain ⟨hkinds', hcanonical⟩ := block_written body vs hb
    exact ⟨by simp [MethodDecl.kinds, hkinds, hkinds'], hcanonical⟩

theorem method_respelled (decl : MethodDecl) (hc : decl.body.Canonical) :
    Respelled MethodSpelled MethodDecl.kinds MethodDecl.bare decl := by
  intro ts h
  obtain ⟨a, ts₁, rfl, h₁⟩ := map_kind_eq_cons h
  obtain ⟨b, ts₂, rfl, h₂⟩ := map_kind_eq_cons h₁
  obtain ⟨c, ts₃, rfl, h₃⟩ := map_kind_eq_cons h₂
  obtain ⟨us, ts₄, rfl, hus, h₄⟩ := List.map_eq_append_iff.1 h₃
  obtain ⟨d, vs, rfl, hvs⟩ := map_kind_eq_cons h₄
  obtain ⟨params, hp, hbare⟩ := separated_respelled (fun param _ => param_respelled param) hus
  obtain ⟨body, hb, hbare'⟩ := block_respelled decl.body hc vs hvs
  exact ⟨_, .mk decl.name decl.returnType a b c d hp hb,
    by rw [MethodDecl.bare, hbare, hbare', MethodDecl.bare]⟩

theorem program_written (p : Program) (ts : List Token) (h : ProgramSpelled ts p) :
    normalKinds ts = p.kinds ∧ p.Canonical := by
  cases h with
  | mk name a b c d hf hm =>
    obtain ⟨hkinds, hcanonical⟩ := hf.written fun decl _ => field_written decl
    obtain ⟨hkinds', hcanonical'⟩ := hm.written fun decl _ => method_written decl
    exact ⟨by simp [Program.kinds, hkinds, hkinds'], hcanonical, hcanonical'⟩

theorem program_respelled (p : Program) (hc : p.Canonical) :
    Respelled ProgramSpelled Program.kinds Program.bare p := by
  obtain ⟨hfields, hmethods⟩ := hc
  intro ts h
  obtain ⟨a, ts₁, rfl, h₁⟩ := map_kind_eq_cons h
  obtain ⟨b, ts₂, rfl, h₂⟩ := map_kind_eq_cons h₁
  obtain ⟨c, ts₃, rfl, h₃⟩ := map_kind_eq_cons h₂
  obtain ⟨us, ts₄, rfl, hus, h₄⟩ := List.map_eq_append_iff.1 h₃
  obtain ⟨vs, ts₅, rfl, hvs, h₅⟩ := List.map_eq_append_iff.1 h₄
  obtain ⟨d, rfl⟩ := map_kind_eq_singleton h₅
  obtain ⟨fields, hf, hbare⟩ :=
    each_respelled (fun decl hdecl => field_respelled decl (hfields decl hdecl)) hus
  obtain ⟨methods, hm, hbare'⟩ :=
    each_respelled (fun decl hdecl => method_respelled decl (hmethods decl hdecl)) hvs
  exact ⟨_, .mk p.name a b c d hf hm, by rw [Program.bare, hbare, hbare', Program.bare]⟩

end Decaf.Grammar
