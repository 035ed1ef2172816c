import Decaf.Proofs.TokenText
import Decaf.Proofs.Unparse

namespace Decaf

open Lexical

/-- No mark takes the first character of the token. -/
def Opens (kind : TokenKind) : Prop := ∀ c ∈ kind.chars.head?, c ≠ '=' ∧ c ≠ '/'

/-- Only letters and digits would prolong the token. -/
def Closes (kind : TokenKind) : Prop := ∀ c, joins kind c = true → isIdentPart c = true

theorem joins_punct {mark : Punct} {c : Char} (h : joins (.punct mark) c = true) :
    c = '=' ∨ c = '/' := by
  cases mark <;> simp_all [joins]

theorem opens_paren {mark : Punct} (h : mark = .lparen ∨ mark = .rparen) :
    Opens (.punct mark) := by
  intro c hc
  rcases h with rfl | rfl <;>
  · cases hc
    exact ⟨nofun, nofun⟩

theorem UnaryOp.opens_mark (op : UnaryOp) : Opens (.punct op.mark) := by
  intro c hc
  cases op <;>
  · cases hc
    exact ⟨nofun, nofun⟩

theorem not_isIdentPart_mark (mark : Punct) :
    ∀ c ∈ (TokenKind.punct mark).chars.head?, isIdentPart c = false := by
  intro c hc
  cases mark <;> cases hc <;> rfl

theorem fits_mark {kind : TokenKind} (h : Closes kind) (mark : Punct) :
    Fits kind (.punct mark) := by
  intro c hc
  rw [Bool.eq_false_iff]
  intro hjoins
  have hpart := not_isIdentPart_mark mark c hc
  rw [h c hjoins] at hpart
  cases hpart

theorem mark_fits (mark : Punct) {kind : TokenKind} (h : Opens kind) :
    Fits (.punct mark) kind := by
  intro c hc
  obtain ⟨heq, hslash⟩ := h c hc
  rw [Bool.eq_false_iff]
  intro hjoins
  rcases joins_punct hjoins with rfl | rfl
  · exact heq rfl
  · exact hslash rfl

theorem closes_of_not_mark {kind : TokenKind} (h : ∀ mark, kind ≠ .punct mark) : Closes kind := by
  intro c hc
  cases kind with
  | punct mark => exact absurd rfl (h mark)
  | keyword word | identifier text | hexLiteral text | intLiteral text => exact hc
  | charLiteral text | stringLiteral text | eof => cases hc

theorem opens_of_not_mark {kind : TokenKind} (hkind : WellSpelled kind)
    (h : ∀ mark, kind ≠ .punct mark) : Opens kind := by
  obtain ⟨hmem, -⟩ := hkind
  rename_i pattern w
  obtain ⟨d, ds, hw, hfamily⟩ := TokenPattern.mem_eq_cons hmem
  intro c hc
  rw [TokenKind.chars, kind_spelling hmem, String.toList_ofList, hw] at hc
  cases hc
  -- Both characters are of the family of the marks.
  have hmark : Family.ofChar d ≠ .mark := by
    rw [hfamily]
    cases pattern with
    | punct mark => exact absurd rfl (h mark)
    | _ =>
      intro hmark
      cases hmark
  constructor
  · rintro rfl
    exact hmark rfl
  · rintro rfl
    exact hmark rfl

/-- Tokens that fit one behind the other and can be an operand. -/
structure Solid (kinds : List TokenKind) : Prop where
  nonempty : kinds ≠ []
  fits : kinds.IsChain Fits
  opens : ∀ kind ∈ kinds.head?, Opens kind
  closes : ∀ kind ∈ kinds.getLast?, Closes kind

namespace Solid

variable {xs ys : List TokenKind}

theorem one {kind : TokenKind} (hopens : Opens kind) (hcloses : Closes kind) : Solid [kind] where
  nonempty := List.cons_ne_nil _ _
  fits := .singleton kind
  opens := by
    rintro _ ⟨⟩
    exact hopens
  closes := by
    rintro _ ⟨⟩
    exact hcloses

theorem word {kind : TokenKind} (hkind : WellSpelled kind) (h : ∀ mark, kind ≠ .punct mark) :
    Solid [kind] := one (opens_of_not_mark hkind h) (closes_of_not_mark h)

theorem cons {mark : Punct} (hopens : Opens (.punct mark)) (h : Solid xs) :
    Solid (.punct mark :: xs) where
  nonempty := List.cons_ne_nil _ _
  fits := h.fits.cons fun kind hkind => mark_fits mark (h.opens kind hkind)
  opens := by
    rintro _ ⟨⟩
    exact hopens
  closes := by
    intro kind hkind
    apply h.closes kind
    rwa [List.getLast?_cons_of_ne_nil h.nonempty] at hkind

theorem concat (h : Solid xs) (mark : Punct) (hcloses : Closes (.punct mark)) :
    Solid (xs ++ [.punct mark]) where
  nonempty := List.append_ne_nil_of_left_ne_nil h.nonempty _
  fits := by
    refine h.fits.append (.singleton _) ?_
    rintro kind hkind _ ⟨⟩
    exact fits_mark (h.closes kind hkind) mark
  opens := by
    intro kind hkind
    apply h.opens kind
    rwa [List.head?_append_of_ne_nil _ h.nonempty] at hkind
  closes := by
    intro kind hkind
    rw [List.getLast?_concat] at hkind
    cases hkind
    exact hcloses

theorem join (hx : Solid xs) (mark : Punct) (hy : Solid ys) : Solid (xs ++ .punct mark :: ys) where
  nonempty := List.append_ne_nil_of_left_ne_nil hx.nonempty _
  fits := by
    refine hx.fits.append (hy.fits.cons fun kind hkind => mark_fits mark (hy.opens kind hkind)) ?_
    rintro kind hkind _ ⟨⟩
    exact fits_mark (hx.closes kind hkind) mark
  opens := by
    intro kind hkind
    apply hx.opens kind
    rwa [List.head?_append_of_ne_nil _ hx.nonempty] at hkind
  closes := by
    intro kind hkind
    apply hy.closes kind
    rwa [List.getLast?_append_of_ne_nil _ (List.cons_ne_nil _ _),
      List.getLast?_cons_of_ne_nil hy.nonempty] at hkind

end Solid

theorem chars_integerKind (text : String) : (integerKind text).chars = text.toList := by
  unfold integerKind
  split <;> rfl

theorem integerKind_ne_punct (text : String) (mark : Punct) : integerKind text ≠ .punct mark := by
  unfold integerKind
  split <;> nofun

mutual

theorem Expr.solid : (e : Expr) → (∀ kind ∈ e.kinds, WellSpelled kind) → Solid e.kinds
  | .location place _, h => place.solid h
  | .call called _, h => called.solid h
  | .int text _, h => .word (h _ (.head _)) (integerKind_ne_punct text)
  | .char _ _, h | .bool _ _, h => .word (h _ (.head _)) nofun
  | .unary op operand _, h =>
    .cons op.opens_mark (operand.solid fun kind hkind => h kind (.tail _ hkind))
  | .binary op left right _, h => by
    obtain ⟨hl, hr⟩ := List.forall_mem_append.1 h
    exact (left.solid hl).join op.mark (right.solid fun kind hkind => hr kind (.tail _ hkind))
  | .paren inner _, h => by
    have hinner := inner.solid fun kind hkind => h kind (.tail _ (List.mem_append_left _ hkind))
    exact .cons (opens_paren (.inl rfl)) (hinner.concat .rparen nofun)

theorem Location.solid : (place : Location) → (∀ kind ∈ place.kinds, WellSpelled kind) →
    Solid place.kinds
  | .scalar _ _, h => .word (h _ (.head _)) nofun
  | .indexed name index _, h => by
    obtain ⟨hname, h⟩ := List.forall_mem_cons.1 h
    have hindex := index.solid fun kind hkind => h kind (.tail _ (List.mem_append_left _ hkind))
    exact (Solid.word hname nofun).join .lbracket (hindex.concat .rbracket nofun)

theorem Call.solid : (called : Call) → (∀ kind ∈ called.kinds, WellSpelled kind) →
    Solid called.kinds
  | .method name [] _, h =>
    (Solid.word (h _ (.head _)) nofun).join .lparen
      (.one (opens_paren (.inr rfl)) nofun)
  | .method name (first :: others) _, h => by
    obtain ⟨hname, h⟩ := List.forall_mem_cons.1 h
    obtain ⟨-, h⟩ := List.forall_mem_cons.1 h
    obtain ⟨hfirst, h⟩ := List.forall_mem_append.1 h
    obtain ⟨hothers, -⟩ := List.forall_mem_append.1 h
    have hargs := Expr.solid_tail others hothers _ (first.solid hfirst)
    have hcall := (Solid.word hname nofun).join .lparen (hargs.concat .rparen nofun)
    rwa [List.append_assoc] at hcall
  | .callout name args _, h => by
    obtain ⟨hcallout, h⟩ := List.forall_mem_cons.1 h
    obtain ⟨-, h⟩ := List.forall_mem_cons.1 h
    obtain ⟨hname, h⟩ := List.forall_mem_cons.1 h
    obtain ⟨hothers, -⟩ := List.forall_mem_append.1 h
    have hargs := CalloutArg.solid_tail args hothers _ (.word hname nofun)
    exact (Solid.word hcallout nofun).join .lparen (hargs.concat .rparen nofun)

theorem Expr.solid_tail : (args : List Expr) → (∀ kind ∈ Expr.tailKinds args, WellSpelled kind) →
    ∀ xs, Solid xs → Solid (xs ++ Expr.tailKinds args)
  | [], _, xs, hxs => by rwa [Expr.tailKinds, List.append_nil]
  | arg :: others, h, xs, hxs => by
    have harg := arg.solid fun kind hkind => h kind (.tail _ (List.mem_append_left _ hkind))
    have hrest := Expr.solid_tail others
      (fun kind hkind => h kind (.tail _ (List.mem_append_right _ hkind))) _
      (hxs.join .comma harg)
    rwa [List.append_assoc] at hrest

theorem CalloutArg.solid : (arg : CalloutArg) → (∀ kind ∈ arg.kinds, WellSpelled kind) →
    Solid arg.kinds
  | .expr value, h => value.solid h
  | .string _, h => .word (h _ (.head _)) nofun

theorem CalloutArg.solid_tail : (args : List CalloutArg) →
    (∀ kind ∈ CalloutArg.tailKinds args, WellSpelled kind) →
    ∀ xs, Solid xs → Solid (xs ++ CalloutArg.tailKinds args)
  | [], _, xs, hxs => by rwa [CalloutArg.tailKinds, List.append_nil]
  | arg :: others, h, xs, hxs => by
    have harg := arg.solid fun kind hkind => h kind (.tail _ (List.mem_append_left _ hkind))
    have hrest := CalloutArg.solid_tail others
      (fun kind hkind => h kind (.tail _ (List.mem_append_right _ hkind))) _
      (hxs.join .comma harg)
    rwa [List.append_assoc] at hrest

end

mutual

/-- The text of an expression is that of its tokens. -/
theorem Expr.toList_text : (e : Expr) → e.text.toList = e.kinds.flatMap TokenKind.chars
  | .location place _ => place.toList_text
  | .call called _ => called.toList_text
  | .int text _ => by
    rw [Expr.kinds, List.flatMap_singleton, chars_integerKind]
    rfl
  | .char text _ => by
    rw [Expr.kinds, List.flatMap_singleton]
    rfl
  | .bool value _ => by
    rw [Expr.kinds, List.flatMap_singleton]
    cases value <;> rfl
  | .unary op operand _ => by
    rw [Expr.text, Expr.kinds, String.toList_append, operand.toList_text, List.flatMap_cons]
    rfl
  | .binary op left right _ => by
    simp only [Expr.text, Expr.kinds, String.toList_append, left.toList_text, right.toList_text,
      List.flatMap_append, List.flatMap_cons, List.append_assoc]
    rfl
  | .paren inner _ => by
    simp only [Expr.text, Expr.kinds, String.toList_append, inner.toList_text, List.flatMap_cons,
      List.flatMap_append, List.append_assoc]
    rfl

theorem Location.toList_text : (place : Location) →
    place.text.toList = place.kinds.flatMap TokenKind.chars
  | .scalar name _ => by
    rw [Location.kinds, List.flatMap_singleton]
    rfl
  | .indexed name index _ => by
    simp only [Location.text, Location.kinds, String.toList_append, index.toList_text,
      List.flatMap_cons, List.flatMap_append, List.append_assoc]
    rfl

theorem Call.toList_text : (called : Call) →
    called.text.toList = called.kinds.flatMap TokenKind.chars
  | .method name [] _ => by
    simp only [Call.text, Call.kinds, String.toList_append, List.flatMap_cons]
    rfl
  | .method name (first :: others) _ => by
    simp only [Call.text, Call.kinds, String.toList_append, first.toList_text,
      Expr.toList_tailText others, List.flatMap_cons, List.flatMap_append, List.append_assoc]
    rfl
  | .callout name args _ => by
    simp only [Call.text, Call.kinds, String.toList_append, CalloutArg.toList_tailText args,
      List.flatMap_cons, List.flatMap_append, List.append_assoc]
    rfl

theorem Expr.toList_tailText : (args : List Expr) →
    (Expr.tailText args).toList = (Expr.tailKinds args).flatMap TokenKind.chars
  | [] => rfl
  | arg :: others => by
    simp only [Expr.tailText, Expr.tailKinds, String.toList_append, arg.toList_text,
      Expr.toList_tailText others, List.flatMap_cons, List.flatMap_append, List.append_assoc]
    rfl

theorem CalloutArg.toList_tailText : (args : List CalloutArg) →
    (CalloutArg.tailText args).toList = (CalloutArg.tailKinds args).flatMap TokenKind.chars
  | [] => rfl
  | .expr value :: others => by
    simp only [CalloutArg.tailText, CalloutArg.tailKinds, CalloutArg.kinds, String.toList_append,
      value.toList_text, CalloutArg.toList_tailText others, List.flatMap_cons, List.flatMap_append,
      List.append_assoc]
    rfl
  | .string text :: others => by
    simp only [CalloutArg.tailText, CalloutArg.tailKinds, CalloutArg.kinds, String.toList_append,
      CalloutArg.toList_tailText others, List.flatMap_cons, List.flatMap_append, List.append_assoc]
    rfl

end

theorem Expr.text_bare (e : Expr) : e.bare.text = e.text := by
  apply String.toList_injective
  rw [e.bare.toList_text, e.toList_text, e.kinds_bare]

theorem Location.text_bare (place : Location) : place.bare.text = place.text := by
  apply String.toList_injective
  rw [place.bare.toList_text, place.toList_text, place.kinds_bare]

end Decaf
