import Decaf.Proofs.ExprText
import Decaf.Proofs.OperandTexts

namespace Decaf

open Lexical Grammar

section Spelling

theorem wellSpelled_keyword (word : Keyword) : WellSpelled (.keyword word) :=
  have hmem : word.text.toList ∈ (TokenPattern.keyword word).language := mem_only.2 rfl
  .mk hmem nofun

theorem wellSpelled_punct (mark : Punct) : WellSpelled (.punct mark) :=
  have hmem : mark.text.toList ∈ (TokenPattern.punct mark).language := mem_only.2 rfl
  .mk hmem nofun

theorem wellSpelled_identifier {name : String}
    (hmem : name.toList ∈ TokenPattern.identifier.language)
    (hword : Keyword.ofText? name = none) : WellSpelled (.identifier name) := by
  rw [← String.ofList_toList (s := name)] at hword
  have hspelled := WellSpelled.mk hmem fun _ => toList_ne_of_ofText? hword
  rwa [TokenPattern.kind, String.ofList_toList] at hspelled

theorem Written.blank {kinds : List TokenKind} {cs : List Char} (h : Written kinds cs) :
    Written kinds (' ' :: cs) := by
  cases h with
  | nil hgap => exact .nil (.blank (by decide) hgap)
  | cons hgap hkind hrest htail =>
    have hgap' : Skipped (' ' :: _) _ := .blank (by decide) hgap
    exact .cons hgap' hkind hrest htail

theorem Written.token {kind : TokenKind} {kinds : List TokenKind} {cs : List Char}
    (h : Written kinds cs) (hkind : WellSpelled kind) (hcs : Delimited kind cs) :
    Written (kind :: kinds) (kind.chars ++ cs) := .cons (.nil _) hkind hcs h

end Spelling

/-- A class with one method that returns the value of an expression. -/
def returning (value : Expr) : Program :=
  ⟨"P", [], [⟨"main", none, [], .mk [] [.returnFrom (some value) .zero] .zero, .zero⟩], .zero, 0⟩

/-- The class as it is written around the text of the expression. -/
def returningText (text : String) : String :=
  "class P\x7bvoid main()\x7breturn " ++ text ++ ";\x7d\x7d"

theorem toList_between (front text behind : String) :
    (front ++ text ++ behind).toList = front.toList ++ (text.toList ++ behind.toList) := by
  rw [String.toList_append, String.toList_append, List.append_assoc]

theorem toList_returningText (text : String) : (returningText text).toList =
    "class P\x7bvoid main()\x7breturn ".toList ++ (text.toList ++ ";\x7d\x7d".toList) :=
  toList_between _ _ _

def closingKinds : List TokenKind := [.punct .semi, .punct .rbrace, .punct .rbrace]

theorem kinds_returning (value : Expr) : (returning value).kinds =
    .keyword .classDecl :: .identifier "P" :: .punct .lbrace :: .keyword .void ::
      .identifier "main" :: .punct .lparen :: .punct .rparen :: .punct .lbrace ::
      .keyword .returnStmt :: (value.kinds ++ closingKinds) := by
  simp [returning, closingKinds, Program.kinds, MethodDecl.kinds, Block.kinds, Stmt.listKinds,
    Stmt.kinds, separatedKinds, resultKind]

theorem canonical_returning {value : Expr} (h : value.Canonical) : (returning value).Canonical := by
  refine ⟨nofun, ?_⟩
  rintro _ (_ | _)
  · exact ⟨nofun, h, trivial⟩
  · contradiction

theorem wellSpelled_main : WellSpelled (.identifier "main") :=
  wellSpelled_identifier
    (TokenPattern.mem_identifier.2 ⟨'m', ['a', 'i', 'n'], rfl, rfl, List.all_eq_true.1 rfl⟩) rfl

theorem wellSpelled_P : WellSpelled (.identifier "P") :=
  wellSpelled_identifier (TokenPattern.mem_identifier.2 ⟨'P', [], rfl, rfl, nofun⟩) rfl

theorem written_returning {value : Expr} (h : ∀ kind ∈ value.kinds, WellSpelled kind) :
    Written (returning value).kinds (returningText value.text).toList := by
  have hsolid := (((value.solid h).concat .semi nofun).concat .rbrace nofun).concat .rbrace nofun
  rw [List.append_assoc, List.append_assoc] at hsolid
  have hclosing : ∀ kind ∈ closingKinds, WellSpelled kind := by
    simp only [closingKinds, List.forall_mem_cons]
    exact ⟨wellSpelled_punct _, wellSpelled_punct _, wellSpelled_punct _, nofun⟩
  have hvalue : Written (value.kinds ++ closingKinds)
      ((value.kinds ++ closingKinds).flatMap TokenKind.chars) :=
    written_of_fits (List.forall_mem_append.2 ⟨h, hclosing⟩) hsolid.fits
  have htail : value.text.toList ++ ";\x7d\x7d".toList =
      (value.kinds ++ closingKinds).flatMap TokenKind.chars := by
    rw [value.toList_text, List.flatMap_append]
    rfl
  have hdelimited : ∀ kind c cs, joins kind c = false → Delimited kind (c :: cs) := by
    intro kind c cs hc d hd
    cases hd
    exact hc
  rw [kinds_returning, toList_returningText, htail]
  -- From the back: what a token stands in front of is written already.
  have hreturn := hvalue.blank.token (wellSpelled_keyword .returnStmt) (hdelimited _ ' ' _ rfl)
  have hbody := hreturn.token (wellSpelled_punct .lbrace) (hdelimited _ 'r' _ rfl)
  have hclose := hbody.token (wellSpelled_punct .rparen) (hdelimited _ '\x7b' _ rfl)
  have hopen := hclose.token (wellSpelled_punct .lparen) (hdelimited _ ')' _ rfl)
  have hmain := hopen.token wellSpelled_main (hdelimited _ '(' _ rfl)
  have hvoid := hmain.blank.token (wellSpelled_keyword .void) (hdelimited _ ' ' _ rfl)
  have hbrace := hvoid.token (wellSpelled_punct .lbrace) (hdelimited _ 'v' _ rfl)
  have hname := hbrace.token wellSpelled_P (hdelimited _ '\x7b' _ rfl)
  exact hname.blank.token (wellSpelled_keyword .classDecl) (hdelimited _ ' ' _ rfl)

theorem tokenize_of_written {text : String} {kinds : List TokenKind}
    (h : Written kinds text.toList) :
    (tokenize text).map (List.map Token.kind) = .ok (kinds ++ [.eof]) :=
  kinds_eq_ok_iff.2 (Lexer.lexemes_of_written h (Lexer.ofText text) rfl)

theorem eq_returning_of_bare {q : Program} {value : Expr} (h : q.bare = (returning value).bare) :
    ∃ result a b c d line, result.bare = value.bare ∧
      q = ⟨"P", [], [⟨"main", none, [], .mk [] [.returnFrom (some result) a] b, c⟩], d, line⟩ := by
  obtain ⟨name, fields, methods, d, line⟩ := q
  obtain ⟨hname, hfields, hmethods, -, -⟩ := Program.mk.inj h
  obtain ⟨method, rfl, hmethod⟩ := List.map_eq_singleton_iff.1 hmethods
  obtain ⟨methodName, returnType, params, ⟨locals, body, b⟩, c⟩ := method
  obtain ⟨hmethodName, htype, hparams, hbody, -⟩ := MethodDecl.mk.inj hmethod
  rw [Block.bare, Stmt.bareList_eq] at hbody
  obtain ⟨hlocals, hstmts, -⟩ := Block.mk.inj hbody
  obtain ⟨stmt, rfl, hstmt⟩ := List.map_eq_singleton_iff.1 hstmts
  obtain rfl := List.map_eq_nil_iff.1 hfields
  obtain rfl := List.map_eq_nil_iff.1 hparams
  obtain rfl := List.map_eq_nil_iff.1 hlocals
  cases stmt with
  | returnFrom result a =>
    cases result with
    | none => cases hstmt
    | some result =>
      obtain ⟨hresult, -⟩ := Stmt.returnFrom.inj hstmt
      obtain rfl : name = "P" := hname
      obtain rfl : methodName = "main" := hmethodName
      obtain rfl : returnType = none := htype
      exact ⟨result, a, b, c, d, line, Option.some.inj hresult, rfl⟩
  | _ => cases hstmt

theorem wellSpelled_of_within {text : String} {p : Program} {n : Node}
    (hp : parseProgram text = .ok p) (hn : (Node.program p).Within n) :
    ∀ kind ∈ n.kinds, WellSpelled kind := by
  obtain ⟨ts, hts, hspelled⟩ := parseProgram_eq_ok_iff_spelled.1 hp
  obtain ⟨before, seg, behind, rfl, hseg⟩ := hn.exists_segment hspelled
  obtain ⟨before', seg', behind', heq, hkinds, -⟩ := (Node.placed_of_spelled hts hseg).segment
  intro kind hkind
  rw [← hkinds] at hkind
  obtain ⟨t, ht, rfl⟩ := List.mem_map.1 hkind
  apply (Lexer.ofText text).lexemes_wellSpelled
  rw [hts, heq]
  exact List.mem_map_of_mem (List.mem_append_right _ (List.mem_append_left _ ht))

/-- An expression of a program that was parsed. -/
def Expr.Parsed (e : Expr) : Prop :=
  ∃ text p, parseProgram text = .ok p ∧ (Node.program p).Within (.expr e)

namespace Expr.Parsed

variable {e e' : Expr}

theorem exists_spelled (h : e.Parsed) : ∃ (text : String) (before seg behind : List Token),
    (Lexer.ofText text).lexemes = (before ++ (seg ++ behind)).map .ok ∧
      (Node.expr e).Spelled seg := by
  obtain ⟨text, p, hp, he⟩ := h
  obtain ⟨ts, hts, hspelled⟩ := parseProgram_eq_ok_iff_spelled.1 hp
  obtain ⟨before, seg, behind, rfl, hseg⟩ := he.exists_segment hspelled
  exact ⟨text, before, seg, behind, hts, hseg⟩

theorem canonical (h : e.Parsed) : e.Canonical := by
  obtain ⟨-, -, seg, -, -, hseg⟩ := h.exists_spelled
  exact (expr_written e seg hseg).2

theorem wellSpelled (h : e.Parsed) : ∀ kind ∈ e.kinds, WellSpelled kind := by
  obtain ⟨text, p, hp, he⟩ := h
  exact wellSpelled_of_within hp he

theorem tokenize_text (h : e.Parsed) :
    (tokenize e.text).map (List.map Token.kind) = .ok (e.kinds ++ [.eof]) := by
  apply tokenize_of_written
  rw [e.toList_text]
  exact written_of_fits h.wellSpelled (e.solid h.wellSpelled).fits

theorem parse_text (h : e.Parsed) : ∃ value a b c d line, value.bare = e.bare ∧
    parseProgram (returningText e.text) = .ok
      ⟨"P", [], [⟨"main", none, [], .mk [] [.returnFrom (some value) a] b, c⟩], d, line⟩ := by
  have hread := tokenize_of_written (written_returning h.wellSpelled)
  obtain ⟨ts, hts, hkinds⟩ := kinds_eq_ok_iff.1 hread
  have hcanonical := canonical_returning h.canonical
  obtain ⟨q, hq, hbare⟩ := program_respelled (returning e) hcanonical ts hkinds
  obtain ⟨value, a, b, c, d, line, hvalue, rfl⟩ := eq_returning_of_bare hbare
  exact ⟨value, a, b, c, d, line, hvalue, parseProgram_eq_ok_iff_spelled.2 ⟨ts, hts, hq⟩⟩

theorem bare_eq_of_text_eq (h : e.Parsed) (h' : e'.Parsed) (htext : e.text = e'.text) :
    e.bare = e'.bare := by
  have hkinds : e.kinds = e'.kinds := by
    have hread := h.tokenize_text
    rw [htext, h'.tokenize_text] at hread
    exact (List.append_cancel_right (Except.ok.inj hread)).symm
  have hclass : (returning e).kinds = (returning e').kinds := by
    rw [kinds_returning, kinds_returning, hkinds]
  have hbare := bare_eq_of_kinds_eq (canonical_returning h.canonical)
    (canonical_returning h'.canonical) hclass
  obtain ⟨value, _, _, _, _, _, hvalue, hsame⟩ := eq_returning_of_bare hbare
  cases hsame
  exact hvalue

theorem text_eq_iff (h : e.Parsed) (h' : e'.Parsed) : e.text = e'.text ↔ e.bare = e'.bare := by
  constructor
  · exact h.bare_eq_of_text_eq h'
  · intro hbare
    rw [← e.text_bare, hbare, e'.text_bare]

end Expr.Parsed

/-- The text says everything about the expression but where it stands: it is read as its tokens, it
parses to it in a program, and of all parsed expressions only those have it that differ in nothing
but spans. -/
structure Expr.Faithful (e : Expr) : Prop where
  tokens : (tokenize e.text).map (List.map Token.kind) = .ok (e.kinds ++ [.eof])
  parses : ∃ value a b c d line, value.bare = e.bare ∧
    parseProgram (returningText e.text) = .ok
      ⟨"P", [], [⟨"main", none, [], .mk [] [.returnFrom (some value) a] b, c⟩], d, line⟩
  identifies : ∀ e' : Expr, e'.Parsed → (e'.text = e.text ↔ e'.bare = e.bare)

theorem Expr.Parsed.faithful {e : Expr} (h : e.Parsed) : e.Faithful where
  tokens := h.tokenize_text
  parses := h.parse_text
  identifies := fun _ h' => h'.text_eq_iff h

/-- The texts of the expressions of a parsed program are faithful, and those that a diagnostic
about an operator shows are the texts of its operands. -/
theorem expr_text_faithful {text : String} {p : Program} (h : parseProgram text = .ok p) :
    (∀ e, (Node.program p).Within (.expr e) → e.Faithful ∧
      ∃ before own behind, tokenize text = .ok (before ++ (own ++ behind)) ∧
        own.map Token.kind = e.kinds ∧ Covers own e.span) ∧
    ∀ rules, ∀ d ∈ analyze rules p, ∀ category left right,
      d.defect = .typeMismatch (.operator category) left right →
        ∃ op l r, (Node.program p).Within (.expr (.binary op l r d.span)) ∧
          op.category = category ∧ l.text = left ∧ r.text = right ∧ l.Faithful ∧ r.Faithful := by
  have hfaithful : ∀ e, (Node.program p).Within (.expr e) → e.Faithful := by
    intro e he
    have hparsed : e.Parsed := ⟨text, p, h, he⟩
    exact hparsed.faithful
  constructor
  · intro e he
    refine ⟨hfaithful e he, ?_⟩
    obtain ⟨ts, hts, hspelled⟩ := parseProgram_eq_ok_iff_spelled.1 h
    obtain ⟨before, seg, behind, rfl, hseg⟩ := he.exists_segment hspelled
    obtain ⟨before', own, behind', heq, hkinds, hcovers⟩ :=
      (Node.placed_of_spelled hts hseg).segment
    refine ⟨before', own, behind' ++ [(Lexer.ofText text).eof], ?_, hkinds, hcovers⟩
    apply tokenize_eq_ok_iff.2
    refine ⟨_, hts, ?_⟩
    rw [heq, List.append_assoc, List.append_assoc]
  · intro rules d hd category left right hdefect
    rw [analyze_eq_findings] at hd
    have hop : d.defect.isOperator = true := by
      rw [hdefect]
      rfl
    obtain ⟨op, l, r, span, hwithin, rfl⟩ := p.shows_findings rules d hd hop
    cases hdefect
    have hl := hwithin.child (.head _)
    have hr := hwithin.child (.tail _ (.head _))
    exact ⟨op, l, r, hwithin, rfl, rfl, rfl, hfaithful l hl, hfaithful r hr⟩

theorem expr_text_faithful_signs :
    ∃ p d, parseProgram "class P\x7bvoid main()\x7bint x;x=x - -1 && true;\x7d\x7d" = .ok p ∧
      d ∈ analyze .standard p ∧
      d.defect = .typeMismatch (.operator .conditional) "x--1" "true" ∧
      ∃ l r : Expr, l.text = "x--1" ∧ r.text = "true" ∧ l.Faithful ∧ r.Faithful := by
  have h : (parseProgram "class P\x7bvoid main()\x7bint x;x=x - -1 && true;\x7d\x7d").map
      (analyze .standard) = .ok
        [⟨.typeMismatch (.operator .conditional) "x--1" "true", 1, ⟨28, 42, 1⟩⟩,
          ⟨.typeMismatch .assignment "int" "boolean", 1, ⟨26, 43, 1⟩⟩] := by
    cbv
  cases hp : parseProgram "class P\x7bvoid main()\x7bint x;x=x - -1 && true;\x7d\x7d" with
  | error e =>
    rw [hp] at h
    cases h
  | ok p =>
    rw [hp] at h
    have hd : ⟨.typeMismatch (.operator .conditional) "x--1" "true", 1, ⟨28, 42, 1⟩⟩ ∈
        analyze .standard p := by
      rw [Except.ok.inj h]
      exact .head _
    obtain ⟨-, hquotes⟩ := expr_text_faithful hp
    obtain ⟨-, l, r, -, -, hl, hr, hlf, hrf⟩ := hquotes .standard _ hd _ _ _ rfl
    exact ⟨p, _, rfl, hd, rfl, l, r, hl, hr, hlf, hrf⟩

end Decaf
