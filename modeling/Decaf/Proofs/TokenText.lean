import Decaf.Proofs.Lossless
import Mathlib.Data.List.Chain

namespace Decaf

def TokenKind.chars (kind : TokenKind) : List Char := kind.spelling.toList

namespace Lexical

/-- Kinds with a text that a pattern allows. -/
inductive WellSpelled : TokenKind → Prop
  | mk {pattern : TokenPattern} {w : List Char} : w ∈ pattern.language →
      (pattern = .identifier → ∀ word : Keyword, w ≠ word.text.toList) →
      WellSpelled (pattern.kind w)

/-- Whether a token would be read differently with the character right behind it. -/
def joins : TokenKind → Char → Bool
  | .keyword _, c | .identifier _, c | .hexLiteral _, c | .intLiteral _, c => isIdentPart c
  | .punct .slash, c => c = '/'
  | .punct .plus, c | .punct .minus, c | .punct .lt, c | .punct .gt, c | .punct .bang, c
  | .punct .eq, c => c = '='
  | .punct _, _ | .charLiteral _, _ | .stringLiteral _, _ | .eof, _ => false

/-- What stands behind a token leaves it as it is. -/
def Delimited (kind : TokenKind) (rest : List Char) : Prop :=
  ∀ c ∈ rest.head?, joins kind c = false

theorem IsToken.wellSpelled {text w : List Char} {kind : TokenKind} (h : IsToken text kind w) :
    WellSpelled kind := by
  obtain ⟨hmatch, -, hword⟩ := h
  exact .mk hmatch.mem hword

section Scan

variable {c : Char} {cs rest : List Char}

theorem takeWhile_append_rest {p : Char → Bool} (hcs : ∀ d ∈ cs, p d = true)
    (hrest : ∀ d ∈ rest.head?, p d = false) : (cs ++ rest).takeWhile p = cs := by
  rw [List.takeWhile_append_of_pos hcs]
  cases rest with
  | nil => simp
  | cons d rest =>
    have hd : p d = false := hrest d rfl
    rw [List.takeWhile_cons, hd]
    simp

theorem textOf_append (c : Char) (cs rest : List Char) :
    textOf c (cs ++ rest) cs.length = String.ofList (c :: cs) := by
  rw [textOf, List.take_left]

theorem scan_word (hc : isIdentStart c = true) (hcs : ∀ d ∈ cs, isIdentPart d = true)
    (hrest : ∀ d ∈ rest.head?, isIdentPart d = false) :
    scan c (cs ++ rest) = .token (wordKind (String.ofList (c :: cs))) cs.length := by
  rw [scan, if_pos hc, scanWord, takeWhile_append_rest hcs hrest, textOf_append]

theorem isIdentPart_of_isDigit {d : Char} (h : d.isDigit = true) : isIdentPart d = true :=
  isIdentPart_iff.2 (.inr (isDigit_iff.1 h))

theorem isIdentPart_of_isHexDigit {d : Char} (h : isHexDigit d = true) : isIdentPart d = true := by
  apply isIdentPart_iff.2
  rcases isHexDigit_iff.1 h with hdigit | ⟨hlo, hhi⟩ | ⟨hlo, hhi⟩
  · exact .inr hdigit
  · exact .inl (.inl ⟨hlo, Char.le_trans hhi (by decide)⟩)
  · exact .inl (.inr (.inl ⟨hlo, Char.le_trans hhi (by decide)⟩))

theorem not_of_not_isIdentPart {p : Char → Bool} (hp : ∀ {d}, p d = true → isIdentPart d = true)
    (hrest : ∀ d ∈ rest.head?, isIdentPart d = false) : ∀ d ∈ rest.head?, p d = false := by
  intro d hd
  rw [Bool.eq_false_iff]
  intro h
  have hpart := hrest d hd
  rw [hp h] at hpart
  cases hpart

theorem scan_digit (hc : c.isDigit = true) (cs : List Char) : scan c cs = scanNumber c cs := by
  rw [scan, not_identStart_of_isDigit hc]
  simp [hc]

theorem scan_decimal (hc : c.isDigit = true) (hcs : ∀ d ∈ cs, d.isDigit = true)
    (hrest : ∀ d ∈ rest.head?, isIdentPart d = false) :
    scan c (cs ++ rest) = .token (.intLiteral (String.ofList (c :: cs))) cs.length := by
  have hrun := takeWhile_append_rest hcs (not_of_not_isIdentPart isIdentPart_of_isDigit hrest)
  -- The mark of a hexadecimal literal is a letter, in the digits as well as behind them.
  have hmark : ∀ hex, cs ++ rest ≠ 'x' :: hex := by
    intro hex heq
    cases cs with
    | nil =>
      subst heq
      cases hrest 'x' rfl
    | cons d cs =>
      obtain ⟨rfl, -⟩ := List.cons.inj heq
      cases hcs 'x' (.head cs)
  rw [scan_digit hc]
  unfold scanNumber
  dsimp only
  split
  · next hex heq => exact absurd heq (hmark hex)
  · rw [hrun, textOf_append]

theorem scan_hex {hs : List Char} (hne : hs ≠ []) (hhs : ∀ d ∈ hs, isHexDigit d = true)
    (hrest : ∀ d ∈ rest.head?, isIdentPart d = false) :
    scan '0' ('x' :: hs ++ rest) =
      .token (.hexLiteral (String.ofList ('0' :: 'x' :: hs))) ('x' :: hs).length := by
  have hrun := takeWhile_append_rest hhs (not_of_not_isIdentPart isIdentPart_of_isHexDigit hrest)
  obtain ⟨d, ds, rfl⟩ := List.exists_cons_of_ne_nil hne
  have htext := textOf_append '0' ('x' :: d :: ds) rest
  have hscan : scanNumber '0' ('x' :: (d :: ds ++ rest)) =
      .token (.hexLiteral (textOf '0' ('x' :: (d :: ds ++ rest)) (ds.length + 2)))
        (ds.length + 2) := by
    unfold scanNumber
    split
    · next heq =>
      cases heq
      rw [hrun]
      rfl
    · next hother => exact absurd rfl (hother _ rfl)
  rw [scan_digit rfl, List.cons_append, hscan]
  exact congrArg (Scan.token · _) (congrArg TokenKind.hexLiteral htext)

theorem scan_quoted (hcs : cs ∈ TokenPattern.charLiteral.language) (rest : List Char) :
    ∃ body, cs = '\'' :: body ∧
      scan '\'' (body ++ rest) = .token (.charLiteral (String.ofList cs)) body.length := by
  have hscan : ∀ text, scan '\'' text = scanChar text := fun text => rfl
  rcases TokenPattern.mem_charLiteral.1 hcs with ⟨c, hc, rfl⟩ | ⟨e, he, rfl⟩
  · refine ⟨[c, '\''], rfl, ?_⟩
    rw [hscan]
    unfold scanChar
    split
    · next heq =>
      obtain ⟨rfl, -⟩ := List.cons.inj heq
      cases hc
    · next heq =>
      obtain ⟨rfl, -⟩ := List.cons.inj heq
      rw [if_pos hc]
      rfl
    · next hother => exact absurd rfl (hother c rest)
  · refine ⟨['\\', e, '\''], rfl, ?_⟩
    rw [hscan]
    change (if isEscape e then _ else _) = _
    rw [if_pos he]
    rfl

theorem scan_string (hcs : cs ∈ TokenPattern.stringLiteral.language) (rest : List Char) :
    ∃ body, cs = '"' :: body ∧
      scan '"' (body ++ rest) = .token (.stringLiteral (String.ofList cs)) body.length := by
  obtain ⟨body, hbody, rfl⟩ := TokenPattern.mem_stringLiteral.1 hcs
  refine ⟨body ++ ['"'], rfl, ?_⟩
  have hscan : ∀ text, scan '"' text = scanString text := fun text => rfl
  have hlength : stringBodyLength (body ++ ['"'] ++ rest) = body.length := by
    rw [List.append_assoc, stringBodyLength_append hbody]
    rfl
  have hdrop : (body ++ ['"'] ++ rest).drop body.length = '"' :: rest := by
    rw [List.append_assoc, List.drop_left]
    rfl
  have htext := textOf_append '"' (body ++ ['"']) rest
  rw [List.length_append, List.length_singleton] at htext ⊢
  rw [hscan, scanString, hlength, hdrop, htext]
  rfl

theorem twoCharPunct?_eq_none {mark : Punct} {d : Char} (hmark : oneCharPunct? c = some mark)
    (h : joins (.punct mark) d = false) : twoCharPunct? c d = none := by
  unfold twoCharPunct?
  split
  case h_9 => rfl
  all_goals
    cases hmark
    try cases h

theorem scan_of_mark (h : Family.ofChar c = .mark) (cs : List Char) :
    scan c cs = scanPunct c cs := by
  unfold Family.ofChar at h
  fun_cases scan c cs <;> simp_all

theorem scan_mark {mark : Punct} (hcs : mark.text.toList = c :: cs)
    (hrest : ∀ d ∈ rest.head?, joins (.punct mark) d = false) :
    scan c (cs ++ rest) = .token (.punct mark) cs.length := by
  have hfamily : Family.ofChar c = .mark := by
    obtain ⟨d, ds, heq, hd⟩ := punct_eq_cons mark
    rw [hcs] at heq
    obtain ⟨rfl, -⟩ := List.cons.inj heq
    exact hd
  rw [scan_of_mark hfamily, scanPunct]
  rcases punct_cases mark with ⟨e, he, hmark⟩ | ⟨e, f, he, hmark⟩
  · rw [hcs] at he
    cases he
    have hnone : rest.head?.bind (twoCharPunct? c) = none := by
      cases rest with
      | nil => rfl
      | cons d rest => exact twoCharPunct?_eq_none hmark (hrest d rfl)
    rw [List.nil_append, hnone, hmark]
    rfl
  · rw [hcs] at he
    cases he
    rw [List.singleton_append, List.head?_cons, Option.bind_some, hmark]
    rfl

end Scan

theorem wordKind_keyword (word : Keyword) : wordKind word.text = .keyword word := by
  rw [wordKind, ofText?_eq_some_iff.2 rfl]

theorem wordKind_identifier {w : List Char} (h : ∀ word : Keyword, w ≠ word.text.toList) :
    wordKind (String.ofList w) = .identifier (String.ofList w) := by
  rw [wordKind]
  split
  · next word hword =>
    have htext := congrArg String.toList (ofText?_eq_some_iff.1 hword)
    rw [String.toList_ofList] at htext
    exact absurd htext.symm (h word)
  · rfl

/-- A spelling is scanned as the token it spells. -/
theorem WellSpelled.scan_eq {kind : TokenKind} (h : WellSpelled kind) {rest : List Char}
    (hrest : Delimited kind rest) :
    ∃ c cs, kind.chars = c :: cs ∧ scan c (cs ++ rest) = .token kind cs.length := by
  obtain ⟨hmem, hword⟩ := h
  rename_i pattern w
  rw [TokenKind.chars, kind_spelling hmem, String.toList_ofList]
  cases pattern with
  | keyword word =>
    obtain rfl := mem_only.1 hmem
    obtain ⟨c, cs, hcs, hc, hparts⟩ := keyword_eq_cons word
    refine ⟨c, cs, hcs, ?_⟩
    rw [scan_word hc hparts hrest, ← hcs, String.ofList_toList, wordKind_keyword]
    rfl
  | punct mark =>
    obtain rfl := mem_only.1 hmem
    obtain ⟨c, cs, hcs, -⟩ := punct_eq_cons mark
    exact ⟨c, cs, hcs, scan_mark hcs hrest⟩
  | identifier =>
    obtain ⟨c, cs, rfl, hc, hparts⟩ := TokenPattern.mem_identifier.1 hmem
    refine ⟨c, cs, rfl, ?_⟩
    rw [scan_word hc hparts hrest, wordKind_identifier (hword rfl)]
    rfl
  | hexLiteral =>
    obtain ⟨hs, rfl, hne, hhs⟩ := TokenPattern.mem_hexLiteral.1 hmem
    exact ⟨'0', 'x' :: hs, rfl, scan_hex hne hhs hrest⟩
  | intLiteral =>
    obtain ⟨c, cs, rfl, hc, hcs⟩ := TokenPattern.mem_intLiteral.1 hmem
    exact ⟨c, cs, rfl, scan_decimal hc hcs hrest⟩
  | charLiteral =>
    obtain ⟨body, hbody, hscan⟩ := scan_quoted hmem rest
    exact ⟨'\'', body, hbody, hscan⟩
  | stringLiteral =>
    obtain ⟨body, hbody, hscan⟩ := scan_string hmem rest
    exact ⟨'"', body, hbody, hscan⟩

section Gaps

theorem triviaLength_eq_zero {c : Char} {cs : List Char} (hblank : isBlank c = false)
    (hslash : c = '/' → ∀ d ∈ cs.head?, d ≠ '/') : triviaLength (c :: cs) = 0 := by
  unfold triviaLength
  rw [hblank]
  simp only [Bool.false_eq_true, if_false]
  split
  · next rest _ => exact absurd rfl (hslash rfl '/' rfl)
  · rfl

theorem commentLength_append {body rest : List Char} (hbody : ∀ c ∈ body, c ≠ '\n')
    (hend : ∀ c ∈ rest.head?, c = '\n') :
    commentLength (body ++ rest) = body.length + triviaLength rest := by
  induction body with
  | nil =>
    cases rest with
    | nil => rfl
    | cons c rest =>
      obtain rfl := hend c rfl
      rw [triviaLength_blank rfl, List.nil_append, commentLength, if_pos rfl, List.length_nil,
        Nat.zero_add]
  | cons c body ih =>
    obtain ⟨hc, hbody⟩ := List.forall_mem_cons.1 hbody
    rw [List.cons_append, commentLength, if_neg hc, ih hbody, List.length_cons]
    omega

theorem Skipped.triviaLength_append {gap rest : List Char} (h : Skipped gap rest) :
    triviaLength (gap ++ rest) = gap.length + triviaLength rest := by
  induction h with
  | nil rest => rw [List.nil_append, List.length_nil, Nat.zero_add]
  | blank hc _ ih =>
    rw [List.cons_append, triviaLength_blank (isBlank_iff.2 hc), ih, List.length_cons]
    omega
  | @comment body gap rest hbody hend _ ih =>
    have hskip : triviaLength ('/' :: '/' :: (body ++ gap) ++ rest) =
        commentLength (body ++ (gap ++ rest)) + 2 := by
      rw [← List.append_assoc]
      rfl
    rw [hskip, commentLength_append hbody hend, ih]
    simp only [List.length_cons, List.length_append]
    omega

theorem scan_blank {c : Char} (h : isBlank c = true) (cs : List Char) :
    scan c cs = .invalid 0 := by
  have hc := isBlank_iff.1 h
  simp only [List.mem_cons, List.not_mem_nil, or_false] at hc
  rcases hc with rfl | rfl | rfl | rfl | rfl <;> cases cs <;> rfl

theorem WellSpelled.triviaLength_eq_zero {kind : TokenKind} (h : WellSpelled kind)
    {rest : List Char} (hrest : Delimited kind rest) : triviaLength (kind.chars ++ rest) = 0 := by
  obtain ⟨c, cs, hcs, hscan⟩ := h.scan_eq hrest
  rw [hcs]
  have hblank : isBlank c = false := by
    rw [Bool.eq_false_iff]
    intro hblank
    rw [scan_blank hblank] at hscan
    cases hscan
  -- Two strokes scan as the first of them, which the second would join.
  have hslash : c = '/' → ∀ d ∈ (cs ++ rest).head?, d ≠ '/' := by
    rintro rfl d hd rfl
    obtain ⟨tail, htail⟩ := List.head?_eq_some_iff.1 hd
    rw [htail] at hscan
    obtain ⟨rfl, hlength⟩ := Scan.token.inj hscan
    obtain rfl := List.length_eq_zero_iff.1 hlength.symm
    cases hrest '/' hd
  exact Lexical.triviaLength_eq_zero hblank hslash

end Gaps

end Lexical

open Lexical

/-- The text is written with tokens of these kinds, with gaps in front of them and behind. -/
inductive Written : List TokenKind → List Char → Prop
  | nil {gap : List Char} : Skipped gap [] → Written [] gap
  | cons {gap rest : List Char} {kind : TokenKind} {kinds : List TokenKind} :
      Skipped gap (kind.chars ++ rest) → WellSpelled kind → Delimited kind rest →
      Written kinds rest → Written (kind :: kinds) (gap ++ (kind.chars ++ rest))

theorem Lexer.read?_written {l : Lexer} {gap rest : List Char} {kind : TokenKind}
    (hl : l.rest = gap ++ (kind.chars ++ rest)) (hgap : Skipped gap (kind.chars ++ rest))
    (hkind : WellSpelled kind) (hrest : Delimited kind rest) :
    ∃ span next, l.read? = some (.ok ⟨kind, span⟩, next) ∧ next.rest = rest := by
  have htrivia : triviaLength l.rest = gap.length := by
    rw [hl, hgap.triviaLength_append, hkind.triviaLength_eq_zero hrest, Nat.add_zero]
  obtain ⟨c, cs, hcs, hscan⟩ := hkind.scan_eq hrest
  have hstart : (l.skip (triviaLength l.rest)).rest = c :: (cs ++ rest) := by
    rw [htrivia, Lexer.skip, hl, List.drop_left, hcs]
    rfl
  have hstop : ((l.skip (triviaLength l.rest)).skip (cs.length + 1)).rest = rest := by
    rw [Lexer.skip, hstart, List.drop_succ_cons, List.drop_left]
  let start := l.skip (triviaLength l.rest)
  refine ⟨start.spanTo (start.skip (cs.length + 1)), start.skip (cs.length + 1), ?_, hstop⟩
  unfold Lexer.read?
  dsimp only
  split
  · next hnil =>
    rw [hstart] at hnil
    cases hnil
  · next d ds hcons =>
    rw [hstart] at hcons
    cases hcons
    rw [hscan]

theorem Lexer.lexemes_of_written {kinds : List TokenKind} {cs : List Char}
    (h : Written kinds cs) (l : Lexer) (hl : l.rest = cs) :
    ∃ ts : List Token, l.lexemes = ts.map .ok ∧ ts.map Token.kind = kinds := by
  induction h generalizing l with
  | @nil gap hgap =>
    have hnone : l.read? = none := by
      apply read?_eq_none_iff.2
      have hlength := hgap.triviaLength_append
      rw [List.append_nil] at hlength
      rw [hl, hlength, List.drop_eq_nil_iff]
      exact Nat.le_add_right _ _
    exact ⟨[], lexemes_of_none hnone, rfl⟩
  | @cons gap rest kind kinds hgap hkind hrest _ ih =>
    obtain ⟨span, next, hread, hnext⟩ := read?_written hl hgap hkind hrest
    obtain ⟨ts, hts, hkinds⟩ := ih next hnext
    refine ⟨⟨kind, span⟩ :: ts, ?_, ?_⟩
    · rw [lexemes_of_some hread, hts]
      rfl
    · rw [List.map_cons, hkinds]

theorem Lexer.lexemes_wellSpelled (l : Lexer) {t : Token} (h : .ok t ∈ l.lexemes) :
    WellSpelled t.kind := by
  fun_induction Lexer.lexemes l with
  | case1 => cases h
  | case2 l x next hread _ ih =>
    rcases List.mem_cons.1 h with rfl | hrest
    · have hlexed : Lexed l (.ok t) next := by
        have hstep := next_lexed l
        rwa [Lexer.next, hread] at hstep
      cases hlexed with
      | eof hall _ =>
        rw [read?_eq_none_of_longest hall] at hread
        cases hread
      | token _ _ htoken _ _ => exact htoken.wellSpelled
    · exact ih hrest

/-- The second kind may be written right behind the first. -/
def Fits (kind other : TokenKind) : Prop := Delimited kind other.chars

theorem Lexical.WellSpelled.chars_ne_nil {kind : TokenKind} (h : WellSpelled kind) :
    kind.chars ≠ [] := by
  have hnone : Delimited kind [] := nofun
  obtain ⟨c, cs, hcs, -⟩ := h.scan_eq hnone
  rw [hcs]
  exact List.cons_ne_nil c cs

theorem delimited_append {kind : TokenKind} {cs : List Char} (h : Delimited kind cs)
    (hne : cs ≠ []) (rest : List Char) : Delimited kind (cs ++ rest) := by
  obtain ⟨c, cs, rfl⟩ := List.exists_cons_of_ne_nil hne
  exact h

/-- Tokens that fit are written one behind the other without gaps. -/
theorem written_of_fits {kinds : List TokenKind} (hkinds : ∀ kind ∈ kinds, WellSpelled kind)
    (hfits : kinds.IsChain Fits) : Written kinds (kinds.flatMap TokenKind.chars) := by
  induction kinds with
  | nil => exact .nil (.nil [])
  | cons kind kinds ih =>
    obtain ⟨hkind, hothers⟩ := List.forall_mem_cons.1 hkinds
    have hrest := ih hothers hfits.tail
    have hends : Delimited kind (kinds.flatMap TokenKind.chars) := by
      cases kinds with
      | nil => exact nofun
      | cons other kinds =>
        have hother := hothers other (.head _)
        exact delimited_append (List.isChain_cons_cons.1 hfits).1 hother.chars_ne_nil _
    exact .cons (.nil _) hkind hends hrest

end Decaf
