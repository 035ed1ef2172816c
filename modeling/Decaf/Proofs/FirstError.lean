import Decaf.Proofs.ParsedText
import Decaf.Proofs.PredictiveParser

namespace Decaf

open TokenStream Grammar

/-- Some program starts with tokens of these kinds, or is finished by them. -/
def Viable (kinds : List TokenKind) : Prop :=
  ∃ p : Program, p.Canonical ∧ kinds <+: p.kinds ++ [.eof]

theorem Viable.shorten {kinds more : List TokenKind} (h : Viable more)
    (hbegin : kinds <+: more) : Viable kinds := by
  obtain ⟨p, hp, hmore⟩ := h
  exact ⟨p, hp, hbegin.trans hmore⟩

theorem canonical_empty (name : String) : (Program.mk name [] [] .zero 0).Canonical :=
  ⟨nofun, nofun⟩

theorem viable_nil : Viable [] := ⟨_, canonical_empty "P", List.nil_prefix⟩

/-- The tokens in front of the first lexeme that is none, and all of them with the end of the text
if there is no such lexeme. -/
def tokensOf (textEnd : Token) : List Lexeme → List Token
  | [] => [textEnd]
  | .ok t :: rest => t :: tokensOf textEnd rest
  | .error _ :: _ => []

/-- The tokens of a text up to the first piece of it that is no token, or up to its end. -/
def readable (text : String) : List Token :=
  tokensOf (Lexer.ofText text).eof (Lexer.ofText text).lexemes

theorem tokensOf_append (textEnd : Token) (ts : List Token) (rest : List Lexeme) :
    tokensOf textEnd (ts.map .ok ++ rest) = ts ++ tokensOf textEnd rest := by
  induction ts with
  | nil => rfl
  | cons t ts ih => rw [List.map_cons, List.cons_append, tokensOf, ih, List.cons_append]

theorem mapM_id_eq_error (ts : List Token) (x : LexicalError) (rest : List Lexeme) :
    ((ts.map Except.ok ++ .error x :: rest : List Lexeme).mapM id :
      Except LexicalError (List Token)) = .error x := by
  induction ts with
  | nil => rfl
  | cons t ts ih =>
    rw [List.map_cons, List.cons_append, List.mapM_cons, ih]
    rfl

theorem tokenize_eq_error {text : String} {x : LexicalError} {rest : List Lexeme}
    (ts : List Token) (h : (Lexer.ofText text).lexemes = ts.map Except.ok ++ .error x :: rest) :
    tokenize text = .error x := by
  simp only [tokenize, h, mapM_id_eq_error]
  rfl

theorem lexemes_behind_reads {s next : TokenStream} {front : List Token} (h : Reads s front next) :
    .ok s.current :: s.rest = front.map Except.ok ++ .ok next.current :: next.rest ∨
      .ok s.current :: s.rest = front.map Except.ok ∧
        next = ⟨⟨.eof, s.textEnd⟩, [], s.textEnd⟩ := by
  induction h with
  | nil s => exact .inl rfl
  | @cons s s₁ next t ts hstep hrest ih =>
    cases hstep with
    | last _ =>
      cases hrest with
      | nil => exact .inr ⟨rfl, rfl⟩
      | cons hstep _ => exact absurd hstep.kind.symm hstep.live
    | token _ =>
      rcases ih with hbehind | ⟨hall, hnext⟩
      · exact .inl (congrArg (List.cons _) hbehind)
      · exact .inr ⟨congrArg (List.cons _) hall, hnext⟩

theorem lexemes_split {text : String} {s next : TokenStream} {front : List Token}
    (hs : TokenStream.ofText text = .ok s) (h : Reads s front next) :
    (Lexer.ofText text).lexemes = front.map Except.ok ++ .ok next.current :: next.rest ∨
      (Lexer.ofText text).lexemes = front.map Except.ok ∧
        next.current = (Lexer.ofText text).eof ∧ next.rest = [] := by
  unfold TokenStream.ofText at hs
  dsimp only at hs
  split at hs
  · next hnil =>
    cases hs
    cases h with
    | nil => exact .inr ⟨hnil, rfl, rfl⟩
    | cons hstep _ => exact absurd hstep.kind.symm hstep.live
  · next first rest hcons =>
    cases hs
    rw [hcons]
    rcases lexemes_behind_reads h with hbehind | ⟨hall, rfl⟩
    · exact .inl hbehind
    · exact .inr ⟨hall, rfl, rfl⟩
  · cases hs

theorem lexemes_of_ofText_error {text : String} {x : LexicalError}
    (h : TokenStream.ofText text = .error x) :
    ∃ rest, (Lexer.ofText text).lexemes = .error x :: rest := by
  unfold TokenStream.ofText at h
  dsimp only at h
  split at h
  · cases h
  · cases h
  · next hcons =>
    cases h
    exact ⟨_, hcons⟩

theorem readable_of_reads {text : String} {s next : TokenStream} {front : List Token}
    (hs : TokenStream.ofText text = .ok s) (h : Reads s front next) :
    ∃ back, readable text = front ++ next.current :: back := by
  rw [readable]
  rcases lexemes_split hs h with hbehind | ⟨hall, hend, -⟩
  · rw [hbehind, tokensOf_append]
    exact ⟨_, rfl⟩
  · rw [hall, ← List.append_nil (front.map Except.ok), tokensOf_append, hend]
    exact ⟨[], rfl⟩

theorem readable_of_unreadable {text : String} {s : TokenStream} {front : List Token} {t : Token}
    {x : LexicalError} {rest : List Lexeme} {textEnd : Span}
    (hs : TokenStream.ofText text = .ok s) (h : Reads s front ⟨t, .error x :: rest, textEnd⟩) :
    readable text = front ++ [t] ∧ tokenize text = .error x := by
  rcases lexemes_split hs h with hbehind | ⟨-, -, hnone⟩
  · have hlexemes : (Lexer.ofText text).lexemes =
        (front ++ [t]).map Except.ok ++ .error x :: rest := by
      rw [hbehind, List.map_append, List.append_assoc]
      rfl
    refine ⟨?_, tokenize_eq_error (front ++ [t]) hlexemes⟩
    rw [readable, hlexemes, tokensOf_append]
    exact List.append_nil _
  · cases hnone

theorem mem_tokensOf {textEnd t : Token} {xs : List Lexeme} (h : t ∈ tokensOf textEnd xs) :
    .ok t ∈ xs ∨ t = textEnd := by
  induction xs with
  | nil => exact .inr (List.mem_singleton.1 h)
  | cons x xs ih =>
    cases x with
    | error e => cases h
    | ok u =>
      rcases List.mem_cons.1 h with rfl | hrest
      · exact .inl (.head xs)
      · exact (ih hrest).imp_left (List.mem_cons_of_mem _)

theorem normalKind_of_readable {text : String} {t : Token} (h : t ∈ readable text) :
    normalKind t.kind = t.kind := by
  rcases mem_tokensOf h with hmem | rfl
  · exact ((Lexer.ofText text).lexemes_scannable hmem).normal
  · rfl

theorem viable_of_completable {text : String} {front back : List Token}
    (hreadable : readable text = front ++ back)
    (h : Parser.Completable ProgramSpelled front) : Viable (front.map Token.kind) := by
  obtain ⟨us, p, hp⟩ := h
  obtain ⟨hkinds, hcanonical⟩ := program_written p _ hp
  have hnormal : front.map Token.kind = normalKinds front := by
    refine List.map_congr_left fun t ht => ?_
    exact (normalKind_of_readable (hreadable ▸ List.mem_append_left back ht)).symm
  refine ⟨p, hcanonical, normalKinds us ++ [.eof], ?_⟩
  rw [hnormal, ← hkinds, normalKinds_append, List.append_assoc]

theorem exists_reads {ts : List Token} (hne : ts ≠ []) (hlive : ∀ u ∈ ts, u.kind ≠ .eof) :
    ∃ s next, Reads s ts next ∧ next.kind = .eof := by
  cases ts with
  | nil => exact absurd rfl hne
  | cons t ts => exact ⟨_, _, reads_all .zero hlive, rfl⟩

theorem not_viable_of_rejects {front : List Token} {next : TokenStream} {s : TokenStream}
    {e : ParseError} (hread : Reads s front next)
    (htwin : ∀ s' next', Reads s' front next' → next'.current = next.current →
      Parser.program s' = .fail e next') :
    ¬ Viable ((front ++ [next.current]).map Token.kind) := by
  rintro ⟨p, hp, hbegin⟩
  rw [List.map_append, List.map_singleton, List.prefix_concat_iff] at hbegin
  rcases hbegin with heq | ⟨us, hus⟩
  · -- The program ends here, and the parser would have found it.
    obtain ⟨hkinds, hend⟩ := List.append_inj' heq rfl
    obtain ⟨q, hq, -⟩ := program_respelled p hp front hkinds
    have hgives := Parser.program_gives hq hread (List.cons.inj hend).1
    rw [htwin s next hread rfl] at hgives
    exact Reply.fail_gives hgives
  · -- The program goes on, and on a stream of its tokens the parser would not fail.
    let ts : List Token := front ++ next.current :: us.map fun kind => ⟨kind, .zero⟩
    have hkinds : ts.map Token.kind = p.kinds := by
      simp [ts, ← hus, Function.comp_def]
    have hlive : ∀ u ∈ ts, u.kind ≠ .eof := by
      intro u hu heof
      exact p.eof_notMem_kinds (hkinds ▸ heof ▸ List.mem_map_of_mem hu)
    obtain ⟨q, hq, -⟩ := program_respelled p hp ts hkinds
    obtain ⟨s', last, hread', hend⟩ := exists_reads (by simp [ts]) hlive
    have hgives := Parser.program_gives hq hread' hend
    obtain ⟨next', hfront, hrest⟩ := reads_append.1 hread'
    obtain ⟨s₁, hstep, -⟩ := reads_cons.1 hrest
    rw [htwin s' next' hfront hstep.current] at hgives
    exact Reply.fail_gives hgives

theorem parse_eq_error {text : String} {s : TokenStream} {e : ParseError}
    (hs : TokenStream.ofText text = .ok s) (h : parseProgram text = .error e) :
    ∃ next, Parser.program s = .fail e next ∧ s.parse = (.error e, next) := by
  unfold parseProgram at h
  rw [hs] at h
  dsimp only at h
  unfold TokenStream.parse at h ⊢
  cases hr : Parser.program s with
  | ok p next shorter =>
    rw [hr] at h
    cases h
  | fail error next =>
    rw [hr] at h
    cases h
    exact ⟨next, rfl, rfl⟩

/-- Parsing ends with the parser at the token `t`, the first one with which no program goes on. -/
structure StopsAt (text : String) (e : ParseError) (front : List Token) (t : Token) : Prop where
  inText : ∃ back, readable text = front ++ t :: back
  viable : Viable (front.map Token.kind)
  stuck : ¬ Viable ((front ++ [t]).map Token.kind)
  current : ∃ s next, TokenStream.ofText text = .ok s ∧ s.parse = (.error e, next) ∧
    next.current = t
  reported : ∃ fault a, e = .grammar fault a ∧
    Parser.Reported Parser.ProgramFault front t fault a

theorem parseProgram_error_cases {text : String} {e : ParseError}
    (h : parseProgram text = .error e) :
    (∃ x, e = .lexical x ∧ tokenize text = .error x ∧
      Viable ((readable text).map Token.kind)) ∨ ∃ front t, StopsAt text e front t := by
  cases hs : TokenStream.ofText text with
  | error x =>
    obtain ⟨rest, hrest⟩ := lexemes_of_ofText_error hs
    have hnothing : readable text = [] := by rw [readable, hrest, tokensOf]
    simp only [parseProgram, hs] at h
    cases h
    exact .inl ⟨x, rfl, tokenize_eq_error [] hrest, hnothing ▸ viable_nil⟩
  | ok s =>
    obtain ⟨next, hfail, hparse⟩ := parse_eq_error hs h
    cases Parser.program_predictive.outcome s (Nat.lt_succ_self s.size) with
    | @gives ts p last hread _ htwin =>
      have hgives := htwin s last hread rfl
      rw [hfail] at hgives
      exact absurd hgives Reply.fail_gives
    | @rejects front fault a last hread hreported hfront htwin =>
      have hrejects := htwin s last hread rfl
      rw [hfail] at hrejects
      cases hrejects
      obtain ⟨back, hback⟩ := readable_of_reads hs hread
      refine .inr ⟨front, next.current, ⟨back, hback⟩, viable_of_completable hback hfront,
        not_viable_of_rejects hread htwin, ⟨s, next, hs, hparse, rfl⟩, fault, a, rfl, hreported⟩
    | @breaks front t x rest textEnd hread _ hfront heq =>
      rw [hfail] at heq
      cases heq
      obtain ⟨hreadable, htokens⟩ := readable_of_unreadable hs hread
      refine .inl ⟨x, rfl, htokens, ?_⟩
      rw [hreadable]
      exact viable_of_completable (hreadable.trans (List.append_nil _).symm) hfront

/-- Parsing fails at the first possible place. Text that is no token is reported if some program
starts with all the tokens in front of it; otherwise the parser stops at the first token that no
program has behind the tokens before, and reports this token or, behind the name of a field, the
first token of the field. -/
theorem parseProgram_error_at_first {text : String} {e : ParseError}
    (h : parseProgram text = .error e) :
    (∀ x, tokenize text = .error x → Viable ((readable text).map Token.kind) → e = .lexical x) ∧
    ((∀ x, tokenize text = .error x → ¬ Viable ((readable text).map Token.kind)) →
      ∃ front t, StopsAt text e front t) := by
  rcases parseProgram_error_cases h with ⟨x, rfl, htokens, hviable⟩ | ⟨front, t, hstops⟩
  · refine ⟨?_, fun hnone => absurd hviable (hnone x htokens)⟩
    intro y hy _
    rw [htokens] at hy
    cases hy
    rfl
  · refine ⟨?_, fun _ => ⟨front, t, hstops⟩⟩
    intro x _ hall
    obtain ⟨back, hback⟩ := hstops.inText
    refine absurd (hall.shorten ?_) hstops.stuck
    rw [hback]
    exact ⟨back.map Token.kind, by simp⟩

theorem parseProgram_error_at_first_void :
    (parseProgram "class P\x7bint a;void x;\x7d" = .error (.grammar (.voidField "x") ⟨14, 18, 1⟩) ∧
      ∃ front t, StopsAt "class P\x7bint a;void x;\x7d" (.grammar (.voidField "x") ⟨14, 18, 1⟩)
        front t) ∧
    ∃ e, parseProgram "class P#" = .error e ∧
      Viable ((readable "class P#").map Token.kind) ∧ e = .lexical ⟨"#", ⟨7, 8, 1⟩⟩ := by
  refine ⟨?_, ?_⟩
  · have h : parseProgram "class P\x7bint a;void x;\x7d" =
        .error (.grammar (.voidField "x") ⟨14, 18, 1⟩) := by
      cbv
    have hok : (tokenize "class P\x7bint a;void x;\x7d").isOk = true := by cbv
    refine ⟨h, (parseProgram_error_at_first h).2 ?_⟩
    intro x hx
    rw [hx] at hok
    cases hok
  · have h : parseProgram "class P#" = .error (.lexical ⟨"#", ⟨7, 8, 1⟩⟩) := by cbv
    have htokens : tokenize "class P#" = .error ⟨"#", ⟨7, 8, 1⟩⟩ := by cbv
    have hkinds : (readable "class P#").map Token.kind =
        [.keyword .classDecl, .identifier "P"] := by
      cbv
    have hviable : Viable ((readable "class P#").map Token.kind) := by
      rw [hkinds]
      exact ⟨_, canonical_empty "P", [.punct .lbrace, .punct .rbrace, .eof], rfl⟩
    exact ⟨_, h, hviable, (parseProgram_error_at_first h).1 _ htokens hviable⟩

end Decaf
