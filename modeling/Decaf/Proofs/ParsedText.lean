import Decaf.Proofs.ParserComplete
import Decaf.Proofs.Respelling
import Decaf.Proofs.Scanning
import Mathlib

namespace Decaf

open TokenStream Grammar

structure Scannable (kind : TokenKind) : Prop where
  live : kind ≠ .eof
  normal : normalKind kind = kind

theorem kind_scannable {pattern : Lexical.TokenPattern} {w : List Char}
    (h : w ∈ pattern.language) : Scannable (pattern.kind w) := by
  cases pattern with
  | hexLiteral =>
    obtain ⟨hs, rfl, -⟩ := Lexical.TokenPattern.mem_hexLiteral.1 h
    refine ⟨nofun, (normalKind_integer rfl).trans ?_⟩
    rw [integerKind, String.toList_ofList]
    exact if_pos rfl
  | intLiteral =>
    obtain ⟨c, cs, rfl, -, hcs⟩ := Lexical.TokenPattern.mem_intLiteral.1 h
    refine ⟨nofun, (normalKind_integer rfl).trans ?_⟩
    rw [integerKind, String.toList_ofList]
    refine if_neg fun hprefix => ?_
    -- The second character would be the letter of the mark, and not a digit.
    obtain ⟨rest, hrest⟩ := List.isPrefixOf_iff_prefix.1 hprefix
    cases hrest
    exact absurd (hcs 'x' (.head rest)) (by decide)
  | _ => exact ⟨nofun, rfl⟩

theorem scan_scannable {c : Char} {cs : List Char} {kind : TokenKind} {more : Nat}
    (h : scan c cs = .token kind more) : Scannable kind := by
  have hcorrect := Lexical.scan_correct c cs
  rw [h] at hcorrect
  obtain ⟨hmatch, -, -⟩ := hcorrect
  exact kind_scannable hmatch.mem

theorem Lexer.lexemes_scannable (l : Lexer) {t : Token} (h : .ok t ∈ l.lexemes) :
    Scannable t.kind := by
  fun_induction Lexer.lexemes l with
  | case1 => cases h
  | case2 l x next hread _ ih =>
    rcases List.mem_cons.1 h with hx | hrest
    · subst hx
      unfold Lexer.read? at hread
      dsimp only at hread
      split at hread
      · cases hread
      · split at hread
        · next hscan =>
          cases hread
          exact scan_scannable hscan
        · cases hread
    · exact ih hrest

theorem bind_eq_ok_iff {ε α β : Type} {x : Except ε α} {f : α → Except ε β} {b : β} :
    x >>= f = .ok b ↔ ∃ a, x = .ok a ∧ f a = .ok b := by
  cases x with
  | error e => simp [bind, Except.bind]
  | ok a => simp [bind, Except.bind]

theorem pure_eq_ok_iff {ε α : Type} {a b : α} : (pure a : Except ε α) = .ok b ↔ b = a := by
  simp [pure, Except.pure, eq_comm]

theorem mapM_id_eq_ok_iff {xs : List Lexeme} {ts : List Token} :
    (xs.mapM id : Except LexicalError (List Token)) = .ok ts ↔ xs = ts.map .ok := by
  induction xs generalizing ts with
  | nil =>
    rw [List.mapM_nil, pure_eq_ok_iff]
    exact ⟨fun h => h ▸ rfl, fun h => List.map_eq_nil_iff.1 h.symm⟩
  | cons x xs ih =>
    rw [List.mapM_cons]
    simp only [bind_eq_ok_iff, pure_eq_ok_iff, ih]
    constructor
    · rintro ⟨t, hx, us, rfl, rfl⟩
      rw [List.map_cons, ← hx]
      rfl
    · intro h
      obtain ⟨t, us, rfl, rfl, rfl⟩ := List.map_eq_cons_iff.1 h.symm
      exact ⟨t, rfl, us, rfl, rfl⟩

theorem tokenize_eq_ok_iff {text : String} {ts : List Token} :
    tokenize text = .ok ts ↔ ∃ us : List Token, (Lexer.ofText text).lexemes = us.map .ok ∧
      ts = us ++ [(Lexer.ofText text).eof] := by
  simp only [tokenize, bind_eq_ok_iff, pure_eq_ok_iff, mapM_id_eq_ok_iff]

theorem kinds_eq_ok_iff {text : String} {kinds : List TokenKind} :
    (tokenize text).map (List.map Token.kind) = .ok (kinds ++ [.eof]) ↔
      ∃ us : List Token, (Lexer.ofText text).lexemes = us.map .ok ∧ us.map Token.kind = kinds := by
  have hmap : (tokenize text).map (List.map Token.kind) = .ok (kinds ++ [.eof]) ↔
      ∃ ts, tokenize text = .ok ts ∧ ts.map Token.kind = kinds ++ [.eof] := by
    cases tokenize text <;> simp [Except.map]
  rw [hmap]
  simp only [tokenize_eq_ok_iff]
  constructor
  · rintro ⟨_, ⟨us, hus, rfl⟩, hkinds⟩
    rw [List.map_append] at hkinds
    exact ⟨us, hus, (List.append_inj' hkinds rfl).1⟩
  · rintro ⟨us, hus, rfl⟩
    exact ⟨_, ⟨us, hus, rfl⟩, by rw [List.map_append]; rfl⟩

theorem reads_all {t : Token} {ts : List Token} (textEnd : Span)
    (hlive : ∀ u ∈ t :: ts, u.kind ≠ .eof) :
    Reads ⟨t, ts.map .ok, textEnd⟩ (t :: ts) ⟨⟨.eof, textEnd⟩, [], textEnd⟩ := by
  induction ts generalizing t with
  | nil => exact .one (.last (hlive t (.head _)))
  | cons u ts ih =>
    exact .cons (.token (hlive t (.head _))) (ih fun v hv => hlive v (.tail t hv))

theorem all_of_reads {s next : TokenStream} {ts : List Token} (hread : Reads s ts next)
    (hend : next.kind = .eof)
    (hlive : ∀ u, .ok u ∈ .ok s.current :: s.rest → u.kind ≠ .eof) :
    .ok s.current :: s.rest = ts.map Except.ok := by
  induction hread with
  | nil s => exact absurd hend (hlive s.current (.head _))
  | @cons s s₁ next t ts hstep hrest ih =>
    cases hstep with
    | last _ =>
      cases hrest with
      | nil => rfl
      | cons hstep _ => exact absurd hstep.kind.symm hstep.live
    | token _ =>
      rw [List.map_cons, ← ih hend fun u hu => hlive u (.tail _ hu)]

theorem Lexer.exists_stream {text : String} {ts : List Token}
    (h : (Lexer.ofText text).lexemes = ts.map .ok) :
    ∃ s next, TokenStream.ofText text = .ok s ∧ Reads s ts next ∧ next.kind = .eof := by
  have hlive : ∀ u ∈ ts, u.kind ≠ .eof := fun u hu =>
    ((Lexer.ofText text).lexemes_scannable (h ▸ List.mem_map_of_mem hu)).live
  unfold TokenStream.ofText
  dsimp only
  rw [h]
  cases ts with
  | nil => exact ⟨_, _, rfl, .nil _, rfl⟩
  | cons t ts => exact ⟨_, _, rfl, reads_all _ hlive, rfl⟩

theorem Lexer.lexemes_of_reads {text : String} {s next : TokenStream} {ts : List Token}
    (hs : TokenStream.ofText text = .ok s) (hread : Reads s ts next) (hend : next.kind = .eof) :
    (Lexer.ofText text).lexemes = ts.map .ok := by
  have hlive : ∀ u, .ok u ∈ (Lexer.ofText text).lexemes → u.kind ≠ .eof := fun u hu =>
    ((Lexer.ofText text).lexemes_scannable hu).live
  unfold TokenStream.ofText at hs
  dsimp only at hs
  split at hs
  · next hnil =>
    cases hs
    cases hread with
    | nil => exact hnil
    | cons hstep _ => exact absurd hstep.kind.symm hstep.live
  · next first rest hcons =>
    cases hs
    rw [hcons] at hlive ⊢
    exact all_of_reads hread hend hlive
  · cases hs

theorem parseProgram_eq_ok {text : String} {p : Program} :
    parseProgram text = .ok p ↔
      ∃ s next, TokenStream.ofText text = .ok s ∧ (Parser.program s).Gives p next := by
  unfold parseProgram
  cases hs : TokenStream.ofText text with
  | error e => simp
  | ok s =>
    simp only [Except.ok.injEq, exists_and_left, exists_eq_left']
    unfold TokenStream.parse
    cases hr : Parser.program s with
    | fail e next => simp
    | ok q next shorter =>
      constructor
      · intro h
        cases h
        exact ⟨next, shorter, rfl⟩
      · rintro ⟨_, _, h⟩
        cases h
        rfl

/-- A text parses to a tree exactly if its tokens spell the tree. -/
theorem parseProgram_eq_ok_iff_spelled {text : String} {p : Program} :
    parseProgram text = .ok p ↔
      ∃ ts : List Token, (Lexer.ofText text).lexemes = ts.map .ok ∧ ProgramSpelled ts p := by
  rw [parseProgram_eq_ok]
  constructor
  · rintro ⟨s, next, hs, hgives⟩
    obtain ⟨ts, hread, hp, hend⟩ := Parser.program_spelled hgives
    exact ⟨ts, Lexer.lexemes_of_reads hs hread hend, hp⟩
  · rintro ⟨ts, hts, hp⟩
    obtain ⟨s, next, hs, hread, hend⟩ := Lexer.exists_stream hts
    exact ⟨s, next, hs, Parser.program_gives hp hread hend⟩

theorem map_kind_eq_normalKinds {text : String} {ts : List Token}
    (h : (Lexer.ofText text).lexemes = ts.map .ok) : ts.map Token.kind = normalKinds ts := by
  refine List.map_congr_left fun t ht => ?_
  exact ((Lexer.ofText text).lexemes_scannable (h ▸ List.mem_map_of_mem ht)).normal.symm

theorem written_of_spelled {text : String} {ts : List Token} {p : Program}
    (hts : (Lexer.ofText text).lexemes = ts.map .ok) (hp : ProgramSpelled ts p) :
    (tokenize text).map (List.map Token.kind) = .ok (p.kinds ++ [.eof]) ∧ p.Canonical := by
  obtain ⟨hkinds, hcanonical⟩ := program_written p ts hp
  exact ⟨kinds_eq_ok_iff.2 ⟨ts, hts, by rw [map_kind_eq_normalKinds hts, hkinds]⟩, hcanonical⟩

/-- The grammar is unambiguous: running the parser on the tokens decides between two trees. -/
theorem bare_eq_of_kinds_eq {p q : Program} (hp : p.Canonical) (hq : q.Canonical)
    (h : p.kinds = q.kinds) : p.bare = q.bare := by
  -- A stream of these tokens with empty spans need not come from a text.
  obtain ⟨kind, kinds, hcons⟩ : ∃ kind kinds, p.kinds = kind :: kinds := ⟨_, _, rfl⟩
  let ts : List Token := kinds.map fun kind => ⟨kind, .zero⟩
  have hkinds : (⟨kind, .zero⟩ :: ts : List Token).map Token.kind = p.kinds := by
    simp [ts, hcons, Function.comp_def]
  have hlive : ∀ u ∈ (⟨kind, .zero⟩ :: ts : List Token), u.kind ≠ .eof := by
    intro u hu heof
    exact p.eof_notMem_kinds (hkinds ▸ heof ▸ List.mem_map_of_mem hu)
  obtain ⟨p', hp', hbare⟩ := program_respelled p hp _ hkinds
  obtain ⟨q', hq', hbare'⟩ := program_respelled q hq _ (hkinds.trans h)
  have hread := reads_all .zero hlive
  obtain ⟨rfl, -⟩ := (Parser.program_gives hp' hread rfl).unique
    (Parser.program_gives hq' hread rfl)
  rw [← hbare, hbare']

/-- Parsing finds the canonical tree that a text is written with, up to spans, and finds nothing
where there is none; and no two canonical trees are written alike. -/
theorem parseProgram_undoes_writing (text : String) (p : Program) :
    ((∃ q, parseProgram text = .ok q ∧ q.bare = p.bare) ↔
      p.Canonical ∧ (tokenize text).map (List.map Token.kind) = .ok (p.kinds ++ [.eof])) ∧
    ∀ q : Program, p.Canonical → q.Canonical → p.kinds = q.kinds → p.bare = q.bare := by
  refine ⟨⟨?_, ?_⟩, fun q hp hq => bare_eq_of_kinds_eq hp hq⟩
  · rintro ⟨q, hq, hbare⟩
    obtain ⟨ts, hts, hspelled⟩ := parseProgram_eq_ok_iff_spelled.1 hq
    obtain ⟨hkinds, hcanonical⟩ := written_of_spelled hts hspelled
    refine ⟨p.canonical_bare.1 (hbare ▸ q.canonical_bare.2 hcanonical), ?_⟩
    rw [hkinds, ← q.kinds_bare, hbare, p.kinds_bare]
  · rintro ⟨hcanonical, hkinds⟩
    obtain ⟨ts, hts, hts'⟩ := kinds_eq_ok_iff.1 hkinds
    obtain ⟨q, hq, hbare⟩ := program_respelled p hcanonical ts hts'
    exact ⟨q, parseProgram_eq_ok_iff_spelled.2 ⟨ts, hts, hq⟩, hbare⟩

end Decaf
