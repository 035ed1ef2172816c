import Decaf.Proofs.Scanning

namespace Decaf.Lexical

theorem punct_eq_of_text {mark mark' : Punct} (h : mark.text.toList = mark'.text.toList) :
    mark = mark' := by
  obtain ⟨c, hc, hmark⟩ | ⟨c, d, hc, hmark⟩ := punct_cases mark
  · obtain ⟨c', hc', hmark'⟩ | ⟨c', d', hc', -⟩ := punct_cases mark'
    · rw [hc, hc'] at h
      cases h
      exact Option.some.inj (hmark.symm.trans hmark')
    · rw [hc, hc'] at h
      cases h
  · obtain ⟨c', hc', -⟩ | ⟨c', d', hc', hmark'⟩ := punct_cases mark'
    · rw [hc, hc'] at h
      cases h
    · rw [hc, hc'] at h
      cases h
      exact Option.some.inj (hmark.symm.trans hmark')

theorem keyword_eq_of_text {word word' : Keyword} (h : word.text.toList = word'.text.toList) :
    word = word' := by
  have hword := ofText?_eq_some_iff.2 (String.toList_inj.1 h)
  rw [ofText?_eq_some_iff.2 rfl] at hword
  exact (Option.some.inj hword).symm

theorem not_intLiteral_of_hexLiteral {w : List Char} (h : w ∈ TokenPattern.hexLiteral.language) :
    w ∉ TokenPattern.intLiteral.language := by
  intro hint
  obtain ⟨hs, rfl, -, -⟩ := TokenPattern.mem_hexLiteral.1 h
  obtain ⟨c, cs, hw, -, hcs⟩ := TokenPattern.mem_intLiteral.1 hint
  cases hw
  exact absurd (hcs 'x' (.head hs)) (by decide)

/-- Apart from keywords, which are also identifiers, no two patterns have a match in common. -/
theorem kind_unique {w : List Char} {pattern other : TokenPattern} (h : w ∈ pattern.language)
    (h' : w ∈ other.language)
    (hword : pattern = .identifier → ∀ word : Keyword, w ≠ word.text.toList)
    (hword' : other = .identifier → ∀ word : Keyword, w ≠ word.text.toList) :
    pattern.kind w = other.kind w := by
  have hfamily : other.family = pattern.family := by
    obtain ⟨c, cs, rfl, hc⟩ := TokenPattern.mem_eq_cons h
    obtain ⟨c', cs', hw, hc'⟩ := TokenPattern.mem_eq_cons h'
    cases hw
    exact hc'.symm.trans hc
  cases pattern with
  | keyword word =>
    cases other with
    | keyword word' => exact congrArg TokenKind.keyword (keyword_eq_of_text (h.symm.trans h'))
    | identifier => exact absurd h (hword' rfl word)
    | _ => cases hfamily
  | punct mark =>
    cases other with
    | punct mark' => exact congrArg TokenKind.punct (punct_eq_of_text (h.symm.trans h'))
    | _ => cases hfamily
  | identifier =>
    cases other with
    | keyword word' => exact absurd h' (hword rfl word')
    | identifier => rfl
    | _ => cases hfamily
  | hexLiteral =>
    cases other with
    | hexLiteral => rfl
    | intLiteral => exact absurd h' (not_intLiteral_of_hexLiteral h)
    | _ => cases hfamily
  | intLiteral =>
    cases other with
    | hexLiteral => exact absurd h (not_intLiteral_of_hexLiteral h')
    | intLiteral => rfl
    | _ => cases hfamily
  | charLiteral =>
    cases other with
    | charLiteral => rfl
    | _ => cases hfamily
  | stringLiteral =>
    cases other with
    | stringLiteral => rfl
    | _ => cases hfamily

theorem IsToken.unique {text v w : List Char} {kind kind' : TokenKind} (h : IsToken text kind v)
    (h' : IsToken text kind' w) : v = w ∧ kind = kind' := by
  obtain ⟨hmatch, hmax, hword⟩ := h
  obtain ⟨hmatch', hmax', hword'⟩ := h'
  obtain rfl := eq_of_isPrefix hmatch.isPrefix hmatch'.isPrefix
    (Nat.le_antisymm (hmax' _ v hmatch) (hmax _ w hmatch'))
  exact ⟨rfl, kind_unique hmatch.mem hmatch'.mem hword hword'⟩

theorem IsInvalid.unique {text v w : List Char} (h : IsInvalid text v) (h' : IsInvalid text w) :
    v = w := by
  cases h with
  | string hbody =>
    cases h' with
    | string hbody' => rw [hbody.unique hbody']
    | char hc => exact absurd rfl hc
  | char hc =>
    cases h' with
    | string _ => exact absurd rfl hc
    | char _ => rfl

theorem IsToken.ne_nil {text w : List Char} {kind : TokenKind} (h : IsToken text kind w) :
    w ≠ [] := by
  obtain ⟨hmatch, -, -⟩ := h
  obtain ⟨c, cs, rfl, -⟩ := TokenPattern.mem_eq_cons hmatch.mem
  exact List.cons_ne_nil c cs

theorem IsInvalid.ne_nil {text w : List Char} (h : IsInvalid text w) : w ≠ [] := by
  cases h <;> exact List.cons_ne_nil _ _

/-- Where blanks and comments end is determined, so what stands behind them is too. -/
theorem rest_unique {text skipped skipped' rest rest' : List Char}
    (h : text = skipped ++ rest) (hlongest : Longest trivia text skipped)
    (h' : text = skipped' ++ rest') (hlongest' : Longest trivia text skipped') :
    skipped = skipped' ∧ rest = rest' := by
  obtain rfl := hlongest.unique hlongest'
  exact ⟨rfl, List.append_cancel_left (h.symm.trans h')⟩

theorem eq_nil_of_trivia {text skipped w rest : List Char} (hall : Longest trivia text text)
    (h : text = skipped ++ (w ++ rest)) (hlongest : Longest trivia text skipped) : w = [] := by
  obtain ⟨-, hempty⟩ := rest_unique (List.append_nil text).symm hall h hlongest
  exact (List.append_eq_nil_iff.1 hempty.symm).1

theorem Lexed.unique {l next next' : Lexer} {x x' : Lexeme} (h : Lexed l x next)
    (h' : Lexed l x' next') : x = x' ∧ next = next' := by
  -- Of the mixed cases, one has a lexeme without characters and the other a match where there is
  -- none.
  cases h with
  | eof hall hstop =>
    cases h' with
    | eof _ hstop' =>
      subst hstop hstop'
      exact ⟨rfl, rfl⟩
    | token hrest hskipped htoken =>
      exact absurd (eq_nil_of_trivia hall hrest hskipped) htoken.ne_nil
    | invalid hrest hskipped _ hinvalid =>
      exact absurd (eq_nil_of_trivia hall hrest hskipped) hinvalid.ne_nil
  | token hrest hskipped htoken hstart hstop =>
    cases h' with
    | eof hall _ => exact absurd (eq_nil_of_trivia hall hrest hskipped) htoken.ne_nil
    | token hrest' hskipped' htoken' hstart' hstop' =>
      obtain ⟨rfl, heq⟩ := rest_unique hrest hskipped hrest' hskipped'
      rw [← heq] at htoken' hstart'
      obtain ⟨rfl, rfl⟩ := htoken.unique htoken'
      obtain rfl := List.append_cancel_left heq
      subst hstart hstart' hstop hstop'
      exact ⟨rfl, rfl⟩
    | invalid hrest' hskipped' hnone _ _ _ =>
      obtain ⟨-, heq⟩ := rest_unique hrest hskipped hrest' hskipped'
      rw [heq] at htoken
      obtain ⟨hmatch, -, -⟩ := htoken
      exact absurd hmatch (hnone _ _)
  | invalid hrest hskipped hnone hinvalid hstart hstop =>
    cases h' with
    | eof hall _ => exact absurd (eq_nil_of_trivia hall hrest hskipped) hinvalid.ne_nil
    | token hrest' hskipped' htoken' _ _ =>
      obtain ⟨-, heq⟩ := rest_unique hrest hskipped hrest' hskipped'
      rw [← heq] at htoken'
      obtain ⟨hmatch, -, -⟩ := htoken'
      exact absurd hmatch (hnone _ _)
    | invalid hrest' hskipped' _ hinvalid' hstart' hstop' =>
      obtain ⟨rfl, heq⟩ := rest_unique hrest hskipped hrest' hskipped'
      rw [← heq] at hinvalid' hstart'
      obtain rfl := hinvalid.unique hinvalid'
      obtain rfl := List.append_cancel_left heq
      subst hstart hstart' hstop hstop'
      exact ⟨rfl, rfl⟩

theorem next_lexed (l : Lexer) : Lexed l l.next.1 l.next.2 := by
  have hskipped := longest_trivia l.rest
  have hsplit := List.take_append_drop (triviaLength l.rest) l.rest
  generalize hs : l.rest.take (triviaLength l.rest) = skipped at hskipped hsplit
  unfold Lexer.next
  cases hrest : l.rest.drop (triviaLength l.rest) with
  | nil =>
    have hread : l.read? = none := by simp [Lexer.read?, Lexer.skip, hrest]
    rw [hrest, List.append_nil] at hsplit
    rw [hread]
    exact .eof (hsplit ▸ hskipped) rfl
  | cons c cs =>
    obtain ⟨start, hstart⟩ : ∃ start, start = behind l skipped (c :: cs) := ⟨_, rfl⟩
    have hskip : l.skip (triviaLength l.rest) = start := by
      rw [Lexer.skip, hrest, hs, hstart]
      rfl
    have hstop (more : Nat) : start.skip (more + 1) =
        behind start ((c :: cs).take (more + 1)) ((c :: cs).drop (more + 1)) := by
      rw [hstart]
      rfl
    have hchars : start.rest = c :: cs := by rw [hstart]; rfl
    have hcut (more : Nat) : (c :: cs).take (more + 1) ++ (c :: cs).drop (more + 1) = c :: cs :=
      List.take_append_drop _ _
    have hcorrect := scan_correct c cs
    rw [hrest] at hsplit
    cases hscan : scan c cs with
    | token kind more =>
      rw [hscan] at hcorrect
      have hread : l.read? = some
          (.ok ⟨kind, start.spanTo (start.skip (more + 1))⟩, start.skip (more + 1)) := by
        simp only [Lexer.read?, hskip, hchars, hscan]
      rw [hread]
      exact .token (w := (c :: cs).take (more + 1)) (by rw [hcut, hsplit]) hskipped
        (by rw [hcut]; exact hcorrect) (by rw [hcut, hstart]) (hstop more)
    | invalid more =>
      rw [hscan] at hcorrect
      have hread : l.read? = some
          (.error ⟨textOf c cs more, start.spanTo (start.skip (more + 1))⟩,
            start.skip (more + 1)) := by
        simp only [Lexer.read?, hskip, hchars, hscan]
      rw [hread]
      exact .invalid (w := (c :: cs).take (more + 1)) (by rw [hcut, hsplit]) hskipped
        (by rw [hcut]; exact hcorrect.1) (by rw [hcut]; exact hcorrect.2) (by rw [hcut, hstart])
        (hstop more)

/-- At every place of a text the lexer takes the step that the languages of the tokens
describe. -/
theorem next_eq_iff_lexed (l : Lexer) (x : Lexeme) (next : Lexer) :
    l.next = (x, next) ↔ Lexed l x next := by
  constructor
  · intro h
    have hlexed := next_lexed l
    rw [h] at hlexed
    exact hlexed
  · intro h
    obtain ⟨hx, hnext⟩ := (next_lexed l).unique h
    rw [← hx, ← hnext]

end Decaf.Lexical
