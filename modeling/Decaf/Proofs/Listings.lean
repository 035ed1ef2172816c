import Decaf.Check
import Decaf.Proofs.FirstError

namespace Decaf

def lexemeError? : Lexeme → Option LexicalError
  | .ok _ => none
  | .error e => some e

/-- The pieces of a text that are no tokens, in the order of the text. -/
def unreadable (text : String) : List LexicalError :=
  (Lexer.ofText text).lexemes.filterMap lexemeError?

theorem filterMap_lexemeError?_tokens (ts : List Token) :
    (ts.map Except.ok : List Lexeme).filterMap lexemeError? = [] := by
  rw [List.filterMap_map]
  exact List.filterMap_eq_nil_iff.2 fun _ _ => rfl

theorem lexemes_cases (xs : List Lexeme) :
    (∃ ts : List Token, xs = ts.map .ok) ∨
      ∃ (ts : List Token) (e : LexicalError) (rest : List Lexeme),
        xs = ts.map .ok ++ .error e :: rest := by
  induction xs with
  | nil => exact .inl ⟨[], rfl⟩
  | cons x xs ih =>
    cases x with
    | error e => exact .inr ⟨[], e, xs, rfl⟩
    | ok t =>
      rcases ih with ⟨ts, rfl⟩ | ⟨ts, e, rest, rfl⟩
      · exact .inl ⟨t :: ts, rfl⟩
      · exact .inr ⟨t :: ts, e, rest, rfl⟩

/-- All tokens of a text can be read unless some piece of it is none, and then the first such piece
is the error. -/
theorem tokenize_cases (text : String) :
    ((∃ ts, tokenize text = .ok ts) ∧ (unreadable text).head? = none) ∨
      ∃ e, tokenize text = .error e ∧ (unreadable text).head? = some e := by
  rw [unreadable]
  rcases lexemes_cases (Lexer.ofText text).lexemes with ⟨ts, hts⟩ | ⟨ts, e, rest, hts⟩
  · refine .inl ⟨⟨_, tokenize_eq_ok_iff.2 ⟨ts, hts, rfl⟩⟩, ?_⟩
    rw [hts, filterMap_lexemeError?_tokens]
    rfl
  · refine .inr ⟨e, tokenize_eq_error ts hts, ?_⟩
    rw [hts, List.filterMap_append, filterMap_lexemeError?_tokens]
    rfl

/-- What a check comes to if no tokens are listed. -/
def verdict (rules : RuleSet) (text : String) : Except Failure (List Diagnostic) :=
  ((parseProgram text).mapError Failure.ofParseError).map (analyze rules)

section Verdict

variable {rules : RuleSet} {text message : String} {span : Span} {ds : List Diagnostic}

theorem verdict_eq_ok (h : verdict rules text = .ok ds) :
    ∃ p, parseProgram text = .ok p ∧ analyze rules p = ds := by
  unfold verdict at h
  cases hp : parseProgram text with
  | error e =>
    rw [hp] at h
    cases h
  | ok p =>
    rw [hp] at h
    exact ⟨p, rfl, Except.ok.inj h⟩

theorem verdict_eq_lexer (h : verdict rules text = .error (.lexer message span)) :
    ∃ x : LexicalError, parseProgram text = .error (.lexical x) ∧ x.message = message ∧
      x.span = span := by
  unfold verdict at h
  cases hp : parseProgram text with
  | ok p =>
    rw [hp] at h
    cases h
  | error e =>
    rw [hp] at h
    cases e with
    | grammar fault a => cases h
    | lexical x =>
      cases h
      exact ⟨x, rfl, rfl, rfl⟩

theorem tokenize_of_verdict_ok (h : verdict rules text = .ok ds) :
    ∃ ts, tokenize text = .ok ts := by
  obtain ⟨p, hp, -⟩ := verdict_eq_ok h
  obtain ⟨ts, hts, -⟩ := parseProgram_eq_ok_iff_spelled.1 hp
  exact ⟨_, tokenize_eq_ok_iff.2 ⟨ts, hts, rfl⟩⟩

/-- The unreadable text that parsing meets is the first one of the text. -/
theorem tokenize_of_verdict_lexer (h : verdict rules text = .error (.lexer message span)) :
    ∃ x : LexicalError, tokenize text = .error x ∧ x.message = message ∧ x.span = span := by
  obtain ⟨x, hx, hmessage, hspan⟩ := verdict_eq_lexer h
  rcases parseProgram_error_cases hx with ⟨y, hy, htokens, -⟩ | ⟨front, t, hstops⟩
  · cases hy
    exact ⟨x, htokens, hmessage, hspan⟩
  · obtain ⟨fault, a, hfault, -⟩ := hstops.reported
    cases hfault

end Verdict

theorem check_result_plain (rules : RuleSet) (tree : Bool) (file : SourceFile) :
    (check ⟨rules, false, tree⟩ file).result = verdict rules file.text := by
  have hnotices : Check.tokenNotices ⟨rules, false, tree⟩ file.text = .ok [] := rfl
  rw [check, hnotices, verdict]
  cases parseProgram file.text <;> rfl

theorem check_result_listed (rules : RuleSet) (tree : Bool) (file : SourceFile) :
    (check ⟨rules, true, tree⟩ file).result =
      match tokenize file.text with
      | .ok _ => verdict rules file.text
      | .error e => .error (.lexer e.message e.span) := by
  have hnotices : Check.tokenNotices ⟨rules, true, tree⟩ file.text =
      (dumpTokens file.text).map fun listing =>
        [.shown ("=== Decaf Tokens ===\n" ++ listing ++ "=== End Tokens ===\n\n")] := rfl
  rw [check, hnotices, dumpTokens, verdict]
  cases tokenize file.text with
  | error e => rfl
  | ok ts => cases parseProgram file.text <;> rfl

theorem check_result_eq_ok_iff (rules : RuleSet) (tokens tree : Bool) (file : SourceFile)
    (ds : List Diagnostic) :
    (check ⟨rules, tokens, tree⟩ file).result = .ok ds ↔ verdict rules file.text = .ok ds := by
  cases tokens with
  | false => rw [check_result_plain]
  | true =>
    rw [check_result_listed]
    constructor
    · intro h
      cases htokens : tokenize file.text with
      | error e =>
        rw [htokens] at h
        cases h
      | ok ts =>
        rw [htokens] at h
        exact h
    · intro h
      obtain ⟨ts, hts⟩ := tokenize_of_verdict_ok h
      rw [hts]
      exact h

/-- Whatever is listed, a check accepts the same texts with the same diagnostics, and unreadable
text that stops the parser is reported as it is without listings. Where the parser stops at a
token, a listing of the tokens puts the first unreadable text in its place, if there is any. -/
theorem listings_keep_verdict (rules : RuleSet) (tokens tree : Bool) (file : SourceFile) :
    (∀ ds, (check ⟨rules, tokens, tree⟩ file).result = .ok ds ↔
      (check ⟨rules, false, false⟩ file).result = .ok ds) ∧
    (∀ message span, (check ⟨rules, false, false⟩ file).result = .error (.lexer message span) →
      (check ⟨rules, tokens, tree⟩ file).result = .error (.lexer message span)) ∧
    ∀ message span, (check ⟨rules, false, false⟩ file).result = .error (.parser message span) →
      (check ⟨rules, false, tree⟩ file).result = .error (.parser message span) ∧
      (check ⟨rules, true, tree⟩ file).result = .error
        (match (unreadable file.text).head? with
          | none => .parser message span
          | some e => .lexer e.message e.span) := by
  simp only [check_result_eq_ok_iff, check_result_plain, implies_true, true_and]
  constructor
  · intro message span h
    cases tokens with
    | false => rw [check_result_plain, h]
    | true =>
      obtain ⟨x, hx, rfl, rfl⟩ := tokenize_of_verdict_lexer h
      rw [check_result_listed, hx]
  · intro message span h
    refine ⟨h, ?_⟩
    rw [check_result_listed]
    rcases tokenize_cases file.text with ⟨⟨ts, hts⟩, hnone⟩ | ⟨e, he, hsome⟩
    · rw [hts, hnone]
      exact h
    · rw [he, hsome]

example :
    (check ⟨.standard, false, true⟩ ⟨"a", "class 1 #"⟩).result =
      .error (.parser "expected identifier, found integer '1'" ⟨6, 7, 1⟩) ∧
    (check ⟨.standard, true, false⟩ ⟨"a", "class 1 #"⟩).result =
      .error (.lexer "unexpected character '#'" ⟨8, 9, 1⟩) := by
  have hparse : parseProgram "class 1 #" =
      .error (.grammar (.unexpected .identifier (.intLiteral "1")) ⟨6, 7, 1⟩) := by
    cbv
  have htokens : tokenize "class 1 #" = .error ⟨"#", ⟨8, 9, 1⟩⟩ := by cbv
  rw [check_result_plain, check_result_listed, verdict, hparse, htokens]
  exact ⟨rfl, rfl⟩

end Decaf
