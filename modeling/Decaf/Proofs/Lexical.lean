import Decaf.Token.Lexer
import Mathlib.Computability.Language

namespace Decaf.Lexical

open scoped Computability

def one (p : Char → Prop) : Language Char := {w | ∃ c, p c ∧ w = [c]}

def only (word : List Char) : Language Char := {w | w = word}

def oneOrMore (l : Language Char) : Language Char := l * l∗

def digit (c : Char) : Prop := '0' ≤ c ∧ c ≤ '9'

def hexDigit (c : Char) : Prop := digit c ∨ ('a' ≤ c ∧ c ≤ 'f') ∨ ('A' ≤ c ∧ c ≤ 'F')

def letter (c : Char) : Prop := ('a' ≤ c ∧ c ≤ 'z') ∨ ('A' ≤ c ∧ c ≤ 'Z') ∨ c = '_'

def escape : Language Char := only ['\\'] * one (· ∈ ['n', 't', '\'', '"', '\\'])

def charItem : Language Char := one (· ∉ ['\'', '\\', '\n', '"']) + escape

def stringItem : Language Char := one (· ∉ ['"', '\\', '\n']) + escape

/-- Blanks and comments; the line feed behind a comment is a blank. -/
def trivia : Language Char :=
  (one (· ∈ [' ', '\t', '\n', '\r', '\x0c']) + only ['/', '/'] * (one (· ≠ '\n'))∗)∗

inductive TokenPattern where
  | keyword (word : Keyword)
  | punct (mark : Punct)
  | identifier
  | hexLiteral
  | intLiteral
  | charLiteral
  | stringLiteral

namespace TokenPattern

def language : TokenPattern → Language Char
  | .keyword word => only word.text.toList
  | .punct mark => only mark.text.toList
  | .identifier => one letter * (one fun c => letter c ∨ digit c)∗
  | .hexLiteral => only ['0', 'x'] * oneOrMore (one hexDigit)
  | .intLiteral => oneOrMore (one digit)
  | .charLiteral => only ['\''] * charItem * only ['\'']
  | .stringLiteral => only ['"'] * stringItem∗ * only ['"']

/-- The token a match stands for. -/
def kind : TokenPattern → List Char → TokenKind
  | .keyword word, _ => .keyword word
  | .punct mark, _ => .punct mark
  | .identifier, w => .identifier (String.ofList w)
  | .hexLiteral, w => .hexLiteral (String.ofList w)
  | .intLiteral, w => .intLiteral (String.ofList w)
  | .charLiteral, w => .charLiteral (String.ofList w)
  | .stringLiteral, w => .stringLiteral (String.ofList w)

end TokenPattern

/-- The longest word of a language at the front of a text. -/
structure Longest (l : Language Char) (text w : List Char) : Prop where
  mem : w ∈ l
  isPrefix : w <+: text
  max : ∀ v ∈ l, v <+: text → v.length ≤ w.length

structure Matches (text : List Char) (pattern : TokenPattern) (w : List Char) : Prop where
  mem : w ∈ pattern.language
  isPrefix : w <+: text

/-- The longest match over all patterns, where a keyword is no identifier. -/
inductive IsToken (text : List Char) : TokenKind → List Char → Prop
  | mk {pattern w} : Matches text pattern w →
      (∀ other v, Matches text other v → v.length ≤ w.length) →
      (pattern = .identifier → ∀ word : Keyword, w ≠ word.text.toList) →
      IsToken text (pattern.kind w) w

/-- What is dropped where no pattern matches. -/
inductive IsInvalid : List Char → List Char → Prop
  | string {cs body} : Longest stringItem∗ cs body → IsInvalid ('"' :: cs) ('"' :: body)
  | char {c cs} : c ≠ '"' → IsInvalid (c :: cs) [c]

/-- The place behind some characters that have been taken. -/
def behind (l : Lexer) (taken rest : List Char) : Lexer :=
  ⟨l.lines, l.offset + byteLength taken, rest⟩

/-- One reading step. -/
inductive Lexed (l : Lexer) : Lexeme → Lexer → Prop
  | eof {stop} : Longest trivia l.rest l.rest → stop = behind l l.rest [] →
      Lexed l (.ok ⟨.eof, stop.spanTo stop⟩) stop
  | token {skipped w rest kind start stop} : l.rest = skipped ++ (w ++ rest) →
      Longest trivia l.rest skipped → IsToken (w ++ rest) kind w →
      start = behind l skipped (w ++ rest) → stop = behind start w rest →
      Lexed l (.ok ⟨kind, start.spanTo stop⟩) stop
  | invalid {skipped w rest start stop} : l.rest = skipped ++ (w ++ rest) →
      Longest trivia l.rest skipped → (∀ pattern v, ¬ Matches (w ++ rest) pattern v) →
      IsInvalid (w ++ rest) w →
      start = behind l skipped (w ++ rest) → stop = behind start w rest →
      Lexed l (.error ⟨String.ofList w, start.spanTo stop⟩) stop

section Classes

variable {c : Char}

theorem isDigit_iff : c.isDigit = true ↔ digit c := by
  simp [Char.isDigit, digit, Char.le_def]

theorem isUpper_iff : c.isUpper = true ↔ 'A' ≤ c ∧ c ≤ 'Z' := by
  change decide (c.val ≥ 'A'.val ∧ c.val ≤ 'Z'.val) = true ↔ _
  exact decide_eq_true_iff

theorem isLower_iff : c.isLower = true ↔ 'a' ≤ c ∧ c ≤ 'z' := by
  change (decide (c.val ≥ 'a'.val) && decide (c.val ≤ 'z'.val)) = true ↔ _
  rw [Bool.and_eq_true, decide_eq_true_iff, decide_eq_true_iff]
  exact Iff.rfl

theorem isIdentStart_iff : isIdentStart c = true ↔ letter c := by
  change (c.isUpper || c.isLower || decide (c = '_')) = true ↔ _
  simp only [Bool.or_eq_true, decide_eq_true_eq, isUpper_iff, isLower_iff, letter]
  tauto

theorem isIdentPart_iff : isIdentPart c = true ↔ letter c ∨ digit c := by
  simp only [isIdentPart, Char.isAlphanum, Bool.or_eq_true, decide_eq_true_eq, ← isIdentStart_iff,
    ← isDigit_iff, isIdentStart]
  tauto

theorem isHexDigit_iff : isHexDigit c = true ↔ hexDigit c := by
  simp [isHexDigit, hexDigit, ← isDigit_iff, or_assoc]

theorem isBlank_iff : isBlank c = true ↔ c ∈ [' ', '\t', '\n', '\r', '\x0c'] := by
  simp [isBlank, or_assoc]

theorem isEscape_iff : isEscape c = true ↔ c ∈ ['n', 't', '\'', '"', '\\'] := by
  simp [isEscape, or_assoc]

theorem isCharBody_iff : isCharBody c = true ↔ c ∉ ['\'', '\\', '\n', '"'] := by
  simp [isCharBody, and_assoc]

theorem isStringBody_iff : isStringBody c = true ↔ c ∉ ['"', '\\', '\n'] := by
  simp [isStringBody, and_assoc]

end Classes

section Languages

variable {p : Char → Prop} {l : Language Char} {w x y word : List Char}

@[simp] theorem mem_one : w ∈ one p ↔ ∃ c, p c ∧ w = [c] := Iff.rfl

@[simp] theorem mem_only : w ∈ only word ↔ w = word := Iff.rfl

theorem append_mem_kstar (hx : x ∈ l) (hy : y ∈ l∗) : x ++ y ∈ l∗ := by
  obtain ⟨ws, rfl, hws⟩ := Language.mem_kstar.1 hy
  exact Language.mem_kstar.2 ⟨x :: ws, rfl, List.forall_mem_cons.2 ⟨hx, hws⟩⟩

theorem kstar_induction {motive : List Char → Prop} (nil : motive [])
    (append : ∀ x ∈ l, ∀ y ∈ l∗, motive y → motive (x ++ y)) (h : w ∈ l∗) : motive w := by
  obtain ⟨ws, rfl, hws⟩ := Language.mem_kstar.1 h
  induction ws with
  | nil => exact nil
  | cons x ws ih =>
    obtain ⟨hx, hws⟩ := List.forall_mem_cons.1 hws
    have hrest : ws.flatten ∈ l∗ := Language.mem_kstar.2 ⟨ws, rfl, hws⟩
    exact append x hx _ hrest (ih hws hrest)

theorem mem_kstar_one : w ∈ (one p)∗ ↔ ∀ c ∈ w, p c := by
  constructor
  · intro h
    refine kstar_induction (motive := fun w => ∀ c ∈ w, p c) (by simp) ?_ h
    rintro _ ⟨c, hc, rfl⟩ y _ hy
    exact List.forall_mem_cons.2 ⟨hc, hy⟩
  · intro h
    induction w with
    | nil => exact Language.nil_mem_kstar _
    | cons c w ih =>
      obtain ⟨hc, hw⟩ := List.forall_mem_cons.1 h
      exact append_mem_kstar (x := [c]) ⟨c, hc, rfl⟩ (ih hw)

theorem mem_oneOrMore_one : w ∈ oneOrMore (one p) ↔ w ≠ [] ∧ ∀ c ∈ w, p c := by
  unfold oneOrMore
  simp only [Language.mem_mul, mem_kstar_one, mem_one]
  constructor
  · rintro ⟨_, ⟨c, hc, rfl⟩, v, hv, rfl⟩
    exact ⟨List.cons_ne_nil c v, List.forall_mem_cons.2 ⟨hc, hv⟩⟩
  · rintro ⟨hne, h⟩
    cases w with
    | nil => exact absurd rfl hne
    | cons c w =>
      obtain ⟨hc, hw⟩ := List.forall_mem_cons.1 h
      exact ⟨[c], ⟨c, hc, rfl⟩, w, hw, rfl⟩

theorem mem_escape : w ∈ escape ↔ ∃ e, isEscape e = true ∧ w = ['\\', e] := by
  simp only [escape, Language.mem_mul, mem_only, mem_one, isEscape_iff]
  constructor
  · rintro ⟨_, rfl, _, ⟨e, he, rfl⟩, rfl⟩
    exact ⟨e, he, rfl⟩
  · rintro ⟨e, he, rfl⟩
    exact ⟨_, rfl, _, ⟨e, he, rfl⟩, rfl⟩

theorem mem_stringItem : w ∈ stringItem ↔
    (∃ c, isStringBody c = true ∧ w = [c]) ∨ ∃ e, isEscape e = true ∧ w = ['\\', e] := by
  simp only [stringItem, Language.mem_add, mem_one, mem_escape, isStringBody_iff]

end Languages

namespace TokenPattern

variable {w : List Char}

theorem mem_identifier : w ∈ identifier.language ↔
    ∃ c cs, w = c :: cs ∧ isIdentStart c = true ∧ ∀ d ∈ cs, isIdentPart d = true := by
  simp only [language, Language.mem_mul, mem_kstar_one, mem_one, isIdentStart_iff,
    isIdentPart_iff]
  constructor
  · rintro ⟨_, ⟨c, hc, rfl⟩, cs, hcs, rfl⟩
    exact ⟨c, cs, rfl, hc, hcs⟩
  · rintro ⟨c, cs, rfl, hc, hcs⟩
    exact ⟨_, ⟨c, hc, rfl⟩, cs, hcs, rfl⟩

theorem mem_hexLiteral : w ∈ hexLiteral.language ↔
    ∃ hs, w = '0' :: 'x' :: hs ∧ hs ≠ [] ∧ ∀ h ∈ hs, isHexDigit h = true := by
  simp only [language, Language.mem_mul, mem_only, mem_oneOrMore_one, isHexDigit_iff]
  constructor
  · rintro ⟨_, rfl, hs, hhs, rfl⟩
    exact ⟨hs, rfl, hhs⟩
  · rintro ⟨hs, rfl, hhs⟩
    exact ⟨_, rfl, hs, hhs, rfl⟩

theorem mem_intLiteral : w ∈ intLiteral.language ↔
    ∃ c cs, w = c :: cs ∧ c.isDigit = true ∧ ∀ d ∈ cs, d.isDigit = true := by
  simp only [language, mem_oneOrMore_one, isDigit_iff]
  cases w with
  | nil => simp
  | cons c cs => simp

theorem mem_charLiteral : w ∈ charLiteral.language ↔
    (∃ c, isCharBody c = true ∧ w = ['\'', c, '\'']) ∨
      ∃ e, isEscape e = true ∧ w = ['\'', '\\', e, '\''] := by
  simp only [language, charItem, Language.mem_mul, Language.mem_add, mem_only, mem_one, mem_escape,
    isCharBody_iff]
  constructor
  · rintro ⟨_, ⟨_, rfl, x, ⟨c, hc, rfl⟩ | ⟨e, he, rfl⟩, rfl⟩, _, rfl, rfl⟩
    · exact .inl ⟨c, hc, rfl⟩
    · exact .inr ⟨e, he, rfl⟩
  · rintro (⟨c, hc, rfl⟩ | ⟨e, he, rfl⟩)
    · exact ⟨_, ⟨_, rfl, _, .inl ⟨c, hc, rfl⟩, rfl⟩, _, rfl, rfl⟩
    · exact ⟨_, ⟨_, rfl, _, .inr ⟨e, he, rfl⟩, rfl⟩, _, rfl, rfl⟩

theorem mem_stringLiteral : w ∈ stringLiteral.language ↔
    ∃ body ∈ stringItem∗, w = '"' :: (body ++ ['"']) := by
  simp only [language, Language.mem_mul, mem_only]
  constructor
  · rintro ⟨_, ⟨_, rfl, body, hbody, rfl⟩, _, rfl, rfl⟩
    exact ⟨body, hbody, rfl⟩
  · rintro ⟨body, hbody, rfl⟩
    exact ⟨_, ⟨_, rfl, body, hbody, rfl⟩, _, rfl, rfl⟩

end TokenPattern

end Decaf.Lexical
