import Decaf.Failure
import Decaf.LineIndex
import Decaf.Token.Scan

namespace Decaf

abbrev Lexeme := Except LexicalError Token

/-- A place in a text: the unread characters, the offset at which they start, and the lines of
the whole text. -/
structure Lexer where
  lines : LineIndex
  offset : Nat
  rest : List Char

namespace Lexer

def ofChars (text : List Char) : Lexer := ⟨.ofChars text, 0, text⟩

def ofText (text : String) : Lexer := ofChars text.toList

def skip (l : Lexer) (count : Nat) : Lexer where
  lines := l.lines
  offset := l.offset + byteLength (l.rest.take count)
  rest := l.rest.drop count

def atEnd (l : Lexer) : Lexer where
  lines := l.lines
  offset := l.offset + byteLength l.rest
  rest := []

def spanTo (l stop : Lexer) : Span := ⟨l.offset, stop.offset, l.lines.lineOf l.offset⟩

def eof (l : Lexer) : Token := ⟨.eof, l.atEnd.spanTo l.atEnd⟩

/-- The next token or unreadable text and the place behind it; `none` if only blanks and comments
are left. -/
def read? (l : Lexer) : Option (Lexeme × Lexer) :=
  let start := l.skip (triviaLength l.rest)
  match start.rest with
  | [] => none
  | c :: cs =>
    match scan c cs with
    | .token kind more =>
      let stop := start.skip (more + 1)
      some (.ok ⟨kind, start.spanTo stop⟩, stop)
    | .invalid more =>
      let stop := start.skip (more + 1)
      some (.error ⟨textOf c cs more, start.spanTo stop⟩, stop)

theorem read?_shorter {l next : Lexer} {x : Lexeme} (h : l.read? = some (x, next)) :
    next.rest.length < l.rest.length := by
  unfold read? at h
  dsimp only at h
  split at h
  · simp at h
  · next c cs hr =>
    have hlen : (l.skip (triviaLength l.rest)).rest.length ≤ l.rest.length := by
      simp [skip]
    rw [hr] at hlen
    split at h <;>
    · simp only [Option.some.injEq, Prod.mk.injEq] at h
      obtain ⟨-, rfl⟩ := h
      simp only [skip, List.length_drop, List.length_cons] at hr hlen ⊢
      have := congrArg List.length hr
      simp at this
      omega

def next (l : Lexer) : Lexeme × Lexer :=
  match l.read? with
  | some step => step
  | none => (.ok l.eof, l.atEnd)

def lexemes (l : Lexer) : List Lexeme :=
  match h : l.read? with
  | none => []
  | some (x, next) =>
    have := read?_shorter h
    x :: next.lexemes
termination_by l.rest.length

def steps (l : Lexer) : Nat → List Lexeme
  | 0 => []
  | count + 1 => l.next.1 :: l.next.2.steps count

/-- Every lexeme, and then the end of the text `extra` more times than the once that is due. -/
def transcript (l : Lexer) (extra : Nat) : List Lexeme :=
  l.lexemes ++ l.atEnd.steps (extra + 1)

end Lexer

def tokenize (text : String) : Except LexicalError (List Token) := do
  let l := Lexer.ofText text
  let tokens ← l.lexemes.mapM id
  return tokens ++ [l.eof]

end Decaf
