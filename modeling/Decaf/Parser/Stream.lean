import Decaf.Token.Lexer
import Decaf.Tree.Program

namespace Decaf

structure TokenStream where
  current : Token
  rest : List Lexeme
  textEnd : Span

namespace TokenStream

def ofText (text : String) : Except LexicalError TokenStream :=
  let l := Lexer.ofText text
  match l.lexemes with
  | [] => .ok ⟨l.eof, [], l.eof.span⟩
  | .ok first :: rest => .ok ⟨first, rest, l.eof.span⟩
  | .error e :: _ => .error e

def kind (s : TokenStream) : TokenKind := s.current.kind

def span (s : TokenStream) : Span := s.current.span

/-- What is left to read, the current token included unless it is the end of the text. -/
def size (s : TokenStream) : Nat := s.rest.length + if s.kind = .eof then 0 else 1

end TokenStream

/-- The outcome of a grammar rule. A success leaves less than `bound` to read; a failure leaves
the input where it was found. -/
inductive Reply (α : Type) (bound : Nat) where
  | ok (value : α) (next : TokenStream) (shorter : next.size < bound)
  | fail (error : ParseError) (next : TokenStream)

namespace Reply

variable {α β : Type} {n : Nat}

def done (value : α) (s : TokenStream) : Reply α (s.size + 1) := .ok value s (Nat.lt_succ_self _)

def andThen (r : Reply α n)
    (f : (value : α) → (s : TokenStream) → s.size < n → Reply β (s.size + 1)) : Reply β n :=
  match r with
  | .fail error next => .fail error next
  | .ok value next shorter =>
    match f value next shorter with
    | .fail error last => .fail error last
    | .ok result last le => .ok result last (Nat.lt_of_le_of_lt (Nat.le_of_lt_succ le) shorter)

/-- Goes on behind a success that may have read nothing. What follows reads something. -/
def andThenRead (r : Reply α (n + 1))
    (f : (value : α) → (s : TokenStream) → s.size < n + 1 → Reply β s.size) : Reply β n :=
  match r with
  | .fail error next => .fail error next
  | .ok value next le =>
    match f value next le with
    | .fail error last => .fail error last
    | .ok result last shorter =>
      .ok result last (Nat.lt_of_lt_of_le shorter (Nat.le_of_lt_succ le))

def map (f : α → β) : Reply α n → Reply β n
  | .ok value next shorter => .ok (f value) next shorter
  | .fail error next => .fail error next

def lax : Reply α n → Reply α (n + 1)
  | .ok value next shorter => .ok value next (Nat.lt_succ_of_lt shorter)
  | .fail error next => .fail error next

end Reply

namespace TokenStream

/-- Moves past the current token, which is not the end of the text, and gives its span. If the
text behind it is unreadable the token stays current and the unreadable text is dropped. -/
def advance (s : TokenStream) (live : s.kind ≠ .eof) : Reply Span s.size :=
  match h : s.rest with
  | [] =>
    .ok s.span { s with current := ⟨.eof, s.textEnd⟩ } (by
      have : s.size = 1 := by simp [size, h, live]
      rw [this]
      simp [size, kind, h])
  | .ok token :: rest =>
    .ok s.span { s with current := token, rest } (by
      have : s.size = rest.length + 1 + 1 := by simp [size, h, live]
      rw [this]
      simp only [size]
      split <;> omega)
  | .error e :: rest => .fail (.lexical e) { s with rest }

def reject {α : Type} {n : Nat} (s : TokenStream) (wanted : Expectation) : Reply α n :=
  .fail (.grammar (.unexpected wanted s.kind) s.span) s

/-- The rule for a token that `choose` finds a value in; gives the value and the span. -/
def pick {α : Type} (s : TokenStream) (choose : TokenKind → Option α) (wanted : Expectation) :
    Reply (α × Span) s.size :=
  if live : s.kind ≠ .eof then
    match choose s.kind with
    | some value => (s.advance live).map fun span => (value, span)
    | none => s.reject wanted
  else
    s.reject wanted

def expect (s : TokenStream) (wanted : TokenKind) : Reply Span s.size :=
  (s.pick (fun kind => if kind = wanted then some () else none) (.token wanted)).map Prod.snd

def keyword (s : TokenStream) (word : Keyword) : Reply Span s.size := s.expect (.keyword word)

def punct (s : TokenStream) (mark : Punct) : Reply Span s.size := s.expect (.punct mark)

def identifier (s : TokenStream) : Reply Name s.size :=
  (s.pick TokenKind.identifier? .identifier).map fun t => ⟨t.1, t.2⟩

def typeName (s : TokenStream) : Reply ScalarType s.size :=
  (s.pick ScalarType.ofKind? .typeName).map Prod.fst

def arraySize (s : TokenStream) : Reply String s.size :=
  (s.pick TokenKind.integer? .arraySize).map Prod.fst

def calloutName (s : TokenStream) : Reply String s.size :=
  (s.pick TokenKind.string? .calloutName).map Prod.fst

def assignOp (s : TokenStream) : Reply AssignOp s.size :=
  (s.pick AssignOp.ofKind? .assignmentOperator).map Prod.fst

end TokenStream

end Decaf
