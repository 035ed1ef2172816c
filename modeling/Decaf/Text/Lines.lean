import Decaf.LineIndex

namespace Decaf.Lines

/-- A line keeps the line feed that ends it. What follows the last line feed is a line too, even if
it is empty. -/
def split : List Char → List (List Char)
  | [] => [[]]
  | c :: cs =>
    if c = '\n' then [c] :: split cs
    else
      match split cs with
      | [] => [[c]]
      | line :: lines => (c :: line) :: lines

def chomp (line : List Char) : List Char :=
  match line.reverse with
  | '\n' :: '\r' :: rest => rest.reverse
  | '\n' :: rest => rest.reverse
  | _ => line

def paragraph (text : List Char) : List (List Char) :=
  let lines := split text
  let lines := if lines.getLast? = some [] then lines.dropLast else lines
  lines.map chomp

end Decaf.Lines
