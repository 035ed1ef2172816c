import Decaf.Text.Quoted

namespace Decaf

inductive Outline.Shape where
  | record
  | tuple
  | list

/-- A value with a head and parts; a part of a record carries its label. -/
inductive Outline where
  | atom (text : String)
  | labelled (label : String) (value : Outline)
  | group (shape : Outline.Shape) (head : String) (parts : List Outline)

namespace Outline

namespace Shape

def inlineBrackets : Shape → String × String
  | .record => (" \x7b ", " \x7d")
  | .tuple => ("(", ")")
  | .list => ("[", "]")

def brackets : Shape → String × String
  | .record => (" \x7b", "\x7d")
  | .tuple => ("(", ")")
  | .list => ("[", "]")

end Shape

def record (head : String) (parts : List (String × Outline)) : Outline :=
  .group .record head (parts.map fun p => .labelled p.1 p.2)

def tuple (head : String) (parts : List Outline) : Outline := .group .tuple head parts

def list (parts : List Outline) : Outline := .group .list "" parts

def string (text : String) : Outline := .atom (Quoted.encode text)

def number (n : Nat) : Outline := .atom (toString n)

def option : Option Outline → Outline
  | none => .atom "None"
  | some value => .tuple "Some" [value]

mutual

def inline : Outline → String
  | .atom text => text
  | .labelled label value => label ++ ": " ++ value.inline
  | .group shape head parts =>
    head ++ shape.inlineBrackets.1 ++ inlineParts parts ++ shape.inlineBrackets.2

def inlineParts : List Outline → String
  | [] => ""
  | [part] => part.inline
  | part :: parts => part.inline ++ ", " ++ inlineParts parts

end

def margin (depth : Nat) : String := String.ofList (List.replicate (4 * depth) ' ')

mutual

/-- The outline with one part to a line, the first line without its margin. -/
def spread (depth : Nat) : Outline → String
  | .atom text => text
  | .labelled label value => label ++ ": " ++ value.spread depth
  | .group shape head [] => head ++ shape.brackets.1 ++ shape.brackets.2
  | .group shape head (part :: parts) =>
    head ++ shape.brackets.1 ++ "\n" ++ spreadParts (depth + 1) (part :: parts) ++ margin depth
      ++ shape.brackets.2

def spreadParts (depth : Nat) : List Outline → String
  | [] => ""
  | part :: parts =>
    margin depth ++ part.spread depth ++ ",\n" ++ spreadParts depth parts

end

end Outline

end Decaf
