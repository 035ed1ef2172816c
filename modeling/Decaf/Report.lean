import Decaf.Diagnostic
import Decaf.Failure
import Decaf.Snippet

namespace Decaf

def unlines (lines : List String) : String := String.join (lines.map fun line => line ++ "\n")

def noteLines (message : String) : List String :=
  match Lines.paragraph message.toList with
  | [] => []
  | first :: others =>
    (" = " ++ String.ofList first) :: others.map fun line => "   " ++ String.ofList line

/-- A diagnostic without a text to show has its message in a note. -/
def Diagnostic.render (d : Diagnostic) (file : SourceFile) : String :=
  let heading := "error[line " ++ toString d.line ++ "]: " ++ d.defect.label
  let body :=
    if d.span.start < d.span.stop then Snippet.excerpt file d.span d.message
    else noteLines d.message
  unlines (heading :: body ++ [""])

def Failure.render (f : Failure) (file : SourceFile) : String :=
  match f with
  | .lexer message span =>
    unlines ("error: Lexer error" :: Snippet.excerpt file span message ++ [""])
  | .parser message span =>
    unlines ("error: Syntax error" :: Snippet.excerpt file span message ++ [""])
  | .io message => unlines ["error: IO error: " ++ message, ""]

end Decaf
