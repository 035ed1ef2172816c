import Decaf.Analyzer.Program
import Decaf.Dump
import Decaf.Log
import Decaf.Parser.Program
import Decaf.Report

namespace Decaf

structure CheckOptions where
  rules : RuleSet
  dumpTokens : Bool
  dumpTree : Bool

inductive Notice where
  | log (message : LogMessage)
  | shown (text : String)

/-- The notices of a check in their order, and its result. -/
structure Checked where
  notices : List Notice
  result : Except Failure (List Diagnostic)

namespace Check

def checkerOrigin : String := "decaf_compiler::frontend::decaf"

def analyzerOrigin : String := "decaf_compiler::frontend::decaf::sema::analyzer"

def scopeOrigin : String := "decaf_compiler::frontend::decaf::sema::scope"

def log (level : LogLevel) (origin text : String) : Notice := .log ⟨level, origin, text⟩

def ofEvent : Event → Notice
  | .entered depth => log .trace scopeOrigin ("enter scope (depth " ++ toString depth ++ ")")
  | .exited depth => log .trace scopeOrigin ("exit scope (depth " ++ toString depth ++ ")")
  | .reported diagnostic => log .debug analyzerOrigin diagnostic.text

def tokenNotices (options : CheckOptions) (text : String) : Except LexicalError (List Notice) :=
  if options.dumpTokens then
    (dumpTokens text).map fun listing =>
      [.shown ("=== Decaf Tokens ===\n" ++ listing ++ "=== End Tokens ===\n\n")]
  else
    .ok []

def treeNotices (options : CheckOptions) (program : Program) : List Notice :=
  if options.dumpTree then
    [.shown ("=== Decaf AST ===\n" ++ program.dump ++ "\n=== End AST ===\n\n")]
  else
    []

def analysis (rules : RuleSet) (name : String) (program : Program) : Checked :=
  let (diagnostics, analyzer) := (Analyzer.analyze program).run (.new rules)
  let count := toString diagnostics.length
  { notices :=
      log .debug checkerOrigin ("analyzing " ++ name)
        :: log .debug analyzerOrigin
          ("analyzing class " ++ program.name ++ " (" ++ toString program.fields.length
            ++ " fields, " ++ toString program.methods.length ++ " methods, " ++ rules.label
            ++ " rules)")
        :: analyzer.events.map ofEvent
        ++ [log .debug analyzerOrigin ("analysis finished with " ++ count ++ " diagnostics"),
          log .info checkerOrigin (name ++ ": " ++ count ++ " diagnostics")]
    result := .ok diagnostics }

/-- A check that ends with a hard error, which is shown. -/
def failed (before : List Notice) (error : ParseError) (file : SourceFile) : Checked :=
  let failure := Failure.ofParseError error
  ⟨before ++ [.shown (failure.render file)], .error failure⟩

end Check

def check (options : CheckOptions) (file : SourceFile) : Checked :=
  match Check.tokenNotices options file.text with
  | .error e => Check.failed [] (.lexical e) file
  | .ok tokens =>
    let parsing := tokens ++ [Check.log .debug Check.checkerOrigin ("parsing " ++ file.name)]
    match parseProgram file.text with
    | .error e => Check.failed parsing e file
    | .ok program =>
      let analysis := Check.analysis options.rules file.name program
      { analysis with
        notices := parsing ++ Check.treeNotices options program ++ analysis.notices }

end Decaf
