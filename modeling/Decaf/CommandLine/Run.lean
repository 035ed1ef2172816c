import Decaf.Check
import Decaf.CommandLine.Arguments
import Decaf.CommandLine.Directory

namespace Decaf.CommandLine

structure Outcome where
  exitCode : Nat
  stdout : String
  stderr : String
deriving DecidableEq

def detailOf : Nat → Nat
  | 0 => 2
  | 1 => 3
  | 2 => 4
  | _ => 5

def Options.rules (options : Options) : RuleSet :=
  if options.legacyRules then .legacy else .standard

def Options.checkOptions (options : Options) : CheckOptions :=
  ⟨options.rules, options.dumpTokens, options.dumpAst⟩

def noticeText (filter : LogFilter) : Notice → String
  | .log message => if filter.shows message then message.line else ""
  | .shown text => text

def checkText (options : Options) (filter : LogFilter) (text : String) : Outcome :=
  let file : SourceFile := ⟨options.input, text⟩
  let opening := Check.log .info "decafc"
    ("checking " ++ options.input ++ " with the decaf frontend (" ++ options.rules.label
      ++ " rules)")
  let checked := check options.checkOptions file
  let notices := String.join ((opening :: checked.notices).map (noticeText filter))
  match checked.result with
  | .error _ => ⟨1, "", notices⟩
  | .ok diagnostics =>
    let exitCode := if diagnostics.isEmpty then 0 else 1
    if options.plain then
      ⟨exitCode, unlines (diagnostics.map Diagnostic.text), notices⟩
    else
      ⟨exitCode, "", notices ++ String.join (diagnostics.map fun d => d.render file)⟩

def decode (bytes : ByteArray) : Except ReadError String :=
  match String.fromUTF8? bytes with
  | some text => .ok text
  | none => .error .notText

def execute (options : Options) (specification : Option String)
    (content : Except ReadError ByteArray) : Outcome :=
  let standard := LogFilter.ofDetail (detailOf options.verbosity)
  let (filter, warnings) := match specification with
    | some specification => standard.refine specification
    | none => (standard, [])
  let outcome := match content.bind decode with
    | .ok text => checkText options filter text
    | .error e => ⟨1, "", "error: failed to read " ++ options.input ++ ": " ++ e.reason ++ "\n"⟩
  { outcome with stderr := String.join warnings ++ outcome.stderr }

/-- Answers a request; `read` gives the bytes of a file. -/
def respond (request : Request) (specification : Option String)
    (read : String → Except ReadError ByteArray) : Outcome :=
  match request with
  | .run options => execute options specification (read options.input)
  | .help => ⟨0, helpText, ""⟩
  | .version => ⟨0, versionText, ""⟩
  | .misuse error => ⟨2, "", error.message⟩

end Decaf.CommandLine
