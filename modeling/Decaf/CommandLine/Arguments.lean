import Decaf.Text.Similarity
import Decaf.Text.Terminal

namespace Decaf.CommandLine

inductive Flag where
  | legacyRules
  | plain
  | verbose
  | dumpAst
  | dumpTokens
  | help
  | version
deriving DecidableEq

namespace Flag

def all : List Flag := [.legacyRules, .plain, .verbose, .dumpAst, .dumpTokens, .help, .version]

def name : Flag → String
  | .legacyRules => "legacy-rules"
  | .plain => "plain"
  | .verbose => "verbose"
  | .dumpAst => "dump-ast"
  | .dumpTokens => "dump-tokens"
  | .help => "help"
  | .version => "version"

def text (flag : Flag) : String :=
  "--" ++ flag.name ++ if flag = .verbose then "..." else ""

def ofName? (name : List Char) : Option Flag := all.find? fun flag => flag.name.toList = name

def similar? (name : List Char) : Option Flag :=
  Similarity.closest? name (fun flag => flag.name.toList) all

def ofLetter? : Char → Option Flag
  | 'v' => some .verbose
  | 'h' => some .help
  | 'V' => some .version
  | _ => none

end Flag

inductive UsageError where
  /-- An argument nobody asked for, and whether it looks like an option. -/
  | unexpectedArgument (argument : String) (option : Bool)
  /-- A flag there is not, the flags in front of it, and whether an input is in front of it. -/
  | unknownFlag (name : List Char) (given : List Flag) (withInput : Bool)
  | repeatedFlag (flag : Flag)
  /-- A value joined to a flag that takes none, and the flags in front of it. -/
  | unexpectedValue (value : String) (flag : Flag) (given : List Flag)
  | missingInput (given : List Flag)
  | emptyInput
deriving DecidableEq

namespace UsageError

def allOptions : String := "decafc [OPTIONS] <INPUT>"

def usageWith (flags : List Flag) : String :=
  "decafc " ++ String.join (flags.map fun flag => flag.text ++ " ") ++ "<INPUT>"

def asksForText (flag : Flag) : Bool := flag = .help || flag = .version

def anyUsage (flags : List Flag) : String :=
  let choices := (Flag.all.filter fun flag => !asksForText flag).map fun flag => "|" ++ flag.text
  "decafc " ++ String.join ((flags.filter asksForText).map fun flag => flag.text ++ " ")
    ++ "<INPUT" ++ String.join choices ++ ">"

def unexpected (argument : String) : String :=
  "unexpected argument '" ++ Terminal.strip argument ++ "' found"

def asValue (argument : String) : String :=
  let shown := Terminal.strip argument
  "to pass '" ++ shown ++ "' as a value, use '-- " ++ shown ++ "'"

def optionText (name : List Char) : String := String.ofList ('-' :: '-' :: name)

def problem : UsageError → String
  | .unexpectedArgument argument _ => unexpected argument
  | .unknownFlag name _ _ => unexpected (optionText name)
  | .repeatedFlag flag => "the argument '" ++ flag.text ++ "' cannot be used multiple times"
  | .unexpectedValue value flag _ =>
    "unexpected value '" ++ Terminal.strip value ++ "' for '" ++ flag.text
      ++ "' found; no more were expected"
  | .missingInput _ => "the following required arguments were not provided:\n  <INPUT>"
  | .emptyInput => "a value is required for '<INPUT>' but none was supplied"

def tip? : UsageError → Option String
  | .unexpectedArgument argument true => some (asValue argument)
  | .unknownFlag name _ _ =>
    match Flag.similar? name with
    | some flag => some ("a similar argument exists: '" ++ optionText flag.name.toList ++ "'")
    | none => some (asValue (optionText name))
  | _ => none

def usage? : UsageError → Option String
  | .unexpectedArgument _ _ | .repeatedFlag _ => some allOptions
  | .unknownFlag name given withInput =>
    match Flag.similar? name with
    | some flag => some (usageWith (if flag ∈ given then given else given ++ [flag]))
    | none => some (if given.isEmpty && !withInput then allOptions else usageWith given)
  | .unexpectedValue _ flag given =>
    some (if given.isEmpty then usageWith [flag] else anyUsage [flag])
  | .missingInput given => some (usageWith given)
  | .emptyInput => none

def message (e : UsageError) : String :=
  let tip := match e.tip? with
    | some tip => "  tip: " ++ tip ++ "\n\n"
    | none => ""
  let usage := match e.usage? with
    | some usage => "Usage: " ++ usage ++ "\n\n"
    | none => ""
  "error: " ++ e.problem ++ "\n\n" ++ tip ++ usage ++ "For more information, try '--help'.\n"

end UsageError

structure Options where
  input : String
  legacyRules : Bool
  plain : Bool
  dumpAst : Bool
  dumpTokens : Bool
  verbosity : Nat
deriving DecidableEq

inductive Request where
  | run (options : Options)
  | help
  | version
  | misuse (error : UsageError)
deriving DecidableEq

/-- The arguments read so far. Flags are in the order of their last use. -/
structure Seen where
  input : Option String
  flags : List Flag
  verbosity : Nat

namespace Seen

def none : Seen := ⟨.none, [], 0⟩

/-- A flag, or the answer that ends the reading. An empty input is noticed at the next flag. -/
def addFlag (seen : Seen) (flag : Flag) : Except Request Seen :=
  if seen.input = some "" then .error (.misuse .emptyInput)
  else
    match flag with
    | .help => .error .help
    | .version => .error .version
    | .verbose =>
      .ok { seen with
        flags := seen.flags.filter (· ≠ .verbose) ++ [.verbose]
        verbosity := seen.verbosity + 1 }
    | flag =>
      if flag ∈ seen.flags then .error (.misuse (.repeatedFlag flag))
      else .ok { seen with flags := seen.flags ++ [flag] }

def addLetters (seen : Seen) : List Char → Except Request Seen
  | [] => .ok seen
  | c :: cs =>
    match Flag.ofLetter? c with
    | .none => .error (.misuse (.unexpectedArgument (String.ofList ['-', c]) true))
    | some flag =>
      match seen.addFlag flag with
      | .ok seen => seen.addLetters cs
      | .error answer => .error answer

def addNamed (seen : Seen) (text : List Char) : Except Request Seen :=
  let name := text.takeWhile (· ≠ '=')
  match Flag.ofName? name, text.dropWhile (· ≠ '=') with
  | .none, _ => .error (.misuse (.unknownFlag name seen.flags seen.input.isSome))
  | some flag, [] => seen.addFlag flag
  | some flag, _ :: value =>
    .error (.misuse (.unexpectedValue (String.ofList value) flag seen.flags))

def addInput (seen : Seen) (argument : String) : Except Request Seen :=
  match seen.input with
  | .none => .ok { seen with input := some argument }
  | some _ => .error (.misuse (.unexpectedArgument argument false))

def addInputs (seen : Seen) : List String → Except Request Seen
  | [] => .ok seen
  | argument :: arguments =>
    match seen.addInput argument with
    | .ok seen => seen.addInputs arguments
    | .error answer => .error answer

def add (seen : Seen) (argument : String) : Except Request Seen :=
  match argument.toList with
  | '-' :: '-' :: name => seen.addNamed name
  | '-' :: c :: cs => seen.addLetters (c :: cs)
  | _ => seen.addInput argument

def addAll (seen : Seen) : List String → Except Request Seen
  | [] => .ok seen
  | argument :: arguments =>
    if argument = "--" then seen.addInputs arguments
    else
      match seen.add argument with
      | .ok seen => seen.addAll arguments
      | .error answer => .error answer

def request (seen : Seen) : Request :=
  match seen.input with
  | .none => .misuse (.missingInput seen.flags)
  | some "" => .misuse .emptyInput
  | some input =>
    .run {
      input
      legacyRules := .legacyRules ∈ seen.flags
      plain := .plain ∈ seen.flags
      dumpAst := .dumpAst ∈ seen.flags
      dumpTokens := .dumpTokens ∈ seen.flags
      verbosity := seen.verbosity }

end Seen

/-- From left to right. The first thing that is wrong or ends the run decides. -/
def readArguments (arguments : List String) : Request :=
  match Seen.none.addAll arguments with
  | .ok seen => seen.request
  | .error answer => answer

def versionText : String := "decafc 0.1.0\n"

def helpLines : List String :=
  ["Scope and type checker for Decaf programs",
    "",
    "Usage: decafc [OPTIONS] <INPUT>",
    "",
    "Arguments:",
    "  <INPUT>  Input source file (.dcf)",
    "",
    "Options:",
    "      --legacy-rules  Reproduce the diagnostics of the Decaf course checker",
    "      --plain         Print `Error line N: ...` lines instead of annotated source",
    "  -v, --verbose...    Verbose output (repeat for more)",
    "      --dump-ast      Dump AST (for debugging)",
    "      --dump-tokens   Dump tokens (for debugging)",
    "  -h, --help          Print help",
    "  -V, --version       Print version"]

def helpText : String := String.join (helpLines.map fun line => line ++ "\n")

end Decaf.CommandLine
