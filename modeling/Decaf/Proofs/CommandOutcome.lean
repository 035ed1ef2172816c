import Decaf.CommandLine.Run
import Decaf.Proofs.Listings
import Decaf.Proofs.OneLine

namespace Decaf.CommandLine

/-- Whether a flag that goes with an input is asked for. Verbosity is counted instead. -/
def Options.asks (options : Options) : Flag → Bool
  | .legacyRules => options.legacyRules
  | .plain => options.plain
  | .dumpAst => options.dumpAst
  | .dumpTokens => options.dumpTokens
  | .verbose | .help | .version => false

/-- Arguments that ask for certain options. -/
def Options.arguments (options : Options) : List String :=
  (Flag.all.filter options.asks).map (fun flag => "--" ++ flag.name) ++
    (List.replicate options.verbosity "-v" ++ ["--", options.input])

namespace Seen

variable {seen : Seen}

end Seen

section Outcome

variable {options : Options} {bytes : ByteArray} {text : String} {ds : List Diagnostic}

end Outcome

section Answers

variable {options : Options} {bytes : ByteArray} {outcome : Outcome}

end Answers

end Decaf.CommandLine
