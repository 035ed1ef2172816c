import Decaf.Main
import Decaf.Proofs.Cascade
import Decaf.Proofs.DiagnosticPlaces
import Decaf.Proofs.FaithfulText
import Decaf.Proofs.FirstError
import Decaf.Proofs.Layout
import Decaf.Proofs.LexerStep
import Decaf.Proofs.Lossless
import Decaf.Proofs.NameResolution
import Decaf.Proofs.RuleSets
import Decaf.Proofs.ScopeStack
import Decaf.Proofs.Session
import Decaf.Proofs.WalkFrame
import Decaf.Proofs.Attempts
import Decaf.Proofs.Renaming
import Decaf.Proofs.OneLine
import Decaf.Proofs.CommandOutcome
import Decaf.Proofs.Returns
import Decaf.Proofs.ReversedOperators
import Decaf.Proofs.SpellingOut
import Decaf.Proofs.ArrayFields
import Decaf.Proofs.RuleScripts
import Decaf.Proofs.Termination
import Decaf.Proofs.SpanMerge
