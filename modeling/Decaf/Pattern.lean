import Decaf.Pattern.Parser
import Decaf.Pattern.Meaning
import Decaf.Pattern.Size

namespace Decaf

open Pattern

inductive PatternError where
  | fault (fault : Fault)
  | tooLarge
  | wordsOfAllScripts

def PatternError.message (pattern : String) : PatternError → String
  | .fault f => f.report pattern
  | .tooLarge => "Compiled regex exceeds size limit of " ++ toString Expression.largestMachine
      ++ " bytes."
  | .wordsOfAllScripts => "error building NFA"

def readPattern (pattern : String) : Except PatternError Expression := do
  let (e, _) ← ((parse pattern).bind (Node.meaning .standard)).mapError PatternError.fault
  if e.isTooLarge false then throw .tooLarge
  if e.testsAllScripts then throw .wordsOfAllScripts
  if e.isTooLarge true then throw .tooLarge
  return e

end Decaf
