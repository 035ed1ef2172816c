import Decaf.Pattern
import Decaf.Text.Terminal

namespace Decaf

inductive LogLevel where
  | info
  | debug
  | trace

namespace LogLevel

def text : LogLevel → String
  | .info => "INFO "
  | .debug => "DEBUG"
  | .trace => "TRACE"

def detail : LogLevel → Nat
  | .info => 3
  | .debug => 4
  | .trace => 5

end LogLevel

structure LogMessage where
  level : LogLevel
  origin : String
  text : String

def hanging (text : List Char) : List Char :=
  text.flatMap fun c => if c = '\n' then ['\n', ' ', ' ', ' ', ' '] else [c]

def LogMessage.line (m : LogMessage) : String :=
  Terminal.strip ("[" ++ m.level.text ++ " " ++ m.origin ++ "] "
    ++ String.ofList (hanging m.text.toList) ++ "\n")

/-- The most detail that is shown of messages from origins that start with a name; without a name,
of all messages. -/
structure LogRule where
  name : Option String
  detail : Nat

/-- The rules in the order they were given, and what has to occur in messages. -/
structure LogFilter where
  rules : List LogRule
  wanted : Option Pattern.Expression

namespace LogRule

def rank (rule : LogRule) : Nat := (rule.name.map String.utf8ByteSize).getD 0

def covers (rule : LogRule) (origin : String) : Bool :=
  match rule.name with
  | some name => name.toList.isPrefixOf origin.toList
  | none => true

end LogRule

namespace LogFilter

def ofDetail (detail : Nat) : LogFilter := ⟨[⟨none, detail⟩], none⟩

def insert (rule : LogRule) : List LogRule → List LogRule
  | [] => [rule]
  | other :: rest => if other.name = rule.name then rule :: rest else other :: insert rule rest

/-- The rule that decides about an origin; of two names of one length the later one. -/
def ruleFor (origin : String) (rules : List LogRule) : Option LogRule :=
  let longer (best : Option LogRule) (rule : LogRule) : Option LogRule :=
    match best with
    | none => some rule
    | some other => if other.rank ≤ rule.rank then some rule else some other
  (rules.filter fun rule => rule.covers origin).foldl longer none

def shows (f : LogFilter) (m : LogMessage) : Bool :=
  match ruleFor m.origin f.rules with
  | none => false
  | some rule => m.level.detail ≤ rule.detail && f.wanted.all (·.occursIn m.text)

def detail? (word : String) : Option Nat :=
  match word.toLower with
  | "off" => some 0
  | "error" => some 1
  | "warn" => some 2
  | "info" => some 3
  | "debug" => some 4
  | "trace" => some 5
  | _ => none

def trim (cs : List Char) : List Char :=
  ((cs.dropWhile CharClass.isSpace).reverse.dropWhile CharClass.isSpace).reverse

def pieces (separator : Char) : List Char → List (List Char)
  | [] => [[]]
  | c :: cs =>
    if c = separator then [] :: pieces separator cs
    else
      match pieces separator cs with
      | [] => [[c]]
      | piece :: rest => (c :: piece) :: rest

def readRule (entry : List Char) : Except String LogRule :=
  match pieces '=' entry with
  | [word] =>
    match detail? (String.ofList word) with
    | some detail => .ok ⟨none, detail⟩
    | none => .ok ⟨some (String.ofList word), 5⟩
  | [name, level] =>
    let level := String.ofList (trim level)
    if level = "" then .ok ⟨some (String.ofList name), 5⟩
    else
      match detail? level with
      | some detail => .ok ⟨some (String.ofList name), detail⟩
      | none => .error level
  | _ => .error (String.ofList entry)

/-- Adds the entries of a specification to a filter. Entries that cannot be read are left out and
returned. -/
def addEntries (rules : List LogRule) : List (List Char) → List LogRule × List String
  | [] => (rules, [])
  | entry :: entries =>
    match trim entry with
    | [] => addEntries rules entries
    | entry =>
      match readRule entry with
      | .ok rule => addEntries (insert rule rules) entries
      | .error text =>
        let (rules, rejected) := addEntries rules entries
        (rules, text :: rejected)

def warning (reason : String) : String := "warning: " ++ reason ++ ", ignoring it\n"

def invalid (text : String) : String := "invalid logging spec '" ++ text ++ "'"

def readWanted (pattern : String) : Option Pattern.Expression × List String :=
  match readPattern pattern with
  | .ok wanted => (some wanted, [])
  | .error e => (none, [warning ("invalid regex filter - " ++ e.message pattern)])

def refine (f : LogFilter) (specification : String) : LogFilter × List String :=
  let read (entries : List Char) : List LogRule × List String :=
    let (rules, rejected) := addEntries f.rules (pieces ',' entries)
    (rules, rejected.map fun text => warning (invalid text))
  match pieces '/' specification.toList with
  | [entries] =>
    let (rules, warnings) := read entries
    (⟨rules, none⟩, warnings)
  | [entries, pattern] =>
    let (rules, warnings) := read entries
    let (wanted, further) := readWanted (String.ofList pattern)
    (⟨rules, wanted⟩, warnings ++ further)
  | _ => (f, [warning (invalid specification ++ " (too many '/'s)")])

end LogFilter

end Decaf
