import Decaf.Proofs.WalkFrame

namespace Decaf

open Analyzer

namespace Program

def members (p : Program) : List Symbol :=
  p.fieldDeclarations.map Declaration.symbol ++ p.methods.map methodSymbol

def declarations (p : Program) : List Declaration :=
  p.fieldDeclarations ++ p.methods.map MethodDecl.declaration

theorem map_symbol_declarations (p : Program) :
    p.declarations.map Declaration.symbol = p.members := by
  rw [declarations, List.map_append, List.map_map]
  rfl

end Program

/-- What can be seen from outside all methods if the class has the given names. The first of two
equal names is the one that is found. -/
def View.ofMembers (rules : RuleSet) (members : List Symbol) : View :=
  ⟨rules, ⟨members, [], 1⟩, false, none⟩

theorem View.resolve_ofMembers (rules : RuleSet) (members : List Symbol) (name : String) :
    (ofMembers rules members).scopes.resolve name = members.find? fun s => s.name == name :=
  List.findSome?_singleton

namespace Analyzer

theorem visitProgram_view (p : Program) (rules : RuleSet) :
    ((visitProgram p).run (.new rules)).2.view =
      (View.mk rules .root false none).declaring p.declarations := by
  obtain ⟨es, hfields, -⟩ := forM_visitField_leaves p.fields (.new rules)
  obtain ⟨fs, hmethods, -⟩ := forM_visitMethod_run p.methods
    ((Analyzer.new rules).settle _ es) rfl
  rw [Program.declarations, View.declaring, Frame.addAll_append]
  rw [visitProgram, run_bind, hfields, run_bind, hmethods, run_bind, run_get]
  split
  · rfl
  · rfl

theorem visitProgram_alike (p : Program) (rules : RuleSet) :
    View.Alike ((visitProgram p).run (.new rules)).2.view (.ofMembers rules p.members) := by
  rw [visitProgram_view]
  refine ⟨rfl, ?_, rfl, rfl⟩
  intro name
  have hfind : (Frame.addAll [] p.declarations).find name = Frame.find p.members name := by
    rw [Frame.find_addAll, Frame.find, List.find?_nil, Option.none_or,
      Program.map_symbol_declarations]
  have hresolve : ((View.mk rules .root false none).declaring p.declarations).scopes.resolve name =
      (Frame.addAll [] p.declarations).find name := List.findSome?_singleton
  rw [hresolve, hfind, View.resolve_ofMembers, Frame.find]

end Analyzer

namespace Session

inductive Request where
  | analyze (p : Program)
  | typeOf (e : Expr)

inductive Answer where
  | diagnostics (found : List Diagnostic)
  | type (found : Ty)
deriving DecidableEq

/-- What an analyzer answers, and how it goes on. -/
def serve : Request → Walk Answer
  | .analyze p => Answer.diagnostics <$> Analyzer.analyze p
  | .typeOf e => Answer.type <$> Analyzer.typeOf e

def serveAll : List Request → Walk (List Answer)
  | [] => return []
  | q :: qs => do
    let first ← serve q
    let others ← serveAll qs
    return first :: others

def known (last : Option Program) : List Symbol := (last.map Program.members).getD []

/-- The answers that come from the requests alone: a program is given to an analyzer of its own,
and an expression has its type in the class that was analyzed last. -/
def expected (rules : RuleSet) (last : Option Program) : List Request → List Answer
  | [] => []
  | .analyze p :: qs => .diagnostics (analyze rules p) :: expected rules (some p) qs
  | .typeOf e :: qs => .type (e.typeIn (.ofMembers rules (known last))) :: expected rules last qs

/-- The analyzer stands where the analysis of `last` has left it, but for what it has reported. -/
def Behind (rules : RuleSet) (last : Option Program) (a : Analyzer) : Prop :=
  View.Alike a.view (.ofMembers rules (known last))

variable {rules : RuleSet} {last : Option Program} {a : Analyzer}

theorem behind_new (rules : RuleSet) : Behind rules none (.new rules) :=
  ⟨rfl, fun _ => rfl, rfl, rfl⟩

theorem Behind.serve_analyze (h : Behind rules last a) (p : Program) :
    ((serve (.analyze p)).run a).1 = .diagnostics (analyze rules p) ∧
      Behind rules (some p) ((serve (.analyze p)).run a).2 := by
  have hrules : a.rules = rules := h.rules
  -- Nothing but the rules survives the start of an analysis.
  have hrun : (Analyzer.analyze p).run a = (Analyzer.analyze p).run (.new rules) := by
    rw [← hrules]
    rfl
  rw [serve, run_map, hrun]
  exact ⟨rfl, visitProgram_alike p rules⟩

theorem Behind.serve_typeOf (h : Behind rules last a) (e : Expr) :
    ((serve (.typeOf e)).run a).1 = .type (e.typeIn (.ofMembers rules (known last))) ∧
      Behind rules last ((serve (.typeOf e)).run a).2 := by
  rw [serve, run_map, typeOf_run, e.typeIn_congr h]
  exact ⟨rfl, h⟩

theorem Behind.serveAll_eq (h : Behind rules last a) (qs : List Request) :
    ((serveAll qs).run a).1 = expected rules last qs := by
  induction qs generalizing last a with
  | nil => rfl
  | cons q qs ih =>
    have hcons : ((serveAll (q :: qs)).run a).1 =
        ((serve q).run a).1 :: ((serveAll qs).run ((serve q).run a).2).1 := rfl
    rw [hcons]
    cases q with
    | analyze p =>
      obtain ⟨hanswer, hnext⟩ := h.serve_analyze p
      rw [hanswer, ih hnext, expected]
    | typeOf e =>
      obtain ⟨hanswer, hnext⟩ := h.serve_typeOf e
      rw [hanswer, ih hnext, expected]

end Session

/-- An analyzer can be asked anything in any order: each program is analyzed as by a new analyzer,
each expression is typed by the first declarations of the class that was analyzed last. -/
theorem session_answers_expected (rules : RuleSet) (requests : List Session.Request) :
    ((Session.serveAll requests).run (.new rules)).1 = Session.expected rules none requests :=
  (Session.behind_new rules).serveAll_eq requests

example :
    let x : Expr := .location (.scalar "x" .zero) .zero
    let p : Program :=
      ⟨"P", [⟨.boolean, [⟨"x", none, .zero⟩], .zero⟩, ⟨.int, [⟨"x", none, .zero⟩], .zero⟩], [],
        .zero, 1⟩
    ((Session.serveAll [.typeOf x, .analyze p, .typeOf x]).run (.new .standard)).1 =
      [.type .unknown,
        .diagnostics [.ofSpan (.duplicateDeclaration "x" .int) .zero,
          .ofLine .missingMainMethod 1],
        .type .boolean] := by
  decide

end Decaf
