import Decaf.Proofs.WalkFrame

namespace Decaf

open Analyzer

/-- The typing of an expression in the course of a walk, given by the state in which it begins. -/
structure Typing where
  expr : Expr
  before : Analyzer

namespace Typing

def type (t : Typing) : Ty := ((Analyzer.typeOf t.expr).run t.before).1

def after (t : Typing) : Analyzer := ((Analyzer.typeOf t.expr).run t.before).2

/-- What is reported in the course of it. -/
def reported (t : Typing) : List Diagnostic := appended (Analyzer.typeOf t.expr) t.before

end Typing

def Mark.typing? : Mark → Analyzer → Option Typing
  | .expr e, a => some ⟨e, a⟩
  | .stmt _, _ => none

def Course.typings {α : Type} (c : Course α) (a : Analyzer) : List Typing :=
  c.trace Mark.typing? a

/-- The state of a walk, and all expressions typed so far. -/
structure Recorder where
  state : Analyzer
  typings : List Typing

/-- A walk that notes down each expression it types, with the state it has reached. -/
abbrev RecordedWalk := StateM Recorder

namespace RecordedWalk

def ofWalk {α : Type} (x : Walk α) : RecordedWalk α := fun r =>
  ((x.run r.state).1, { r with state := (x.run r.state).2 })

def note (m : Mark) : RecordedWalk Unit :=
  modify fun r => { r with typings := r.typings ++ (m.typing? r.state).toList }

def inLoop (body : RecordedWalk Unit) : RecordedWalk Unit := do
  ofWalk (modify fun a => { a with loopDepth := a.loopDepth + 1 })
  body
  ofWalk (modify fun a => { a with loopDepth := a.loopDepth - 1 })

def along : {α : Type} → Course α → RecordedWalk α
  | _, .done value => pure value
  | _, .step s next => ofWalk s.walk >>= fun value => along (next value)
  | _, .mark m next => note m >>= fun _ => along next
  | _, .looping body next => inLoop (along body) >>= fun _ => along next

def analyze (p : Program) : RecordedWalk (List Diagnostic) := do
  ofWalk (modify fun a => .new a.rules)
  along p.course
  return (← get).state.diagnostics

theorem run_along {α : Type} (c : Course α) (r : Recorder) :
    (along c).run r =
      ((c.walk.run r.state).1, ⟨(c.walk.run r.state).2, r.typings ++ c.typings r.state⟩) := by
  induction c generalizing r with
  | done value =>
    exact congrArg (fun typings => (value, Recorder.mk r.state typings)) (List.append_nil _).symm
  | step s next ih => exact ih _ _
  | mark m next ih =>
    refine (ih _).trans ?_
    rw [List.append_assoc]
    rfl
  | looping body next ihbody ih =>
    let inside : Analyzer := { r.state with loopDepth := r.state.loopDepth + 1 }
    have hbody : ((inLoop (along body)).run r).2 =
        ⟨((Analyzer.inLoop body.walk).run r.state).2, r.typings ++ body.typings inside⟩ := by
      have hrun : ((inLoop (along body)).run r).2 =
          let after := ((along body).run ⟨inside, r.typings⟩).2
          { after with state := { after.state with loopDepth := after.state.loopDepth - 1 } } := rfl
      rw [hrun, ihbody]
      rfl
    have hnext : (along (.looping body next)).run r =
        (along next).run ((inLoop (along body)).run r).2 := rfl
    rw [hnext, hbody, ih, List.append_assoc]
    rfl

end RecordedWalk

theorem Program.run_recorded (p : Program) (rules : RuleSet) :
    (RecordedWalk.analyze p).run ⟨.new rules, []⟩ =
      (analyze rules p,
        ⟨((Analyzer.analyze p).run (.new rules)).2, p.course.typings (.new rules)⟩) := by
  have hrun : (RecordedWalk.analyze p).run ⟨.new rules, []⟩ =
      let r := ((RecordedWalk.along p.course).run ⟨.new rules, []⟩).2
      (r.state.diagnostics, r) := rfl
  rw [hrun, RecordedWalk.run_along, p.walk_course]
  rfl

/-- All typings of expressions in an analysis, in the order in which they begin. -/
def Program.typings (rules : RuleSet) (p : Program) : List Typing :=
  ((RecordedWalk.analyze p).run ⟨.new rules, []⟩).2.typings

end Decaf
