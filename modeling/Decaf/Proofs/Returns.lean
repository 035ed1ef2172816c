import Decaf.Proofs.Stops
import Decaf.Proofs.VoidReturns

namespace Decaf

open Analyzer

namespace MethodDecl

/-- Whether a return statement is wrong in a method, where `delivered` is the type of its value if
it has one. A method without a result is to return no value and every other method a value of its
type; a type that could not be resolved is not held against it. -/
def isWrongReturn (method : MethodDecl) (delivered : Option Ty) : Bool :=
  match method.returnType, delivered with
  | none, none => false
  | none, some type => !type.isUnknown
  | some _, none => true
  | some wanted, some type => type != .ofScalar wanted && !type.isUnknown

/-- The complaint about a wrong return statement. It takes a missing value for one of type void. -/
def wrongReturn? (method : MethodDecl) (delivered : Option Ty) (span : Span) : Option Diagnostic :=
  if method.isWrongReturn delivered then
    some <| .ofSpan
      (.returnMismatch method.name (.ofReturn method.returnType) (delivered.getD .void)) span
  else none

/-- Whether a method without a result returns a value of type void. -/
def passesVoid (method : MethodDecl) (delivered : Option Ty) : Bool :=
  method.returnType.isNone && delivered == some .void

theorem isSome_wrongReturn? {method : MethodDecl} {delivered : Option Ty}
    (h : method.passesVoid delivered = true) (span : Span) :
    (method.wrongReturn? delivered span).isSome = true := by
  obtain ⟨name, returnType, params, body, methodSpan⟩ := method
  obtain ⟨hnone, hvoid⟩ := Bool.and_eq_true_iff.1 h
  obtain rfl : returnType = none := Option.isNone_iff_eq_none.1 hnone
  obtain rfl : delivered = some .void := eq_of_beq hvoid
  rfl

def refusedReturn? (method : MethodDecl) (delivered : Option Ty) (span : Span) :
    Option Diagnostic :=
  if !method.passesVoid delivered then method.wrongReturn? delivered span else none

theorem breach_return (method : MethodDecl) (delivered : Option Ty) (span : Span) :
    breach (delivered.getD .void == method.context.returnType || (delivered.getD .void).isUnknown)
        (.returnMismatch method.context.name method.context.returnType (delivered.getD .void))
        span =
      (method.refusedReturn? delivered span).toList := by
  obtain ⟨name, returnType, params, body, methodSpan⟩ := method
  rcases returnType with _ | _ | _ <;> rcases delivered with _ | _ | _ | _ | _ | _ <;> rfl

end MethodDecl

def Site.refusedReturn? (rules : RuleSet) (site : Site) : Option Diagnostic :=
  match site.stmt with
  | .returnFrom value span =>
    site.place.method.refusedReturn? (value.map (Expr.typeIn (site.place.view rules))) span
  | _ => none

theorem Site.filter_isReturn_verdict (rules : RuleSet) (site : Site) :
    (site.verdict rules).filter (fun d => d.defect.isReturn) =
      (site.refusedReturn? rules).toList := by
  obtain ⟨s, place⟩ := site
  cases s with
  | returnFrom value span => exact (filter_breach rfl).trans (place.method.breach_return _ span)
  | breakLoop span | continueLoop span => exact filter_breach_of_false rfl
  | _ => rfl

namespace Stop

/-- The type of the value of a return statement as the analysis finds it. -/
def delivered (stop : Stop) (value : Option Expr) : Option Ty :=
  value.map fun e => ((typeOf e).run stop.state).1

def wrongReturn? (stop : Stop) : Option Diagnostic :=
  match stop.site.stmt with
  | .returnFrom value span => stop.site.place.method.wrongReturn? (stop.delivered value) span
  | _ => none

def passesVoid (stop : Stop) : Bool :=
  match stop.site.stmt with
  | .returnFrom value _ => stop.site.place.method.passesVoid (stop.delivered value)
  | _ => false

theorem isSome_wrongReturn? {stop : Stop} (h : stop.passesVoid = true) :
    stop.wrongReturn?.isSome = true := by
  obtain ⟨⟨s, place⟩, a⟩ := stop
  cases s with
  | returnFrom value span => exact MethodDecl.isSome_wrongReturn? h span
  | _ => cases h

theorem delivered_eq {rules : RuleSet} {stop : Stop}
    (h : stop.site.place.Reached rules stop.state) (value : Option Expr) :
    stop.delivered value = value.map (Expr.typeIn (stop.site.place.view rules)) := by
  have htype : ∀ e, ((typeOf e).run stop.state).1 = e.typeIn (stop.site.place.view rules) := by
    intro e
    rw [typeOf_run]
    exact Expr.typeIn_congr h.alike e
  exact congrArg (Option.map · value) (funext htype)

theorem refusedReturn?_eq {rules : RuleSet} {stop : Stop}
    (h : stop.site.place.Reached rules stop.state) :
    stop.site.refusedReturn? rules = if !stop.passesVoid then stop.wrongReturn? else none := by
  have hdelivered := delivered_eq h
  obtain ⟨⟨s, place⟩, a⟩ := stop
  cases s with
  | returnFrom value span =>
    exact congrArg (place.method.refusedReturn? · span) (hdelivered value).symm
  | _ => exact (ite_self _).symm

end Stop

theorem filterMap_filter_eq_iff {α β : Type} {f : α → Option β} {skip : α → Bool}
    (h : ∀ x, skip x = true → (f x).isSome = true) (xs : List α) :
    (xs.filter fun x => !skip x).filterMap f = xs.filterMap f ↔ ∀ x ∈ xs, skip x = false := by
  constructor
  · intro heq x hx
    by_contra hskip
    rw [Bool.not_eq_false] at hskip
    -- What `x` would contribute is missing on the left, so that the lengths differ.
    have hx' : x ∈ xs.filter fun x => !(!skip x) := List.mem_filter.2 ⟨hx, by simp [hskip]⟩
    have hlength := congrArg List.length heq
    rw [List.length_filterMap_eq_countP, List.length_filterMap_eq_countP,
      List.countP_eq_countP_filter_add xs _ fun x => !skip x] at hlength
    have hzero := List.countP_eq_zero.1 (Nat.left_eq_add.1 hlength) x hx'
    exact hzero (h x hskip)
  · intro hkept
    rw [List.filter_eq_self.2 fun x hx => by rw [hkept x hx]; rfl]

/-- A return statement that is wrong in the method around it is reported once, with the name and the
type of the method and the type that has been found, and no other is reported; but a method without
a result may return a value of type void. -/
theorem returns_analyze (rules : RuleSet) (p : Program) :
    (analyze rules p).filter (fun d => d.defect.isReturn) =
      ((p.stops rules).filter fun stop => !stop.passesVoid).filterMap Stop.wrongReturn? ∧
    ((analyze rules p).filter (fun d => d.defect.isReturn) =
        (p.stops rules).filterMap Stop.wrongReturn? ↔
      ∀ stop ∈ p.stops rules, stop.passesVoid = false) ∧
    (p.stops rules).map Stop.site = p.sites ∧
    ∀ stop ∈ p.stops rules, stop.state.method = some stop.site.place.method.context := by
  have hreported : (analyze rules p).filter (fun d => d.defect.isReturn) =
      ((p.stops rules).filter fun stop => !stop.passesVoid).filterMap Stop.wrongReturn? := by
    rw [filter_analyze_sites (fun defect h => by simp [Defect.isStructural, h]) (fun _ _ => rfl)
      (Site.filter_isReturn_verdict rules), ← p.map_site_stops rules, List.filterMap_map,
      List.filterMap_filter]
    refine List.filterMap_congr fun stop hstop => ?_
    exact Stop.refusedReturn?_eq (p.stops_reached stop hstop)
  refine ⟨hreported, ?_, p.map_site_stops rules,
    fun stop hstop => (p.stops_reached stop hstop).method⟩
  rw [hreported]
  exact filterMap_filter_eq_iff (fun _ => Stop.isSome_wrongReturn?) _

/-- It is accepted although a value is returned where none is to be. -/
theorem returnedVoidCall_passes :
    analyze .standard returnedVoidCall = [] ∧ analyze .legacy returnedVoidCall = [] ∧
    (returnedVoidCall.stops .standard).filterMap Stop.wrongReturn? =
      [.ofSpan (.returnMismatch "main" .void .void) ⟨30, 41, 1⟩] := by
  decide

end Decaf
