import Decaf.Proofs.DiagnosticPlaces
import Decaf.Proofs.Numeral
import Decaf.Proofs.Session
import Decaf.Proofs.Stops

namespace Decaf

open Analyzer

/-- An array among the fields of a class, with the declaration it belongs to and the text of its
size. -/
structure ArrayField where
  decl : FieldDecl
  field : FieldName
  size : String

namespace ArrayField

/-- An array whose size is no legal one counts as empty. -/
def length (array : ArrayField) : Nat := (ArraySize.read? array.size).getD 0

def symbol (array : ArrayField) : Symbol :=
  ⟨array.field.name, .field, .array array.decl.type array.length, array.field.span⟩

def complaint (array : ArrayField) : Diagnostic :=
  .ofSpan (.invalidArraySize array.field.name array.size)
    (array.field.span.onLine array.decl.span.line)

end ArrayField

namespace Program

/-- The names of fields in the order of the source, each with its declaration. -/
def fieldNames (p : Program) : List (FieldDecl × FieldName) :=
  p.fields.flatMap fun decl => decl.names.map fun field => (decl, field)

def arrays (p : Program) : List ArrayField :=
  p.fieldNames.filterMap fun (decl, field) => field.arraySize.map fun size => ⟨decl, field, size⟩

/-- No field in front of the array has its name. -/
def DeclaresFirst (p : Program) (array : ArrayField) : Prop :=
  p.fieldNames.find? (fun entry => entry.2.name == array.field.name) =
    some (array.decl, array.field)

theorem fieldDeclarations_eq_map (p : Program) :
    p.fieldDeclarations = p.fieldNames.map fun entry =>
      ⟨⟨entry.2.name, .field, entry.1.typeOf entry.2, entry.2.span⟩, entry.1.span.line,
        entry.1.sizeFindings entry.2⟩ := by
  rw [fieldDeclarations, fieldNames, List.map_flatMap]
  refine congrArg p.fields.flatMap (funext fun decl => ?_)
  rw [FieldDecl.declarations, List.map_map]
  rfl

theorem arraySize_of_mem_arrays {p : Program} {array : ArrayField} (h : array ∈ p.arrays) :
    array.field.arraySize = some array.size := by
  obtain ⟨⟨decl, field⟩, -, hsize⟩ := List.mem_filterMap.1 h
  obtain ⟨size, hfield, rfl⟩ := Option.map_eq_some_iff.1 hsize
  exact hfield

end Program

namespace Defect

def isArraySize : Defect → Bool
  | .invalidArraySize _ _ => true
  | _ => false

end Defect

section Sizes

theorem FieldDecl.sizeFindings_eq (decl : FieldDecl) (field : FieldName) :
    decl.sizeFindings field =
      ((field.arraySize.map fun size => ArrayField.mk decl field size).toList.filter fun array =>
        (ArraySize.read? array.size).isNone).map ArrayField.complaint := by
  unfold FieldDecl.sizeFindings
  cases field.arraySize with
  | none => rfl
  | some size =>
    change breach _ _ _ = _
    rw [Option.map_some, Option.toList_some, List.filter_singleton]
    cases ArraySize.read? size <;> rfl

theorem filter_frameFindings (frame : Frame) {ds : List Declaration}
    (h : ∀ d ∈ ds, d.flaws.filter (fun flaw => flaw.defect.isArraySize) = d.flaws) :
    (frame.findings ds).filter (fun d => d.defect.isArraySize) =
      ds.flatMap Declaration.flaws := by
  induction ds generalizing frame with
  | nil => rfl
  | cons d ds ih =>
    obtain ⟨hd, hds⟩ := List.forall_mem_cons.1 h
    rw [Frame.findings, List.filter_append, List.filter_append, hd, filter_breach_of_false rfl,
      List.append_nil, ih _ hds, List.flatMap_cons]

theorem filter_fieldFindings (p : Program) :
    (Frame.findings [] p.fieldDeclarations).filter (fun d => d.defect.isArraySize) =
      (p.arrays.filter fun array => (ArraySize.read? array.size).isNone).map
        ArrayField.complaint := by
  have hflaws : ∀ d ∈ p.fieldDeclarations,
      d.flaws.filter (fun flaw => flaw.defect.isArraySize) = d.flaws := by
    rw [p.fieldDeclarations_eq_map]
    refine List.forall_mem_map.2 fun entry _ => List.filter_eq_self.2 fun flaw hflaw => ?_
    rw [FieldDecl.sizeFindings_eq] at hflaw
    obtain ⟨array, -, rfl⟩ := List.mem_map.1 hflaw
    rfl
  rw [filter_frameFindings [] hflaws, p.fieldDeclarations_eq_map, List.flatMap_map, Program.arrays,
    List.filterMap_eq_flatMap_toList, List.filter_flatMap, List.map_flatMap]
  exact congrArg p.fieldNames.flatMap (funext fun entry => entry.1.sizeFindings_eq entry.2)

end Sizes

namespace Node

def inMethod : Node → Bool
  | program _ | field _ => false
  | _ => true

theorem inMethod_ofCalloutArg (arg : CalloutArg) : (ofCalloutArg arg).all inMethod = true := by
  cases arg <;> rfl

theorem inMethod_children {n : Node} (h : n.inMethod = true) :
    n.children.all inMethod = true := by
  have hmap : ∀ {α : Type} (xs : List α) (f : α → Node), (∀ x, (f x).inMethod = true) →
      (xs.map f).all inMethod = true := by
    intro α xs f hf
    rw [List.all_map]
    exact List.all_eq_true.2 fun x _ => hf x
  cases n with
  | program p | field decl => cases h
  | fieldName f | param p | name n => rfl
  | method decl =>
    rw [children, List.all_append, hmap decl.params param fun _ => rfl]
    rfl
  | block b =>
    rw [children, List.all_append, hmap b.locals varDecl fun _ => rfl,
      hmap b.statements stmt fun _ => rfl]
    rfl
  | varDecl decl => exact hmap decl.names name fun _ => rfl
  | stmt s =>
    cases s with
    | returnFrom value span => exact hmap value.toList expr fun _ => rfl
    | _ => rfl
  | location place => cases place <;> rfl
  | call called =>
    cases called with
    | method name args span => exact hmap args expr fun _ => rfl
    | callout name args span =>
      rw [children, List.all_flatMap]
      exact List.all_eq_true.2 fun arg _ => inMethod_ofCalloutArg arg
  | expr e => cases e <;> rfl

theorem Within.inMethod {root n : Node} (hroot : root.inMethod = true) (h : root.Within n) :
    n.inMethod = true := by
  induction h with
  | root => exact hroot
  | child _ hc ih => exact List.all_eq_true.1 (inMethod_children ih) _ hc

end Node

theorem AllShown.filter_isArraySize {root : Node} (hroot : root.inMethod = true)
    {ds : List Diagnostic} (h : AllShown root ds) :
    ds.filter (fun d => d.defect.isArraySize) = [] := by
  refine List.filter_eq_nil_iff.2 fun d hd hsize => ?_
  obtain ⟨defect, n, host, -, hwithin, hhost, rfl⟩ := h d hd
  change defect.isArraySize = true at hsize
  have hin := hwithin.inMethod hroot
  cases defect with
  | invalidArraySize name size =>
    cases hhost with
    | self hown | expr hown | assign hown => cases hown
    | declaration _ hline =>
      cases host with
      | field decl => cases hin
      | _ => cases hline
  | _ => cases hsize

theorem MethodDecl.filter_isArraySize_listFindings (v : View) (methods : List MethodDecl) :
    (MethodDecl.listFindings v methods).filter (fun d => d.defect.isArraySize) = [] := by
  induction methods generalizing v with
  | nil => rfl
  | cons method methods ih =>
    have hmethod : AllShown (.method method) (method.findings v) :=
      MethodDecl.allShown_findings v .root
    rw [listFindings, List.filter_append, hmethod.filter_isArraySize rfl, ih, List.append_nil]

theorem filter_isArraySize_analyze (rules : RuleSet) (p : Program) :
    (analyze rules p).filter (fun d => d.defect.isArraySize) =
      (p.arrays.filter fun array => (ArraySize.read? array.size).isNone).map
        ArrayField.complaint := by
  have hmain : p.mainFindings.filter (fun d => d.defect.isArraySize) = [] := by
    unfold Program.mainFindings
    split <;> rfl
  rw [analyze_eq_findings, Program.findings, List.filter_append, List.filter_append,
    filter_fieldFindings, MethodDecl.filter_isArraySize_listFindings, hmain, List.append_nil,
    List.append_nil]

/-- The statement stands in a class that has declared `members`, and perhaps others behind them. -/
def Visit.InClass (members : List Declaration) : Visit → Prop
  | declaration _ _ => True
  | statement site => members <+: site.place.members

section Classes

variable {members : List Declaration}

theorem Visit.ofScope_inClass (earlier ds : List Declaration) :
    ∀ visit ∈ ofScope earlier ds, visit.InClass members := by
  induction ds generalizing earlier with
  | nil => exact List.forall_mem_nil _
  | cons d ds ih => exact List.forall_mem_cons.2 ⟨trivial, ih _⟩

mutual

theorem Stmt.visits_inClass {place : Place} (h : members <+: place.members) : (s : Stmt) →
    ∀ visit ∈ s.visits place, visit.InClass members
  | .assign _ _ _ _ | .call _ _ | .returnFrom _ _ | .breakLoop _ | .continueLoop _ =>
    List.forall_mem_singleton.2 h
  | .ifThen condition body span =>
    have hinside : members <+: (place.inside (.ifThen condition body span) body).members := h
    List.forall_mem_cons.2 ⟨h, body.visits_inClass hinside⟩
  | .ifElse condition body other span =>
    have hbody : members <+: (place.inside (.ifElse condition body other span) body).members := h
    have hother : members <+: (place.inside (.ifElse condition body other span) other).members := h
    List.forall_mem_cons.2 ⟨h, List.forall_mem_append.2
      ⟨body.visits_inClass hbody, other.visits_inClass hother⟩⟩
  | .forLoop var first last body span =>
    have hinside : members <+: (place.inside (.forLoop var first last body span) body).members := h
    List.forall_mem_cons.2 ⟨h, body.visits_inClass hinside⟩
  | .block inner span =>
    have hinside : members <+: (place.inside (.block inner span) inner).members := h
    List.forall_mem_cons.2 ⟨h, inner.visits_inClass hinside⟩

theorem Block.visits_inClass {place : Place} (h : members <+: place.members) : (b : Block) →
    ∀ visit ∈ b.visits place, visit.InClass members
  | .mk _ statements _ =>
    List.forall_mem_append.2 ⟨Visit.ofScope_inClass [] _, Stmt.listVisits_inClass h statements⟩

theorem Stmt.listVisits_inClass {place : Place} (h : members <+: place.members) :
    (stmts : List Stmt) → ∀ visit ∈ Stmt.listVisits place stmts, visit.InClass members
  | [] => List.forall_mem_nil _
  | s :: stmts =>
    List.forall_mem_append.2 ⟨s.visits_inClass h, Stmt.listVisits_inClass h stmts⟩

end

theorem MethodDecl.listVisits_inClass {declared : List Declaration} (h : members <+: declared)
    (methods : List MethodDecl) :
    ∀ visit ∈ MethodDecl.listVisits declared methods, visit.InClass members := by
  induction methods generalizing declared with
  | nil => exact List.forall_mem_nil _
  | cons method methods ih =>
    have hnext : members <+: declared ++ [method.declaration] := h.trans (List.prefix_append _ _)
    have hplace : members <+: (Place.mk [] method (declared ++ [method.declaration])).members :=
      hnext
    have hbody := Stmt.listVisits_inClass hplace method.body.statements
    exact List.forall_mem_append.2 ⟨List.forall_mem_cons.2
      ⟨trivial, List.forall_mem_append.2 ⟨Visit.ofScope_inClass [] _, hbody⟩⟩, ih hnext⟩

end Classes

/-- All statements see the fields of the class as its first members. -/
theorem Program.fields_prefix_members {p : Program} {site : Site} (h : site ∈ p.sites) :
    p.fieldDeclarations <+: site.place.members := by
  obtain ⟨visit, hvisit, hsite⟩ := List.mem_filterMap.1 h
  have hinClass : visit.InClass p.fieldDeclarations :=
    List.forall_mem_append.2 ⟨Visit.ofScope_inClass [] _,
      MethodDecl.listVisits_inClass List.prefix_rfl p.methods⟩ visit hvisit
  cases visit with
  | declaration d earlier => cases hsite
  | statement found =>
    cases hsite
    exact hinClass

namespace Place

def localScopes (place : Place) : List (List Declaration) :=
  place.around.map (fun level => level.2.declarations) ++ [place.method.locals]

/-- A name is declared within the method as well. -/
def hides (place : Place) (name : String) : Bool :=
  place.localScopes.any fun ds => ds.any fun d => d.symbol.name == name

theorem lookup_of_not_hides {place : Place} {name : String} (h : place.hides name = false) :
    place.lookup name = Frame.find (place.members.map Declaration.symbol) name := by
  have hscopes : place.scopes = place.localScopes ++ [place.members] := by
    rw [scopes, localScopes, List.append_assoc]
    rfl
  have hlocal : place.localScopes.findSome?
      (fun ds => Frame.find (ds.map Declaration.symbol) name) = none := by
    refine List.findSome?_eq_none_iff.2 fun ds hds => ?_
    have hnone : (ds.any fun d => d.symbol.name == name) = false :=
      Bool.eq_false_iff.2 (List.any_eq_false.1 h ds hds)
    rw [← Frame.find_addAll_nil, ← Option.isNone_iff_eq_none, find_isNone_addAll, hnone]
    rfl
  rw [lookup, hscopes, List.findSome?_append, hlocal, Option.none_or, List.findSome?_singleton]

end Place

section Bindings

variable {p : Program} {array : ArrayField}

/-- An array that is the first field of its name is found among the members of the class, whatever
is declared behind the fields. -/
theorem find_fieldDeclarations (harray : array ∈ p.arrays) (hfirst : p.DeclaresFirst array)
    {members : List Declaration} (hmembers : p.fieldDeclarations <+: members) :
    Frame.find (members.map Declaration.symbol) array.field.name = some array.symbol := by
  obtain ⟨later, rfl⟩ := hmembers
  have htype : array.decl.typeOf array.field = .array array.decl.type array.length := by
    rw [FieldDecl.typeOf, Program.arraySize_of_mem_arrays harray]
    rfl
  let symbolOf (entry : FieldDecl × FieldName) : Symbol :=
    ⟨entry.2.name, .field, entry.1.typeOf entry.2, entry.2.span⟩
  have hsymbol : symbolOf (array.decl, array.field) = array.symbol := by
    simp only [symbolOf, htype, ArrayField.symbol]
  have hfield : Frame.find (p.fieldDeclarations.map Declaration.symbol) array.field.name =
      some array.symbol := by
    rw [Frame.find, p.fieldDeclarations_eq_map, List.map_map, List.find?_map, ← hsymbol]
    exact congrArg (Option.map symbolOf) hfirst
  rw [Frame.find] at hfield
  rw [List.map_append, Frame.find, List.find?_append, hfield, Option.some_or]

end Bindings

/-- Which sizes are legal is said by their value. The analysis complains about exactly the arrays
without a legal size, in the order of the source. An array that is the first field of its name is
bound to the type with its length, or length 0, behind the analysis and at every statement of a
method that does not declare the name itself. -/
theorem array_sizes_analyze (rules : RuleSet) (p : Program) :
    (∀ text n, ArraySize.read? text = some n ↔
      ArraySize.Denotes text.toList n ∧ 1 ≤ n ∧ n ≤ 2147483647) ∧
    (analyze rules p).filter (fun d => d.defect.isArraySize) =
      (p.arrays.filter fun array => (ArraySize.read? array.size).isNone).map
        ArrayField.complaint ∧
    ∀ array ∈ p.arrays, p.DeclaresFirst array →
      ((Analyzer.analyze p).run (.new rules)).2.scopes.resolve array.field.name =
        some array.symbol ∧
      ∀ stop ∈ p.stops rules, stop.site.place.hides array.field.name = false →
        stop.state.scopes.resolve array.field.name = some array.symbol := by
  refine ⟨fun text n => ArraySize.read?_eq_some_iff, filter_isArraySize_analyze rules p, ?_⟩
  intro array harray hfirst
  constructor
  · have hbehind : ((visitProgram p).run (.new rules)).2.scopes.resolve array.field.name =
        Frame.find p.members array.field.name :=
      ((visitProgram_alike p rules).binding _).trans (View.resolve_ofMembers rules _ _)
    rw [← p.map_symbol_declarations] at hbehind
    exact hbehind.trans (find_fieldDeclarations harray hfirst (List.prefix_append _ _))
  · intro stop hstop hseen
    have hsite : stop.site ∈ p.sites := by
      rw [← p.map_site_stops rules]
      exact List.mem_map_of_mem hstop
    rw [(p.stops_reached stop hstop).lookup, Place.lookup_of_not_hides hseen]
    exact find_fieldDeclarations harray hfirst (Program.fields_prefix_members hsite)

theorem array_sizes_analyze_clash :
    let decl : FieldDecl := ⟨.int, [⟨"a", some "0x+5", .zero⟩, ⟨"b", some "-0", .zero⟩], .zero⟩
    let other : FieldDecl := ⟨.boolean, [⟨"a", some "9", .zero⟩], .zero⟩
    let stmt : Stmt := .returnFrom none .zero
    let p : Program :=
      ⟨"P", [decl, other], [⟨"main", none, [⟨"b", .int, .zero⟩], .mk [] [stmt] .zero, .zero⟩],
        .zero, 1⟩
    (analyze .standard p).filter (fun d => d.defect.isArraySize) =
      [.ofSpan (.invalidArraySize "b" "-0") .zero] ∧
    ∃ stop ∈ p.stops .standard,
      stop.state.scopes.resolve "a" = some ⟨"a", .field, .array .int 5, .zero⟩ := by
  intro decl other stmt p
  let array : ArrayField := ⟨decl, ⟨"a", some "0x+5", .zero⟩, "0x+5"⟩
  obtain ⟨-, hsizes, hbound⟩ := array_sizes_analyze .standard p
  have harray : array ∈ p.arrays := .head _
  have hseen := (hbound array harray rfl).2
  have hsymbol : array.symbol = ⟨"a", .field, .array .int 5, .zero⟩ := by decide
  rw [hsymbol] at hseen
  exact ⟨hsizes.trans (by decide), _, .head _, hseen _ (.head _) rfl⟩

end Decaf
