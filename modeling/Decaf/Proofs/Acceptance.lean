import Decaf.Proofs.StmtTyping
import Decaf.Proofs.VoidReturns
import Decaf.Proofs.Walk

namespace Decaf.Typing

theorem params_mirror (params : List Param) :
    Mirrors ((params.map Param.declaration).map Declaration.symbol)
      (params.map fun param => (param.name, .scalar param.type)) := by
  induction params with
  | nil => exact .nil
  | cons param params ih => exact .cons ⟨rfl, .scalar rfl rfl⟩ ih

theorem methods_mirror (methods : List MethodDecl) :
    Mirrors ((methods.map MethodDecl.declaration).map Declaration.symbol)
      (methodsScope methods) := by
  induction methods with
  | nil => exact .nil
  | cons method methods ih => exact .cons ⟨rfl, .method rfl rfl⟩ ih

theorem field_stands (decl : FieldDecl) (name : FieldName) :
    Stands ⟨name.name, .field, decl.typeOf name, name.span⟩ (fieldMeaning decl.type name) := by
  unfold fieldMeaning FieldDecl.typeOf
  cases name.arraySize with
  | none => exact .scalar rfl rfl
  | some size => exact .array rfl rfl

theorem fields_mirror (fields : List FieldDecl) :
    Mirrors ((fields.flatMap FieldDecl.declarations).map Declaration.symbol)
      (fieldScope fields) := by
  induction fields with
  | nil => exact .nil
  | cons decl fields ih =>
    have hone : Mirrors (decl.declarations.map Declaration.symbol)
        (decl.names.map fun name => (name.name, fieldMeaning decl.type name)) := by
      unfold FieldDecl.declarations
      induction decl.names with
      | nil => exact .nil
      | cons name names ih => exact .cons ⟨rfl, field_stands decl name⟩ ih
    simpa [fieldScope] using hone.append ih

def innerFindings (v : View) (method : MethodDecl) : List Diagnostic :=
  Frame.findings [] (method.params.map Param.declaration) ++
    method.body.findings (method.bodyView v)

/-- The names of the methods are checked on the way, but against the same scope as if they all
came first. -/
theorem listFindings_eq_nil_iff (v : View) (methods : List MethodDecl) :
    MethodDecl.listFindings v methods = [] ↔
      v.scopes.innermost.findings (methods.map MethodDecl.declaration) = [] ∧
      ∀ earlier method later, methods = earlier ++ method :: later →
        innerFindings (v.declaring (earlier.map MethodDecl.declaration)) method = [] := by
  induction methods generalizing v with
  | nil => simp [MethodDecl.listFindings, Frame.findings]
  | cons first methods ih =>
    have hnames : v.scopes.innermost.findings ((first :: methods).map MethodDecl.declaration) =
        v.scopes.innermost.findings [first.declaration] ++
          (v.declaring [first.declaration]).scopes.innermost.findings
            (methods.map MethodDecl.declaration) :=
      Frame.findings_append _ [first.declaration] _
    rw [MethodDecl.listFindings, hnames, List.append_eq_nil_iff, List.append_eq_nil_iff, ih,
      MethodDecl.findings, List.append_assoc, List.append_eq_nil_iff]
    constructor
    · rintro ⟨⟨hfirst, hinner⟩, hrest, hall⟩
      refine ⟨⟨hfirst, hrest⟩, ?_⟩
      intro earlier method later heq
      cases earlier with
      | nil =>
        cases heq
        exact hinner
      | cons e earlier =>
        cases heq
        exact hall earlier method later rfl
    · rintro ⟨⟨hfirst, hrest⟩, hall⟩
      refine ⟨⟨hfirst, hall [] first methods rfl⟩, hrest, ?_⟩
      intro earlier method later heq
      exact hall (first :: earlier) method later (by rw [heq]; rfl)

theorem inner_eq_nil_iff {v : View} {scope : Scope} {method : MethodDecl}
    (hrules : v.rules = .standard) (hloop : v.inLoop = false)
    (hframes : List.Forall₂ Mirrors
      ((v.declaring [method.declaration]).scopes.innermost :: v.scopes.outer) [scope]) :
    innerFindings v method = [] ↔ MethodTyped .lax [scope] method := by
  obtain ⟨name, returnType, params, ⟨locals, statements, bodySpan⟩, span⟩ := method
  let method : MethodDecl := ⟨name, returnType, params, .mk locals statements bodySpan, span⟩
  let ds : List Declaration :=
    params.map Param.declaration ++ locals.flatMap VarDecl.declarations
  let inner : View := (method.bodyView v).declaring (locals.flatMap VarDecl.declarations)
  have hmirror : Mirrors (ds.map Declaration.symbol) (methodScope method) := by
    rw [List.map_append]
    exact (params_mirror params).append (locals_mirror locals)
  have hflaws : ∀ d ∈ ds, d.flaws = [] := by
    intro d hd
    rcases List.mem_append.mp hd with hd | hd
    · exact params_flaws params d hd
    · exact locals_flaws locals d hd
  have hsplit : innerFindings v method =
      Frame.findings [] ds ++ Stmt.listFindings inner statements := by
    rw [Frame.findings_append, List.append_assoc]
    rfl
  have hinside : (methodScope method).Distinct →
      Inside returnType (methodScope method :: [scope]) false inner := by
    intro hd
    have hframe : inner.scopes.innermost = Frame.addAll [] ds := (Frame.addAll_append _ _ _).symm
    exact ⟨hrules, .cons (hframe ▸ hmirror.addAll hd) hframes, hloop, name, rfl⟩
  rw [hsplit, List.append_eq_nil_iff, hmirror.findings_iff, and_iff_right hflaws]
  constructor
  · rintro ⟨hd, hs⟩
    exact .mk hd ((stmts_iff (hinside hd) statements).mp hs)
  · intro hm
    cases hm with
    | mk hd hs => exact ⟨hd, (stmts_iff (hinside hd) statements).mpr hs⟩

theorem fields_flaws_iff (fields : List FieldDecl) :
    (∀ d ∈ fields.flatMap FieldDecl.declarations, d.flaws = []) ↔
      ∀ decl ∈ fields, ∀ name ∈ decl.names, ∀ size, name.arraySize = some size →
        ∃ n : Int, ArraySize.Denotes size.toList n ∧ 1 ≤ n ∧ n ≤ 2 ^ 31 - 1 := by
  have hlegal : ∀ size, (ArraySize.read? size).isSome = true ↔
      ∃ n : Int, ArraySize.Denotes size.toList n ∧ 1 ≤ n ∧ n ≤ 2 ^ 31 - 1 := by
    intro size
    rw [Option.isSome_iff_exists]
    constructor
    · rintro ⟨n, hn⟩
      obtain ⟨hd, hl, hu⟩ := ArraySize.read?_eq_some_iff.mp hn
      exact ⟨n, hd, by omega, by omega⟩
    · rintro ⟨n, hd, hl, hu⟩
      obtain ⟨m, rfl⟩ := Int.eq_ofNat_of_zero_le (show 0 ≤ n by omega)
      exact ⟨m, ArraySize.read?_eq_some_iff.mpr ⟨hd, by omega, by omega⟩⟩
  simp only [List.mem_flatMap, FieldDecl.declarations, List.mem_map]
  constructor
  · intro h decl hdecl name hname size hsize
    have hflaw := h _ ⟨decl, hdecl, name, hname, rfl⟩
    simp only [FieldDecl.sizeFindings, hsize, breach_eq_nil_iff] at hflaw
    exact (hlegal size).mp hflaw
  · rintro h _ ⟨decl, hdecl, name, hname, rfl⟩
    cases hsize : name.arraySize with
    | none => simp [FieldDecl.sizeFindings, hsize]
    | some size =>
      simp only [FieldDecl.sizeFindings, hsize, breach_eq_nil_iff]
      exact (hlegal size).mpr (h decl hdecl name hname size hsize)

theorem mainFindings_eq_nil_iff (p : Program) :
    p.mainFindings = [] ↔ ∃ method ∈ p.methods, method.name = "main" := by
  by_cases h : p.methods.any fun m => m.name = "main" <;> simp_all [Program.mainFindings]

def classView (fields : List FieldDecl) (methods : List MethodDecl) : View :=
  (View.mk .standard .root false none).declaring
    (fields.flatMap FieldDecl.declarations ++ methods.map MethodDecl.declaration)

theorem class_mirror (fields : List FieldDecl) (methods : List MethodDecl) :
    Mirrors
      ((fields.flatMap FieldDecl.declarations ++
        methods.map MethodDecl.declaration).map Declaration.symbol)
      (fieldScope fields ++ methodsScope methods) := by
  rw [List.map_append]
  exact (fields_mirror fields).append (methods_mirror methods)

theorem methods_iff {fields : List FieldDecl} {methods : List MethodDecl}
    (hd : (fieldScope fields ++ methodsScope methods).Distinct) :
    (∀ earlier method later, methods = earlier ++ method :: later →
        innerFindings (classView fields earlier) method = []) ↔
      ∀ earlier method later, methods = earlier ++ method :: later →
        MethodTyped .lax [fieldScope fields ++ methodsScope (earlier ++ [method])] method := by
  have hmethod : ∀ earlier method later, methods = earlier ++ method :: later →
      (innerFindings (classView fields earlier) method = [] ↔
        MethodTyped .lax [fieldScope fields ++ methodsScope (earlier ++ [method])] method) := by
    intro earlier method later heq
    have hpart : (fieldScope fields ++ methodsScope (earlier ++ [method])).Distinct := by
      refine hd.sublist (List.Sublist.map _ (List.Sublist.append_left ?_ _))
      subst heq
      exact List.Sublist.map _ (by simp)
    have hframe : ((classView fields earlier).declaring [method.declaration]).scopes.innermost =
        Frame.addAll [] (fields.flatMap FieldDecl.declarations ++
          (earlier ++ [method]).map MethodDecl.declaration) := by
      rw [List.map_append, ← List.append_assoc, Frame.addAll_append]
      rfl
    have hmirror := (class_mirror fields (earlier ++ [method])).addAll hpart
    exact inner_eq_nil_iff rfl rfl (.cons (hframe ▸ hmirror) .nil)
  constructor
  · intro h earlier method later heq
    exact (hmethod earlier method later heq).mp (h earlier method later heq)
  · intro h earlier method later heq
    exact (hmethod earlier method later heq).mpr (h earlier method later heq)

theorem analyze_eq_nil_iff_lax (p : Program) :
    analyze .standard p = [] ↔ ProgramTyped .lax p := by
  have hview : ∀ earlier : List MethodDecl,
      ((View.mk .standard .root false none).declaring p.fieldDeclarations).declaring
        (earlier.map MethodDecl.declaration) = classView p.fields earlier := by
    intro earlier
    simp only [classView, View.declaring, Frame.addAll_append]
    rfl
  have hnames : Frame.findings [] p.fieldDeclarations = [] ∧
      (Frame.addAll [] p.fieldDeclarations).findings (p.methods.map MethodDecl.declaration) = [] ↔
      (∀ d ∈ p.fieldDeclarations, d.flaws = []) ∧
        (fieldScope p.fields ++ methodsScope p.methods).Distinct := by
    rw [← List.append_eq_nil_iff, ← Frame.findings_append]
    refine ((class_mirror p.fields p.methods).findings_iff).trans (and_congr_left fun _ => ?_)
    rw [List.forall_mem_append]
    refine and_iff_left ?_
    intro d hmem
    obtain ⟨method, -, rfl⟩ := List.mem_map.mp hmem
    rfl
  have hfindings : p.findings .standard = [] ↔
      ((∀ d ∈ p.fieldDeclarations, d.flaws = []) ∧
        (fieldScope p.fields ++ methodsScope p.methods).Distinct) ∧
      (∀ earlier method later, p.methods = earlier ++ method :: later →
        innerFindings (classView p.fields earlier) method = []) ∧
      p.mainFindings = [] := by
    rw [Program.findings, List.append_eq_nil_iff, List.append_eq_nil_iff, listFindings_eq_nil_iff,
      ← hnames]
    simp only [hview, and_assoc]
    rfl
  rw [analyze_eq_findings, hfindings, mainFindings_eq_nil_iff]
  constructor
  · rintro ⟨⟨hsizes, hd⟩, hmethods, hmain⟩
    exact .mk hd ((fields_flaws_iff p.fields).mp hsizes) hmain ((methods_iff hd).mp hmethods)
  · intro hp
    cases hp with
    | mk hd hsizes hmain hmethods =>
      exact ⟨⟨(fields_flaws_iff p.fields).mpr hsizes, hd⟩, (methods_iff hd).mpr hmethods, hmain⟩

/-- The well-typed programs are the accepted ones in which no method without result returns a value.
Acceptance is well-typedness where this is no restriction, and nowhere else. -/
theorem programTyped_iff_analyze_eq_nil (p : Program) :
    (ProgramTyped .strict p ↔ analyze .standard p = [] ∧ p.ReturnsBare) ∧
    (analyze .standard p = [] ↔ ProgramTyped .lax p) ∧
    ((analyze .standard p = [] ↔ ProgramTyped .strict p) ↔
      (analyze .standard p = [] → p.ReturnsBare)) := by
  have hstrict : ProgramTyped .strict p ↔ analyze .standard p = [] ∧ p.ReturnsBare := by
    rw [analyze_eq_nil_iff_lax, program_strict_iff]
  refine ⟨hstrict, analyze_eq_nil_iff_lax p, ?_⟩
  rw [hstrict]
  exact iff_comm.trans and_iff_left_iff_imp

theorem returnedVoidCall_accepted :
    analyze .standard returnedVoidCall = [] ∧ ¬ ProgramTyped .strict returnedVoidCall := by
  refine ⟨by decide, fun h => ?_⟩
  have hbare : returnedVoidCall.ReturnsBare := ((program_strict_iff _).mp h).2
  revert hbare
  decide

end Decaf.Typing
