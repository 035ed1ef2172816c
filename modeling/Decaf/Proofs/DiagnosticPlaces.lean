import Decaf.Check
import Decaf.Proofs.Lossless
import Decaf.Proofs.NameResolution
import Decaf.Proofs.OperandTexts

namespace Decaf

namespace Defect

/-- The defect, at this node, is reported on the line where the node starts. -/
def onOwnLine : Defect → Node → Bool
  | .missingMainMethod, _ | .invalidArraySize _ _, _ => false
  | .duplicateDeclaration _ _, .method _ | .duplicateDeclaration _ _, .param _ => true
  | .duplicateDeclaration _ _, _ => false
  | _, _ => true

/-- The defect, at a name of this declaration, is reported on the line where the declaration
starts. -/
def onLineOf : Defect → Node → Bool
  | .duplicateDeclaration _ _, .field _ | .duplicateDeclaration _ _, .varDecl _
  | .invalidArraySize _ _, .field _ => true
  | _, _ => false

end Defect

/-- The node whose line is reported for a defect at another one. A location takes the line of the
expression or the assignment around it. -/
inductive Hosts : Defect → Node → Node → Prop
  | self {defect : Defect} {n : Node} : defect.onOwnLine n = true → Hosts defect n n
  | expr {defect : Defect} {place : Location} {span : Span} :
      defect.onOwnLine (.location place) = true →
      Hosts defect (.location place) (.expr (.location place span))
  | assign {defect : Defect} {target : Location} {op : AssignOp} {value : Expr} {span : Span} :
      defect.onOwnLine (.location target) = true →
      Hosts defect (.location target) (.stmt (.assign target op value span))
  | declaration {defect : Defect} {n decl : Node} : n ∈ decl.children →
      defect.onLineOf decl = true → Hosts defect n decl

/-- The diagnostic has the bytes of a node of the tree and the line of one that hosts it. -/
def ShownIn (root : Node) (d : Diagnostic) : Prop :=
  ∃ defect n host, root.Within n ∧ root.Within host ∧ Hosts defect n host ∧
    d = .ofSpan defect (n.span.onLine host.span.line)

def AllShown (root : Node) (ds : List Diagnostic) : Prop := ∀ d ∈ ds, ShownIn root d

section Lists

variable {root : Node} {xs ys : List Diagnostic}

theorem allShown_nil : AllShown root [] := nofun

theorem AllShown.append (hx : AllShown root xs) (hy : AllShown root ys) :
    AllShown root (xs ++ ys) := List.forall_mem_append.2 ⟨hx, hy⟩

theorem shown_self {n : Node} (hn : root.Within n) {defect : Defect}
    (h : defect.onOwnLine n = true) : ShownIn root (.ofSpan defect n.span) :=
  ⟨defect, n, n, hn, hn, .self h, rfl⟩

theorem allShown_one {defect : Defect} {span : Span} (h : ShownIn root (.ofSpan defect span)) :
    AllShown root [.ofSpan defect span] := List.forall_mem_singleton.2 h

theorem allShown_breach (condition : Bool) {defect : Defect} {span : Span}
    (h : ShownIn root (.ofSpan defect span)) : AllShown root (breach condition defect span) := by
  intro d hd
  obtain ⟨-, rfl⟩ := mem_breach_iff.1 hd
  exact h

theorem allShown_frameFindings (frame : Frame) {ds : List Declaration}
    (h : ∀ d ∈ ds, AllShown root d.flaws ∧ ShownIn root
      (.ofSpan (.duplicateDeclaration d.symbol.name d.symbol.type)
        (d.symbol.span.onLine d.line))) : AllShown root (frame.findings ds) := by
  induction ds generalizing frame with
  | nil => exact allShown_nil
  | cons d ds ih =>
    obtain ⟨⟨hflaws, hclash⟩, hds⟩ := List.forall_mem_cons.1 h
    exact (hflaws.append (allShown_breach _ hclash)).append (ih _ hds)

end Lists

section Nodes

variable {root : Node} (v : View)

theorem onOwnLine_of_isNaming {defect : Defect} (h : defect.isNaming = true) (n : Node) :
    defect.onOwnLine n = true := by
  cases defect <;> first | rfl | cases h

theorem allShown_nameFindings (name : String) (target : Bool) {span : Span}
    (h : ∀ defect : Defect, defect.isNaming = true → ShownIn root (.ofSpan defect span)) :
    AllShown root (v.nameFindings name target span) := by
  intro d hd
  rcases View.mem_nameFindings hd with ⟨-, rfl⟩ | ⟨_, -, -, rfl⟩
  · exact h _ rfl
  · exact h _ rfl

theorem allShown_callFindings {name : String} {args : List Expr} {span : Span}
    (h : root.Within (.call (.method name args span))) (found : List Ty) :
    AllShown root (v.callFindings name args found span) := by
  intro d hd
  rcases View.mem_callFindings hd with ⟨-, rfl⟩ |
    ⟨_, -, ⟨-, rfl⟩ | ⟨_, rfl⟩ | ⟨arg, harg, _, _, -, rfl⟩⟩
  · exact shown_self h rfl
  · exact shown_self h rfl
  · exact shown_self h rfl
  · have hwithin : root.Within (.expr arg.1) :=
      .child h (List.mem_map_of_mem (List.of_mem_zip harg).1)
    exact shown_self hwithin rfl

mutual

theorem Expr.allShown_findings : (e : Expr) → root.Within (.expr e) → AllShown root (e.findings v)
  | .location place span, h =>
    place.allShown_findings (.child h (.head _)) span.line false fun _ hnaming =>
      ⟨_, _, _, .child h (.head _), h, .expr (onOwnLine_of_isNaming hnaming _), rfl⟩
  | .call called _, h => called.allShown_findings (.child h (.head _))
  | .int _ _, _ | .char _ _, _ | .bool _ _, _ => allShown_nil
  | .unary _ operand _, h => operand.allShown_findings (.child h (.head _))
  | .binary _ left right _, h =>
    ((left.allShown_findings (.child h (.head _))).append
      (right.allShown_findings (.child h (.tail _ (.head _))))).append
        (allShown_breach _ (shown_self h rfl))
  | .paren inner _, h => inner.allShown_findings (.child h (.head _))

theorem Location.allShown_findings : (place : Location) → root.Within (.location place) →
    (line : Nat) → (target : Bool) →
    (∀ defect : Defect, defect.isNaming = true →
      ShownIn root (.ofSpan defect (place.span.onLine line))) →
    AllShown root (place.findings v line target)
  | .scalar name _, _, _, target, hname => allShown_nameFindings v name target hname
  | .indexed name index span, h, line, target, hname => by
    have hindex : root.Within (.expr index) := .child h (.head _)
    refine ((index.allShown_findings hindex).append
      (allShown_nameFindings v name target hname)).append ?_
    split
    · exact allShown_nil
    · split
      · exact allShown_breach _ (shown_self hindex rfl)
      · exact allShown_one (hname _ rfl)

theorem Call.allShown_findings : (called : Call) → root.Within (.call called) →
    AllShown root (called.findings v)
  | .method _ args _, h =>
    (Expr.allShown_listFindings args fun _ harg => .child h (List.mem_map_of_mem harg)).append
      (allShown_callFindings v h _)
  | .callout _ args _, h =>
    CalloutArg.allShown_listFindings args fun value hvalue =>
      .child h (List.mem_flatMap.2 ⟨.expr value, hvalue, .head _⟩)

theorem Expr.allShown_listFindings : (args : List Expr) →
    (∀ arg ∈ args, root.Within (.expr arg)) → AllShown root (Expr.listFindings v args)
  | [], _ => allShown_nil
  | arg :: args, h => by
    obtain ⟨harg, hargs⟩ := List.forall_mem_cons.1 h
    exact (arg.allShown_findings harg).append (Expr.allShown_listFindings args hargs)

theorem CalloutArg.allShown_listFindings : (args : List CalloutArg) →
    (∀ value, .expr value ∈ args → root.Within (.expr value)) →
    AllShown root (CalloutArg.listFindings v args)
  | [], _ => allShown_nil
  | .expr value :: args, h =>
    (value.allShown_findings (h value (.head _))).append
      (CalloutArg.allShown_listFindings args fun value hvalue => h value (.tail _ hvalue))
  | .string _ :: args, h =>
    CalloutArg.allShown_listFindings args fun value hvalue => h value (.tail _ hvalue)

end

theorem allShown_wanted {e : Expr} (h : root.Within (.expr e)) {ok : Ty → Bool}
    {defect : Ty → Defect} (hdefect : ∀ type, (defect type).onOwnLine (.expr e) = true) :
    AllShown root (v.wantedFindings e ok defect) :=
  (e.allShown_findings v h).append (allShown_breach _ (shown_self h (hdefect _)))

theorem allShown_loopVariable {var : Name} (h : root.Within (.name var)) :
    AllShown root (v.loopVariableFindings var) := by
  refine (allShown_nameFindings v _ _ fun _ hnaming =>
    shown_self h (onOwnLine_of_isNaming hnaming _)).append ?_
  split
  · exact allShown_nil
  · exact allShown_breach _ (shown_self h rfl)

theorem allShown_return {value : Option Expr} {span : Span}
    (h : root.Within (.stmt (.returnFrom value span))) :
    AllShown root (v.returnFindings value span) := by
  refine AllShown.append ?_ ?_
  · cases value with
    | none => exact allShown_nil
    | some e => exact e.allShown_findings v (.child h (.head _))
  · split
    · exact allShown_nil
    · exact allShown_breach _ (shown_self h rfl)

theorem allShown_locals (frame : Frame) {locals : List VarDecl}
    (h : ∀ decl ∈ locals, root.Within (.varDecl decl)) :
    AllShown root (frame.findings (locals.flatMap VarDecl.declarations)) := by
  apply allShown_frameFindings
  intro d hd
  obtain ⟨decl, hdecl, hd⟩ := List.mem_flatMap.1 hd
  obtain ⟨name, hname, rfl⟩ := List.mem_map.1 hd
  have hchild : .name name ∈ (Node.varDecl decl).children := List.mem_map_of_mem hname
  exact ⟨allShown_nil, _, _, _, .child (h decl hdecl) hchild, h decl hdecl,
    .declaration hchild rfl, rfl⟩

end Nodes

mutual

theorem Stmt.allShown_findings {root : Node} (v : View) : (s : Stmt) → root.Within (.stmt s) →
    AllShown root (s.findings v)
  | .assign target _ value span, h =>
    ((target.allShown_findings v (.child h (.head _)) span.line true fun _ hnaming =>
      ⟨_, _, _, .child h (.head _), h, .assign (onOwnLine_of_isNaming hnaming _), rfl⟩).append
        (value.allShown_findings v (.child h (.tail _ (.head _))))).append
          (allShown_breach _ (shown_self h rfl))
  | .call called _, h => called.allShown_findings v (.child h (.head _))
  | .ifThen _ body _, h =>
    (allShown_wanted v (.child h (.head _)) fun _ => rfl).append
      (body.allShown_findings v.entering (.child h (.tail _ (.head _))))
  | .ifElse _ body other _, h =>
    ((allShown_wanted v (.child h (.head _)) fun _ => rfl).append
      (body.allShown_findings v.entering (.child h (.tail _ (.head _))))).append
        (other.allShown_findings v.entering (.child h (.tail _ (.tail _ (.head _)))))
  | .forLoop _ _ _ body _, h =>
    (((allShown_loopVariable v (.child h (.head _))).append
      (allShown_wanted v (.child h (.tail _ (.head _))) fun _ => rfl)).append
        (allShown_wanted v (.child h (.tail _ (.tail _ (.head _)))) fun _ => rfl)).append
          (body.allShown_findings v.looping.entering
            (.child h (.tail _ (.tail _ (.tail _ (.head _))))))
  | .returnFrom _ _, h => allShown_return v h
  | .breakLoop _, h | .continueLoop _, h => allShown_breach _ (shown_self h rfl)
  | .block inner _, h => inner.allShown_findings v.entering (.child h (.head _))

theorem Block.allShown_findings {root : Node} (v : View) : (b : Block) → root.Within (.block b) →
    AllShown root (b.findings v)
  | .mk _ body _, h =>
    (allShown_locals _ fun _ hdecl =>
      .child h (List.mem_append_left _ (List.mem_map_of_mem hdecl))).append
        (Stmt.allShown_listFindings _ body fun _ hs =>
          .child h (List.mem_append_right _ (List.mem_map_of_mem hs)))

theorem Stmt.allShown_listFindings {root : Node} (v : View) : (stmts : List Stmt) →
    (∀ s ∈ stmts, root.Within (.stmt s)) → AllShown root (Stmt.listFindings v stmts)
  | [], _ => allShown_nil
  | s :: stmts, h => by
    obtain ⟨hs, hstmts⟩ := List.forall_mem_cons.1 h
    exact (s.allShown_findings v hs).append (Stmt.allShown_listFindings v stmts hstmts)

end

section Program

variable {root : Node}

theorem allShown_params {params : List Param} (h : ∀ param ∈ params, root.Within (.param param)) :
    AllShown root (Frame.findings [] (params.map Param.declaration)) := by
  apply allShown_frameFindings
  intro d hd
  obtain ⟨param, hparam, rfl⟩ := List.mem_map.1 hd
  exact ⟨allShown_nil, shown_self (h param hparam) rfl⟩

theorem MethodDecl.allShown_findings (v : View) {method : MethodDecl}
    (h : root.Within (.method method)) : AllShown root (method.findings v) := by
  have hname : AllShown root (v.scopes.innermost.findings [method.declaration]) :=
    allShown_frameFindings _
      (List.forall_mem_singleton.2 ⟨allShown_nil, shown_self h rfl⟩)
  have hparams : AllShown root (Frame.findings [] (method.params.map Param.declaration)) :=
    allShown_params fun param hparam =>
      .child h (List.mem_append_left _ (List.mem_map_of_mem hparam))
  exact (hname.append hparams).append
    (method.body.allShown_findings _ (.child h (List.mem_append_right _ (.head _))))

theorem MethodDecl.allShown_listFindings (v : View) {methods : List MethodDecl}
    (h : ∀ method ∈ methods, root.Within (.method method)) :
    AllShown root (listFindings v methods) := by
  induction methods generalizing v with
  | nil => exact allShown_nil
  | cons method methods ih =>
    obtain ⟨hmethod, hmethods⟩ := List.forall_mem_cons.1 h
    exact (MethodDecl.allShown_findings v hmethod).append (ih _ hmethods)

theorem allShown_fields {p : Program} (h : ∀ decl ∈ p.fields, root.Within (.field decl)) :
    AllShown root (Frame.findings [] p.fieldDeclarations) := by
  apply allShown_frameFindings
  intro d hd
  obtain ⟨decl, hdecl, hd⟩ := List.mem_flatMap.1 hd
  obtain ⟨name, hname, rfl⟩ := List.mem_map.1 hd
  have hchild : .fieldName name ∈ (Node.field decl).children := List.mem_map_of_mem hname
  have hshown : ∀ defect : Defect, defect.onLineOf (.field decl) = true →
      ShownIn root (.ofSpan defect (name.span.onLine decl.span.line)) := fun _ hline =>
    ⟨_, _, _, .child (h decl hdecl) hchild, h decl hdecl, .declaration hchild hline, rfl⟩
  refine ⟨?_, hshown _ rfl⟩
  dsimp only [FieldDecl.sizeFindings]
  split
  · exact allShown_nil
  · exact allShown_breach _ (hshown _ rfl)

theorem Program.shown_or_missingMain {rules : RuleSet} {p : Program} {d : Diagnostic}
    (hd : d ∈ p.findings rules) :
    ShownIn (.program p) d ∨ d = .ofLine .missingMainMethod p.endLine := by
  rcases List.mem_append.1 hd with hd | hd
  · left
    refine AllShown.append ?_ ?_ d hd
    · exact allShown_fields fun decl hdecl =>
        .child .root (List.mem_append_left _ (List.mem_map_of_mem hdecl))
    · exact MethodDecl.allShown_listFindings _ fun method hmethod =>
        .child .root (List.mem_append_right _ (List.mem_map_of_mem hmethod))
  · right
    unfold mainFindings at hd
    split at hd
    · cases hd
    · exact List.mem_singleton.1 hd

end Program

/-- In a tree that has been read, the line of a location is that of the node around it, as they
start with the same token. -/
theorem Hosts.line_cases {defect : Defect} {n host : Node} (h : Hosts defect n host)
    {seg : List Token} (hhost : host.Spelled seg) (hseg : InOrder seg) :
    (defect.onOwnLine n = true ∧ host.span.line = n.span.line) ∨
      (n ∈ host.children ∧ defect.onLineOf host = true) := by
  cases h with
  | self hown => exact .inl ⟨hown, rfl⟩
  | expr hown =>
    cases hhost
    exact .inl ⟨hown, rfl⟩
  | assign hown =>
    have hcovers := hhost.covers hseg
    cases hhost with
    | @assign t us vs target value op a b htarget hvalue =>
      have hfront : InOrder (t :: us) := hseg.append_left
      obtain ⟨first, -, hfirst, -, -, -, hline⟩ := placeSpelled_covers htarget hfront
      obtain ⟨first', -, hfirst', -, -, -, hline'⟩ := hcovers
      cases hfirst
      cases hfirst'
      exact .inl ⟨hown, hline'.trans hline.symm⟩
  | declaration hchild hline => exact .inr ⟨hchild, hline⟩

theorem Node.Placed.stop_le {text : String} {ts : List Token} {n : Node} (h : n.Placed text ts)
    (hts : (Lexer.ofText text).lexemes = ts.map .ok) : n.span.stop ≤ text.utf8ByteSize := by
  obtain ⟨before, seg, after, rfl, -, first, last, -, hlast, -, hstop, -⟩ := h.segment
  have hmem : last ∈ before ++ (seg ++ after) :=
    List.mem_append_right _ (List.mem_append_left _ (List.mem_of_getLast? hlast))
  have hlossless := lexemes_lossless text
  rw [hts] at hlossless
  rw [hstop]
  exact hlossless.inside (.ok last) (List.mem_map_of_mem hmem)

/-- The diagnostic is shown at the node, which lies in the text where its tokens do. -/
structure Diagnostic.PinnedTo (d : Diagnostic) (n : Node) (p : Program) (file : SourceFile)
    (ts : List Token) : Prop where
  within : (Node.program p).Within n
  placed : n.Placed file.text ts
  start : d.span.start = n.span.start
  stop : d.span.stop = n.span.stop
  nonempty : d.span.start < d.span.stop
  inside : d.span.stop ≤ file.text.utf8ByteSize
  line : d.defect.onOwnLine n = true ∧ d.line = 1 + feedsBefore file.text d.span.start ∨
    ∃ decl, (Node.program p).Within decl ∧ n ∈ decl.children ∧ d.defect.onLineOf decl = true ∧
      decl.Placed file.text ts ∧ d.line = decl.span.line
  labelled : ∃ heading,
    d.render file = unlines (heading :: Snippet.excerpt file d.span d.message ++ [""])

theorem ShownIn.exists_pinned {p : Program} {d : Diagnostic} (h : ShownIn (.program p) d)
    {file : SourceFile} {ts : List Token}
    (hts : (Lexer.ofText file.text).lexemes = ts.map .ok) (hp : (Node.program p).Spelled ts) :
    ∃ n, d.PinnedTo n p file ts := by
  obtain ⟨defect, n, host, hn, hhost, hhosts, rfl⟩ := h
  have hplaced : ∀ m, (Node.program p).Within m → m.Placed file.text ts := by
    intro m hm
    obtain ⟨before, seg, after, rfl, hspelled⟩ := hm.exists_segment hp
    exact Node.placed_of_spelled hts hspelled
  have hn' := hplaced n hn
  refine ⟨n, hn, hn', rfl, rfl, hn'.nonempty, hn'.stop_le hts, ?_, ?_⟩
  · obtain ⟨before, seg, after, rfl, hspelled⟩ := hhost.exists_segment hp
    have hseg : InOrder seg := (inOrder_of_lexemes hts).1.append_right.append_left
    rcases hhosts.line_cases hspelled hseg with ⟨hown, hline⟩ | ⟨hchild, hline⟩
    · exact .inl ⟨hown, hline.trans hn'.line⟩
    · exact .inr ⟨host, hhost, hchild, hline, hplaced host hhost, rfl⟩
  · have hlt : (n.span.onLine host.span.line).start < (n.span.onLine host.span.line).stop :=
      hn'.nonempty
    exact ⟨_, by rw [Diagnostic.render, Diagnostic.ofSpan, if_pos hlt]⟩

theorem ShownIn.not_missingMain {root : Node} {d : Diagnostic} (h : ShownIn root d) :
    d.defect ≠ .missingMainMethod := by
  obtain ⟨defect, n, host, -, -, hhosts, rfl⟩ := h
  rintro rfl
  cases hhosts <;> contradiction

theorem ShownIn.line_eq {root : Node} {d : Diagnostic} (h : ShownIn root d) :
    d.line = d.span.line := by
  obtain ⟨defect, n, host, -, -, -, rfl⟩ := h
  rfl

theorem exists_parsed_of_check {options : CheckOptions} {file : SourceFile}
    {ds : List Diagnostic} (h : (check options file).result = .ok ds) :
    ∃ p, parseProgram file.text = .ok p ∧ ds = analyze options.rules p := by
  unfold check at h
  cases htokens : Check.tokenNotices options file.text with
  | error e =>
    rw [htokens] at h
    cases h
  | ok notices =>
    rw [htokens] at h
    cases hparse : parseProgram file.text with
    | error e =>
      rw [hparse] at h
      cases h
    | ok p =>
      rw [hparse] at h
      exact ⟨p, rfl, (Except.ok.inj h).symm⟩

/-- All diagnostics of a check are shown where they belong: at the bytes of a node, on the line
where the node or the declaration around it starts, and for a missing main method on the line of
the closing brace of the class. -/
theorem check_diagnostics_pinned {options : CheckOptions} {file : SourceFile}
    {ds : List Diagnostic} (h : (check options file).result = .ok ds) :
    ∃ p ts before close, parseProgram file.text = .ok p ∧
      tokenize file.text = .ok (ts ++ [(Lexer.ofText file.text).eof]) ∧
      ts = before ++ [close] ∧ close.kind = .punct .rbrace ∧
      ∀ d ∈ ds, d.line = d.span.line ∧
        (d.defect = .missingMainMethod ∧ d.span = ⟨0, 0, close.span.line⟩ ∨
          d.defect ≠ .missingMainMethod ∧ ∃ n, d.PinnedTo n p file ts) := by
  obtain ⟨p, hparse, rfl⟩ := exists_parsed_of_check h
  obtain ⟨ts, hts, hp⟩ := parseProgram_eq_ok_iff_spelled.1 hparse
  have hclose : ∃ before close, ts = before ++ [close] ∧ close.kind = .punct .rbrace ∧
      p.endLine = close.span.line := by
    cases hp with
    | @mk us vs fields methods name a b c d hf hm =>
      exact ⟨⟨.keyword .classDecl, a⟩ :: ⟨.identifier name, b⟩ :: ⟨.punct .lbrace, c⟩ ::
        (us ++ vs), ⟨.punct .rbrace, d⟩, by simp, rfl, rfl⟩
  obtain ⟨before, close, hlast, hkind, hend⟩ := hclose
  refine ⟨p, ts, before, close, hparse, tokenize_eq_ok_iff.2 ⟨ts, hts, rfl⟩, hlast, hkind, ?_⟩
  intro d hd
  rw [analyze_eq_findings] at hd
  rcases Program.shown_or_missingMain hd with hshown | rfl
  · exact ⟨hshown.line_eq, .inr ⟨hshown.not_missingMain, hshown.exists_pinned hts hp⟩⟩
  · exact ⟨rfl, .inl ⟨rfl, by rw [← hend]; rfl⟩⟩

theorem check_diagnostics_pinned_second_line :
    let file : SourceFile := ⟨"again.dcf", "class P\x7bint a,\n a;\x7d"⟩
    let clash : Diagnostic := .ofSpan (.duplicateDeclaration "a" .int) ⟨16, 17, 1⟩
    (check ⟨.standard, false, false⟩ file).result = .ok [clash, .ofLine .missingMainMethod 2] ∧
      feedsBefore file.text 16 = 1 ∧ ∃ p ts n, clash.PinnedTo n p file ts := by
  intro file clash
  have hparse : parseProgram "class P\x7bint a,\n a;\x7d" = .ok
      ⟨"P", [⟨.int, [⟨"a", none, ⟨12, 13, 1⟩⟩, ⟨"a", none, ⟨16, 17, 2⟩⟩], ⟨8, 18, 1⟩⟩], [],
        ⟨0, 19, 1⟩, 2⟩ := by
    cbv
  have hcheck : (check ⟨.standard, false, false⟩ file).result =
      .ok [clash, .ofLine .missingMainMethod 2] := by
    unfold check
    rw [hparse]
    rfl
  obtain ⟨p, ts, before, close, -, -, -, -, hpinned⟩ := check_diagnostics_pinned hcheck
  refine ⟨hcheck, by cbv, p, ts, ?_⟩
  rcases (hpinned clash (.head _)).2 with ⟨hmain, -⟩ | ⟨-, hn⟩
  · cases hmain
  · exact hn

end Decaf
