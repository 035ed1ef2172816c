import Decaf.Proofs.Grammar

namespace Decaf

/-- The literal token of a number: hexadecimal if the text starts with `0x`. -/
def integerKind (text : String) : TokenKind :=
  if ['0', 'x'].isPrefixOf text.toList then .hexLiteral text else .intLiteral text

section Lists

variable {α : Type} (kinds : α → List TokenKind)

def commaKinds (x : α) : List TokenKind := .punct .comma :: kinds x

/-- Items with commas between them. -/
def separatedKinds : List α → List TokenKind
  | [] => []
  | x :: xs => kinds x ++ xs.flatMap (commaKinds kinds)

end Lists

mutual

def Expr.kinds : Expr → List TokenKind
  | .location place _ => place.kinds
  | .call called _ => called.kinds
  | .int text _ => [integerKind text]
  | .char text _ => [.charLiteral text]
  | .bool value _ => [.keyword (boolWord value)]
  | .unary op operand _ => .punct op.mark :: operand.kinds
  | .binary op left right _ => left.kinds ++ .punct op.mark :: right.kinds
  | .paren inner _ => .punct .lparen :: (inner.kinds ++ [.punct .rparen])

def Location.kinds : Location → List TokenKind
  | .scalar name _ => [.identifier name]
  | .indexed name index _ =>
    .identifier name :: .punct .lbracket :: (index.kinds ++ [.punct .rbracket])

def Call.kinds : Call → List TokenKind
  | .method name [] _ => [.identifier name, .punct .lparen, .punct .rparen]
  | .method name (first :: others) _ =>
    .identifier name :: .punct .lparen ::
      (first.kinds ++ (Expr.tailKinds others ++ [.punct .rparen]))
  | .callout name args _ =>
    .keyword .callout :: .punct .lparen :: .stringLiteral name ::
      (CalloutArg.tailKinds args ++ [.punct .rparen])

/-- Arguments, each behind a comma. -/
def Expr.tailKinds : List Expr → List TokenKind
  | [] => []
  | arg :: others => .punct .comma :: (arg.kinds ++ Expr.tailKinds others)

def CalloutArg.kinds : CalloutArg → List TokenKind
  | .expr value => value.kinds
  | .string text => [.stringLiteral text]

def CalloutArg.tailKinds : List CalloutArg → List TokenKind
  | [] => []
  | arg :: others => .punct .comma :: (arg.kinds ++ CalloutArg.tailKinds others)

end

theorem Expr.tailKinds_eq (args : List Expr) :
    tailKinds args = args.flatMap (commaKinds kinds) := by
  induction args with
  | nil => rfl
  | cons arg others ih => rw [tailKinds, ih, List.flatMap_cons]; rfl

theorem CalloutArg.tailKinds_eq (args : List CalloutArg) :
    tailKinds args = args.flatMap (commaKinds kinds) := by
  induction args with
  | nil => rfl
  | cons arg others ih => rw [tailKinds, ih, List.flatMap_cons]; rfl

theorem Call.kinds_method (name : String) (args : List Expr) (a : Span) :
    (Call.method name args a).kinds = .identifier name :: .punct .lparen ::
      (separatedKinds Expr.kinds args ++ [.punct .rparen]) := by
  cases args with
  | nil => rfl
  | cons first others => simp [kinds, separatedKinds, Expr.tailKinds_eq]

def Name.kinds (name : Name) : List TokenKind := [.identifier name.text]

def VarDecl.kinds (decl : VarDecl) : List TokenKind :=
  decl.type.kind :: (separatedKinds Name.kinds decl.names ++ [.punct .semi])

mutual

def Stmt.kinds : Stmt → List TokenKind
  | .assign target op value _ =>
    target.kinds ++ .punct op.mark :: (value.kinds ++ [.punct .semi])
  | .call called _ => called.kinds ++ [.punct .semi]
  | .ifThen condition body _ =>
    .keyword .ifStmt :: .punct .lparen :: (condition.kinds ++ .punct .rparen :: body.kinds)
  | .ifElse condition body other _ =>
    .keyword .ifStmt :: .punct .lparen ::
      (condition.kinds ++ .punct .rparen :: (body.kinds ++ .keyword .elseBranch :: other.kinds))
  | .forLoop var first last body _ =>
    .keyword .forStmt :: .identifier var.text :: .punct .eq ::
      (first.kinds ++ .punct .comma :: (last.kinds ++ body.kinds))
  | .returnFrom none _ => [.keyword .returnStmt, .punct .semi]
  | .returnFrom (some value) _ => .keyword .returnStmt :: (value.kinds ++ [.punct .semi])
  | .breakLoop _ => [.keyword .breakStmt, .punct .semi]
  | .continueLoop _ => [.keyword .continueStmt, .punct .semi]
  | .block inner _ => inner.kinds

def Block.kinds : Block → List TokenKind
  | .mk locals body _ =>
    .punct .lbrace :: (locals.flatMap VarDecl.kinds ++ (Stmt.listKinds body ++ [.punct .rbrace]))

def Stmt.listKinds : List Stmt → List TokenKind
  | [] => []
  | stmt :: others => stmt.kinds ++ Stmt.listKinds others

end

theorem Stmt.listKinds_eq (stmts : List Stmt) : listKinds stmts = stmts.flatMap kinds := by
  induction stmts with
  | nil => rfl
  | cons stmt others ih => rw [listKinds, ih, List.flatMap_cons]

def FieldName.kinds : FieldName → List TokenKind
  | ⟨name, none, _⟩ => [.identifier name]
  | ⟨name, some size, _⟩ =>
    [.identifier name, .punct .lbracket, integerKind size, .punct .rbracket]

def FieldDecl.kinds (decl : FieldDecl) : List TokenKind :=
  decl.type.kind :: (separatedKinds FieldName.kinds decl.names ++ [.punct .semi])

def Param.kinds (param : Param) : List TokenKind := [param.type.kind, .identifier param.name]

def MethodDecl.kinds (decl : MethodDecl) : List TokenKind :=
  resultKind decl.returnType :: .identifier decl.name :: .punct .lparen ::
    (separatedKinds Param.kinds decl.params ++ .punct .rparen :: decl.body.kinds)

/-- The kinds of the tokens a program is written with, without the end of the text. -/
def Program.kinds (p : Program) : List TokenKind :=
  .keyword .classDecl :: .identifier p.name :: .punct .lbrace ::
    (p.fields.flatMap FieldDecl.kinds ++ (p.methods.flatMap MethodDecl.kinds ++ [.punct .rbrace]))

mutual

/-- Operands bind as tightly as their operators need without parentheses. -/
def Expr.Canonical : Expr → Prop
  | .location place _ => place.Canonical
  | .call called _ => called.Canonical
  | .int _ _ | .char _ _ | .bool _ _ => True
  | .unary _ operand _ => operand.Canonical ∧ operand.level = 0
  | .binary op left right _ =>
    left.Canonical ∧ left.level ≤ op.level ∧ right.Canonical ∧ right.level < op.level
  | .paren inner _ => inner.Canonical

def Location.Canonical : Location → Prop
  | .scalar _ _ => True
  | .indexed _ index _ => index.Canonical

def Call.Canonical : Call → Prop
  | .method _ args _ => Expr.AllCanonical args
  | .callout _ args _ => CalloutArg.AllCanonical args

def Expr.AllCanonical : List Expr → Prop
  | [] => True
  | arg :: others => arg.Canonical ∧ Expr.AllCanonical others

def CalloutArg.Canonical : CalloutArg → Prop
  | .expr value => value.Canonical
  | .string _ => True

def CalloutArg.AllCanonical : List CalloutArg → Prop
  | [] => True
  | arg :: others => arg.Canonical ∧ CalloutArg.AllCanonical others

end

theorem Expr.allCanonical_iff (args : List Expr) :
    AllCanonical args ↔ ∀ arg ∈ args, arg.Canonical := by
  induction args with
  | nil => simp [AllCanonical]
  | cons arg others ih => simp [AllCanonical, ih]

theorem CalloutArg.allCanonical_iff (args : List CalloutArg) :
    AllCanonical args ↔ ∀ arg ∈ args, arg.Canonical := by
  induction args with
  | nil => simp [AllCanonical]
  | cons arg others ih => simp [AllCanonical, ih]

/-- A declaration has a name. -/
def VarDecl.Canonical (decl : VarDecl) : Prop := decl.names ≠ []

mutual

def Stmt.Canonical : Stmt → Prop
  | .assign target _ value _ => target.Canonical ∧ value.Canonical
  | .call called _ => called.Canonical
  | .ifThen condition body _ => condition.Canonical ∧ body.Canonical
  | .ifElse condition body other _ => condition.Canonical ∧ body.Canonical ∧ other.Canonical
  | .forLoop _ first last body _ => first.Canonical ∧ last.Canonical ∧ body.Canonical
  | .returnFrom none _ => True
  | .returnFrom (some value) _ => value.Canonical
  | .breakLoop _ | .continueLoop _ => True
  | .block inner _ => inner.Canonical

def Block.Canonical : Block → Prop
  | .mk locals body _ => (∀ decl ∈ locals, decl.Canonical) ∧ Stmt.AllCanonical body

def Stmt.AllCanonical : List Stmt → Prop
  | [] => True
  | stmt :: others => stmt.Canonical ∧ Stmt.AllCanonical others

end

theorem Stmt.allCanonical_iff (stmts : List Stmt) :
    AllCanonical stmts ↔ ∀ stmt ∈ stmts, stmt.Canonical := by
  induction stmts with
  | nil => simp [AllCanonical]
  | cons stmt others ih => simp [AllCanonical, ih]

def FieldDecl.Canonical (decl : FieldDecl) : Prop := decl.names ≠ []

/-- Trees of the grammar: every declaration has a name, and every operand needs no parentheses
beyond those the tree has. -/
def Program.Canonical (p : Program) : Prop :=
  (∀ decl ∈ p.fields, decl.Canonical) ∧ ∀ decl ∈ p.methods, decl.body.Canonical

mutual

/-- The tree with all spans set to zero. -/
def Expr.bare : Expr → Expr
  | .location place _ => .location place.bare .zero
  | .call called _ => .call called.bare .zero
  | .int text _ => .int text .zero
  | .char text _ => .char text .zero
  | .bool value _ => .bool value .zero
  | .unary op operand _ => .unary op operand.bare .zero
  | .binary op left right _ => .binary op left.bare right.bare .zero
  | .paren inner _ => .paren inner.bare .zero

def Location.bare : Location → Location
  | .scalar name _ => .scalar name .zero
  | .indexed name index _ => .indexed name index.bare .zero

def Call.bare : Call → Call
  | .method name args _ => .method name (Expr.bareList args) .zero
  | .callout name args _ => .callout name (CalloutArg.bareList args) .zero

def Expr.bareList : List Expr → List Expr
  | [] => []
  | arg :: others => arg.bare :: Expr.bareList others

def CalloutArg.bare : CalloutArg → CalloutArg
  | .expr value => .expr value.bare
  | .string text => .string text

def CalloutArg.bareList : List CalloutArg → List CalloutArg
  | [] => []
  | arg :: others => arg.bare :: CalloutArg.bareList others

end

theorem Expr.bareList_eq (args : List Expr) : bareList args = args.map bare := by
  induction args with
  | nil => rfl
  | cons arg others ih => rw [bareList, ih, List.map_cons]

theorem CalloutArg.bareList_eq (args : List CalloutArg) : bareList args = args.map bare := by
  induction args with
  | nil => rfl
  | cons arg others ih => rw [bareList, ih, List.map_cons]

def Name.bare (name : Name) : Name := ⟨name.text, .zero⟩

def VarDecl.bare (decl : VarDecl) : VarDecl := ⟨decl.type, decl.names.map Name.bare, .zero⟩

mutual

def Stmt.bare : Stmt → Stmt
  | .assign target op value _ => .assign target.bare op value.bare .zero
  | .call called _ => .call called.bare .zero
  | .ifThen condition body _ => .ifThen condition.bare body.bare .zero
  | .ifElse condition body other _ => .ifElse condition.bare body.bare other.bare .zero
  | .forLoop var first last body _ => .forLoop var.bare first.bare last.bare body.bare .zero
  | .returnFrom none _ => .returnFrom none .zero
  | .returnFrom (some value) _ => .returnFrom (some value.bare) .zero
  | .breakLoop _ => .breakLoop .zero
  | .continueLoop _ => .continueLoop .zero
  | .block inner _ => .block inner.bare .zero

def Block.bare : Block → Block
  | .mk locals body _ => .mk (locals.map VarDecl.bare) (Stmt.bareList body) .zero

def Stmt.bareList : List Stmt → List Stmt
  | [] => []
  | stmt :: others => stmt.bare :: Stmt.bareList others

end

theorem Stmt.bareList_eq (stmts : List Stmt) : bareList stmts = stmts.map bare := by
  induction stmts with
  | nil => rfl
  | cons stmt others ih => rw [bareList, ih, List.map_cons]

def FieldName.bare (field : FieldName) : FieldName := ⟨field.name, field.arraySize, .zero⟩

def FieldDecl.bare (decl : FieldDecl) : FieldDecl :=
  ⟨decl.type, decl.names.map FieldName.bare, .zero⟩

def Param.bare (param : Param) : Param := ⟨param.name, param.type, .zero⟩

def MethodDecl.bare (decl : MethodDecl) : MethodDecl :=
  ⟨decl.name, decl.returnType, decl.params.map Param.bare, decl.body.bare, .zero⟩

/-- The program with all spans set to zero, and on no line. -/
def Program.bare (p : Program) : Program :=
  ⟨p.name, p.fields.map FieldDecl.bare, p.methods.map MethodDecl.bare, .zero, 0⟩

theorem Expr.level_bare (e : Expr) : e.bare.level = e.level := by
  cases e <;> rfl

mutual

theorem Expr.kinds_bare : (e : Expr) → e.bare.kinds = e.kinds
  | .location place _ => by rw [Expr.bare, Expr.kinds, Expr.kinds, place.kinds_bare]
  | .call called _ => by rw [Expr.bare, Expr.kinds, Expr.kinds, called.kinds_bare]
  | .int _ _ | .char _ _ | .bool _ _ => rfl
  | .unary op operand _ => by rw [Expr.bare, Expr.kinds, Expr.kinds, operand.kinds_bare]
  | .binary op left right _ => by
    rw [Expr.bare, Expr.kinds, Expr.kinds, left.kinds_bare, right.kinds_bare]
  | .paren inner _ => by rw [Expr.bare, Expr.kinds, Expr.kinds, inner.kinds_bare]

theorem Location.kinds_bare : (place : Location) → place.bare.kinds = place.kinds
  | .scalar _ _ => rfl
  | .indexed _ index _ => by rw [Location.bare, Location.kinds, Location.kinds, index.kinds_bare]

theorem Call.kinds_bare : (called : Call) → called.bare.kinds = called.kinds
  | .method _ [] _ => rfl
  | .method _ (first :: others) _ => by
    rw [Call.bare, Expr.bareList, Call.kinds, Call.kinds, first.kinds_bare,
      Expr.tailKinds_bare others]
  | .callout _ args _ => by rw [Call.bare, Call.kinds, Call.kinds, CalloutArg.tailKinds_bare args]

theorem Expr.tailKinds_bare : (args : List Expr) →
    Expr.tailKinds (Expr.bareList args) = Expr.tailKinds args
  | [] => rfl
  | arg :: others => by
    rw [Expr.bareList, Expr.tailKinds, Expr.tailKinds, arg.kinds_bare, Expr.tailKinds_bare others]

theorem CalloutArg.kinds_bare : (arg : CalloutArg) → arg.bare.kinds = arg.kinds
  | .expr value => by rw [CalloutArg.bare, CalloutArg.kinds, CalloutArg.kinds, value.kinds_bare]
  | .string _ => rfl

theorem CalloutArg.tailKinds_bare : (args : List CalloutArg) →
    CalloutArg.tailKinds (CalloutArg.bareList args) = CalloutArg.tailKinds args
  | [] => rfl
  | arg :: others => by
    rw [CalloutArg.bareList, CalloutArg.tailKinds, CalloutArg.tailKinds, arg.kinds_bare,
      CalloutArg.tailKinds_bare others]

end

mutual

theorem Expr.canonical_bare : (e : Expr) → (e.bare.Canonical ↔ e.Canonical)
  | .location place _ => place.canonical_bare
  | .call called _ => called.canonical_bare
  | .int _ _ | .char _ _ | .bool _ _ => Iff.rfl
  | .unary op operand _ => by
    rw [Expr.bare, Expr.Canonical, Expr.Canonical, operand.canonical_bare, Expr.level_bare]
  | .binary op left right _ => by
    rw [Expr.bare, Expr.Canonical, Expr.Canonical, left.canonical_bare, right.canonical_bare,
      Expr.level_bare, Expr.level_bare]
  | .paren inner _ => inner.canonical_bare

theorem Location.canonical_bare : (place : Location) → (place.bare.Canonical ↔ place.Canonical)
  | .scalar _ _ => Iff.rfl
  | .indexed _ index _ => index.canonical_bare

theorem Call.canonical_bare : (called : Call) → (called.bare.Canonical ↔ called.Canonical)
  | .method _ args _ => Expr.allCanonical_bare args
  | .callout _ args _ => CalloutArg.allCanonical_bare args

theorem Expr.allCanonical_bare : (args : List Expr) →
    (Expr.AllCanonical (Expr.bareList args) ↔ Expr.AllCanonical args)
  | [] => Iff.rfl
  | arg :: others => and_congr arg.canonical_bare (Expr.allCanonical_bare others)

theorem CalloutArg.canonical_bare : (arg : CalloutArg) → (arg.bare.Canonical ↔ arg.Canonical)
  | .expr value => value.canonical_bare
  | .string _ => Iff.rfl

theorem CalloutArg.allCanonical_bare : (args : List CalloutArg) →
    (CalloutArg.AllCanonical (CalloutArg.bareList args) ↔ CalloutArg.AllCanonical args)
  | [] => Iff.rfl
  | arg :: others => and_congr arg.canonical_bare (CalloutArg.allCanonical_bare others)

end

theorem flatMap_map_bare {α : Type} {bare : α → α} {kinds : α → List TokenKind}
    (h : ∀ x, kinds (bare x) = kinds x) (xs : List α) :
    (xs.map bare).flatMap kinds = xs.flatMap kinds := by
  rw [List.flatMap_map]
  exact congrArg (fun f => xs.flatMap f) (funext h)

theorem separatedKinds_map_bare {α : Type} {bare : α → α} {kinds : α → List TokenKind}
    (h : ∀ x, kinds (bare x) = kinds x) (xs : List α) :
    separatedKinds kinds (xs.map bare) = separatedKinds kinds xs := by
  cases xs with
  | nil => rfl
  | cons x xs =>
    have htail : ∀ y, commaKinds kinds (bare y) = commaKinds kinds y :=
      fun y => congrArg (_ :: ·) (h y)
    rw [List.map_cons, separatedKinds, separatedKinds, h, flatMap_map_bare htail]

theorem VarDecl.kinds_bare (decl : VarDecl) : decl.bare.kinds = decl.kinds := by
  have h : ∀ name : Name, name.bare.kinds = name.kinds := fun _ => rfl
  rw [kinds, bare, separatedKinds_map_bare h, kinds]

theorem VarDecl.canonical_bare (decl : VarDecl) : decl.bare.Canonical ↔ decl.Canonical := by
  simp [Canonical, bare]

mutual

theorem Stmt.kinds_bare : (stmt : Stmt) → stmt.bare.kinds = stmt.kinds
  | .assign target op value _ => by
    rw [Stmt.bare, Stmt.kinds, Stmt.kinds, target.kinds_bare, value.kinds_bare]
  | .call called _ => by rw [Stmt.bare, Stmt.kinds, Stmt.kinds, called.kinds_bare]
  | .ifThen condition body _ => by
    rw [Stmt.bare, Stmt.kinds, Stmt.kinds, condition.kinds_bare, body.kinds_bare]
  | .ifElse condition body other _ => by
    rw [Stmt.bare, Stmt.kinds, Stmt.kinds, condition.kinds_bare, body.kinds_bare, other.kinds_bare]
  | .forLoop var first last body _ => by
    rw [Stmt.bare, Stmt.kinds, Stmt.kinds, first.kinds_bare, last.kinds_bare, body.kinds_bare,
      Name.bare]
  | .returnFrom none _ | .breakLoop _ | .continueLoop _ => rfl
  | .returnFrom (some value) _ => by rw [Stmt.bare, Stmt.kinds, Stmt.kinds, value.kinds_bare]
  | .block inner _ => by rw [Stmt.bare, Stmt.kinds, Stmt.kinds, inner.kinds_bare]

theorem Block.kinds_bare : (b : Block) → b.bare.kinds = b.kinds
  | .mk locals body _ => by
    rw [Block.bare, Block.kinds, Block.kinds, flatMap_map_bare VarDecl.kinds_bare,
      Stmt.listKinds_bare body]

theorem Stmt.listKinds_bare : (stmts : List Stmt) →
    Stmt.listKinds (Stmt.bareList stmts) = Stmt.listKinds stmts
  | [] => rfl
  | stmt :: others => by
    rw [Stmt.bareList, Stmt.listKinds, Stmt.listKinds, stmt.kinds_bare, Stmt.listKinds_bare others]

end

mutual

theorem Stmt.canonical_bare : (stmt : Stmt) → (stmt.bare.Canonical ↔ stmt.Canonical)
  | .assign target _ value _ => and_congr target.canonical_bare value.canonical_bare
  | .call called _ => called.canonical_bare
  | .ifThen condition body _ => and_congr condition.canonical_bare body.canonical_bare
  | .ifElse condition body other _ =>
    and_congr condition.canonical_bare (and_congr body.canonical_bare other.canonical_bare)
  | .forLoop _ first last body _ =>
    and_congr first.canonical_bare (and_congr last.canonical_bare body.canonical_bare)
  | .returnFrom none _ | .breakLoop _ | .continueLoop _ => Iff.rfl
  | .returnFrom (some value) _ => value.canonical_bare
  | .block inner _ => inner.canonical_bare

theorem Block.canonical_bare : (b : Block) → (b.bare.Canonical ↔ b.Canonical)
  | .mk locals body _ => by
    rw [Block.bare, Block.Canonical, Block.Canonical, Stmt.allCanonical_bare body]
    simp [VarDecl.canonical_bare]

theorem Stmt.allCanonical_bare : (stmts : List Stmt) →
    (Stmt.AllCanonical (Stmt.bareList stmts) ↔ Stmt.AllCanonical stmts)
  | [] => Iff.rfl
  | stmt :: others => and_congr stmt.canonical_bare (Stmt.allCanonical_bare others)

end

theorem FieldName.kinds_bare (field : FieldName) : field.bare.kinds = field.kinds := by
  obtain ⟨name, _ | size, a⟩ := field <;> rfl

theorem FieldDecl.kinds_bare (decl : FieldDecl) : decl.bare.kinds = decl.kinds := by
  rw [kinds, bare, separatedKinds_map_bare FieldName.kinds_bare, kinds]

theorem MethodDecl.kinds_bare (decl : MethodDecl) : decl.bare.kinds = decl.kinds := by
  have h : ∀ param : Param, param.bare.kinds = param.kinds := fun _ => rfl
  rw [kinds, bare, separatedKinds_map_bare h, decl.body.kinds_bare, kinds]

theorem Program.kinds_bare (p : Program) : p.bare.kinds = p.kinds := by
  rw [kinds, bare, flatMap_map_bare FieldDecl.kinds_bare, flatMap_map_bare MethodDecl.kinds_bare,
    kinds]

theorem Program.canonical_bare (p : Program) : p.bare.Canonical ↔ p.Canonical := by
  simp [Canonical, bare, FieldDecl.Canonical, FieldDecl.bare, MethodDecl.bare,
    Block.canonical_bare]

theorem eof_notMem_separatedKinds {α : Type} {kinds : α → List TokenKind} {xs : List α}
    (h : ∀ x ∈ xs, .eof ∉ kinds x) : .eof ∉ separatedKinds kinds xs := by
  cases xs with
  | nil => exact List.not_mem_nil
  | cons x xs => simp_all [separatedKinds, commaKinds]

theorem eof_ne_integerKind (text : String) : .eof ≠ integerKind text := by
  unfold integerKind
  split <;> nofun

theorem ScalarType.eof_ne_kind (type : ScalarType) : .eof ≠ type.kind := by
  cases type <;> nofun

mutual

theorem Expr.eof_notMem_kinds : (e : Expr) → .eof ∉ e.kinds
  | .location place _ => place.eof_notMem_kinds
  | .call called _ => called.eof_notMem_kinds
  | .int text _ => by simp [Expr.kinds, eof_ne_integerKind]
  | .char _ _ => by simp [Expr.kinds]
  | .bool _ _ => by simp [Expr.kinds]
  | .unary _ operand _ => by simp [Expr.kinds, operand.eof_notMem_kinds]
  | .binary _ left right _ => by
    simp [Expr.kinds, left.eof_notMem_kinds, right.eof_notMem_kinds]
  | .paren inner _ => by simp [Expr.kinds, inner.eof_notMem_kinds]

theorem Location.eof_notMem_kinds : (place : Location) → .eof ∉ place.kinds
  | .scalar _ _ => by simp [Location.kinds]
  | .indexed _ index _ => by simp [Location.kinds, index.eof_notMem_kinds]

theorem Call.eof_notMem_kinds : (called : Call) → .eof ∉ called.kinds
  | .method _ [] _ => by simp [Call.kinds]
  | .method _ (first :: others) _ => by
    simp [Call.kinds, first.eof_notMem_kinds, Expr.eof_notMem_tailKinds others]
  | .callout _ args _ => by simp [Call.kinds, CalloutArg.eof_notMem_tailKinds args]

theorem Expr.eof_notMem_tailKinds : (args : List Expr) → .eof ∉ Expr.tailKinds args
  | [] => List.not_mem_nil
  | arg :: others => by
    simp [Expr.tailKinds, arg.eof_notMem_kinds, Expr.eof_notMem_tailKinds others]

theorem CalloutArg.eof_notMem_kinds : (arg : CalloutArg) → .eof ∉ arg.kinds
  | .expr value => value.eof_notMem_kinds
  | .string _ => by simp [CalloutArg.kinds]

theorem CalloutArg.eof_notMem_tailKinds :
    (args : List CalloutArg) → .eof ∉ CalloutArg.tailKinds args
  | [] => List.not_mem_nil
  | arg :: others => by
    simp [CalloutArg.tailKinds, arg.eof_notMem_kinds, CalloutArg.eof_notMem_tailKinds others]

end

theorem VarDecl.eof_notMem_kinds (decl : VarDecl) : .eof ∉ decl.kinds := by
  have hnames : TokenKind.eof ∉ separatedKinds Name.kinds decl.names :=
    eof_notMem_separatedKinds fun name _ => by simp [Name.kinds]
  simp [kinds, hnames, ScalarType.eof_ne_kind]

mutual

theorem Stmt.eof_notMem_kinds : (stmt : Stmt) → .eof ∉ stmt.kinds
  | .assign target _ value _ => by
    simp [Stmt.kinds, target.eof_notMem_kinds, value.eof_notMem_kinds]
  | .call called _ => by simp [Stmt.kinds, called.eof_notMem_kinds]
  | .ifThen condition body _ => by
    simp [Stmt.kinds, condition.eof_notMem_kinds, body.eof_notMem_kinds]
  | .ifElse condition body other _ => by
    simp [Stmt.kinds, condition.eof_notMem_kinds, body.eof_notMem_kinds, other.eof_notMem_kinds]
  | .forLoop _ first last body _ => by
    simp [Stmt.kinds, first.eof_notMem_kinds, last.eof_notMem_kinds, body.eof_notMem_kinds]
  | .returnFrom none _ | .breakLoop _ | .continueLoop _ => by simp [Stmt.kinds]
  | .returnFrom (some value) _ => by simp [Stmt.kinds, value.eof_notMem_kinds]
  | .block inner _ => inner.eof_notMem_kinds

theorem Block.eof_notMem_kinds : (b : Block) → .eof ∉ b.kinds
  | .mk locals body _ => by
    simp [Block.kinds, VarDecl.eof_notMem_kinds, Stmt.eof_notMem_listKinds body]

theorem Stmt.eof_notMem_listKinds : (stmts : List Stmt) → .eof ∉ Stmt.listKinds stmts
  | [] => List.not_mem_nil
  | stmt :: others => by
    simp [Stmt.listKinds, stmt.eof_notMem_kinds, Stmt.eof_notMem_listKinds others]

end

theorem FieldName.eof_notMem_kinds (field : FieldName) : .eof ∉ field.kinds := by
  obtain ⟨name, _ | size, a⟩ := field
  · simp [kinds]
  · simp [kinds, eof_ne_integerKind]

theorem FieldDecl.eof_notMem_kinds (decl : FieldDecl) : .eof ∉ decl.kinds := by
  have hnames : TokenKind.eof ∉ separatedKinds FieldName.kinds decl.names :=
    eof_notMem_separatedKinds fun field _ => field.eof_notMem_kinds
  simp [kinds, hnames, ScalarType.eof_ne_kind]

theorem MethodDecl.eof_notMem_kinds (decl : MethodDecl) : .eof ∉ decl.kinds := by
  have hparams : TokenKind.eof ∉ separatedKinds Param.kinds decl.params :=
    eof_notMem_separatedKinds fun param _ => by simp [Param.kinds, ScalarType.eof_ne_kind]
  have hresult : TokenKind.eof ≠ resultKind decl.returnType := by
    cases decl.returnType with
    | none => nofun
    | some type => exact type.eof_ne_kind
  simp [kinds, hparams, hresult, decl.body.eof_notMem_kinds]

theorem Program.eof_notMem_kinds (p : Program) : .eof ∉ p.kinds := by
  simp [kinds, FieldDecl.eof_notMem_kinds, MethodDecl.eof_notMem_kinds]

end Decaf
