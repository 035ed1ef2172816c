import Decaf.Parser.Stmt

namespace Decaf

namespace Parser

def fieldName (name : Name) (s : TokenStream) : Reply FieldName (s.size + 1) :=
  if s.kind = .punct .lbracket then
    .lax <| (s.punct .lbracket).andThen fun _ s₁ _ =>
    s₁.arraySize.lax.andThen fun size s₂ _ =>
    (s₂.punct .rbracket).lax.andThen fun stop s₃ _ =>
    .done ⟨name.text, some size, name.span.merge stop⟩ s₃
  else
    .done ⟨name.text, none, name.span⟩ s

def moreFieldNames (s : TokenStream) : Reply (List FieldName) (s.size + 1) :=
  if s.kind = .punct .comma then
    .lax <| (s.punct .comma).andThen fun _ s₁ _ =>
    s₁.identifier.lax.andThen fun name s₂ _ =>
    (fieldName name s₂).andThen fun first s₃ _ =>
    (moreFieldNames s₃).andThen fun others s₄ _ =>
    .done (first :: others) s₄
  else
    .done [] s
termination_by s.size

def fieldRest (start : Span) (type : ScalarType) (name : Name) (s : TokenStream) :
    Reply FieldDecl s.size :=
  (fieldName name s).andThenRead fun first s₁ _ =>
  (moreFieldNames s₁).andThenRead fun others s₂ _ =>
  (s₂.punct .semi).map fun stop => ⟨type, first :: others, start.merge stop⟩

def param (s : TokenStream) : Reply Param s.size :=
  s.typeName.andThen fun type s₁ _ =>
  s₁.identifier.lax.andThen fun name s₂ _ =>
  .done ⟨name.text, type, s.span.merge name.span⟩ s₂

def moreParams (s : TokenStream) : Reply (List Param) (s.size + 1) :=
  if s.kind = .punct .comma then
    .lax <| (s.punct .comma).andThen fun _ s₁ _ =>
    (param s₁).lax.andThen fun first s₂ _ =>
    (moreParams s₂).andThen fun others s₃ _ =>
    .done (first :: others) s₃
  else
    .done [] s
termination_by s.size

def params (s : TokenStream) : Reply (List Param) (s.size + 1) :=
  if s.kind = .punct .rparen then .done [] s
  else
    .lax <| (param s).andThen fun first s₁ _ =>
    (moreParams s₁).andThen fun others s₂ _ =>
    .done (first :: others) s₂

def methodRest (start : Span) (returnType : Option ScalarType) (name : Name) (s : TokenStream) :
    Reply MethodDecl s.size :=
  (s.punct .lparen).andThen fun _ s₁ _ =>
  (params s₁).andThen fun params s₂ _ =>
  (s₂.punct .rparen).lax.andThen fun _ s₃ _ =>
  (block s₃).lax.andThen fun body s₄ _ =>
  .done ⟨name.text, returnType, params, body, start.merge body.span⟩ s₄

def memberType (s : TokenStream) : Reply (Option ScalarType) s.size :=
  if s.kind = .keyword .void then (s.keyword .void).map fun _ => none
  else s.typeName.map some

structure Members where
  fields : List FieldDecl
  methods : List MethodDecl

/-- Members up to the closing brace or the end of the text. What comes behind its name tells a
method from a field; a field needs a type and may not follow a method. -/
def members (afterMethod : Bool) (s : TokenStream) : Reply Members (s.size + 1) :=
  if s.kind = .punct .rbrace ∨ s.kind = .eof then .done ⟨[], []⟩ s
  else
    .lax <| (memberType s).andThen fun type s₁ _ =>
    s₁.identifier.lax.andThen fun name s₂ _ =>
    if s₂.kind = .punct .lparen then
      (methodRest s.span type name s₂).lax.andThen fun decl s₃ _ =>
      (members true s₃).andThen fun others s₄ _ =>
      .done ⟨others.fields, decl :: others.methods⟩ s₄
    else
      match type with
      | none => .fail (.grammar (.voidField name.text) s.span) s₂
      | some type =>
        if afterMethod then .fail (.grammar .fieldAfterMethod s.span) s₂
        else
          (fieldRest s.span type name s₂).lax.andThen fun decl s₃ _ =>
          (members false s₃).andThen fun others s₄ _ =>
          .done ⟨decl :: others.fields, others.methods⟩ s₄
termination_by s.size

def program (s : TokenStream) : Reply Program s.size :=
  (s.keyword .classDecl).andThen fun start s₁ _ =>
  s₁.identifier.lax.andThen fun name s₂ _ =>
  (s₂.punct .lbrace).lax.andThen fun _ s₃ _ =>
  (members false s₃).andThen fun found s₄ _ =>
  (s₄.punct .rbrace).lax.andThen fun stop s₅ _ =>
  if s₅.kind = .eof then
    .done ⟨name.text, found.fields, found.methods, start.merge stop, stop.line⟩ s₅
  else
    s₅.reject .endOfFile

end Parser

/-- One attempt to read a program, and the stream that is left for the next one. -/
def TokenStream.parse (s : TokenStream) : Except ParseError Program × TokenStream :=
  match Parser.program s with
  | .ok program next _ => (.ok program, next)
  | .fail error next => (.error error, next)

def TokenStream.parseTimes (s : TokenStream) : Nat → List (Except ParseError Program)
  | 0 => []
  | count + 1 => s.parse.1 :: s.parse.2.parseTimes count

def parseProgram (text : String) : Except ParseError Program :=
  match TokenStream.ofText text with
  | .ok s => s.parse.1
  | .error e => .error (.lexical e)

end Decaf
