import Decaf.Proofs.FaithfulText

namespace Decaf

open scoped Computability

namespace Lexical

def blank : Language Char := one (· ∈ [' ', '\t', '\n', '\r', '\x0c'])

/-- A comment together with the line feed that ends it. -/
def closedComment : Language Char := only ['/', '/'] * (one (· ≠ '\n'))∗ * only ['\n']

def filling : Language Char := (blank + closedComment)∗

/-- Blanks and comments of which the first is a blank. -/
def separator : Language Char := blank * filling

variable {gap w rest : List Char}

theorem mem_fillingItem : w ∈ blank + closedComment ↔
    (∃ c, isBlank c = true ∧ w = [c]) ∨
      ∃ body, (∀ c ∈ body, c ≠ '\n') ∧ w = '/' :: '/' :: (body ++ ['\n']) := by
  simp only [blank, closedComment, Language.mem_add, Language.mem_mul, mem_one, mem_only,
    mem_kstar_one, isBlank_iff]
  constructor
  · rintro (⟨c, hc, rfl⟩ | ⟨_, ⟨_, rfl, body, hbody, rfl⟩, _, rfl, rfl⟩)
    · exact .inl ⟨c, hc, rfl⟩
    · exact .inr ⟨body, hbody, rfl⟩
  · rintro (⟨c, hc, rfl⟩ | ⟨body, hbody, rfl⟩)
    · exact .inl ⟨c, hc, rfl⟩
    · exact .inr ⟨_, ⟨_, rfl, body, hbody, rfl⟩, _, rfl, rfl⟩

theorem mem_separator :
    gap ∈ separator ↔ ∃ c more, isBlank c = true ∧ more ∈ filling ∧ gap = c :: more := by
  simp only [separator, blank, Language.mem_mul, mem_one, isBlank_iff]
  constructor
  · rintro ⟨_, ⟨c, hc, rfl⟩, more, hmore, rfl⟩
    exact ⟨c, more, hc, hmore, rfl⟩
  · rintro ⟨c, more, hc, hmore, rfl⟩
    exact ⟨_, ⟨c, hc, rfl⟩, more, hmore, rfl⟩

theorem filling_of_separator (h : gap ∈ separator) : gap ∈ filling := by
  obtain ⟨c, more, hc, hmore, rfl⟩ := mem_separator.1 h
  exact append_mem_kstar (x := [c]) (mem_fillingItem.2 (.inl ⟨c, hc, rfl⟩)) hmore

theorem Skipped.filling_append (h : gap ∈ filling) {more : List Char} (hmore : Skipped more rest) :
    Skipped (gap ++ more) rest := by
  refine kstar_induction (motive := fun gap => Skipped (gap ++ more) rest) hmore ?_ h
  intro x hx y _ hy
  rw [List.append_assoc]
  obtain ⟨c, hc, rfl⟩ | ⟨body, hbody, rfl⟩ := mem_fillingItem.1 hx
  · exact .blank (isBlank_iff.1 hc) hy
  · have hfeed : Skipped ('\n' :: (y ++ more)) rest := .blank (by simp) hy
    have hcomment := Skipped.comment hbody (by simp) hfeed
    simpa using hcomment

theorem joins_blank (kind : TokenKind) {c : Char} (h : isBlank c = true) :
    joins kind c = false := by
  have hc := isBlank_iff.1 h
  simp only [List.mem_cons, List.not_mem_nil, or_false] at hc
  rcases hc with rfl | rfl | rfl | rfl | rfl <;>
  · cases kind with
    | punct mark => cases mark <;> rfl
    | _ => rfl

theorem delimited_separator (kind : TokenKind) (h : gap ∈ separator) (rest : List Char) :
    Delimited kind (gap ++ rest) := by
  obtain ⟨c, more, hc, -, rfl⟩ := mem_separator.1 h
  rintro _ ⟨⟩
  exact joins_blank kind hc

end Lexical

open Lexical

theorem Written.filling {kinds : List TokenKind} {gap cs : List Char} (hgap : gap ∈ filling)
    (h : Written kinds cs) : Written kinds (gap ++ cs) := by
  cases h with
  | nil hskipped => exact .nil (hskipped.filling_append hgap)
  | cons hskipped hkind hrest hothers =>
    rw [← List.append_assoc]
    exact .cons (hskipped.filling_append hgap) hkind hrest hothers

/-- The spellings of tokens, each with the next one of the gaps behind it. -/
def interleave : List TokenKind → List (List Char) → List Char
  | [], gaps => gaps.flatten
  | kind :: kinds, [] => kind.chars ++ interleave kinds []
  | kind :: kinds, gap :: gaps => kind.chars ++ (gap ++ interleave kinds gaps)

theorem written_interleave {kinds : List TokenKind} {gaps : List (List Char)}
    (hkinds : ∀ kind ∈ kinds, WellSpelled kind) (hgaps : ∀ gap ∈ gaps, gap ∈ separator)
    (henough : kinds.length ≤ gaps.length + 1) : Written kinds (interleave kinds gaps) := by
  induction kinds generalizing gaps with
  | nil =>
    induction gaps with
    | nil => exact .nil (.nil [])
    | cons gap gaps ih =>
      obtain ⟨hgap, hgaps⟩ := List.forall_mem_cons.1 hgaps
      exact (ih hgaps (Nat.zero_le _)).filling (filling_of_separator hgap)
  | cons kind kinds ih =>
    obtain ⟨hkind, hkinds⟩ := List.forall_mem_cons.1 hkinds
    cases gaps with
    | nil =>
      obtain rfl : kinds = [] := List.length_eq_zero_iff.1 (by simpa using henough)
      exact (ih hkinds hgaps (Nat.zero_le _)).token hkind nofun
    | cons gap gaps =>
      obtain ⟨hgap, hgaps⟩ := List.forall_mem_cons.1 hgaps
      have hothers := ih hkinds hgaps (Nat.le_of_succ_le_succ henough)
      exact (hothers.filling (filling_of_separator hgap)).token hkind
        (delimited_separator kind hgap _)

/-- Tokens of any kinds but the end of the file, with separators of any kind between them, are read
back as they were written, with their texts and in their order. In front of the first one anything
that is skipped may stand, and behind the last one further separators. -/
theorem tokenize_interleave (kinds : List TokenKind) (gaps : List (List Char)) (lead : List Char)
    (hkinds : ∀ kind ∈ kinds, WellSpelled kind) (hgaps : ∀ gap ∈ gaps, gap ∈ separator)
    (henough : kinds.length ≤ gaps.length + 1) (hlead : lead ∈ filling) :
    (tokenize (String.ofList (lead ++ interleave kinds gaps))).map (List.map Token.kind) =
      .ok (kinds ++ [.eof]) := by
  apply tokenize_of_written
  rw [String.toList_ofList]
  exact (written_interleave hkinds hgaps henough).filling hlead

theorem tokenize_interleave_strokes :
    (tokenize "/ // \"\n\"//\" =\t=").map (List.map Token.kind) =
      .ok [.punct .slash, .stringLiteral "\"//\"", .punct .eq, .punct .eq, .eof] := by
  have hquoted : ['"', '/', '/', '"'] ∈ TokenPattern.stringLiteral.language :=
    TokenPattern.mem_stringLiteral.2 ⟨_, take_stringBodyLength_mem ['/', '/'], rfl⟩
  have hstring : WellSpelled (.stringLiteral "\"//\"") := .mk hquoted nofun
  have hkinds : ∀ kind ∈ [.punct .slash, .stringLiteral "\"//\"", .punct .eq, .punct .eq],
      WellSpelled kind := by
    simp only [List.forall_mem_cons]
    exact ⟨wellSpelled_punct _, hstring, wellSpelled_punct _, wellSpelled_punct _, nofun⟩
  have hcomment : ['/', '/', ' ', '"', '\n'] ∈ filling :=
    append_mem_kstar (mem_fillingItem.2 (.inr ⟨[' ', '"'], by simp, rfl⟩))
      (Language.nil_mem_kstar _)
  have hgaps : ∀ gap ∈ [' ' :: ['/', '/', ' ', '"', '\n'], [' '], ['\t']], gap ∈ separator := by
    simp only [List.forall_mem_cons]
    exact ⟨mem_separator.2 ⟨_, _, rfl, hcomment, rfl⟩,
      mem_separator.2 ⟨_, _, rfl, Language.nil_mem_kstar _, rfl⟩,
      mem_separator.2 ⟨_, _, rfl, Language.nil_mem_kstar _, rfl⟩, nofun⟩
  have hread := tokenize_interleave _ _ [] hkinds hgaps (Nat.le_refl _) (Language.nil_mem_kstar _)
  have htext : String.ofList ([] ++ interleave
      [.punct .slash, .stringLiteral "\"//\"", .punct .eq, .punct .eq]
      [' ' :: ['/', '/', ' ', '"', '\n'], [' '], ['\t']]) = "/ // \"\n\"//\" =\t=" := by
    decide
  rwa [htext] at hread

end Decaf
