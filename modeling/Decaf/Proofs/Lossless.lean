import Decaf.Proofs.LexerStep
import Decaf.Proofs.TokenSpans

namespace Decaf

namespace Lexical

/-- Blanks and comments in front of `rest`. A comment reaches up to a line feed or to the end of the
text. -/
inductive Skipped : List Char → List Char → Prop
  | nil (rest : List Char) : Skipped [] rest
  | blank {c : Char} {gap rest : List Char} : c ∈ [' ', '\t', '\n', '\r', '\x0c'] →
      Skipped gap rest → Skipped (c :: gap) rest
  | comment {body gap rest : List Char} : (∀ c ∈ body, c ≠ '\n') →
      (∀ c ∈ (gap ++ rest).head?, c = '\n') → Skipped gap rest →
      Skipped ('/' :: '/' :: (body ++ gap)) rest

mutual

/-- What is measured is skipped. -/
theorem skipped_triviaLength : (cs : List Char) →
    Skipped (cs.take (triviaLength cs)) (cs.drop (triviaLength cs))
  | [] => .nil []
  | c :: cs => by
    unfold triviaLength
    split
    · next hc => exact .blank (isBlank_iff.1 hc) (skipped_triviaLength cs)
    · split
      · next rest _ =>
        obtain ⟨body, gap, hbody, hend, hgap, heq⟩ := skipped_commentLength rest
        have htake : ('/' :: '/' :: rest).take (commentLength rest + 2) =
            '/' :: '/' :: (body ++ gap) := by
          rw [heq]
          rfl
        rw [htake]
        exact .comment hbody hend hgap
      · exact .nil _

theorem skipped_commentLength : (cs : List Char) → ∃ body gap, (∀ c ∈ body, c ≠ '\n') ∧
    (∀ c ∈ (gap ++ cs.drop (commentLength cs)).head?, c = '\n') ∧
    Skipped gap (cs.drop (commentLength cs)) ∧ body ++ gap = cs.take (commentLength cs)
  | [] => ⟨[], [], nofun, nofun, .nil [], rfl⟩
  | c :: cs => by
    rw [commentLength]
    split
    · next hc =>
      subst hc
      refine ⟨[], '\n' :: cs.take (triviaLength cs), nofun, ?_, ?_, rfl⟩
      · intro c hc
        exact (Option.some.inj hc).symm
      · exact .blank (by simp) (skipped_triviaLength cs)
    · next hc =>
      obtain ⟨body, gap, hbody, hend, hgap, heq⟩ := skipped_commentLength cs
      exact ⟨c :: body, gap, List.forall_mem_cons.2 ⟨hc, hbody⟩, hend, hgap,
        congrArg (c :: ·) heq⟩

end

theorem Longest.skipped {text skipped rest : List Char} (h : Longest trivia text skipped)
    (htext : text = skipped ++ rest) : Skipped skipped rest := by
  have hskipped := skipped_triviaLength text
  obtain ⟨heq, hrest⟩ := rest_unique htext h (List.take_append_drop _ _).symm (longest_trivia text)
  rw [← heq, ← hrest] at hskipped
  exact hskipped

theorem kind_spelling {pattern : TokenPattern} {w : List Char} (h : w ∈ pattern.language) :
    (pattern.kind w).spelling = String.ofList w := by
  cases pattern with
  | keyword word => rw [mem_only.1 h, String.ofList_toList]; rfl
  | punct mark => rw [mem_only.1 h, String.ofList_toList]; rfl
  | _ => rfl

theorem IsToken.spelling {text w : List Char} {kind : TokenKind} (h : IsToken text kind w) :
    kind.spelling = String.ofList w := by
  obtain ⟨hmatch, -, -⟩ := h
  exact kind_spelling hmatch.mem

end Lexical

open Lexical

/-- What a lexeme shows of the text: the token as it is written, or the unreadable text. -/
def lexemeText : Lexeme → String
  | .ok token => token.kind.spelling
  | .error e => e.text

/-- Lexemes one behind the other in the characters behind `before`. Gaps lie in front of each of
them and behind the last. -/
inductive LaidOut : List Char → List Char → List Lexeme → Prop
  | done {before gap : List Char} : Skipped gap [] → LaidOut before gap []
  | lexeme {before gap w rest : List Char} {x : Lexeme} {xs : List Lexeme} :
      Skipped gap (w ++ rest) → w ≠ [] → lexemeText x = String.ofList w →
      (lexemeSpan x).start = byteLength (before ++ gap) →
      (lexemeSpan x).stop = byteLength (before ++ gap ++ w) →
      LaidOut (before ++ gap ++ w) rest xs → LaidOut before (gap ++ (w ++ rest)) (x :: xs)

namespace Lexer

variable {l next : Lexer} {x : Lexeme}

theorem read?_eq_none_iff : l.read? = none ↔ l.rest.drop (triviaLength l.rest) = [] := by
  unfold read?
  dsimp only [skip]
  cases l.rest.drop (triviaLength l.rest) with
  | nil => simp
  | cons c cs =>
    dsimp only
    split <;> simp

theorem skipped_of_read?_eq_none (h : l.read? = none) : Skipped l.rest [] := by
  have hskipped := skipped_triviaLength l.rest
  have hnil := read?_eq_none_iff.1 h
  have htake : l.rest.take (triviaLength l.rest) = l.rest := by
    have happend := List.take_append_drop (triviaLength l.rest) l.rest
    rwa [hnil, List.append_nil] at happend
  rwa [htake, hnil] at hskipped

theorem read?_eq_none_of_longest (h : Longest trivia l.rest l.rest) : l.read? = none := by
  apply read?_eq_none_iff.2
  have hsame := h.unique (longest_trivia l.rest)
  rw [List.drop_eq_nil_iff]
  have hlength := congrArg List.length hsame
  rw [List.length_take] at hlength
  omega

/-- One step goes over a gap and a slice of the text. -/
theorem read?_slice (h : l.read? = some (x, next)) :
    ∃ gap w, l.rest = gap ++ (w ++ next.rest) ∧ Skipped gap (w ++ next.rest) ∧ w ≠ [] ∧
      lexemeText x = String.ofList w ∧ (lexemeSpan x).start = l.offset + byteLength gap ∧
      (lexemeSpan x).stop = l.offset + byteLength gap + byteLength w ∧
      next.offset = (lexemeSpan x).stop := by
  have hlexed : Lexed l x next := by
    have hstep := next_lexed l
    rwa [Lexer.next, h] at hstep
  cases hlexed with
  | eof hall _ =>
    rw [read?_eq_none_of_longest hall] at h
    cases h
  | @token gap w rest kind start _ hrest hlongest htoken hstart hstop =>
    subst hstart hstop
    exact ⟨gap, w, hrest, hlongest.skipped hrest, htoken.ne_nil, htoken.spelling, rfl, rfl, rfl⟩
  | @invalid gap w rest start _ hrest hlongest _ hinvalid hstart hstop =>
    subst hstart hstop
    exact ⟨gap, w, hrest, hlongest.skipped hrest, hinvalid.ne_nil, rfl, rfl, rfl, rfl⟩

theorem lexemes_laidOut (l : Lexer) {before : List Char} (hoffset : l.offset = byteLength before) :
    LaidOut before l.rest l.lexemes := by
  fun_induction lexemes l generalizing before with
  | case1 l hread => exact .done (skipped_of_read?_eq_none hread)
  | case2 l x next hread _ ih =>
    obtain ⟨gap, w, hrest, hgap, hw, htext, hstart, hstop, hnext⟩ := read?_slice hread
    have hstart' : (lexemeSpan x).start = byteLength (before ++ gap) := by
      rw [hstart, hoffset, byteLength_append]
    have hstop' : (lexemeSpan x).stop = byteLength (before ++ gap ++ w) := by
      rw [hstop, hoffset, byteLength_append, byteLength_append]
    rw [hrest]
    exact .lexeme hgap hw htext hstart' hstop' (ih (hnext.trans hstop'))

theorem lexemes_of_none (h : l.read? = none) : l.lexemes = [] := by
  rw [lexemes]
  split
  · rfl
  · next heq =>
    rw [h] at heq
    cases heq

theorem lexemes_of_some (h : l.read? = some (x, next)) : l.lexemes = x :: next.lexemes := by
  rw [lexemes]
  split
  · next heq =>
    rw [h] at heq
    cases heq
  · next heq =>
    rw [h] at heq
    cases heq
    rfl

theorem eof_of_read? (h : l.read? = some (x, next)) : next.eof = l.eof := by
  obtain ⟨gap, w, hrest, -, -, -, hstart, hstop, hnext⟩ := read?_slice h
  have hlines := (read?_located h).2.2.2
  have hend : next.offset + byteLength next.rest = l.offset + byteLength l.rest := by
    rw [hnext, hstop, hrest, byteLength_append, byteLength_append]
    omega
  simp only [eof, atEnd, spanTo, hend, hlines]

/-- The first `count` answers: all lexemes, and then the end of the text again and again. -/
theorem steps_eq (l : Lexer) (count : Nat) :
    l.steps count = (l.lexemes ++ List.replicate count (.ok l.eof : Lexeme)).take count := by
  induction count generalizing l with
  | zero => rfl
  | succ count ih =>
    rw [steps, ih]
    cases hread : l.read? with
    | none =>
      have hnext : l.next = (.ok l.eof, l.atEnd) := by rw [Lexer.next, hread]
      have hend : l.atEnd.lexemes = [] := lexemes_of_none rfl
      rw [hnext, lexemes_of_none hread, hend]
      rfl
    | some step =>
      obtain ⟨x, next⟩ := step
      have hnext : l.next = (x, next) := by rw [Lexer.next, hread]
      rw [hnext, lexemes_of_some hread, eof_of_read? hread, List.cons_append, List.take_succ_cons]
      have hless : min (count - next.lexemes.length) (count + 1) =
          min (count - next.lexemes.length) count := by
        omega
      rw [List.take_append, List.take_append, List.take_replicate, List.take_replicate, hless]

end Lexer

def slice (text : String) (a : Span) : List UInt8 :=
  (text.toUTF8.data.toList.take a.stop).drop a.start

theorem length_flatMap_utf8EncodeChar (cs : List Char) :
    (cs.flatMap String.utf8EncodeChar).length = byteLength cs := by
  induction cs with
  | nil => rfl
  | cons c cs ih =>
    rw [List.flatMap_cons, List.length_append, ih, String.length_utf8EncodeChar, byteLength]

theorem byteLength_toList (text : String) : byteLength text.toList = text.utf8ByteSize := by
  rw [← length_flatMap_utf8EncodeChar, ← toUTF8_eq_flatMap]
  rfl

section Places

variable {text : String} {before w rest : List Char}

theorem isValid_byteLength (h : text.toList = before ++ rest) :
    (⟨byteLength before⟩ : String.Pos.Raw).IsValid text := by
  apply String.Pos.Raw.isValid_iff_exists_append.2
  refine ⟨String.ofList before, String.ofList rest, ?_, ?_⟩
  · rw [← String.ofList_append, ← h, String.ofList_toList]
  · have hsize := byteLength_toList (String.ofList before)
    rw [String.toList_ofList] at hsize
    rw [hsize]
    rfl

theorem slice_eq {a : Span} (h : text.toList = before ++ (w ++ rest))
    (hstart : a.start = byteLength before) (hstop : a.stop = byteLength (before ++ w)) :
    slice text a = (String.ofList w).toUTF8.data.toList := by
  have hbytes : text.toUTF8.data.toList =
      (before ++ w).flatMap String.utf8EncodeChar ++ rest.flatMap String.utf8EncodeChar := by
    rw [toUTF8_eq_flatMap, h, ← List.append_assoc, List.flatMap_append]
  rw [slice, hbytes, toUTF8_eq_flatMap, String.toList_ofList, hstart, hstop,
    ← length_flatMap_utf8EncodeChar, ← length_flatMap_utf8EncodeChar, List.take_left,
    List.flatMap_append, List.drop_left]

end Places

/-- The stretches between spans, from `start` up to the first and from the last up to `stop`. -/
def stretches (start stop : Nat) : List Span → List (Nat × Nat)
  | [] => [(start, stop)]
  | a :: spans => (start, a.start) :: stretches a.stop stop spans

namespace LaidOut

variable {before rest : List Char} {xs : List Lexeme} {x : Lexeme}

theorem length_le (h : LaidOut before rest xs) : xs.length ≤ byteLength rest := by
  induction h with
  | done _ => exact Nat.zero_le _
  | @lexeme before gap w rest x xs _ hw _ _ _ _ ih =>
    obtain ⟨c, cs, rfl⟩ := List.exists_cons_of_ne_nil hw
    have hpos := c.utf8Size_pos
    rw [byteLength_append, byteLength_append, byteLength, List.length_cons]
    omega

theorem exists_slice (h : LaidOut before rest xs) (hx : x ∈ xs) :
    ∃ pre w post, before ++ rest = pre ++ (w ++ post) ∧ w ≠ [] ∧ lexemeText x = String.ofList w ∧
      (lexemeSpan x).start = byteLength pre ∧ (lexemeSpan x).stop = byteLength (pre ++ w) := by
  induction h with
  | done _ => cases hx
  | @lexeme before gap w rest y ys _ hw htext hstart hstop _ ih =>
    rcases List.mem_cons.mp hx with rfl | hmem
    · exact ⟨before ++ gap, w, rest, by rw [List.append_assoc], hw, htext, hstart, hstop⟩
    · obtain ⟨pre, w', post, heq, hslice⟩ := ih hmem
      refine ⟨pre, w', post, ?_, hslice⟩
      rw [← heq, List.append_assoc, List.append_assoc]

theorem exists_gap (h : LaidOut before rest xs) {i j : Nat}
    (hij : (i, j) ∈ stretches (byteLength before) (byteLength (before ++ rest))
      (xs.map lexemeSpan)) :
    ∃ pre gap post, before ++ rest = pre ++ (gap ++ post) ∧ i = byteLength pre ∧
      j = byteLength (pre ++ gap) ∧ Skipped gap post := by
  induction h with
  | @done before gap hgap =>
    cases List.mem_singleton.mp hij
    exact ⟨before, gap, [], by rw [List.append_nil], rfl, rfl, hgap⟩
  | @lexeme before gap w rest x xs hgap _ _ hstart hstop _ ih =>
    rw [List.map_cons, stretches] at hij
    rcases List.mem_cons.mp hij with heq | hmem
    · cases heq
      exact ⟨before, gap, w ++ rest, rfl, rfl, hstart, hgap⟩
    · have hall : before ++ (gap ++ (w ++ rest)) = before ++ gap ++ w ++ rest := by
        rw [List.append_assoc, List.append_assoc]
      rw [hall] at hmem ⊢
      rw [hstop] at hmem
      exact ih hmem

end LaidOut

/-- Lexemes that are slices of a text in order, with nothing but blanks and comments around them. -/
structure Lossless (text : String) (xs : List Lexeme) : Prop where
  nonempty : ∀ x ∈ xs, (lexemeSpan x).start < (lexemeSpan x).stop
  inside : ∀ x ∈ xs, (lexemeSpan x).stop ≤ text.utf8ByteSize
  boundaries : ∀ x ∈ xs, (⟨(lexemeSpan x).start⟩ : String.Pos.Raw).IsValid text ∧
    (⟨(lexemeSpan x).stop⟩ : String.Pos.Raw).IsValid text
  apart : xs.Pairwise fun x y => (lexemeSpan x).stop ≤ (lexemeSpan y).start
  texts : ∀ x ∈ xs, slice text (lexemeSpan x) = (lexemeText x).toUTF8.data.toList
  quoted : ∀ e, .error e ∈ xs → e.message = "unexpected character '" ++ e.text ++ "'"
  gaps : ∀ i j, (i, j) ∈ stretches 0 text.utf8ByteSize (xs.map lexemeSpan) →
    ∃ before gap rest, text.toList = before ++ (gap ++ rest) ∧ i = byteLength before ∧
      j = byteLength (before ++ gap) ∧ Skipped gap rest
  lines : ∀ x ∈ xs, (lexemeSpan x).line = 1 + feedsBefore text (lexemeSpan x).start

theorem lexemes_ofText_laidOut (text : String) :
    LaidOut [] text.toList (Lexer.ofText text).lexemes :=
  (Lexer.ofText text).lexemes_laidOut rfl

theorem lexemes_lossless (text : String) : Lossless text (Lexer.ofText text).lexemes := by
  have hlaid := lexemes_ofText_laidOut text
  obtain ⟨hlocated, hapart⟩ := (Lexer.ofText text).lexemes_located
  have hsize := byteLength_toList text
  constructor
  case nonempty => exact fun x hx => (hlocated x hx).1.nonempty
  case inside =>
    intro x hx
    obtain ⟨pre, w, post, htext, -, -, -, hstop⟩ := hlaid.exists_slice hx
    rw [List.nil_append] at htext
    rw [hstop, ← hsize, htext, ← List.append_assoc, byteLength_append (pre ++ w)]
    exact Nat.le_add_right _ _
  case boundaries =>
    intro x hx
    obtain ⟨pre, w, post, htext, -, -, hstart, hstop⟩ := hlaid.exists_slice hx
    rw [List.nil_append] at htext
    rw [hstart, hstop]
    exact ⟨isValid_byteLength htext, isValid_byteLength (by rw [htext, List.append_assoc])⟩
  case apart => exact hapart
  case texts =>
    intro x hx
    obtain ⟨pre, w, post, htext, -, hw, hstart, hstop⟩ := hlaid.exists_slice hx
    rw [hw]
    exact slice_eq htext hstart hstop
  case quoted => exact fun e _ => rfl
  case gaps =>
    intro i j hij
    rw [← hsize] at hij
    exact hlaid.exists_gap hij
  case lines =>
    intro x hx
    rw [(hlocated x hx).1.line]
    exact LineIndex.lineOf_ofText_eq text _

/-- A text of `n` bytes has at most `n` lexemes, which are all of it but blanks and comments; behind
them the end of the text is answered for ever. -/
theorem lexing_lossless (text : String) :
    Lossless text (Lexer.ofText text).lexemes ∧
    (Lexer.ofText text).lexemes.length ≤ text.utf8ByteSize ∧
    (∀ t, .ok t ∈ (Lexer.ofText text).lexemes → t.kind ≠ .eof) ∧
    ∀ count, (Lexer.ofText text).steps count =
      ((Lexer.ofText text).lexemes ++ List.replicate count (.ok ⟨.eof, ⟨text.utf8ByteSize,
        text.utf8ByteSize, 1 + feedsBefore text text.utf8ByteSize⟩⟩ : Lexeme)).take count := by
  have hlaid := lexemes_ofText_laidOut text
  refine ⟨lexemes_lossless text, ?_, ?_, ?_⟩
  · rw [← byteLength_toList]
    exact hlaid.length_le
  · intro t ht heof
    obtain ⟨pre, w, post, -, hne, htext, -⟩ := hlaid.exists_slice ht
    rw [lexemeText, heof] at htext
    exact hne (String.ofList_eq_empty_iff.1 htext.symm)
  · intro count
    have hend : (Lexer.ofText text).eof = ⟨.eof, ⟨text.utf8ByteSize, text.utf8ByteSize,
        1 + feedsBefore text text.utf8ByteSize⟩⟩ := by
      have hoffset : (Lexer.ofText text).atEnd.offset = text.utf8ByteSize :=
        (Nat.zero_add _).trans (byteLength_toList text)
      rw [Lexer.eof, Lexer.spanTo, hoffset, ← LineIndex.lineOf_ofText_eq]
      rfl
    rw [Lexer.steps_eq, hend]

end Decaf
