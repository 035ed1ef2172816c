import Decaf.Proofs.Listings
import Decaf.Proofs.Lossless

namespace Decaf

open TokenStream

namespace Lexer

variable {l : Lexer} {x : Lexeme} {xs : List Lexeme}

/-- The place behind `count` further steps. -/
def after (l : Lexer) : Nat → Lexer
  | 0 => l
  | count + 1 => l.next.2.after count

theorem after_add (l : Lexer) (i j : Nat) : l.after (i + j) = (l.after i).after j := by
  induction i generalizing l with
  | zero => rw [Nat.zero_add, after]
  | succ i ih => rw [Nat.succ_add, after, after, ih]

theorem steps_add (l : Lexer) (i j : Nat) : l.steps (i + j) = l.steps i ++ (l.after i).steps j := by
  induction i generalizing l with
  | zero => rw [Nat.zero_add, steps, after, List.nil_append]
  | succ i ih => rw [Nat.succ_add, steps, steps, after, ih, List.cons_append]

theorem offset_le_next (l : Lexer) : l.offset ≤ l.next.2.offset := by
  cases h : l.read? with
  | none =>
    rw [next, h]
    exact Nat.le_add_right _ _
  | some step =>
    have hnext : l.next = step := by rw [next, h]
    obtain ⟨hx, hstart, hstop, -⟩ := read?_located h
    have hlt := hx.nonempty
    rw [hnext]
    omega

theorem offset_after_mono (l : Lexer) {i j : Nat} (h : i ≤ j) :
    (l.after i).offset ≤ (l.after j).offset := by
  induction h with
  | refl => exact Nat.le_refl _
  | @step j _ ih => exact Nat.le_trans ih (after_add l j 1 ▸ offset_le_next (l.after j))

theorem eof_next (l : Lexer) : l.next.2.eof = l.eof := by
  cases h : l.read? with
  | none =>
    have hend : l.atEnd.atEnd = l.atEnd := rfl
    rw [next, h, eof, hend, eof]
  | some step =>
    rw [next, h]
    exact eof_of_read? h

theorem eof_after (l : Lexer) (count : Nat) : (l.after count).eof = l.eof := by
  induction count generalizing l with
  | zero => rfl
  | succ count ih => rw [after, ih, eof_next]

theorem next_of_lexemes (l : Lexer) :
    (l.lexemes = [] ∧ l.next.1 = .ok l.eof ∧ l.next.2.lexemes = []) ∨
      l.lexemes = l.next.1 :: l.next.2.lexemes := by
  cases h : l.read? with
  | none =>
    have hnext : l.next = (.ok l.eof, l.atEnd) := by rw [next, h]
    rw [hnext]
    exact .inl ⟨lexemes_of_none h, rfl, lexemes_of_none rfl⟩
  | some step =>
    have hnext : l.next = step := by rw [next, h]
    rw [hnext]
    exact .inr (lexemes_of_some h)

theorem lexemes_after (l : Lexer) (count : Nat) :
    (l.after count).lexemes = l.lexemes.drop count := by
  induction count generalizing l with
  | zero => rfl
  | succ count ih =>
    rw [after, ih]
    rcases l.next_of_lexemes with ⟨hnil, -, hend⟩ | hcons
    · rw [hnil, hend, List.drop_nil, List.drop_nil]
    · rw [hcons, List.drop_succ_cons]

theorem steps_succ_of_nil {count : Nat} (h : l.lexemes.drop count = []) :
    l.steps (count + 1) = l.steps count ++ [.ok l.eof] := by
  rw [← lexemes_after] at h
  rcases (l.after count).next_of_lexemes with ⟨-, hend, -⟩ | hcons
  · rw [steps_add, steps, hend, eof_after, steps]
  · rw [h] at hcons
    cases hcons

theorem steps_succ_of_cons {count : Nat} (h : l.lexemes.drop count = x :: xs) :
    l.steps (count + 1) = l.steps count ++ [x] ∧ l.lexemes.drop (count + 1) = xs := by
  have hdrop : l.lexemes.drop (count + 1) = xs := by
    rw [← List.drop_drop, h, List.drop_succ_cons, List.drop_zero]
  refine ⟨?_, hdrop⟩
  rw [← lexemes_after] at h
  rcases (l.after count).next_of_lexemes with ⟨hnil, -, -⟩ | hcons
  · rw [hnil] at h
    cases h
  · rw [h] at hcons
    cases hcons
    rw [steps_add, steps, steps]

theorem mem_steps {count : Nat} (h : x ∈ l.steps count) : x ∈ l.lexemes ∨ x = .ok l.eof := by
  rw [steps_eq] at h
  exact (List.mem_append.1 (List.mem_of_mem_take h)).imp_right List.eq_of_mem_replicate

theorem steps_starts_le (text : String) (count : Nat) :
    ((ofText text).steps count).Pairwise
      fun x y => (lexemeSpan x).start ≤ (lexemeSpan y).start := by
  have hlossless := lexemes_lossless text
  have hend : (ofText text).eof.span.start = text.utf8ByteSize :=
    (Nat.zero_add _).trans (byteLength_toList text)
  rw [steps_eq]
  apply List.Pairwise.sublist (List.take_sublist _ _)
  rw [List.pairwise_append]
  refine ⟨?_, ?_, ?_⟩
  · apply hlossless.apart.imp_of_mem
    intro x y hx _ hle
    have hlt := hlossless.nonempty x hx
    omega
  · exact List.pairwise_replicate.2 (.inr (Nat.le_refl _))
  · intro x hx y hy
    rw [List.eq_of_mem_replicate hy]
    have hlt := hlossless.nonempty x hx
    have hle := hlossless.inside x hx
    change _ ≤ (ofText text).eof.span.start
    omega

end Lexer

def lexemeToken? : Lexeme → Option Token
  | .ok t => some t
  | .error _ => none

def lastToken? (xs : List Lexeme) : Option Token := (xs.filterMap lexemeToken?).getLast?

theorem lastToken?_append (xs ys : List Lexeme) :
    lastToken? (xs ++ ys) = (lastToken? ys).or (lastToken? xs) := by
  rw [lastToken?, List.filterMap_append, List.getLast?_append, lastToken?, lastToken?]

theorem ok_mem_of_lastToken? {xs : List Lexeme} {t : Token} (h : lastToken? xs = some t) :
    .ok t ∈ xs := by
  obtain ⟨x, hx, ht⟩ := List.mem_filterMap.1 (List.mem_of_getLast? h)
  cases x with
  | error e => cases ht
  | ok u =>
    cases ht
    exact hx

namespace TokenStream

variable {text : String} {s next : TokenStream} {t : Token} {ts : List Token} {count : Nat}

/-- The lexer of the text has been asked `count` times and has led to this stream: the current token
is the last one that it has given, and what is left is what it will give. -/
structure Stands (text : String) (count : Nat) (s : TokenStream) : Prop where
  size : s.size + count = (Lexer.ofText text).lexemes.length + 1
  rest : ((Lexer.ofText text).after count).lexemes = s.rest
  textEnd : ((Lexer.ofText text).after count).eof.span = s.textEnd
  current : lastToken? ((Lexer.ofText text).steps count) = some s.current

theorem stands_iff : Stands text count s ↔
    s.size + count = (Lexer.ofText text).lexemes.length + 1 ∧
      (Lexer.ofText text).lexemes.drop count = s.rest ∧
      (Lexer.ofText text).eof.span = s.textEnd ∧
      lastToken? ((Lexer.ofText text).steps count) = some s.current := by
  rw [← Lexer.lexemes_after, ← Lexer.eof_after _ count]
  exact ⟨fun ⟨h₁, h₂, h₃, h₄⟩ => ⟨h₁, h₂, h₃, h₄⟩, fun ⟨h₁, h₂, h₃, h₄⟩ => ⟨h₁, h₂, h₃, h₄⟩⟩

theorem size_of_live {rest : List Lexeme} {textEnd : Span} (h : t.kind ≠ .eof) :
    (TokenStream.mk t rest textEnd).size = rest.length + 1 := by
  have hkind : (TokenStream.mk t rest textEnd).kind ≠ .eof := h
  rw [size, if_neg hkind]

theorem stands_ofText (h : TokenStream.ofText text = .ok s) : Stands text 1 s := by
  rw [stands_iff]
  unfold TokenStream.ofText at h
  dsimp only at h
  split at h
  · next hnil =>
    cases h
    have hdrop : (Lexer.ofText text).lexemes.drop 0 = [] := hnil
    rw [Lexer.steps_succ_of_nil hdrop, hnil]
    exact ⟨rfl, rfl, rfl, rfl⟩
  · next first rest hcons =>
    cases h
    have hmem : .ok first ∈ (Lexer.ofText text).lexemes := by
      rw [hcons]
      exact .head rest
    have hall : (Lexer.ofText text).lexemes.drop 0 = .ok first :: rest := hcons
    obtain ⟨hsteps, hdrop⟩ := Lexer.steps_succ_of_cons hall
    rw [hsteps, hdrop, size_of_live ((Lexer.ofText text).lexemes_scannable hmem).live, hcons]
    exact ⟨rfl, rfl, rfl, rfl⟩
  · cases h

theorem Step.stands (h : Step s t next) (hs : Stands text count s) :
    Stands text (count + 1) next := by
  rw [stands_iff] at hs ⊢
  obtain ⟨hsize, hrest, hend, -⟩ := hs
  cases h with
  | @last _ textEnd hlive =>
    rw [size_of_live hlive] at hsize
    have hdrop : (Lexer.ofText text).lexemes.drop (count + 1) = [] := by
      rw [← List.drop_drop, hrest, List.drop_nil]
    rw [Lexer.steps_succ_of_nil hrest, lastToken?_append, hdrop]
    refine ⟨?_, rfl, hend, ?_⟩
    · rw [← hsize, Nat.add_comm count]
      exact Nat.zero_add _
    · have hspan : (Lexer.ofText text).eof.span = textEnd := hend
      rw [← hspan]
      rfl
  | @token _ u rest _ hlive =>
    have hmem : .ok u ∈ (Lexer.ofText text).lexemes := by
      apply List.mem_of_mem_drop (i := count)
      rw [hrest]
      exact .head rest
    obtain ⟨hsteps, hdrop⟩ := Lexer.steps_succ_of_cons hrest
    rw [size_of_live hlive, List.length_cons] at hsize
    rw [size_of_live ((Lexer.ofText text).lexemes_scannable hmem).live, hsteps, lastToken?_append]
    exact ⟨by omega, hdrop, hend, rfl⟩

theorem Stands.dropping {x : LexicalError} {rest : List Lexeme} {textEnd : Span}
    (h : Stands text count ⟨t, .error x :: rest, textEnd⟩) (hlive : t.kind ≠ .eof) :
    Stands text (count + 1) ⟨t, rest, textEnd⟩ := by
  rw [stands_iff] at h ⊢
  obtain ⟨hsize, hrest, hend, hcurrent⟩ := h
  obtain ⟨hsteps, hdrop⟩ := Lexer.steps_succ_of_cons hrest
  rw [size_of_live hlive, List.length_cons] at hsize
  rw [size_of_live hlive, hsteps, lastToken?_append]
  exact ⟨by omega, hdrop, hend, hcurrent⟩

theorem Reads.stands (h : Reads s ts next) (hs : Stands text count s) :
    Stands text (count + ts.length) next := by
  induction h generalizing count with
  | nil => exact hs
  | @cons _ _ _ _ ts hstep _ ih =>
    have hcount : count + (ts.length + 1) = count + 1 + ts.length := by omega
    rw [List.length_cons, hcount]
    exact ih (hstep.stands hs)

theorem Stands.current_eq_eof (h : Stands text count s) (heof : s.kind = .eof) :
    s.current = (Lexer.ofText text).eof := by
  rcases Lexer.mem_steps (ok_mem_of_lastToken? h.current) with hmem | heq
  · exact absurd heof ((Lexer.ofText text).lexemes_scannable hmem).live
  · exact Except.ok.inj heq

theorem Stands.forward {count' : Nat} {s' : TokenStream} (h : Stands text count s)
    (h' : Stands text count' s') (hle : count ≤ count') :
    s.span.start ≤ s'.span.start ∧
      ((Lexer.ofText text).after count).offset ≤ ((Lexer.ofText text).after count').offset := by
  refine ⟨?_, Lexer.offset_after_mono _ hle⟩
  obtain ⟨more, rfl⟩ := Nat.exists_eq_add_of_le hle
  have hcurrent := h'.current
  have hordered := Lexer.steps_starts_le text (count + more)
  rw [Lexer.steps_add] at hcurrent hordered
  rw [lastToken?_append, h.current] at hcurrent
  cases hlast : lastToken? (((Lexer.ofText text).after count).steps more) with
  | none =>
    rw [hlast] at hcurrent
    rw [span, span, Option.some.inj hcurrent]
  | some t =>
    rw [hlast] at hcurrent
    have hbehind := (List.pairwise_append.1 hordered).2.2 (.ok s.current)
      (ok_mem_of_lastToken? h.current) (.ok t) (ok_mem_of_lastToken? hlast)
    rw [span, span, ← Option.some.inj hcurrent]
    exact hbehind

/-- The error of a stream that does not begin with a class. -/
def classWanted (t : Token) : ParseError :=
  .grammar (.unexpected (.token (.keyword .classDecl)) t.kind) t.span

theorem parse_of_not_class (h : s.kind ≠ .keyword .classDecl) :
    s.parse = (.error (classWanted s.current), s) := by
  have hkeyword : s.keyword .classDecl = s.reject (.token (.keyword .classDecl)) := by
    rw [keyword, expect, pick_eq_reject (if_neg h)]
    rfl
  rw [TokenStream.parse, Parser.program, hkeyword]
  rfl

/-- What an attempt answers and where it leaves the stream. If the text is unreadable behind a token
that is to be left, the token stays and the unreadable text is gone. -/
inductive Attempted (s : TokenStream) : Except ParseError Program → TokenStream → Prop
  | program {ts : List Token} {next : TokenStream} (p : Program) : Reads s ts next →
      next.kind = .eof → Attempted s (.ok p) next
  | stuck {front : List Token} {next : TokenStream} (fault : GrammarFault) (a : Span) :
      Reads s front next → (s.kind = .keyword .classDecl → front ≠ []) →
      Attempted s (.error (.grammar fault a)) next
  | broken {front : List Token} {t : Token} {x : LexicalError} {rest : List Lexeme}
      {textEnd : Span} : Reads s front ⟨t, .error x :: rest, textEnd⟩ → t.kind ≠ .eof →
      Attempted s (.error (.lexical x)) ⟨t, rest, textEnd⟩

theorem viable_class : Viable [.keyword .classDecl] :=
  ⟨_, canonical_empty "P", [.identifier "P", .punct .lbrace, .punct .rbrace, .eof], rfl⟩

theorem parse_attempted (s : TokenStream) : Attempted s s.parse.1 s.parse.2 := by
  cases Parser.program_predictive.outcome s (Nat.lt_succ_self s.size) with
  | @gives _ p next hread _ htwin =>
    have hgives := htwin s next hread rfl
    obtain ⟨ts, hts, -, hend⟩ := Parser.program_spelled hgives
    obtain ⟨_, heq⟩ := hgives
    rw [TokenStream.parse, heq]
    exact .program p hts hend
  | @rejects front fault a next hread _ _ htwin =>
    rw [TokenStream.parse, htwin s next hread rfl]
    refine .stuck fault a hread ?_
    -- A program can begin with a class, so the parser does not stop there.
    rintro hclass rfl
    apply not_viable_of_rejects hread htwin
    have hkinds : ([] ++ [next.current]).map Token.kind = [.keyword .classDecl] := by
      rw [← hclass, ← reads_nil.1 hread]
      rfl
    exact hkinds ▸ viable_class
  | breaks hread hlive _ heq =>
    rw [TokenStream.parse, heq]
    exact .broken hread hlive

/-- The unreadable text that an attempt reports. -/
def lexicalError? : Except ParseError Program → Option LexicalError
  | .error (.lexical x) => some x
  | _ => none

/-- Unreadable text in front of which a stream stands. -/
def unread (s : TokenStream) : List LexicalError := s.rest.filterMap lexemeError?

theorem Step.unread_eq (h : Step s t next) : s.unread = next.unread := by
  cases h <;> rfl

theorem Reads.unread_eq (h : Reads s ts next) : s.unread = next.unread := by
  induction h with
  | nil => rfl
  | cons hstep _ ih => rw [hstep.unread_eq, ih]

theorem Reads.size_lt (h : Reads s ts next) (hne : ts ≠ []) : next.size < s.size := by
  cases h with
  | nil => exact absurd rfl hne
  | cons hstep hrest => exact Nat.lt_of_le_of_lt hrest.size_le hstep.shorter

namespace Attempted

variable {answer : Except ParseError Program}

theorem stands (h : Attempted s answer next) (hs : Stands text count s) :
    ∃ more, count ≤ more ∧ Stands text more next := by
  cases h with
  | program p hread _ => exact ⟨_, Nat.le_add_right _ _, hread.stands hs⟩
  | stuck fault a hread _ => exact ⟨_, Nat.le_add_right _ _, hread.stands hs⟩
  | broken hread hlive =>
    exact ⟨_, Nat.le_succ_of_le (Nat.le_add_right _ _), (hread.stands hs).dropping hlive⟩

/-- Unreadable text is passed by in the order of the text, and only by reporting it. -/
theorem unread_eq (h : Attempted s answer next) :
    s.unread = (lexicalError? answer).toList ++ next.unread := by
  cases h with
  | program p hread _ => exact hread.unread_eq
  | stuck fault a hread _ => exact hread.unread_eq
  | broken hread _ => exact hread.unread_eq

theorem size_lt (h : Attempted s answer next) (hclass : s.kind = .keyword .classDecl) :
    next.size < s.size := by
  cases h with
  | program p hread hend =>
    apply hread.size_lt
    rintro rfl
    rw [reads_nil.1 hread, hclass] at hend
    cases hend
  | stuck fault a hread hne => exact hread.size_lt (hne hclass)
  | @broken front t x rest textEnd hread hlive =>
    have hle := hread.size_le
    rw [size_of_live hlive, List.length_cons] at hle
    rw [size_of_live hlive]
    omega

theorem kind_eq_eof {p : Program} (h : Attempted s (.ok p) next) : next.kind = .eof := by
  cases h with
  | program _ _ hend => exact hend

/-- The token behind which the text is unreadable stays the current one. -/
theorem keeps_token {x : LexicalError} (h : Attempted s (.error (.lexical x)) next) :
    ∃ front t rest textEnd, Reads s front ⟨t, .error x :: rest, textEnd⟩ ∧
      next = ⟨t, rest, textEnd⟩ := by
  cases h with
  | broken hread _ => exact ⟨_, _, _, _, hread, rfl⟩

end Attempted

/-- The stream that `count` attempts leave. -/
def behind (s : TokenStream) : Nat → TokenStream
  | 0 => s
  | count + 1 => s.parse.2.behind count

/-- What the attempt behind `i` others answers. -/
def answer (s : TokenStream) (i : Nat) : Except ParseError Program := (s.behind i).parse.1

theorem parseTimes_eq (s : TokenStream) (count : Nat) :
    s.parseTimes count = (List.range count).map s.answer := by
  induction count generalizing s with
  | zero => rfl
  | succ count ih =>
    rw [parseTimes, ih, List.range_succ_eq_map, List.map_cons, List.map_map]
    rfl

theorem behind_add (s : TokenStream) (i j : Nat) : s.behind (i + j) = (s.behind i).behind j := by
  induction i generalizing s with
  | zero => rw [Nat.zero_add, behind]
  | succ i ih => rw [Nat.succ_add, behind, behind, ih]

theorem behind_succ (s : TokenStream) (i : Nat) : s.behind (i + 1) = (s.behind i).parse.2 :=
  s.behind_add i 1

theorem attempted_answer (s : TokenStream) (i : Nat) :
    Attempted (s.behind i) (s.answer i) (s.behind (i + 1)) := by
  rw [behind_succ]
  exact parse_attempted (s.behind i)

theorem Stands.behind (h : Stands text count s) (i : Nat) :
    ∃ more, count ≤ more ∧ Stands text more (s.behind i) := by
  induction i with
  | zero => exact ⟨count, Nat.le_refl _, h⟩
  | succ i ih =>
    obtain ⟨more, hmore, hstands⟩ := ih
    obtain ⟨most, hmost, hlast⟩ := (s.attempted_answer i).stands hstands
    exact ⟨most, Nat.le_trans hmore hmost, hlast⟩

theorem Stands.unique {count' : Nat} (h : Stands text count s) (h' : Stands text count' s) :
    count = count' := by
  have hsize := h.size
  have hsize' := h'.size
  omega

theorem Stands.forward_behind {i j m n : Nat} (hm : Stands text m (s.behind i))
    (hn : Stands text n (s.behind j)) (hij : i ≤ j) :
    (s.behind i).span.start ≤ (s.behind j).span.start ∧
      ((Lexer.ofText text).after m).offset ≤ ((Lexer.ofText text).after n).offset := by
  obtain ⟨more, rfl⟩ := Nat.exists_eq_add_of_le hij
  rw [behind_add] at hn ⊢
  obtain ⟨n', hle, hn'⟩ := hm.behind more
  exact hm.forward hn (hn'.unique hn ▸ hle)

theorem unread_eq_answers (s : TokenStream) (count : Nat) :
    s.unread = (s.parseTimes count).filterMap lexicalError? ++ (s.behind count).unread := by
  induction count generalizing s with
  | zero => rfl
  | succ count ih =>
    rw [(parse_attempted s).unread_eq, ih s.parse.2, parseTimes, behind, List.filterMap_cons]
    cases lexicalError? s.parse.1 <;> rfl

theorem behind_of_not_class (h : s.kind ≠ .keyword .classDecl) (i : Nat) : s.behind i = s := by
  induction i with
  | zero => rfl
  | succ i ih => rw [behind_succ, ih, parse_of_not_class h]

/-- Once as many attempts have been made as there are lexemes left, nothing changes any more. -/
theorem behind_settled (s : TokenStream) {i : Nat} (hi : s.size ≤ i) :
    s.behind i = s.behind s.size := by
  induction hn : s.size using Nat.strongRecOn generalizing s i with
  | ind n ih =>
    by_cases hclass : s.kind = .keyword .classDecl
    · have hlt := (parse_attempted s).size_lt hclass
      obtain ⟨m, hm⟩ : ∃ m, n = m + 1 := ⟨n - 1, by omega⟩
      obtain ⟨j, hj⟩ : ∃ j, i = j + 1 := ⟨i - 1, by omega⟩
      have hrest : ∀ k, s.parse.2.size ≤ k → s.parse.2.behind k = s.parse.2.behind s.parse.2.size :=
        fun k hk => ih _ (hn ▸ hlt) s.parse.2 hk rfl
      rw [hm, hj, behind, behind, hrest j (by omega), hrest m (by omega)]
    · rw [behind_of_not_class hclass, behind_of_not_class hclass]

theorem unread_ofText (h : TokenStream.ofText text = .ok s) : s.unread = unreadable text := by
  unfold TokenStream.ofText at h
  rw [unreadable]
  dsimp only at h
  split at h
  · next hnil =>
    cases h
    rw [hnil]
    rfl
  · next hcons =>
    cases h
    rw [hcons]
    rfl
  · cases h

theorem unreadable_nodup (text : String) : (unreadable text).Nodup := by
  have hlossless := lexemes_lossless text
  refine (hlossless.apart.imp_of_mem ?_).filterMap lexemeError? fun _ _ h => h
  rintro x y hx - hle e he e' he' rfl
  have hxy : x = y := by
    cases x with
    | ok t => cases he
    | error d =>
      cases y with
      | ok t => cases he'
      | error d' => rw [Option.some.inj he, Option.some.inj he']
  subst hxy
  have hlt := hlossless.nonempty x hx
  omega

/-- Unreadable text that an attempt reports is not in front of the stream any more. -/
theorem not_mem_unread_of_reported {x : LexicalError} {i j : Nat} (hs : s.unread.Nodup)
    (hi : s.answer i = .error (.lexical x)) (hlt : i < j) : x ∉ (s.behind j).unread := by
  obtain ⟨more, rfl⟩ := Nat.exists_eq_add_of_le (Nat.succ_le_of_lt hlt)
  rw [s.unread_eq_answers i, (s.attempted_answer i).unread_eq, hi] at hs
  have hfirst : (x :: (s.behind (i + 1)).unread).Nodup := (List.nodup_append.1 hs).2.1
  rw [behind_add]
  intro hx
  apply (List.nodup_cons.1 hfirst).1
  rw [(s.behind (i + 1)).unread_eq_answers more]
  exact List.mem_append_right _ hx

theorem eq_of_reported {x : LexicalError} {i j : Nat} (hs : s.unread.Nodup)
    (hi : s.answer i = .error (.lexical x)) (hj : s.answer j = .error (.lexical x)) : i = j := by
  have hmem : ∀ k, s.answer k = .error (.lexical x) → x ∈ (s.behind k).unread := by
    intro k hk
    rw [(s.attempted_answer k).unread_eq, hk]
    exact .head _
  -- The later one of two reports would find the text gone.
  rcases Nat.lt_trichotomy i j with hlt | heq | hgt
  · exact absurd (hmem j hj) (not_mem_unread_of_reported hs hi hlt)
  · exact heq
  · exact absurd (hmem i hi) (not_mem_unread_of_reported hs hj hgt)

def WantsClass (t : Token) (answer : Except ParseError Program) : Prop :=
  ∃ e, answer = .error e ∧
    Failure.ofParseError e = .parser ("expected 'class', found " ++ t.kind.describe) t.span

theorem wantsClass_of_not_class (h : s.kind ≠ .keyword .classDecl) :
    WantsClass s.current s.parse.1 := by
  rw [parse_of_not_class h]
  exact ⟨_, rfl, rfl⟩

theorem wantsClass_of_program {p : Program} {i j : Nat} (hs : Stands text count s)
    (hi : s.answer i = .ok p) (hij : i < j) :
    WantsClass (Lexer.ofText text).eof (s.answer j) := by
  have hattempt := s.attempted_answer i
  rw [hi] at hattempt
  have hend := hattempt.kind_eq_eof
  have hne : (s.behind (i + 1)).kind ≠ .keyword .classDecl := by
    rw [hend]
    exact TokenKind.noConfusion
  obtain ⟨more, rfl⟩ := Nat.exists_eq_add_of_le (Nat.succ_le_of_lt hij)
  obtain ⟨_, -, hstands⟩ := hs.behind (i + 1)
  rw [answer, behind_add, behind_of_not_class hne, ← hstands.current_eq_eof hend]
  exact wantsClass_of_not_class hne

/-- What repeated attempts on the stream of a text come to. -/
structure RetriesSafely (text : String) (s : TokenStream) : Prop where
  answers : ∀ count, s.parseTimes count = (List.range count).map s.answer
  stands : ∀ i, ∃ count, Stands text count (s.behind i)
  forward : ∀ i j m n, i ≤ j → Stands text m (s.behind i) → Stands text n (s.behind j) →
    (s.behind i).span.start ≤ (s.behind j).span.start ∧
      ((Lexer.ofText text).after m).offset ≤ ((Lexer.ofText text).after n).offset
  inOrder : ∀ count, (s.parseTimes count).filterMap lexicalError? <+: unreadable text
  once : ∀ i j x, s.answer i = .error (.lexical x) → s.answer j = .error (.lexical x) → i = j
  keepsToken : ∀ i x, s.answer i = .error (.lexical x) → ∃ front t rest textEnd,
    Reads (s.behind i) front ⟨t, .error x :: rest, textEnd⟩ ∧ s.behind (i + 1) = ⟨t, rest, textEnd⟩
  waits : ∀ i, (s.behind i).kind ≠ .keyword .classDecl →
    WantsClass (s.behind i).current (s.answer i) ∧ s.behind (i + 1) = s.behind i
  finished : ∀ i p, s.answer i = .ok p → ∀ j > i, WantsClass (Lexer.ofText text).eof (s.answer j)
  settles : ∀ j ≥ (Lexer.ofText text).lexemes.length,
    s.answer j = s.answer (Lexer.ofText text).lexemes.length

/-- Parsing again after any answer is safe: nothing is read twice, nothing is reported twice, and in
the end the answers repeat themselves. -/
theorem retries_safe (h : TokenStream.ofText text = .ok s) : RetriesSafely text s := by
  have hstart := stands_ofText h
  have hunread := unread_ofText h
  constructor
  case answers => exact s.parseTimes_eq
  case stands => exact fun i => (hstart.behind i).imp fun _ => And.right
  case forward => exact fun i j m n hij hm hn => hm.forward_behind hn hij
  case inOrder => exact fun count => ⟨_, (s.unread_eq_answers count).symm.trans hunread⟩
  case once => exact fun i j x => eq_of_reported (hunread ▸ unreadable_nodup text)
  case keepsToken =>
    intro i x hi
    have hattempt := s.attempted_answer i
    rw [hi] at hattempt
    exact hattempt.keeps_token
  case waits =>
    intro i hi
    refine ⟨wantsClass_of_not_class hi, ?_⟩
    rw [behind_succ, parse_of_not_class hi]
  case finished => exact fun i p hi j hij => wantsClass_of_program hstart hi hij
  case settles =>
    intro j hj
    have hsize : s.size = (Lexer.ofText text).lexemes.length := Nat.succ.inj hstart.size
    rw [answer, answer, ← hsize, s.behind_settled (hsize ▸ hj)]

theorem retries_safe_unreadable :
    ∃ s p, TokenStream.ofText "class # P\x7b\x7d" = .ok s ∧ RetriesSafely "class # P\x7b\x7d" s ∧
      s.parseTimes 3 = [.error (.lexical ⟨"#", ⟨6, 7, 1⟩⟩), .ok p,
        .error (.grammar (.unexpected (.token (.keyword .classDecl)) .eof) ⟨11, 11, 1⟩)] := by
  have hs : TokenStream.ofText "class # P\x7b\x7d" = .ok ⟨⟨.keyword .classDecl, ⟨0, 5, 1⟩⟩,
      [.error ⟨"#", ⟨6, 7, 1⟩⟩, .ok ⟨.identifier "P", ⟨8, 9, 1⟩⟩, .ok ⟨.punct .lbrace, ⟨9, 10, 1⟩⟩,
        .ok ⟨.punct .rbrace, ⟨10, 11, 1⟩⟩], ⟨11, 11, 1⟩⟩ := by
    cbv
  exact ⟨_, ⟨"P", [], [], ⟨0, 11, 1⟩, 1⟩, hs, retries_safe hs, by cbv⟩

end TokenStream

end Decaf
