import Decaf.Proofs.LineLookup
import Decaf.Token.Lexer

namespace Decaf

def lexemeSpan : Lexeme → Span
  | .ok token => token.span
  | .error e => e.span

/-- A span that is not empty, on the line the index has for it. -/
structure Span.Located (lines : LineIndex) (a : Span) : Prop where
  nonempty : a.start < a.stop
  line : a.line = lines.lineOf a.start

namespace Lexer

theorem offset_lt_skip {l : Lexer} {c : Char} {cs : List Char} (h : l.rest = c :: cs)
    (more : Nat) : l.offset < (l.skip (more + 1)).offset := by
  have hpos := c.utf8Size_pos
  rw [skip, h, List.take_succ_cons, byteLength]
  dsimp only
  omega

/-- A step reads a lexeme from somewhere behind the place it starts at, up to the place it ends
at. -/
theorem read?_located {l next : Lexer} {x : Lexeme} (h : l.read? = some (x, next)) :
    (lexemeSpan x).Located l.lines ∧ l.offset ≤ (lexemeSpan x).start ∧
      next.offset = (lexemeSpan x).stop ∧ next.lines = l.lines := by
  have hskip : l.offset ≤ (l.skip (triviaLength l.rest)).offset := Nat.le_add_right _ _
  unfold read? at h
  dsimp only at h
  split at h
  · cases h
  · next c cs hrest =>
    split at h <;>
    · cases h
      exact ⟨⟨offset_lt_skip hrest _, rfl⟩, hskip, rfl, rfl⟩

theorem lexemes_located (l : Lexer) :
    (∀ x ∈ l.lexemes, (lexemeSpan x).Located l.lines ∧ l.offset ≤ (lexemeSpan x).start) ∧
      l.lexemes.Pairwise fun x y => (lexemeSpan x).stop ≤ (lexemeSpan y).start := by
  fun_induction lexemes l with
  | case1 l hread => exact ⟨fun x hx => (List.not_mem_nil hx).elim, .nil⟩
  | case2 l x next hread _ ih =>
    obtain ⟨hx, hstart, hnext, hlines⟩ := read?_located hread
    obtain ⟨hothers, hapart⟩ := ih
    have hbehind : ∀ y ∈ next.lexemes, (lexemeSpan x).stop ≤ (lexemeSpan y).start :=
      fun y hy => hnext ▸ (hothers y hy).2
    refine ⟨?_, .cons hbehind hapart⟩
    intro y hy
    rcases List.mem_cons.mp hy with rfl | hy
    · exact ⟨hx, hstart⟩
    · have hlt := hx.nonempty
      have hle := hbehind y hy
      exact ⟨hlines ▸ (hothers y hy).1, by omega⟩

end Lexer

/-- Tokens that lie one behind the other, none of them empty. -/
structure InOrder (ts : List Token) : Prop where
  nonempty : ∀ t ∈ ts, t.span.start < t.span.stop
  apart : ts.Pairwise fun t u => t.span.stop ≤ u.span.start

namespace InOrder

variable {ts us : List Token} {first last t : Token}

theorem append_left (h : InOrder (ts ++ us)) : InOrder ts :=
  ⟨fun t ht => h.nonempty t (List.mem_append_left us ht), (List.pairwise_append.mp h.apart).1⟩

theorem append_right (h : InOrder (ts ++ us)) : InOrder us :=
  ⟨fun t ht => h.nonempty t (List.mem_append_right ts ht), (List.pairwise_append.mp h.apart).2.1⟩

theorem stop_le_start (h : InOrder (ts ++ us)) {u : Token} (ht : t ∈ ts) (hu : u ∈ us) :
    t.span.stop ≤ u.span.start :=
  (List.pairwise_append.mp h.apart).2.2 t ht u hu

theorem head_le (h : InOrder ts) (hfirst : ts.head? = some first) (ht : t ∈ ts) :
    first.span.start ≤ t.span.start := by
  obtain ⟨us, rfl⟩ := List.head?_eq_some_iff.mp hfirst
  rcases List.mem_cons.mp ht with rfl | hmem
  · exact Nat.le_refl _
  · have hle := (List.pairwise_cons.mp h.apart).1 t hmem
    have hlt := h.nonempty first (.head us)
    omega

theorem le_last (h : InOrder ts) (hlast : ts.getLast? = some last) (ht : t ∈ ts) :
    t.span.stop ≤ last.span.stop := by
  obtain ⟨us, rfl⟩ := List.getLast?_eq_some_iff.mp hlast
  rcases List.mem_append.mp ht with hmem | hmem
  · have hle := h.stop_le_start hmem (List.mem_singleton_self last)
    have hlt := h.nonempty last (List.mem_append_right us (List.mem_singleton_self last))
    omega
  · obtain rfl := List.mem_singleton.mp hmem
    exact Nat.le_refl _

end InOrder

theorem inOrder_of_lexemes {text : String} {ts : List Token}
    (h : (Lexer.ofText text).lexemes = ts.map .ok) :
    InOrder ts ∧ ∀ t ∈ ts, t.span.line = 1 + feedsBefore text t.span.start := by
  obtain ⟨hlocated, hapart⟩ := (Lexer.ofText text).lexemes_located
  rw [h] at hlocated hapart
  have htoken : ∀ t ∈ ts, t.span.Located (Lexer.ofText text).lines :=
    fun t ht => (hlocated (.ok t) (List.mem_map_of_mem ht)).1
  refine ⟨⟨fun t ht => (htoken t ht).nonempty, List.pairwise_map.mp hapart⟩, ?_⟩
  intro t ht
  rw [(htoken t ht).line]
  exact LineIndex.lineOf_ofText_eq text t.span.start

end Decaf
